import KCarrier.Lock

/-!
# KCarrier.Lock.Exclusion

Mutual exclusion of the upgrade lock.

Safety rests on the claims, not on the lock file: of two live guards that have begun
to list, the later one owes the earlier one's claim to its listing
(`Inv.owed`), and a claim of a live guard is never swept (`Inv.sweeping`), so at most
one of them gets past its listing.
-/

namespace KCarrier

namespace UpgradeLock

variable {P G : Type} {env : Contenders P G} {s t : State P G}

/-! ## classes of stages -/

/-- The listing is over and succeeded. -/
def Stage.passed : Stage → Bool
  | .creating _ | .reading _ | .reclaiming _ | .writing _ | .written | .held | .retained
  | .releasing | .unlocked => true
  | _ => false

/-- The listing has begun, and the guard has not failed. -/
def Stage.engaged : Stage → Bool
  | .scanning | .sweeping _ => true
  | x => x.passed

/-- The guard's claim is there. -/
def Stage.claims : Stage → Bool
  | .claimed | .failing => true
  | x => x.engaged

/-- `acquire_at` returned and the guard was not released. -/
def Stage.holds : Stage → Bool
  | .held | .retained | .releasing | .unlocked => true
  | _ => false

theorem Stage.engaged_of_passed {x : Stage} (h : x.passed = true) : x.engaged = true := by
  cases x <;> simp_all [Stage.engaged, Stage.passed]

theorem Stage.claims_of_engaged {x : Stage} (h : x.engaged = true) : x.claims = true := by
  cases x <;> simp_all [Stage.claims, Stage.engaged, Stage.passed]

theorem Stage.passed_of_holds {x : Stage} (h : x.holds = true) : x.passed = true := by
  cases x <;> simp_all [Stage.holds, Stage.passed]

theorem Stage.claims_of_attempting {x : Stage} (h : x.attempting = true) : x.claims = true := by
  cases x <;> simp_all [Stage.claims, Stage.engaged, Stage.passed, Stage.attempting]

/-! ## the invariant -/

/-- The guard's process is alive. -/
def Live (env : Contenders P G) (s : State P G) (g : G) : Prop := ¬s.dead (env.process g)

structure Inv (env : Contenders P G) (s : State P G) : Prop where
  /-- a live guard that claimed is in the directory -/
  claimed : ∀ g, Live env s g → (s.stage g).claims = true → env.name g ∈ s.claims
  /-- a claim of a guard is there only once it was made -/
  made : ∀ g, env.name g ∈ s.claims → s.stage g ≠ .idle
  /-- a finished listing owes nothing -/
  passed : ∀ g, (s.stage g).passed = true → s.must g = []
  /-- what is swept belongs to no live guard -/
  sweeping : ∀ g entry, s.stage g = .sweeping entry → ∀ h, env.name h = entry → ¬Live env s h
  /-- of two live guards that have begun to list, one owes the other's claim -/
  owed : ∀ g h, g ≠ h → Live env s g → Live env s h → (s.stage g).engaged = true →
    (s.stage h).engaged = true → env.name g ∈ s.must h ∨ env.name h ∈ s.must g

theorem Initial.inv (h : Initial env s) : Inv env s where
  claimed g _ hc := by
    rw [h.idle g] at hc
    cases hc
  made g hg := absurd hg (h.unclaimed g)
  passed g hp := by
    rw [h.idle g] at hp
    cases hp
  sweeping g entry hs := by
    rw [h.idle g] at hs
    cases hs
  owed g h' _ _ _ hg := by
    rw [h.idle g] at hg
    cases hg

/-- **Mutual exclusion of the listings**: at most one live guard is past its listing. -/
theorem Inv.exclusive (hi : Inv env s) {g h : G} (hg : Live env s g) (hh : Live env s h)
    (hpg : (s.stage g).passed = true) (hph : (s.stage h).passed = true) : g = h := by
  by_cases hne : g = h
  · exact hne
  · have howed := hi.owed g h hne hg hh (Stage.engaged_of_passed hpg) (Stage.engaged_of_passed hph)
    rw [hi.passed g hpg, hi.passed h hph] at howed
    simp at howed

/-- What the lock file holds is no part of the invariant. -/
theorem Inv.relock (hi : Inv env s) (lock : Option Nat) (files : Nat) (record : Nat → Option Nat) :
    Inv env { s with lock := lock, files := files, record := record } :=
  ⟨hi.claimed, hi.made, hi.passed, hi.sweeping, hi.owed⟩

/-- A death only takes guards out of the invariant's reach. -/
theorem Inv.die (hi : Inv env s) (p : P) :
    Inv env { s with dead := fun q => s.dead q ∨ q = p } where
  claimed g hl hc := hi.claimed g (fun hd => hl (.inl hd)) hc
  made := hi.made
  passed := hi.passed
  sweeping g entry hs h hname hl := hi.sweeping g entry hs h hname fun hd => hl (.inl hd)
  owed g h hne hlg hlh hg hh :=
    hi.owed g h hne (fun hd => hlg (.inl hd)) (fun hd => hlh (.inl hd)) hg hh

/-- An entry whose process may be reported dead belongs to no live guard. -/
theorem not_live_of_mayReportDead {entry : String} {pid : Nat} (howner : ownerOf entry = some pid)
    (hdead : s.MayReportDead env pid) (h : G) (hname : env.name h = entry) : ¬Live env s h := by
  intro hl
  have hpid : ownerOf (env.name h) = some (env.pid (env.process h)) :=
    ownerOf_claimName _ (env.pid_pos _) (env.pid_lt _)
  rw [hname, howner] at hpid
  cases hpid
  exact hdead _ hl rfl

theorem mem_filter_of_ne {names : List String} {a b : String} (h : a ∈ names) (hne : a ≠ b) :
    a ∈ names.filter (· != b) := by
  rw [List.mem_filter]
  exact ⟨h, by simpa using hne⟩

/-- Removing a claim that no live guard still needs. -/
theorem Inv.remove (hi : Inv env s) {entry : String}
    (hfree : ∀ h, env.name h = entry → Live env s h → (s.stage h).claims = false) :
    Inv env (s.unclaimed entry) := by
  have hkeep : ∀ h, Live env s h → (s.stage h).claims = true → env.name h ≠ entry := by
    intro h hl hc heq
    rw [hfree h heq hl] at hc
    cases hc
  refine ⟨?_, ?_, ?_, hi.sweeping, ?_⟩
  · intro h hl hc
    exact mem_filter_of_ne (hi.claimed h hl hc) (hkeep h hl hc)
  · intro h hm
    exact hi.made h (List.mem_filter.mp hm).1
  · intro h hp
    have hnil : s.must h = [] := hi.passed h hp
    simp only [State.unclaimed, hnil, List.filter_nil]
  · intro g h hne hlg hlh hg hh
    have hgname := hkeep g hlg (Stage.claims_of_engaged hg)
    have hhname := hkeep h hlh (Stage.claims_of_engaged hh)
    cases hi.owed g h hne hlg hlh hg hh with
    | inl hm => exact .inl (mem_filter_of_ne hm hgname)
    | inr hm => exact .inr (mem_filter_of_ne hm hhname)

/-! ## what a step keeps -/

variable [DecidableEq G]

@[simp] theorem moved_stage_self (s : State P G) (g : G) (x : Stage) :
    (s.moved g x).stage g = x := by
  simp [State.moved]

theorem moved_stage_of_ne (s : State P G) {g h : G} (x : Stage) (hne : h ≠ g) :
    (s.moved g x).stage h = s.stage h := by
  simp [State.moved, hne]

/-- A guard moves on without touching the claims: every class it is in afterwards it
was in before, or what the class asks for holds. -/
theorem Inv.move (hi : Inv env s) {g : G} {x : Stage}
    (hclaims : x.claims = true → (s.stage g).claims = true) (hidle : x ≠ .idle)
    (hpassed : x.passed = true → (s.stage g).passed = true ∨ s.must g = [])
    (hengaged : x.engaged = true → (s.stage g).engaged = true)
    (hsweep : ∀ entry, x = .sweeping entry → ∀ h, env.name h = entry → ¬Live env s h) :
    Inv env (s.moved g x) where
  claimed h hl hc := by
    by_cases hh : h = g
    · subst hh
      rw [moved_stage_self] at hc
      exact hi.claimed h hl (hclaims hc)
    · rw [moved_stage_of_ne s x hh] at hc
      exact hi.claimed h hl hc
  made h hm := by
    by_cases hh : h = g
    · subst hh
      rw [moved_stage_self]
      exact hidle
    · rw [moved_stage_of_ne s x hh]
      exact hi.made h hm
  passed h hp := by
    by_cases hh : h = g
    · subst hh
      rw [moved_stage_self] at hp
      cases hpassed hp with
      | inl hp => exact hi.passed h hp
      | inr hm => exact hm
    · rw [moved_stage_of_ne s x hh] at hp
      exact hi.passed h hp
  sweeping h entry hs := by
    by_cases hh : h = g
    · subst hh
      rw [moved_stage_self] at hs
      exact hsweep entry hs
    · rw [moved_stage_of_ne s x hh] at hs
      exact hi.sweeping h entry hs
  owed h k hne hlh hlk hh hk := by
    have hback : ∀ a, ((s.moved g x).stage a).engaged = true → (s.stage a).engaged = true := by
      intro a ha
      by_cases hag : a = g
      · subst hag
        rw [moved_stage_self] at ha
        exact hengaged ha
      · rw [moved_stage_of_ne s x hag] at ha
        exact ha
    exact hi.owed h k hne hlh hlk (hback h hh) (hback k hk)

/-- A guard that moves on within its classes. -/
theorem Inv.advance (hi : Inv env s) {g : G} {x y : Stage} (hy : s.stage g = y)
    (hclaims : x.claims = true → y.claims = true) (hidle : x ≠ .idle)
    (hpassed : x.passed = true → y.passed = true)
    (hengaged : x.engaged = true → y.engaged = true) (hsweep : ∀ entry, x ≠ .sweeping entry) :
    Inv env (s.moved g x) := by
  subst hy
  exact hi.move hclaims hidle (fun hx => .inl (hpassed hx)) hengaged
    fun entry hx => absurd hx (hsweep entry)

/-- A guard past its listing moves on. -/
theorem Inv.onward (hi : Inv env s) {g : G} {x : Stage} (h : (s.stage g).passed = true)
    (hx : x.passed = true) : Inv env (s.moved g x) := by
  have hengaged := Stage.engaged_of_passed h
  have hidle : x ≠ .idle := by
    rintro rfl
    cases hx
  have hsweep : ∀ entry, x ≠ .sweeping entry := by
    rintro entry rfl
    cases hx
  exact hi.advance rfl (fun _ => Stage.claims_of_engaged hengaged) hidle (fun _ => h)
    (fun _ => hengaged) hsweep

/-- `acquire_at` gives up. -/
theorem Inv.fail (hi : Inv env s) {g : G} (h : (s.stage g).attempting = true) :
    Inv env (s.moved g .failing) :=
  hi.advance rfl (fun _ => Stage.claims_of_attempting h) (by simp) (by simp [Stage.passed])
    (by simp [Stage.engaged, Stage.passed]) (by simp)

/-- The guard leaves: its own claim is removed last. -/
theorem Inv.leave (hi : Inv env s) (g : G) :
    Inv env ((s.unclaimed (env.name g)).moved g .done) := by
  have hdone : Inv env (s.moved g .done) :=
    hi.move (by simp [Stage.claims, Stage.engaged, Stage.passed]) (by simp)
      (by simp [Stage.passed]) (by simp [Stage.engaged, Stage.passed]) (by simp)
  refine hdone.remove fun h hname _ => ?_
  have hh : h = g := env.fresh h g hname
  subst hh
  rw [moved_stage_self]
  rfl

/-- The claim is made. -/
theorem Inv.claim (hi : Inv env s) {g : G} (hg : s.stage g = .idle) :
    Inv env ({ s with claims := env.name g :: s.claims }.moved g .claimed) where
  claimed h hl hc := by
    by_cases hh : h = g
    · rw [hh]
      exact List.mem_cons_self
    · rw [moved_stage_of_ne _ _ hh] at hc
      exact List.mem_cons_of_mem _ (hi.claimed h hl hc)
  made h hm := by
    by_cases hh : h = g
    · subst hh
      rw [moved_stage_self]
      simp
    · rw [moved_stage_of_ne _ _ hh]
      have hm : env.name h ∈ env.name g :: s.claims := hm
      rw [List.mem_cons] at hm
      cases hm with
      | inl hname => exact absurd (env.fresh h g hname) hh
      | inr hm => exact hi.made h hm
  passed h hp := by
    by_cases hh : h = g
    · subst hh
      rw [moved_stage_self] at hp
      cases hp
    · rw [moved_stage_of_ne _ _ hh] at hp
      exact hi.passed h hp
  sweeping h entry hs := by
    by_cases hh : h = g
    · subst hh
      rw [moved_stage_self] at hs
      cases hs
    · rw [moved_stage_of_ne _ _ hh] at hs
      exact hi.sweeping h entry hs
  owed h k hne hlh hlk hh hk := by
    by_cases hhg : h = g
    · subst hhg
      rw [moved_stage_self] at hh
      cases hh
    · by_cases hkg : k = g
      · subst hkg
        rw [moved_stage_self] at hk
        cases hk
      · rw [moved_stage_of_ne _ _ hhg] at hh
        rw [moved_stage_of_ne _ _ hkg] at hk
        exact hi.owed h k hne hlh hlk hh hk

/-- The listing is opened: it owes the claim of every live guard that lists. -/
theorem Inv.list (hi : Inv env s) {g : G} (hg : s.stage g = .claimed) :
    Inv env ({ s with
      must := Function.update s.must g (s.claims.filter (· != env.name g)) }.moved g .scanning) where
  claimed h hl hc := by
    by_cases hh : h = g
    · subst hh
      exact hi.claimed h hl (by rw [hg]; rfl)
    · rw [moved_stage_of_ne _ _ hh] at hc
      exact hi.claimed h hl hc
  made h hm := by
    by_cases hh : h = g
    · subst hh
      rw [moved_stage_self]
      simp
    · rw [moved_stage_of_ne _ _ hh]
      exact hi.made h hm
  passed h hp := by
    by_cases hh : h = g
    · subst hh
      rw [moved_stage_self] at hp
      cases hp
    · rw [moved_stage_of_ne _ _ hh] at hp
      simp only [State.moved, Function.update_of_ne hh]
      exact hi.passed h hp
  sweeping h entry hs := by
    by_cases hh : h = g
    · subst hh
      rw [moved_stage_self] at hs
      cases hs
    · rw [moved_stage_of_ne _ _ hh] at hs
      exact hi.sweeping h entry hs
  owed h k hne hlh hlk hh hk := by
    -- a listing opened now owes every claim that is there
    have howe : ∀ a, a ≠ g → Live env s a → (s.stage a).engaged = true →
        env.name a ∈ s.claims.filter (· != env.name g) := by
      intro a hag hla ha
      exact mem_filter_of_ne (hi.claimed a hla (Stage.claims_of_engaged ha))
        fun hname => hag (env.fresh a g hname)
    by_cases hhg : h = g
    · subst hhg
      have hkh : k ≠ h := fun heq => hne heq.symm
      rw [moved_stage_of_ne _ _ hkh] at hk
      right
      simp only [State.moved, Function.update_self]
      exact howe k hkh hlk hk
    · rw [moved_stage_of_ne _ _ hhg] at hh
      by_cases hkg : k = g
      · subst hkg
        left
        simp only [State.moved, Function.update_self]
        exact howe h hhg hlh hh
      · rw [moved_stage_of_ne _ _ hkg] at hk
        simp only [State.moved, Function.update_of_ne hhg, Function.update_of_ne hkg]
        exact hi.owed h k hne hlh hlk hh hk

/-- **One file operation** keeps the invariant. -/
theorem Op.inv {g : G} (hi : Inv env s) (hop : Op env g s t) : Inv env t := by
  cases hop with
  | claim hg => exact hi.claim hg
  | list hg => exact hi.list hg
  | entryDead entry pid hg _ _ howner hdead =>
      refine hi.move (fun _ => by rw [hg]; rfl) (by simp) (by simp [Stage.passed])
        (fun _ => by rw [hg]; rfl) ?_
      intro entry' heq h hname
      cases heq
      exact not_live_of_mayReportDead howner hdead h hname
  | sweep entry hg =>
      have hmoved : Inv env (s.moved g .scanning) :=
        hi.advance hg (fun _ => rfl) (by simp) (by simp [Stage.passed]) (fun _ => rfl) (by simp)
      exact hmoved.remove fun h hname hl => absurd hl (hi.sweeping g entry hg h hname)
  | entryLive entry hg => exact hi.fail (by rw [hg]; rfl)
  | entryUnreadable entry hg => exact hi.fail (by rw [hg]; rfl)
  | listed hg hmust =>
      exact hi.move (fun _ => by rw [hg]; rfl) (by simp) (fun _ => .inr hmust)
        (fun _ => by rw [hg]; rfl) (by simp)
  | create attempt hg =>
      exact (hi.relock _ _ _).onward (congrArg Stage.passed hg) rfl
  | exists_ attempt file hg =>
      exact hi.onward (congrArg Stage.passed hg) rfl
  | unresolvable attempt hg => exact hi.fail (by rw [hg]; rfl)
  | readGone attempt hg =>
      exact hi.onward (congrArg Stage.passed hg) rfl
  | readStale attempt file hg =>
      exact hi.onward (congrArg Stage.passed hg) rfl
  | readLive attempt file pid hg => exact hi.fail (by rw [hg]; rfl)
  | reclaim attempt file hg =>
      exact (hi.relock _ _ _).onward (congrArg Stage.passed hg) rfl
  | reclaimGone attempt hg => exact hi.fail (by rw [hg]; rfl)
  | write file hg =>
      exact (hi.relock _ _ _).onward (congrArg Stage.passed hg) rfl
  | acquired hg =>
      exact hi.onward (congrArg Stage.passed hg) rfl
  | ioError hg => exact hi.fail hg
  | forget hg => exact hi.leave g
  | forgetError hg =>
      exact hi.advance hg (by simp [Stage.claims, Stage.engaged, Stage.passed]) (by simp)
        (by simp [Stage.passed]) (by simp [Stage.engaged, Stage.passed]) (by simp)
  | retain hg =>
      exact hi.onward (congrArg Stage.passed hg) rfl
  | release hg =>
      exact hi.onward (congrArg Stage.passed hg) rfl
  | releaseGone hg =>
      exact hi.advance hg (by simp [Stage.claims, Stage.engaged, Stage.passed]) (by simp)
        (by simp [Stage.passed]) (by simp [Stage.engaged, Stage.passed]) (by simp)
  | unlock hg =>
      exact (hi.relock _ _ _).onward (congrArg Stage.passed hg) rfl
  | unclaim hg => exact hi.leave g
  | releaseError hg =>
      cases hg with
      | inl hg =>
          exact hi.onward (congrArg Stage.passed hg) rfl
      | inr hg =>
          exact hi.onward (congrArg Stage.passed hg) rfl

/-- **Every reachable state** satisfies the invariant. -/
theorem Reachable.inv (h : Reachable env s) : Inv env s := by
  induction h with
  | initial h => exact h.inv
  | step _ hstep ih =>
      cases hstep with
      | op g _ hop => exact hop.inv ih
      | die p => exact ih.die p

/-! ## the holder -/

/-- The guard holds the lock: it was acquired, not released, and its process lives. -/
def Holds (env : Contenders P G) (s : State P G) (h : G) : Prop :=
  Live env s h ∧ (s.stage h).holds = true

/-- No operation of another guard takes a claim of a live guard from the directory. -/
theorem Op.keeps_claim {g h : G} (hi : Inv env s) (hne : g ≠ h) (hl : Live env s h)
    (hop : Op env g s t) (hmem : env.name h ∈ s.claims) : env.name h ∈ t.claims := by
  have hown : env.name h ≠ env.name g := fun hname => hne (env.fresh h g hname).symm
  cases hop with
  | claim => exact List.mem_cons_of_mem _ hmem
  | sweep entry hg =>
      exact mem_filter_of_ne hmem fun hname => hi.sweeping g entry hg h hname hl
  | forget => exact mem_filter_of_ne hmem hown
  | unclaim => exact mem_filter_of_ne hmem hown
  | _ => exact hmem

/-- The lock file is only removed by a guard that is past its listing. -/
theorem Op.keeps_lock {g : G} {file : Nat} (hop : Op env g s t)
    (hpassed : (s.stage g).passed = false) (hlock : s.lock = some file) : t.lock = some file := by
  cases hop with
  | create attempt hg =>
      rw [hg] at hpassed
      cases hpassed
  | reclaim attempt file hg =>
      rw [hg] at hpassed
      cases hpassed
  | unlock hg =>
      rw [hg] at hpassed
      cases hpassed
  | _ => exact hlock

/-- **The upgrade lock excludes**: in every reachable state, whatever processes did and
died, at most one guard holds the lock, and no operation of another live guard takes
the lock file or the claim of a holder away. -/
theorem upgradeLock_exclusive (env : Contenders P G) (s : State P G) (hs : Reachable env s) :
    (∀ g h, Holds env s g → Holds env s h → g = h) ∧
    ∀ g h t, Holds env s h → g ≠ h → Live env s g → Op env g s t →
      env.name h ∈ s.claims ∧ env.name h ∈ t.claims ∧
        ∀ file, s.lock = some file → t.lock = some file := by
  have hi : Inv env s := hs.inv
  refine ⟨?_, ?_⟩
  · intro g h hg hh
    exact hi.exclusive hg.1 hh.1 (Stage.passed_of_holds hg.2) (Stage.passed_of_holds hh.2)
  · intro g h t hh hne hlg hop
    have hph : (s.stage h).passed = true := Stage.passed_of_holds hh.2
    have hmem : env.name h ∈ s.claims :=
      hi.claimed h hh.1 (Stage.claims_of_engaged (Stage.engaged_of_passed hph))
    refine ⟨hmem, hop.keeps_claim hi hne hh.1 hmem, ?_⟩
    intro file hlock
    refine hop.keeps_lock ?_ hlock
    cases hpg : (s.stage g).passed with
    | false => rfl
    | true => exact absurd (hi.exclusive hlg hh.1 hpg hph) hne

/-- Two processes with a guard each. -/
def duo : Contenders Bool Bool where
  pid p := if p then 41 else 42
  process := id
  uuid g := if g then "a" else "b"
  pid_pos := by decide
  pid_lt := by decide
  fresh := by decide

/-- A fresh directory, of which one of the two takes the lock. -/
theorem upgradeLock_exclusive_duo :
    ∃ s, Reachable duo s ∧ Holds duo s true ∧
      (∀ g h, Holds duo s g → Holds duo s h → g = h) ∧
      ∀ g h t, Holds duo s h → g ≠ h → Live duo s g → Op duo g s t →
        duo.name h ∈ s.claims ∧ duo.name h ∈ t.claims ∧
          ∀ file, s.lock = some file → t.lock = some file := by
  let fresh : State Bool Bool :=
    { claims := []
      lock := none
      files := 0
      record := fun _ => none
      stage := fun _ => .idle
      must := fun _ => []
      dead := fun _ => False }
  have hfresh : Reachable duo fresh := .initial ⟨fun _ => rfl, fun _ => List.not_mem_nil⟩
  have hclaimed := hfresh.step (.op true id (.claim rfl))
  have hlisting := hclaimed.step (.op true id (.list rfl))
  have hlisted := hlisting.step (.op true id (.listed rfl (by decide)))
  have hcreated := hlisted.step (.op true id (.create 0 rfl (by decide) rfl))
  have hwritten := hcreated.step (.op true id (.write 0 rfl))
  have hheld := hwritten.step (.op true id (.acquired rfl))
  exact ⟨_, hheld, ⟨id, rfl⟩, upgradeLock_exclusive duo _ hheld⟩

end UpgradeLock

end KCarrier
