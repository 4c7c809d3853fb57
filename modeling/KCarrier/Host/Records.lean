import KCarrier.Host
import Mathlib.Data.List.Basic

/-!
# KCarrier.Host.Records

No controller escapes its record.

A controller becomes active only after its record is complete (`Stage.Holds`), and a
record goes only after the exit of its controller was seen, so an active controller is
recorded at every moment (`Inv.active`).  A fence that gets past its loop has therefore
outlived every controller that was ever sent a request.
-/

namespace KCarrier

namespace CommandHost

variable {C : Type} {env : Launches C} {s t : State C}

/-! ## the invariant -/

/-- The record of a controller is there, and says its process id. -/
def Recorded (env : Launches C) (s : State C) (c : C) : Prop :=
  env.name c ∈ s.records ∧ s.content (env.name c) = some (env.pid c)

/-- What holds while the worker is at a stage. -/
def Stage.Holds (env : Launches C) (s : State C) : Stage C → Prop
  | .scanning => s.records ⊆ s.must
  | .draining entry pid => s.records ⊆ s.must ∧ UpgradeLock.ownerOf entry = some pid
  | .sweeping entry => s.records ⊆ s.must ∧
      ∀ c, env.name c = entry → s.life c ≠ .unborn → s.observed c
  | .drained => s.records = []
  | .spawned c => s.life c ≠ .unborn
  | .created c => s.life c ≠ .unborn ∧ env.name c ∈ s.records
  | .written c | .synced c | .recorded c | .delivered c => Recorded env s c
  | .removing c => s.observed c
  | _ => True

structure Inv (env : Launches C) (s : State C) : Prop where
  /-- a live controller that was sent its request is recorded -/
  active : ∀ c, s.life c = .active → Recorded env s c
  /-- a record is there only once its controller was spawned -/
  born : ∀ c, env.name c ∈ s.records → s.life c ≠ .unborn
  /-- an exit that was seen took place -/
  observed : ∀ c, s.observed c → s.life c = .exited
  stage : s.stage.Holds env s

theorem Initial.inv (h : Initial env s) : Inv env s where
  active c hc := by
    rw [h.unborn c] at hc
    cases hc
  born c hc := absurd hc (h.unrecorded c)
  observed c hc := absurd hc (h.unseen c)
  stage := by
    rw [h.stage]
    trivial

/-- What a stage asks for does not depend on where the worker is. -/
theorem Stage.Holds.moved {x y : Stage C} (h : x.Holds env s) : x.Holds env (s.moved y) := by
  cases x <;> exact h

theorem Inv.at (hi : Inv env s) {x : Stage C} (hx : s.stage = x) : x.Holds env s :=
  hx ▸ hi.stage

/-- Nothing but the stage changes. -/
theorem Inv.move (hi : Inv env s) {x : Stage C} (hx : x.Holds env s) : Inv env (s.moved x) :=
  ⟨hi.active, hi.born, hi.observed, hx.moved⟩

/-- An error leaves nothing to hold. -/
theorem Inv.idle (hi : Inv env s) : Inv env (s.moved .idle) := hi.move trivial

/-- The process an entry names is the one that was recorded under it. -/
theorem pid_of_name {entry : String} {pid : Nat} {c : C}
    (howner : UpgradeLock.ownerOf entry = some pid) (hname : env.name c = entry) :
    env.pid c = pid := by
  have hpid : UpgradeLock.ownerOf (env.name c) = some (env.pid c) :=
    UpgradeLock.ownerOf_claimName _ (env.pid_pos c) (env.pid_lt c)
  rw [hname, howner] at hpid
  exact (Option.some.inj hpid).symm

/-! ## removing a record -/

theorem mem_unrecorded {name entry : String} :
    entry ∈ (s.unrecorded name).records ↔ entry ∈ s.records ∧ entry ≠ name := by
  simp [State.unrecorded, List.mem_filter]

/-- A record of controllers whose exit was seen. -/
theorem Inv.unrecord (hi : Inv env s) {name : String} {x : Stage C}
    (hseen : ∀ c, env.name c = name → s.life c ≠ .unborn → s.observed c)
    (hx : x.Holds env (s.unrecorded name)) : Inv env ((s.unrecorded name).moved x) where
  active c hc := by
    have hrec := hi.active c hc
    have hne : env.name c ≠ name := by
      intro heq
      have hexit : s.life c = .exited := hi.observed c (hseen c heq (hi.born c hrec.1))
      have hc : s.life c = .active := hc
      rw [hexit] at hc
      cases hc
    exact ⟨mem_unrecorded.mpr ⟨hrec.1, hne⟩, hrec.2⟩
  born c hc := hi.born c (mem_unrecorded.mp hc).1
  observed := hi.observed
  stage := hx.moved

/-- What the listing owes after an entry is gone is what it owed besides. -/
theorem unrecorded_subset {name : String} (h : s.records ⊆ s.must) :
    (s.unrecorded name).records ⊆ (s.unrecorded name).must := by
  intro entry hentry
  rw [mem_unrecorded] at hentry
  simp only [State.unrecorded, List.mem_filter, bne_iff_ne]
  exact ⟨h hentry.1, hentry.2⟩

/-! ## what a step keeps -/

/-- The file of a record is created; no other record is touched. -/
theorem Inv.create (hi : Inv env s) {c : C} (hc : s.stage = .spawned c)
    (hnew : env.name c ∉ s.records) :
    Inv env ({ s with
      records := env.name c :: s.records
      content := Function.update s.content (env.name c) none }.moved (.created c)) where
  active d hd := by
    have hrec := hi.active d hd
    have hne : env.name d ≠ env.name c := fun heq => hnew (heq ▸ hrec.1)
    refine ⟨List.mem_cons_of_mem _ hrec.1, ?_⟩
    change Function.update s.content (env.name c) none (env.name d) = _
    rw [Function.update_of_ne hne]
    exact hrec.2
  born d hd := by
    have hd : env.name d ∈ env.name c :: s.records := hd
    rw [List.mem_cons] at hd
    cases hd with
    | inl heq =>
        have hdc : d = c := env.fresh d c heq
        rw [hdc]
        exact hi.at hc
    | inr hd => exact hi.born d hd
  observed := hi.observed
  stage := ⟨hi.at hc, List.mem_cons_self⟩

/-- The record is complete. -/
theorem Inv.write (hi : Inv env s) {c : C} (hc : s.stage = .created c) :
    Inv env ({ s with
      content := Function.update s.content (env.name c) (some (env.pid c)) }.moved
        (.written c)) where
  active d hd := by
    have hrec := hi.active d hd
    refine ⟨hrec.1, ?_⟩
    change Function.update s.content (env.name c) _ (env.name d) = _
    by_cases hne : d = c
    · rw [hne, Function.update_self]
    · have hname : env.name d ≠ env.name c := fun heq => hne (env.fresh d c heq)
      rw [Function.update_of_ne hname]
      exact hrec.2
  born := hi.born
  observed := hi.observed
  stage := by
    refine ⟨(hi.at hc).2, ?_⟩
    change Function.update s.content (env.name c) _ (env.name c) = _
    rw [Function.update_self]

/-- Exits of controllers that have exited are seen. -/
theorem Inv.saw (hi : Inv env s) {p : C → Prop} (hp : ∀ c, p c → s.life c = .exited)
    {x : Stage C} (hx : x.Holds env (s.saw p)) : Inv env ((s.saw p).moved x) where
  active := hi.active
  born := hi.born
  observed c hc := by
    cases hc with
    | inl hc => exact hi.observed c hc
    | inr hc => exact hp c hc
  stage := hx.moved

/-- `process_alive` answered that the process of an entry is gone. -/
theorem Inv.gone (hi : Inv env s) {entry : String} {pid : Nat} {probe : Probe}
    (hs : s.stage = .draining entry pid) (hmay : s.MayAnswer env pid probe)
    (hdead : processAlive pid probe = false) :
    Inv env ((s.saw fun c => s.life c ≠ .unborn ∧ env.pid c = pid).moved (.sweeping entry)) := by
  obtain ⟨howed, howner⟩ := hi.at hs
  refine hi.saw ?_ ⟨howed, ?_⟩
  · intro c ⟨hborn, hpid⟩
    have hdown : (s.life c).alive = false := by
      cases hl : (s.life c).alive with
      | false => rfl
      | true =>
          have halive : processAlive pid probe = true :=
            processAlive_of_finds (hpid ▸ env.pid_pos c) (hmay c hl hpid)
          rw [hdead] at halive
          cases halive
    cases hl : s.life c <;> simp_all [Life.alive]
  · intro c hname hborn
    exact .inr ⟨hborn, pid_of_name howner hname⟩

variable [DecidableEq C]

@[simp] theorem lived_life_self (s : State C) (c : C) (x : Life) : (s.lived c x).life c = x := by
  simp [State.lived]

theorem lived_life_of_ne (s : State C) {c d : C} (x : Life) (hne : d ≠ c) :
    (s.lived c x).life d = s.life d := by
  simp [State.lived, hne]

theorem lived_born (s : State C) {c d : C} {x : Life} (hx : x ≠ .unborn)
    (h : s.life d ≠ .unborn) : (s.lived c x).life d ≠ .unborn := by
  by_cases hd : d = c
  · subst hd
    rwa [lived_life_self]
  · rwa [lived_life_of_ne s x hd]

theorem Life.born_of_alive {x : Life} (h : x.alive = true) : x ≠ .unborn := by
  rintro rfl
  cases h

/-- A controller is spawned. -/
theorem Inv.spawn (hi : Inv env s) {c : C} (hc : s.life c = .unborn) :
    Inv env ((s.lived c .waiting).moved (.spawned c)) where
  active d hd := by
    have hd : (s.lived c .waiting).life d = .active := hd
    have hne : d ≠ c := by
      rintro rfl
      simp at hd
    rw [lived_life_of_ne s _ hne] at hd
    exact hi.active d hd
  born d hd := lived_born s (by simp) (hi.born d hd)
  observed d hd := by
    have hexit := hi.observed d hd
    have hne : d ≠ c := by
      rintro rfl
      rw [hc] at hexit
      cases hexit
    exact (lived_life_of_ne s _ hne).trans hexit
  stage := by
    change (s.lived c .waiting).life c ≠ .unborn
    simp

/-- The request is complete: only now does the controller become active. -/
theorem Inv.deliver (hi : Inv env s) {c : C} (hc : s.stage = .recorded c)
    (hlife : s.life c = .waiting) : Inv env ((s.lived c .active).moved (.delivered c)) where
  active d hd := by
    by_cases hdc : d = c
    · rw [hdc]
      exact hi.at hc
    · have hd : (s.lived c .active).life d = .active := hd
      rw [lived_life_of_ne s _ hdc] at hd
      exact hi.active d hd
  born d hd := lived_born s (by simp) (hi.born d hd)
  observed d hd := by
    have hexit := hi.observed d hd
    have hne : d ≠ c := by
      rintro rfl
      rw [hlife] at hexit
      cases hexit
    exact (lived_life_of_ne s _ hne).trans hexit
  stage := hi.at hc

/-- A controller exits, whatever the worker is at. -/
theorem Inv.exit (hi : Inv env s) {c : C} (hc : (s.life c).alive = true) :
    Inv env (s.lived c .exited) where
  active d hd := by
    have hne : d ≠ c := by
      rintro rfl
      simp at hd
    rw [lived_life_of_ne s _ hne] at hd
    exact hi.active d hd
  born d hd := lived_born s (by simp) (hi.born d hd)
  observed d hd := by
    by_cases hdc : d = c
    · rw [hdc, lived_life_self]
    · rw [lived_life_of_ne s _ hdc]
      exact hi.observed d hd
  stage := by
    have hborn : ∀ d, (s.lived c .exited).life d ≠ .unborn → s.life d ≠ .unborn := by
      intro d hd
      by_cases hdc : d = c
      · rw [hdc]
        exact Life.born_of_alive hc
      · rwa [lived_life_of_ne s _ hdc] at hd
    have hst := hi.stage
    change s.stage.Holds env (s.lived c .exited)
    cases hs : s.stage <;> rw [hs] at hst
    case spawned d => exact lived_born s (by simp) hst
    case created d => exact ⟨lived_born s (by simp) hst.1, hst.2⟩
    case sweeping entry => exact ⟨hst.1, fun d hname hd => hst.2 d hname (hborn d hd)⟩
    all_goals exact hst

theorem Op.inv (h : Op env s t) (hi : Inv env s) : Inv env t := by
  cases h with
  | fence hs => exact hi.move trivial
  | list hs => exact ⟨hi.active, hi.born, hi.observed, List.Subset.refl _⟩
  | entry entry pid hs hmem howner => exact hi.move ⟨hi.at hs, howner⟩
  | alive => exact hi
  | gone entry pid probe hs hmay hdead => exact hi.gone hs hmay hdead
  | sweep entry hs => exact hi.unrecord (hi.at hs).2 (unrecorded_subset (hi.at hs).1)
  | listed hs hmust =>
      have hsub : s.records ⊆ s.must := hi.at hs
      rw [hmust] at hsub
      exact hi.move (List.subset_nil.mp hsub)
  | proceed hs => exact hi.move trivial
  | call hs => exact hi.move trivial
  | spawn c hs hc => exact hi.spawn hc
  | create c hs hnew => exact hi.create hs hnew
  | write c hs => exact hi.write hs
  | sync c hs =>
      have hrec : Recorded env s c := hi.at hs
      exact hi.move hrec
  | syncDir c hs =>
      have hrec : Recorded env s c := hi.at hs
      exact hi.move hrec
  | deliver c hs hc => exact hi.deliver hs hc
  | settle c hs => exact hi.move trivial
  | kill c hs => exact hi.move trivial
  | reaped c hs hc =>
      have hexit : ∀ d, d = c → s.life d = .exited := by
        rintro d rfl
        exact hc
      exact hi.saw hexit (.inr rfl)
  | remove c hs =>
      refine hi.unrecord (fun d hname _ => ?_) trivial
      rw [env.fresh d c hname]
      exact hi.at hs
  | returned c hs => exact hi.idle
  | fail hs => exact hi.idle

theorem Step.inv (h : Step env s t) (hi : Inv env s) : Inv env t := by
  cases h with
  | op h => exact h.inv hi
  | exit c hc => exact hi.exit hc
  | die => exact hi.move trivial
  | enter hs => exact hi.idle
  | leave hs => exact hi.move trivial

theorem Reachable.inv (h : Reachable env s) : Inv env s := by
  induction h with
  | initial h => exact h.inv
  | step _ hstep ih => exact hstep.inv ih

/-! ## the deletion of records -/

/-- Only two operations delete a record: the loop of a fence, and the end of a call. -/
theorem Op.deletes (h : Op env s t) {entry : String} (hs : entry ∈ s.records)
    (ht : entry ∉ t.records) :
    s.stage = .sweeping entry ∨ ∃ c, s.stage = .removing c ∧ entry = env.name c := by
  cases h with
  | sweep name hst =>
      have hname : entry = name := by
        by_contra hne
        exact ht (mem_unrecorded.mpr ⟨hs, hne⟩)
      exact .inl (hname ▸ hst)
  | remove c hst =>
      have hname : entry = env.name c := by
        by_contra hne
        exact ht (mem_unrecorded.mpr ⟨hs, hne⟩)
      exact .inr ⟨c, hst, hname⟩
  | create c hst hnew => exact absurd (List.mem_cons_of_mem _ hs) ht
  | _ => exact absurd hs ht

/-- A record is deleted only after the exit of its controller was seen. -/
theorem Inv.deleted (hi : Inv env s) (h : Step env s t) {c : C} (hs : env.name c ∈ s.records)
    (ht : env.name c ∉ t.records) : s.observed c := by
  cases h with
  | op h =>
      cases h.deletes hs ht with
      | inl hst => exact (hi.at hst).2 c rfl (hi.born c hs)
      | inr hst =>
          obtain ⟨d, hst, hname⟩ := hst
          rw [env.fresh c d hname]
          exact hi.at hst
  | _ => exact absurd hs ht

/-- No controller escapes its record.  In every run, a live controller that was sent its
whole request is recorded under `controllers/`; when a fence has passed its loop no such
controller is alive; and a record is deleted only after its controller's exit was seen. -/
theorem controllers_recorded (h : Reachable env s) :
    (∀ c, s.life c = .active → ∃ entry ∈ s.records,
      UpgradeLock.ownerOf entry = some (env.pid c) ∧ s.content entry = some (env.pid c)) ∧
    (s.stage = .drained → ∀ c, s.life c ≠ .active) ∧
    (∀ t, Step env s t → ∀ c, env.name c ∈ s.records → env.name c ∉ t.records →
      s.observed c ∧ s.life c = .exited) := by
  have hi : Inv env s := h.inv
  refine ⟨fun c hc => ?_, fun hs c hc => ?_, fun t hstep c hmem hgone => ?_⟩
  · have hrec := hi.active c hc
    exact ⟨env.name c, hrec.1,
      UpgradeLock.ownerOf_claimName _ (env.pid_pos c) (env.pid_lt c), hrec.2⟩
  · have hnil : s.records = [] := hi.at hs
    have hlisted := (hi.active c hc).1
    rw [hnil] at hlisted
    cases hlisted
  · have hseen := hi.deleted hstep hmem hgone
    exact ⟨hseen, hi.observed c hseen⟩

/-! ## a worker dies and leaves its controller behind -/

/-- Two controllers, and a directory with the record of a process long gone. -/
def twoLaunches : Launches Bool where
  pid c := if c then 4711 else 4712
  uuid c := if c then "5f0c" else "77ab"
  pid_pos := by decide
  pid_lt := by decide
  fresh := by decide +kernel

def emptyHanded : State Bool where
  records := ["17-0d2e.json"]
  content _ := some 17
  life _ := .unborn
  observed _ := False
  stage := .absent
  must := []

/-- The worker of the first controller dies right after it sent the request. -/
theorem abandoned_reachable : ∃ s, Reachable twoLaunches s ∧ s.stage = .absent ∧
    s.life true = .active := by
  have hinit : Initial twoLaunches emptyHanded :=
    ⟨rfl, fun _ => rfl, fun _ h => h, by decide +kernel⟩
  have hspawned := ((((Reachable.initial hinit).step (.enter rfl)).step (.op (.call rfl))).step
    (.op (.spawn true rfl rfl)))
  have hrecorded := (((hspawned.step (.op (.create true rfl (by decide +kernel)))).step
    (.op (.write true rfl))).step (.op (.sync true rfl))).step (.op (.syncDir true rfl))
  exact ⟨_, (hrecorded.step (.op (.deliver true rfl rfl))).step .die, rfl, rfl⟩

theorem controllers_recorded_abandoned : ∃ s : State Bool, s.stage = .absent ∧
    s.life true = .active ∧ ∃ entry ∈ s.records,
      UpgradeLock.ownerOf entry = some 4711 ∧ s.content entry = some 4711 := by
  obtain ⟨s, hreach, hstage, hlife⟩ := abandoned_reachable
  exact ⟨s, hstage, hlife, (controllers_recorded hreach).1 true hlife⟩

end CommandHost

end KCarrier
