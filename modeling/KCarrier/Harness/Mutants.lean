import KCarrier.Harness.Drill

/-!
# KCarrier.Harness.Mutants

A simulation detects every mutation: one that passes with a round that was not cut off ran on
a world without a mutation.

A mutated world may well pass a round that its crash ended early.  `Hidden` is what holds of
it then, at every point it may be cut off in; `Marked` says how far an upgrade comes before
the mutation shows: an invariant stops it at a boundary, or the world is left in a state the
checks at the end of the round refuse (`Exposed`).
-/

namespace KCarrier

open Crash
open Running

/-- How far an upgrade has come, in the steps at which a mutation may show. -/
def Point.reach : Point → Nat
  | .entry | .opened _ | .fenced _ | .rest none | .surveyed _ | .probed _ _ => 0
  | .staged _ => 1
  | .prepared _ | .handing _ => 2
  | .quiesced _ | .stopped _ => 3
  | .started _ | .running _ | .live _ _ | .readback _ _ | .fresh _ _ | .accepted _ _ => 4
  | .committed | .published | .rolling | .rollStopped | .rollStarted => 4
  | .restored | .rest (some _) => 5

namespace FakeHost

/-- Two numbers with one decimal text are the same. -/
theorem toString_injective {a b : Nat} (h : toString a = toString b) : a = b := by
  have hdigits : Nat.toDigits 10 a = Nat.toDigits 10 b := String.ofList_injective h
  rw [← Nat.ofDigitChars_toDigits (b := 10) (n := a) (by decide) (by decide), hdigits,
    Nat.ofDigitChars_toDigits (by decide) (by decide)]

namespace Model

/-- A transaction was journaled. -/
def Begun (m : Model) : Prop := ∃ p, lastIntent m.journal = some p ∧ p ≠ .idle

/-- The one live process stands in the stable slot. -/
def Single (m : Model) : Prop := ∃ p, m.live = [p] ∧ p.slot = .stable

/-- Both slots hold versions of the first `n`. -/
def Named (n : Nat) (m : Model) : Prop :=
  ∀ v, m.stable = some v ∨ m.experiment = some v → ∃ j, j ≤ n ∧ v = toString j

/-- What the checks at the end of a round refuse. -/
def Exposed (μ : Mutation) (m : Model) : Prop :=
  μ = .neverResume ∧ m.parked = true ∨ μ = .loseWorkload ∧ m.workload = "lost"

end Model

/-- What holds of a mutated world at every point, whether the mutation shows or not. -/
structure Hidden (μ : Mutation) (n : Nat) (m : Model) : Prop where
  named : m.Named n
  dropped : μ = .dropJournal → m.journal = []
  dual : μ = .dualRun → m.Single ∨ 2 ≤ m.live.length ∧ m.Begun

/-- What every effect but the start of a candidate keeps. -/
structure Follows (μ : Mutation) (n : Nat) (m m' : Model) : Prop where
  named : m.Named n → m'.Named n
  dropped : μ = .dropJournal → m'.journal = m.journal
  begun : m.Begun → m'.Begun
  single : μ = .dualRun → m.Single → m'.Single
  dual : μ = .dualRun → 2 ≤ m.live.length → 2 ≤ m'.live.length
  parked : μ = .neverResume → m.parked = true → m'.parked = true
  workload : μ = .loseWorkload → m.workload = "lost" → m'.workload = "lost"

section Acts

variable {μ : Mutation} {n : Nat} {m m' : Model}

/-- A mutation stays hidden as the model goes on. -/
theorem Hidden.follow (h : Hidden μ n m) (hf : Follows μ n m m') : Hidden μ n m' where
  named := hf.named h.named
  dropped hμ := by rw [hf.dropped hμ, h.dropped hμ]
  dual hμ := by
    rcases h.dual hμ with hs | ⟨hlive, hbegun⟩
    · exact .inl (hf.single hμ hs)
    · exact .inr ⟨hf.dual hμ hlive, hf.begun hbegun⟩

/-- One that was exposed stays so. -/
theorem Follows.exposed (hf : Follows μ n m m') (h : m.Exposed μ) : m'.Exposed μ := by
  rcases h with ⟨hμ, h⟩ | ⟨hμ, h⟩
  · exact .inl ⟨hμ, hf.parked hμ h⟩
  · exact .inr ⟨hμ, hf.workload hμ h⟩

/-- An effect on nothing that is watched. -/
theorem Follows.of_same (hstable : m'.stable = m.stable)
    (hexp : ∀ v, m'.experiment = some v → m.experiment = some v) (hj : m'.journal = m.journal)
    (hl : m'.live = m.live) (hp : m.parked = true → m'.parked = true)
    (hw : m'.workload = m.workload) : Follows μ n m m' where
  named h v hv := by
    apply h v
    rcases hv with hv | hv
    · exact .inl (hstable ▸ hv)
    · exact .inr (hexp v hv)
  dropped _ := hj
  begun h := by
    unfold Model.Begun
    rw [hj]
    exact h
  single _ h := by
    unfold Model.Single
    rw [hl]
    exact h
  dual _ h := by
    rw [hl]
    exact h
  parked _ := hp
  workload _ h := by
    rw [hw]
    exact h

/-- Appending any intent but the idle one. -/
theorem appendAct_follows {entry : JournalEntry} {a : Unit} (he : entry.intent ≠ .idle)
    (h : appendAct entry μ m = .ok (a, m')) : Follows μ n m m' := by
  simp only [appendAct, Except.ok.injEq, Prod.mk.injEq] at h
  by_cases hμ : μ = .dropJournal
  · rw [← h.2, if_neg (by simp [hμ])]
    exact Follows.of_same rfl (fun _ hv => hv) rfl rfl (fun hp => hp) rfl
  · rw [← h.2, if_pos hμ]
    exact
      { named := fun h => h
        dropped := fun hd => absurd hd hμ
        begun := fun _ => ⟨entry.intent, by simp, he⟩
        single := fun _ h => h
        dual := fun _ h => h
        parked := fun _ h => h
        workload := fun _ h => h }

/-- An intent is in the journal once it was written, unless the mutation drops it. -/
theorem appendAct_begun {entry : JournalEntry} {a : Unit} (he : entry.intent ≠ .idle)
    (hμ : μ ≠ .dropJournal) (h : appendAct entry μ m = .ok (a, m')) : m'.Begun := by
  simp only [appendAct, Except.ok.injEq, Prod.mk.injEq] at h
  rw [← h.2, if_pos hμ]
  exact ⟨entry.intent, by simp, he⟩

/-- Staging a version of the rounds. -/
theorem stageAct_follows {j : Nat} {a : Unit} (hj : j ≤ n)
    (h : stageAct (toString j) μ m = .ok (a, m')) : Follows μ n m m' := by
  simp only [stageAct, Except.ok.injEq, Prod.mk.injEq] at h
  rw [← h.2]
  refine ⟨fun hn v hv => ?_, fun _ => ?_, fun hb => ?_, fun _ hs => ?_, fun _ hl => ?_,
    fun _ hp => ?_, fun _ hw => ?_⟩
  · split at hv
    · simp at hv
    · rcases hv with hv | hv
      · exact hn v (.inl hv)
      · cases hv
        exact ⟨j, hj, rfl⟩
  · split <;> rfl
  all_goals split <;> assumption

/-- Promoting. -/
theorem promoteAct_follows {a : Unit} (h : promoteAct μ m = .ok (a, m')) : Follows μ n m m' := by
  simp only [promoteAct, Except.ok.injEq, Prod.mk.injEq] at h
  rw [← h.2]
  refine ⟨fun hn v hv => ?_, fun _ => rfl, fun hb => hb, fun _ hs => ?_, fun _ hl => ?_,
    fun _ hp => hp, fun _ hw => hw⟩
  · apply hn v
    rcases hv with hv | hv
    · cases hx : m.experiment with
      | none =>
          rw [hx] at hv
          exact .inl hv
      | some x =>
          rw [hx] at hv
          exact .inr hv
    · cases hv
  · obtain ⟨p, hp, -⟩ := hs
    exact ⟨{ p with slot := .stable }, by simp [hp], rfl⟩
  · simpa using hl

/-- Clearing the experiment slot. -/
theorem clearAct_follows {a : Unit} (h : clearAct μ m = .ok (a, m')) : Follows μ n m m' := by
  cases h
  exact Follows.of_same rfl (fun _ hv => by cases hv) rfl rfl (fun hp => hp) rfl

/-- Parking the service. -/
theorem quiesceAct_follows {a : Unit} (h : quiesceAct μ m = .ok (a, m')) :
    Follows μ n m m' := by
  cases h
  exact Follows.of_same rfl (fun _ hv => hv) rfl rfl (fun _ => rfl) rfl

/-- Stopping a process. -/
theorem stopAct_follows {a : Unit} (h : stopAct μ m = .ok (a, m')) : Follows μ n m m' := by
  simp only [stopAct, Except.ok.injEq, Prod.mk.injEq] at h
  by_cases hμ : μ = .dualRun
  · rw [← h.2, if_neg (by simp [hμ])]
    exact Follows.of_same rfl (fun _ hv => hv) rfl rfl (fun hp => hp) rfl
  · rw [← h.2, if_pos hμ]
    exact
      { named := fun h => h
        dropped := fun _ => rfl
        begun := fun h => h
        single := fun hd => absurd hd hμ
        dual := fun hd => absurd hd hμ
        parked := fun _ h => h
        workload := fun _ h => h }

/-- The stable service is not started beside itself. -/
theorem startAct_follows {a : Unit} (h : startAct .stable μ m = .ok (a, m')) :
    Follows μ n m m' := by
  unfold startAct at h
  split at h
  · next hall =>
      split at h
      · cases h
      · cases h
        refine ⟨fun hn => hn, fun _ => rfl, fun hb => hb, fun _ hs => ?_, fun _ hl => ?_,
          fun _ hp => hp, fun _ hw => hw⟩
        · obtain ⟨p, hp, hslot⟩ := hs
          simp [hp, hslot] at hall
        · simp
          omega
  · cases h
    exact Follows.of_same rfl (fun _ hv => hv) rfl rfl (fun hp => hp) rfl

/-- Taking the work up again. -/
theorem resumeAct_follows {a : Unit} (h : resumeAct μ m = .ok (a, m')) : Follows μ n m m' := by
  simp only [resumeAct, Except.ok.injEq, Prod.mk.injEq] at h
  rw [← h.2]
  cases μ <;>
    exact ⟨fun hn => hn, fun _ => rfl, fun hb => hb, fun _ hs => hs, fun _ hl => hl,
      fun hμ => by simp at hμ ⊢, fun hμ => by simp at hμ ⊢⟩

end Acts

/-! ## boundaries and effects -/

/-- A world under a mutation. -/
def On (μ : Mutation) (P : Model → Prop) (r : Running State) : Prop :=
  r.world.mutation = μ ∧ P r.world.model

section Boundaries

variable {μ : Mutation} {P I : Model → Prop}

/-- A boundary that was passed is one at which no invariant was violated. -/
theorem step_passed (label : String) :
    Triple (fun s => s.mutation = μ ∧ P s.model) (step label)
      (fun _ s => s.mutation = μ ∧ P s.model ∧ Safe s.model.snapshot)
      (fun _ s => s.mutation = μ ∧ P s.model) := by
  rintro s ⟨hμ, hm⟩
  simp only [step]
  split
  · next fault _ =>
      cases fault with
      | fail e => exact ⟨hμ, hm⟩
      | crash => exact ⟨hμ, hm⟩
  · split
    · next hnil => exact ⟨hμ, hm, (checkInvariants_eq_nil_iff _).mp hnil⟩
    · exact ⟨hμ, hm⟩

/-- An effect that comes to its end has passed the boundary behind its act. -/
theorem effect_passed {α : Type} {Q : α → Model → Prop} {act : Act α} (name : String)
    (hP : ∀ m, P m → I m)
    (hact : ∀ m a m', P m → act μ m = .ok (a, m') → I m' ∧ (Safe m'.snapshot → Q a m')) :
    Triple (fun s => s.mutation = μ ∧ P s.model) (effect name act)
      (fun a s => s.mutation = μ ∧ Q a s.model) (fun _ s => s.mutation = μ ∧ I s.model) := by
  unfold effect
  refine Triple.bind (R := fun _ s => s.mutation = μ ∧ P s.model)
    ((step_passed s!"before:{name}").conseq (fun _ h => h) (fun _ _ h => ⟨h.1, h.2.1⟩)
      fun _ s h => ⟨h.1, hP _ h.2⟩) fun _ => ?_
  refine Triple.get_bind fun s hs => ?_
  rw [hs.1]
  cases hok : act μ s.model with
  | error e => exact fun u hu => hu ▸ ⟨hs.1, hP _ hs.2⟩
  | ok x =>
      obtain ⟨a, m'⟩ := x
      obtain ⟨hI, hQ⟩ := hact _ a m' hs.2 hok
      refine Triple.bind (R := fun x u => x = (a, m') ∧ u = s) (fun u hu => ⟨rfl, hu⟩) fun x => ?_
      refine Triple.assume fun hx => ?_
      subst hx
      refine Triple.bind (R := fun _ u => u.mutation = μ ∧ u.model = m')
        (Triple.modify fun u hu => hu ▸ ⟨hs.1, rfl⟩) fun _ => ?_
      refine Triple.bind ((step_passed (P := (· = m')) s!"after:{name}").conseq (fun _ h => h)
        (fun _ _ h => h) fun _ u h => ⟨h.1, h.2 ▸ hI⟩) fun _ => ?_
      refine Triple.pure fun u hu => ⟨hu.1, ?_⟩
      obtain ⟨-, hmodel, hsafe⟩ := hu
      rw [hmodel] at hsafe ⊢
      exact hQ hsafe

/-- An effect between two boundaries, where it was safe to pass the second. -/
theorem lift_passed {α : Type} {Q : α → Model → Prop} {act : Act α} (name : String)
    (hP : ∀ m, P m → I m)
    (hact : ∀ m a m', P m → act μ m = .ok (a, m') → I m' ∧ (Safe m'.snapshot → Q a m')) :
    Triple (On μ P) (lift (effect name act)) (fun a => On μ (Q a)) (fun _ => On μ I) :=
  Triple.zoom fun r hr => effect_passed name hP hact r.world hr

/-- A call that changes nothing. -/
theorem lift_same {α : Type} {m : Prog Error State α} (hsame : ∀ s, (m s).2 = s) :
    Triple (On μ P) (lift m) (fun _ => On μ P) (fun _ => On μ P) := by
  refine Triple.zoom fun r hr => ?_
  have hworld := hsame r.world
  generalize m r.world = o at hworld ⊢
  obtain ⟨o, s⟩ := o
  simp only at hworld
  subst hworld
  cases o <;> exact hr

/-- A reply that reads the world. -/
theorem read_passed {α : Type} (label : String) (reply : State → α) :
    Triple (On μ P)
      (lift (do
        interrupt label
        let s ← Prog.get
        pure (reply s)))
      (fun a r => On μ P r ∧ a = reply r.world) (fun _ => On μ P) := by
  rw [lift_bind]
  exact Triple.bind (lift_same (interrupt_same label)) fun _ r hr => ⟨hr, rfl⟩

/-- An intent between two boundaries. -/
theorem journal_passed {Q : Model → Prop} {self : Nat} {p : SimulationPredicates} {now : Nat}
    (intent : Phase) (detail : Detail) (hP : ∀ m, P m → I m)
    (hact : ∀ m m' entry, entry.intent = intent → P m → appendAct entry μ m = .ok ((), m') →
      I m' ∧ (Safe m'.snapshot → Q m')) :
    Triple (On μ P) ((simulationEngine self p now).journal intent detail) (fun _ => On μ Q)
      (fun _ => On μ I) := by
  unfold Engine.journal
  refine Triple.get_bind fun r hr => ?_
  refine Triple.bind (R := fun _ => On μ Q) ?_ fun _ => Triple.modify fun u hu => hu
  refine Triple.pre (P := On μ P) ?_ fun u hu => by
    rw [hu]
    exact hr
  exact lift_passed "journal" hP fun m _ m' hm h => hact m m' _ rfl hm h

/-- The probe looks and leaves everything as it is. -/
theorem probe_same : Triple (On μ P) (lift (effect "probe" probeAct)) (fun _ => On μ P)
    (fun _ => On μ P) := by
  refine lift_passed "probe" (fun _ h => h) fun m a m' hm h => ?_
  unfold probeAct at h
  split at h <;> cases h
  exact ⟨hm, fun _ => hm⟩

end Boundaries

/-! ## recovery -/

/-- What a recovery keeps: what is hidden stays hidden, and what is exposed stays exposed. -/
def Lasting (μ : Mutation) (n : Nat) (E : Prop) (m : Model) : Prop :=
  Hidden μ n m ∧ (E → m.Exposed μ)

/-- Where a recovery has passed a boundary, only one process is live. -/
def Alone (μ : Mutation) : Point → Model → Prop
  | .entry, _ | .committed, _ | .rolling, _ => True
  | .opened tail, m | .fenced tail, m => lastIntent m.journal = tail
  | _, m => μ = .dualRun → m.Single

section Recovery

variable {μ : Mutation} {n : Nat} {E : Prop} {m m' : Model} {self : Nat}
  {p : SimulationPredicates} {now : Nat}

/-- What lasts lasts as the model goes on. -/
theorem Lasting.follow (h : Lasting μ n E m) (hf : Follows μ n m m') : Lasting μ n E m' :=
  ⟨h.1.follow hf, fun he => hf.exposed (h.2 he)⟩

/-- No boundary is passed while two processes are live. -/
theorem Hidden.single_of_safe (h : Hidden μ n m) (hsafe : Safe m.snapshot) (hμ : μ = .dualRun) :
    m.Single := by
  rcases h.dual hμ with hs | ⟨hlive, -⟩
  · exact hs
  · have hone : m.live.length ≤ 1 := hsafe.neverDualRun
    omega

/-- An effect of a recovery between two points. -/
theorem lasting_effect {q : Point} {P : Model → Prop} {act : Act Unit} (name : String)
    (hP : ∀ m, P m → Lasting μ n E m)
    (hq : ∀ m, (μ = .dualRun → m.Single) → Alone μ q m)
    (hact : ∀ m a m', act μ m = .ok (a, m') → Follows μ n m m') :
    Triple (On μ P) (lift (effect name act)) (fun _ => On μ fun m => Lasting μ n E m ∧ Alone μ q m)
      (fun _ => On μ (Lasting μ n E)) :=
  lift_passed name hP fun m a m' hm h => by
    have hlasting := (hP m hm).follow (hact m a m' h)
    exact ⟨hlasting, fun hsafe => ⟨hlasting, hq m' (hlasting.1.single_of_safe hsafe)⟩⟩

/-- The recovery of a mutated world. -/
theorem lastingRecover : RecoverOutline (simulationEngine self p now)
    (fun q => On μ fun m => Lasting μ n E m ∧ Alone μ q m) (fun _ => On μ (Lasting μ n E)) where
  stop := by
    rw [show (simulationEngine self p now).host.stop .experiment =
      answered (effect "stop" stopAct) from rfl, bounded_answered]
    exact lasting_effect "stop" (fun m h => h.1) (fun m h => h) fun m a m' h => stopAct_follows h
  start := by
    rw [show (simulationEngine self p now).host.start .stable =
      answered (effect "start" (startAct .stable)) from rfl, bounded_answered]
    exact lasting_effect "start" (fun m h => h.1) (fun m h => h)
      fun m a m' h => startAct_follows h
  resumed := by
    rw [show (simulationEngine self p now).host.resume =
      answered (effect "resume" resumeAct) from rfl, bounded_answered]
    exact lasting_effect "resume" (fun m h => h.1) (fun m h => h)
      fun m a m' h => resumeAct_follows h
  clear := lasting_effect "clear" (fun m h => h.1) (fun m h => h)
    fun m a m' h => clearAct_follows h
  promote := lasting_effect "promote" (fun m h => h.1) (fun m h => h)
    fun m a m' h => promoteAct_follows h
  resume := by
    rw [show (simulationEngine self p now).host.resume =
      answered (effect "resume" resumeAct) from rfl, bounded_answered]
    exact lasting_effect "resume" (fun m h => h.1) (fun m h => h)
      fun m a m' h => resumeAct_follows h
  read := by
    unfold Engine.readEntries
    refine Triple.bind ((read_passed "read_journal" fun s => s.model.journal).conseq
      (fun _ h => h) (fun _ _ h => h) fun _ _ h => ⟨h.1, h.2.1⟩) fun entries => ?_
    refine Triple.of_forall fun r ⟨hr, he⟩ => ?_
    refine Triple.bind (R := fun _ u => u = r) (Triple.ofExcept (fun _ _ _ h => h)
      fun _ u _ hu => hu ▸ ⟨hr.1, hr.2.1⟩) fun _ => Triple.pure fun u hu => ?_
    subst hu
    exact ⟨hr.1, hr.2.1, by rw [he]; rfl⟩
  fence tail := by
    rw [show (simulationEngine self p now).host.fence = answered (interrupt "fence") from rfl,
      bounded_answered]
    exact (lift_same (interrupt_same "fence")).conseq (fun _ h => h) (fun _ _ h => h)
      fun _ _ h => ⟨h.1, h.2.1⟩
  idle r hr := by
    have hrest : ∀ tail, (∀ q, tail = some q → q = .idle) →
        On μ (fun m => Lasting μ n E m ∧ Alone μ (.fenced tail) m) r →
        On μ (fun m => Lasting μ n E m ∧ Alone μ (.rest none) m) r := by
      rintro tail htail ⟨hr, hlasting, ht⟩
      refine ⟨hr, hlasting, fun hμ => ?_⟩
      rcases hlasting.1.dual hμ with hs | ⟨-, q, hq, hne⟩
      · exact hs
      · exact absurd (htail q (ht.symm.trans hq)) hne
    rcases hr with hr | hr
    · exact hrest none (fun q hq => by cases hq) hr
    · exact hrest (some .idle) (fun q hq => by cases hq; rfl) hr
  commit r hr := ⟨hr.1, hr.2.1, trivial⟩
  redo r hr := ⟨hr.1, hr.2.1, trivial⟩
  withdraw reason := by
    refine journal_passed _ _ (fun m h => h.1) fun m m' entry he hm h => ?_
    have hlasting := hm.1.follow (appendAct_follows (by rw [he]; decide) h)
    exact ⟨hlasting, fun hsafe => ⟨hlasting, hlasting.1.single_of_safe hsafe⟩⟩
  abandon tail reason _ := by
    refine journal_passed _ _ (fun m h => h.1) fun m m' entry he hm h => ?_
    have hlasting := hm.1.follow (appendAct_follows (by rw [he]; decide) h)
    exact ⟨hlasting, fun _ => ⟨hlasting, trivial⟩⟩

end Recovery

/-! ## upgrades -/

/-- What an upgrade that came so far says of the mutation. -/
structure Marked (μ : Mutation) (reach : Nat) (m : Model) : Prop where
  shown : μ = .loseStable ∨ μ = .dropJournal → reach < 2
  alone : μ = .dualRun → reach < 4 ∧ m.Single
  begun : μ = .dualRun → 1 ≤ reach → m.Begun
  parked : μ = .neverResume → 3 ≤ reach → m.parked = true
  workload : μ = .loseWorkload → 5 ≤ reach → m.workload = "lost"

/-- The stable service does not run the target yet. -/
def Fresh (target : String) : Point → Model → Prop
  | .rest none, m => m.stable ≠ some target
  | .surveyed stable, _ => stable ≠ target
  | _, _ => True

/-- The assertion of the upgrade of a mutated world. -/
def Trial (μ : Mutation) (n : Nat) (target : String) (q : Point) (m : Model) : Prop :=
  Hidden μ n m ∧ Marked μ q.reach m ∧ Fresh target q m

section Upgrade

variable {μ : Mutation} {n : Nat} {m m' : Model} {target : String} {self : Nat}
  {p : SimulationPredicates} {now : Nat}

/-- A mark stays as the model goes on. -/
theorem Marked.follow {reach : Nat} (h : Marked μ reach m) (hf : Follows μ n m m') :
    Marked μ reach m' where
  shown := h.shown
  alone hμ := ⟨(h.alone hμ).1, hf.single hμ (h.alone hμ).2⟩
  begun hμ hr := hf.begun (h.begun hμ hr)
  parked hμ hr := hf.parked hμ (h.parked hμ hr)
  workload hμ hr := hf.workload hμ (h.workload hμ hr)

/-- An effect that brings an upgrade further: the boundary behind it was passed. -/
theorem trial_effect {α : Type} {q : Point} {q' : α → Point} {act : Act α} (name : String)
    (hfollow : ∀ m a m', act μ m = .ok (a, m') → Follows μ n m m')
    (hmark : ∀ m a m', Trial μ n target q m → act μ m = .ok (a, m') → Safe m'.snapshot →
      Marked μ (q' a).reach m')
    (hfresh : ∀ a m, Fresh target (q' a) m) :
    Triple (On μ (Trial μ n target q)) (lift (effect name act))
      (fun a => On μ (Trial μ n target (q' a))) (fun _ => On μ (Hidden μ n)) :=
  lift_passed name (fun _ hm => hm.1) fun m a m' hm h =>
    ⟨hm.1.follow (hfollow m a m' h), fun hsafe =>
      ⟨hm.1.follow (hfollow m a m' h), hmark m a m' hm h hsafe, hfresh a m'⟩⟩

/-- An effect behind which no mutation shows that did not show before it. -/
theorem trial_effect_same {α : Type} {q : Point} {q' : α → Point} {act : Act α} (name : String)
    (hfollow : ∀ m a m', act μ m = .ok (a, m') → Follows μ n m m')
    (hreach : ∀ a, (q' a).reach = q.reach) (hfresh : ∀ a m, Fresh target (q' a) m) :
    Triple (On μ (Trial μ n target q)) (lift (effect name act))
      (fun a => On μ (Trial μ n target (q' a))) (fun _ => On μ (Hidden μ n)) :=
  trial_effect name hfollow
    (fun _ a m' hm h _ => hreach a ▸ hm.2.1.follow (hfollow _ a m' h)) hfresh

/-- An intent of the upgrade. -/
theorem trial_journal {q q' : Point} (intent : Phase) (detail : Detail) (hi : intent ≠ .idle)
    (hmark : ∀ m m' entry, entry.intent = intent → Trial μ n target q m →
      appendAct entry μ m = .ok ((), m') → Marked μ q'.reach m')
    (hfresh : ∀ m, Fresh target q' m) :
    Triple (On μ (Trial μ n target q)) ((simulationEngine self p now).journal intent detail)
      (fun _ => On μ (Trial μ n target q')) (fun _ => On μ (Hidden μ n)) :=
  journal_passed intent detail (fun m hm => hm.1) fun m m' entry he hm h => by
    have hhidden := hm.1.follow (appendAct_follows (he ▸ hi) h)
    exact ⟨hhidden, fun _ => ⟨hhidden, hmark m m' entry he hm h, hfresh m'⟩⟩

/-- An intent that marks nothing new. -/
theorem trial_journal_same {q q' : Point} (intent : Phase) (detail : Detail) (hi : intent ≠ .idle)
    (hreach : q'.reach = q.reach) (hfresh : ∀ m, Fresh target q' m) :
    Triple (On μ (Trial μ n target q)) ((simulationEngine self p now).journal intent detail)
      (fun _ => On μ (Trial μ n target q')) (fun _ => On μ (Hidden μ n)) :=
  trial_journal intent detail hi (fun _ m' entry he hm h => by
    rw [hreach]
    exact hm.2.1.follow (n := n) (appendAct_follows (he ▸ hi) h)) hfresh

/-- Resuming is the last that can show: who is never resumed stays parked, and a lost workload
is seen. -/
theorem resumeAct_marked {a : Unit} (h : resumeAct μ m = .ok (a, m')) (hm : Marked μ 4 m) :
    Marked μ 5 m' := by
  have hf : Follows μ 0 m m' := resumeAct_follows h
  refine ⟨fun hμ => ?_, fun hμ => ?_, fun hμ hr => ?_, fun hμ hr => ?_, fun hμ hr => ?_⟩
  · have := hm.shown hμ
    omega
  · have := (hm.alone hμ).1
    omega
  · exact hf.begun (hm.begun hμ (by omega))
  · exact hf.parked hμ (hm.parked hμ (by omega))
  · simp only [resumeAct, Except.ok.injEq, Prod.mk.injEq] at h
    rw [← h.2, if_pos hμ]

/-- A staged candidate shows a lost stable slot and a dropped journal. -/
theorem stageAct_marked {version : String} {a : Unit} (hdrop : μ = .dropJournal → m.journal = [])
    (hf : Follows μ n m m') (h : stageAct version μ m = .ok (a, m')) (hsafe : Safe m'.snapshot)
    (hm : Marked μ 1 m) : Marked μ 2 m' := by
  simp only [stageAct, Except.ok.injEq, Prod.mk.injEq] at h
  refine ⟨fun hμ => ?_, fun hμ => ?_, fun hμ hr => ?_, fun hμ hr => ?_, fun hμ hr => ?_⟩
  · exfalso
    rcases hμ with hμ | hμ
    · have hbrick := hsafe.neverBricked
      rw [← h.2, if_pos hμ] at hbrick
      simp [Model.snapshot] at hbrick
    · have hj := hsafe.journaled
      rw [← h.2, if_neg (by simp [hμ])] at hj
      simp [Model.snapshot, hdrop hμ] at hj
  · exact ⟨by omega, hf.single hμ (hm.alone hμ).2⟩
  · exact hf.begun (hm.begun hμ (by omega))
  · omega
  · omega

/-- The start of a candidate is as any effect where the stable service was stopped. -/
theorem startAct_follows_of_ne {a : Unit} (hμ : μ ≠ .dualRun)
    (h : startAct .experiment μ m = .ok (a, m')) : Follows μ n m m' := by
  unfold startAct at h
  split at h
  · split at h
    · cases h
    · cases h
      exact
        { named := fun hn => hn
          dropped := fun _ => rfl
          begun := fun hb => hb
          single := fun hd => absurd hd hμ
          dual := fun hd => absurd hd hμ
          parked := fun _ hp => hp
          workload := fun _ hw => hw }
  · cases h
    exact Follows.of_same rfl (fun _ hv => hv) rfl rfl (fun hp => hp) rfl

/-- A candidate started beside the stable service is a second process. -/
theorem startAct_dual {a : Unit} (hs : m.Single) (hn : m.Named n)
    (h : startAct .experiment μ m = .ok (a, m')) :
    m'.live.length = 2 ∧ m'.journal = m.journal ∧ m'.Named n := by
  obtain ⟨q, hl, hslot⟩ := hs
  have hbeside : (m.live.all fun q => q.slot != .experiment) = true := by simp [hl, hslot]
  unfold startAct at h
  rw [if_pos hbeside] at h
  split at h
  · cases h
  · cases h
    exact ⟨by simp [hl], rfl, hn⟩

/-- Behind the start of the candidate two live services would show. -/
theorem startExperiment_trial {prior : Option Evidence} :
    Triple (On μ (Trial μ n target (.stopped prior)))
      (lift (effect "start" (startAct .experiment)))
      (fun _ => On μ (Trial μ n target (.started prior))) (fun _ => On μ (Hidden μ n)) := by
  refine lift_passed "start" (fun m hm => hm.1) fun m a m' ⟨hh, hm, _⟩ h => ?_
  have hm : Marked μ 3 m := hm
  by_cases hμ : μ = .dualRun
  · obtain ⟨hlive, hj, hnamed⟩ := startAct_dual (hm.alone hμ).2 hh.named h
    have hbegun : m'.Begun := by
      unfold Model.Begun
      rw [hj]
      exact hm.begun hμ (by omega)
    refine ⟨⟨hnamed, fun hd => ?_, fun _ => .inr ⟨by omega, hbegun⟩⟩, fun hsafe => ?_⟩
    · rw [hμ] at hd
      cases hd
    · have hone : m'.live.length ≤ 1 := hsafe.neverDualRun
      omega
  · have hf : Follows μ n m m' := startAct_follows_of_ne hμ h
    have hmarked : Marked μ 4 m' :=
      { shown := fun hs => by
          have := hm.shown hs
          omega
        alone := fun hd => absurd hd hμ
        begun := fun hd => absurd hd hμ
        parked := fun hp _ => hf.parked hp (hm.parked hp (by omega))
        workload := fun _ hr => absurd hr (by decide) }
    exact ⟨hh.follow hf, fun _ => ⟨hh.follow hf, hmarked, trivial⟩⟩

/-- A call that leaves its point whether it fails or not. -/
theorem probeFailed_of {A : Running State → Prop} {F : Option Error → Running State → Prop}
    {e : Option Error} {r : Running State} (hA : A r) (hF : ∀ e, F e r) : probeFailed A F e r := by
  cases e with
  | none => exact hF none
  | some err =>
      show if err.isUncertain then F (some err) r else A r
      split
      · exact hF (some err)
      · exact hA

/-- The upgrade of a mutated world to the next version. -/
theorem trialUpgrade {j : Nat} (hj : j ≤ n) (bytes : Path) :
    UpgradeOutline (simulationEngine self p now) (toString j) bytes
      (fun q => On μ (Trial μ n (toString j) q)) (fun _ => On μ (Hidden μ n)) where
  stop := by
    rw [show (simulationEngine self p now).host.stop .experiment =
      answered (effect "stop" stopAct) from rfl, bounded_answered]
    exact trial_effect_same "stop" (fun m a m' h => stopAct_follows h) (fun _ => rfl)
      fun _ _ => trivial
  start := by
    rw [show (simulationEngine self p now).host.start .stable =
      answered (effect "start" (startAct .stable)) from rfl, bounded_answered]
    exact trial_effect_same "start" (fun m a m' h => startAct_follows h) (fun _ => rfl)
      fun _ _ => trivial
  resumed := by
    rw [show (simulationEngine self p now).host.resume =
      answered (effect "resume" resumeAct) from rfl, bounded_answered]
    exact trial_effect "resume" (fun m a m' h => resumeAct_follows h)
      (fun m a m' hm h _ => resumeAct_marked h hm.2.1) fun _ _ => trivial
  clear := trial_effect_same "clear" (fun m a m' h => clearAct_follows h) (fun _ => rfl)
    fun _ _ => trivial
  promote := trial_effect_same "promote" (fun m a m' h => promoteAct_follows h) (fun _ => rfl)
    fun _ _ => trivial
  resume := by
    rw [show (simulationEngine self p now).host.resume =
      answered (effect "resume" resumeAct) from rfl, bounded_answered]
    exact trial_effect "resume" (fun m a m' h => resumeAct_follows h)
      (fun m a m' hm h _ => resumeAct_marked h hm.2.1) fun _ _ => trivial
  survey := by
    refine (read_passed "versions" fun s =>
      [("stable", s.model.stable), ("experiment", s.model.experiment)]).conseq
      (fun _ h => h) (fun versions r ⟨⟨hr, hh, hm, hfresh⟩, he⟩ => ?_)
      fun _ _ h => ⟨h.1, h.2.1⟩
    have hstable : stableOf versions = r.world.model.stable := by
      simp [he, stableOf]
    rw [hstable]
    cases hs : r.world.model.stable with
    | none => exact ⟨hr, hh⟩
    | some stable => exact ⟨hr, hh, hm, fun heq => hfresh (heq ▸ hs)⟩
  probe stable _ := by
    rw [show (simulationEngine self p now).host.probe =
      answered (effect "probe" probeAct) from rfl, bounded_answered]
    exact probe_same.conseq (fun _ h => h) (fun _ _ h => ⟨h.1, h.2.1, h.2.2.1, trivial⟩)
      fun _ _ h => probeFailed_of ⟨h.1, h.2.1, h.2.2.1, trivial⟩ fun _ => ⟨h.1, h.2.1⟩
  journalStaged stable prior _ := by
    refine trial_journal _ _ (by decide) (fun m m' entry he hm h => ?_) fun _ => trivial
    have hf : Follows μ n m m' := appendAct_follows (by rw [he]; decide) h
    have hm : Marked μ 0 m := hm.2.1
    show Marked μ 1 m'
    exact
      { shown := fun _ => by decide
        alone := fun hμ => ⟨by decide, hf.single hμ (hm.alone hμ).2⟩
        begun := fun hμ _ => appendAct_begun (by rw [he]; decide) (by rw [hμ]; decide) h
        parked := fun _ hr => absurd hr (by decide)
        workload := fun _ hr => absurd hr (by decide) }
  stage prior := trial_effect "stage" (fun m a m' h => stageAct_follows hj h)
    (fun m a m' hm h hsafe =>
      stageAct_marked hm.1.dropped (stageAct_follows hj h) h hsafe hm.2.1) fun _ _ => trivial
  journalHandingOver prior := trial_journal_same _ _ (by decide) rfl fun _ => trivial
  quiesce prior := by
    rw [show (simulationEngine self p now).host.quiesce =
      answered (effect "quiesce" quiesceAct) from rfl, bounded_answered]
    refine trial_effect "quiesce" (fun m a m' h => quiesceAct_follows h)
      (fun m a m' hm h _ => ?_) fun _ _ => trivial
    have hf : Follows μ n m m' := quiesceAct_follows h
    have hm : Marked μ 2 m := hm.2.1
    show Marked μ 3 m'
    refine ⟨fun hμ => ?_, fun hμ => ⟨by decide, hf.single hμ (hm.alone hμ).2⟩,
      fun hμ _ => hf.begun (hm.begun hμ (by decide)), fun _ _ => ?_, fun _ hr => ?_⟩
    · have := hm.shown hμ
      omega
    · cases h
      rfl
    · exact absurd hr (by decide)
  stopStable prior := by
    rw [show (simulationEngine self p now).host.stop .stable =
      answered (effect "stop" stopAct) from rfl, bounded_answered]
    exact trial_effect_same "stop" (fun m a m' h => stopAct_follows h) (fun _ => rfl)
      fun _ _ => trivial
  startExperiment prior := by
    rw [show (simulationEngine self p now).host.start .experiment =
      answered (effect "start" (startAct .experiment)) from rfl, bounded_answered]
    exact startExperiment_trial
  journalRunning prior := trial_journal_same _ _ (by decide) rfl fun _ => trivial
  probeLive prior := by
    rw [show (simulationEngine self p now).host.probe =
      answered (effect "probe" probeAct) from rfl, bounded_answered]
    exact probe_same.conseq (fun _ h => h) (fun _ _ h => h)
      fun _ _ h => probeFailed_of h fun _ => ⟨h.1, h.2.1⟩
  journalReadback prior evidence := trial_journal_same _ _ (by decide) rfl fun _ => trivial
  replaced prior evidence r _ hr := hr
  evaluate prior evidence := by
    rw [show (simulationEngine self p now).predicates.evaluate evidence (toString j) =
      answered (Prog.ofExcept (p.evaluate self evidence (toString j))) from rfl,
      bounded_answered]
    refine (lift_same fun s => ?_).conseq (fun _ h => h) (fun verdict _ h => ?_)
      fun _ _ h => ⟨h.1, h.2.1⟩
    · cases p.evaluate self evidence (toString j) <;> rfl
    · cases verdict <;> exact h
  journalPromoted prior evidence := trial_journal_same _ _ (by decide) rfl fun _ => trivial
  silent prior reason := trial_journal_same _ _ (by decide) rfl fun _ => trivial
  refused prior evidence reason := trial_journal_same _ _ (by decide) rfl fun _ => trivial

/-- At the end of an upgrade every mutation shows. -/
theorem Marked.exposed (h : Marked μ 5 m) (hμ : μ ≠ .none) : m.Exposed μ := by
  cases μ with
  | none => exact absurd rfl hμ
  | loseStable => exact absurd (h.shown (.inl rfl)) (by decide)
  | dropJournal => exact absurd (h.shown (.inr rfl)) (by decide)
  | dualRun => exact absurd (h.alone rfl).1 (by decide)
  | loseWorkload => exact .inr ⟨rfl, h.workload rfl (by decide)⟩
  | neverResume => exact .inl ⟨rfl, h.parked rfl (by decide)⟩

end Upgrade

/-! ## the rounds -/

section Rounds

variable {μ : Mutation} {self : Nat} {p : SimulationPredicates}

/-- The world of a round, before or after its attempt. -/
def Mutated (μ : Mutation) (n : Nat) (s : State) : Prop := s.mutation = μ ∧ Hidden μ n s.model

/-- A mutation hidden from more versions. -/
theorem Hidden.mono {n k : Nat} {m : Model} (h : Hidden μ n m) (hle : n ≤ k) : Hidden μ k m where
  named v hv := by
    obtain ⟨j, hj, hver⟩ := h.named v hv
    exact ⟨j, by omega, hver⟩
  dropped := h.dropped
  dual := h.dual

/-- A version not given out yet runs nowhere. -/
theorem Model.Named.ne {n j : Nat} {m : Model} (h : m.Named n) (hj : n < j) :
    m.stable ≠ some (toString j) := by
  intro hs
  obtain ⟨i, hi, heq⟩ := h _ (.inl hs)
  have := toString_injective heq
  omega

/-- **The attempt of a round** on a mutated world is cut off, or exposes the mutation. -/
theorem roundAttempt_exposes {round : Nat} {s : State} (hμ : μ ≠ .none)
    (h : Mutated μ (round + 1) s) (boundary : Option Nat) :
    Ends (fun _ t => Mutated μ (round + 2) t ∧ t.model.Exposed μ)
      (fun _ t => Mutated μ (round + 2) t)
      (roundAttempt self p round (injectCrash boundary s)) := by
  have hrecover : Triple
      (On μ fun m => Lasting μ (round + 1) False m ∧ Alone μ .entry m)
      (simulationEngine self p 1).recover
      (fun _ => On μ (Trial μ (round + 2) (toString (round + 2)) (.rest none)))
      (fun _ => On μ (Hidden μ (round + 2))) := by
    refine lastingRecover.recover_triple.conseq (fun _ h => h) (fun _ r hr => ?_)
      fun _ r hr => ⟨hr.1, hr.2.1.mono (by omega)⟩
    obtain ⟨ended, hmutation, ⟨hhidden, -⟩, halone⟩ := hr
    have hsingle : μ = .dualRun → r.world.model.Single := halone
    have hmarked : Marked μ 0 r.world.model :=
      { shown := fun _ => by decide
        alone := fun hd => ⟨by decide, hsingle hd⟩
        begun := fun _ hr => absurd hr (by decide)
        parked := fun _ hr => absurd hr (by decide)
        workload := fun _ hr => absurd hr (by decide) }
    exact ⟨hmutation, hhidden.mono (by omega), hmarked, hhidden.named.ne (by omega)⟩
  have hupgrade : UpgradeOutline (simulationEngine self p 1) (toString (round + 2))
      "synthetic-artifact" (fun q => On μ (Trial μ (round + 2) (toString (round + 2)) q))
      (fun _ => On μ (Hidden μ (round + 2))) := trialUpgrade (Nat.le_refl _) _
  have hattempt := Triple.bind hrecover fun _ => hupgrade.upgrade_triple
  have hends := hattempt ⟨injectCrash boundary s, 0⟩ ⟨h.1, ⟨h.2, False.elim⟩, trivial⟩
  simp only [roundAttempt, checkBudget_thousand]
  refine withEngine_ends hends (fun outcome r hr => ?_) fun e r hr => hr
  cases outcome with
  | promoted v => exact ⟨⟨hr.2.1, hr.2.2.1⟩, hr.2.2.2.1.exposed hμ⟩
  | rolledBack reason => exact ⟨⟨hr.1, hr.2.1⟩, hr.2.2.1.exposed hμ⟩
  | upToDate => exact absurd rfl hr.2.2.2

/-- **The recovery of a round** does not repair what the attempt exposed. -/
theorem roundRecovery_keeps {n : Nat} {E : Prop} {s : State} (h : Mutated μ n s)
    (hE : E → s.model.Exposed μ) :
    Ends (fun _ t => Mutated μ n t ∧ (E → t.model.Exposed μ)) (fun _ _ => True)
      (withEngine (simulationEngine self p 2).recover s) := by
  refine withEngine_ends (lastingRecover.recover_triple ⟨s, 0⟩ ⟨h.1, ⟨h.2, hE⟩, trivial⟩)
    (fun _ r hr => ?_) fun _ _ _ => trivial
  obtain ⟨ended, hmutation, ⟨hhidden, hexposed⟩, -⟩ := hr
  exact ⟨⟨hmutation, hhidden⟩, hexposed⟩

/-- An exposed mutation fails the round. -/
theorem checkRound_of_exposed {m : Model} (h : m.Exposed μ) :
    ∃ e, checkRound (Model.init "1").snapshot m = .error e := by
  unfold checkRound
  by_cases hp : m.parked = true
  · rw [if_pos hp]
    exact ⟨_, rfl⟩
  · rcases h with ⟨-, hparked⟩ | ⟨-, hlost⟩
    · exact absurd hparked hp
    · rw [if_neg hp]
      simp [workloadPreserved, Model.snapshot, Model.init, hlost]

/-- A failed attempt that does not end the simulation is counted. -/
theorem countCrash_error {crashes crashes' : Nat} {e : Error}
    (h : countCrash crashes (.error e) = .ok crashes') : crashes' = crashes + 1 := by
  simp only [countCrash] at h
  split at h
  · simpa using h.symm
  · simp at h

/-- A round that passes on a mutated world was cut off. -/
theorem simulateRound_cutOff (hμ : μ ≠ .none) (round : Nat) (tally : Tally) :
    Triple (Mutated μ (round + 1))
      (simulateRound self p (Model.init "1").snapshot round tally)
      (fun tally' t => Mutated μ (round + 2) t ∧ tally'.crashes = tally.crashes + 1)
      (fun _ _ => True) := by
  unfold simulateRound
  refine Triple.bind (R := fun _ s => ∃ u, Mutated μ (round + 1) u ∧
    s = injectCrash (crashAt (xorshift tally.random)) u)
    (Triple.modify fun s hs => ⟨s, hs, rfl⟩) fun _ => ?_
  refine Triple.bind (R := fun attempt s => Mutated μ (round + 2) s ∧
    ∀ o, attempt = .ok o → s.model.Exposed μ) ?_ fun attempt => ?_
  · refine Triple.attempt ?_
    rintro s ⟨u, hu, rfl⟩
    refine (roundAttempt_exposes hμ hu _).mono (fun o t ht => ⟨ht.1, fun _ _ => ht.2⟩)
      fun e t ht => ?_
    cases e with
    | none => exact trivial
    | some err => exact ⟨ht, fun o ho => by cases ho⟩
  refine Triple.bind (R := fun crashes s => Mutated μ (round + 2) s ∧
    (crashes ≠ tally.crashes + 1 → s.model.Exposed μ)) ?_ fun crashes => ?_
  · refine Triple.ofExcept (fun crashes s hcount hs => ⟨hs.1, fun hne => ?_⟩)
      fun _ _ _ _ => trivial
    cases attempt with
    | ok o => exact hs.2 o rfl
    | error e => exact absurd (countCrash_error hcount) hne
  refine Triple.get_bind fun s hs => ?_
  refine Triple.bind (R := fun _ t => t = injectCrash none s)
    (Triple.modify fun t ht => by rw [ht]) fun _ => ?_
  rw [checkBudget_thousand]
  refine Triple.bind (R := fun _ t => t = injectCrash none s) (fun t ht => ht) fun _ => ?_
  refine Triple.bind (R := fun _ t => Mutated μ (round + 2) t ∧
    (crashes ≠ tally.crashes + 1 → t.model.Exposed μ)) ?_ fun _ => ?_
  · rintro t rfl
    exact roundRecovery_keeps (s := injectCrash none s) hs.1 hs.2
  refine Triple.get_bind fun t ht => ?_
  refine Triple.bind (R := fun _ u => u = t ∧ crashes = tally.crashes + 1) ?_ fun _ =>
    Triple.pure fun u hu => ⟨hu.1 ▸ ht.1, hu.2⟩
  refine Triple.ofExcept (fun _ u hcheck hu => ⟨hu, ?_⟩) fun _ _ _ _ => trivial
  refine Decidable.byContradiction fun hne => ?_
  obtain ⟨e, he⟩ := checkRound_of_exposed (ht.2 hne)
  rw [he] at hcheck
  cases hcheck

/-- Every round that passes on a mutated world was cut off. -/
theorem simulateRounds_cutOff (hμ : μ ≠ .none) (rounds : Nat) (tally : Tally) :
    Triple (Mutated μ 1) (simulateRounds self p (Model.init "1").snapshot rounds tally)
      (fun tally' t => Mutated μ (rounds + 1) t ∧ tally'.crashes = tally.crashes + rounds)
      (fun _ _ => True) := by
  induction rounds with
  | zero => exact Triple.pure fun s hs => ⟨hs, rfl⟩
  | succ rounds ih =>
      unfold simulateRounds
      refine Triple.bind ih fun tally' s h => ?_
      obtain ⟨hs, hc⟩ := h
      have hround : Ends (fun tally'' t => Mutated μ (rounds + 2) t ∧
          tally''.crashes = tally'.crashes + 1) (fun _ _ => True)
          (simulateRound self p (Model.init "1").snapshot rounds tally' s) :=
        simulateRound_cutOff hμ rounds tally' s hs
      refine hround.mono (fun tally'' t ht => ⟨ht.1, ?_⟩) fun _ _ _ => trivial
      rw [ht.2, hc]
      omega

/-- The first model is mutated from the start. -/
theorem mutated_init : Mutated μ 1 (mutate μ (init "1")) where
  left := rfl
  right :=
    { named := fun v hv => by
        rcases hv with hv | hv
        · cases hv
          exact ⟨1, Nat.le_refl 1, rfl⟩
        · cases hv
      dropped := fun _ => rfl
      dual := fun _ => .inl ⟨_, rfl, rfl⟩ }

end Rounds

/-- **A simulation that passes detected no mutation**: if one of its rounds was not cut off,
there was none to detect. -/
theorem simulate_detects (self : Nat) (seed : UInt32) (rounds : Nat) (mutation : Mutation)
    (receipt : SimulationReceipt) (hpass : simulate self seed rounds mutation = .ok receipt)
    (hcrashes : receipt.crashes < receipt.rounds) : mutation = .none := by
  refine Decidable.byContradiction fun hμ => ?_
  have hrun : Ends (fun tally t => Mutated mutation (rounds + 1) t ∧ tally.crashes = 0 + rounds)
      (fun _ _ => True) (simulateRounds self ⟨seed % 5 = 0⟩ (Model.init "1").snapshot rounds
        ⟨max seed 1, 0, 0⟩ (mutate mutation (init "1"))) :=
    simulateRounds_cutOff hμ rounds _ _ mutated_init
  have hinit : (mutate mutation (init "1")).model.snapshot = (Model.init "1").snapshot := rfl
  simp only [simulate, hinit] at hpass
  generalize simulateRounds self ⟨seed % 5 = 0⟩ (Model.init "1").snapshot rounds
    ⟨max seed 1, 0, 0⟩ (mutate mutation (init "1")) = run at hrun hpass
  obtain ⟨run, t⟩ := run
  cases run with
  | ok tally =>
      cases hpass
      have hcount : tally.crashes = 0 + rounds := hrun.2
      simp only at hcrashes
      omega
  | err e => cases hpass
  | crash => cases hpass

/-- One round, whose crash lies behind its last boundary. -/
theorem simulate_detects_none :
    simulate 4096 1 1 .none = .ok ⟨1, "promote", 1, 0, 26, "pass"⟩ ∧ 0 < 1 ∧
      Mutation.none = Mutation.none :=
  ⟨by decide +kernel, by decide,
    simulate_detects 4096 1 1 .none ⟨1, "promote", 1, 0, 26, "pass"⟩ (by decide +kernel)
      (by decide)⟩

end FakeHost

end KCarrier
