import KCarrier.Harness.Simulate

/-!
# KCarrier.Harness.Drill

A world without a mutation passes its own simulation.

The assertion of the outline is `Drill`: the points of `Model.At`, and beside them what the
verdict asks of the candidate's evidence (`Attested`).  The crash condition is `Blamed`: a
run is cut off in a sound state, and with an error of the plan.
-/

namespace KCarrier

open Crash
open Running

namespace FakeHost

/-! ## faults that are errors of one kind -/

/-- The plan faults boundaries with uncertain errors of the kind `Blame`, and with nothing
else. -/
def Faults (plan : Plan) (Blame : Error → Prop) : Prop :=
  ∀ i label fault, plan i label = some fault →
    ∃ err, fault = .fail err ∧ err.isUncertain = true ∧ Blame err

/-- The error of an injected crash. -/
def Synthetic (err : Error) : Prop :=
  ∃ label : String, err = .uncertain s!"synthetic crash at {label}"

theorem faults_once (boundary : Option Nat) : Faults (Plan.once boundary) Synthetic := by
  intro i label fault h
  unfold Plan.once at h
  split at h
  · cases h
    exact ⟨_, rfl, rfl, label, rfl⟩
  · cases h

/-- Where no boundary is picked, nothing is to blame. -/
theorem faults_none : Faults (Plan.once none) fun _ => False := by
  intro i label fault h
  simp [Plan.once] at h

/-- The driver knows the error of an injected crash by its text. -/
theorem Synthetic.prefix {err : Error} (h : Synthetic err) :
    "synthetic crash".toList <+: err.message.toList := by
  obtain ⟨label, rfl⟩ := h
  have hsplit : s!"synthetic crash at {label}" = "synthetic crash" ++ (" at " ++ label) := by
    show "synthetic crash at " ++ label = _
    rw [← String.append_assoc]
    rfl
  show _ <+: (s!"synthetic crash at {label}").toList
  rw [hsplit, String.toList_append]
  exact List.prefix_append _ _

section Boundaries

variable {plan : Plan} {Blame : Error → Prop}

/-- The error that ended a run is one the plan is to blame for. -/
def Charged (Blame : Error → Prop) (e : Option Error) : Prop :=
  ∃ err, e = some err ∧ err.isUncertain = true ∧ Blame err

theorem step_charged (hfaults : Faults plan Blame) {P : Model → Prop}
    (hP : ∀ m, P m → m.Sound) (label : String) :
    Triple (fun s => Sane plan s ∧ P s.model) (step label) (fun _ s => Sane plan s ∧ P s.model)
      (fun e s => (Sane plan s ∧ P s.model) ∧ Charged Blame e) := by
  have hstate : Triple (fun s => Sane plan s ∧ P s.model) (step label)
      (fun _ s => Sane plan s ∧ P s.model) (fun _ s => Sane plan s ∧ P s.model ∧ True) :=
    step_triple (fun _ => trivial) hP label
  intro s hs
  have hend := hstate s hs
  have hsafe : checkInvariants s.model.snapshot BUILT_IN_INVARIANTS = [] :=
    (checkInvariants_eq_nil_iff _).mpr (hP _ hs.2).safe
  simp only [step, hsafe] at hend ⊢
  split at hend
  · next fault hf =>
      rw [hs.1.failAt] at hf
      obtain ⟨err, rfl, hu, hblame⟩ := hfaults _ _ _ hf
      exact ⟨⟨hend.1, hend.2.1⟩, err, rfl, hu, hblame⟩
  · exact hend

theorem interrupt_charged (hfaults : Faults plan Blame) {P : Model → Prop} (label : String) :
    Triple (fun s => Sane plan s ∧ P s.model) (interrupt label)
      (fun _ s => Sane plan s ∧ P s.model)
      (fun e s => (Sane plan s ∧ P s.model) ∧ Charged Blame e) := by
  intro s hs
  unfold interrupt
  cases hf : s.failAt s.boundary label with
  | none => exact hs
  | some fault =>
      rw [hs.1.failAt] at hf
      obtain ⟨err, rfl, hu, hblame⟩ := hfaults _ _ _ hf
      exact ⟨hs, err, rfl, hu, hblame⟩

/-- An effect: cut off before its act or after it, or through. -/
theorem effect_charged (hfaults : Faults plan Blame) {α : Type} {P : Model → Prop}
    {Q : α → Model → Prop} {act : Act α} (name : String)
    (hact : ∀ m, P m → ∃ a m', act .none m = .ok (a, m') ∧ Q a m')
    (hP : ∀ m, P m → m.Sound) (hQ : ∀ a m, Q a m → m.Sound) :
    Triple (fun s => Sane plan s ∧ P s.model) (effect name act)
      (fun a s => Sane plan s ∧ Q a s.model)
      (fun e s => (Sane plan s ∧ (P s.model ∨ ∃ a, Q a s.model)) ∧ Charged Blame e) := by
  unfold effect
  refine Triple.bind ((step_charged hfaults hP _).conseq (fun _ h => h) (fun _ _ h => h)
    fun _ s h => ⟨⟨h.1.1, .inl h.1.2⟩, h.2⟩) fun _ => ?_
  refine Triple.get_bind fun s hs => ?_
  obtain ⟨a, m', hok, hq⟩ := hact _ hs.2
  rw [hs.1.mutation, hok]
  refine Triple.bind (R := fun x u => x = (a, m') ∧ u = s) (fun u hu => ⟨rfl, hu⟩) fun x => ?_
  refine Triple.assume fun hx => ?_
  subst hx
  refine Triple.bind (R := fun _ u => Sane plan u ∧ Q a u.model) ?_ fun _ => ?_
  · refine Triple.modify fun u hu => ?_
    rw [hu]
    exact ⟨⟨hs.1.mutation, hs.1.failAt, hs.1.seen⟩, hq⟩
  · refine Triple.bind ((step_charged hfaults (hQ a) _).conseq (fun _ h => h) (fun _ _ h => h)
      fun _ u h => ⟨⟨h.1.1, .inr ⟨a, h.1.2⟩⟩, h.2⟩) fun _ => ?_
    exact Triple.pure fun u hu => hu

end Boundaries

/-! ## the outline -/

/-- What the verdict asks of the candidate, from before its start on: the next process id is
not the simulator's own, then whoever is live can be attested, then the evidence is valid. -/
def Attested (self : Nat) : Point → Model → Prop
  | .rest none, m | .surveyed _, m | .probed _ _, m | .staged _, m | .prepared _, m
  | .handing _, m | .quiesced _, m | .stopped _, m => m.incarnation + 1 < self
  | .started _, m | .running _, m => ∀ p ∈ m.live,
      Evidence.validate self { version := p.version, pid := p.pid, startId := p.startId } = .ok ()
  | .live _ evidence, _ | .readback _ evidence, _ | .fresh _ evidence, _ =>
      evidence.validate self = .ok ()
  | _, _ => True

/-- The assertion of the outline; `X` is what is asked at a point beside `Model.At`. -/
def Drill (plan : Plan) (X : Point → Model → Prop) (version : String) (p : Point)
    (r : Running State) : Prop :=
  Sane plan r.world ∧ r.world.model.At version p ∧ X p r.world.model

/-- The crash condition of the outline. -/
def Blamed (plan : Plan) (Blame : Error → Prop) (e : Option Error) (r : Running State) : Prop :=
  (Sane plan r.world ∧ r.world.model.Sound) ∧ Charged Blame e

section Obligations

variable {plan : Plan} {Blame : Error → Prop} {X : Point → Model → Prop} {version : String}
  {self : Nat} {predicates : SimulationPredicates} {now : Nat}

/-- An effect between two points. -/
theorem drill_effect (hfaults : Faults plan Blame) {α : Type} {p : Point} {q : α → Point}
    {act : Act α} (name : String)
    (hact : ∀ m, m.At version p → X p m → ∃ a m', act .none m = .ok (a, m') ∧
      m'.At version (q a) ∧ X (q a) m') :
    Triple (Drill plan X version p) (lift (effect name act))
      (fun a => Drill plan X version (q a)) (Blamed plan Blame) := by
  refine Triple.zoom fun r hr => ?_
  have heff := effect_charged hfaults (P := fun m => m.At version p ∧ X p m)
    (Q := fun a m => m.At version (q a) ∧ X (q a) m) name
    (fun m hm => hact m hm.1 hm.2) (fun m hm => hm.1.sound) (fun a m hm => hm.1.sound)
  refine (heff r.world hr).mono (fun a s hs => hs) fun e s hs => ?_
  obtain ⟨⟨hsane, hm⟩, hcharged⟩ := hs
  refine ⟨⟨hsane, ?_⟩, hcharged⟩
  rcases hm with hm | ⟨a, hm⟩
  · exact hm.1.sound
  · exact hm.1.sound

/-- An effect to a point at which nothing more is asked. -/
theorem drill_effect_of_at (hfaults : Faults plan Blame) {α : Type} {p : Point}
    {q : α → Point} {act : Act α} (name : String)
    (hact : ∀ m, m.At version p → ∃ a m', act .none m = .ok (a, m') ∧ m'.At version (q a) ∧
      Model.Kept m m')
    (hX : ∀ a m, X (q a) m) :
    Triple (Drill plan X version p) (lift (effect name act))
      (fun a => Drill plan X version (q a)) (Blamed plan Blame) :=
  drill_effect hfaults name fun m hm _ => by
    obtain ⟨a, m', hok, hat, -⟩ := hact m hm
    exact ⟨a, m', hok, hat, hX a m'⟩

theorem drill_interrupt (hfaults : Faults plan Blame) {p : Point} (label : String) :
    Triple (Drill plan X version p) (lift (interrupt label))
      (fun _ => Drill plan X version p) (Blamed plan Blame) := by
  refine Triple.zoom fun r hr => ?_
  have hcall := interrupt_charged hfaults (P := fun m => m.At version p ∧ X p m) label
  exact (hcall r.world hr).mono (fun a s hs => hs)
    fun e s hs => ⟨⟨hs.1.1, hs.1.2.1.sound⟩, hs.2⟩

/-- A reply that reads the world. -/
theorem drill_read (hfaults : Faults plan Blame) {α : Type} {p : Point} (label : String)
    (reply : State → α) :
    Triple (Drill plan X version p)
      (lift (do
        interrupt label
        let s ← Prog.get
        pure (reply s)))
      (fun a r => Drill plan X version p r ∧ a = reply r.world) (Blamed plan Blame) := by
  rw [lift_bind]
  exact Triple.bind (drill_interrupt hfaults label) fun _ r hr => ⟨hr, rfl⟩

/-- Journaling an intent appends one entry with it. -/
theorem drill_journal (hfaults : Faults plan Blame) {p q : Point} (intent : Phase)
    (detail : Detail)
    (hact : ∀ m entry, entry.intent = intent → entry.validate = .ok () → m.At version p →
      X p m → ({ m with journal := m.journal ++ [entry] } : Model).At version q ∧
        X q { m with journal := m.journal ++ [entry] }) :
    Triple (Drill plan X version p) ((simulationEngine self predicates now).journal intent detail)
      (fun _ => Drill plan X version q) (Blamed plan Blame) := by
  unfold Engine.journal
  refine Triple.get_bind fun r hr => ?_
  refine Triple.bind (R := fun _ => Drill plan X version q) ?_ fun _ =>
    Triple.modify fun u hu => hu
  refine Triple.pre (P := Drill plan X version p) ?_ fun u hu => by
    rw [hu]
    exact hr
  exact drill_effect hfaults "journal" fun m hm hx =>
    ⟨(), _, rfl, hact m _ rfl (by simp [JournalEntry.validate, Engine.entryOf]) hm hx⟩

end Obligations

/-! ## the triples of the engine -/

section Outline

variable {plan : Plan} {Blame : Error → Prop} {version : String} {self : Nat}
  {predicates : SimulationPredicates} {now : Nat}

theorem drillRollback (hfaults : Faults plan Blame) {X : Point → Model → Prop}
    (hstop : ∀ m, X .rollStopped m) (hstart : ∀ m, X .rollStarted m)
    (hresume : ∀ m, X .restored m) (hclear : ∀ m, X (.rest (some .rolledBack)) m) :
    RollbackOutline (simulationEngine self predicates now) (Drill plan X version)
      (Blamed plan Blame) where
  stop := by
    rw [show (simulationEngine self predicates now).host.stop .experiment =
      answered (effect "stop" stopAct) from rfl, bounded_answered]
    exact drill_effect_of_at hfaults "stop" (fun m hm => stopAct_rolling hm) fun _ => hstop
  start := by
    rw [show (simulationEngine self predicates now).host.start .stable =
      answered (effect "start" (startAct .stable)) from rfl, bounded_answered]
    exact drill_effect_of_at hfaults "start" (fun m hm => startAct_rollStopped hm) fun _ => hstart
  resumed := by
    rw [show (simulationEngine self predicates now).host.resume =
      answered (effect "resume" resumeAct) from rfl, bounded_answered]
    exact drill_effect_of_at hfaults "resume" (fun m hm => resumeAct_rollStarted hm)
      fun _ => hresume
  clear := drill_effect_of_at hfaults "clear" (fun m hm => clearAct_at hm) fun _ => hclear

theorem drillCommit (hfaults : Faults plan Blame) {X : Point → Model → Prop}
    (hpublish : ∀ m, X .published m) (hresume : ∀ m, X (.rest (some .promoted)) m) :
    CommitOutline (simulationEngine self predicates now) (Drill plan X version)
      (Blamed plan Blame) where
  promote := drill_effect_of_at hfaults "promote" (fun m hm => promoteAct_at hm) fun _ => hpublish
  resume := by
    rw [show (simulationEngine self predicates now).host.resume =
      answered (effect "resume" resumeAct) from rfl, bounded_answered]
    exact drill_effect_of_at hfaults "resume" (fun m hm => resumeAct_published hm)
      fun _ => hresume

/-- Recovery at any clock, from every sound state. -/
theorem drillRecover (hfaults : Faults plan Blame) :
    RecoverOutline (simulationEngine self predicates now)
      (Drill plan (fun _ _ => True) version) (Blamed plan Blame) where
  toRollbackOutline := drillRollback hfaults (fun _ => trivial) (fun _ => trivial)
    (fun _ => trivial) fun _ => trivial
  toCommitOutline := drillCommit hfaults (fun _ => trivial) fun _ => trivial
  read := by
    unfold Engine.readEntries
    refine Triple.bind (drill_read hfaults "read_journal" fun s => s.model.journal)
      fun entries => ?_
    refine Triple.of_forall fun r ⟨⟨hsane, hm, hx⟩, he⟩ => ?_
    have hvalid : validateAll entries = .ok () := by
      rw [he]
      exact (validateAll_eq_ok_iff _).mpr hm.base.valid
    rw [hvalid]
    rintro s rfl
    exact ⟨hsane, ⟨hm, by rw [he]⟩, hx⟩
  fence tail := by
    rw [show (simulationEngine self predicates now).host.fence = answered (interrupt "fence")
      from rfl, bounded_answered]
    exact drill_interrupt hfaults "fence"
  idle := by
    intro r hr
    have hrest : ∀ tail, (∀ p, tail = some p → p.atRest = true) →
        (∀ m : Model, m.TailSound tail → m.experiment = none ∧ m.parked = false ∧ m.Serving) →
        Drill plan (fun _ _ => True) version (.fenced tail) r →
        Drill plan (fun _ _ => True) version (.rest none) r := by
      intro tail hatRest htail ⟨hsane, ⟨hs, ht⟩, hx⟩
      obtain ⟨hexp, hparked, hserving⟩ := htail _ (ht ▸ hs.tail)
      exact ⟨hsane, ⟨hs.base, ht ▸ hatRest, hexp, hparked, hserving⟩, hx⟩
    rcases hr with hr | hr
    · exact hrest none (fun p hp => by cases hp) (fun m h => h) hr
    · exact hrest (some .idle) (fun p hp => by cases hp; rfl) (fun m h => h) hr
  commit := by
    rintro r ⟨hsane, ⟨hs, ht⟩, hx⟩
    have htail := hs.tail
    rw [ht] at htail
    exact ⟨hsane, ⟨hs.base, ht, htail⟩, hx⟩
  redo := by
    rintro r ⟨hsane, ⟨hs, ht⟩, hx⟩
    have htail := hs.tail
    rw [ht] at htail
    exact ⟨hsane, ⟨hs.base, ht, htail⟩, hx⟩
  withdraw reason := by
    refine drill_journal hfaults _ _ fun m entry he hv hm hx => ?_
    obtain ⟨hs, htail⟩ := hm
    have hsound := hs.tail
    rw [htail] at hsound
    exact ⟨⟨hs.base.append hv, by simp [he], hsound.1, hsound.2⟩, hx⟩
  abandon tail reason hopen := by
    refine drill_journal hfaults _ _ fun m entry he hv hm hx => ?_
    obtain ⟨hs, htail⟩ := hm
    exact ⟨⟨hs.base.append hv, by simp [he], hs.tail.live⟩, hx⟩

/-- Until the candidate is started no effect uses a process id up. -/
theorem drill_effect_before (hfaults : Faults plan Blame) {α : Type} {p : Point}
    {q : α → Point} {act : Act α} (name : String)
    (hp : ∀ m, Attested self p m → m.incarnation + 1 < self)
    (hq : ∀ a m, m.incarnation + 1 < self → Attested self (q a) m)
    (hact : ∀ m, m.At version p → ∃ a m', act .none m = .ok (a, m') ∧ m'.At version (q a) ∧
      Model.Kept m m')
    (hsame : ∀ m a m', act .none m = .ok (a, m') → m'.incarnation = m.incarnation) :
    Triple (Drill plan (Attested self) version p) (lift (effect name act))
      (fun a => Drill plan (Attested self) version (q a)) (Blamed plan Blame) :=
  drill_effect hfaults name fun m hm hx => by
    obtain ⟨a, m', hok, hat, -⟩ := hact m hm
    refine ⟨a, m', hok, hat, hq a m' ?_⟩
    rw [hsame m a m' hok]
    exact hp m hx

/-- The candidate runs under a process id of its own. -/
theorem startAct_attested {m : Model} {prior : Option Evidence} (hv : version ≠ "")
    (hm : m.At version (.stopped prior)) (hx : m.incarnation + 1 < self) :
    ∃ a m', startAct .experiment .none m = .ok (a, m') ∧ m'.At version (.started prior) ∧
      Attested self (.started prior) m' := by
  obtain ⟨a, m', hok, hat, -⟩ := startAct_at hm
  obtain ⟨hb, ht, hexp, hstop⟩ := hm
  have hrun := @startAct_of_stopped m .experiment version hstop hexp
  rw [hok] at hrun
  cases hrun
  refine ⟨_, _, hok, hat, fun p hp => ?_⟩
  rw [List.mem_singleton] at hp
  subst hp
  have hid : ¬m.incarnation + 1 = self := by omega
  simp [Evidence.validate, hv, hid]

/-- What the probe of the candidate answers can be attested. -/
theorem probeAct_attested {m : Model} {prior : Option Evidence}
    (hm : m.At version (.running prior)) (hx : Attested self (.running prior) m) :
    ∃ a m', probeAct .none m = .ok (a, m') ∧ m'.At version (.live prior a) ∧
      Attested self (.live prior a) m' := by
  obtain ⟨p, hl, hslot, hver⟩ := hm.2.2.2
  exact ⟨_, m, probeAct_of_live hl, hm, hx p (by simp [hl])⟩

/-- Where every failure is uncertain, a failed probe ends the upgrade. -/
theorem probeFailed_of_blamed {A : Running State → Prop} {e : Option Error} {r : Running State}
    (h : Blamed plan Blame e r) : probeFailed A (Blamed plan Blame) e r := by
  obtain ⟨err, rfl, hu, -⟩ := h.2
  simpa only [probeFailed, hu, if_true] using h

/-- On valid evidence the verdict is an answer. -/
theorem evaluate_of_valid (predicates : SimulationPredicates) {evidence : Evidence}
    (target : String) (hv : evidence.validate self = .ok ()) :
    ∃ verdict, predicates.evaluate self evidence target = .ok verdict := by
  simp only [SimulationPredicates.evaluate, VersionPredicate.evaluate, hv]
  exact ⟨_, rfl⟩

/-- An upgrade of a settled world, whose next process id is not the simulator's own. -/
theorem drillUpgrade (hfaults : Faults plan Blame) (hv : version ≠ "") (bytes : Path) :
    UpgradeOutline (simulationEngine self predicates now) version bytes
      (Drill plan (Attested self) version) (Blamed plan Blame) where
  toRollbackOutline := drillRollback hfaults (fun _ => trivial) (fun _ => trivial)
    (fun _ => trivial) fun _ => trivial
  toCommitOutline := drillCommit hfaults (fun _ => trivial) fun _ => trivial
  survey := by
    refine (drill_read hfaults "versions" fun s =>
      [("stable", s.model.stable), ("experiment", s.model.experiment)]).post
      fun versions r ⟨⟨hsane, hm, hx⟩, he⟩ => ?_
    obtain ⟨p, -, -, hp⟩ := hm.serving
    rw [he]
    simp only [stableOf, hp, List.lookup_cons, BEq.rfl, Option.join_some]
    exact ⟨hsane, ⟨hm, hp⟩, hx⟩
  probe stable _ := by
    rw [show (simulationEngine self predicates now).host.probe =
      answered (effect "probe" probeAct) from rfl, bounded_answered]
    refine (drill_effect_before hfaults "probe" (fun m h => h) (fun a m h => h)
      (fun m hm => probeAct_at hm) fun m a m' h => ?_).conseq (fun _ h => h) (fun _ _ h => h)
      fun e r h => probeFailed_of_blamed h
    unfold probeAct at h
    split at h <;> cases h
    rfl
  journalStaged stable prior _ := by
    refine drill_journal hfaults _ _ fun m entry he hv hm hx => ?_
    obtain ⟨hs, -⟩ := hm
    exact ⟨⟨hs.base.append hv, by simp [he], hs.parked, hs.serving⟩, hx⟩
  stage prior := by
    refine drill_effect_before hfaults "stage" (fun m h => h) (fun a m h => h)
      (fun m hm => stageAct_at hm) fun m a m' h => ?_
    cases h
    rfl
  journalHandingOver prior := by
    refine drill_journal hfaults _ _ fun m entry he hv hm hx => ?_
    obtain ⟨hb, htail, -, hl, hexp⟩ := hm
    exact ⟨⟨hb.append hv, by simp [he], hexp, hl⟩, hx⟩
  quiesce prior := by
    rw [show (simulationEngine self predicates now).host.quiesce =
      answered (effect "quiesce" quiesceAct) from rfl, bounded_answered]
    refine drill_effect_before hfaults "quiesce" (fun m h => h) (fun a m h => h)
      (fun m hm => quiesceAct_at hm) fun m a m' h => ?_
    cases h
    rfl
  stopStable prior := by
    rw [show (simulationEngine self predicates now).host.stop .stable =
      answered (effect "stop" stopAct) from rfl, bounded_answered]
    exact drill_effect_before hfaults "stop" (fun m h => h) (fun a m h => h)
      (fun m hm => stopAct_at hm) fun m a m' h => stopAct_incarnation h
  startExperiment prior := by
    rw [show (simulationEngine self predicates now).host.start .experiment =
      answered (effect "start" (startAct .experiment)) from rfl, bounded_answered]
    exact drill_effect hfaults "start" fun m hm hx => startAct_attested hv hm hx
  journalRunning prior := by
    refine drill_journal hfaults _ _ fun m entry he hv hm hx => ?_
    obtain ⟨hb, htail, hexp, hl⟩ := hm
    exact ⟨⟨hb.append hv, by simp [he], hexp, hl⟩, hx⟩
  probeLive prior := by
    rw [show (simulationEngine self predicates now).host.probe =
      answered (effect "probe" probeAct) from rfl, bounded_answered]
    exact (drill_effect hfaults "probe" fun m hm hx => probeAct_attested hm hx).conseq
      (fun _ h => h) (fun _ _ h => h) fun e r h => probeFailed_of_blamed h
  journalReadback prior evidence := by
    refine drill_journal hfaults _ _ fun m entry he hv hm hx => ?_
    obtain ⟨hb, htail, hexp, hl⟩ := hm
    exact ⟨⟨hb.append hv, by simp [he], hexp, hl⟩, hx⟩
  replaced prior evidence r _ hr := hr
  evaluate prior evidence := by
    rw [show (simulationEngine self predicates now).predicates.evaluate evidence version =
      answered (Prog.ofExcept (predicates.evaluate self evidence version)) from rfl,
      bounded_answered]
    rintro r ⟨hsane, hm, hx⟩
    obtain ⟨verdict, hverdict⟩ := evaluate_of_valid predicates version hx
    rw [hverdict]
    cases verdict with
    | none => exact ⟨hsane, hm, trivial⟩
    | some reason => exact ⟨hsane, hm, hx⟩
  journalPromoted prior evidence := by
    refine drill_journal hfaults _ _ fun m entry he hv hm hx => ?_
    obtain ⟨hb, htail, hexp, hl⟩ := hm
    exact ⟨⟨hb.append hv, by simp [he], .inl hl⟩, trivial⟩
  silent prior reason := by
    refine drill_journal hfaults _ _ fun m entry he hv hm hx => ?_
    obtain ⟨hb, htail, hexp, hl⟩ := hm
    exact ⟨⟨hb.append hv, by simp [he], .inr (.inr hl)⟩, trivial⟩
  refused prior evidence reason := by
    refine drill_journal hfaults _ _ fun m entry he hv hm hx => ?_
    obtain ⟨hb, htail, hexp, hl⟩ := hm
    exact ⟨⟨hb.append hv, by simp [he], .inr (.inr hl)⟩, trivial⟩

end Outline

/-! ## the rounds -/

section Rounds

variable {self : Nat} {p : SimulationPredicates} {initial : WorldSnapshot}

/-- A world between two rounds: settled, and with process ids left before the simulator's
own. -/
structure Between (n : Nat) (s : State) : Prop where
  ready : Ready s
  settled : s.model.Settled
  incarnation : s.model.incarnation ≤ n

theorem withEngine_ends {α : Type} {m : Prog Error (Running State) α} {s : State}
    {Q : α → Running State → Prop} {F : Option Error → Running State → Prop}
    {Q' : α → State → Prop} {F' : Option Error → State → Prop} (h : Ends Q F (m ⟨s, 0⟩))
    (hQ : ∀ a r, Q a r → Q' a r.world) (hF : ∀ e r, F e r → F' e r.world) :
    Ends Q' F' (withEngine m s) := by
  unfold withEngine Prog.zoom
  generalize m ⟨s, 0⟩ = o at h ⊢
  obtain ⟨o, r⟩ := o
  cases o with
  | ok a => exact hQ a r h
  | err e => exact hF (some e) r h
  | crash => exact hF none r h

/-- A budget of a thousand milliseconds is one. -/
theorem checkBudget_thousand : Engine.checkBudget 1000 = .ok () := by
  simp [Engine.checkBudget]

/-- **The attempt of a round** comes to an outcome, or is cut off by the injected crash; in
both cases a recovery may follow. -/
theorem roundAttempt_ends {n : Nat} {s : State} (h : Between n s) (boundary : Option Nat)
    (hself : n + 2 < self) (round : Nat) :
    Ends (fun _ => Ready) (fun e t => Ready t ∧ Charged Synthetic e)
      (roundAttempt self p round (injectCrash boundary s)) := by
  obtain ⟨⟨plan', hsane⟩, hsound⟩ := h.ready
  have hfaults := faults_once boundary
  have hcost : Spends (Priced.OfWorld (·.model.incarnation)) 1
      (simulationEngine self p 1).recover := priced_incarnation.recover_spends
  have houtline : RecoverOutline (simulationEngine self p 1)
      (Drill (Plan.once boundary) (fun _ _ => True) (toString (round + 2)))
      (Blamed (Plan.once boundary) Synthetic) := drillRecover hfaults
  have hrecover : Triple
      (fun r => Drill (Plan.once boundary) (fun _ _ => True) (toString (round + 2)) .entry r ∧
        r.world.model.incarnation ≤ n)
      (simulationEngine self p 1).recover
      (fun _ => Drill (Plan.once boundary) (Attested self) (toString (round + 2)) (.rest none))
      (Blamed (Plan.once boundary) Synthetic) := by
    refine (houtline.recover_triple.and (hcost.triple n)).conseq (fun _ hr => hr)
      (fun _ r hr => ?_) fun _ _ hr => hr.1
    obtain ⟨⟨ended, hsane, hsettled, -⟩, hle⟩ := hr
    have hnext : r.world.model.incarnation + 1 < self := by
      have hle : r.world.model.incarnation ≤ n + 1 := hle
      omega
    exact ⟨hsane, hsettled, hnext⟩
  have hupgrade : UpgradeOutline (simulationEngine self p 1) (toString (round + 2))
      "synthetic-artifact" (Drill (Plan.once boundary) (Attested self) (toString (round + 2)))
      (Blamed (Plan.once boundary) Synthetic) := drillUpgrade hfaults (by simp) _
  have hattempt := Triple.bind hrecover fun _ => hupgrade.upgrade_triple
  have hends := hattempt ⟨injectCrash boundary s, 0⟩
    ⟨⟨hsane.inject, hsound, trivial⟩, h.incarnation⟩
  simp only [roundAttempt, checkBudget_thousand]
  refine withEngine_ends hends (fun outcome r hr => ?_) fun e r hr => ?_
  · cases outcome with
    | promoted v => exact ⟨⟨_, hr.2.1⟩, hr.2.2.1.sound⟩
    | rolledBack reason => exact ⟨⟨_, hr.1⟩, hr.2.1.sound⟩
    | upToDate => exact ⟨⟨_, hr.1⟩, hr.2.1.sound⟩
  · exact ⟨⟨⟨_, hr.1.1⟩, hr.1.2⟩, hr.2⟩

/-- **The recovery of a round** meets no fault, and settles the world. -/
theorem roundRecovery_total {n : Nat} {s : State} (h : Ready s)
    (hle : s.model.incarnation ≤ n) :
    ∃ t, withEngine (simulationEngine self p 2).recover (injectCrash none s) = (.ok (), t) ∧
      Between (n + 1) t := by
  obtain ⟨⟨plan', hsane⟩, hsound⟩ := h
  have houtline : RecoverOutline (simulationEngine self p 2)
      (Drill (Plan.once none) (fun _ _ => True) "") (Blamed (Plan.once none) fun _ => False) :=
    drillRecover faults_none
  have hends : Ends (fun _ t => (∃ plan, Sane plan t) ∧ t.model.Settled) (fun _ _ => False)
      (withEngine (simulationEngine self p 2).recover (injectCrash none s)) := by
    refine withEngine_ends (houtline.recover_triple ⟨injectCrash none s, 0⟩
      ⟨hsane.inject, hsound, trivial⟩) (fun _ r hr => ?_) fun e r hr => ?_
    · obtain ⟨ended, hsane, hsettled, -⟩ := hr
      exact ⟨⟨_, hsane⟩, hsettled⟩
    · obtain ⟨-, err, -, -, hfalse⟩ := hr
      exact hfalse
  have hspends : Spends (·.model.incarnation) 1
      (withEngine (simulationEngine self p 2).recover) := recovery_incarnation
  have hcost := hspends (injectCrash none s)
  generalize withEngine (simulationEngine self p 2).recover (injectCrash none s) = o
    at hends hcost ⊢
  obtain ⟨o, t⟩ := o
  cases o with
  | ok u =>
      have hmodel : t.model.incarnation ≤ s.model.incarnation + 1 := hcost
      exact ⟨t, rfl, ⟨hends.1, hends.2.sound⟩, hends.2, by omega⟩
  | err e => exact hends.elim
  | crash => exact hends.elim

/-- A settled world passes the checks at the end of a round. -/
theorem checkRound_of_settled {m : Model} (h : m.Settled) (version : String) :
    checkRound (Model.init version).snapshot m = .ok () := by
  have hworkload : workloadPreserved (Model.init version).snapshot m.snapshot = none := by
    simp [workloadPreserved, Model.snapshot, Model.init, h.base.workload]
  have hlive : serviceSettlesLive [m.snapshot] 1 = none := by
    rw [serviceSettlesLive_eq_none_iff]
    intro first hfirst
    obtain ⟨q, hl, hslot, hv⟩ := h.serving
    have hzero : first = 0 := by
      have := (List.findIdx?_eq_some_iff_findIdx_eq.mp hfirst).1
      simpa using this
    refine ⟨m.snapshot, by simp [hzero], ?_⟩
    simp [WorldSnapshot.showsStable, Model.snapshot, hv, hl]
  unfold checkRound
  rw [hworkload, hlive, h.parked]
  rfl

/-- What the attempt of a round leaves: a crash at most to count, and a world to recover. -/
theorem roundAttempt_counted {n : Nat} {s : State} (h : Between n s) (boundary : Option Nat)
    (hself : n + 2 < self) (round crashes : Nat) :
    ∃ attempt crashes' t,
      Prog.attempt (roundAttempt self p round) (injectCrash boundary s) = (.ok attempt, t) ∧
      countCrash crashes attempt = .ok crashes' ∧ crashes' ≤ crashes + 1 ∧ Ready t ∧
      t.model.incarnation ≤ n + 3 ∧ t.boundary ≤ 40 := by
  have hends := roundAttempt_ends (p := p) h boundary hself round
  have hstarts : (roundAttempt self p round (injectCrash boundary s)).2.model.incarnation ≤
      s.model.incarnation + 3 := roundAttempt_incarnation round (injectCrash boundary s)
  have hboundary : (roundAttempt self p round (injectCrash boundary s)).2.boundary ≤ 0 + 40 :=
    roundAttempt_boundary round (injectCrash boundary s)
  have hinc := h.incarnation
  unfold Prog.attempt
  generalize roundAttempt self p round (injectCrash boundary s) = o at hends hstarts hboundary ⊢
  obtain ⟨o, t⟩ := o
  simp only at hstarts hboundary
  cases o with
  | ok outcome =>
      exact ⟨.ok outcome, crashes, t, rfl, rfl, by omega, hends, by omega, by omega⟩
  | err e =>
      obtain ⟨hready, err, he, -, hsynthetic⟩ := hends
      cases he
      refine ⟨.error e, crashes + 1, t, rfl, ?_, by omega, hready, by omega, by omega⟩
      exact if_pos hsynthetic.prefix
  | crash =>
      obtain ⟨-, err, he, -⟩ := hends
      cases he

/-- **One round** of a simulation passes, and is cut off at most once. -/
theorem simulateRound_passes {n : Nat} {s : State} (h : Between n s) (hself : n + 2 < self)
    (round : Nat) (tally : Tally) :
    ∃ tally' t, simulateRound self p (Model.init "1").snapshot round tally s = (.ok tally', t) ∧
      Between (n + 4) t ∧ tally'.crashes ≤ tally.crashes + 1 ∧
      tally'.boundaries ≤ tally.boundaries + 40 := by
  obtain ⟨attempt, crashes, t, hattempt, hcount, hcrashes, hready, hinc, hboundary⟩ :=
    roundAttempt_counted (p := p) h (crashAt (xorshift tally.random)) hself round tally.crashes
  obtain ⟨u, hrecover, hbetween⟩ : ∃ u, withEngine (simulationEngine self p 2).recover
      (injectCrash none t) = (.ok (), u) ∧ Between (n + 3 + 1) u := roundRecovery_total hready hinc
  refine ⟨⟨xorshift tally.random, crashes, tally.boundaries + t.boundary⟩, u, ?_, hbetween,
    hcrashes, by simp only; omega⟩
  simp only [simulateRound, Prog.bind_run, Prog.modify_run, hattempt, hcount, Prog.get_run,
    Prog.ofExcept_ok_run, checkBudget_thousand, hrecover,
    checkRound_of_settled hbetween.settled, Prog.pure_run]

/-- **Every number of rounds** passes: each uses up four process ids at most. -/
theorem simulateRounds_passes (rounds : Nat) {s : State} (h : Between 1 s)
    (hself : 4 * rounds + 1 < self) (tally : Tally) :
    ∃ tally' t, simulateRounds self p (Model.init "1").snapshot rounds tally s = (.ok tally', t) ∧
      Between (4 * rounds + 1) t ∧ tally'.crashes ≤ tally.crashes + rounds ∧
      tally'.boundaries ≤ tally.boundaries + 40 * rounds := by
  induction rounds with
  | zero => exact ⟨tally, s, rfl, h, Nat.le_refl _, Nat.le_refl _⟩
  | succ rounds ih =>
      obtain ⟨tally₁, t, hrun, hbetween, hcrashes, hboundaries⟩ := ih (by omega)
      have hids : 4 * rounds + 1 + 2 < self := by omega
      obtain ⟨tally₂, u, hround, hnext, hcrashes', hboundaries'⟩ :=
        simulateRound_passes (p := p) hbetween hids rounds tally₁
      refine ⟨tally₂, u, ?_, ?_, by omega, by omega⟩
      · rw [simulateRounds, Prog.bind_run_ok hrun]
        exact hround
      · rw [show 4 * (rounds + 1) + 1 = 4 * rounds + 1 + 4 by omega]
        exact hnext

theorem between_init : Between 1 (mutate .none (init "1")) where
  ready := ready_init "1"
  settled :=
    { base := (ready_init "1").2.base
      atRest := fun _ h => by cases h
      experiment := rfl
      parked := rfl
      serving := ⟨_, rfl, rfl, rfl⟩ }
  incarnation := Nat.le_refl 1

end Rounds

/-- **A world without a mutation passes**: for every seed and every number of rounds, in a
process whose id the simulated ones do not reach. -/
theorem simulate_passes (self : Nat) (seed : UInt32) (rounds : Nat)
    (hself : 4 * rounds + 1 < self) :
    ∃ receipt, simulate self seed rounds .none = .ok receipt ∧ receipt.result = "pass" ∧
      receipt.rounds = rounds ∧ receipt.crashes ≤ rounds ∧ receipt.boundaries ≤ 40 * rounds := by
  obtain ⟨tally, t, hrun, -, hcrashes, hboundaries⟩ :=
    simulateRounds_passes (p := ⟨seed % 5 = 0⟩) rounds between_init hself ⟨max seed 1, 0, 0⟩
  simp only [Nat.zero_add] at hcrashes hboundaries
  refine ⟨⟨seed, if seed % 5 = 0 then "predicate-rollback" else "promote", rounds, tally.crashes,
    tally.boundaries, "pass"⟩, ?_, rfl, rfl, hcrashes, hboundaries⟩
  have hinit : (mutate .none (init "1")).model.snapshot = (Model.init "1").snapshot := rfl
  simp only [simulate, hinit, hrun, Res.map, decide_eq_true_eq]

/-- Five rounds of rollbacks in a process far from the simulated ones. -/
theorem simulate_passes_five :
    4 * 5 + 1 < 4096 ∧ ∃ receipt, simulate 4096 5 5 .none = .ok receipt ∧
      receipt.result = "pass" ∧ receipt.rounds = 5 ∧ receipt.crashes ≤ 5 ∧
      receipt.boundaries ≤ 40 * 5 :=
  ⟨by decide, simulate_passes 4096 5 5 (by decide)⟩

end FakeHost

end KCarrier
