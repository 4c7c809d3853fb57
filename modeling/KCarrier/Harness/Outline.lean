import KCarrier.Harness.Sound

/-!
# KCarrier.Harness.Outline

The proof outline of the engine over the harness world: the assertion at each
point (`Model.At`), the acts between the points, and from them the triples of
`recover` and `upgrade`.

Two facts travel with the points: the instruments are sane (`Sane`: no mutation,
every boundary so far was sound), and the machine follows the one the call started
from without a promoted intent (`K`) or with one (`Kc`).
-/

namespace KCarrier

open Crash
open Running

namespace FakeHost

namespace Model

/-- The assertion at each point of an engine whose upgrade goes to `version`. -/
def At (version : String) : Point → Model → Prop
  | .entry, m => m.Sound
  | .opened tail, m | .fenced tail, m => m.Sound ∧ lastIntent m.journal = tail
  | .rest _, m => m.Settled
  | .surveyed stable, m | .probed stable _, m => m.Settled ∧ m.stable = some stable
  | .staged _, m =>
      m.Base ∧ lastIntent m.journal = some .staged ∧ m.parked = false ∧ m.Serving
  | .prepared _, m =>
      m.Base ∧ lastIntent m.journal = some .staged ∧ m.parked = false ∧ m.Serving ∧
        m.experiment = some version
  | .handing _, m | .quiesced _, m =>
      m.Base ∧ lastIntent m.journal = some .handingOver ∧ m.experiment = some version ∧ m.Serving
  | .stopped _, m =>
      m.Base ∧ lastIntent m.journal = some .handingOver ∧ m.experiment = some version ∧ m.Stopped
  | .started _, m =>
      m.Base ∧ lastIntent m.journal = some .handingOver ∧ m.experiment = some version ∧ m.Trying
  | .running _, m | .live _ _, m =>
      m.Base ∧ lastIntent m.journal = some .runningExperiment ∧ m.experiment = some version ∧
        m.Trying
  | .readback _ _, m | .fresh _ _, m | .accepted _ _, m =>
      m.Base ∧ lastIntent m.journal = some .readback ∧ m.experiment = some version ∧ m.Trying
  | .committed, m =>
      m.Base ∧ lastIntent m.journal = some .promoted ∧
        (m.Trying ∨ m.experiment = none ∧ m.Serving)
  | .published, m =>
      m.Base ∧ lastIntent m.journal = some .promoted ∧ m.experiment = none ∧ m.Serving
  | .rolling, m =>
      m.Base ∧ lastIntent m.journal = some .rolledBack ∧ (m.Serving ∨ m.Stopped ∨ m.Trying)
  | .rollStopped, m => m.Base ∧ lastIntent m.journal = some .rolledBack ∧ m.Stopped
  | .rollStarted, m => m.Base ∧ lastIntent m.journal = some .rolledBack ∧ m.Serving
  | .restored, m =>
      m.Base ∧ lastIntent m.journal = some .rolledBack ∧ m.parked = false ∧ m.Serving

/-- The points of a handover state are sound. -/
theorem sound_of_handingOver {m : Model} (hb : m.Base) (ht : lastIntent m.journal = some .handingOver)
    (hx : m.experiment ≠ none) (hl : m.Serving ∨ m.Stopped ∨ m.Trying) : m.Sound :=
  ⟨hb, by rw [ht]; exact ⟨hx, hl⟩⟩

/-- **Every point is a sound state**: the crash invariant covers the outline. -/
theorem At.sound {version : String} {p : Point} {m : Model} (h : m.At version p) : m.Sound := by
  cases p with
  | entry => exact h
  | opened tail => exact h.1
  | fenced tail => exact h.1
  | rest ended => exact Settled.sound h
  | surveyed stable => exact h.1.sound
  | probed stable prior => exact h.1.sound
  | staged prior => exact ⟨h.1, by rw [h.2.1]; exact h.2.2⟩
  | prepared prior => exact ⟨h.1, by rw [h.2.1]; exact ⟨h.2.2.1, h.2.2.2.1⟩⟩
  | handing prior => exact sound_of_handingOver h.1 h.2.1 (by simp [h.2.2.1]) (.inl h.2.2.2)
  | quiesced prior => exact sound_of_handingOver h.1 h.2.1 (by simp [h.2.2.1]) (.inl h.2.2.2)
  | stopped prior =>
      exact sound_of_handingOver h.1 h.2.1 (by simp [h.2.2.1]) (.inr (.inl h.2.2.2))
  | started prior =>
      exact sound_of_handingOver h.1 h.2.1 (by simp [h.2.2.1]) (.inr (.inr h.2.2.2))
  | running prior => exact ⟨h.1, by rw [h.2.1]; exact h.2.2.2⟩
  | live prior evidence => exact ⟨h.1, by rw [h.2.1]; exact h.2.2.2⟩
  | readback prior evidence => exact ⟨h.1, by rw [h.2.1]; exact h.2.2.2⟩
  | fresh prior evidence => exact ⟨h.1, by rw [h.2.1]; exact h.2.2.2⟩
  | accepted prior evidence => exact ⟨h.1, by rw [h.2.1]; exact h.2.2.2⟩
  | committed => exact ⟨h.1, by rw [h.2.1]; exact h.2.2⟩
  | published => exact ⟨h.1, by rw [h.2.1]; exact .inr h.2.2⟩
  | rolling => exact ⟨h.1, by rw [h.2.1]; exact h.2.2⟩
  | rollStopped => exact ⟨h.1, by rw [h.2.1]; exact .inr (.inl h.2.2)⟩
  | rollStarted => exact ⟨h.1, by rw [h.2.1]; exact .inl h.2.2⟩
  | restored => exact ⟨h.1, by rw [h.2.1]; exact .inl h.2.2.2⟩

end Model

/-! ## boundaries and effects -/

/-- No mutation is on, the plan is installed, and every boundary so far was sound. -/
structure Sane (plan : Plan) (s : State) : Prop where
  mutation : s.mutation = .none
  failAt : s.failAt = plan
  seen : ∀ snapshot ∈ s.seen, ∃ m : Model, m.Sound ∧ snapshot = m.snapshot

section Boundaries

/- `Blame` stands for what a cut-off run is blamed on: a plan that faults some
boundary, or for an upgrade also the predicates. -/
variable {plan : Plan} {Blame : Prop}

/-- A boundary in a sound state: it may be faulted, and never reports a violation. -/
theorem step_triple (hplan : plan ≠ Plan.clean → Blame) {P : Model → Prop}
    (hP : ∀ m, P m → m.Sound) (label : String) :
    Triple (fun s => Sane plan s ∧ P s.model) (step label) (fun _ s => Sane plan s ∧ P s.model)
      (fun _ s => Sane plan s ∧ P s.model ∧ Blame) := by
  rintro s ⟨hs, hm⟩
  have hsafe : Safe s.model.snapshot := (hP _ hm).safe
  have hseen : ∀ snapshot ∈ s.seen ++ [s.model.snapshot],
      ∃ m : Model, m.Sound ∧ snapshot = m.snapshot := by
    intro snapshot h
    rcases List.mem_append.mp h with h | h
    · exact hs.seen snapshot h
    · rw [List.mem_singleton] at h
      exact ⟨s.model, hP _ hm, h⟩
  simp only [step]
  split
  · next fault hf =>
      have hblame : Blame := hplan fun hclean => by
        rw [hs.failAt, hclean] at hf
        cases hf
      cases fault with
      | fail e => exact ⟨⟨hs.mutation, hs.failAt, hseen⟩, hm, hblame⟩
      | crash => exact ⟨⟨hs.mutation, hs.failAt, hseen⟩, hm, hblame⟩
  · rw [(checkInvariants_eq_nil_iff _).mpr hsafe]
    exact ⟨⟨hs.mutation, hs.failAt, hseen⟩, hm⟩

/-- A call without a boundary changes nothing, whether it is faulted or not. -/
theorem interrupt_triple (hplan : plan ≠ Plan.clean → Blame) {P : Model → Prop}
    (label : String) :
    Triple (fun s => Sane plan s ∧ P s.model) (interrupt label)
      (fun _ s => Sane plan s ∧ P s.model) (fun _ s => Sane plan s ∧ P s.model ∧ Blame) := by
  rintro s ⟨hs, hm⟩
  simp only [interrupt]
  cases hf : s.failAt s.boundary label with
  | none => exact ⟨hs, hm⟩
  | some fault =>
      have hblame : Blame := hplan fun hclean => by
        rw [hs.failAt, hclean] at hf
        cases hf
      cases fault with
      | fail e => exact ⟨hs, hm, hblame⟩
      | crash => exact ⟨hs, hm, hblame⟩

/-- An effect: cut off before its act or after it, or through. -/
theorem effect_triple (hplan : plan ≠ Plan.clean → Blame) {α : Type} {P : Model → Prop}
    {Q : α → Model → Prop} {act : Act α} (name : String) (hact : ∀ m, P m → ∃ a m', act .none m = .ok (a, m') ∧ Q a m')
    (hP : ∀ m, P m → m.Sound) (hQ : ∀ a m, Q a m → m.Sound) :
    Triple (fun s => Sane plan s ∧ P s.model) (effect name act)
      (fun a s => Sane plan s ∧ Q a s.model)
      (fun _ s => Sane plan s ∧ (P s.model ∨ ∃ a, Q a s.model) ∧ Blame) := by
  unfold effect
  refine Triple.bind ((step_triple hplan hP _).conseq (fun _ h => h) (fun _ _ h => h)
    fun _ s h => ⟨h.1, .inl h.2.1, h.2.2⟩) fun _ => ?_
  refine Triple.of_forall fun s ⟨hs, hm⟩ => ?_
  obtain ⟨a, m', hok, hq⟩ := hact _ hm
  refine Triple.bind (R := fun t u => t = s ∧ u = s) (Triple.get fun t ht => ⟨ht, ht⟩)
    fun t => ?_
  refine Triple.bind (R := fun r u => r = (a, m') ∧ u = s) ?_ ?_
  · rintro u ⟨rfl, rfl⟩
    simp [hs.mutation, hok]
  · rintro ⟨b, m''⟩
    refine Triple.bind (R := fun _ u => Sane plan u ∧ Q a u.model ∧ b = a) ?_ fun _ => ?_
    · rintro u ⟨hr, rfl⟩
      cases hr
      exact ⟨⟨hs.mutation, hs.failAt, hs.seen⟩, hq, rfl⟩
    · refine Triple.bind ((step_triple hplan (P := fun m => Q a m ∧ b = a)
        (fun m h => hQ a m h.1) _).conseq (fun _ h => h) (fun _ _ h => h)
        fun _ u h => ⟨h.1, .inr ⟨a, h.2.1.1⟩, h.2.2⟩) fun _ => ?_
      exact Triple.pure fun u ⟨hu, hq, hb⟩ => hb ▸ ⟨hu, hq⟩

end Boundaries

/-! ## the outline -/

/-- Which of the two tracked facts holds at a point: `Kc` from the promoted intent
on, `K` elsewhere. -/
def tracked (K Kc : Model → Prop) : Point → Model → Prop
  | .committed | .published | .rest (some .promoted) => Kc
  | _ => K

/-- The assertion of the outline. -/
def Assert (plan : Plan) (version : String) (K Kc : Model → Prop) (p : Point)
    (r : Running State) : Prop :=
  Sane plan r.world ∧ r.world.model.At version p ∧ tracked K Kc p r.world.model

/-- The crash condition of the outline. -/
def CutOff (plan : Plan) (Blame : Prop) (K Kc : Model → Prop) (_ : Option Error)
    (r : Running State) : Prop :=
  Sane plan r.world ∧ r.world.model.Sound ∧ (K r.world.model ∨ Kc r.world.model) ∧ Blame

section Obligations

variable {plan : Plan} {Blame : Prop} {version : String} {K Kc : Model → Prop}

/-- The two tracked facts survive whatever keeps the committed version. -/
structure Tracks (K Kc : Model → Prop) : Prop where
  keep : ∀ m m', K m → Model.Kept m m' → K m'
  keepCommitted : ∀ m m', Kc m → Model.Kept m m' → Kc m'

/-- What is tracked at a point is tracked in a model that is kept. -/
theorem Tracks.tracked (h : Tracks K Kc) {p : Point} {m m' : Model}
    (hm : FakeHost.tracked K Kc p m) (hk : Model.Kept m m') : FakeHost.tracked K Kc p m' := by
  unfold FakeHost.tracked at hm ⊢
  split at hm
  · exact h.keepCommitted m m' hm hk
  · exact h.keepCommitted m m' hm hk
  · exact h.keepCommitted m m' hm hk
  · exact h.keep m m' hm hk

/-- One or the other is tracked at any point. -/
theorem tracked_or {p : Point} {m : Model} (h : tracked K Kc p m) : K m ∨ Kc m := by
  unfold tracked at h
  split at h
  · exact .inr h
  · exact .inr h
  · exact .inr h
  · exact .inl h

/-- A point is inside the crash condition. -/
theorem Assert.cutOff {p : Point} {r : Running State} {e : Option Error}
    (h : Assert plan version K Kc p r) (hblame : Blame) : CutOff plan Blame K Kc e r :=
  ⟨h.1, h.2.1.sound, tracked_or h.2.2, hblame⟩

/-- An effect between two points: it is enough that its act leads from the one
assertion to the other; cut off, it is at one of them. -/
theorem lift_effect_ends (hplan : plan ≠ Plan.clean → Blame) {α : Type} {p : Point}
    {q : α → Point} {act : Act α} (name : String)
    (hact : ∀ m, m.At version p → tracked K Kc p m → ∃ a m', act .none m = .ok (a, m') ∧
      m'.At version (q a) ∧ tracked K Kc (q a) m') :
    Triple (Assert plan version K Kc p) (lift (effect name act))
      (fun a => Assert plan version K Kc (q a))
      (fun _ r => (Assert plan version K Kc p r ∨ ∃ a, Assert plan version K Kc (q a) r) ∧
        Blame) := by
  refine Triple.zoom fun r hr => ?_
  have heff := effect_triple hplan (P := fun m => m.At version p ∧ tracked K Kc p m)
    (Q := fun a m => m.At version (q a) ∧ tracked K Kc (q a) m) name
    (fun m hm => hact m hm.1 hm.2) (fun m hm => hm.1.sound) (fun a m hm => hm.1.sound)
  refine (heff r.world hr).mono (fun a s hs => hs) fun e s hs => ?_
  rcases hs with ⟨hsane, hm | ⟨a, hm⟩, hblame⟩
  · exact ⟨.inl ⟨hsane, hm.1, hm.2⟩, hblame⟩
  · exact ⟨.inr ⟨a, hsane, hm.1, hm.2⟩, hblame⟩

/-- An effect between two points, with its boundaries. -/
theorem lift_effect_triple (hplan : plan ≠ Plan.clean → Blame) {α : Type} {p : Point}
    {q : α → Point} {act : Act α} (name : String)
    (hact : ∀ m, m.At version p → tracked K Kc p m → ∃ a m', act .none m = .ok (a, m') ∧
      m'.At version (q a) ∧ tracked K Kc (q a) m') :
    Triple (Assert plan version K Kc p) (lift (effect name act))
      (fun a => Assert plan version K Kc (q a)) (CutOff plan Blame K Kc) :=
  (lift_effect_ends hplan name hact).conseq (fun _ h => h) (fun _ _ h => h) fun _ _ h => by
    obtain ⟨h | ⟨a, h⟩, hblame⟩ := h
    · exact h.cutOff hblame
    · exact h.cutOff hblame

/-- An effect between two points that track the same fact: its act keeps the
committed version. -/
theorem lift_effect_triple_of_kept (hplan : plan ≠ Plan.clean → Blame) (ht : Tracks K Kc)
    {α : Type} {p : Point} {q : α → Point} {act : Act α} (name : String)
    (hact : ∀ m, m.At version p → ∃ a m', act .none m = .ok (a, m') ∧ m'.At version (q a) ∧
      Model.Kept m m')
    (hsame : ∀ a, tracked K Kc (q a) = tracked K Kc p) :
    Triple (Assert plan version K Kc p) (lift (effect name act)) (fun a => Assert plan version K Kc (q a))
      (CutOff plan Blame K Kc) := by
  refine lift_effect_triple hplan name fun m hm hk => ?_
  obtain ⟨a, m', hok, hq, hkept⟩ := hact m hm
  refine ⟨a, m', hok, hq, ?_⟩
  rw [hsame a]
  exact ht.tracked hk hkept

/-- A harness host call is its effect: it is always answered. -/
theorem bounded_answered {α : Type} (label : String) (m : Prog Error State α) :
    Engine.bounded label (answered m) = lift m := by
  funext r
  simp only [Engine.bounded, lift, answered, Prog.zoom, Prog.bind_run]
  generalize m r.world = o
  obtain ⟨o, s⟩ := o
  cases o <;> rfl

/-- A call without a boundary stays at its point. -/
theorem lift_interrupt_triple (hplan : plan ≠ Plan.clean → Blame) {p : Point}
    (label : String) :
    Triple (Assert plan version K Kc p) (lift (interrupt label))
      (fun _ => Assert plan version K Kc p) (CutOff plan Blame K Kc) := by
  refine Triple.zoom fun r hr => ?_
  have hcall := interrupt_triple hplan (P := fun m => m.At version p ∧ tracked K Kc p m) label
  refine (hcall r.world hr).mono (fun a s hs => hs) fun e s hs => ?_
  exact ⟨hs.1, hs.2.1.1.sound, tracked_or hs.2.1.2, hs.2.2⟩

/-- A reply that reads the world, behind a call without a boundary. -/
theorem lift_read_triple (hplan : plan ≠ Plan.clean → Blame) {α : Type} {p : Point}
    (label : String) (reply : State → α) :
    Triple (Assert plan version K Kc p)
      (lift (do
        interrupt label
        let s ← Prog.get
        pure (reply s)))
      (fun a r => Assert plan version K Kc p r ∧ a = reply r.world)
      (CutOff plan Blame K Kc) := by
  refine Triple.zoom fun r hr => ?_
  have hcall : Triple (Assert plan version K Kc p) (lift (interrupt label))
      (fun _ => Assert plan version K Kc p) (CutOff plan Blame K Kc) :=
    lift_interrupt_triple hplan label
  have h := hcall r hr
  simp only [lift, Prog.zoom] at h
  rw [Prog.bind_run]
  generalize interrupt label r.world = o at h
  obtain ⟨o, s⟩ := o
  cases o with
  | ok u => exact ⟨h, rfl⟩
  | err e => exact h
  | crash => exact h

/-- Journaling an intent appends one entry with it. -/
theorem journal_triple (hplan : plan ≠ Plan.clean → Blame) {p q : Point} {verdict : Verdict}
    (intent : Phase) (detail : Detail)
    (hact : ∀ m entry, entry.intent = intent → entry.validate = .ok () → m.At version p → tracked K Kc p m →
      ({ m with journal := m.journal ++ [entry] } : Model).At version q ∧
        tracked K Kc q { m with journal := m.journal ++ [entry] }) :
    Triple (Assert plan version K Kc p) ((engine verdict).journal intent detail)
      (fun _ => Assert plan version K Kc q) (CutOff plan Blame K Kc) := by
  unfold Engine.journal
  refine Triple.of_forall fun r hr => ?_
  refine Triple.bind (R := fun t u => t = r ∧ u = r) (Triple.get fun t ht => ⟨ht, ht⟩) fun t => ?_
  refine Triple.bind (R := fun _ => Assert plan version K Kc q) ?_ fun _ =>
    Triple.modify fun u hu => hu
  refine Triple.pre (P := Assert plan version K Kc p) ?_ fun u hu => by
    rw [hu.2]
    exact hr
  exact lift_effect_triple hplan "journal" fun m hm hk =>
    ⟨(), _, rfl, hact m (Engine.entryOf t.seq ((engine verdict).now t.world) intent detail) rfl
      (by simp [JournalEntry.validate, Engine.entryOf]) hm hk⟩

end Obligations

/-! ## from point to point -/

namespace Model

/-- The last intent is in the journal. -/
theorem mem_intents_of_lastIntent {journal : List JournalEntry} {p : Phase}
    (h : lastIntent journal = some p) : p ∈ journal.map (·.intent) := by
  unfold lastIntent at h
  obtain ⟨e, he, rfl⟩ := Option.map_eq_some_iff.mp h
  exact List.mem_map_of_mem (List.mem_of_getLast? he)

/-- A longer journal still precedes the observed phase. -/
theorem Base.append {m : Model} (h : m.Base) {entry : JournalEntry}
    (hvalid : entry.validate = .ok ()) :
    ({ m with journal := m.journal ++ [entry] } : Model).Base where
  stable := h.stable
  journaled := by
    rcases h.journaled with hi | hm
    · exact .inl hi
    · right
      rw [List.map_append]
      exact List.mem_append_left _ hm
  noExperiment := h.noExperiment
  workload := h.workload
  valid := by
    intro e he
    rcases List.mem_append.mp he with he | he
    · exact h.valid e he
    · rw [List.mem_singleton] at he
      exact he ▸ hvalid

/-- Journaling any intent but the promoted one keeps the committed version,
provided no earlier promotion is still to be published. -/
theorem Kept.append {m : Model} {entry : JournalEntry} (he : entry.intent ≠ .promoted)
    (hm : m.committed = m.stable) : Kept m { m with journal := m.journal ++ [entry] } := by
  refine ⟨[entry], rfl, ?_, ?_⟩
  · intro e h
    rw [List.mem_singleton] at h
    exact h ▸ he
  · rw [hm]
    apply committed_of_tail_ne
    simpa using he

/-- Outside a committed transaction, whatever leaves journal and stable slot alone
keeps the committed version. -/
theorem Kept.of_stable {m m' : Model} (hj : m'.journal = m.journal) (hs : m'.stable = m.stable)
    (ht : lastIntent m.journal ≠ some .promoted) : Kept m m' := by
  refine Kept.of_eq hj ?_
  rw [committed_of_tail_ne ht, committed_of_tail_ne (hj ▸ ht), hs]

end Model

/-! ## the acts between the points -/

section Acts

variable {version : String} {m : Model}

/-- Staging. -/
theorem stageAct_at {prior : Option Evidence} (h : m.At version (.staged prior)) :
    ∃ a m', stageAct version .none m = .ok (a, m') ∧ m'.At version (.prepared prior) ∧
      Model.Kept m m' := by
  obtain ⟨hb, ht, hp, p, hl, hslot, hv⟩ := h
  refine ⟨(), _, rfl, ⟨⟨hb.stable, ?_, ?_, hb.workload, hb.valid⟩, ht, hp, ⟨p, hl, hslot, hv⟩, rfl⟩,
    Model.Kept.of_stable rfl rfl (by simp [ht])⟩
  · exact .inr (Model.mem_intents_of_lastIntent ht)
  · rintro (h | h) <;> cases h

/-- Parking the service. -/
theorem quiesceAct_at {prior : Option Evidence} (h : m.At version (.handing prior)) :
    ∃ a m', quiesceAct .none m = .ok (a, m') ∧ m'.At version (.quiesced prior) ∧
      Model.Kept m m' := by
  obtain ⟨hb, ht, hx, hl⟩ := h
  refine ⟨(), _, rfl, ⟨⟨hb.stable, ?_, ?_, hb.workload, hb.valid⟩, ht, hx, hl⟩,
    Model.Kept.of_stable rfl rfl (by simp [ht])⟩
  · exact .inr (Model.mem_intents_of_lastIntent ht)
  · rintro (h | h) <;> cases h

/-- Stopping leaves everything but the live process. -/
theorem Model.Base.stop (h : m.Base) : ({ m with live := [] } : Model).Base :=
  ⟨h.stable, h.journaled, h.noExperiment, h.workload, h.valid⟩

/-- Stopping the stable process. -/
theorem stopAct_at {prior : Option Evidence} (h : m.At version (.quiesced prior)) :
    ∃ a m', stopAct .none m = .ok (a, m') ∧ m'.At version (.stopped prior) ∧ Model.Kept m m' := by
  obtain ⟨hb, ht, hx, -⟩ := h
  exact ⟨(), _, rfl, ⟨hb.stop, ht, hx, rfl⟩, Model.Kept.of_stable rfl rfl (by simp [ht])⟩

/-- Stopping what runs in a rollback. -/
theorem stopAct_rolling (h : m.At version .rolling) :
    ∃ a m', stopAct .none m = .ok (a, m') ∧ m'.At version .rollStopped ∧ Model.Kept m m' := by
  obtain ⟨hb, ht, -⟩ := h
  exact ⟨(), _, rfl, ⟨hb.stop, ht, rfl⟩, Model.Kept.of_stable rfl rfl (by simp [ht])⟩

/-- Starting a slot while nothing runs adds one process that runs it. -/
theorem startAct_of_stopped {slot : Slot} {v : String} (hstop : m.Stopped)
    (hv : m.snapshot.slots.get slot = some v) :
    startAct slot .none m = .ok ((), { m with
      incarnation := m.incarnation + 1
      live := [{ slot, version := v, pid := m.incarnation + 1,
                 startId := s!"boot-{m.incarnation + 1}" }] }) := by
  have hl : m.live = [] := hstop
  simp [startAct, hl, hv]

/-- Starting the experiment. -/
theorem startAct_at {prior : Option Evidence} (h : m.At version (.stopped prior)) :
    ∃ a m', startAct .experiment .none m = .ok (a, m') ∧ m'.At version (.started prior) ∧
      Model.Kept m m' := by
  obtain ⟨hb, ht, hx, hstop⟩ := h
  refine ⟨(), _, startAct_of_stopped hstop hx, ⟨⟨hb.stable, hb.journaled, hb.noExperiment,
    hb.workload, hb.valid⟩, ht, hx, ⟨_, rfl, rfl, hx⟩⟩, Model.Kept.of_stable rfl rfl (by simp [ht])⟩

/-- Starting the stable version again. -/
theorem startAct_rollStopped (h : m.At version .rollStopped) :
    ∃ a m', startAct .stable .none m = .ok (a, m') ∧ m'.At version .rollStarted ∧
      Model.Kept m m' := by
  obtain ⟨hb, ht, hstop⟩ := h
  obtain ⟨v, hv⟩ := Option.ne_none_iff_exists'.mp hb.stable
  refine ⟨(), _, startAct_of_stopped hstop hv, ⟨⟨hb.stable, hb.journaled, hb.noExperiment,
    hb.workload, hb.valid⟩, ht, ⟨_, rfl, rfl, hv⟩⟩, Model.Kept.of_stable rfl rfl (by simp [ht])⟩

/-- A live process answers the probe. -/
theorem probeAct_of_live {p : LiveProcess} (hl : m.live = [p]) :
    probeAct .none m = .ok ({ version := p.version, pid := p.pid, startId := p.startId }, m) := by
  simp [probeAct, hl]

/-- Probing what runs before. -/
theorem probeAct_at {stable : String} (h : m.At version (.surveyed stable)) :
    ∃ a m', probeAct .none m = .ok (a, m') ∧ m'.At version (.probed stable (some a)) ∧
      Model.Kept m m' := by
  obtain ⟨p, hl, hslot, hv⟩ := h.1.serving
  exact ⟨_, m, probeAct_of_live hl, h, Model.Kept.refl m⟩

/-- Probing what was started. -/
theorem probeAct_running {prior : Option Evidence} (h : m.At version (.running prior)) :
    ∃ a m', probeAct .none m = .ok (a, m') ∧ m'.At version (.live prior a) ∧ Model.Kept m m' := by
  obtain ⟨p, hl, hslot, hv⟩ := h.2.2.2
  exact ⟨_, m, probeAct_of_live hl, h, Model.Kept.refl m⟩

/-- Publishing moves the candidate, and the process that runs it, to the stable
slot; done already, it changes nothing but the observed phase. -/
theorem promoteAct_at (h : m.At version .committed) :
    ∃ a m', promoteAct .none m = .ok (a, m') ∧ m'.At version .published ∧ Model.Kept m m' := by
  obtain ⟨hb, ht, hlive⟩ := h
  have hphase : Phase.promoted ∈ m.journal.map (·.intent) := Model.mem_intents_of_lastIntent ht
  rcases hlive with ⟨p, hl, hslot, hx⟩ | ⟨hx, p, hl, hslot, hv⟩
  · refine ⟨(), _, rfl, ⟨⟨by simp [hx], .inr hphase, fun _ => rfl, hb.workload, hb.valid⟩, ht, rfl, ?_⟩, ?_⟩
    · exact ⟨{ p with slot := .stable }, by simp [hl], rfl, by simp [hx]⟩
    · refine Model.Kept.of_eq rfl ?_
      simp [Model.committed, ht, hx]
  · refine ⟨(), _, rfl, ⟨⟨by simp [hx, hb.stable], .inr hphase, fun _ => rfl, hb.workload, hb.valid⟩, ht,
      rfl, ?_⟩, ?_⟩
    · exact ⟨{ p with slot := .stable }, by simp [hl], rfl, by simp [hx, hv]⟩
    · refine Model.Kept.of_eq rfl ?_
      simp [Model.committed, ht, hx]

/-- Resuming after a promotion. -/
theorem resumeAct_published (h : m.At version .published) :
    ∃ a m', resumeAct .none m = .ok (a, m') ∧ m'.At version (.rest (some .promoted)) ∧
      Model.Kept m m' := by
  obtain ⟨hb, ht, hx, hl⟩ := h
  refine ⟨(), _, rfl, ⟨⟨hb.stable, hb.journaled, hb.noExperiment, hb.workload, hb.valid⟩, ?_, hx, rfl, hl⟩,
    Model.Kept.of_eq rfl (by simp [Model.committed])⟩
  intro p hp
  have : some p = some Phase.promoted := hp.symm.trans ht
  cases this
  rfl

/-- Resuming after a rollback. -/
theorem resumeAct_rollStarted (h : m.At version .rollStarted) :
    ∃ a m', resumeAct .none m = .ok (a, m') ∧ m'.At version .restored ∧ Model.Kept m m' := by
  obtain ⟨hb, ht, hl⟩ := h
  exact ⟨(), _, rfl, ⟨⟨hb.stable, hb.journaled, hb.noExperiment, hb.workload, hb.valid⟩, ht, rfl, hl⟩,
    Model.Kept.of_stable rfl rfl (by simp [ht])⟩

/-- Clearing the experiment slot. -/
theorem clearAct_at (h : m.At version .restored) :
    ∃ a m', clearAct .none m = .ok (a, m') ∧ m'.At version (.rest (some .rolledBack)) ∧
      Model.Kept m m' := by
  obtain ⟨hb, ht, hp, hl⟩ := h
  refine ⟨(), _, rfl, ⟨⟨hb.stable, .inr (Model.mem_intents_of_lastIntent ht), fun _ => rfl,
    hb.workload, hb.valid⟩, ?_, rfl, hp, hl⟩, Model.Kept.of_stable rfl rfl (by simp [ht])⟩
  intro p hp
  have : some p = some Phase.rolledBack := hp.symm.trans ht
  cases this
  rfl

end Acts

/-! ## the triples of the engine -/

section Outline

variable {plan : Plan} {Blame : Prop} {version : String} {K Kc : Model → Prop}
  {verdict : Verdict}

/-- **A rollback** goes from point to point. -/
theorem rollbackOutline (hplan : plan ≠ Plan.clean → Blame) (ht : Tracks K Kc) :
    RollbackOutline (engine verdict) (Assert plan version K Kc) (CutOff plan Blame K Kc) where
  stop := by
    rw [show (engine verdict).host.stop .experiment = answered (effect "stop" stopAct) from rfl,
      bounded_answered]
    exact lift_effect_triple_of_kept hplan ht "stop" (fun m hm => stopAct_rolling hm) fun _ => rfl
  start := by
    rw [show (engine verdict).host.start .stable =
      answered (effect "start" (startAct .stable)) from rfl, bounded_answered]
    exact lift_effect_triple_of_kept hplan ht "start" (fun m hm => startAct_rollStopped hm) fun _ => rfl
  resumed := by
    rw [show (engine verdict).host.resume = answered (effect "resume" resumeAct) from rfl,
      bounded_answered]
    exact lift_effect_triple_of_kept hplan ht "resume" (fun m hm => resumeAct_rollStarted hm)
      fun _ => rfl
  clear := lift_effect_triple_of_kept hplan ht "clear" (fun m hm => clearAct_at hm) fun _ => rfl

/-- **A commit** goes from point to point. -/
theorem commitOutline (hplan : plan ≠ Plan.clean → Blame) (ht : Tracks K Kc) :
    CommitOutline (engine verdict) (Assert plan version K Kc) (CutOff plan Blame K Kc) where
  promote := lift_effect_triple_of_kept hplan ht "promote" (fun m hm => promoteAct_at hm) fun _ => rfl
  resume := by
    rw [show (engine verdict).host.resume = answered (effect "resume" resumeAct) from rfl,
      bounded_answered]
    exact lift_effect_triple_of_kept hplan ht "resume" (fun m hm => resumeAct_published hm) fun _ => rfl

/-- Journaling the next intent of an open transaction keeps the committed version,
unless it is the promoted one. -/
theorem advance_kept {m : Model} {entry : JournalEntry} {tail : Phase}
    (he : entry.intent ≠ .promoted) (ht : lastIntent m.journal = some tail)
    (hne : tail ≠ .promoted) :
    Model.Kept m { m with journal := m.journal ++ [entry] } :=
  Model.Kept.append he (Model.committed_of_tail_ne (by simp [ht, hne]))

/-- Recovery over the harness world, from every sound state. -/
theorem recoverOutline (hplan : plan ≠ Plan.clean → Blame) (ht : Tracks K K) :
    RecoverOutline (engine verdict) (Assert plan version K K) (CutOff plan Blame K K) where
  toRollbackOutline := rollbackOutline hplan ht
  toCommitOutline := commitOutline hplan ht
  read := by
    unfold Engine.readEntries
    refine Triple.bind (lift_read_triple hplan "read_journal" fun s => s.model.journal)
      fun entries => ?_
    refine Triple.of_forall fun r ⟨⟨hsane, hm, hk⟩, he⟩ => ?_
    have hvalid : validateAll entries = .ok () := by
      rw [he]
      exact (validateAll_eq_ok_iff _).mpr hm.base.valid
    rw [hvalid]
    rintro s rfl
    exact ⟨hsane, ⟨hm, by rw [he]⟩, hk⟩
  fence tail := by
    rw [show (engine verdict).host.fence = answered (interrupt "fence") from rfl,
      bounded_answered]
    exact lift_interrupt_triple hplan "fence"
  idle := by
    rintro r (⟨hsane, hm, hk⟩ | ⟨hsane, hm, hk⟩)
    · obtain ⟨hs, ht⟩ := hm
      have htail := hs.tail
      rw [ht] at htail
      exact ⟨hsane, ⟨hs.base, by simp [ht], htail.1, htail.2.1, htail.2.2⟩, hk⟩
    · obtain ⟨hs, ht⟩ := hm
      have htail := hs.tail
      rw [ht] at htail
      exact ⟨hsane, ⟨hs.base, by simp [ht, Phase.atRest], htail.1, htail.2.1, htail.2.2⟩, hk⟩
  commit := by
    rintro r ⟨hsane, ⟨hs, ht⟩, hk⟩
    have htail := hs.tail
    rw [ht] at htail
    exact ⟨hsane, ⟨hs.base, ht, htail⟩, hk⟩
  redo := by
    rintro r ⟨hsane, ⟨hs, ht⟩, hk⟩
    have htail := hs.tail
    rw [ht] at htail
    exact ⟨hsane, ⟨hs.base, ht, htail⟩, hk⟩
  withdraw reason := by
    refine journal_triple hplan _ _ fun m entry he hv hm hk => ?_
    obtain ⟨hs, htail⟩ := hm
    have hsound := hs.tail
    rw [htail] at hsound
    exact ⟨⟨hs.base.append hv, by simp [he], hsound.1, hsound.2⟩,
      ht.keep _ _ hk (advance_kept (by simp [he]) htail (by decide))⟩
  abandon tail reason hopen := by
    refine journal_triple hplan _ _ fun m entry he hv hm hk => ?_
    obtain ⟨hs, htail⟩ := hm
    have hne : tail ≠ .promoted := by rcases hopen with rfl | rfl | rfl <;> decide
    exact ⟨⟨hs.base.append hv, by simp [he], hs.tail.live⟩,
      ht.keep _ _ hk (advance_kept (by simp [he]) htail hne)⟩

/-- Following a machine keeps both tracked facts of an upgrade. -/
theorem tracks_kept (m₀ : Model) (version : String) :
    Tracks (Model.Kept m₀) (Model.Decided version m₀) where
  keep _ _ h hk := h.trans hk
  keepCommitted _ _ h hk := h.trans hk

theorem tracks_kept_self (m₀ : Model) : Tracks (Model.Kept m₀) (Model.Kept m₀) where
  keep _ _ h hk := h.trans hk
  keepCommitted _ _ h hk := h.trans hk

/-- The promoted intent moves the committed version to the candidate's. -/
theorem decided_of_promoted {m₀ m : Model} {entry : JournalEntry}
    (he : entry.intent = .promoted) (hk : Model.Kept m₀ m) (hx : m.experiment = some version) :
    Model.Decided version m₀ { m with journal := m.journal ++ [entry] } := by
  obtain ⟨t, hj, -, -⟩ := hk
  refine ⟨t ++ [entry], by simp [hj], ⟨entry, by simp, he⟩, ?_⟩
  simp [Model.committed, he, hx]

/-- The verdict leaves the machine alone, whatever it is. -/
theorem evaluate_triple {p : Point} {q : Option String → Point} {evidence : Evidence}
    (hq : ∀ v m, m.At version p → tracked K Kc p m → m.At version (q v) ∧ tracked K Kc (q v) m) :
    Triple (Assert plan version K Kc p)
      (Engine.bounded "readback" ((engine verdict).predicates.evaluate evidence version))
      (fun v => Assert plan version K Kc (q v)) (CutOff plan True K Kc) := by
  rintro r ⟨hsane, hm, hk⟩
  have hcut : CutOff plan True K Kc none r := Assert.cutOff ⟨hsane, hm, hk⟩ trivial
  simp only [Engine.bounded, lift, Prog.zoom, Prog.bind_run, engine, predicates]
  cases verdict r.world.boundary evidence version with
  | ok reply =>
      cases reply with
      | some v => exact ⟨hsane, hq v _ hm hk⟩
      | none => exact hcut
  | err e => exact hcut
  | crash => exact hcut

/-- A probe that answers leads on; one that fails definitely is at the point where
nothing answered. -/
theorem probe_triple {p : Point} {q : Evidence → Point} {failed : Point}
    (hq : ∀ m, m.At version p → ∃ a m', probeAct .none m = .ok (a, m') ∧ m'.At version (q a) ∧
      Model.Kept m m')
    (ht : Tracks K Kc) (hsame : ∀ a, tracked K Kc (q a) = tracked K Kc p)
    (hfailed : ∀ r, Assert plan version K Kc p r → Assert plan version K Kc failed r)
    (hfailed' : ∀ a r, Assert plan version K Kc (q a) r → Assert plan version K Kc failed r) :
    Triple (Assert plan version K Kc p)
      (Engine.bounded "probe" (engine verdict).host.probe)
      (fun a => Assert plan version K Kc (q a))
      (probeFailed (Assert plan version K Kc failed) (CutOff plan True K Kc)) := by
  rw [show (engine verdict).host.probe = answered (effect "probe" probeAct) from rfl,
    bounded_answered]
  have hplan : plan ≠ Plan.clean → True := fun _ => trivial
  refine (lift_effect_ends hplan (q := q) "probe"
    fun m hm hk => ?_).conseq (fun _ h => h) (fun _ _ h => h) fun err r hr => ?_
  · obtain ⟨a, m', hok, ha, hkept⟩ := hq m hm
    exact ⟨a, m', hok, ha, by rw [hsame a]; exact ht.tracked hk hkept⟩
  · have hf : Assert plan version K Kc failed r := by
      rcases hr.1 with h | ⟨a, h⟩
      · exact hfailed r h
      · exact hfailed' a r h
    have hcut : CutOff plan True K Kc err r := hf.cutOff trivial
    cases err with
    | none => exact hcut
    | some e =>
        by_cases hu : e.isUncertain
        · simpa [probeFailed, hu] using hcut
        · simpa [probeFailed, hu] using hf

/-- An upgrade over the harness world, from a settled machine `m₀`. -/
theorem upgradeOutline (plan : Plan) (verdict : Verdict) (m₀ : Model) (version : String)
    (bytes : Path) :
    UpgradeOutline (engine verdict) version bytes
      (Assert plan version (Model.Kept m₀) (Model.Decided version m₀))
      (CutOff plan True (Model.Kept m₀) (Model.Decided version m₀)) := by
  have ht := tracks_kept m₀ version
  have hplan : plan ≠ Plan.clean → True := fun _ => trivial
  have next : ∀ {p q : Point} {m : Model} {tail : Phase} (intent : Phase) (entry : JournalEntry),
      entry.intent = intent → intent ≠ .promoted → lastIntent m.journal = some tail →
      tail ≠ .promoted → tracked (Model.Kept m₀) (Model.Decided version m₀) p m →
      tracked (Model.Kept m₀) (Model.Decided version m₀) p =
        tracked (Model.Kept m₀) (Model.Decided version m₀) q →
      tracked (Model.Kept m₀) (Model.Decided version m₀) q
        { m with journal := m.journal ++ [entry] } := by
    intro p q m tail intent entry he hne htail hntail hk hsame
    rw [← hsame]
    exact ht.tracked hk (advance_kept (by simp [he, hne]) htail hntail)
  refine
    { toRollbackOutline := rollbackOutline hplan ht
      toCommitOutline := commitOutline hplan ht
      survey := ?_, probe := ?_, journalStaged := ?_, stage := ?_, journalHandingOver := ?_,
      quiesce := ?_, stopStable := ?_, startExperiment := ?_, journalRunning := ?_,
      probeLive := ?_, journalReadback := ?_, replaced := ?_, evaluate := ?_,
      journalPromoted := ?_, silent := ?_, refused := ?_ }
  · refine (lift_read_triple hplan "versions" fun s =>
      [("stable", s.model.stable), ("experiment", s.model.experiment)]).post
      fun versions r ⟨⟨hsane, hm, hk⟩, hv⟩ => ?_
    obtain ⟨p, -, -, hp⟩ := hm.serving
    rw [hv]
    simp only [stableOf, hp, List.lookup_cons, BEq.rfl, Option.join_some]
    exact ⟨hsane, ⟨hm, hp⟩, hk⟩
  · intro stable _
    exact probe_triple (fun m hm => probeAct_at hm) ht (fun _ => rfl) (fun r h => h)
      fun _ r h => h
  · intro stable prior _
    refine journal_triple hplan _ _ fun m entry he hv hm hk => ?_
    obtain ⟨hs, -⟩ := hm
    exact ⟨⟨hs.base.append hv, by simp [he], hs.parked, hs.serving⟩,
      ht.keep _ _ hk (Model.Kept.append (by simp [he])
        (Model.committed_of_experiment_none hs.experiment))⟩
  · intro prior
    exact lift_effect_triple_of_kept hplan ht "stage" (fun m hm => stageAct_at hm) fun _ => rfl
  · intro prior
    refine journal_triple hplan _ _ fun m entry he hv hm hk => ?_
    obtain ⟨hb, htail, -, hl, hx⟩ := hm
    exact ⟨⟨hb.append hv, by simp [he], hx, hl⟩, next _ _ he (by decide) htail (by decide) hk rfl⟩
  · intro prior
    rw [show (engine verdict).host.quiesce = answered (effect "quiesce" quiesceAct) from rfl,
      bounded_answered]
    exact lift_effect_triple_of_kept hplan ht "quiesce" (fun m hm => quiesceAct_at hm)
      fun _ => rfl
  · intro prior
    rw [show (engine verdict).host.stop .stable = answered (effect "stop" stopAct) from rfl,
      bounded_answered]
    exact lift_effect_triple_of_kept hplan ht "stop" (fun m hm => stopAct_at hm) fun _ => rfl
  · intro prior
    rw [show (engine verdict).host.start .experiment =
      answered (effect "start" (startAct .experiment)) from rfl, bounded_answered]
    exact lift_effect_triple_of_kept hplan ht "start" (fun m hm => startAct_at hm) fun _ => rfl
  · intro prior
    refine journal_triple hplan _ _ fun m entry he hv hm hk => ?_
    obtain ⟨hb, htail, hx, hl⟩ := hm
    exact ⟨⟨hb.append hv, by simp [he], hx, hl⟩, next _ _ he (by decide) htail (by decide) hk rfl⟩
  · intro prior
    exact probe_triple (fun m hm => probeAct_running hm) ht (fun _ => rfl) (fun r h => h)
      fun _ r h => h
  · intro prior evidence
    refine journal_triple hplan _ _ fun m entry he hv hm hk => ?_
    obtain ⟨hb, htail, hx, hl⟩ := hm
    exact ⟨⟨hb.append hv, by simp [he], hx, hl⟩, next _ _ he (by decide) htail (by decide) hk rfl⟩
  · exact fun prior evidence r _ hr => hr
  · intro prior evidence
    refine (evaluate_triple
      (q := fun v => v.elim (.accepted prior evidence) fun _ => .readback prior evidence)
      fun v m hm hk => ?_).post fun v r hr => ?_
    · cases v <;> exact ⟨hm, hk⟩
    · cases v <;> exact hr
  · intro prior evidence
    refine journal_triple hplan _ _ fun m entry he hv hm hk => ?_
    obtain ⟨hb, htail, hx, hl⟩ := hm
    exact ⟨⟨hb.append hv, by simp [he], .inl hl⟩, decided_of_promoted he hk hx⟩
  · intro prior reason
    refine journal_triple hplan _ _ fun m entry he hv hm hk => ?_
    obtain ⟨hb, htail, hx, hl⟩ := hm
    exact ⟨⟨hb.append hv, by simp [he], .inr (.inr hl)⟩,
      next _ _ he (by decide) htail (by decide) hk rfl⟩
  · intro prior evidence reason
    refine journal_triple hplan _ _ fun m entry he hv hm hk => ?_
    obtain ⟨hb, htail, hx, hl⟩ := hm
    exact ⟨⟨hb.append hv, by simp [he], .inr (.inr hl)⟩,
      next _ _ he (by decide) htail (by decide) hk rfl⟩

end Outline

end FakeHost

end KCarrier
