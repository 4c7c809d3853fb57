import KCarrier.Harness
import KCarrier.Engine.Outline

/-!
# KCarrier.Harness.Sound

The states of the harness world that an engine can be cut off in.

`Model.Sound` is the crash invariant: what the last durable intent says about the
slots, the parked flag and the live process.  It is the disjunction, over the
points of the proof outline, of the assertion `Model.At` at each point
(`Model.At.sound`), and every sound state is safe for the built-in invariants
(`Model.Sound.safe`).

`Model.committed` is the version the stable slot has once recovery is through:
the only thing that moves it is the promoted intent.
-/

namespace KCarrier

open Crash

namespace FakeHost

namespace Model

/-! ## the live process -/

/-- The one live process runs the stable slot. -/
def Serving (m : Model) : Prop :=
  ∃ p, m.live = [p] ∧ p.slot = .stable ∧ m.stable = some p.version

/-- The one live process runs the experiment slot. -/
def Trying (m : Model) : Prop :=
  ∃ p, m.live = [p] ∧ p.slot = .experiment ∧ m.experiment = some p.version

/-- Nothing runs. -/
def Stopped (m : Model) : Prop := m.live = []

/-! ## the crash invariant -/

/-- What holds in every state, whatever the journal says. -/
structure Base (m : Model) : Prop where
  stable : m.stable ≠ none
  journaled : m.phase = .idle ∨ m.phase ∈ m.journal.map (·.intent)
  noExperiment : m.phase = .promoted ∨ m.phase = .rolledBack → m.experiment = none
  workload : m.workload = "synthetic-workload"
  valid : ∀ e ∈ m.journal, e.validate = .ok ()

/-- What the last durable intent says about slots, parked flag and live process. -/
def TailSound (m : Model) : Option Phase → Prop
  | none | some .idle => m.experiment = none ∧ m.parked = false ∧ m.Serving
  | some .staged => m.parked = false ∧ m.Serving
  | some .handingOver => m.experiment ≠ none ∧ (m.Serving ∨ m.Stopped ∨ m.Trying)
  | some .runningExperiment | some .readback => m.Trying
  | some .promoted => m.Trying ∨ m.experiment = none ∧ m.Serving
  | some .rolledBack => m.Serving ∨ m.Stopped ∨ m.Trying

/-- The crash invariant. -/
structure Sound (m : Model) : Prop where
  base : m.Base
  tail : m.TailSound (lastIntent m.journal)

/-- No transaction is open and the stable service runs. -/
structure Settled (m : Model) : Prop where
  base : m.Base
  atRest : ∀ p, lastIntent m.journal = some p → p.atRest = true
  experiment : m.experiment = none
  parked : m.parked = false
  serving : m.Serving

theorem Settled.sound {m : Model} (h : m.Settled) : m.Sound := by
  refine ⟨h.base, ?_⟩
  cases ht : lastIntent m.journal with
  | none => exact ⟨h.experiment, h.parked, h.serving⟩
  | some p =>
      have hp := h.atRest p ht
      cases p with
      | idle => exact ⟨h.experiment, h.parked, h.serving⟩
      | promoted => exact .inr ⟨h.experiment, h.serving⟩
      | rolledBack => exact .inl h.serving
      | staged => cases hp
      | handingOver => cases hp
      | runningExperiment => cases hp
      | readback => cases hp

/-- Whatever the tail, at most one process is live, and it runs its slot. -/
theorem TailSound.live {m : Model} {tail : Option Phase} (h : m.TailSound tail) :
    m.Serving ∨ m.Stopped ∨ m.Trying := by
  match tail, h with
  | none, h => exact .inl h.2.2
  | some .idle, h => exact .inl h.2.2
  | some .staged, h => exact .inl h.2
  | some .handingOver, h => exact h.2
  | some .runningExperiment, h => exact .inr (.inr h)
  | some .readback, h => exact .inr (.inr h)
  | some .promoted, .inl h => exact .inr (.inr h)
  | some .promoted, .inr h => exact .inl h.2
  | some .rolledBack, h => exact h

/-- **Every sound state is safe.** -/
theorem Sound.safe {m : Model} (h : m.Sound) : Safe m.snapshot where
  neverDualRun := by
    show m.live.length ≤ 1
    rcases h.tail.live with ⟨p, hp, -⟩ | hp | ⟨p, hp, -⟩
    · simp [hp]
    · have : m.live = [] := hp
      simp [this]
    · simp [hp]
  neverBricked := .inl h.base.stable
  matchesSlot := by
    intro p hp v hv
    have hp : p ∈ m.live := hp
    rcases h.tail.live with ⟨q, hq, hslot, hver⟩ | hq | ⟨q, hq, hslot, hver⟩
    · rw [hq, List.mem_singleton] at hp
      subst hp
      simpa [snapshot, Slots.get, hslot, hver] using hv.symm
    · have : m.live = [] := hq
      rw [this] at hp
      cases hp
    · rw [hq, List.mem_singleton] at hp
      subst hp
      simpa [snapshot, Slots.get, hslot, hver] using hv.symm
  journaled := h.base.journaled
  noExperiment := h.base.noExperiment
  selfOwned := by
    intro ho
    cases ho

/-! ## the committed version -/

/-- The version recovery leaves in the stable slot: the candidate once its
promoted intent is durable, else what the slot holds. -/
def committed (m : Model) : Option String :=
  if lastIntent m.journal = some .promoted then
    match m.experiment with
    | some v => some v
    | none => m.stable
  else
    m.stable

/-- Without an experiment the stable slot is committed. -/
theorem committed_of_experiment_none {m : Model} (h : m.experiment = none) :
    m.committed = m.stable := by
  simp [committed, h]

/-- Nothing is committed before the last line says so. -/
theorem committed_of_tail_ne {m : Model} (h : lastIntent m.journal ≠ some .promoted) :
    m.committed = m.stable := by
  simp [committed, h]

/-- `m` follows `m₀` without a promoted intent in between: the committed version
is the same. -/
def Kept (m₀ m : Model) : Prop :=
  ∃ t, m.journal = m₀.journal ++ t ∧ (∀ e ∈ t, e.intent ≠ .promoted) ∧ m.committed = m₀.committed

/-- `m` follows `m₀` with the promoted intent of `version` in between. -/
def Decided (version : String) (m₀ m : Model) : Prop :=
  ∃ t, m.journal = m₀.journal ++ t ∧ (∃ e ∈ t, e.intent = .promoted) ∧ m.committed = some version

theorem Kept.refl (m : Model) : Kept m m := ⟨[], by simp⟩

theorem Kept.trans {a b c : Model} (hab : Kept a b) (hbc : Kept b c) : Kept a c := by
  obtain ⟨t, hj, ht, hc⟩ := hab
  obtain ⟨t', hj', ht', hc'⟩ := hbc
  refine ⟨t ++ t', by rw [hj', hj, List.append_assoc], ?_, hc'.trans hc⟩
  intro e he
  rcases List.mem_append.mp he with h | h
  · exact ht e h
  · exact ht' e h

theorem Decided.trans {version : String} {a b c : Model} (hab : Decided version a b)
    (hbc : Kept b c) : Decided version a c := by
  obtain ⟨t, hj, ⟨e, he, hp⟩, hc⟩ := hab
  obtain ⟨t', hj', -, hc'⟩ := hbc
  exact ⟨t ++ t', by rw [hj', hj, List.append_assoc], ⟨e, List.mem_append_left _ he, hp⟩,
    hc'.trans hc⟩

/-- An effect that leaves journal and committed version alone keeps. -/
theorem Kept.of_eq {m m' : Model} (hj : m'.journal = m.journal)
    (hc : m'.committed = m.committed) : Kept m m' :=
  ⟨[], by simp [hj], by simp, hc⟩

end Model

end FakeHost

end KCarrier
