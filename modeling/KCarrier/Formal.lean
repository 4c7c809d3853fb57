import KCarrier.State

/-!
# KCarrier.Formal

The protocol model the repository publishes (`formal/Protocol.lean`), over the phases of
the state layout.

A machine is two slots, at most one process started from each, and the intents that were
journaled.  `Step` has one constructor for each intent and one for each effect on a slot or
on a process; a crash is not a step, so every state of an interrupted run is a state of an
uninterrupted one.  `protocol_guarantees` holds of every machine that is reachable.
-/

namespace KCarrier

/-- A transaction is open and nothing was decided about it. -/
def Phase.inFlight : Phase → Bool
  | .staged | .handingOver | .runningExperiment | .readback => true
  | _ => false

/-- What is in flight for the protocol is what is not at rest for the engine. -/
theorem Phase.inFlight_eq_not_atRest (p : Phase) : p.inFlight = !p.atRest := by
  cases p <;> rfl

namespace Formal

structure Machine where
  phase : Phase
  /-- the stable slot holds usable bytes -/
  stableOk : Bool
  /-- the experiment slot is populated -/
  hasExp : Bool
  /-- an incarnation started from the stable slot is running -/
  liveStable : Bool
  /-- an incarnation started from the experiment slot is running -/
  liveExp : Bool
  journal : List Phase
deriving DecidableEq, Repr

def init : Machine where
  phase := .idle
  stableOk := true
  hasExp := false
  liveStable := true
  liveExp := false
  journal := []

/-- Journal an intent.  The phase changes only through the journal. -/
def Machine.intent (m : Machine) (p : Phase) : Machine :=
  { m with phase := p, journal := m.journal ++ [p] }

/-- What the publication of the candidate makes of a machine: its process is the stable one
from there on. -/
def Machine.promoted (m : Machine) : Machine :=
  { m with
    stableOk := true
    hasExp := false
    liveStable := m.liveStable || m.liveExp
    liveExp := false }

inductive Step : Machine → Machine → Prop
  -- idle or closed to staged: verified bytes go into the experiment slot
  | stage (m : Machine) (h : m.phase.atRest = true) (hx : m.hasExp = false) :
      Step m (m.intent .staged)
  | stageEffect (m : Machine) (h : m.phase = .staged) : Step m { m with hasExp := true }
  -- staged to handing-over: quiesce, stop stable, start experiment
  | handover (m : Machine) (h : m.phase = .staged) (hx : m.hasExp = true) :
      Step m (m.intent .handingOver)
  | stopStable (m : Machine) (h : m.phase = .handingOver) : Step m { m with liveStable := false }
  | startExp (m : Machine) (h : m.phase = .handingOver) (hs : m.liveStable = false) :
      Step m { m with liveExp := true }
  -- handing-over to running-experiment to readback: probe, evaluate predicates
  | probe (m : Machine) (h : m.phase = .handingOver) : Step m (m.intent .runningExperiment)
  | evaluate (m : Machine) (h : m.phase = .runningExperiment) : Step m (m.intent .readback)
  -- readback to promoted: a live candidate passed, and becomes stable
  | promote (m : Machine) (h : m.phase = .readback) (hl : m.liveExp = true) :
      Step m (m.intent .promoted)
  | promoteEffect (m : Machine) (h : m.phase = .promoted) : Step m m.promoted
  -- the refusals of the engine and its recovery roll back from any phase in flight
  | rollback (m : Machine) (h : m.phase.inFlight = true) : Step m (m.intent .rolledBack)
  | stopExp (m : Machine) (h : m.phase = .rolledBack) : Step m { m with liveExp := false }
  | startStable (m : Machine) (h : m.phase = .rolledBack) (hs : m.liveExp = false) :
      Step m { m with liveStable := true }
  | clearExp (m : Machine) (h : m.phase = .rolledBack) (hs : m.liveStable = true) :
      Step m { m with hasExp := false }

inductive Reachable : Machine → Prop
  | init : Reachable init
  | step {m m' : Machine} (hm : Reachable m) (hs : Step m m') : Reachable m'

/-- The inductive invariant: the headline guarantees, and the write-ahead facts they rest
on. -/
structure Safe (m : Machine) : Prop where
  stableOk : m.stableOk = true
  single : (m.liveStable && m.liveExp) = false
  journaled : m.phase = .idle ∨ m.phase ∈ m.journal
  handed : m.liveExp = true → Phase.handingOver ∈ m.journal
  staged : m.hasExp = true → Phase.staged ∈ m.journal

/-- **Initially.** -/
theorem init_inv : Safe init where
  stableOk := rfl
  single := rfl
  journaled := .inl rfl
  handed h := by cases h
  staged h := by cases h

/-- Journaling an intent keeps what the processes and the slots are. -/
theorem Safe.intent {m : Machine} (hi : Safe m) (p : Phase) : Safe (m.intent p) where
  stableOk := hi.stableOk
  single := hi.single
  journaled := .inr (by simp [Machine.intent])
  handed h := List.mem_append_left _ (hi.handed h)
  staged h := List.mem_append_left _ (hi.staged h)

/-- A phase other than idle was journaled. -/
theorem Safe.mem_journal {m : Machine} (hi : Safe m) {p : Phase} (hp : m.phase = p)
    (hne : p ≠ .idle) : p ∈ m.journal := by
  have hj := hi.journaled
  rw [hp] at hj
  exact hj.resolve_left hne

/-- **Step.** Every step keeps what is safe. -/
theorem step_preserves (m m' : Machine) (hs : Step m m') (hi : Safe m) : Safe m' := by
  cases hs with
  | stage => exact hi.intent _
  | stageEffect h => exact { hi with staged := fun _ => hi.mem_journal h (by decide) }
  | handover => exact hi.intent _
  | stopStable => exact { hi with single := Bool.false_and _ }
  | startExp h hs =>
      exact { hi with
        single := by simp [hs]
        handed := fun _ => hi.mem_journal h (by decide) }
  | probe => exact hi.intent _
  | evaluate => exact hi.intent _
  | promote => exact hi.intent _
  | promoteEffect =>
      exact { hi with
        stableOk := rfl
        single := Bool.and_false _
        handed := fun h => (by cases h)
        staged := fun h => (by cases h) }
  | rollback => exact hi.intent _
  | stopExp =>
      exact { hi with
        single := Bool.and_false _
        handed := fun h => (by cases h) }
  | startStable h hs => exact { hi with single := by simp [hs] }
  | clearExp => exact { hi with staged := fun h => (by cases h) }

/-- **Run.** All that is reached is safe. -/
theorem reachable_inv (m : Machine) (h : Reachable m) : Safe m := by
  induction h with
  | init => exact init_inv
  | step _ hs ih => exact step_preserves _ _ hs ih

/-- The stable slot can always be started. -/
theorem never_bricked (m : Machine) (h : Reachable m) : m.stableOk = true :=
  (reachable_inv m h).stableOk

/-- Two versions are never live at once. -/
theorem never_dual_run (m : Machine) (h : Reachable m) : (m.liveStable && m.liveExp) = false :=
  (reachable_inv m h).single

/-- An effect is found with its intent. -/
theorem write_ahead (m : Machine) (h : Reachable m) :
    (m.liveExp = true → Phase.handingOver ∈ m.journal) ∧
      (m.hasExp = true → Phase.staged ∈ m.journal) :=
  ⟨(reachable_inv m h).handed, (reachable_inv m h).staged⟩

theorem protocol_guarantees (m : Machine) (h : Reachable m) :
    m.stableOk = true ∧ (m.liveStable && m.liveExp) = false ∧
      (m.liveExp = true → Phase.handingOver ∈ m.journal) ∧
      (m.hasExp = true → Phase.staged ∈ m.journal) :=
  ⟨never_bricked m h, never_dual_run m h, (write_ahead m h).1, (write_ahead m h).2⟩

end Formal

end KCarrier
