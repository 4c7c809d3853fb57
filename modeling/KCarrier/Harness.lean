import KCarrier.Engine
import KCarrier.Invariants

/-!
# KCarrier.Harness

The deterministic fault harness: one world that plays both the durable side and
the host (`FakeHost`), with a boundary before and after each of its effects.

`Model` is what the world consists of; `State` adds the instruments of the
harness.  The crash injection of the harness names one boundary (`injectCrash`);
here a plan may fault any number of boundaries, and the calls that have none, with
any error or with the death of the worker, so a run is cut off at every point the
plans reach.  `seen` is a
history variable: the snapshot at each boundary, the faulted ones included.
-/

namespace KCarrier

open Crash

inductive Mutation where
  | none
  | loseStable
  | dropJournal
  | dualRun
  | loseWorkload
  | neverResume
deriving DecidableEq, Repr

namespace FakeHost

/-- The modelled machine. -/
structure Model where
  phase : Phase
  stable : Option String
  experiment : Option String
  journal : List JournalEntry
  live : List LiveProcess
  incarnation : Nat
  parked : Bool
  workload : String
deriving DecidableEq, Repr

/-- The fault for each boundary, by its number and label. -/
abbrev Plan : Type := Nat → String → Option (Fault Error)

/-- The plan that faults no boundary. -/
def Plan.clean : Plan := fun _ _ => none

/-- The plan of `inject_crash`: one boundary answers with an uncertain error.
Boundaries are counted from 1. -/
def Plan.once (boundary : Option Nat) : Plan := fun i label =>
  if 0 < i ∧ some i = boundary then
    some (.fail (.uncertain s!"synthetic crash at {label}"))
  else
    none

structure State where
  model : Model
  boundary : Nat
  failAt : Plan
  trace : List String
  mutation : Mutation
  seen : List WorldSnapshot

/-- `FakeHost::new`: one live stable service and an empty journal. -/
def Model.init (version : String) : Model where
  phase := .idle
  stable := some version
  experiment := none
  journal := []
  live := [{ slot := .stable, pid := 1, startId := "boot-1", version := version }]
  incarnation := 1
  parked := false
  workload := "synthetic-workload"

def init (version : String) : State where
  model := Model.init version
  boundary := 0
  failAt := Plan.clean
  trace := []
  mutation := .none
  seen := []

/-- Install a fault plan and count boundaries from zero again. -/
def inject (plan : Plan) (s : State) : State := { s with boundary := 0, failAt := plan }

def injectCrash (boundary : Option Nat) (s : State) : State := inject (Plan.once boundary) s

def mutate (mutation : Mutation) (s : State) : State := { s with mutation := mutation }

def Model.snapshot (m : Model) : WorldSnapshot where
  phase := m.phase
  slots := { stable := m.stable, experiment := m.experiment }
  liveProcesses := m.live
  journalIntents := m.journal.map (·.intent)
  workloadDigest := some m.workload
  priorIncarnationStartId := none
  installOwnership := some .selfOwned

/-- One boundary: the planned fault, else the check of the built-in invariants. -/
def step (label : String) : Prog Error State Unit := fun s =>
  let s := { s with
    boundary := s.boundary + 1
    trace := s.trace ++ [label]
    seen := s.seen ++ [s.model.snapshot] }
  match s.failAt s.boundary label with
  | some fault => Prog.raise (some fault) s
  | none =>
      match checkInvariants s.model.snapshot BUILT_IN_INVARIANTS with
      | [] => (.ok (), s)
      | v :: _ => (.err (.uncertain s!"HARNESS_INVARIANT: {v.invariantId}: {v.reason}"), s)

/-- What an effect does to the machine, under the chosen mutation. -/
abbrev Act (α : Type) : Type := Mutation → Model → Except Error (α × Model)

/-- The effect `name`: a boundary, the act, a boundary. -/
def effect {α : Type} (name : String) (act : Act α) : Prog Error State α := do
  step s!"before:{name}"
  let s ← Prog.get
  let (a, m) ← Prog.ofExcept (act s.mutation s.model)
  Prog.modify fun s => { s with model := m }
  step s!"after:{name}"
  pure a

/-- A call without a boundary of its own: the worker may still fail or die there. -/
def interrupt (label : String) : Prog Error State Unit := fun s =>
  Prog.raise (s.failAt s.boundary label) s

/-! ## the acts -/

def appendAct (entry : JournalEntry) : Act Unit := fun mutation m =>
  .ok ((), if mutation ≠ .dropJournal then { m with journal := m.journal ++ [entry] } else m)

def stageAct (version : String) : Act Unit := fun mutation m =>
  let m := { m with experiment := some version, phase := .staged }
  .ok ((), if mutation = .loseStable then { m with stable := none, experiment := none } else m)

def promoteAct : Act Unit := fun _ m =>
  .ok ((), { m with
    stable := match m.experiment with
      | some v => some v
      | none => m.stable
    experiment := none
    live := m.live.map fun p => { p with slot := .stable }
    phase := .promoted })

def clearAct : Act Unit := fun _ m =>
  .ok ((), { m with experiment := none, phase := .rolledBack })

def quiesceAct : Act Unit := fun _ m => .ok ((), { m with parked := true, phase := .handingOver })

/-- `stop` ends the one service whichever slot it was started from. -/
def stopAct : Act Unit := fun mutation m =>
  .ok ((), if mutation ≠ .dualRun then { m with live := [] } else m)

def startAct (slot : Slot) : Act Unit := fun _ m =>
  if m.live.all fun p => p.slot != slot then
    match m.snapshot.slots.get slot with
    | none => .error (.invalid "missing model slot")
    | some version =>
        let pid := m.incarnation + 1
        .ok ((), { m with
          incarnation := pid
          live := m.live ++ [{ slot, version, pid, startId := s!"boot-{pid}" }] })
  else
    .ok ((), m)

def probeAct : Act Evidence := fun _ m =>
  match m.live with
  | [] => .error (.invalid "model service stopped")
  | p :: _ => .ok ({ version := p.version, pid := p.pid, startId := p.startId }, m)

def resumeAct : Act Unit := fun mutation m =>
  let m := if mutation ≠ .neverResume then { m with parked := false } else m
  .ok ((), if mutation = .loseWorkload then { m with workload := "lost" } else m)

/-! ## the two interfaces -/

def effects : Effects State where
  readJournal := do
    interrupt "read_journal"
    let s ← Prog.get
    pure s.model.journal
  append entry := effect "journal" (appendAct entry)
  versions := do
    interrupt "versions"
    let s ← Prog.get
    pure [("stable", s.model.stable), ("experiment", s.model.experiment)]
  stage version _ := effect "stage" (stageAct version)
  promote := effect "promote" promoteAct
  clear := effect "clear" clearAct

/-- A host call of the harness is always answered within its budget. -/
def answered {α : Type} (m : Prog Error State α) : Prog Error State (Option α) := do
  let a ← m
  pure (some a)

def host : Host State where
  fence := answered (interrupt "fence")
  quiesce := answered (effect "quiesce" quiesceAct)
  stop _ := answered (effect "stop" stopAct)
  start slot := answered (effect "start" (startAct slot))
  probe := answered (effect "probe" probeAct)
  resume := answered (effect "resume" resumeAct)

/-- Any verdict, by the number of the boundary it is asked at: refuse, accept,
fail, not answer in time, or die. -/
abbrev Verdict : Type := Nat → Evidence → String → Res Error (Option (Option String))

def predicates (verdict : Verdict) : Predicates State where
  evaluate evidence target := fun s => (verdict s.boundary evidence target, s)

/-- The production engine over the harness world. -/
def engine (verdict : Verdict) : Engine State where
  effects := effects
  host := host
  predicates := predicates verdict
  now _ := 1

end FakeHost

end KCarrier
