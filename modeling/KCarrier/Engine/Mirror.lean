import KCarrier.Crash.Shows
import KCarrier.Engine

/-!
# KCarrier.Engine.Mirror

An engine seen through another.

When every call of an engine does, on a larger state, what the call of another engine does,
so do its recovery, its upgrade and its whole life.  A history variable put around the
calls of an engine is removed with `Mirrors.session`.
-/

namespace KCarrier

open Crash
open Running

variable {σ τ α : Type}

/-- Each call of `e'` does, seen through `get`, what the call of `e` does. -/
structure Engine.Mirrors (get : τ → σ) (e' : Engine τ) (e : Engine σ) : Prop where
  readJournal : Shows get e'.effects.readJournal e.effects.readJournal
  append : ∀ entry, Shows get (e'.effects.append entry) (e.effects.append entry)
  versions : Shows get e'.effects.versions e.effects.versions
  stage : ∀ version bytes,
    Shows get (e'.effects.stage version bytes) (e.effects.stage version bytes)
  promote : Shows get e'.effects.promote e.effects.promote
  clear : Shows get e'.effects.clear e.effects.clear
  fence : Shows get e'.host.fence e.host.fence
  quiesce : Shows get e'.host.quiesce e.host.quiesce
  stop : ∀ slot, Shows get (e'.host.stop slot) (e.host.stop slot)
  start : ∀ slot, Shows get (e'.host.start slot) (e.host.start slot)
  probe : Shows get e'.host.probe e.host.probe
  resume : Shows get e'.host.resume e.host.resume
  evaluate : ∀ evidence target,
    Shows get (e'.predicates.evaluate evidence target) (e.predicates.evaluate evidence target)
  now : ∀ t, e'.now t = e.now (get t)

/-- A running engine, seen through `get`. -/
def Running.through (get : τ → σ) (r : Running τ) : Running σ := ⟨get r.world, r.seq⟩

/-- Calls on the world, lifted into the engine. -/
theorem lift_shows {get : τ → σ} {m' : Prog Error τ α} {m : Prog Error σ α}
    (h : Shows get m' m) :
    Shows (Running.through get) (Running.lift m') (Running.lift m) :=
  Shows.zoom h (fun _ => rfl) fun _ _ => rfl

/-- Calls of the host, within their budget. -/
theorem bounded_shows {get : τ → σ} {label : String} {call' : HostCall τ α}
    {call : HostCall σ α} (h : Shows get call' call) :
    Shows (Running.through get) (Engine.bounded label call') (Engine.bounded label call) := by
  unfold Engine.bounded
  refine Shows.bind (lift_shows h) fun reply => ?_
  cases reply with
  | some a => exact Shows.pure a
  | none => exact Shows.throw _

namespace Engine.Mirrors

variable {get : τ → σ} {e' : Engine τ} {e : Engine σ}

/-- Counting the entries of the journal. -/
theorem setSeq (n : Nat) : Shows (Running.through get)
    (Running.setSeq n : Prog Error (Running τ) Unit) (Running.setSeq n) :=
  Shows.modify fun _ => rfl

/-- `journal`. -/
theorem journal (h : Engine.Mirrors get e' e) (intent : Phase) (detail : Detail) :
    Shows (Running.through get) (e'.journal intent detail) (e.journal intent detail) := by
  unfold Engine.journal
  refine Shows.get_bind fun r => ?_
  have hentry : Engine.entryOf r.seq (e'.now r.world) intent detail =
      Engine.entryOf r.seq (e.now (get r.world)) intent detail := by
    rw [h.now]
  rw [hentry]
  exact Shows.bind (lift_shows (h.append _)) fun _ => setSeq _

/-- `read_entries`. -/
theorem readEntries (h : Engine.Mirrors get e' e) :
    Shows (Running.through get) e'.readEntries e.readEntries := by
  unfold Engine.readEntries
  refine Shows.bind (lift_shows h.readJournal) fun entries => ?_
  exact Shows.bind (Shows.ofExcept _) fun _ => Shows.pure _

/-- Putting the stable service back. -/
theorem restart (h : Engine.Mirrors get e' e) : Shows (Running.through get)
    (do
      Engine.bounded "stop" (e'.host.stop .experiment)
      Engine.bounded "start" (e'.host.start .stable)
      Engine.bounded "resume" e'.host.resume
      lift e'.effects.clear)
    (do
      Engine.bounded "stop" (e.host.stop .experiment)
      Engine.bounded "start" (e.host.start .stable)
      Engine.bounded "resume" e.host.resume
      lift e.effects.clear) :=
  Shows.bind (bounded_shows (h.stop _)) fun _ => Shows.bind (bounded_shows (h.start _)) fun _ =>
    Shows.bind (bounded_shows h.resume) fun _ => lift_shows h.clear

/-- `rollback`, at the start of an engine or in the middle of an upgrade. -/
theorem rollback (h : Engine.Mirrors get e' e) (reason : String) (skipRestart : Bool) :
    Shows (Running.through get) (e'.rollback reason skipRestart)
      (e.rollback reason skipRestart) := by
  unfold Engine.rollback
  exact Shows.bind (h.journal _ _) fun _ => Shows.ite (lift_shows h.clear) h.restart

/-- A rollback with its reason as the outcome. -/
theorem rollbackOutcome (h : Engine.Mirrors get e' e) (reason : String) :
    Shows (Running.through get) (e'.rollbackOutcome reason) (e.rollbackOutcome reason) :=
  Shows.bind (h.rollback reason false) fun _ => Shows.pure _

/-- **Recovery** of the two engines. -/
theorem recover (h : Engine.Mirrors get e' e) :
    Shows (Running.through get) e'.recover e.recover := by
  unfold Engine.recover
  refine Shows.bind h.readEntries fun entries => ?_
  refine Shows.bind (setSeq _) fun _ => Shows.bind (bounded_shows h.fence) fun _ => ?_
  cases lastIntent entries with
  | none => exact Shows.pure _
  | some tail =>
      cases tail with
      | idle => exact Shows.pure _
      | promoted => exact Shows.bind (lift_shows h.promote) fun _ => bounded_shows h.resume
      | rolledBack => exact h.restart
      | staged => exact h.rollback _ _
      | handingOver => exact h.rollback _ _
      | runningExperiment => exact h.rollback _ _
      | readback => exact h.rollback _ _

/-- Probing what runs before a handover. -/
theorem probePrior (h : Engine.Mirrors get e' e) :
    Shows (Running.through get) e'.probePrior e.probePrior := by
  unfold Engine.probePrior
  refine Shows.bind (bounded_shows h.probe).attempt fun reply => ?_
  cases reply with
  | ok evidence => exact Shows.pure _
  | error err => exact Shows.ite (Shows.throw _) (Shows.pure _)

/-- From the staging of a version to its first intent to run it. -/
theorem handOver (h : Engine.Mirrors get e' e) (version : String) (bytes : Path)
    (prior : Option Evidence) :
    Shows (Running.through get) (e'.handOver version bytes prior)
      (e.handOver version bytes prior) := by
  unfold Engine.handOver
  refine Shows.bind (h.journal _ _) fun _ => ?_
  refine Shows.bind (lift_shows (h.stage _ _)) fun _ => ?_
  refine Shows.bind (h.journal _ _) fun _ => ?_
  refine Shows.bind (bounded_shows h.quiesce) fun _ => ?_
  refine Shows.bind (bounded_shows (h.stop _)) fun _ => ?_
  exact Shows.bind (bounded_shows (h.start _)) fun _ => h.journal _ _

/-- The verdict on what a probe reports. -/
theorem judge (h : Engine.Mirrors get e' e) (version : String) (prior : Option Evidence)
    (evidence : Evidence) :
    Shows (Running.through get) (e'.judge version prior evidence)
      (e.judge version prior evidence) := by
  unfold Engine.judge
  refine Shows.bind (h.journal _ _) fun _ => ?_
  refine Shows.ite (h.rollbackOutcome _) ?_
  refine Shows.bind (bounded_shows (h.evaluate _ _)) fun verdict => ?_
  cases verdict with
  | some reason => exact h.rollbackOutcome _
  | none =>
      refine Shows.bind (h.journal _ _) fun _ => ?_
      refine Shows.bind (lift_shows h.promote) fun _ => ?_
      exact Shows.bind (bounded_shows h.resume) fun _ => Shows.pure _

/-- **An upgrade** of the two engines. -/
theorem upgrade (h : Engine.Mirrors get e' e) (version : String) (bytes : Path) :
    Shows (Running.through get) (e'.upgrade version bytes) (e.upgrade version bytes) := by
  unfold Engine.upgrade
  refine Shows.bind (lift_shows h.versions) fun versions => ?_
  cases (versions.lookup "stable").join with
  | none => exact Shows.throw _
  | some stable =>
      refine Shows.ite (Shows.pure _) ?_
      refine Shows.bind h.probePrior fun prior => ?_
      refine Shows.bind (h.handOver _ _ _) fun _ => ?_
      refine Shows.bind (bounded_shows h.probe).attempt fun reply => ?_
      cases reply with
      | ok evidence => exact h.judge _ _ _
      | error err => exact Shows.ite (Shows.throw _) (h.rollbackOutcome _)

/-- One call of the engine. -/
theorem call (h : Engine.Mirrors get e' e) (c : EngineCall) :
    Shows (Running.through get) (e'.call c) (e.call c) := by
  cases c with
  | recover => exact h.recover
  | upgrade version bytes =>
      exact Shows.bind (h.upgrade version bytes) fun _ => Shows.pure _

/-- A run of calls. -/
theorem calls (h : Engine.Mirrors get e' e) (cs : List EngineCall) :
    Shows (Running.through get) (e'.calls cs) (e.calls cs) := by
  induction cs with
  | nil => exact Shows.pure _
  | cons c cs ih => exact Shows.bind (h.call c) fun _ => ih

/-- The life of an engine opened by recovery. -/
theorem session (h : Engine.Mirrors get e' e) (cs : List EngineCall) (t : τ) :
    get (e'.session .recover cs t) = e.session .recover cs (get t) := by
  have hrun : Shows (Running.through get) (e'.opened .recover >>= fun _ => e'.calls cs)
      (e.opened .recover >>= fun _ => e.calls cs) :=
    Shows.bind h.recover fun _ => h.calls cs
  have hstate := hrun.state ⟨t, 0⟩
  unfold Engine.session
  exact congrArg Running.world hstate

end Engine.Mirrors

end KCarrier
