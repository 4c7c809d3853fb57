import KCarrier.Crash.Triple
import KCarrier.State

/-!
# KCarrier.Engine

The transaction engine.  It has no disk, process or clock of its own: every
effect goes through `Effects` (journal and slots), `Host` (the service) or
`Predicates` (the verdict on the candidate), so it is generic in the state `σ`
those act on.

A host call is budgeted.  It yields `none` when the budget elapses before the
reply, whatever it did to the world meanwhile, and `bounded` turns that into an
uncertain error.
-/

namespace KCarrier

open Crash

abbrev Path : Type := String

/-- A budgeted call: `none` when the budget elapsed first. -/
abbrev HostCall (σ α : Type) : Type := Prog Error σ (Option α)

/-- A call that is answered at once. -/
def HostCall.reply {σ α : Type} (a : α) : HostCall σ α := fun s => (.ok (some a), s)

/-- The durable side: the write-ahead journal and the two slots. -/
structure Effects (σ : Type) where
  readJournal : Prog Error σ (List JournalEntry)
  append : JournalEntry → Prog Error σ Unit
  versions : Prog Error σ (List (String × Option String))
  stage : String → Path → Prog Error σ Unit
  promote : Prog Error σ Unit
  clear : Prog Error σ Unit

/-- The controlled service. -/
structure Host (σ : Type) where
  fence : HostCall σ Unit
  quiesce : HostCall σ Unit
  stop : Slot → HostCall σ Unit
  start : Slot → HostCall σ Unit
  probe : HostCall σ Evidence
  resume : HostCall σ Unit

/-- The verdict on live evidence: a reason to refuse, or none. -/
structure Predicates (σ : Type) where
  evaluate : Evidence → String → HostCall σ (Option String)

/-- What `VersionPredicate` answers; `self` is the evaluating process. -/
def VersionPredicate.evaluate (self : Nat) (evidence : Evidence) (target : String) :
    Except Error (Option String) :=
  match evidence.validate self with
  | .error e => .error e
  | .ok () =>
      .ok (if evidence.version ≠ target then
        some s!"live process reports {evidence.version}, expected {target}"
      else
        none)

inductive EngineOutcome where
  | promoted (version : String)
  | rolledBack (reason : String)
  | upToDate
deriving DecidableEq, Repr

structure Engine (σ : Type) where
  effects : Effects σ
  host : Host σ
  predicates : Predicates σ
  now : σ → Nat

/-- The world together with the sequence number the running engine holds. -/
structure Running (σ : Type) where
  world : σ
  seq : Nat

namespace Running

variable {σ α : Type}

/-- A call on the world, seen from the running engine. -/
def lift (m : Prog Error σ α) : Prog Error (Running σ) α :=
  Prog.zoom Running.world (fun w r => { r with world := w }) m

theorem lift_bind {β : Type} (m : Prog Error σ α) (f : α → Prog Error σ β) :
    lift (m >>= f) = lift m >>= fun a => lift (f a) :=
  Prog.zoom_bind Running.world (fun w r => { r with world := w }) (fun _ _ => rfl)
    (fun _ _ _ => rfl) m f

def setSeq (n : Nat) : Prog Error (Running σ) Unit :=
  Prog.modify fun r => { r with seq := n }

end Running

open Running

namespace Engine

variable {σ α : Type}

/-- `Engine::new` checks the budget of a host call before there is an engine. -/
def checkBudget (budgetMs : Nat) : Except Error Unit :=
  if budgetMs = 0 ∨ budgetMs > 2147483647 then
    .error (.invalid "invalid host call budget")
  else
    .ok ()

def bounded (label : String) (call : HostCall σ α) : Prog Error (Running σ) α := do
  match ← lift call with
  | some a => pure a
  | none => Prog.throw (.uncertain s!"HOST_CALL_TIMEOUT: {label}")

/-- The entry the engine writes for an intent. -/
def entryOf (seq now : Nat) (intent : Phase) (detail : Detail) : JournalEntry where
  seq := seq
  timestampMs := now
  intent := intent
  detail := detail.insert "formatVersion" "1"

def journal (e : Engine σ) (intent : Phase) (detail : Detail) : Prog Error (Running σ) Unit := do
  let r ← Prog.get
  lift (e.effects.append (entryOf r.seq (e.now r.world) intent detail))
  setSeq (r.seq + 1)

/-- Read the journal and validate every entry, before any host effect. -/
def readEntries (e : Engine σ) : Prog Error (Running σ) (List JournalEntry) := do
  let entries ← lift e.effects.readJournal
  Prog.ofExcept (validateAll entries)
  pure entries

/-- Continue the sequence after a durably settled operation: nothing is replayed. -/
def observeSettled (e : Engine σ) : Prog Error (Running σ) Unit := do
  let entries ← e.readEntries
  match entries.getLast? with
  | some last =>
      if last.intent.atRest then
        setSeq (nextSeq entries)
      else
        Prog.throw (.invalid "SETTLED_OPERATION_HAS_UNFINISHED_JOURNAL")
  | none => setSeq (nextSeq entries)

/-- Journal the rollback, put the stable service back unless nothing was handed
over yet, and empty the experiment slot. -/
def rollback (e : Engine σ) (reason : String) (skipRestart : Bool) :
    Prog Error (Running σ) Unit := do
  e.journal .rolledBack [("reason", reason)]
  if skipRestart then
    lift e.effects.clear
  else do
    bounded "stop" (e.host.stop .experiment)
    bounded "start" (e.host.start .stable)
    bounded "resume" e.host.resume
    lift e.effects.clear

def rollbackOutcome (e : Engine σ) (reason : String) : Prog Error (Running σ) EngineOutcome := do
  e.rollback reason false
  pure (.rolledBack reason)

/-- Finish or undo whatever the last durable intent stands for. -/
def recover (e : Engine σ) : Prog Error (Running σ) Unit := do
  let entries ← e.readEntries
  setSeq (nextSeq entries)
  bounded "fence" e.host.fence
  match lastIntent entries with
  | none => pure ()
  | some .idle => pure ()
  | some .promoted => do
      lift e.effects.promote
      bounded "resume" e.host.resume
  | some .rolledBack => do
      bounded "stop" (e.host.stop .experiment)
      bounded "start" (e.host.start .stable)
      bounded "resume" e.host.resume
      lift e.effects.clear
  | some .staged => e.rollback "crash before handover" true
  | some .handingOver => e.rollback s!"crash during {Phase.handingOver.name}" false
  | some .runningExperiment => e.rollback s!"crash during {Phase.runningExperiment.name}" false
  | some .readback => e.rollback s!"crash during {Phase.readback.name}" false

/-- The detail of the intents of an upgrade to `version`. -/
def upgradeDetail (version : String) : Detail := [("version", version)]

/-- The handover intent also names the incarnation that ran before the stop. -/
def handoverDetail (version : String) (prior : Option Evidence) : Detail :=
  match prior with
  | some e => (upgradeDetail version).insert "priorStartId" e.startId
  | none => upgradeDetail version

/-- The probe before handover.  A definite failure means that nothing answered;
an uncertain one ends the upgrade. -/
def probePrior (e : Engine σ) : Prog Error (Running σ) (Option Evidence) := do
  match ← Prog.attempt (bounded "probe" e.host.probe) with
  | .ok evidence => pure (some evidence)
  | .error err => if err.isUncertain then Prog.throw err else pure none

/-- From the evidence of the started candidate to the outcome. -/
def judge (e : Engine σ) (version : String) (prior : Option Evidence) (evidence : Evidence) :
    Prog Error (Running σ) EngineOutcome := do
  e.journal .readback (upgradeDetail version)
  if prior.any fun p => p.startId == evidence.startId then
    e.rollbackOutcome "live process is still the pre-upgrade incarnation"
  else do
    match ← bounded "readback" (e.predicates.evaluate evidence version) with
    | some reason => e.rollbackOutcome s!"predicates refused: {reason}"
    | none => do
        e.journal .promoted (upgradeDetail version)
        lift e.effects.promote
        bounded "resume" e.host.resume
        pure (.promoted version)

/-- Stage the candidate, hand the service over to it and start it. -/
def handOver (e : Engine σ) (version : String) (bytes : Path) (prior : Option Evidence) :
    Prog Error (Running σ) Unit := do
  e.journal .staged (upgradeDetail version)
  lift (e.effects.stage version bytes)
  e.journal .handingOver (handoverDetail version prior)
  bounded "quiesce" e.host.quiesce
  bounded "stop" (e.host.stop .stable)
  bounded "start" (e.host.start .experiment)
  e.journal .runningExperiment (upgradeDetail version)

def upgrade (e : Engine σ) (version : String) (bytes : Path) :
    Prog Error (Running σ) EngineOutcome := do
  let versions ← lift e.effects.versions
  match (versions.lookup "stable").join with
  | none => Prog.throw (.invalid "stable slot required before upgrade")
  | some stable =>
      if stable = version then
        pure .upToDate
      else do
        let prior ← e.probePrior
        e.handOver version bytes prior
        match ← Prog.attempt (bounded "probe" e.host.probe) with
        | .ok evidence => e.judge version prior evidence
        | .error err =>
            if err.isUncertain then
              Prog.throw err
            else
              e.rollbackOutcome s!"experiment probe failed: {err.message}"

end Engine

/-! ## sessions -/

/-- What an engine is asked to do after it was opened. -/
inductive EngineCall where
  | recover
  | upgrade (version : String) (bytes : Path)
deriving DecidableEq, Repr

/-- How an engine is opened: by recovery, or on the evidence of a settled
receipt. -/
inductive Opening where
  | recover
  | observeSettled
deriving DecidableEq, Repr

namespace Engine

variable {σ : Type}

def opened (e : Engine σ) : Opening → Prog Error (Running σ) Unit
  | .recover => e.recover
  | .observeSettled => e.observeSettled

def call (e : Engine σ) : EngineCall → Prog Error (Running σ) Unit
  | .recover => e.recover
  | .upgrade version bytes => do
      let _ ← e.upgrade version bytes
      pure ()

/-- The calls of one engine, until one of them does not return. -/
def calls (e : Engine σ) : List EngineCall → Prog Error (Running σ) Unit
  | [] => pure ()
  | c :: cs => do
      e.call c
      e.calls cs

/-- The life of one engine: created with sequence number 0, opened, then used
until a call does not return; after that it is dropped and only the world is
left. -/
def session (e : Engine σ) (opening : Opening) (cs : List EngineCall) (w : σ) : σ :=
  ((e.opened opening >>= fun _ => e.calls cs) ⟨w, 0⟩).2.world

end Engine

end KCarrier
