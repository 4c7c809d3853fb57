import KCarrier.World
import KCarrier.Protocol

/-!
# KCarrier.Runner

The runner: it takes the upgrade lock, recovers what an earlier worker left, and
drives one upgrade, keeping the operation record in step with it.

Host, release source, hooks, downloader and surfaces are whatever the product
supplies: arbitrary programs, the host's on a state of its own that may look at the
directory, the others on the product state.
-/

namespace KCarrier

open Crash
open Running

/-! ## what the product supplies -/

structure Release where
  version : String
  url : String
  sha256 : String
  size : Nat
deriving DecidableEq, Repr

structure ReleaseContext where
  currentVersion : String
  platformKey : String
deriving DecidableEq, Repr

structure ReleaseSource (γ : Type) where
  check : ReleaseContext → Prog Error γ (Option Release)
  fetch : String → ReleaseContext → Prog Error γ Release

structure Hooks (γ : Type) where
  managedElsewhere : γ → Bool
  compatibility : String → String → Prog Error γ (Option String)
  /-- `none`: the budget elapsed during the preparation -/
  prepareCandidate : Path → Release → HostCall γ Unit
  notify : String → Detail → Prog Error γ Unit

/-- `DefaultHooks`. -/
def Hooks.default {γ : Type} : Hooks γ where
  managedElsewhere _ := false
  compatibility _ _ := pure none
  prepareCandidate _ _ := HostCall.reply ()
  notify _ _ := pure ()

inductive Policy where
  | auto
  | confirm
  | notifyOnly
deriving DecidableEq, Repr

structure OperationDescriptor where
  id : String
  startedAtMs : Nat
  provenance : Option Provenance
  metadata : Detail
deriving DecidableEq, Repr

structure UpgradeOptions where
  consented : Bool
  provenance : Option Provenance
  operation : Option OperationDescriptor
deriving DecidableEq, Repr

/-- `UpgradeOptions::default`. -/
def UpgradeOptions.none : UpgradeOptions := ⟨false, .none, .none⟩

inductive UpgradeOutcome where
  | promoted (report : ConvergenceReport)
  | rolledBack (reason : String) (report : Option ConvergenceReport)
  | held (reason : String)
  | upToDate
deriving DecidableEq, Repr

/-- A runner and the worker it runs in (`self`). -/
structure Runner (η γ : Type) where
  store : FileStore
  clock : Nat → Nat
  self : Nat
  platformKey : String
  experimentArtifact : String
  host : Disk → Host η
  source : ReleaseSource γ
  hooks : Hooks γ
  downloader : Release → Prog Error γ Bytes
  surfaces : List (ReadbackSurface γ)
  policy : Policy
  hostBudgetMs : Nat
  provenanceEnabled : Bool
  provenanceIdentity : Provenance

namespace Runner

variable {η γ α : Type}

/-- `Runner::new`, in the worker `self`. -/
def new (store : FileStore) (self : Nat) (host : Disk → Host η) (source : ReleaseSource γ)
    (downloader : Release → Prog Error γ Bytes) : Runner η γ where
  store := store
  clock n := n
  self := self
  platformKey := "linux-x64"
  experimentArtifact := "slots/experiment/artifact.bin"
  host := host
  source := source
  hooks := Hooks.default
  downloader := downloader
  surfaces := []
  policy := .auto
  hostBudgetMs := 120000
  provenanceEnabled := false
  provenanceIdentity := ⟨"local", "auto"⟩

/-! ## calls on the outside -/

/-- A call on the product. -/
def product (m : Prog Error γ α) : Prog Error (World η γ) α :=
  Prog.zoom World.product (fun p w => { w with product := p }) m

/-- A call on the release source or the downloader. -/
def ask (name : String) (m : Prog Error γ α) : Prog Error (World η γ) α := do
  FileStore.note (.call name)
  product m

/-- The call itself, on the host's own state and the directory as it is. -/
def hostRun (r : Runner η γ) (call : Host η → Prog Error η α) : Prog Error (World η γ) α := fun w =>
  let o := call (r.host w.disk) w.host
  (o.1, { w with host := o.2 })

/-- A host call; the worker may die before or after it. -/
def hostCall (r : Runner η γ) (name : String) (call : Host η → Prog Error η (Option α)) :
    Prog Error (World η γ) (Option α) := do
  r.store.boundary s!"before:{name}"
  FileStore.note (.call name)
  let reply ← r.hostRun call
  r.store.boundary s!"after:{name}"
  pure reply

def hosts (r : Runner η γ) : Host (World η γ) where
  fence := r.hostCall "fence" fun h => h.fence
  quiesce := r.hostCall "quiesce" fun h => h.quiesce
  stop slot := r.hostCall "stop" fun h => h.stop slot
  start slot := r.hostCall "start" fun h => h.start slot
  probe := r.hostCall "probe" fun h => h.probe
  resume := r.hostCall "resume" fun h => h.resume

/-! ## the engine of a call -/

/-- `Runner::convergence`: a new predicate with an empty cell. -/
def convergence (r : Runner η γ) : Prog Error (World η γ) (Convergence (World η γ)) := do
  let c ← Prog.ofExcept (Convergence.new
    (r.surfaces.map fun s => ({ id := s.id, read := product s.read } : ReadbackSurface (World η γ)))
    r.experimentArtifact fun w => r.clock w.tick)
  Prog.modify fun w => { w with observed := Observed.new }
  pure c

def engine (r : Runner η γ) (c : Convergence (World η γ)) : Engine (World η γ) where
  effects := r.store.effects
  host := r.hosts
  predicates :=
    { evaluate := fun evidence target =>
        Prog.zoom (fun w => (w, w.observed)) (fun s _ => { s.1 with observed := s.2 })
          (c.evaluate r.self evidence target) }
  now w := r.clock w.tick

/-- A new engine for the rest of a call. -/
def withEngine (m : Prog Error (Running (World η γ)) α) : Prog Error (World η γ) α :=
  Prog.zoom (fun w => ⟨w, 0⟩) (fun s _ => s.world) m

/-! ## the lock -/

def acquire (r : Runner η γ) : Prog Error (World η γ) Unit := do
  r.store.boundary "acquire"
  let w ← Prog.get
  match w.lock with
  | .free => Prog.modify fun w => { w with lock := .held r.self }
  | .held pid => Prog.throw (.locked pid)
  | .unreadable => Prog.throw (.invalid "UPGRADE_LOCK_UNREADABLE")

def unlock (r : Runner η γ) : Prog Error (World η γ) Unit := do
  r.store.boundary "release"
  Prog.modify fun w => { w with lock := .free }

/-- A failed release is tried once more when the guard is dropped. -/
def release (r : Runner η γ) : Prog Error (World η γ) Unit := do
  match ← Prog.attempt r.unlock with
  | .ok () => pure ()
  | .error e => do
      let _ ← Prog.attempt r.unlock
      Prog.throw e

/-- Run `body` under the lock.  An uncertain error keeps the lock until the worker
dies. -/
def locked (r : Runner η γ) (body : Prog Error (World η γ) α) : Prog Error (World η γ) α := do
  r.acquire
  match ← Prog.attempt body with
  | .ok a => do
      r.release
      pure a
  | .error e =>
      if e.isUncertain then
        Prog.throw e
      else do
        r.release
        Prog.throw e

/-! ## the record -/

def readRequired : Prog Error (World η γ) (Option Operation) := do
  let w ← Prog.get
  match w.disk.readOperation with
  | .genesis => pure none
  | .observed op => pure (some op)
  | .unreadable reason => Prog.throw (.invalid reason)

/-- Whether the named operation was run before: a receipt, archived or current, ends
the call. -/
def prior (r : Runner η γ) (expected : Expected) (recover : Bool) :
    Prog Error (World η γ) Unit := do
  let current ← readRequired
  let w ← Prog.get
  let prior ← match w.disk.readArchive r.store.digest expected.id with
    | .unreadable reason => Prog.throw (.invalid reason)
    | .observed op => pure (some op)
    | .genesis => pure current
  let missing : Prog Error (World η γ) Unit :=
    if recover then Prog.throw (.invalid "RECOVERY_OPERATION_NOT_FOUND") else pure ()
  match prior with
  | some op =>
      if op.id = expected.id then
        if op.targetVersion ≠ expected.targetVersion then
          Prog.throw (.invalid "OPERATION_ID_CONFLICT")
        else if op.outcome ≠ none then
          Prog.throw (.replay op)
        else
          pure ()
      else
        missing
  | none => missing

/-- What a transition makes of a record at time `now`. -/
def advance (op : Operation) (now : Nat) (phase : OperationPhase) (outcome : Option Outcome)
    (reason : Option String) : Operation :=
  { op with
    phase := phase
    updatedAtMs := now
    outcome := if outcome ≠ none then outcome else op.outcome
    reason := if reason ≠ none then reason else op.reason }

/-- Nothing is recorded for an upgrade without a descriptor. -/
def transition (r : Runner η γ) (op : Option Operation) (phase : OperationPhase)
    (outcome : Option Outcome) (reason : Option String) :
    Prog Error (World η γ) (Option Operation) :=
  match op with
  | none => pure none
  | some op => do
      let w ← Prog.get
      let op := advance op (r.clock w.tick) phase outcome reason
      r.store.persistOperation op
      pure (some op)

def transactionState : Prog Error (World η γ) TxnState :=
  FileStore.readDisk Disk.transactionState

/-- The reason `settle` records for an operation that was not promoted. -/
def settledReason (state : TxnState) : String :=
  match state with
  | .rolledBack _ (some reason) => reason
  | _ => s!"recovery settled at {state.phase.debugName} with stable {state.stable}"

/-- Give an operation without outcome the one the journal and the stable slot show. -/
def settle (r : Runner η γ) : Prog Error (World η γ) Unit := do
  match ← readRequired with
  | none => pure ()
  | some op =>
      if op.outcome ≠ none then
        pure ()
      else do
        let state ← transactionState
        if state.phase = .promoted ∧ state.stable = op.targetVersion then do
          let _ ← r.transition (some op) .promoted (some .promoted) none
          pure ()
        else if state.phase.atRest then do
          let _ ← r.transition (some op) .rolledBack (some .rolledBack)
            (some (settledReason state))
          pure ()
        else
          pure ()

/-! ## recovery -/

/-- The stable version a settled record stands for. -/
def settledVersion (op : Operation) (outcome : Outcome) : String :=
  if outcome = .promoted then op.targetVersion else op.fromVersion

/-- Recover, unless a settled record says that nothing is outstanding. -/
def recoverEngine (r : Runner η γ) (c : Convergence (World η γ)) :
    Prog Error (Running (World η γ)) Unit := do
  match (← lift readRequired).bind fun op => op.outcome.map fun outcome => (op, outcome) with
  | some (op, outcome) => do
      let state ← lift transactionState
      if !state.phase.atRest || state.stable ≠ settledVersion op outcome then
        Prog.throw (.invalid "SETTLED_OPERATION_STATE_MISMATCH")
      else
        (r.engine c).observeSettled
  | none => (r.engine c).recover

/-- What `recover` does under the lock. -/
def recoverLocked (r : Runner η γ) (expected : Option Expected) : Prog Error (World η γ) Unit := do
  let _ ← readRequired
  match expected with
  | some e => r.prior e true
  | none => pure ()
  let c ← r.convergence
  Prog.ofExcept (Engine.checkBudget r.hostBudgetMs)
  withEngine (do
    r.recoverEngine c
    lift r.settle)

def recover (r : Runner η γ) (expected : Option Expected) : Prog Error (World η γ) Unit :=
  r.locked (r.recoverLocked expected)

/-! ## the upgrade -/

/-- The record of a new operation. -/
def newOperation (desc : OperationDescriptor) (options : UpgradeOptions) (target : Option String)
    (current : String) (now : Nat) : Operation where
  formatVersion := 1
  id := desc.id
  startedAtMs := desc.startedAtMs
  updatedAtMs := now
  fromVersion := current
  targetVersion := target.getD current
  previousStableVersion := current
  phase := .checking
  outcome := none
  reason := none
  provenance := desc.provenance.or options.provenance
  metadata := desc.metadata

/-- Make room for the new record: the previous one must be settled, and is archived. -/
def retirePrevious (r : Runner η γ) (desc : OperationDescriptor) (previous : Operation) :
    Prog Error (World η γ) Unit :=
  if previous.id = desc.id ∧ previous.outcome ≠ none then
    Prog.throw (.replay previous)
  else if previous.id ≠ desc.id then
    if previous.outcome = none then
      Prog.throw (.invalid "OPERATION_IN_PROGRESS")
    else
      r.store.archive previous
  else
    pure ()

/-- Open the record of this upgrade, if it has one, on the current stable version. -/
def openOperation (r : Runner η γ) (target : Option String) (options : UpgradeOptions) :
    Prog Error (World η γ) (Option Operation × String) := do
  let previous ← readRequired
  match options.operation, previous with
  | some desc, some previous => r.retirePrevious desc previous
  | _, _ => pure ()
  let state ← transactionState
  let current := state.stable
  match options.operation with
  | none => pure (none, current)
  | some desc => do
      let w ← Prog.get
      let op := newOperation desc options target current (r.clock w.tick)
      r.store.persistOperation op
      pure (some op, current)

/-- Keep the upgrade back and say why. -/
def hold (r : Runner η γ) (operation : Option Operation) (reason kind : String) :
    Prog Error (World η γ) UpgradeOutcome := do
  let operation ← r.transition operation .held (some .held) (some reason)
  let detail : Detail := [("reason", reason)]
  let detail := match operation with
    | some op => (detail.insert "version" op.targetVersion).insert "current" op.fromVersion
    | none => detail
  product (r.hooks.notify kind detail)
  pure (.held reason)

/-- What the lookup came to: a release to install, or the end of the upgrade. -/
inductive Picked where
  | release (release : Release)
  | finished (outcome : UpgradeOutcome)
deriving DecidableEq, Repr

def lookup (r : Runner η γ) (target : Option String) (context : ReleaseContext) :
    Prog Error (World η γ) (Option Release) :=
  match target with
  | some version => do
      let release ← ask "source.fetch" (r.source.fetch version context)
      pure (some release)
  | none => ask "source.check" (r.source.check context)

/-- The gates between a release and its installation. -/
def gates (r : Runner η γ) (options : UpgradeOptions) (operation : Option Operation)
    (current : String) (release : Release) : Prog Error (World η γ) Picked := do
  let held (reason kind : String) : Prog Error (World η γ) Picked := do
    let outcome ← r.hold operation reason kind
    pure (.finished outcome)
  if !options.consented ∧ r.policy = .notifyOnly then
    held "notify-only" "held"
  else if !options.consented ∧ r.policy = .confirm then
    held "confirmation-required" "confirm-request"
  else do
    match ← product (r.hooks.compatibility current release.version) with
    | some reason => held reason "held"
    | none => pure (.release release)

def pick (r : Runner η γ) (target : Option String) (options : UpgradeOptions)
    (operation : Option Operation) (current : String) : Prog Error (World η γ) Picked := do
  match ← Prog.attempt (r.lookup target ⟨current, r.platformKey⟩) with
  | .error e =>
      if options.consented ∧ contains e.message "PINNED_VERSION_MISMATCH" then do
        let outcome ← r.hold operation "consented-version-unavailable" "held"
        pure (.finished outcome)
      else do
        let _ ← r.transition operation .failed (some .failed) (some e.message)
        Prog.throw e
  | .ok none => do
      let _ ← r.transition operation .upToDate (some .upToDate) none
      pure (.finished .upToDate)
  | .ok (some release) =>
      if target.any fun v => release.version != v then do
        let _ ← r.transition operation .failed (some .failed) (some "target-version-mismatch")
        Prog.throw (.invalid "PINNED_VERSION_MISMATCH")
      else
        r.gates options operation current release

/-- The preparation of a candidate, within the budget of a host call. -/
def prepare (r : Runner η γ) (release : Release) : Prog Error (World η γ) Unit := do
  match ← product (r.hooks.prepareCandidate incomingPath release) with
  | some () => pure ()
  | none => Prog.throw (.invalid "CANDIDATE_PREPARATION_TIMEOUT")

/-- Bring the artifact of a release in, up to the last step before the engine. -/
def bringIn (r : Runner η γ) (options : UpgradeOptions) (operation : Option Operation)
    (release : Release) : Prog Error (World η γ) (Option Operation) := do
  let operation ← r.transition operation .downloading none none
  let bytes ← ask "download" (r.downloader release)
  let operation ← r.transition operation .verifying none none
  let operation ← r.transition operation .staging none none
  r.store.write "incoming" fun disk => { disk with incoming := .content bytes }
  match ← Prog.attempt (r.prepare release) with
  | .error e => do
      let _ ← r.transition operation .failed (some .failed) (some e.message)
      Prog.throw e
  | .ok () => do
      if r.provenanceEnabled then do
        let w ← Prog.get
        r.store.appendProvenanceAt (options.provenance.getD r.provenanceIdentity) release.version
          none (r.clock w.tick)
      else
        pure ()
      r.transition operation .handingOver none none

/-- Record what the engine's upgrade came to. -/
def conclude (r : Runner η γ) (c : Convergence (World η γ)) (operation : Option Operation) :
    EngineOutcome → Prog Error (World η γ) UpgradeOutcome
  | .promoted version => do
      let w ← Prog.get
      let report := c.report version (w, w.observed)
      product (r.hooks.notify "promoted" [("version", version)])
      r.store.persistReport report
      let _ ← r.transition operation .promoted (some .promoted) none
      pure (.promoted report)
  | .rolledBack reason => do
      product (r.hooks.notify "rolled-back" [("reason", reason)])
      let _ ← r.transition operation .rolledBack (some .rolledBack) (some reason)
      pure (.rolledBack reason none)
  | .upToDate => do
      let _ ← r.transition operation .upToDate (some .upToDate) none
      pure .upToDate

/-- The upgrade of the engine, and its error in the record. -/
def carryOut (r : Runner η γ) (c : Convergence (World η γ)) (operation : Option Operation)
    (release : Release) : Prog Error (Running (World η γ)) UpgradeOutcome := do
  match ← Prog.attempt ((r.engine c).upgrade release.version incomingPath) with
  | .ok outcome => do
      lift (FileStore.note (.upgraded outcome))
      lift (r.conclude c operation outcome)
  | .error e => do
      let _ ← lift (r.transition operation .recovering none (some e.message))
      Prog.throw e

/-- From recovery to the outcome, with one engine. -/
def driveEngine (r : Runner η γ) (c : Convergence (World η γ)) (target : Option String)
    (options : UpgradeOptions) : Prog Error (Running (World η γ)) UpgradeOutcome := do
  r.recoverEngine c
  lift r.settle
  let (operation, current) ← lift (r.openOperation target options)
  match ← lift (r.pick target options operation current) with
  | .finished outcome => pure outcome
  | .release release => do
      let operation ← lift (r.bringIn options operation release)
      r.carryOut c operation release

def driveLocked (r : Runner η γ) (target : Option String) (options : UpgradeOptions) :
    Prog Error (World η γ) UpgradeOutcome := do
  let _ ← readRequired
  match options.operation with
  | some desc => r.prior ⟨desc.id, target.getD ""⟩ false
  | none => pure ()
  let c ← r.convergence
  Prog.ofExcept (Engine.checkBudget r.hostBudgetMs)
  withEngine (r.driveEngine c target options)

def drive (r : Runner η γ) (target : Option String) (options : UpgradeOptions) :
    Prog Error (World η γ) UpgradeOutcome := do
  let w ← Prog.get
  if r.hooks.managedElsewhere w.product then do
    product (r.hooks.notify "held" [("reason", "managed-elsewhere")])
    pure (.held "this install is managed by another manager")
  else
    r.locked (r.driveLocked target options)

def upgrade (r : Runner η γ) : Prog Error (World η γ) UpgradeOutcome := r.drive none .none

def upgradeTo (r : Runner η γ) (version : String) (options : UpgradeOptions) :
    Prog Error (World η γ) UpgradeOutcome := r.drive (some version) options

/-! ## rollback -/

def rollbackLocked (r : Runner η γ) (reason : String) : Prog Error (World η γ) UpgradeOutcome := do
  let entries ← FileStore.readJournal
  let inFlight := (lastIntent entries).any fun p => !p.atRest
  let w ← Prog.get
  if !inFlight ∧ r.hooks.managedElsewhere w.product then
    pure (.held "managed-elsewhere")
  else do
    let c ← r.convergence
    Prog.ofExcept (Engine.checkBudget r.hostBudgetMs)
    withEngine (r.engine c).recover
    r.store.clear
    product (r.hooks.notify "rolled-back" [("reason", reason)])
    pure (.rolledBack reason none)

def rollback (r : Runner η γ) (reason : String) : Prog Error (World η γ) UpgradeOutcome :=
  r.locked (r.rollbackLocked reason)

/-! ## looking -/

/-- What `status` shows. -/
structure Status where
  phase : Phase
  stable : String
  experiment : Option String
  predicates : ReportRead
  policy : Policy
  provenance : Option (Except String (Option (List ProvenanceEntry)))

def status (r : Runner η γ) : Prog Error (World η γ) Status := do
  let state ← transactionState
  let w ← Prog.get
  pure
    { phase := state.phase
      stable := state.stable
      experiment := state.experiment
      predicates := w.disk.readReport
      policy := r.policy
      provenance := if r.provenanceEnabled then some w.disk.readProvenance else none }

/-- The stable version, and the one an upgrade would go to. -/
def check (r : Runner η γ) : Prog Error (World η γ) (String × Option String) := do
  let state ← transactionState
  let target ← ask "source.check" (r.source.check ⟨state.stable, r.platformKey⟩)
  pure (state.stable, target.map (·.version))

/-! ## requests -/

/-- The word and exit code of an outcome. -/
def answerOf : UpgradeOutcome → String × Nat
  | .promoted _ => ("promoted", 0)
  | .rolledBack _ _ => ("rolled-back", 1)
  | .held _ => ("held", 2)
  | .upToDate => ("up-to-date", 0)

/-- The descriptor of an upgrade request. -/
def requestOptions (id : String) (consented : Bool) (now : Nat) : UpgradeOptions where
  consented := consented
  provenance := none
  operation := some
    { id := id
      startedAtMs := now
      provenance := some ⟨"local-operator", "external-runner"⟩
      metadata := [] }

def perform (r : Runner η γ) : Request → Prog Error (World η γ) (String × Nat)
  | .status _ => pure ("observed", 0)
  | .recover _ expected => do
      r.recover expected
      pure ("recovered", 0)
  | .upgrade _ id targetVersion consented => do
      let w ← Prog.get
      let outcome ← r.upgradeTo targetVersion (requestOptions id consented (r.clock w.tick))
      pure (answerOf outcome)

/-- Word, exit code and error for what a request came to, with the record it is
about. -/
def report (result : Except Error (String × Nat)) (operation : OperationRead) :
    OperationRead × String × Nat × Option String :=
  match result with
  | .ok (word, code) => (operation, word, code, none)
  | .error (.replay record) =>
      (.observed record, "replayed", (OperationRead.observed record).exitCode, none)
  | .error (.locked pid) => (operation, "busy", 2, some (Error.locked pid).message)
  | .error e =>
      let active := match operation with
        | .observed op => op.outcome == none
        | _ => false
      let unreadable := match operation with
        | .unreadable _ => true
        | _ => false
      let unresolved := active || e.isUncertain || unreadable
      (operation, if unresolved then "recovery-required" else "failed",
        if unresolved then 3 else 1, some e.message)

/-- The record is the one the request names. -/
def isReceiptOf (operation : OperationRead) (expected : Expected) : Bool :=
  match operation with
  | .observed op => op.id == expected.id && op.targetVersion == expected.targetVersion
  | _ => false

/-- The response to a request. -/
def respond (request : Request) (result : Except Error (String × Nat))
    (operation : OperationRead) : Response :=
  let (operation, word, code, error) := report result operation
  if request.isUpgrade ∧ code = 0 ∧ !request.expected.any fun e => isReceiptOf operation e then
    { protocolVersion := 1
      action := request.action
      exitCode := 1
      result := "failed"
      operation := operation
      error := some "RUNNER_RECEIPT_MISMATCH" }
  else
    let code := if !request.isStatus ∧ code = 0 then operation.exitCode else code
    let code := match operation with
      | .unreadable _ => if code ≠ 2 then (if request.isStatus then 1 else 3) else code
      | _ => code
    { protocolVersion := 1
      action := request.action
      exitCode := code
      result := word
      operation := operation
      error := error }

def execute (r : Runner η γ) (request : Request) : Prog Error (World η γ) Response := do
  Prog.ofExcept request.validate
  let result ← Prog.attempt (r.perform request)
  let w ← Prog.get
  pure (respond request result w.disk.readOperation)

end Runner

end KCarrier
