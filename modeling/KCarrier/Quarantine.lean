import KCarrier.World

/-!
# KCarrier.Quarantine

Moving a state directory aside, under the writer lock.

A path is the list of its components, and what the platform makes of it is `Platform`.  The
`QuarantineSite` is what stands at the two paths: the state directory with its lock, and
whatever is at the destination.  A handoff is the caller's own program, on the product's
state; `events` is a history variable: the handoffs that were asked for, with the lock they
ran under and whether they returned, and the moves.
-/

namespace KCarrier

open Crash

/-! ## paths -/

inductive Component where
  | rootDir
  | parentDir
  | normal (name : String)
deriving DecidableEq, Repr

abbrev PathBuf : Type := List Component

def PathBuf.isAbsolute (path : PathBuf) : Bool := path.head? == some .rootDir

/-- What the platform knows of a path. -/
structure Platform where
  present : PathBuf → Except Error Bool
  canonicalize : PathBuf → Except Error PathBuf

def invalidDestination : Error := .invalid "QUARANTINE_INVALID_DESTINATION"

/-- `normalize`, on the components from the last to the first. -/
def normalizeFrom (p : Platform) : PathBuf → Except Error PathBuf
  | [] => .error invalidDestination
  | last :: rest =>
      if (last :: rest).contains .parentDir then
        .error invalidDestination
      else
        match p.present (last :: rest).reverse with
        | .error e => .error e
        | .ok true => p.canonicalize (last :: rest).reverse
        | .ok false =>
            match last with
            | .normal name =>
                match normalizeFrom p rest with
                | .ok parent => .ok (parent ++ [.normal name])
                | .error e => .error e
            | _ => .error invalidDestination

/-- Resolve the part of a path that exists. -/
def normalize (p : Platform) (path : PathBuf) : Except Error PathBuf :=
  normalizeFrom p path.reverse

/-! ## the site -/

/-- `fresh-install-quarantine.json`. -/
structure QuarantineReceipt where
  formatVersion : Nat
  kind : String
  sourcePath : PathBuf
  quarantinePath : PathBuf
  operationId : String
  timestampMs : Nat
deriving DecidableEq, Repr

inductive QuarantineStatus where
  | quarantined
  | alreadyQuarantined
  | notFound
deriving DecidableEq, Repr

structure QuarantineResult where
  status : QuarantineStatus
  receipt : QuarantineReceipt
deriving DecidableEq, Repr

inductive QuarantineEvent where
  | handoff (lock : LockState) (approved : Bool)
  | displaced
deriving DecidableEq, Repr

/-- The state directory at the source, if it is `present`, with the receipt in it; and what is
at the destination, with the receipt in that. -/
structure QuarantineSite (η γ : Type) where
  world : World η γ
  present : Bool
  receipt : File QuarantineReceipt
  destination : Option (File QuarantineReceipt)
  events : List QuarantineEvent

/-- A call of `quarantine_state`, in the worker `self`. -/
structure Quarantine (γ : Type) where
  platform : Platform
  store : FileStore
  self : Nat
  source : PathBuf
  destination : PathBuf
  timestampMs : Nat
  allowUnreadable : Bool
  handoff : Option (Disk → Prog Error γ Unit)

/-- The journal is longer than zero bytes; one that cannot be read has bytes. -/
def Disk.journalHasBytes (d : Disk) : Bool :=
  match d.journal with
  | .absent => false
  | .unreadable _ => true
  | .content file => !file.lines.isEmpty || file.torn

namespace Quarantine

variable {η γ α : Type}

/-- A program on the state directory and the product. -/
def onWorld (m : Prog Error (World η γ) α) : Prog Error (QuarantineSite η γ) α :=
  Prog.zoom QuarantineSite.world (fun w site => { site with world := w }) m

def boundary (q : Quarantine γ) (label : String) : Prog Error (QuarantineSite η γ) Unit :=
  onWorld (q.store.boundary label)

def event (entry : QuarantineEvent) : Prog Error (QuarantineSite η γ) Unit :=
  Prog.modify fun site => { site with events := site.events ++ [entry] }

/-! ## the lock -/

/-- A lock that is held is an active one. -/
def takeLock (q : Quarantine γ) : Prog Error (QuarantineSite η γ) Unit := do
  q.boundary "acquire"
  let site ← Prog.get
  match site.world.lock with
  | .free => Prog.modify fun site => { site with world := { site.world with lock := .held q.self } }
  | .held _ => Prog.throw (.invalid "QUARANTINE_ACTIVE_LOCK")
  | .unreadable => Prog.throw (.invalid "UPGRADE_LOCK_UNREADABLE")

/-- The guard is dropped; it finds nothing to remove when the directory was moved. -/
def dropLock (q : Quarantine γ) : Prog Error (QuarantineSite η γ) Unit := do
  let site ← Prog.get
  if site.present then do
    q.boundary "release"
    Prog.modify fun site => { site with world := { site.world with lock := .free } }
  else
    pure ()

/-! ## the gate -/

/-- Whether the record asks for a handoff, and the operation it names. -/
def requiresHandoff (q : Quarantine γ) (d : Disk) : Except Error (Bool × String) :=
  match d.readOperation with
  | .unreadable _ =>
      if q.allowUnreadable then .ok (true, "genesis")
      else .error (.invalid "QUARANTINE_STATE_UNREADABLE")
  | .observed op => .ok (op.outcome == none, op.id)
  | .genesis => .ok (d.journalHasBytes, "genesis")

/-- Ask the caller that the host is safe. -/
def askHandoff (call : Disk → Prog Error γ Unit) : Prog Error (QuarantineSite η γ) Unit := do
  let site ← Prog.get
  match ← Prog.attempt (onWorld (Prog.zoom World.product (fun p w => { w with product := p })
      (call site.world.disk))) with
  | .ok () => event (.handoff site.world.lock true)
  | .error _ => do
      event (.handoff site.world.lock false)
      Prog.throw (.invalid "QUARANTINE_ACTIVE_OPERATION")

/-- A handoff that is required has to be there; one that is there is asked for. -/
def passGate (q : Quarantine γ) (required : Bool) : Prog Error (QuarantineSite η γ) Unit :=
  match q.handoff with
  | some call => askHandoff call
  | none =>
      if required then Prog.throw (.invalid "QUARANTINE_ACTIVE_OPERATION") else pure ()

/-! ## the move -/

/-- Move the directory; what is at the destination is not replaced. -/
def renameExclusive (q : Quarantine γ) : Prog Error (QuarantineSite η γ) Unit := do
  q.boundary "before:rename_exclusive"
  let site ← Prog.get
  if site.destination.isSome then
    Prog.throw (.invalid "QUARANTINE_DESTINATION_CONFLICT")
  else do
    Prog.modify fun site =>
      { site with
        present := false
        destination := some site.receipt
        events := site.events ++ [.displaced] }
    q.boundary "after:rename_exclusive"

/-- What is done under the lock. -/
def displace (q : Quarantine γ) (source destination : PathBuf) :
    Prog Error (QuarantineSite η γ) QuarantineResult := do
  let site ← Prog.get
  let (required, operationId) ← Prog.ofExcept (q.requiresHandoff site.world.disk)
  q.passGate required
  q.boundary "ensure_dir"
  let receipt : QuarantineReceipt :=
    ⟨1, "k-fresh-install-quarantine", source, destination, operationId, q.timestampMs⟩
  q.boundary "before:fresh-install-quarantine.json"
  Prog.modify fun site => { site with receipt := .content receipt }
  q.boundary "after:fresh-install-quarantine.json"
  q.renameExclusive
  q.boundary "sync_dir:source"
  q.boundary "sync_dir:destination"
  pure ⟨.quarantined, receipt⟩

/-- An earlier call has moved the directory there, by its receipt. -/
def alreadyThere (source destination : PathBuf) (found : File QuarantineReceipt) :
    Except Error QuarantineResult :=
  match found with
  | .content receipt =>
      if receipt.formatVersion = 1 ∧ receipt.kind = "k-fresh-install-quarantine" ∧
          receipt.sourcePath = source ∧ receipt.quarantinePath = destination then
        .ok ⟨.alreadyQuarantined, receipt⟩
      else
        .error (.invalid "QUARANTINE_DESTINATION_CONFLICT")
  | _ => .error (.invalid "QUARANTINE_DESTINATION_CONFLICT")

/-- `quarantine_state`. -/
def run (q : Quarantine γ) : Prog Error (QuarantineSite η γ) QuarantineResult := do
  if !q.source.isAbsolute || !q.destination.isAbsolute then
    Prog.throw invalidDestination
  else do
    let source ← Prog.ofExcept (normalize q.platform q.source)
    let destination ← Prog.ofExcept (normalize q.platform q.destination)
    if source.isPrefixOf destination then
      Prog.throw invalidDestination
    else do
      let site ← Prog.get
      match site.destination, site.present with
      | some _, true => Prog.throw (.invalid "QUARANTINE_DESTINATION_CONFLICT")
      | some found, false => Prog.ofExcept (alreadyThere source destination found)
      | none, false =>
          pure ⟨.notFound, ⟨1, "k-fresh-install-quarantine", source, destination, "genesis",
            q.timestampMs⟩⟩
      | none, true => do
          q.takeLock
          match ← Prog.attempt (q.displace source destination) with
          | .ok result => pure result
          | .error e => do
              let _ ← Prog.attempt q.dropLock
              Prog.throw e

end Quarantine

end KCarrier
