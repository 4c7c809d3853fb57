import KCarrier.Storage

/-!
# KCarrier.World

The world a runner works on, and the programs of the store.

A durable write is a boundary, its effect and another boundary, and everything a
write does in several steps (removing a directory, copying a file, appending a line)
is several writes, so a fault plan can cut a program off between any two of them.
A cut-off worker leaves the world as it is.

`log` is a history variable: what was asked of the outside, and what became of the
receipts.
-/

namespace KCarrier

open Crash

/-- What the history of a world shows. -/
inductive Note where
  /-- a call on the host, the release source or the downloader -/
  | call (name : String)
  /-- `operation.json` was replaced; the directory as it was then -/
  | recorded (op : Operation) (disk : Disk)
  /-- a receipt was archived -/
  | archived (op : Operation)
  /-- the archive held another receipt of that id -/
  | archiveConflict (op : Operation)
  /-- the upgrade of an engine returned -/
  | upgraded (outcome : EngineOutcome)

/-- The upgrade lock as a contender finds it, dead owners aside. -/
inductive LockState where
  | free
  | held (pid : Nat)
  | unreadable
deriving DecidableEq, Repr

/-- Host state `η`, product state `γ` (hooks, release source, surfaces), and the rest
of what a runner touches. -/
structure World (η γ : Type) where
  disk : Disk
  lock : LockState
  host : η
  product : γ
  observed : Observed
  tick : Nat
  log : List Note

/-- What goes wrong: the fault at each boundary, and what an unfinished removal or
copy leaves behind. -/
structure Faults where
  fault : Nat → String → Option (Fault Error)
  debris : Nat → Bool × Bool
  copied : Nat → Nat

/-- Nothing goes wrong. -/
def Faults.clean : Faults where
  fault _ _ := none
  debris _ := (true, true)
  copied _ := 0

structure FileStore where
  faults : Faults
  digest : String → String

/-- The path the runner downloads to. -/
def incomingPath : Path := "incoming/artifact.bin"

def Disk.file (d : Disk) (path : Path) : File Bytes :=
  if path = incomingPath then d.incoming else .absent

namespace FileStore

variable {η γ : Type}

/-! ## boundaries and writes -/

def boundary (s : FileStore) (label : String) : Prog Error (World η γ) Unit := fun w =>
  Prog.raise (s.faults.fault w.tick label) { w with tick := w.tick + 1 }

def note (entry : Note) : Prog Error (World η γ) Unit :=
  Prog.modify fun w => { w with log := w.log ++ [entry] }

def readDisk {α : Type} (read : Disk → Except Error α) : Prog Error (World η γ) α := do
  let w ← Prog.get
  Prog.ofExcept (read w.disk)

/-- One durable step. -/
def write (s : FileStore) (label : String) (f : Disk → Disk) : Prog Error (World η γ) Unit := do
  s.boundary s!"before:{label}"
  Prog.modify fun w => { w with disk := f w.disk }
  s.boundary s!"after:{label}"

/-! ## directories -/

/-- What an unfinished removal leaves of a directory. -/
def SlotDir.debris (d : SlotDir) (keep : Bool × Bool) : SlotDir where
  version := if keep.1 then d.version else .absent
  artifact := if keep.2 then d.artifact else .absent

def removeDir (s : FileStore) (place : Place) : Prog Error (World η γ) Unit := do
  let w ← Prog.get
  match w.disk.slots place with
  | .absent => pure ()
  | .other => Prog.throw (.invalid "refusing to remove non-directory slot")
  | .dir d => do
      s.write "remove_dir_all:entries" fun disk =>
        disk.setSlot place (.dir (SlotDir.debris d (s.faults.debris w.tick)))
      s.write "remove_dir_all" fun disk => disk.setSlot place .absent

/-- A rename is atomic. -/
def renameDurable (s : FileStore) (source target : Place) : Prog Error (World η γ) Unit :=
  s.write "rename" fun disk =>
    (disk.setSlot target (disk.slots source)).setSlot source .absent

/-! ## the journal -/

def readJournal : Prog Error (World η γ) (List JournalEntry) := readDisk Disk.readJournal

def Disk.linesOf (d : Disk) : Lines JournalEntry :=
  match d.journal with
  | .content file => file
  | _ => ⟨[], false⟩

/-- Drop the unterminated tail, if there is one. -/
def repairTail (s : FileStore) : Prog Error (World η γ) Unit := do
  let w ← Prog.get
  match w.disk.journal with
  | .content file =>
      if file.torn then
        s.write "set_len" fun disk => { disk with journal := .content ⟨file.lines, false⟩ }
      else
        pure ()
  | _ => pure ()

def append (s : FileStore) (entry : JournalEntry) : Prog Error (World η γ) Unit := do
  Prog.ofExcept entry.validate
  let prior ← readJournal
  if entry.seq ≠ nextSeq prior then
    Prog.throw (.invalid "journal sequence discontinuity")
  else do
    s.repairTail
    s.write "write_all:tail" fun disk =>
      { disk with journal := .content ⟨(Disk.linesOf disk).lines, true⟩ }
    s.write "write_all" fun disk =>
      { disk with journal := .content ⟨(Disk.linesOf disk).lines ++ [.entry entry], false⟩ }

/-! ## the slots -/

/-- Fill a staging directory: the artifact first, its version last. -/
def populate (s : FileStore) (staging : Place) (version : String) (bytes : Path) :
    Prog Error (World η γ) Unit :=
  if trim version = "" then
    Prog.throw (.invalid "empty artifact version")
  else do
    s.removeDir staging
    s.write "create_dir" fun disk => disk.setSlot staging (.dir ⟨.absent, .absent⟩)
    let w ← Prog.get
    let source ← Prog.ofExcept (w.disk.file bytes).read
    s.write "copy:data" fun disk =>
      disk.setSlot staging (.dir ⟨.absent, .content (source.take (s.faults.copied w.tick))⟩)
    s.write "copy" fun disk => disk.setSlot staging (.dir ⟨.absent, .content source⟩)
    s.write "VERSION" fun disk => disk.setSlot staging (.dir ⟨.content version, .content source⟩)

def stage (s : FileStore) (version : String) (bytes : Path) : Prog Error (World η γ) Unit := do
  s.populate .experimentStaging version bytes
  s.removeDir .experiment
  s.renameDurable .experimentStaging .experiment

/-- Move the candidate to the stable slot.  After the second rename only the backup
may remain. -/
def promote (s : FileStore) : Prog Error (World η γ) Unit := do
  match ← readDisk (Disk.version · .experiment) with
  | none => do
      match ← readDisk (Disk.version · .stable) with
      | none => Prog.throw (.invalid "promotion has no stable or experiment")
      | some _ => s.removeDir .stableOld
  | some _ => do
      let w ← Prog.get
      if w.disk.slots .stable ≠ .absent then do
        s.removeDir .stableOld
        s.renameDurable .stable .stableOld
        s.renameDurable .experiment .stable
        s.removeDir .stableOld
      else do
        s.renameDurable .experiment .stable
        s.removeDir .stableOld

def clear (s : FileStore) : Prog Error (World η γ) Unit := s.removeDir .experiment

def effects (s : FileStore) : Effects (World η γ) where
  readJournal := readJournal
  append := s.append
  versions := readDisk Disk.versions
  stage := s.stage
  promote := s.promote
  clear := s.clear

/-! ## the records -/

def persistOperation (s : FileStore) (op : Operation) : Prog Error (World η γ) Unit := do
  Prog.ofExcept op.validate
  s.boundary "before:operation.json"
  Prog.modify fun w =>
    let disk := { w.disk with operation := .content op }
    { w with disk := disk, log := w.log ++ [.recorded op disk] }
  s.boundary "after:operation.json"

/-- Write the receipt of `op` under the name its digest gives. -/
def writeReceipt (s : FileStore) (op : Operation) : Prog Error (World η γ) Unit := do
  s.boundary "before:receipt"
  Prog.modify fun w => { w with
    disk := { w.disk with
      receipts := fun name =>
        if name = s.digest op.id then .content op else w.disk.receipts name }
    log := w.log ++ [.archived op] }
  s.boundary "after:receipt"

def archive (s : FileStore) (op : Operation) : Prog Error (World η γ) Unit := do
  Prog.ofExcept op.validate
  if op.outcome = none then
    Prog.throw (.invalid "cannot archive active operation")
  else do
    let w ← Prog.get
    match w.disk.readArchive s.digest op.id with
    | .unreadable reason => Prog.throw (.invalid reason)
    | .observed existing =>
        if existing.targetVersion ≠ op.targetVersion ∨ existing.outcome ≠ op.outcome then do
          note (.archiveConflict op)
          Prog.throw (.invalid "OPERATION_ARCHIVE_CONFLICT")
        else
          pure ()
    | .genesis => s.writeReceipt op

def persistReport (s : FileStore) (report : ConvergenceReport) : Prog Error (World η γ) Unit :=
  s.write "report.json" fun disk => { disk with report := .content report }

/-- The lines of the provenance file. -/
def Disk.provenanceLines (d : Disk) : List (Line ProvenanceEntry) :=
  match d.provenance with
  | .content file => file.lines
  | _ => []

def appendProvenanceAt (s : FileStore) (identity : Provenance) (version : String)
    (explicit : Option Nat) (timestampMs : Nat) : Prog Error (World η γ) Unit := do
  let w ← Prog.get
  match w.disk.readProvenance with
  | .error reason => Prog.throw (.invalid s!"PROVENANCE_HISTORY_UNREADABLE: {reason}")
  | .ok entries =>
      let last := (entries.bind List.getLast?).map (·.seq)
      let seq := explicit.getD (match last with
        | none => 0
        | some n => n + 1)
      if last.any fun n => decide (seq ≤ n) then
        Prog.throw (.invalid "PROVENANCE_SEQ_REWRITE")
      else do
        let entry : ProvenanceEntry :=
          { seq, who := identity.who, carrier := identity.carrier, when := timestampMs, version }
        s.write "provenance:set_len" fun disk => match disk.provenance with
          | .content file => { disk with provenance := .content ⟨file.lines, false⟩ }
          | _ => disk
        s.write "provenance:tail" fun disk =>
          { disk with provenance := .content ⟨Disk.provenanceLines disk, true⟩ }
        s.write "provenance" fun disk =>
          { disk with provenance := .content ⟨Disk.provenanceLines disk ++ [.entry entry], false⟩ }

end FileStore

end KCarrier
