/-!
# KCarrier.State

The records of the v1 state layout: phases and slots, the evidence of a live
process, journal entries, operation records and their outcomes, and the errors
every layer returns.

Process ids and sequence numbers are natural numbers; a string map is the list
of its pairs (`Detail`), newest insertion first.
-/

namespace KCarrier

/-! ## phases and slots -/

inductive Phase where
  | idle
  | staged
  | handingOver
  | runningExperiment
  | readback
  | promoted
  | rolledBack
deriving DecidableEq, Repr

namespace Phase

def atRest : Phase → Bool
  | .idle | .promoted | .rolledBack => true
  | _ => false

/-- The name a phase is serialized under. -/
def name : Phase → String
  | .idle => "idle"
  | .staged => "staged"
  | .handingOver => "handing-over"
  | .runningExperiment => "running-experiment"
  | .readback => "readback"
  | .promoted => "promoted"
  | .rolledBack => "rolled-back"

/-- The name `{:?}` prints. -/
def debugName : Phase → String
  | .idle => "Idle"
  | .staged => "Staged"
  | .handingOver => "HandingOver"
  | .runningExperiment => "RunningExperiment"
  | .readback => "Readback"
  | .promoted => "Promoted"
  | .rolledBack => "RolledBack"

end Phase

inductive Slot where
  | stable
  | experiment
deriving DecidableEq, Repr

def Slot.name : Slot → String
  | .stable => "stable"
  | .experiment => "experiment"

/-! ## transitions -/

/-- The edges of the journal, each with the name of the action it stands for. -/
def TRANSITIONS : List (Phase × Phase × String) :=
  [(.idle, .staged, "stage-experiment"),
    (.staged, .handingOver, "handover-to-experiment"),
    (.handingOver, .runningExperiment, "probe-experiment"),
    (.runningExperiment, .readback, "evaluate-predicates"),
    (.readback, .promoted, "promote-experiment"),
    (.staged, .rolledBack, "restore-stable"),
    (.handingOver, .rolledBack, "restore-stable"),
    (.runningExperiment, .rolledBack, "restore-stable"),
    (.readback, .rolledBack, "restore-stable")]

/-! ## string maps -/

/-- A map from strings to strings. -/
abbrev Detail : Type := List (String × String)

namespace Detail

def get (d : Detail) (key : String) : Option String := d.lookup key

def remove (d : Detail) (key : String) : Detail := d.filter fun p => p.1 != key

def insert (d : Detail) (key value : String) : Detail := (key, value) :: d.remove key

/-- A key reads what was set last. -/
@[simp] theorem get_insert (d : Detail) (key value : String) :
    (d.insert key value).get key = some value := by
  simp [get, insert]

/-- Inserting under one key leaves every other key as it was. -/
theorem get_insert_of_ne (d : Detail) {key key' : String} (value : String) (h : key' ≠ key) :
    (d.insert key value).get key' = d.get key' := by
  have hne : (key' == key) = false := by simpa using h
  simp only [get, insert, List.lookup_cons, hne]
  induction d with
  | nil => rfl
  | cons p d ih =>
      obtain ⟨k, v⟩ := p
      by_cases hk : k = key
      · subst hk
        simpa [remove, List.lookup_cons, hne] using ih
      · by_cases hk' : key' = k
        · subst hk'
          simp [remove, hk]
        · have hb : (key' == k) = false := by simpa using hk'
          simpa [remove, hk, List.lookup_cons, hb] using ih

end Detail

/-! ## operation records -/

structure Provenance where
  who : String
  carrier : String
deriving DecidableEq, Repr

inductive OperationPhase where
  | checking
  | downloading
  | verifying
  | staging
  | handingOver
  | probing
  | recovering
  | promoted
  | rolledBack
  | held
  | upToDate
  | failed
deriving DecidableEq, Repr

inductive Outcome where
  | promoted
  | rolledBack
  | held
  | upToDate
  | failed
deriving DecidableEq, Repr

namespace Outcome

def phase : Outcome → OperationPhase
  | .promoted => .promoted
  | .rolledBack => .rolledBack
  | .held => .held
  | .upToDate => .upToDate
  | .failed => .failed

def exitCode : Outcome → Nat
  | .promoted | .upToDate => 0
  | .held => 2
  | _ => 1

end Outcome

structure Operation where
  formatVersion : Nat
  id : String
  startedAtMs : Nat
  updatedAtMs : Nat
  fromVersion : String
  targetVersion : String
  previousStableVersion : String
  phase : OperationPhase
  outcome : Option Outcome
  reason : Option String
  provenance : Option Provenance
  metadata : Detail
deriving DecidableEq, Repr

/-! ## errors -/

/-- The error of every fallible call.  `io` carries whether the kind is
`NotFound`, the one kind the code asks for, and the text. -/
inductive Error where
  | replay (operation : Operation)
  | invalid (message : String)
  | uncertain (message : String)
  | locked (pid : Nat)
  | io (notFound : Bool) (message : String)
  | json (message : String)
  | http (message : String)
deriving DecidableEq, Repr

namespace Error

def isUncertain : Error → Bool
  | .uncertain _ => true
  | _ => false

/-- The text of an error. -/
def message : Error → String
  | .replay operation => s!"OPERATION_REPLAY: {operation.id}"
  | .invalid message => message
  | .uncertain message => message
  | .locked pid => s!"UPGRADE_IN_PROGRESS: holder pid {pid}"
  | .io _ message => message
  | .json message => message
  | .http message => message

/-- A replay is the runner's own error, which nothing outside it raises. -/
def NotReplay (e : Error) : Prop := ∀ op, e ≠ .replay op

end Error

def Operation.validate (op : Operation) : Except Error Unit :=
  if op.formatVersion ≠ 1 ∨ op.id = "" then
    .error (.invalid "operation record has an invalid shape")
  else
    .ok ()

/-- Reading a record that may be absent or broken. -/
inductive OperationRead where
  | genesis
  | observed (operation : Operation)
  | unreadable (reason : String)
deriving DecidableEq, Repr

/-- Whether a record was read, and one that passes `p`. -/
def OperationRead.shows (p : Operation → Bool) : OperationRead → Bool
  | .observed operation => p operation
  | _ => false

theorem OperationRead.shows_iff {p : Operation → Bool} {read : OperationRead} :
    read.shows p = true ↔ ∃ op, read = .observed op ∧ p op = true := by
  cases read <;> simp [shows]

def OperationRead.exitCode : OperationRead → Nat
  | .genesis => 0
  | .unreadable _ => 1
  | .observed operation =>
      match operation.outcome with
      | none => 3
      | some outcome => outcome.exitCode

/-! ## evidence and journal entries -/

structure Evidence where
  version : String
  pid : Nat
  startId : String
deriving DecidableEq, Repr

/-- `self` is the id of the process that validates: it cannot attest itself. -/
def Evidence.validate (self : Nat) (e : Evidence) : Except Error Unit :=
  if e.version = "" ∨ e.startId = "" ∨ e.pid = 0 ∨ e.pid = self then
    .error (.invalid "HOST_EVIDENCE_INVALID")
  else
    .ok ()

structure JournalEntry where
  seq : Nat
  timestampMs : Nat
  intent : Phase
  detail : Detail
deriving DecidableEq, Repr

def JournalEntry.validate (e : JournalEntry) : Except Error Unit :=
  if e.detail.get "formatVersion" ≠ some "1" then
    .error (.invalid "unsupported journal format")
  else
    .ok ()

/-- The first entry that does not validate stops the check. -/
def validateAll : List JournalEntry → Except Error Unit
  | [] => .ok ()
  | e :: es =>
      match e.validate with
      | .ok () => validateAll es
      | .error err => .error err

/-- A journal is valid when each of its entries is. -/
theorem validateAll_eq_ok_iff (es : List JournalEntry) :
    validateAll es = .ok () ↔ ∀ e ∈ es, e.validate = .ok () := by
  induction es with
  | nil => simp [validateAll]
  | cons e es ih =>
      cases he : e.validate with
      | ok u => simp [validateAll, he, ih]
      | error err => simp [validateAll, he]

/-- The sequence number of the entry that follows `entries`. -/
def nextSeq (entries : List JournalEntry) : Nat :=
  match entries.getLast? with
  | none => 0
  | some last => last.seq + 1

/-- The last intent of a journal. -/
def lastIntent (entries : List JournalEntry) : Option Phase := entries.getLast?.map (·.intent)

@[simp] theorem nextSeq_nil : nextSeq [] = 0 := rfl

/-- The next number is one past the last entry's. -/
@[simp] theorem nextSeq_concat (entries : List JournalEntry) (e : JournalEntry) :
    nextSeq (entries ++ [e]) = e.seq + 1 := by
  simp [nextSeq]

@[simp] theorem lastIntent_nil : lastIntent [] = none := rfl

@[simp] theorem lastIntent_concat (entries : List JournalEntry) (e : JournalEntry) :
    lastIntent (entries ++ [e]) = some e.intent := by
  simp [lastIntent]

end KCarrier
