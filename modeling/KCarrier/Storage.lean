import KCarrier.Report

/-!
# KCarrier.Storage

The v1 state directory as its readers find it.

A JSON file is the value it parses to (`File`), a line file the list of what its
complete lines parse to, with whether an unterminated tail follows (`Lines`), and a
slot a directory that may be incomplete (`Node`).  Reading never changes the
directory; the programs that do are in `KCarrier.World`.
-/

namespace KCarrier

/-! ## files -/

/-- A file: not there, not readable as what it should be, or its content. -/
inductive File (α : Type) where
  | absent
  | unreadable (message : String)
  | content (a : α)
deriving DecidableEq, Repr

def notFound : Error := .io true "No such file or directory (os error 2)"

def File.read {α : Type} : File α → Except Error α
  | .absent => .error notFound
  | .unreadable message => .error (.io false message)
  | .content a => .ok a

/-- A line that ends in a newline. -/
inductive Line (α : Type) where
  | blank
  | corrupt (message : String)
  | entry (a : α)
deriving DecidableEq, Repr

/-- A file of lines; `torn` when bytes follow the last newline. -/
structure Lines (α : Type) where
  lines : List (Line α)
  torn : Bool
deriving DecidableEq, Repr

/-- Every complete line counts: the first that does not parse, or that `check`
refuses after its predecessor, stops the read. -/
def readLines {α : Type} (check : Option α → α → Except Error Unit) (last : Option α) :
    List (Line α) → Except Error (List α)
  | [] => .ok []
  | .blank :: rest => readLines check last rest
  | .corrupt message :: _ => .error (.json message)
  | .entry a :: rest =>
      match check last a with
      | .error e => .error e
      | .ok () =>
          match readLines check (some a) rest with
          | .ok as => .ok (a :: as)
          | .error e => .error e

/-- The number an entry has after `last`. -/
def seqAfter : Option JournalEntry → Nat
  | none => 0
  | some last => last.seq + 1

def checkEntry (last : Option JournalEntry) (e : JournalEntry) : Except Error Unit :=
  match e.validate with
  | .error err => .error err
  | .ok () =>
      if e.seq ≠ seqAfter last then
        .error (.invalid "journal sequence discontinuity")
      else
        .ok ()

structure ProvenanceEntry where
  seq : Nat
  who : String
  carrier : String
  when : Nat
  version : String
deriving DecidableEq, Repr

def checkProvenance (last : Option ProvenanceEntry) (e : ProvenanceEntry) : Except Error Unit :=
  if last.any fun p => decide (e.seq ≤ p.seq) then
    .error (.invalid "PROVENANCE_SEQ_REWRITE")
  else
    .ok ()

/-! ## slots -/

/-- The artifact's bytes. -/
abbrev Bytes : Type := List UInt8

structure SlotDir where
  version : File String
  artifact : File Bytes
deriving DecidableEq, Repr

/-- What stands at the path of a slot; `other` is anything but a directory. -/
inductive Node where
  | absent
  | other
  | dir (d : SlotDir)
deriving DecidableEq, Repr

/-- The slots, the backup of a promotion and the staging directory. -/
inductive Place where
  | stable
  | experiment
  | stableOld
  | experimentStaging
deriving DecidableEq, Repr

def Slot.place : Slot → Place
  | .stable => .stable
  | .experiment => .experiment

/-! ## the directory -/

/-- The state directory; receipts are found by their file name. -/
structure Disk where
  journal : File (Lines JournalEntry)
  operation : File Operation
  receipts : String → File Operation
  report : File ConvergenceReport
  provenance : File (Lines ProvenanceEntry)
  slots : Place → Node
  incoming : File Bytes

namespace Disk

/-- Put `node` at `place`. -/
def setSlot (d : Disk) (place : Place) (node : Node) : Disk :=
  { d with slots := fun p => if p = place then node else d.slots p }

@[simp] theorem setSlot_self (d : Disk) (place : Place) (node : Node) :
    (d.setSlot place node).slots place = node := by
  simp [setSlot]

theorem setSlot_of_ne (d : Disk) {place p : Place} (node : Node) (h : p ≠ place) :
    (d.setSlot place node).slots p = d.slots p := by
  simp [setSlot, h]

@[simp] theorem setSlot_journal (d : Disk) (place : Place) (node : Node) :
    (d.setSlot place node).journal = d.journal := rfl

@[simp] theorem setSlot_operation (d : Disk) (place : Place) (node : Node) :
    (d.setSlot place node).operation = d.operation := rfl

@[simp] theorem setSlot_receipts (d : Disk) (place : Place) (node : Node) :
    (d.setSlot place node).receipts = d.receipts := rfl

def readJournal (d : Disk) : Except Error (List JournalEntry) :=
  match d.journal with
  | .absent => .ok []
  | .unreadable message => .error (.io false message)
  | .content file => readLines checkEntry none file.lines

/-- The version of a complete slot, none for an absent one. -/
def version (d : Disk) (place : Place) : Except Error (Option String) :=
  match d.slots place with
  | .absent => .ok none
  | .other => .error (.invalid "invalid slot directory")
  | .dir slot =>
      match slot.version.read with
      | .error e => .error e
      | .ok text =>
          if trim text = "" then
            .error (.invalid "incomplete slot")
          else
            match slot.artifact with
            | .absent => .error notFound
            | .unreadable _ => .error (.invalid "incomplete slot")
            | .content _ => .ok (some (trim text))

/-- The version of a slot is about the slot alone, wherever it is. -/
theorem version_congr {d d' : Disk} {place place' : Place}
    (h : d.slots place = d'.slots place') : d.version place = d'.version place' := by
  unfold version
  rw [h]

def versions (d : Disk) : Except Error (List (String × Option String)) :=
  match d.version .stable, d.version .experiment with
  | .ok stable, .ok experiment => .ok [("stable", stable), ("experiment", experiment)]
  | .error e, _ => .error e
  | _, .error e => .error e

end Disk

/-- Reading a record: an absent file is the genesis, anything but a valid record is
unreadable. -/
def readOperationFile (file : File Operation) : OperationRead :=
  match file with
  | .absent => .genesis
  | .unreadable message => .unreadable s!"cannot read K receipt: {message}"
  | .content op =>
      match op.validate with
      | .ok () => .observed op
      | .error e => .unreadable s!"cannot read K receipt: {e.message}"

namespace Disk

def readOperation (d : Disk) : OperationRead := readOperationFile d.operation

/-- The archived receipt of `id`, under the name its digest gives. -/
def readArchive (digest : String → String) (d : Disk) (id : String) : OperationRead :=
  match readOperationFile (d.receipts (digest id)) with
  | .observed op =>
      if op.id ≠ id ∨ op.outcome = none then
        .unreadable "invalid archived receipt identity/outcome"
      else
        .observed op
  | read => read

/-- The provenance history; an error is its text. -/
def readProvenance (d : Disk) : Except String (Option (List ProvenanceEntry)) :=
  match d.provenance with
  | .absent => .ok none
  | .unreadable message => .error message
  | .content file =>
      match readLines checkProvenance none file.lines with
      | .ok entries => .ok (some entries)
      | .error e => .error e.message

end Disk

/-- Reading the report: an absent file is the genesis. -/
inductive ReportRead where
  | genesis
  | observed (report : ConvergenceReport)
  | unreadable (reason : String)
deriving DecidableEq, Repr

def Disk.readReport (d : Disk) : ReportRead :=
  match d.report with
  | .absent => .genesis
  | .unreadable message => .unreadable message
  | .content report => .observed report

/-! ## the state of the transaction -/

inductive TxnState where
  | idle (stableVersion : String)
  | promoted (stableVersion : String)
  | rolledBack (stableVersion : String) (rollbackReason : Option String)
  | staged (stableVersion experimentVersion : String)
  | handingOver (stableVersion experimentVersion : String)
  | runningExperiment (stableVersion experimentVersion : String)
  | readback (stableVersion experimentVersion : String)
deriving DecidableEq, Repr

namespace TxnState

def phase : TxnState → Phase
  | .idle _ => .idle
  | .promoted _ => .promoted
  | .rolledBack _ _ => .rolledBack
  | .staged _ _ => .staged
  | .handingOver _ _ => .handingOver
  | .runningExperiment _ _ => .runningExperiment
  | .readback _ _ => .readback

def stable : TxnState → String
  | .idle v | .promoted v | .rolledBack v _ | .staged v _ | .handingOver v _
  | .runningExperiment v _ | .readback v _ => v

def experiment : TxnState → Option String
  | .staged _ v | .handingOver _ v | .runningExperiment _ v | .readback _ v => some v
  | .idle _ | .promoted _ | .rolledBack _ _ => none

end TxnState

/-- The state an in-flight phase reports with the version of the experiment. -/
def inFlight (d : Disk) (state : String → TxnState) : Except Error TxnState :=
  match d.version .experiment with
  | .error e => .error e
  | .ok none => .error (.invalid "TXN_STATE_INCONSISTENT: in-flight phase has no experiment")
  | .ok (some experiment) => .ok (state experiment)

/-- The state after the last entry of the journal. -/
def Disk.stateAfter (d : Disk) (stable : String) : Option JournalEntry → Except Error TxnState
  | none => .ok (.idle stable)
  | some last =>
      match last.intent with
      | .idle => .ok (.idle stable)
      | .promoted => .ok (.promoted stable)
      | .rolledBack => .ok (.rolledBack stable (last.detail.get "reason"))
      | .staged => inFlight d (.staged stable)
      | .handingOver => inFlight d (.handingOver stable)
      | .runningExperiment => inFlight d (.runningExperiment stable)
      | .readback => inFlight d (.readback stable)

def Disk.transactionState (d : Disk) : Except Error TxnState :=
  match d.readJournal with
  | .error e => .error e
  | .ok entries =>
      match d.version .stable with
      | .error e => .error e
      | .ok version => d.stateAfter (version.getD "0.0.0") entries.getLast?

/-! ## what the reads show -/

/-- Lines are read in order: an error in the first part is the error of the whole. -/
theorem readLines_append {α : Type} {check : Option α → α → Except Error Unit} {last : Option α}
    {xs ys : List (Line α)} :
    readLines check last (xs ++ ys) =
      match readLines check last xs with
      | .error e => .error e
      | .ok as =>
          match readLines check (as.getLast?.or last) ys with
          | .error e => .error e
          | .ok bs => .ok (as ++ bs) := by
  induction xs generalizing last with
  | nil =>
      simp only [List.nil_append, readLines, List.getLast?_nil, Option.none_or]
      cases readLines check last ys <;> rfl
  | cons line xs ih =>
      cases line with
      | blank => simpa only [List.cons_append, readLines] using ih
      | corrupt message => rfl
      | entry b =>
          simp only [List.cons_append, readLines]
          cases check last b with
          | error e => rfl
          | ok u =>
              simp only [ih]
              cases hxs : readLines check (some b) xs with
              | error e => rfl
              | ok as =>
                  have hlast : (b :: as).getLast?.or last = as.getLast?.or (some b) := by
                    rw [List.getLast?_cons]
                    cases as.getLast? <;> rfl
                  simp only [hlast]
                  cases readLines check (as.getLast?.or (some b)) ys <;> rfl

/-- Reading lines that end in one more entry. -/
theorem readLines_concat {α : Type} {check : Option α → α → Except Error Unit} {a : α}
    {last : Option α} {lines : List (Line α)} {as : List α} (h : readLines check last lines = .ok as)
    (ha : check (as.getLast?.or last) a = .ok ()) :
    readLines check last (lines ++ [.entry a]) = .ok (as ++ [a]) := by
  rw [readLines_append]
  simp only [h, readLines, ha]

/-- Reading lines that end in one more entry: the first error of the others, the error of
the check, or one more entry. -/
theorem readLines_concat_cases {α : Type} {check : Option α → α → Except Error Unit}
    (last : Option α) (lines : List (Line α)) (a : α) :
    (∃ e, readLines check last lines = .error e ∧
      readLines check last (lines ++ [.entry a]) = .error e) ∨
    (∃ prior e, check prior a = .error e ∧
      readLines check last (lines ++ [.entry a]) = .error e) ∨
    ∃ as, readLines check last (lines ++ [.entry a]) = .ok (as ++ [a]) := by
  rw [readLines_append]
  cases hlines : readLines check last lines with
  | error e => exact .inl ⟨e, rfl, rfl⟩
  | ok as =>
      cases hcheck : check (as.getLast?.or last) a with
      | error e => exact .inr (.inl ⟨_, e, hcheck, by simp only [readLines, hcheck]⟩)
      | ok u => exact .inr (.inr ⟨as, by simp only [readLines, hcheck]⟩)

/-- Each entry passes `check` after the one before it. -/
def Checked {α : Type} (check : Option α → α → Except Error Unit) : Option α → List α → Prop
  | _, [] => True
  | last, a :: as => check last a = .ok () ∧ Checked check (some a) as

/-- A read succeeds when every line that is not blank is an entry that passes. -/
theorem readLines_ok_iff {α : Type} [DecidableEq α] {check : Option α → α → Except Error Unit}
    {last : Option α} {lines : List (Line α)} {as : List α} :
    readLines check last lines = .ok as ↔
      lines.filter (· ≠ .blank) = as.map .entry ∧ Checked check last as := by
  induction lines generalizing last as with
  | nil =>
      cases as with
      | nil => simp [readLines, Checked]
      | cons a as => simp [readLines]
  | cons line lines ih =>
      cases line with
      | blank => simpa [readLines] using ih
      | corrupt message =>
          cases as with
          | nil => simp [readLines]
          | cons a as => simp [readLines]
      | entry b =>
          simp only [readLines]
          cases as with
          | nil =>
              cases check last b with
              | error e => simp
              | ok u => cases readLines check (some b) lines <;> simp
          | cons a as =>
              have hfilter : (Line.entry b :: lines).filter (· ≠ .blank) =
                  .entry b :: lines.filter (· ≠ .blank) := by simp
              rw [hfilter, List.map_cons, List.cons.injEq, Line.entry.injEq]
              constructor
              · intro h
                cases hb : check last b with
                | error e => simp [hb] at h
                | ok u =>
                    cases hrest : readLines check (some b) lines with
                    | error e => simp [hb, hrest] at h
                    | ok bs =>
                        simp only [hb, hrest, Except.ok.injEq, List.cons.injEq] at h
                        obtain ⟨rfl, rfl⟩ := h
                        obtain ⟨hlines, hchecked⟩ := ih.mp hrest
                        exact ⟨⟨rfl, hlines⟩, hb, hchecked⟩
              · rintro ⟨⟨rfl, hlines⟩, hb, hchecked⟩
                rw [hb]
                simp only [ih.mpr ⟨hlines, hchecked⟩]

/-- The entries of a journal have its format and are numbered one after the other. -/
theorem checked_checkEntry_iff {last : Option JournalEntry} {es : List JournalEntry} :
    Checked checkEntry last es ↔
      (∀ e ∈ es, e.validate = .ok ()) ∧ es.map (·.seq) = List.range' (seqAfter last) es.length := by
  induction es generalizing last with
  | nil => simp [Checked]
  | cons e es ih =>
      have hnext : seqAfter (some e) = e.seq + 1 := rfl
      simp only [Checked, ih, hnext, List.forall_mem_cons, List.map_cons, List.length_cons,
        List.range'_succ, List.cons.injEq, checkEntry]
      cases hv : e.validate with
      | error err => simp
      | ok u =>
          by_cases hseq : e.seq = seqAfter last
          · simp [hseq]
          · simp [hseq]

/-- A record is observed when it is there and valid. -/
theorem Disk.readOperation_observed_iff {d : Disk} {op : Operation} :
    d.readOperation = .observed op ↔ d.operation = .content op ∧ op.validate = .ok () := by
  unfold Disk.readOperation readOperationFile
  cases d.operation with
  | absent => simp
  | unreadable message => simp
  | content record =>
      dsimp only
      constructor
      · intro h
        cases hv : record.validate with
        | error e =>
            rw [hv] at h
            cases h
        | ok u =>
            rw [hv] at h
            cases h
            exact ⟨rfl, hv⟩
      · rintro ⟨hfile, hv⟩
        cases hfile
        rw [hv]

/-- An in-flight state comes from the experiment slot. -/
theorem inFlight_ok {d : Disk} {f : String → TxnState} {state : TxnState}
    (h : inFlight d f = .ok state) : ∃ experiment, state = f experiment := by
  unfold inFlight at h
  cases hv : d.version .experiment with
  | error e => simp [hv] at h
  | ok version =>
      cases version with
      | none => simp [hv] at h
      | some experiment =>
          simp only [hv, Except.ok.injEq] at h
          exact ⟨experiment, h.symm⟩

/-- A state reports the stable version it was given and the phase of the last entry. -/
theorem stateAfter_ok {d : Disk} {stable : String} {last : Option JournalEntry} {state : TxnState}
    (h : d.stateAfter stable last = .ok state) :
    state.stable = stable ∧ state.phase = (last.map (·.intent)).getD .idle := by
  cases last with
  | none =>
      cases h
      exact ⟨rfl, rfl⟩
  | some last =>
      simp only [Disk.stateAfter] at h
      cases hi : last.intent with
      | idle =>
          simp only [hi, Except.ok.injEq] at h
          subst h
          exact ⟨rfl, by simp [hi, TxnState.phase]⟩
      | promoted =>
          simp only [hi, Except.ok.injEq] at h
          subst h
          exact ⟨rfl, by simp [hi, TxnState.phase]⟩
      | rolledBack =>
          simp only [hi, Except.ok.injEq] at h
          subst h
          exact ⟨rfl, by simp [hi, TxnState.phase]⟩
      | staged =>
          simp only [hi] at h
          obtain ⟨experiment, rfl⟩ := inFlight_ok h
          exact ⟨rfl, by simp [hi, TxnState.phase]⟩
      | handingOver =>
          simp only [hi] at h
          obtain ⟨experiment, rfl⟩ := inFlight_ok h
          exact ⟨rfl, by simp [hi, TxnState.phase]⟩
      | runningExperiment =>
          simp only [hi] at h
          obtain ⟨experiment, rfl⟩ := inFlight_ok h
          exact ⟨rfl, by simp [hi, TxnState.phase]⟩
      | readback =>
          simp only [hi] at h
          obtain ⟨experiment, rfl⟩ := inFlight_ok h
          exact ⟨rfl, by simp [hi, TxnState.phase]⟩

/-- At rest the state is there without reading the experiment slot. -/
theorem stateAfter_atRest {d : Disk} {stable : String} {last : Option JournalEntry}
    (hrest : ∀ p, last.map (·.intent) = some p → p.atRest = true) :
    ∃ state, d.stateAfter stable last = .ok state := by
  cases last with
  | none => exact ⟨_, rfl⟩
  | some last =>
      have hp := hrest last.intent rfl
      simp only [Disk.stateAfter]
      cases hi : last.intent with
      | idle => exact ⟨_, rfl⟩
      | promoted => exact ⟨_, rfl⟩
      | rolledBack => exact ⟨_, rfl⟩
      | staged => rw [hi] at hp; cases hp
      | handingOver => rw [hi] at hp; cases hp
      | runningExperiment => rw [hi] at hp; cases hp
      | readback => rw [hi] at hp; cases hp

/-- What a transaction state says about the journal and the stable slot. -/
theorem transactionState_ok {d : Disk} {state : TxnState} (h : d.transactionState = .ok state) :
    ∃ entries version, d.readJournal = .ok entries ∧ d.version .stable = .ok version ∧
      state.stable = version.getD "0.0.0" ∧ state.phase = (lastIntent entries).getD .idle := by
  unfold Disk.transactionState at h
  cases hj : d.readJournal with
  | error e => simp [hj] at h
  | ok entries =>
      cases hv : d.version .stable with
      | error e => simp [hj, hv] at h
      | ok version =>
          simp only [hj, hv] at h
          obtain ⟨hstable, hphase⟩ := stateAfter_ok h
          exact ⟨entries, version, rfl, rfl, hstable, hphase⟩

/-- The phase shown is at rest if and only if the last intent is. -/
theorem transactionState_atRest_iff {d : Disk} {state : TxnState} {es : List JournalEntry}
    (h : d.transactionState = .ok state) (hread : d.readJournal = .ok es) :
    state.phase.atRest = true ↔ ∀ p, lastIntent es = some p → p.atRest = true := by
  obtain ⟨es', version, hread', -, -, hphase⟩ := transactionState_ok h
  rw [hread, Except.ok.injEq] at hread'
  rw [hphase, ← hread']
  cases lastIntent es with
  | none => simp [Phase.atRest]
  | some p => simp

/-- Where the error of a transaction state comes from. -/
theorem transactionState_error_cases {d : Disk} {e : Error} (h : d.transactionState = .error e) :
    d.readJournal = .error e ∨ (∃ place, d.version place = .error e) ∨
      e = .invalid "TXN_STATE_INCONSISTENT: in-flight phase has no experiment" := by
  have hflight : ∀ f : String → TxnState, inFlight d f = .error e →
      (∃ place, d.version place = .error e) ∨
        e = .invalid "TXN_STATE_INCONSISTENT: in-flight phase has no experiment" := by
    intro f hf
    unfold inFlight at hf
    cases hx : d.version .experiment with
    | error err =>
        simp only [hx, Except.error.injEq] at hf
        exact .inl ⟨.experiment, hf ▸ hx⟩
    | ok version =>
        cases version with
        | none =>
            simp only [hx, Except.error.injEq] at hf
            exact .inr hf.symm
        | some experiment => simp [hx] at hf
  unfold Disk.transactionState at h
  cases hj : d.readJournal with
  | error err =>
      simp only [hj, Except.error.injEq] at h
      exact .inl (congrArg Except.error h)
  | ok entries =>
      right
      cases hs : d.version .stable with
      | error err =>
          simp only [hj, hs, Except.error.injEq] at h
          exact .inl ⟨.stable, h ▸ hs⟩
      | ok version =>
          simp only [hj, hs] at h
          cases hl : entries.getLast? with
          | none => simp [hl, Disk.stateAfter] at h
          | some last =>
              simp only [hl, Disk.stateAfter] at h
              cases hi : last.intent with
              | idle => simp [hi] at h
              | promoted => simp [hi] at h
              | rolledBack => simp [hi] at h
              | staged => exact hflight _ (by simpa [hi] using h)
              | handingOver => exact hflight _ (by simpa [hi] using h)
              | runningExperiment => exact hflight _ (by simpa [hi] using h)
              | readback => exact hflight _ (by simpa [hi] using h)

/-- A state that was rolled back has its reason from the last entry. -/
theorem transactionState_rolledBack {d : Disk} {es : List JournalEntry} {stable : String}
    {reason : Option String} (h : d.transactionState = .ok (.rolledBack stable reason))
    (hread : d.readJournal = .ok es) : ∃ last, es.getLast? = some last ∧
      last.intent = .rolledBack ∧ last.detail.get "reason" = reason := by
  unfold Disk.transactionState at h
  rw [hread] at h
  cases hv : d.version .stable with
  | error e => simp [hv] at h
  | ok version =>
      simp only [hv] at h
      cases hlast : es.getLast? with
      | none => simp [hlast, Disk.stateAfter] at h
      | some last =>
          refine ⟨last, rfl, ?_⟩
          simp only [hlast, Disk.stateAfter, inFlight] at h
          cases hi : last.intent with
          | rolledBack =>
              simp only [hi, Except.ok.injEq, TxnState.rolledBack.injEq] at h
              exact ⟨rfl, h.2⟩
          | idle | promoted => simp [hi] at h
          | staged | handingOver | runningExperiment | readback =>
              simp only [hi] at h
              cases hexp : d.version .experiment with
              | error e => simp [hexp] at h
              | ok experiment => cases experiment <;> simp [hexp] at h

/-- At rest the transaction state can be read. -/
theorem transactionState_of_atRest {d : Disk} {entries : List JournalEntry}
    {version : Option String} (hj : d.readJournal = .ok entries)
    (hv : d.version .stable = .ok version)
    (hrest : ∀ p, lastIntent entries = some p → p.atRest = true) :
    ∃ state, d.transactionState = .ok state := by
  unfold Disk.transactionState
  rw [hj, hv]
  exact stateAfter_atRest hrest

end KCarrier
