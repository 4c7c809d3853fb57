import KCarrier.Engine.Words
import KCarrier.Runner.Steps

/-!
# KCarrier.Runner.Budget

How long the texts get that a call may show in its response.

A response shows an operation record, its reason and the text of an error.  All three come
from outside: what the directory has in it, what the host and the product answer.  A
`Budget` bounds each of the three, `Budget.Terms` says what a call may be given for them to
stay within it, and every program of the runner keeps to that (`Terms.Holds`).
-/

namespace KCarrier

open Crash
open Running

/-- Bytes, as JSON writes them, for what no transition changes of a record, for a reason, and
for the text of an error.  The texts of the program's own fit. -/
structure Budget where
  record : Nat
  reason : Nat
  error : Nat
  record_le : 256 ≤ record
  reason_le : 96 ≤ reason
  error_le : 96 ≤ error

namespace Budget

/-- The text may be recorded as a reason. -/
def Reason (B : Budget) (text : String) : Prop := quoted text ≤ B.reason

/-- The record may be shown. -/
structure Record (B : Budget) (op : Operation) : Prop where
  typed : op.Typed
  frame : op.frame ≤ B.record
  reason : nullableLength quoted op.reason ≤ B.reason

/-- The error may be told: by its text, or by the record it replays. -/
structure Tells (B : Budget) (err : Error) : Prop where
  text : err.NotReplay → quoted err.message ≤ B.error
  replayed : ∀ op, err = .replay op → B.Record op ∧ op.validate = .ok ()

/-- An upgrade to `targetVersion` may be shown the evidence, and refuse it. -/
def Shows (B : Budget) (targetVersion : String) (evidence : Evidence) : Prop :=
  B.Reason
    s!"predicates refused: live process reports {evidence.version}, expected {targetVersion}"

variable {B : Budget}

/-- An error of its own may be told if its text is short enough. -/
theorem tells_of_message {err : Error} (hown : err.NotReplay)
    (h : quoted err.message ≤ B.error) : B.Tells err :=
  ⟨fun _ => h, fun op heq => absurd heq (hown op)⟩

/-- So may one that says a text. -/
theorem tells_invalid {message : String} (h : quoted message ≤ B.error) :
    B.Tells (.invalid message) := tells_of_message nofun h

/-- A call and what it is given: the versions that are found in the slots, and what the product
and the host keep of their states. -/
structure Terms (B : Budget) (η γ : Type) where
  runner : Runner η γ
  request : Request
  version : String → Prop
  product : γ → Prop
  host : η → Prop

namespace Terms

variable {η γ : Type} (T : B.Terms η γ)

/-- The error may end the call; an upgrade may also record it, and quotes that of a probe. -/
structure Fatal (err : Error) : Prop extends B.Tells err where
  failed : T.request.isUpgrade = true →
    B.Reason s!"experiment probe failed: {err.message}"

/-- The version may be in the stable slot: a settlement names it, and an upgrade opens its record
on it. -/
structure Stable (version : String) : Prop where
  settled : ∀ phase : Phase,
    B.Reason s!"recovery settled at {phase.debugName} with stable {version}"
  opened : ∀ v id targetVersion consented desc started now,
    T.request = .upgrade v id targetVersion consented → started < 2 ^ 64 →
    (Runner.requestOptions id consented started).operation = some desc →
    (Runner.newOperation desc (Runner.requestOptions id consented started) (some targetVersion)
      version now).frame ≤ B.record

/-- The versions that are found in the slots when an upgrade has staged its own. -/
def Found (version : String) : Prop :=
  T.version version ∨ ∃ v id targetVersion consented,
    T.request = .upgrade v id targetVersion consented ∧ version = trim targetVersion

/-- What the directory may say. -/
structure Files (V : String → Prop) (d : Disk) : Prop where
  record : ∀ op, d.readOperation = .observed op → B.Record op
  recordUnreadable : ∀ reason, d.readOperation = .unreadable reason →
    quoted reason ≤ B.record ∧ quoted reason ≤ B.error
  receipt : ∀ id op, d.readArchive T.runner.store.digest id = .observed op → B.Record op
  receiptUnreadable : ∀ id reason,
    d.readArchive T.runner.store.digest id = .unreadable reason → quoted reason ≤ B.error
  journal : ∀ err, d.readJournal = .error err → T.Fatal err
  last : ∀ entries entry text, d.readJournal = .ok entries → entries.getLast? = some entry →
    entry.detail.get "reason" = some text → B.Reason text
  slot : ∀ place err, d.version place = .error err → T.Fatal err
  version : ∀ place version, d.version place = .ok (some version) → V version
  provenance : ∀ reason, d.readProvenance = .error reason →
    quoted s!"PROVENANCE_HISTORY_UNREADABLE: {reason}" ≤ B.error
  incoming : ∀ err, d.incoming.read = .error err → T.Fatal err

/-- What the host may answer in a state it keeps. -/
structure Answers (h : Host η) : Prop where
  fence : Obeys T.Fatal T.host (fun _ => True) h.fence
  quiesce : Obeys T.Fatal T.host (fun _ => True) h.quiesce
  stop : ∀ slot, Obeys T.Fatal T.host (fun _ => True) (h.stop slot)
  start : ∀ slot, Obeys T.Fatal T.host (fun _ => True) (h.start slot)
  resume : Obeys T.Fatal T.host (fun _ => True) h.resume

/-- What an upgrade to `targetVersion` may be answered. -/
structure Upgrades (targetVersion : String) : Prop where
  probe : ∀ disk, T.Files T.Found disk → Obeys T.Fatal T.host
    (fun reply => ∀ evidence, reply = some evidence → B.Shows targetVersion evidence)
    (T.runner.host disk).probe
  fetch : ∀ context, Obeys T.Fatal T.product (fun _ => True)
    (T.runner.source.fetch targetVersion context)
  compatibility : ∀ current, Obeys B.Tells T.product
    (fun reply => ∀ text, reply = some text → B.Reason text)
    (T.runner.hooks.compatibility current targetVersion)
  prepareCandidate : ∀ path release, Obeys T.Fatal T.product (fun _ => True)
    (T.runner.hooks.prepareCandidate path release)
  notify : ∀ kind detail, Obeys B.Tells T.product (fun _ => True)
    (T.runner.hooks.notify kind detail)
  downloader : ∀ release, Obeys B.Tells T.product (fun _ => True) (T.runner.downloader release)
  surface : ∀ surface ∈ T.runner.surfaces, Keeps T.product surface.read ∧
    B.Reason s!"predicates refused: lifecycle surface {surface.id} did not converge"

/-- What the call may come to. -/
structure Allows (w : World η γ) : Prop where
  clock : ∀ n, T.runner.clock n < 2 ^ 64
  files : T.Files T.version w.disk
  stable : ∀ version, T.version version ∨ version = "0.0.0" → T.Stable version
  lock : ∀ pid, w.lock = .held pid → B.Tells (.locked pid)
  faults : T.runner.store.Fails T.Fatal
  host : T.host w.host
  product : T.product w.product
  answers : ∀ disk, T.Files T.Found disk → T.Answers (T.runner.host disk)
  upgrades : ∀ v id targetVersion consented,
    T.request = .upgrade v id targetVersion consented → T.Upgrades targetVersion

/-- What the programs of the call keep. -/
structure Holds (V : String → Prop) (w : World η γ) : Prop where
  files : T.Files V w.disk
  host : T.host w.host
  product : T.product w.product

variable {T}

/-! ## short texts -/

/-- A text of up to 64 bytes may be recorded. -/
theorem reason_brief {text : String} (h : quoted text ≤ 64) : B.Reason text :=
  Nat.le_trans h (Nat.le_trans (by omega) B.reason_le)

/-- A short error may end the call, and be quoted. -/
theorem fatal_brief {err : Error} (h : err.Brief) : T.Fatal err where
  text _ := Nat.le_trans h.short (Nat.le_trans (by omega) B.error_le)
  replayed op heq := absurd heq (h.own op)
  failed _ := by
    have hsplit := quoted_append "experiment probe failed: " err.message
    have hprefix : quoted "experiment probe failed: " = 27 := by decide
    have hshort := h.short
    have hroom := B.reason_le
    show quoted ("experiment probe failed: " ++ err.message) ≤ B.reason
    omega

/-- So may one that says a text of up to 64 bytes. -/
theorem fatal_invalid {message : String} (h : quoted message ≤ 64) : T.Fatal (.invalid message) :=
  fatal_brief (Error.brief_invalid h)

/-- A text that is quoted is shorter than the quotation. -/
theorem Fatal.reason {err : Error} (h : T.Fatal err)
    (hupgrade : T.request.isUpgrade = true) : B.Reason err.message := by
  have hsplit := quoted_append "experiment probe failed: " err.message
  have hprefix : quoted "experiment probe failed: " = 27 := by decide
  have hquoted : quoted ("experiment probe failed: " ++ err.message) ≤ B.reason :=
    h.failed hupgrade
  show quoted err.message ≤ B.reason
  omega

/-- What a record is refused with is short. -/
theorem operation_validate_brief {op : Operation} {err : Error} (h : op.validate = .error err) :
    err.Brief := by
  unfold Operation.validate at h
  split at h
  · cases h
    exact Error.brief_invalid (by decide)
  · cases h

/-- What a list of surfaces is refused with is short. -/
theorem new_brief {σ : Type} {surfaces : List (ReadbackSurface σ)} {expectedTarget : String}
    {clock : σ → Nat} {err : Error} (h : Convergence.new surfaces expectedTarget clock = .error err) :
    err.Brief := by
  have hcheck : ∀ (seen : List String) (rest : List (ReadbackSurface σ)) (err : Error),
      Convergence.checkSurfaces seen rest = .error err → err.Brief := by
    intro seen rest
    induction rest generalizing seen with
    | nil => exact nofun
    | cons s rest ih =>
        intro err he
        rw [Convergence.checkSurfaces] at he
        split at he
        · cases he
          exact Error.brief_invalid (by decide)
        · exact ih _ err he
  unfold Convergence.new at h
  split at h
  · cases h
  · next err' he =>
      cases h
      exact hcheck _ _ _ he

/-- That a file is not there is short. -/
theorem notFound_brief : notFound.Brief := ⟨nofun, by decide⟩

/-! ## the directory -/

/-- A record reads as itself, or as nothing but short words. -/
theorem readOperationFile_content (op : Operation) :
    readOperationFile (.content op) = .observed op ∨
      ∃ reason, readOperationFile (.content op) = .unreadable reason ∧ quoted reason ≤ 64 := by
  cases hv : op.validate with
  | ok u =>
      left
      simp [readOperationFile, hv]
  | error err =>
      right
      unfold Operation.validate at hv
      split at hv
      · next hshape =>
          cases hv
          refine ⟨_, ?_, (by decide : quoted ("cannot read K receipt: " ++
            "operation record has an invalid shape") ≤ 64)⟩
          simp only [readOperationFile, Operation.validate, if_pos hshape]
          rfl
      · cases hv

/-- What is found in a slot. -/
def Slots (T : B.Terms η γ) (V : String → Prop) (node : Node) : Prop :=
  ∀ (d : Disk) (place : Place), d.slots place = node →
    (∀ err, d.version place = .error err → T.Fatal err) ∧
      ∀ version, d.version place = .ok (some version) → V version

variable {V : String → Prop} {d : Disk}

/-- Nothing is found in a slot that is not there. -/
theorem slots_absent : T.Slots V .absent := by
  intro d place h
  have hversion : d.version place = .ok none := by
    unfold Disk.version
    rw [h]
  exact ⟨fun err he => by simp [hversion] at he, fun version hv => by simp [hversion] at hv⟩

/-- A directory with a version that can be read and an artifact. -/
theorem slots_complete {version : String} {bytes : Bytes} (hV : V (trim version)) :
    T.Slots V (.dir ⟨.content version, .content bytes⟩) := by
  intro d place h
  unfold Disk.version
  rw [h]
  simp only [File.read]
  split
  · refine ⟨fun err he => ?_, nofun⟩
    cases he
    exact fatal_invalid (by decide)
  · refine ⟨nofun, fun v hv => ?_⟩
    cases hv
    exact hV

/-- A directory without a version. -/
theorem slots_unversioned (artifact : File Bytes) : T.Slots V (.dir ⟨.absent, artifact⟩) := by
  intro d place h
  unfold Disk.version
  rw [h]
  refine ⟨fun err he => ?_, nofun⟩
  cases he
  exact fatal_brief notFound_brief

/-- What is left of a directory says nothing new. -/
theorem slots_debris {slot : SlotDir} (h : T.Slots V (.dir slot)) (keep : Bool × Bool) :
    T.Slots V (.dir (FileStore.SlotDir.debris slot keep)) := by
  obtain ⟨keepVersion, keepArtifact⟩ := keep
  cases keepVersion with
  | false => exact slots_unversioned _
  | true =>
      cases keepArtifact with
      | true => exact h
      | false =>
          intro d place hslot
          have hold := h (d.setSlot place (.dir slot)) place (Disk.setSlot_self _ _ _)
          have hdebris : FileStore.SlotDir.debris slot (true, false) = ⟨slot.version, .absent⟩ := rfl
          unfold Disk.version at hold ⊢
          rw [hslot, hdebris]
          rw [Disk.setSlot_self] at hold
          cases hread : slot.version.read with
          | error err =>
              simp only [hread] at hold ⊢
              exact ⟨hold.1, nofun⟩
          | ok text =>
              simp only [hread]
              refine ⟨fun err he => ?_, fun version hv => ?_⟩
              · split at he
                · cases he
                  exact fatal_invalid (by decide)
                · cases he
                  exact fatal_brief notFound_brief
              · split at hv <;> cases hv

namespace Files

/-- What may be found in a slot of the directory, wherever it is moved. -/
theorem slots (h : T.Files V d) (place : Place) : T.Slots V (d.slots place) := by
  intro d' place' hslot
  have hversion : d'.version place' = d.version place := Disk.version_congr hslot
  rw [hversion]
  exact ⟨h.slot place, h.version place⟩

/-- A slot is replaced. -/
theorem setSlot (h : T.Files V d) (place : Place) {node : Node} (hnode : T.Slots V node) :
    T.Files V (d.setSlot place node) := by
  have hslots : ∀ p, (∀ err, (d.setSlot place node).version p = .error err → T.Fatal err) ∧
      ∀ version, (d.setSlot place node).version p = .ok (some version) → V version := by
    intro p
    by_cases hp : p = place
    · exact hnode _ p (by rw [hp, Disk.setSlot_self])
    · exact h.slots p _ p (Disk.setSlot_of_ne d node hp)
  exact { h with
    slot := fun p => (hslots p).1
    version := fun p => (hslots p).2 }

/-- The record is replaced. -/
theorem recorded (h : T.Files V d) {op : Operation} (hop : B.Record op) :
    T.Files V { d with operation := .content op } := by
  refine { h with record := fun op' hread => ?_, recordUnreadable := fun reason hread => ?_ }
  · obtain ⟨hfile, -⟩ := Disk.readOperation_observed_iff.mp hread
    cases hfile
    exact hop
  · have hbrief : quoted reason ≤ 64 := by
      rcases readOperationFile_content op with hobserved | ⟨_, hunreadable, hshort⟩
      · cases hobserved.symm.trans hread
      · cases hunreadable.symm.trans hread
        exact hshort
    have hrecord := B.record_le
    have herror := B.error_le
    omega

/-- A receipt is archived. -/
theorem archived (h : T.Files V d) {op : Operation} (hop : B.Record op) (name : String) :
    T.Files V { d with receipts := fun n => if n = name then .content op else d.receipts n } := by
  let digest := T.runner.store.digest
  let d' : Disk := { d with receipts := fun n => if n = name then .content op else d.receipts n }
  have herror := B.error_le
  have hread : ∀ id, d'.readArchive digest id = d.readArchive digest id ∨
      d'.readArchive digest id = .observed op ∨
        ∃ reason, d'.readArchive digest id = .unreadable reason ∧ quoted reason ≤ 64 := by
    intro id
    by_cases hid : digest id = name
    · right
      have hfile : d'.receipts (digest id) = .content op := if_pos hid
      unfold Disk.readArchive
      rw [hfile]
      rcases readOperationFile_content op with hobserved | ⟨reason, hunreadable, hshort⟩
      · rw [hobserved]
        dsimp only
        split
        · exact .inr ⟨_, rfl, by decide⟩
        · exact .inl rfl
      · rw [hunreadable]
        exact .inr ⟨reason, rfl, hshort⟩
    · left
      have hfile : d'.receipts (digest id) = d.receipts (digest id) := if_neg hid
      unfold Disk.readArchive
      rw [hfile]
  refine { h with receipt := fun id op' heq => ?_, receiptUnreadable := fun id reason heq => ?_ }
  · rcases hread id with hold | hnew | ⟨_, hnew, -⟩
    · exact h.receipt id op' (hold.symm.trans heq)
    · cases hnew.symm.trans heq
      exact hop
    · cases hnew.symm.trans heq
  · rcases hread id with hold | hnew | ⟨_, hnew, hshort⟩
    · exact h.receiptUnreadable id reason (hold.symm.trans heq)
    · cases hnew.symm.trans heq
    · cases hnew.symm.trans heq
      omega

/-- The journal is replaced by one that says nothing new. -/
theorem journaled (h : T.Files V d) {file : Lines JournalEntry}
    (herror : ∀ err, readLines checkEntry none file.lines = .error err → T.Fatal err)
    (hlast : ∀ entries entry text, readLines checkEntry none file.lines = .ok entries →
      entries.getLast? = some entry → entry.detail.get "reason" = some text → B.Reason text) :
    T.Files V { d with journal := .content file } :=
  { h with
    journal := herror
    last := hlast }

/-- The provenance is replaced by one that says nothing new. -/
theorem provenanced (h : T.Files V d) {file : Lines ProvenanceEntry}
    (hp : ∀ err, readLines checkProvenance none file.lines = .error err →
      quoted s!"PROVENANCE_HISTORY_UNREADABLE: {err.message}" ≤ B.error) :
    T.Files V { d with provenance := .content file } := by
  refine { h with provenance := fun reason hread => ?_ }
  simp only [Disk.readProvenance] at hread
  split at hread
  · cases hread
  · next err herr =>
      cases hread
      exact hp err herr

/-- The lines of a journal are read as the journal is, or there are none. -/
theorem linesOf_read (d : Disk) :
    readLines checkEntry none (FileStore.Disk.linesOf d).lines = d.readJournal ∨
      readLines checkEntry none (FileStore.Disk.linesOf d).lines = .ok [] := by
  unfold Disk.readJournal FileStore.Disk.linesOf
  cases d.journal with
  | absent => exact .inr rfl
  | unreadable message => exact .inr rfl
  | content file => exact .inl rfl

/-- An unterminated tail is written or dropped. -/
theorem torn (h : T.Files V d) (torn : Bool) :
    T.Files V { d with journal := .content ⟨(FileStore.Disk.linesOf d).lines, torn⟩ } := by
  rcases linesOf_read d with hread | hread
  · refine h.journaled (fun err he => ?_) fun entries entry text hok => ?_
    · exact h.journal err (hread.symm.trans he)
    · exact h.last entries entry text (hread.symm.trans hok)
  · refine h.journaled (fun err he => ?_) fun entries entry text hok hentry => ?_
    · cases hread.symm.trans he
    · cases hread.symm.trans hok
      cases hentry

/-- What an entry out of order is refused with is short. -/
theorem checkEntry_brief {last : Option JournalEntry} {entry : JournalEntry} {err : Error}
    (h : checkEntry last entry = .error err) : err.Brief := by
  unfold checkEntry JournalEntry.validate at h
  split at h
  · next hv =>
      cases h
      split at hv
      · cases hv
        exact Error.brief_invalid (by decide)
      · cases hv
  · split at h
    · cases h
      exact Error.brief_invalid (by decide)
    · cases h

/-- One more entry of the journal. -/
theorem appended (h : T.Files V d) {entry : JournalEntry}
    (hentry : ∀ text, entry.detail.get "reason" = some text → B.Reason text) :
    T.Files V { d with
      journal := .content ⟨(FileStore.Disk.linesOf d).lines ++ [.entry entry], false⟩ } := by
  refine h.journaled (fun err he => ?_) fun entries last text hok hlast htext => ?_
  · rcases readLines_concat_cases none (FileStore.Disk.linesOf d).lines entry with
      ⟨e, hlines, hread⟩ | ⟨_, e, hcheck, hread⟩ | ⟨es, hread⟩
    · cases hread.symm.trans he
      exact (h.torn false).journal err hlines
    · cases hread.symm.trans he
      exact fatal_brief (checkEntry_brief hcheck)
    · cases hread.symm.trans he
  · rcases readLines_concat_cases none (FileStore.Disk.linesOf d).lines entry with
      ⟨e, hlines, hread⟩ | ⟨_, e, hcheck, hread⟩ | ⟨es, hread⟩
    · cases hread.symm.trans hok
    · cases hread.symm.trans hok
    · cases hread.symm.trans hok
      rw [List.getLast?_concat, Option.some.injEq] at hlast
      exact hentry text (hlast ▸ htext)

/-- A file the store is given may be unreadable. -/
theorem file (h : T.Files V d) (path : Path) {err : Error} (he : (d.file path).read = .error err) :
    T.Fatal err := by
  unfold Disk.file at he
  split at he
  · exact h.incoming err he
  · cases he
    exact fatal_brief notFound_brief

/-- So may either slot. -/
theorem versions (h : T.Files V d) {err : Error} (he : d.versions = .error err) :
    T.Fatal err := by
  unfold Disk.versions at he
  cases hs : d.version .stable with
  | error err' =>
      simp only [hs, Except.error.injEq] at he
      exact he ▸ h.slot .stable err' hs
  | ok stable =>
      cases hx : d.version .experiment with
      | error err' =>
          simp only [hs, hx, Except.error.injEq] at he
          exact he ▸ h.slot .experiment err' hx
      | ok experiment => simp [hs, hx] at he

/-- What the lines of the provenance are refused with may be told. -/
theorem provenanceLines_error (h : T.Files V d) {err : Error}
    (he : readLines checkProvenance none (FileStore.Disk.provenanceLines d) = .error err) :
    quoted s!"PROVENANCE_HISTORY_UNREADABLE: {err.message}" ≤ B.error := by
  refine h.provenance err.message ?_
  unfold FileStore.Disk.provenanceLines at he
  unfold Disk.readProvenance
  cases hfile : d.provenance with
  | absent =>
      rw [hfile] at he
      cases he
  | unreadable message =>
      rw [hfile] at he
      cases he
  | content file =>
      rw [hfile] at he
      simp only [he]

/-- An unterminated tail of the provenance is written or dropped. -/
theorem provenance_torn (h : T.Files V d) (torn : Bool) :
    T.Files V { d with provenance := .content ⟨FileStore.Disk.provenanceLines d, torn⟩ } :=
  h.provenanced fun _ he => h.provenanceLines_error he

/-- One more entry of the provenance. -/
theorem provenance_appended (h : T.Files V d) (entry : ProvenanceEntry) :
    T.Files V { d with
      provenance := .content ⟨FileStore.Disk.provenanceLines d ++ [.entry entry], false⟩ } := by
  refine h.provenanced fun err he => ?_
  rcases readLines_concat_cases none (FileStore.Disk.provenanceLines d) entry with
    ⟨e, hlines, hread⟩ | ⟨last, e, hcheck, hread⟩ | ⟨es, hread⟩
  · cases hread.symm.trans he
    exact h.provenanceLines_error hlines
  · cases hread.symm.trans he
    unfold checkProvenance at hcheck
    split at hcheck
    · cases hcheck
      have hshort : quoted ("PROVENANCE_HISTORY_UNREADABLE: " ++ "PROVENANCE_SEQ_REWRITE") ≤ 96 := by
        decide
      exact Nat.le_trans hshort B.error_le
    · cases hcheck
  · cases hread.symm.trans he

end Files

/-! ## the store -/

section Store

variable {α : Type}

/-- More versions may be found. -/
theorem Files.mono {V' : String → Prop} (h : T.Files V d)
    (hV : ∀ version, V version → V' version) : T.Files V' d :=
  { h with version := fun place version hv => hV version (h.version place version hv) }

/-- What holds of the slots that were found holds when another is staged. -/
theorem Holds.loose {w : World η γ} (h : T.Holds T.version w) : T.Holds T.Found w :=
  ⟨h.files.mono fun _ => .inl, h.host, h.product⟩

/-- The boundaries passed tell nothing. -/
theorem holds_off_tick : OffTick (T.Holds V) := fun _ _ h => ⟨h.files, h.host, h.product⟩

/-- A read of the directory, by what the read itself may give. -/
theorem readDisk_obeys {p : Error → Prop} {q : α → Prop} {read : Disk → Except Error α}
    (hok : ∀ d a, T.Files V d → read d = .ok a → q a)
    (herr : ∀ d err, T.Files V d → read d = .error err → p err) :
    Obeys p (T.Holds V) q (FileStore.readDisk read) :=
  FileStore.readDisk_triple (fun a _ hw h => ⟨hok _ a hw.files h, hw⟩) fun err _ hw h =>
    ⟨kind_some.mpr (herr _ err hw.files h), hw⟩

/-- A note tells nothing. -/
theorem note_obeys {p : Error → Prop} (entry : Note) :
    Obeys p (T.Holds V) (fun _ => True) (FileStore.note entry) :=
  Obeys.modify fun _ hw => ⟨hw.files, hw.host, hw.product⟩

variable (hfaults : T.runner.store.Fails T.Fatal)
include hfaults

/-- A boundary may fail as the store does. -/
theorem boundary_obeys (label : String) :
    Obeys T.Fatal (T.Holds V) (fun _ => True) (T.runner.store.boundary label) :=
  Obeys.of_keeps ((FileStore.boundary_triple (fun _ => trivial) holds_off_tick label).crash
    fun _ h => h.1) (FileStore.boundary_raises hfaults label)

/-- A write that leaves the directory within its terms. -/
theorem write_obeys (label : String) {f : Disk → Disk}
    (hf : ∀ d, T.Files V d → T.Files V (f d)) :
    Obeys T.Fatal (T.Holds V) (fun _ => True) (T.runner.store.write label f) := by
  unfold FileStore.write
  refine (boundary_obeys hfaults _).bind fun _ _ => ?_
  refine Obeys.bind (r := fun _ => True) ?_ fun _ _ => boundary_obeys hfaults _
  exact Obeys.modify fun w hw => ⟨hf _ hw.files, hw.host, hw.product⟩

/-- `remove_dir`: a slot goes in two steps. -/
theorem removeDir_obeys (place : Place) :
    Obeys T.Fatal (T.Holds V) (fun _ => True) (T.runner.store.removeDir place) := by
  unfold FileStore.removeDir
  refine Obeys.get_bind fun w hw => ?_
  have hslots := hw.files.slots place
  cases hslot : w.disk.slots place with
  | absent => exact Obeys.pure trivial
  | other => exact Obeys.throw (fatal_invalid (by decide))
  | dir slot =>
      rw [hslot] at hslots
      refine (write_obeys hfaults _ fun d hd => ?_).bind fun _ _ => ?_
      · exact hd.setSlot place (slots_debris hslots _)
      · exact write_obeys hfaults _ fun d hd => hd.setSlot place slots_absent

/-- A slot takes the place of another. -/
theorem renameDurable_obeys (source target : Place) :
    Obeys T.Fatal (T.Holds V) (fun _ => True) (T.runner.store.renameDurable source target) :=
  write_obeys hfaults _ fun _ hd =>
    (hd.setSlot target (hd.slots source)).setSlot source slots_absent

/-- `promote`: the experiment slot becomes the stable one. -/
theorem promote_obeys :
    Obeys T.Fatal (T.Holds V) (fun _ => True) T.runner.store.promote := by
  have hversion : ∀ place, Obeys T.Fatal (T.Holds V) (fun _ => True)
      (FileStore.readDisk (Disk.version · place)) := fun place =>
    readDisk_obeys (fun _ _ _ _ => trivial) fun d err hd he => hd.slot place err he
  unfold FileStore.promote
  refine (hversion _).bind fun experiment _ => ?_
  cases experiment with
  | none =>
      refine (hversion _).bind fun stable _ => ?_
      cases stable with
      | none => exact Obeys.throw (fatal_invalid (by decide))
      | some version => exact removeDir_obeys hfaults _
  | some version =>
      refine Obeys.get_bind fun w _ => Obeys.ite (fun _ => ?_) fun _ => ?_
      · refine (removeDir_obeys hfaults _).bind fun _ _ => ?_
        refine (renameDurable_obeys hfaults _ _).bind fun _ _ => ?_
        refine (renameDurable_obeys hfaults _ _).bind fun _ _ => ?_
        exact removeDir_obeys hfaults _
      · refine (renameDurable_obeys hfaults _ _).bind fun _ _ => ?_
        exact removeDir_obeys hfaults _

/-- A version is staged as its text without the space around it. -/
theorem stage_obeys {version : String} (hV : V (trim version)) (bytes : Path) :
    Obeys T.Fatal (T.Holds V) (fun _ => True) (T.runner.store.stage version bytes) := by
  have hpopulate : Obeys T.Fatal (T.Holds V) (fun _ => True)
      (T.runner.store.populate .experimentStaging version bytes) := by
    unfold FileStore.populate
    refine Obeys.ite (fun _ => Obeys.throw (fatal_invalid (by decide))) fun _ => ?_
    refine (removeDir_obeys hfaults _).bind fun _ _ => ?_
    refine (write_obeys hfaults _ fun d hd => hd.setSlot _ (slots_unversioned _)).bind fun _ _ => ?_
    refine Obeys.get_bind fun w hw => ?_
    have hsource : Obeys T.Fatal (T.Holds V) (fun _ => True)
        (Prog.ofExcept (w.disk.file bytes).read : Prog Error (World η γ) Bytes) :=
      Obeys.ofExcept (fun _ _ => trivial) fun err he => hw.files.file bytes he
    refine hsource.bind fun source _ => ?_
    refine (write_obeys hfaults _ fun d hd => hd.setSlot _ (slots_unversioned _)).bind fun _ _ => ?_
    refine (write_obeys hfaults _ fun d hd => hd.setSlot _ (slots_unversioned _)).bind fun _ _ => ?_
    exact write_obeys hfaults _ fun d hd => hd.setSlot _ (slots_complete hV)
  unfold FileStore.stage
  refine hpopulate.bind fun _ _ => ?_
  refine (removeDir_obeys hfaults _).bind fun _ _ => ?_
  exact renameDurable_obeys hfaults _ _

/-- `append` of the journal, by the reason in the entry. -/
theorem append_obeys {entry : JournalEntry}
    (hentry : ∀ text, entry.detail.get "reason" = some text → B.Reason text) :
    Obeys T.Fatal (T.Holds V) (fun _ => True) (T.runner.store.append entry) := by
  have hvalid : Obeys T.Fatal (T.Holds V) (fun _ => True)
      (Prog.ofExcept entry.validate : Prog Error (World η γ) Unit) := by
    refine Obeys.ofExcept (fun _ _ => trivial) fun err he => ?_
    unfold JournalEntry.validate at he
    split at he
    · cases he
      exact fatal_invalid (by decide)
    · cases he
  have hrepair : Obeys T.Fatal (T.Holds V) (fun _ => True) T.runner.store.repairTail := by
    unfold FileStore.repairTail
    refine Obeys.get_bind fun w hw => ?_
    cases hfile : w.disk.journal with
    | absent => exact Obeys.pure trivial
    | unreadable message => exact Obeys.pure trivial
    | content file =>
        have hlines : FileStore.Disk.linesOf w.disk = file := by
          simp [FileStore.Disk.linesOf, hfile]
        have htorn := hw.files.torn false
        rw [hlines] at htorn
        refine Obeys.ite (fun _ => write_obeys hfaults _ fun d hd => ?_) fun _ => Obeys.pure trivial
        exact hd.journaled htorn.journal htorn.last
  unfold FileStore.append
  refine hvalid.bind fun _ _ => ?_
  refine (readDisk_obeys (q := fun _ => True) (fun _ _ _ _ => trivial)
    fun d err hd he => hd.journal err he).bind fun prior _ => ?_
  refine Obeys.ite (fun _ => Obeys.throw (fatal_invalid (by decide))) fun _ => ?_
  refine hrepair.bind fun _ _ => ?_
  refine (write_obeys hfaults _ fun d hd => hd.torn true).bind fun _ _ => ?_
  exact write_obeys hfaults _ fun d hd => hd.appended hentry

/-- Recording an operation. -/
theorem persistOperation_obeys {op : Operation} (hop : B.Record op) :
    Obeys T.Fatal (T.Holds V) (fun _ => True) (T.runner.store.persistOperation op) := by
  unfold FileStore.persistOperation
  have hvalid : Obeys T.Fatal (T.Holds V) (fun _ => True)
      (Prog.ofExcept op.validate : Prog Error (World η γ) Unit) :=
    Obeys.ofExcept (fun _ _ => trivial) fun err he => fatal_brief (operation_validate_brief he)
  refine hvalid.bind fun _ _ => (boundary_obeys hfaults _).bind fun _ _ => ?_
  refine Obeys.bind (r := fun _ => True) ?_ fun _ _ => boundary_obeys hfaults _
  exact Obeys.modify fun w hw => ⟨hw.files.recorded hop, hw.host, hw.product⟩

/-- `archive`: the receipt of a settled record. -/
theorem archive_obeys {op : Operation} (hop : B.Record op) :
    Obeys B.Tells (T.Holds V) (fun _ => True) (T.runner.store.archive op) := by
  have hfatal : ∀ err, T.Fatal err → B.Tells err := fun _ h => h.toTells
  unfold FileStore.archive
  have hvalid : Obeys B.Tells (T.Holds V) (fun _ => True)
      (Prog.ofExcept op.validate : Prog Error (World η γ) Unit) :=
    Obeys.ofExcept (fun _ _ => trivial) fun err he =>
      hfatal _ (fatal_brief (operation_validate_brief he))
  refine hvalid.bind fun _ _ => ?_
  refine Obeys.ite (fun _ => Obeys.throw (hfatal _ (fatal_invalid (by decide)))) fun _ => ?_
  refine Obeys.get_bind fun w hw => ?_
  cases hread : w.disk.readArchive T.runner.store.digest op.id with
  | unreadable reason =>
      exact Obeys.throw (tells_invalid (hw.files.receiptUnreadable op.id reason hread))
  | observed existing =>
      refine Obeys.ite (fun _ => ?_) fun _ => Obeys.pure trivial
      exact (note_obeys _).bind fun _ _ => Obeys.throw (hfatal _ (fatal_invalid (by decide)))
  | genesis =>
      refine Obeys.mono ?_ hfatal fun _ h => h
      unfold FileStore.writeReceipt
      refine (boundary_obeys hfaults _).bind fun _ _ => ?_
      refine Obeys.bind (r := fun _ => True) ?_ fun _ _ => boundary_obeys hfaults _
      exact Obeys.modify fun w hw => ⟨hw.files.archived hop _, hw.host, hw.product⟩

/-- An entry of the provenance. -/
theorem appendProvenance_obeys (identity : Provenance) (version : String) (explicit : Option Nat)
    (now : Nat) : Obeys B.Tells (T.Holds V) (fun _ => True)
      (T.runner.store.appendProvenanceAt identity version explicit now) := by
  have hfatal : ∀ err, T.Fatal err → B.Tells err := fun _ h => h.toTells
  have hwrite : ∀ label (f : Disk → Disk), (∀ d, T.Files V d → T.Files V (f d)) →
      Obeys B.Tells (T.Holds V) (fun _ => True) (T.runner.store.write label f) :=
    fun label f hf => (write_obeys hfaults label hf).mono hfatal fun _ h => h
  unfold FileStore.appendProvenanceAt
  refine Obeys.get_bind fun w hw => ?_
  cases hread : w.disk.readProvenance with
  | error reason => exact Obeys.throw (tells_invalid (hw.files.provenance reason hread))
  | ok entries =>
      refine Obeys.ite (fun _ => Obeys.throw (hfatal _ (fatal_invalid (by decide)))) fun _ => ?_
      refine (hwrite _ _ fun d hd => ?_).bind fun _ _ => ?_
      · cases hfile : d.provenance with
        | absent => exact hd
        | unreadable message => exact hd
        | content file =>
            have htorn := hd.provenance_torn false
            simp only [FileStore.Disk.provenanceLines, hfile] at htorn
            exact htorn
      · refine (hwrite _ _ fun d hd => hd.provenance_torn true).bind fun _ _ => ?_
        exact hwrite _ _ fun d hd => hd.provenance_appended _

end Store

end Terms

end Budget

end KCarrier
