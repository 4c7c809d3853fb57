import KCarrier.Storage
import KCarrier.Crash.Lines
import KCarrier.Crash.Triple

/-!
# KCarrier.Storage.Journal

The journal file byte by byte.

`readJournal` walks over the bytes and parses each slice between two newlines;
`append` looks for the last newline from the end, cuts the file off behind it, and
adds one line.  JSON comes from a library, so it is a parameter (`Codec`).  An append
may be cut off (`Cuts`) before or after it cuts the tail off, and after any number of
bytes of its line.

* `readJournal_eq` — the scan reads the complete lines, as `Disk.readJournal` does;
* `runAppends_read` — after any appends, however cut off, the journal reads as the
  entries whose newline reached the file;
* `readJournal_ok_iff` — what a file that reads without error holds.
-/

namespace KCarrier

open Crash

/-- `serde_json` at the type of the entries. -/
structure Codec where
  toVec : JournalEntry → Bytes
  fromSlice : Bytes → Except String JournalEntry

def newline : UInt8 := 10

def isAsciiWhitespace (b : UInt8) : Bool :=
  b = 32 || b = 9 || b = 10 || b = 12 || b = 13

namespace Codec

/-- What the carrier relies on for the entries it writes: an object on one line that
parses back. -/
structure Faithful (c : Codec) (entry : JournalEntry) : Prop where
  oneLine : newline ∉ c.toVec entry
  visible : (c.toVec entry).all isAsciiWhitespace = false
  parses : c.fromSlice (c.toVec entry) = .ok entry

/-- What a complete line stands for. -/
def line (c : Codec) (bytes : Bytes) : Line JournalEntry :=
  if bytes.all isAsciiWhitespace then
    .blank
  else
    match c.fromSlice bytes with
    | .ok entry => .entry entry
    | .error message => .corrupt message

/-- The lines of a file. -/
def lines (c : Codec) (bytes : Bytes) : Lines JournalEntry where
  lines := (complete newline bytes).map c.line
  torn := unfinished newline bytes ≠ []

end Codec

namespace JournalFile

/-! ## reading -/

/-- What the scan has found, and where the line it is in begins. -/
structure Scan where
  entries : List JournalEntry
  start : Nat

def Scan.step (c : Codec) (bytes : Bytes) (s : Scan) (i : Nat) (b : UInt8) : Except Error Scan :=
  if b ≠ newline then
    .ok s
  else
    let line := (bytes.take i).drop s.start
    if line.all isAsciiWhitespace then
      .ok { s with start := i + 1 }
    else
      match c.fromSlice line with
      | .error message => .error (.json message)
      | .ok e =>
          match checkEntry s.entries.getLast? e with
          | .error err => .error err
          | .ok () => .ok ⟨s.entries ++ [e], i + 1⟩

/-- The loop over the bytes from index `i` on. -/
def scan (c : Codec) (bytes : Bytes) : List UInt8 → Nat → Scan → Except Error Scan
  | [], _, s => .ok s
  | b :: rest, i, s =>
      match s.step c bytes i b with
      | .error err => .error err
      | .ok s' => scan c bytes rest (i + 1) s'

/-- `FileStore::read_journal`. -/
def readJournal (c : Codec) (file : File Bytes) : Except Error (List JournalEntry) :=
  match file with
  | .absent => .ok []
  | .unreadable message => .error (.io false message)
  | .content bytes =>
      match scan c bytes bytes 0 ⟨[], 0⟩ with
      | .error err => .error err
      | .ok s => .ok s.entries

/-! ## appending -/

end JournalFile

/-- The file, and the history of the entries whose newline reached it. -/
structure JournalFile where
  file : File Bytes
  reached : List JournalEntry

namespace JournalFile

def bytes (s : JournalFile) : Bytes :=
  match s.file with
  | .content bytes => bytes
  | _ => []

/-- Where an append fails or its worker dies: before it touches the file, around the
cut of the tail, before the file is opened for appending, after some bytes of the line
are written, or after all of them. -/
structure Cuts where
  before : Option (Fault Error)
  setLen : Option (Fault Error)
  afterSetLen : Option (Fault Error)
  opening : Option (Fault Error)
  written : Option (Nat × Fault Error)
  synced : Option (Fault Error)

/-- Nothing goes wrong. -/
def Cuts.none : Cuts := ⟨.none, .none, .none, .none, .none, .none⟩

/-- Cut the file off behind its last newline. -/
def repairTail (cuts : Cuts) : Prog Error JournalFile Unit := do
  let s ← Prog.get
  match s.file with
  | .content bytes =>
      let committed := completeEnd newline bytes
      if committed < bytes.length then do
        Prog.raise cuts.setLen
        Prog.modify fun s => { s with file := .content (bytes.take committed) }
        Prog.raise cuts.afterSetLen
      else
        pure ()
  | _ => pure ()

/-- The first `k` bytes of the line of `entry` reach the file. -/
def write (line : Bytes) (entry : JournalEntry) (k : Nat) (s : JournalFile) : JournalFile where
  file := .content (s.bytes ++ line.take k)
  reached := if line.length ≤ k then s.reached ++ [entry] else s.reached

def writeAll (cuts : Cuts) (line : Bytes) (entry : JournalEntry) : Prog Error JournalFile Unit :=
  match cuts.written with
  | some (k, fault) => do
      Prog.modify (write line entry k)
      Prog.raise (some fault)
  | none => do
      Prog.modify (write line entry line.length)
      Prog.raise cuts.synced

/-- `FileStore::append`. -/
def append (c : Codec) (cuts : Cuts) (entry : JournalEntry) : Prog Error JournalFile Unit := do
  Prog.ofExcept entry.validate
  Prog.raise cuts.before
  let s ← Prog.get
  let prior ← Prog.ofExcept (readJournal c s.file)
  if entry.seq ≠ seqAfter prior.getLast? then
    Prog.throw (.invalid "journal sequence discontinuity")
  else do
    repairTail cuts
    Prog.raise cuts.opening
    writeAll cuts (c.toVec entry ++ [newline]) entry

/-- One append after the other, whatever became of the ones before. -/
def runAppends (c : Codec) : List (JournalEntry × Cuts) → JournalFile → JournalFile
  | [], s => s
  | (entry, cuts) :: calls, s => runAppends c calls (append c cuts entry s).2

/-! ## the scan reads the complete lines -/

section

variable {c : Codec}

/-- The slice the scan parses at a newline is the unfinished line before it. -/
theorem slice_eq {pre rest : Bytes} :
    ((pre ++ newline :: rest).take pre.length).drop (completeEnd newline pre) =
      unfinished newline pre := by
  rw [List.take_left, drop_completeEnd]

/-- What the scan does at a newline, by the line that ends there. -/
theorem Scan.step_newline {bytes : Bytes} {s : Scan} {i : Nat} :
    s.step c bytes i newline =
      match c.line ((bytes.take i).drop s.start) with
      | .blank => .ok ⟨s.entries, i + 1⟩
      | .corrupt message => .error (.json message)
      | .entry e =>
          match checkEntry s.entries.getLast? e with
          | .error err => .error err
          | .ok () => .ok ⟨s.entries ++ [e], i + 1⟩ := by
  rw [Scan.step, if_neg (by simp), Codec.line]
  by_cases hblank : ((bytes.take i).drop s.start).all isAsciiWhitespace = true
  · rw [if_pos hblank, if_pos hblank]
  · rw [if_neg hblank, if_neg hblank]
    cases c.fromSlice ((bytes.take i).drop s.start) <;> rfl

/-- The scan from `pre` on: what it found so far are the entries of the lines of `pre`,
and it goes on as `readLines` does. -/
theorem scan_eq {bytes : Bytes} (rest pre : Bytes) (s : Scan) (hbytes : bytes = pre ++ rest)
    (hstart : s.start = completeEnd newline pre)
    (hread : readLines checkEntry none ((complete newline pre).map c.line) = .ok s.entries) :
    (scan c bytes rest pre.length s).map (·.entries) =
      readLines checkEntry none ((complete newline bytes).map c.line) := by
  induction rest generalizing pre s with
  | nil =>
      rw [hbytes, List.append_nil, hread]
      rfl
  | cons b rest ih =>
      have hnext : bytes = (pre ++ [b]) ++ rest := by simp [hbytes]
      have hlength : pre.length + 1 = (pre ++ [b]).length := by simp
      rw [scan]
      by_cases hb : b = newline
      · subst hb
        have hend : pre.length + 1 = completeEnd newline (pre ++ [newline]) := by
          rw [completeEnd_concat, if_pos rfl]
        have hslice : (bytes.take pre.length).drop s.start = unfinished newline pre := by
          rw [hbytes, hstart, slice_eq]
        -- the lines as far as the one that ends here, and all of them
        have hlines : (complete newline (pre ++ [newline])).map c.line =
            (complete newline pre).map c.line ++ [c.line (unfinished newline pre)] := by
          rw [complete_concat, if_pos rfl, List.map_append, List.map_singleton]
        have hprefix : complete newline (pre ++ [newline]) <+: complete newline bytes := by
          rw [hnext]
          exact complete_prefix
        obtain ⟨more, hmore⟩ := hprefix
        rw [Scan.step_newline, hslice]
        cases hl : c.line (unfinished newline pre) with
        | blank =>
            simp only [hlength]
            refine ih (pre ++ [newline]) ⟨s.entries, _⟩ hnext (hlength ▸ hend) ?_
            rw [hlines, hl, readLines_append, hread]
            simp [readLines]
        | corrupt message =>
            rw [← hmore, List.map_append, hlines, hl, readLines_append, readLines_append, hread]
            rfl
        | entry e =>
            simp only
            cases hcheck : checkEntry s.entries.getLast? e with
            | error err =>
                rw [← hmore, List.map_append, hlines, hl, readLines_append, readLines_append, hread]
                simp only [readLines, Option.or_none, hcheck]
                rfl
            | ok u =>
                simp only [hlength]
                refine ih (pre ++ [newline]) ⟨s.entries ++ [e], _⟩ hnext (hlength ▸ hend) ?_
                rw [hlines, hl]
                exact readLines_concat hread (by rw [Option.or_none, hcheck])
      · rw [Scan.step, if_pos hb]
        simp only [hlength]
        refine ih (pre ++ [b]) s hnext ?_ ?_
        · rw [hstart, completeEnd_concat, if_neg hb]
        · rw [complete_concat, if_neg hb, hread]

/-- A file reads as the complete lines it holds. -/
theorem readJournal_eq {bytes : Bytes} :
    readJournal c (.content bytes) = readLines checkEntry none (c.lines bytes).lines := by
  have hscan : (scan c bytes bytes 0 ⟨[], 0⟩).map (·.entries) =
      readLines checkEntry none (c.lines bytes).lines := scan_eq bytes [] ⟨[], 0⟩ rfl rfl rfl
  rw [← hscan, readJournal]
  cases scan c bytes bytes 0 ⟨[], 0⟩ <;> rfl

/-- Only the complete lines count. -/
theorem readJournal_congr {bytes bytes' : Bytes}
    (h : (c.lines bytes).lines = (c.lines bytes').lines) :
    readJournal c (.content bytes) = readJournal c (.content bytes') := by
  rw [readJournal_eq, readJournal_eq, h]

/-! ## the writes of an append, on the lines -/

/-- Cutting off the unfinished line leaves the lines. -/
theorem lines_take {bytes : Bytes} :
    c.lines (bytes.take (completeEnd newline bytes)) = ⟨(c.lines bytes).lines, false⟩ := by
  simp [Codec.lines, take_completeEnd]

/-- Bytes without a newline change no line. -/
theorem lines_append {bytes tail : Bytes} (h : newline ∉ tail) :
    (c.lines (bytes ++ tail)).lines = (c.lines bytes).lines := by
  simp only [Codec.lines, complete_append h]

/-- The line of an entry, behind complete lines. -/
theorem lines_append_entry {bytes : Bytes} {entry : JournalEntry} (hc : c.Faithful entry)
    (hwhole : unfinished newline bytes = []) :
    c.lines (bytes ++ (c.toVec entry ++ [newline])) =
      ⟨(c.lines bytes).lines ++ [.entry entry], false⟩ := by
  have hline : c.line (c.toVec entry) = .entry entry := by
    rw [Codec.line, if_neg (by simp [hc.visible]), hc.parses]
  simp only [Codec.lines, ← List.append_assoc, complete_append_line hc.oneLine, hwhole,
    List.nil_append, unfinished_append_line, List.map_append, List.map_singleton, hline]
  simp

/-- An entry read from a file that holds nothing but complete lines, and one line more. -/
theorem readJournal_line {bytes : Bytes} {es : List JournalEntry} {entry : JournalEntry}
    (hc : c.Faithful entry) (hread : readJournal c (.content bytes) = .ok es)
    (hwhole : unfinished newline bytes = []) (hcheck : checkEntry es.getLast? entry = .ok ()) :
    readJournal c (.content (bytes ++ (c.toVec entry ++ [newline]))) = .ok (es ++ [entry]) := by
  rw [readJournal_eq] at hread ⊢
  rw [lines_append_entry hc hwhole]
  exact readLines_concat hread (by rw [Option.or_none, hcheck])

/-! ## what an append does -/

/-- The file reads as the entries that reached it. -/
def Sound (c : Codec) (s : JournalFile) : Prop := readJournal c s.file = .ok s.reached

/-- The bytes up to the last newline. -/
def committed (s : JournalFile) : Bytes := s.bytes.take (completeEnd newline s.bytes)

theorem lines_committed {s : JournalFile} :
    c.lines s.committed = ⟨(c.lines s.bytes).lines, false⟩ := lines_take

theorem unfinished_committed {s : JournalFile} : unfinished newline s.committed = [] :=
  take_completeEnd.2

/-- A file that reads without error reads as its bytes. -/
theorem Sound.readBytes {s : JournalFile} (h : s.Sound c) :
    readJournal c (.content s.bytes) = .ok s.reached := by
  unfold Sound at h
  unfold bytes
  cases hf : s.file with
  | absent =>
      rw [hf] at h
      exact h
  | unreadable message =>
      rw [hf] at h
      cases h
  | content bytes =>
      rw [hf] at h
      exact h

/-- The file after a repair: the committed bytes, and nothing else. -/
structure Repaired (c : Codec) (s s' : JournalFile) : Prop where
  sound : s'.Sound c
  bytes : s'.bytes = s.committed
  reached : s'.reached = s.reached

/-- Wherever an append ended: what was committed before is still there, and the lines
are those between two writes of `FileStore.append`. -/
structure Kept (c : Codec) (entry : JournalEntry) (s s' : JournalFile) : Prop where
  sound : s'.Sound c
  committed : s.committed <+: s'.bytes
  lines : (c.lines s'.bytes).lines = (c.lines s.bytes).lines ∨
    c.lines s'.bytes = ⟨(c.lines s.bytes).lines ++ [.entry entry], false⟩

theorem Kept.refl {entry : JournalEntry} {s : JournalFile} (h : s.Sound c) : Kept c entry s s :=
  ⟨h, List.take_prefix _ _, .inl rfl⟩

theorem Repaired.kept {entry : JournalEntry} {s s' : JournalFile} (h : Repaired c s s') :
    Kept c entry s s' := by
  refine ⟨h.sound, ?_, .inl ?_⟩
  · simp only [h.bytes, List.prefix_rfl]
  · rw [h.bytes, lines_committed]

theorem repairTail_triple (cuts : Cuts) (entry : JournalEntry) {s : JournalFile} (h : s.Sound c) :
    Triple (· = s) (repairTail cuts) (fun _ => Repaired c s) (fun _ => Kept c entry s) := by
  unfold repairTail
  refine Triple.get_bind fun s' hs' => ?_
  subst hs'
  cases hf : s'.file with
  | absent =>
      refine Triple.pure ?_
      rintro _ rfl
      refine ⟨h, ?_, rfl⟩
      simp [committed, JournalFile.bytes, hf]
  | unreadable message =>
      rw [Sound, hf] at h
      cases h
  | content bytes =>
      have hb : s'.bytes = bytes := by rw [JournalFile.bytes, hf]
      refine Triple.ite (fun hlt => ?_) fun hge => ?_
      · have hrepaired : Repaired c s' { s' with file := .content s'.committed } := by
          refine ⟨?_, rfl, rfl⟩
          rw [Sound, ← h.readBytes]
          exact readJournal_congr (by rw [lines_committed])
        have hmodify : Triple (· = s')
            (Prog.modify fun t => { t with file := .content (bytes.take (completeEnd newline bytes)) } :
              Prog Error JournalFile Unit)
            (fun _ => Repaired c s') (fun _ => Kept c entry s') := by
          refine Triple.modify ?_
          rintro _ rfl
          rw [committed, hb] at hrepaired
          exact hrepaired
        refine Triple.bind (R := fun _ => (· = s')) ?_ fun _ => Triple.bind hmodify fun _ => ?_
        · refine Triple.raise (fun _ hs => hs) ?_
          rintro _ _ rfl
          exact Kept.refl h
        · exact Triple.raise (fun _ hs => hs) fun _ _ hs => hs.kept
      · refine Triple.pure ?_
        rintro _ rfl
        refine ⟨h, ?_, rfl⟩
        have hend : completeEnd newline bytes ≤ bytes.length := completeEnd_le
        rw [committed, hb, List.take_of_length_le (by omega)]

/-- After `k` bytes of the line of an entry that fits the journal. -/
theorem Repaired.write {s s' : JournalFile} {entry : JournalEntry} (hc : c.Faithful entry)
    (h : Repaired c s s') (hcheck : checkEntry s.reached.getLast? entry = .ok ()) (k : Nat) :
    Kept c entry s (JournalFile.write (c.toVec entry ++ [newline]) entry k s') := by
  have hread := h.sound.readBytes
  rw [h.bytes, h.reached] at hread
  have hbytes : (JournalFile.write (c.toVec entry ++ [newline]) entry k s').bytes =
      s.committed ++ (c.toVec entry ++ [newline]).take k := by
    rw [← h.bytes]
    rfl
  have hprefix : s.committed <+: (JournalFile.write (c.toVec entry ++ [newline]) entry k s').bytes := by
    rw [hbytes]
    exact List.prefix_append _ _
  have hsound : readJournal c (.content (s.committed ++ (c.toVec entry ++ [newline]).take k)) =
      .ok (if (c.toVec entry ++ [newline]).length ≤ k then s.reached ++ [entry] else s.reached) →
      (JournalFile.write (c.toVec entry ++ [newline]) entry k s').Sound c := by
    intro hok
    rw [Sound, JournalFile.write, h.bytes, h.reached]
    exact hok
  by_cases hk : (c.toVec entry ++ [newline]).length ≤ k
  · rw [if_pos hk, List.take_of_length_le hk] at hsound
    refine ⟨hsound (readJournal_line hc hread unfinished_committed hcheck), hprefix, .inr ?_⟩
    rw [hbytes, List.take_of_length_le hk, lines_append_entry hc unfinished_committed, lines_committed]
  · -- the newline is the last byte of the line
    have htake : (c.toVec entry ++ [newline]).take k = (c.toVec entry).take k := by
      rw [List.length_append, List.length_singleton] at hk
      exact List.take_append_of_le_length (by omega)
    have hlines : (c.lines (s.committed ++ (c.toVec entry).take k)).lines = (c.lines s.committed).lines :=
      lines_append fun hmem => hc.oneLine (List.mem_of_mem_take hmem)
    rw [if_neg hk, htake, readJournal_congr hlines] at hsound
    refine ⟨hsound hread, hprefix, .inl ?_⟩
    rw [hbytes, htake, hlines, lines_committed]

theorem checkEntry_ok {last : Option JournalEntry} {entry : JournalEntry}
    (hv : entry.validate = .ok ()) (hseq : entry.seq = seqAfter last) :
    checkEntry last entry = .ok () := by
  simp [checkEntry, hv, hseq]

theorem append_triple (cuts : Cuts) {entry : JournalEntry} {s : JournalFile}
    (hc : c.Faithful entry) (h : s.Sound c) :
    Triple (· = s) (append c cuts entry) (fun _ => Kept c entry s) (fun _ => Kept c entry s) := by
  have hkept : ∀ t, t = s → Kept c entry s t := by
    rintro _ rfl
    exact Kept.refl h
  unfold append
  refine Triple.bind (R := fun _ t => t = s ∧ entry.validate = .ok ()) ?_ fun _ => ?_
  · exact Triple.ofExcept (fun _ t hv ht => ⟨ht, hv⟩) fun _ t _ ht => hkept t ht
  refine Triple.bind (R := fun _ t => t = s ∧ entry.validate = .ok ()) ?_ fun _ => ?_
  · exact Triple.raise (fun t ht => ht) fun _ t ht => hkept t ht.1
  refine Triple.get_bind fun t ⟨ht, hv⟩ => ?_
  rw [ht, h]
  refine Triple.bind (R := fun prior u => u = s ∧ prior = s.reached) ?_ fun prior => ?_
  · refine Triple.ofExcept ?_ fun _ _ he => by cases he
    rintro _ _ hok rfl
    cases hok
    exact ⟨rfl, rfl⟩
  refine Triple.of_forall fun u ⟨hu, hprior⟩ => ?_
  rw [hu, hprior]
  refine Triple.ite (fun _ => Triple.throw hkept) fun hseq => ?_
  have hcheck : checkEntry s.reached.getLast? entry = .ok () := checkEntry_ok hv (not_not.mp hseq)
  refine Triple.bind (repairTail_triple cuts entry h) fun _ => ?_
  refine Triple.bind (R := fun _ => Repaired c s) ?_ fun _ => ?_
  · exact Triple.raise (fun _ hr => hr) fun _ _ hr => hr.kept
  -- the cut is after some of the bytes, or after all of them
  have hwrite (k : Nat) (fault : Option (Fault Error)) :
      Triple (Repaired c s) (do
          Prog.modify (JournalFile.write (c.toVec entry ++ [newline]) entry k)
          Prog.raise fault : Prog Error JournalFile Unit)
        (fun _ => Kept c entry s) (fun _ => Kept c entry s) := by
    refine Triple.bind (R := fun _ => Kept c entry s) ?_ fun _ => ?_
    · exact Triple.modify fun _ hr => hr.write hc hcheck k
    · exact Triple.raise (fun _ hk => hk) fun _ _ hk => hk
  unfold writeAll
  cases cuts.written with
  | none => exact hwrite _ _
  | some cut => exact hwrite cut.1 (some cut.2)

theorem repairTail_clean (entry : JournalEntry) {s : JournalFile} (h : s.Sound c) :
    ∃ t, repairTail Cuts.none s = (.ok (), t) ∧ Repaired c s t := by
  have htriple := repairTail_triple Cuts.none entry h s rfl
  have hok : (repairTail Cuts.none s).1 = .ok () := by
    unfold repairTail
    rw [Prog.bind_run, Prog.get_run]
    dsimp only
    cases s.file with
    | absent => rfl
    | unreadable message => rfl
    | content bytes =>
        dsimp only
        split <;> rfl
  generalize repairTail Cuts.none s = r at htriple hok
  obtain ⟨res, t⟩ := r
  cases hok
  exact ⟨t, rfl, htriple⟩

/-- An append that nothing cuts off. -/
theorem append_clean {entry : JournalEntry} {s : JournalFile} (h : s.Sound c)
    (hv : entry.validate = .ok ()) (hseq : entry.seq = seqAfter s.reached.getLast?) :
    append c Cuts.none entry s =
      (.ok (), ⟨.content (s.committed ++ (c.toVec entry ++ [newline])), s.reached ++ [entry]⟩) := by
  obtain ⟨t, hrepair, ht⟩ := repairTail_clean entry h
  have hvalid : (Prog.ofExcept entry.validate : Prog Error JournalFile Unit) s = (.ok (), s) := by
    rw [hv]
    rfl
  have hprior : (Prog.ofExcept (readJournal c s.file) : Prog Error JournalFile _) s =
      (.ok s.reached, s) := by
    rw [h]
    rfl
  have hwrite : writeAll Cuts.none (c.toVec entry ++ [newline]) entry t =
      (.ok (), ⟨.content (s.committed ++ (c.toVec entry ++ [newline])), s.reached ++ [entry]⟩) := by
    have hbytes : writeAll Cuts.none (c.toVec entry ++ [newline]) entry t =
        (.ok (), JournalFile.write (c.toVec entry ++ [newline]) entry _ t) := rfl
    rw [hbytes, JournalFile.write, List.take_length, if_pos (Nat.le_refl _), ht.bytes, ht.reached]
  have hbefore : (Prog.raise Cuts.none.before : Prog Error JournalFile Unit) s = (.ok (), s) := rfl
  have hopening : (Prog.raise Cuts.none.opening : Prog Error JournalFile Unit) t = (.ok (), t) := rfl
  rw [append, Prog.bind_run_ok hvalid, Prog.bind_run_ok hbefore, Prog.bind_run_ok (Prog.get_run s),
    Prog.bind_run_ok hprior, if_neg (not_not.mpr hseq), Prog.bind_run_ok hrepair,
    Prog.bind_run_ok hopening, hwrite]

theorem append_kept (cuts : Cuts) {entry : JournalEntry} {s : JournalFile}
    (hc : c.Faithful entry) (h : s.Sound c) : Kept c entry s (append c cuts entry s).2 := by
  have hends := append_triple cuts hc h s rfl
  generalize append c cuts entry s = r at hends ⊢
  obtain ⟨res, s'⟩ := r
  cases res <;> exact hends

/-- Any appends, however cut off, leave a journal that reads as what reached it. -/
theorem runAppends_sound {calls : List (JournalEntry × Cuts)} {s : JournalFile}
    (hc : ∀ call ∈ calls, c.Faithful call.1) (h : s.Sound c) : (runAppends c calls s).Sound c := by
  induction calls generalizing s with
  | nil => exact h
  | cons call calls ih =>
      obtain ⟨entry, cuts⟩ := call
      rw [List.forall_mem_cons] at hc
      exact ih hc.2 (append_kept cuts hc.1 h).sound

/-! ## what a file that reads holds -/

/-- The complete lines that are not blank. -/
def visibleLines (bytes : Bytes) : List Bytes :=
  (complete newline bytes).filter fun line => !line.all isAsciiWhitespace

/-- The entries of the lines are what the visible ones parse to. -/
theorem lines_eq_iff {ls : List Bytes} {es : List JournalEntry} :
    (ls.map c.line).filter (· ≠ .blank) = es.map .entry ↔
      (ls.filter fun line => !line.all isAsciiWhitespace).map c.fromSlice = es.map .ok := by
  induction ls generalizing es with
  | nil => simp
  | cons l ls ih =>
      rw [List.map_cons, Codec.line]
      by_cases hblank : l.all isAsciiWhitespace = true
      · have hrest := @ih es
        rw [if_pos hblank]
        simpa [hblank] using hrest
      · rw [if_neg hblank]
        cases es with
        | nil => cases c.fromSlice l <;> simp [hblank]
        | cons e es =>
            have hrest := @ih es
            cases hl : c.fromSlice l with
            | error message => simp [hblank, hl]
            | ok e' => simp [hblank, hl, ← hrest]

theorem readJournal_ok_iff {bytes : Bytes} {es : List JournalEntry} :
    readJournal c (.content bytes) = .ok es ↔
      (visibleLines bytes).map c.fromSlice = es.map .ok ∧
        (∀ e ∈ es, e.validate = .ok ()) ∧ es.map (·.seq) = List.range es.length := by
  rw [readJournal_eq, readLines_ok_iff, checked_checkEntry_iff, List.range_eq_range']
  exact and_congr_left' lines_eq_iff

/-- A visible line that is not the entry its place asks for. -/
def Misplaced (c : Codec) (i : Nat) (line : Bytes) : Prop :=
  ∀ e, c.fromSlice line = .ok e → e.detail.get "formatVersion" ≠ some "1" ∨ e.seq ≠ i

/-- Such a line stops the read, wherever it stands. -/
theorem readJournal_misplaced {bytes line : Bytes} {i : Nat}
    (hline : (visibleLines bytes)[i]? = some line) (hbad : Misplaced c i line) :
    ∃ err, readJournal c (.content bytes) = .error err := by
  cases hread : readJournal c (.content bytes) with
  | error err => exact ⟨err, rfl⟩
  | ok es =>
      exfalso
      obtain ⟨hparsed, hvalid, hseqs⟩ := readJournal_ok_iff.mp hread
      have hi : (es.map (Except.ok : _ → Except String _))[i]? = some (c.fromSlice line) := by
        rw [← hparsed, List.getElem?_map, hline]
        rfl
      rw [List.getElem?_map, Option.map_eq_some_iff] at hi
      obtain ⟨e, he, hok⟩ := hi
      have hlt : i < es.length := (List.getElem?_eq_some_iff.mp he).1
      have hseq : (es.map (·.seq))[i]? = some i := by
        rw [hseqs, List.getElem?_range hlt]
      rw [List.getElem?_map, he] at hseq
      rcases hbad e hok.symm with hformat | hplace
      · have hv := hvalid e (List.mem_of_getElem? he)
        rw [JournalEntry.validate, if_pos hformat] at hv
        cases hv
      · exact hplace (Option.some.inj hseq)

/-- The entries of a journal that reads are numbered from zero. -/
theorem Sound.numbered {s : JournalFile} (h : s.Sound c) :
    s.reached.map (·.seq) = List.range s.reached.length :=
  (readJournal_ok_iff.mp h.readBytes).2.2

theorem Sound.seqAfter {s : JournalFile} (h : s.Sound c) :
    KCarrier.seqAfter s.reached.getLast? = s.reached.length := by
  have hnumbered := h.numbered
  cases hl : s.reached.getLast? with
  | none =>
      rw [List.getLast?_eq_none_iff.mp hl]
      rfl
  | some e =>
      have hlast : (s.reached.map (·.seq)).getLast? = some e.seq := by
        rw [List.getLast?_map, hl]
        rfl
      rw [hnumbered, List.getLast?_range] at hlast
      have hpos : s.reached.length ≠ 0 := by
        intro hzero
        rw [List.length_eq_zero_iff.mp hzero] at hl
        cases hl
      rw [if_neg hpos] at hlast
      simp only [KCarrier.seqAfter, ← Option.some.inj hlast]
      omega

/-! ## torn writes -/

end

/-- The journal is safe against torn writes.  After any appends, however cut off, it
reads as the entries whose newline reached the file, numbered from zero; the next
append adds one entry and leaves the committed bytes alone, and so does one that is cut
off; and a file with a line that is no entry, of another format or out of sequence is
not read at all. -/
theorem torn_writes_safe (c : Codec) (file : File Bytes) (es : List JournalEntry)
    (calls : List (JournalEntry × Cuts)) (hfile : readJournal c file = .ok es)
    (hc : ∀ call ∈ calls, c.Faithful call.1) :
    let s := runAppends c calls ⟨file, es⟩
    (readJournal c s.file = .ok s.reached ∧
      s.reached.map (·.seq) = List.range s.reached.length) ∧
    (∀ entry, c.Faithful entry → entry.validate = .ok () → entry.seq = s.reached.length →
      ∃ s', append c Cuts.none entry s = (.ok (), s') ∧
        readJournal c s'.file = .ok (s.reached ++ [entry]) ∧
        s'.file = .content (s.committed ++ (c.toVec entry ++ [newline]))) ∧
    (∀ entry cuts, c.Faithful entry → s.committed <+: (append c cuts entry s).2.bytes) ∧
    (∀ bytes es, readJournal c (.content bytes) = .ok es →
      (visibleLines bytes).map c.fromSlice = es.map .ok) ∧
    ∀ bytes i line, (visibleLines bytes)[i]? = some line → Misplaced c i line →
      ∃ err, readJournal c (.content bytes) = .error err := by
  intro s
  have hs : s.Sound c := runAppends_sound hc hfile
  refine ⟨⟨hs, hs.numbered⟩, ?_, ?_, fun _ _ h => (readJournal_ok_iff.mp h).1,
    fun _ _ _ => readJournal_misplaced⟩
  · intro entry hentry hv hseq
    rw [← hs.seqAfter] at hseq
    have hrun := append_clean hs hv hseq
    refine ⟨_, hrun, ?_, rfl⟩
    have hread : readJournal c (.content s.committed) = .ok s.reached := by
      rw [← hs.readBytes]
      exact readJournal_congr (by rw [lines_committed])
    exact readJournal_line hentry hread unfinished_committed (checkEntry_ok hv hseq)
  · intro entry cuts hentry
    exact (append_kept cuts hentry hs).committed

/-- The journal's first entry, and its line. -/
def firstEntry : JournalEntry := ⟨0, 1, .idle, [("formatVersion", "1")]⟩

def firstLine : Bytes :=
  "\x7b\"seq\":0,\"timestampMs\":1,\"intent\":\"idle\",\"detail\":\x7b\"formatVersion\":\"1\"\x7d\x7d".toList.map
    fun char => char.toNat.toUInt8

/-- JSON as far as that entry goes. -/
def firstCodec : Codec where
  toVec _ := firstLine
  fromSlice line := if line = firstLine then .ok firstEntry else .error "expected value"

/-- The first append is cut off after nine bytes, the second is not. -/
def tornCalls : List (JournalEntry × Cuts) :=
  [(firstEntry, { Cuts.none with written := some (9, .crash) }), (firstEntry, Cuts.none)]

theorem torn_writes_safe_repaired :
    readJournal firstCodec (runAppends firstCodec tornCalls ⟨.absent, []⟩).file =
      .ok (runAppends firstCodec tornCalls ⟨.absent, []⟩).reached := by
  refine (torn_writes_safe firstCodec .absent [] tornCalls rfl fun call hcall => ?_).1.1
  have hentry : call.1 = firstEntry := by
    simp only [tornCalls, List.mem_cons, List.not_mem_nil, or_false] at hcall
    rcases hcall with rfl | rfl <;> rfl
  rw [hentry]
  exact ⟨by decide +kernel, by decide +kernel, by decide +kernel⟩

end JournalFile

end KCarrier
