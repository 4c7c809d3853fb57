import KCarrier.Crash.Scan
import KCarrier.Json.OneLine
import KCarrier.Storage.Journal
import KCarrier.Protocol.Wire

/-!
# KCarrier.Storage.Provenance

The provenance file byte by byte.

An append reads the history, picks its number, cuts the file off behind the last newline
and adds one line.  It may be cut off around each of these, and after any number of bytes
of its line.  Numbers are of 64 bits, and the one after the last is computed as the build
profile says: with overflow checks the call panics at the top, without them it wraps.

* `provenance_append_only`: after any appends the history reads as the entries whose newline
  reached the file, and when the next automatic number is there.
-/

namespace KCarrier

open Crash
open Json (Value toVec)

namespace ProvenanceEntry

def toJson (e : ProvenanceEntry) : Value :=
  .object [("seq", .number (.natural e.seq)), ("who", .string e.who),
    ("carrier", .string e.carrier), ("when", .number (.natural e.when)),
    ("version", .string e.version)]

def fromJson (v : Value) : Option ProvenanceEntry := do
  let fields ← Json.record ["seq", "who", "carrier", "when", "version"] false v
  let seq ← Json.required fields "seq" (Value.asUnsigned 64)
  let who ← Json.required fields "who" Value.asString
  let carrier ← Json.required fields "carrier" Value.asString
  let when ← Json.required fields "when" (Value.asUnsigned 64)
  let version ← Json.required fields "version" Value.asString
  some ⟨seq, who, carrier, when, version⟩

end ProvenanceEntry

inductive ProvenanceRead where
  | genesis
  | observed (entries : List ProvenanceEntry)
  | unreadable (reason : String)
deriving DecidableEq, Repr

/-- What ends a call that does not return. -/
inductive Stop where
  | error (e : Error)
  | panic
deriving DecidableEq, Repr

/-- The file, the entries whose newline reached it, and whether an append opened it. -/
structure ProvenanceFile where
  file : File Bytes
  reached : List ProvenanceEntry
  opened : Bool

namespace ProvenanceFile

/-! ## reading -/

/-- What one complete line adds to the entries before it. -/
def readLine (serde : Serde) (entries : List ProvenanceEntry) (line : Bytes) :
    Except Error (List ProvenanceEntry) :=
  if line.all isAsciiWhitespace then
    .ok entries
  else
    match (Json.fromSlice serde.float line).bind ProvenanceEntry.fromJson with
    | none => .error (.json (serde.message line))
    | some entry =>
        match checkProvenance entries.getLast? entry with
        | .error e => .error e
        | .ok () => .ok (entries ++ [entry])

def readProvenance (serde : Serde) (file : File Bytes) : ProvenanceRead :=
  match file with
  | .absent => .genesis
  | .unreadable message => .unreadable message
  | .content bytes =>
      match scanLines newline (readLine serde) bytes [] with
      | .ok entries => .observed entries
      | .error e => .unreadable e.message

/-! ## appending -/

/-- The arguments of `append_provenance_at`. -/
structure Append where
  identity : Provenance
  version : String
  explicit : Option UInt64
  timestampMs : UInt64
deriving DecidableEq, Repr

/-- Where the file system fails or the worker dies: while the history is read, around the
cut of the tail, before and after the file is opened for appending, after some bytes of the
line, or after all of them. -/
structure Cuts where
  reading : Option Error
  before : Option (Fault Error)
  setLen : Option (Fault Error)
  afterSetLen : Option (Fault Error)
  opening : Option (Fault Error)
  opened : Option (Fault Error)
  written : Option (Nat × Fault Error)
  synced : Option (Fault Error)

/-- Nothing goes wrong. -/
def Cuts.none : Cuts := ⟨.none, .none, .none, .none, .none, .none, .none, .none⟩

/-- A fault of the file system. -/
def io (fault : Option (Fault Error)) : Prog Stop ProvenanceFile Unit :=
  Prog.raise (fault.map fun
    | .fail e => .fail (.error e)
    | .crash => .crash)

/-- The number of 64 bits after `n`. -/
def successor (overflowChecks : Bool) (n : Nat) : Except Stop Nat :=
  if n + 1 < 2 ^ 64 then
    .ok (n + 1)
  else if overflowChecks then
    .error .panic
  else
    .ok 0

def seqFor (overflowChecks : Bool) (explicit : Option UInt64) (last : Option Nat) :
    Except Stop Nat :=
  match explicit with
  | some n => .ok n.toNat
  | none =>
      match last with
      | none => .ok 0
      | some n => successor overflowChecks n

def entryOf (call : Append) (seq : Nat) : ProvenanceEntry where
  seq := seq
  who := call.identity.who
  carrier := call.identity.carrier
  when := call.timestampMs.toNat
  version := call.version

/-- The bytes that are there, as far as there is a file. -/
def bytes (s : ProvenanceFile) : Bytes :=
  match s.file with
  | .content bytes => bytes
  | _ => []

/-- Cut an existing file off behind its last newline, whatever follows. -/
def cutTail (cuts : Cuts) : Prog Stop ProvenanceFile Unit := do
  let s ← Prog.get
  match s.file with
  | .content bytes => do
      io cuts.setLen
      Prog.modify fun s => { s with file := .content (bytes.take (completeEnd newline bytes)) }
      io cuts.afterSetLen
  | _ => pure ()

/-- The first `k` bytes of the line of `entry` reach the file. -/
def write (line : Bytes) (entry : ProvenanceEntry) (k : Nat) (s : ProvenanceFile) :
    ProvenanceFile :=
  { s with
    file := .content (s.bytes ++ line.take k)
    reached := if line.length ≤ k then s.reached ++ [entry] else s.reached }

def writeAll (cuts : Cuts) (line : Bytes) (entry : ProvenanceEntry) :
    Prog Stop ProvenanceFile Unit :=
  match cuts.written with
  | some (k, fault) => do
      Prog.modify (write line entry k)
      io (some fault)
  | none => do
      Prog.modify (write line entry line.length)
      io cuts.synced

/-- `append_provenance_at` from the number of the last entry on. -/
def appendAfter (overflowChecks : Bool) (call : Append) (cuts : Cuts) (last : Option Nat) :
    Prog Stop ProvenanceFile ProvenanceEntry := do
  let seq ← Prog.ofExcept (seqFor overflowChecks call.explicit last)
  if last.any fun n => decide (n ≥ seq) then
    Prog.throw (.error (.invalid "PROVENANCE_SEQ_REWRITE"))
  else do
    let entry := entryOf call seq
    io cuts.before
    cutTail cuts
    io cuts.opening
    Prog.modify fun s => { s with file := .content s.bytes, opened := true }
    io cuts.opened
    writeAll cuts (toVec entry.toJson ++ [newline]) entry
    pure entry

/-- What reading the history comes to. -/
def history (serde : Serde) (cuts : Cuts) (s : ProvenanceFile) : ProvenanceRead :=
  match cuts.reading with
  | some e => .unreadable e.message
  | none => readProvenance serde s.file

def appendProvenanceAt (overflowChecks : Bool) (serde : Serde) (call : Append) (cuts : Cuts) :
    Prog Stop ProvenanceFile ProvenanceEntry := do
  let s ← Prog.get
  match history serde cuts s with
  | .unreadable reason =>
      Prog.throw (.error (.invalid s!"PROVENANCE_HISTORY_UNREADABLE: {reason}"))
  | .genesis => appendAfter overflowChecks call cuts none
  | .observed entries => appendAfter overflowChecks call cuts (entries.getLast?.map (·.seq))

/-- One append after the other, whatever became of the ones before. -/
def runAppends (overflowChecks : Bool) (serde : Serde) :
    List (Append × Cuts) → ProvenanceFile → ProvenanceFile
  | [], s => s
  | (call, cuts) :: calls, s =>
      runAppends overflowChecks serde calls (appendProvenanceAt overflowChecks serde call cuts s).2

/-- No append was made. -/
def genesis : ProvenanceFile := ⟨.absent, [], false⟩

end ProvenanceFile

/-! ## lines -/

theorem ProvenanceEntry.fits_toJson {e : ProvenanceEntry} (hseq : e.seq < 2 ^ 64)
    (hwhen : e.when < 2 ^ 64) : Json.Fits Json.maxDepth e.toJson := by
  refine .object fun p hp => ?_
  simp only [List.mem_cons, List.not_mem_nil, or_false] at hp
  rcases hp with rfl | rfl | rfl | rfl | rfl
  · exact .number (.natural _ hseq)
  · exact .string _
  · exact .string _
  · exact .number (.natural _ hwhen)
  · exact .string _

theorem ProvenanceEntry.fromJson_toJson {e : ProvenanceEntry} (hseq : e.seq < 2 ^ 64)
    (hwhen : e.when < 2 ^ 64) : ProvenanceEntry.fromJson e.toJson = some e := by
  let fields : Json.Members Value := [("seq", .number (.natural e.seq)), ("who", .string e.who),
    ("carrier", .string e.carrier), ("when", .number (.natural e.when)),
    ("version", .string e.version)]
  have hfields : Json.record ["seq", "who", "carrier", "when", "version"] false e.toJson =
      some fields := rfl
  have hseqField : Json.required fields "seq" (Value.asUnsigned 64) = some e.seq :=
    Json.asUnsigned_natural hseq
  have hwhenField : Json.required fields "when" (Value.asUnsigned 64) = some e.when :=
    Json.asUnsigned_natural hwhen
  have hwho : Json.required fields "who" Value.asString = some e.who := rfl
  have hcarrier : Json.required fields "carrier" Value.asString = some e.carrier := rfl
  have hversion : Json.required fields "version" Value.asString = some e.version := rfl
  simp only [ProvenanceEntry.fromJson, hfields, hseqField, hwho, hcarrier, hwhenField, hversion,
    Option.bind_eq_bind, Option.bind_some]

namespace ProvenanceFile

variable {overflowChecks : Bool} {serde : Serde} {s t : ProvenanceFile} {call : Append}
  {cuts : Cuts}

/-- The line of an entry is read as that entry, where its number fits. -/
theorem readLine_toVec {entries : List ProvenanceEntry} {e : ProvenanceEntry}
    (hseq : e.seq < 2 ^ 64) (hwhen : e.when < 2 ^ 64)
    (hcheck : checkProvenance entries.getLast? e = .ok ()) :
    readLine serde entries (toVec e.toJson) = .ok (entries ++ [e]) := by
  have hvisible : (toVec e.toJson).all isAsciiWhitespace = false := by
    rw [List.all_eq_false]
    refine ⟨123, ?_, by decide⟩
    rw [toVec, Json.encode, List.mem_flatMap]
    exact ⟨'{', by simp [ProvenanceEntry.toJson, Value.write], by decide⟩
  have hread : (Json.fromSlice serde.float (toVec e.toJson)).bind ProvenanceEntry.fromJson =
      some e := by
    rw [Json.fromSlice_toVec serde.float (ProvenanceEntry.fits_toJson hseq hwhen)]
    exact ProvenanceEntry.fromJson_toJson hseq hwhen
  rw [readLine, if_neg (by simp [hvisible]), hread]
  simp only [hcheck]

/-! ## what an append keeps -/

/-- The file holds what reached it, numbered upwards. -/
structure Sound (serde : Serde) (s : ProvenanceFile) : Prop where
  absent : s.opened = false → s.file = .absent ∧ s.reached = []
  content : s.opened = true → ∃ bytes, s.file = .content bytes ∧
    foldLines (readLine serde) (complete newline bytes) [] = .ok s.reached
  increasing : s.reached.Pairwise fun e e' => e.seq < e'.seq
  bounded : ∀ e ∈ s.reached, e.seq < 2 ^ 64

theorem sound_genesis : Sound serde genesis :=
  ⟨fun _ => ⟨rfl, rfl⟩, fun h => (by cases h), .nil, by simp [genesis]⟩

/-- What the history reads as. -/
def shows (s : ProvenanceFile) : ProvenanceRead := if s.opened then .observed s.reached else .genesis

theorem Sound.read (h : s.Sound serde) : readProvenance serde s.file = s.shows := by
  unfold shows
  cases hopened : s.opened with
  | false =>
      rw [(h.absent hopened).1]
      rfl
  | true =>
      obtain ⟨bytes, hfile, hfold⟩ := h.content hopened
      rw [hfile, readProvenance, scanLines_eq, hfold]
      rfl

/-- The bytes that are there read as what reached the file. -/
theorem Sound.bytes (h : s.Sound serde) :
    foldLines (readLine serde) (complete newline s.bytes) [] = .ok s.reached := by
  unfold ProvenanceFile.bytes
  cases hopened : s.opened with
  | false =>
      rw [(h.absent hopened).1, (h.absent hopened).2]
      simp [foldLines]
  | true =>
      obtain ⟨bytes, hfile, hfold⟩ := h.content hopened
      rw [hfile]
      exact hfold

/-- Behind a cut, nothing but complete lines. -/
def Whole (serde : Serde) (s : ProvenanceFile) : Prop :=
  s.Sound serde ∧ unfinished newline s.bytes = []

theorem Sound.cut (h : s.Sound serde) {bytes : Bytes} (hfile : s.file = .content bytes) :
    Whole serde { s with file := .content (bytes.take (completeEnd newline bytes)) } := by
  have hbytes : s.bytes = bytes := by rw [ProvenanceFile.bytes, hfile]
  have hopened : s.opened = true := by
    cases hopened : s.opened with
    | true => rfl
    | false =>
        rw [(h.absent hopened).1] at hfile
        cases hfile
  have hfold := h.bytes
  rw [hbytes] at hfold
  refine ⟨⟨fun hno => ?_, fun _ => ⟨_, rfl, ?_⟩, h.increasing, h.bounded⟩, take_completeEnd.2⟩
  · rw [hopened] at hno
    cases hno
  · rw [take_completeEnd.1]
    exact hfold

/-- The creation of the file, where there is none. -/
theorem Whole.create (h : Whole serde s) :
    Whole serde { s with file := .content s.bytes, opened := true } :=
  ⟨⟨fun hno => (by cases hno), fun _ => ⟨_, rfl, h.1.bytes⟩, h.1.increasing, h.1.bounded⟩, h.2⟩

/-- An entry that goes behind the last. -/
structure Fits (e : ProvenanceEntry) (reached : List ProvenanceEntry) : Prop where
  seq : e.seq < 2 ^ 64
  when : e.when < 2 ^ 64
  above : ∀ last, reached.getLast? = some last → last.seq < e.seq

theorem Fits.check {e : ProvenanceEntry} {reached : List ProvenanceEntry} (h : Fits e reached) :
    checkProvenance reached.getLast? e = .ok () := by
  unfold checkProvenance
  rw [if_neg]
  cases hlast : reached.getLast? with
  | none => simp
  | some last =>
      have habove := h.above last hlast
      simp
      omega

/-- It is above all of them. -/
theorem Fits.increasing {e : ProvenanceEntry} {reached : List ProvenanceEntry}
    (h : Fits e reached) (hreached : reached.Pairwise fun e e' => e.seq < e'.seq) :
    (reached ++ [e]).Pairwise fun e e' => e.seq < e'.seq := by
  rw [List.pairwise_append]
  refine ⟨hreached, List.pairwise_singleton _ _, fun d hd e' he' => ?_⟩
  rw [List.mem_singleton.mp he']
  obtain ⟨front, last, rfl⟩ : ∃ front last, reached = front ++ [last] :=
    ⟨reached.dropLast, reached.getLast (List.ne_nil_of_mem hd),
      (List.dropLast_concat_getLast (List.ne_nil_of_mem hd)).symm⟩
  have hlast : last.seq < e.seq := h.above last (by simp)
  rcases List.mem_append.mp hd with hd | hd
  · have hbefore := (List.pairwise_append.mp hreached).2.2 d hd last (by simp)
    omega
  · rw [List.mem_singleton.mp hd]
    exact hlast

/-- After `k` bytes of the line of an entry that fits. -/
theorem Whole.write {e : ProvenanceEntry} (h : Whole serde s) (hopened : s.opened = true)
    (hfits : Fits e s.reached) (k : Nat) :
    (ProvenanceFile.write (toVec e.toJson ++ [newline]) e k s).Sound serde := by
  have hline : newline ∉ toVec e.toJson :=
    Json.newline_not_mem_toVec (ProvenanceEntry.fits_toJson hfits.seq hfits.when)
  have hread := h.1.bytes
  by_cases hk : (toVec e.toJson ++ [newline]).length ≤ k
  · have hfold : foldLines (readLine serde)
        (complete newline (s.bytes ++ (toVec e.toJson ++ [newline]))) [] =
          .ok (s.reached ++ [e]) := by
      rw [← List.append_assoc, complete_append_line hline, h.2, List.nil_append,
        foldLines_append, hread]
      simp only [foldLines, readLine_toVec hfits.seq hfits.when hfits.check]
    rw [ProvenanceFile.write, List.take_of_length_le hk, if_pos hk]
    refine ⟨fun hno => ?_, fun _ => ⟨_, rfl, hfold⟩, hfits.increasing h.1.increasing, ?_⟩
    · rw [hopened] at hno
      cases hno
    · intro d hd
      rcases List.mem_append.mp hd with hd | hd
      · exact h.1.bounded d hd
      · rw [List.mem_singleton.mp hd]
        exact hfits.seq
  · -- the newline is the last byte of the line
    have htake : (toVec e.toJson ++ [newline]).take k = (toVec e.toJson).take k := by
      rw [List.length_append, List.length_singleton] at hk
      exact List.take_append_of_le_length (by omega)
    have hfold : foldLines (readLine serde)
        (complete newline (s.bytes ++ (toVec e.toJson).take k)) [] = .ok s.reached := by
      rw [complete_append fun hmem => hline (List.mem_of_mem_take hmem)]
      exact hread
    rw [ProvenanceFile.write, htake, if_neg hk]
    refine ⟨fun hno => ?_, fun _ => ⟨_, rfl, hfold⟩, h.1.increasing, h.1.bounded⟩
    rw [hopened] at hno
    cases hno

/-! ## how an append ends -/

/-- An error of the file system. -/
def Cuts.Fails (cuts : Cuts) (e : Error) : Prop :=
  (∃ cause, cuts.reading = some cause ∧
    e = .invalid s!"PROVENANCE_HISTORY_UNREADABLE: {cause.message}") ∨
  some (.fail e) ∈ [cuts.before, cuts.setLen, cuts.afterSetLen, cuts.opening, cuts.opened,
    cuts.written.map (·.2), cuts.synced]

/-- The number of the last entry. -/
def lastSeq (s : ProvenanceFile) : Option Nat := s.reached.getLast?.map (·.seq)

/-- Why an append on a readable history does not return. -/
inductive Reason (call : Append) (cuts : Cuts) (last : Option Nat) : Stop → Prop
  | io {e : Error} : cuts.Fails e → Reason call cuts last (.error e)
  | rewrite {n : UInt64} {l : Nat} : call.explicit = some n → last = some l → n.toNat ≤ l →
      Reason call cuts last (.error (.invalid "PROVENANCE_SEQ_REWRITE"))
  /-- there is no number after the last -/
  | exhausted {stop : Stop} : call.explicit = none → last = some (2 ^ 64 - 1) →
      Reason call cuts last stop

/-- A run that is cut off keeps the file sound, for one of these reasons. -/
def CutOff (serde : Serde) (call : Append) (cuts : Cuts) (last : Option Nat)
    (stop : Option Stop) (t : ProvenanceFile) : Prop :=
  t.Sound serde ∧ Kind (Reason call cuts last) stop

theorem io_triple {P : ProvenanceFile → Prop} {last : Option Nat} {fault : Option (Fault Error)}
    (hfault : ∀ e, fault = some (.fail e) → cuts.Fails e) (hP : ∀ t, P t → t.Sound serde) :
    Triple P (io fault) (fun _ => P) (CutOff serde call cuts last) := by
  intro t ht
  unfold io
  cases fault with
  | none => exact ht
  | some fault =>
      cases fault with
      | fail e => exact ⟨hP t ht, kind_some.mpr (.io (hfault e rfl))⟩
      | crash => exact ⟨hP t ht, kind_none⟩

/-- The fault of one of the cuts. -/
theorem Cuts.fails_of_mem {fault : Option (Fault Error)}
    (h : fault ∈ [cuts.before, cuts.setLen, cuts.afterSetLen, cuts.opening, cuts.opened,
      cuts.written.map (·.2), cuts.synced]) : ∀ e, fault = some (.fail e) → cuts.Fails e := by
  rintro e rfl
  exact .inr h

theorem cutTail_triple {last : Option Nat} (h : s.Sound serde) :
    Triple (· = s) (cutTail cuts) (fun _ t => Whole serde t ∧ t.reached = s.reached)
      (CutOff serde call cuts last) := by
  have hwhole : s.bytes = [] → Whole serde s := fun hbytes => ⟨h, by rw [hbytes]; simp⟩
  unfold cutTail
  refine Triple.get_bind fun s' hs' => ?_
  subst hs'
  cases hfile : s'.file with
  | absent =>
      refine Triple.pure ?_
      rintro _ rfl
      exact ⟨hwhole (by rw [ProvenanceFile.bytes, hfile]), rfl⟩
  | unreadable message =>
      refine Triple.pure ?_
      rintro _ rfl
      exact ⟨hwhole (by rw [ProvenanceFile.bytes, hfile]), rfl⟩
  | content bytes =>
      have hcut : Whole serde { s' with file := .content (bytes.take (completeEnd newline bytes)) } :=
        h.cut hfile
      refine Triple.bind (R := fun _ => (· = s')) ?_ fun _ => ?_
      · refine io_triple (Cuts.fails_of_mem (by simp)) ?_
        rintro _ rfl
        exact h
      refine Triple.bind (R := fun _ t => Whole serde t ∧ t.reached = s'.reached) ?_ fun _ => ?_
      · refine Triple.modify ?_
        rintro _ rfl
        exact ⟨hcut, rfl⟩
      · exact io_triple (Cuts.fails_of_mem (by simp)) fun t ht => ht.1.1

theorem writeAll_triple {last : Option Nat} {e : ProvenanceEntry} :
    Triple (fun t => (Whole serde t ∧ t.opened = true) ∧ Fits e t.reached)
      (writeAll cuts (toVec e.toJson ++ [newline]) e) (fun _ t => t.Sound serde)
      (CutOff serde call cuts last) := by
  -- the cut is after some of the bytes, or after all of them
  have hwrite : ∀ (k : Nat) (fault : Option (Fault Error)),
      (∀ e, fault = some (.fail e) → cuts.Fails e) →
      Triple (fun t => (Whole serde t ∧ t.opened = true) ∧ Fits e t.reached) (do
          Prog.modify (ProvenanceFile.write (toVec e.toJson ++ [newline]) e k)
          io fault) (fun _ t => t.Sound serde) (CutOff serde call cuts last) := fun k fault hfault =>
    Triple.bind (R := fun _ t => t.Sound serde)
      (Triple.modify fun t ht => ht.1.1.write ht.1.2 ht.2 k) fun _ =>
        io_triple hfault fun _ ht => ht
  unfold writeAll
  cases hwritten : cuts.written with
  | none => exact hwrite _ _ (Cuts.fails_of_mem (by simp))
  | some cut => exact hwrite _ _ (Cuts.fails_of_mem (by simp [hwritten]))

/-- The number that was picked, or why there is none. -/
theorem seqFor_spec (overflowChecks : Bool) (call : Append) (cuts : Cuts) {last : Option Nat}
    (hlast : ∀ n, last = some n → n < 2 ^ 64) :
    match seqFor overflowChecks call.explicit last with
    | .error stop => Reason call cuts last stop
    | .ok seq => seq < 2 ^ 64 ∧ ∀ n, last = some n → seq ≤ n →
        Reason call cuts last (.error (.invalid "PROVENANCE_SEQ_REWRITE")) := by
  cases hexplicit : call.explicit with
  | some n =>
      exact ⟨n.toNat_lt, fun l hl hle => .rewrite hexplicit hl hle⟩
  | none =>
      cases last with
      | none => exact ⟨by simp, fun n hn => by cases hn⟩
      | some n =>
          have hn := hlast n rfl
          have htop : ¬n + 1 < 2 ^ 64 → some n = some (2 ^ 64 - 1) := fun h => by
            rw [Option.some.injEq]
            omega
          simp only [seqFor, successor]
          by_cases hlt : n + 1 < 2 ^ 64
          · rw [if_pos hlt]
            refine ⟨hlt, fun m hm hle => ?_⟩
            rw [Option.some.injEq] at hm
            omega
          · rw [if_neg hlt]
            cases overflowChecks with
            | true => exact .exhausted hexplicit (htop hlt)
            | false => exact ⟨by simp, fun _ _ _ => .exhausted hexplicit (htop hlt)⟩

theorem appendAfter_triple (h : s.Sound serde) :
    Triple (· = s) (appendAfter overflowChecks call cuts s.lastSeq)
      (fun _ t => t.Sound serde) (CutOff serde call cuts s.lastSeq) := by
  have hbound : ∀ n, s.lastSeq = some n → n < 2 ^ 64 := by
    intro n hn
    obtain ⟨last, hlast, rfl⟩ := Option.map_eq_some_iff.mp hn
    exact h.bounded last (List.mem_of_getLast? hlast)
  have hspec := seqFor_spec overflowChecks call cuts hbound
  have hstop : ∀ stop, Reason call cuts s.lastSeq stop → ∀ t, t = s →
      CutOff serde call cuts s.lastSeq (some stop) t := by
    rintro stop hreason _ rfl
    exact ⟨h, kind_some.mpr hreason⟩
  unfold appendAfter
  cases hseq : seqFor overflowChecks call.explicit s.lastSeq with
  | error stop =>
      rw [hseq] at hspec
      exact fun t ht => hstop stop hspec t ht
  | ok seq =>
      rw [hseq] at hspec
      obtain ⟨hlt, hrewrite⟩ := hspec
      refine Triple.bind (R := fun picked t => picked = seq ∧ t = s) (fun t ht => ⟨rfl, ht⟩)
        fun picked => Triple.assume fun hpicked => ?_
      subst hpicked
      refine Triple.ite (fun hlow => Triple.throw fun t ht => ?_) fun habove => ?_
      · cases hl : s.lastSeq with
        | none => simp [hl] at hlow
        | some n =>
            rw [← hl]
            exact hstop _ (hrewrite n hl (by simpa [hl] using hlow)) t ht
      have hfits : Fits (entryOf call picked) s.reached := by
        refine ⟨hlt, call.timestampMs.toNat_lt, fun last hlast => ?_⟩
        have hl : s.lastSeq = some last.seq := by rw [lastSeq, hlast]; rfl
        have hless : last.seq < picked := by simpa [hl] using habove
        exact hless
      refine Triple.bind (R := fun _ => (· = s)) ?_ fun _ => ?_
      · refine io_triple (Cuts.fails_of_mem (by simp)) ?_
        rintro _ rfl
        exact h
      refine Triple.bind (cutTail_triple h) fun _ => ?_
      refine Triple.bind (R := fun _ t => Whole serde t ∧ t.reached = s.reached) ?_ fun _ => ?_
      · exact io_triple (Cuts.fails_of_mem (by simp)) fun t ht => ht.1.1
      refine Triple.bind (R := fun _ t => (Whole serde t ∧ t.opened = true) ∧
        Fits (entryOf call picked) t.reached) ?_ fun _ => ?_
      · exact Triple.modify fun t ht => ⟨⟨ht.1.create, rfl⟩, by rw [← ht.2] at hfits; exact hfits⟩
      refine Triple.bind ?_ fun _ => Triple.bind writeAll_triple fun _ => Triple.pure fun _ ht => ht
      exact io_triple (Cuts.fails_of_mem (by simp)) fun t ht => ht.1.1.1

theorem append_eq (h : s.Sound serde) (hreading : cuts.reading = none) :
    appendProvenanceAt overflowChecks serde call cuts s =
      appendAfter overflowChecks call cuts s.lastSeq s := by
  have hhistory : history serde cuts s = s.shows := by rw [history, hreading, h.read]
  unfold appendProvenanceAt
  rw [Prog.bind_run_ok (Prog.get_run s), hhistory, shows]
  cases hopened : s.opened with
  | false =>
      have hlast : s.lastSeq = none := by rw [lastSeq, (h.absent hopened).2]; rfl
      simp only [Bool.false_eq_true, if_false]
      rw [hlast]
  | true => rfl

/-- **An append**, wherever it is cut off. -/
theorem append_triple (h : s.Sound serde) :
    Triple (· = s) (appendProvenanceAt overflowChecks serde call cuts)
      (fun _ t => t.Sound serde) (CutOff serde call cuts s.lastSeq) := by
  rintro _ rfl
  cases hreading : cuts.reading with
  | none =>
      rw [append_eq h hreading]
      exact appendAfter_triple h _ rfl
  | some e =>
      have hhistory : ∀ t, history serde cuts t = .unreadable e.message := fun t => by
        rw [history, hreading]
      unfold appendProvenanceAt
      rw [Prog.bind_run_ok (Prog.get_run _), hhistory]
      exact ⟨h, kind_some.mpr (.io (.inl ⟨e, hreading, rfl⟩))⟩

theorem append_sound (h : s.Sound serde) :
    (appendProvenanceAt overflowChecks serde call cuts s).2.Sound serde :=
  Triple.leaves (G := fun t => t.Sound serde)
    ((append_triple h).conseq (fun _ ht => ht) (fun _ _ ht => ht) fun _ _ ht => ht.1) rfl

/-- Any appends, however cut off. -/
theorem runAppends_sound (calls : List (Append × Cuts)) (h : s.Sound serde) :
    (runAppends overflowChecks serde calls s).Sound serde := by
  induction calls generalizing s with
  | nil => exact h
  | cons call calls ih =>
      obtain ⟨call, cuts⟩ := call
      exact ih (append_sound h)

/-- A number that is not above the last is refused. -/
theorem append_refused (h : s.Sound serde) {n : UInt64} {last : ProvenanceEntry}
    (hexplicit : call.explicit = some n) (hlast : s.reached.getLast? = some last)
    (hle : n.toNat ≤ last.seq) :
    (appendProvenanceAt overflowChecks serde call cuts s).2 = s ∧
      (cuts.reading = none → (appendProvenanceAt overflowChecks serde call cuts s).1 =
        .err (.error (.invalid "PROVENANCE_SEQ_REWRITE"))) := by
  have hrun : cuts.reading = none → appendProvenanceAt overflowChecks serde call cuts s =
      (.err (.error (.invalid "PROVENANCE_SEQ_REWRITE")), s) := by
    intro hreading
    have hl : s.lastSeq = some last.seq := by rw [lastSeq, hlast]; rfl
    rw [append_eq h hreading, appendAfter, hexplicit, hl]
    have hseq : (Prog.ofExcept (seqFor overflowChecks (some n) (some last.seq)) :
        Prog Stop ProvenanceFile Nat) s = (.ok n.toNat, s) := rfl
    rw [Prog.bind_run_ok hseq, if_pos (by simpa using hle), Prog.throw_run]
  refine ⟨?_, fun hreading => by rw [hrun hreading]⟩
  cases hreading : cuts.reading with
  | none => rw [hrun hreading]
  | some e =>
      have hhistory : history serde cuts s = .unreadable e.message := by rw [history, hreading]
      unfold appendProvenanceAt
      rw [Prog.bind_run_ok (Prog.get_run s), hhistory]
      rfl

/-- Behind the largest number there is no automatic one. -/
theorem append_exhausted (h : s.Sound serde) (hexplicit : call.explicit = none)
    (hlast : s.lastSeq = some (2 ^ 64 - 1)) :
    appendProvenanceAt overflowChecks serde call Cuts.none s =
      (.err (if overflowChecks then .panic else .error (.invalid "PROVENANCE_SEQ_REWRITE")), s) := by
  rw [append_eq h rfl, appendAfter, hexplicit, hlast]
  cases overflowChecks with
  | true => rfl
  | false =>
      have hseq : (Prog.ofExcept (seqFor false none (some (2 ^ 64 - 1))) :
          Prog Stop ProvenanceFile Nat) s = (.ok 0, s) := rfl
      rw [Prog.bind_run_ok hseq, if_pos (by simp), Prog.throw_run]
      rfl

/-- An append without a number of its own fails for reasons of the file system only, and
does not panic. -/
def AutomaticSafe (overflowChecks : Bool) (serde : Serde) (s : ProvenanceFile) : Prop :=
  ∀ call cuts stop t, call.explicit = none →
    appendProvenanceAt overflowChecks serde call cuts s = (.err stop, t) →
      ∃ e, stop = .error e ∧ cuts.Fails e

/-- **Automatic numbers** end with the largest one. -/
theorem automaticSafe_iff (h : s.Sound serde) :
    AutomaticSafe overflowChecks serde s ↔ s.lastSeq ≠ some (2 ^ 64 - 1) := by
  constructor
  · intro hsafe hlast
    let call : Append := ⟨⟨"", ""⟩, "", none, 0⟩
    obtain ⟨e, -, hfails⟩ := hsafe call Cuts.none _ _ rfl (append_exhausted h rfl hlast)
    simp [Cuts.Fails, Cuts.none] at hfails
  · intro hlast call cuts stop t hexplicit hrun
    have hends : CutOff serde call cuts s.lastSeq stop t := by
      have happend : Triple (· = s) (appendProvenanceAt overflowChecks serde call cuts) _ _ :=
        append_triple h
      have := happend s rfl
      rwa [hrun] at this
    cases kind_some.mp hends.2 with
    | io hfails => exact ⟨_, rfl, hfails⟩
    | rewrite hsome => rw [hexplicit] at hsome; cases hsome
    | exhausted _ htop => exact absurd htop hlast

/-- **Provenance is append-only.**  After any appends, however cut off, the history is the
genesis, or the entries whose newline reached the file, numbered upwards; a number that is not
above the last is refused with the file unchanged; and the next automatic number is there
exactly when the last is not the largest of 64 bits. -/
theorem provenance_append_only (overflowChecks : Bool) (serde : Serde)
    (calls : List (Append × Cuts)) :
    let s := runAppends overflowChecks serde calls genesis
    (s.opened = false ∧ readProvenance serde s.file = .genesis ∧ s.reached = [] ∨
      s.opened = true ∧ readProvenance serde s.file = .observed s.reached) ∧
    (s.reached.Pairwise fun e e' => e.seq < e'.seq) ∧
    (∀ call cuts n last, call.explicit = some n → s.reached.getLast? = some last →
      n.toNat ≤ last.seq →
        (appendProvenanceAt overflowChecks serde call cuts s).2 = s ∧
        (cuts.reading = none → (appendProvenanceAt overflowChecks serde call cuts s).1 =
          .err (.error (.invalid "PROVENANCE_SEQ_REWRITE")))) ∧
    (AutomaticSafe overflowChecks serde s ↔ s.lastSeq ≠ some (2 ^ 64 - 1)) := by
  intro s
  have hs : s.Sound serde := runAppends_sound calls sound_genesis
  refine ⟨?_, hs.increasing, fun call cuts n last hexplicit hlast hle =>
    append_refused hs hexplicit hlast hle, automaticSafe_iff hs⟩
  have hread := hs.read
  cases hopened : s.opened with
  | false => exact .inl ⟨rfl, by rw [hread, shows, hopened]; rfl, (hs.absent hopened).2⟩
  | true => exact .inr ⟨rfl, by rw [hread, shows, hopened]; rfl⟩

/-- The largest number, taken explicitly. -/
def topmost : List (Append × Cuts) :=
  [(⟨⟨"local", "auto"⟩, "1", some 18446744073709551615, 0⟩, Cuts.none)]

theorem topmost_lastSeq (overflowChecks : Bool) (serde : Serde) :
    (runAppends overflowChecks serde topmost genesis).lastSeq = some (2 ^ 64 - 1) := by
  have hrun : (runAppends overflowChecks serde topmost genesis).reached =
      [entryOf ⟨⟨"local", "auto"⟩, "1", some 18446744073709551615, 0⟩ 18446744073709551615] := by
    simp [runAppends, topmost, appendProvenanceAt, history, Cuts.none, readProvenance, genesis,
      appendAfter, seqFor, io, cutTail, writeAll, write, Prog.bind_run, Prog.raise]
  rw [lastSeq, hrun]
  rfl

/-- Behind it the next automatic append panics, or is refused in a build that wraps. -/
theorem provenance_exhausted :
    let s := runAppends true plainSerde topmost genesis
    let wrapped := runAppends false plainSerde topmost genesis
    let call : Append := ⟨⟨"local", "auto"⟩, "2", none, 0⟩
    readProvenance plainSerde s.file = s.shows ∧
      (appendProvenanceAt true plainSerde call Cuts.none s).1 = .err .panic ∧
      (appendProvenanceAt false plainSerde call Cuts.none wrapped).1 =
        .err (.error (.invalid "PROVENANCE_SEQ_REWRITE")) ∧
      ¬AutomaticSafe true plainSerde s := by
  intro s wrapped call
  have hs : s.Sound plainSerde := runAppends_sound topmost sound_genesis
  have hwrapped : wrapped.Sound plainSerde := runAppends_sound topmost sound_genesis
  have hlast : s.lastSeq = some (2 ^ 64 - 1) := topmost_lastSeq true plainSerde
  have htop : wrapped.lastSeq = some (2 ^ 64 - 1) := topmost_lastSeq false plainSerde
  refine ⟨hs.read, ?_, ?_, fun hsafe => (automaticSafe_iff hs).mp hsafe hlast⟩
  · rw [append_exhausted hs rfl hlast]
    rfl
  · rw [append_exhausted hwrapped rfl htop]
    rfl

end ProvenanceFile

end KCarrier
