import KCarrier.Crash.Triple
import KCarrier.Json.OneLine
import KCarrier.Lock
import KCarrier.Supervisor.Resume

/-!
# KCarrier.Artifact

The downloader, its resumed transfers and the partial file they keep.

`Transfer` is the partial file of one url, and the bytes a transfer has accumulated in memory.
A server is what it answers to a request from an offset: a reply with its chunks, which may
be cut off after any of them.  An attempt that is killed there leaves the state it had reached,
so what holds of every interrupted attempt holds throughout a transfer.  The hash, the decoders
and the text of a status are the libraries'.

* `parseContentRange_render` — the range of an honest reply is read as it was written;
* `receive_fits`, `receive_exceeds` — what the chunks make of a transfer;
* `transfer_cut`, `transfer_whole` — how a transfer ends once its reply was accepted;
* `download_heals` — sequences of attempts.
-/

namespace KCarrier

open Crash

namespace Artifact

open Supervisor (verify)

/-! ## releases -/

structure Representation where
  url : String
  sha256 : String
  size : Nat
deriving DecidableEq, Repr

structure Release where
  version : String
  url : String
  sha256 : String
  size : Nat
  gzip : Option Representation
deriving DecidableEq, Repr

def validHash (hash : String) : Bool :=
  hash.utf8ByteSize == 64 && hash.toList.all fun c => c.isDigit || ('a' ≤ c && c ≤ 'f')

def Release.validate (r : Release) : Except Error Unit :=
  if r.version = "" ∨ r.url = "" ∨ validHash r.sha256 = false ∨ 9007199254740991 < r.size then
    .error (.invalid "MANIFEST_INVALID")
  else
    match r.gzip with
    | none => .ok ()
    | some gz =>
        if gz.url = "" ∨ validHash gz.sha256 = false ∨ gz.size = 0 ∨ 9007199254740991 < gz.size then
          .error (.invalid "MANIFEST_INVALID: gzip identity")
        else
          .ok ()

/-- What is fetched for a release. -/
def Release.representation (r : Release) : Representation :=
  match r.gzip with
  | some gz => gz
  | none => ⟨r.url, r.sha256, r.size⟩

/-! ## budgets -/

structure TransferPolicy where
  responseMs : Nat
  idleMs : Nat
  minimumBytesPerSecond : Nat
  maximumOverallMs : Nat
deriving DecidableEq, Repr

structure Budgets where
  responseMs : Nat
  idleMs : Nat
  overallMs : Nat
deriving DecidableEq, Repr

def TransferPolicy.default : TransferPolicy := ⟨30000, 30000, 64 * 1024, 30 * 60000⟩

def TransferPolicy.budgets (p : TransferPolicy) (size : Nat) : Except Error Budgets :=
  if p.responseMs = 0 ∨ p.idleMs = 0 ∨ p.minimumBytesPerSecond = 0 ∨
      p.maximumOverallMs < p.responseMs then
    .error (.invalid "ARTIFACT_TRANSFER_POLICY_INVALID")
  else
    let body := (size * 1000 + p.minimumBytesPerSecond - 1) / p.minimumBytesPerSecond
    .ok ⟨p.responseMs, p.idleMs, min (body + p.responseMs) p.maximumOverallMs⟩

/-! ## ranges -/

/-- `split_once`. -/
def splitOnce (c : Char) (cs : List Char) : Option (List Char × List Char) :=
  match cs.dropWhile (· != c) with
  | [] => none
  | _ :: rest => some (cs.takeWhile (· != c), rest)

def stripPrefix (front cs : List Char) : Option (List Char) :=
  if front <+: cs then some (cs.drop front.length) else none

/-- `parse::<u64>`. -/
def parseU64 (cs : List Char) : Option Nat :=
  let digits := UpgradeLock.unsigned cs
  if digits ≠ [] ∧ digits.all (·.isDigit) = true ∧ Nat.ofDigitChars 10 digits 0 < 2 ^ 64 then
    some (Nat.ofDigitChars 10 digits 0)
  else
    none

def parseContentRange (input : String) : Except Error (Nat × Nat × Nat) :=
  let read := do
    let value ← stripPrefix "bytes ".toList input.toList
    let (span, total) ← splitOnce '/' value
    let (first, last) ← splitOnce '-' span
    let first ← parseU64 first
    let last ← parseU64 last
    let total ← parseU64 total
    if first > last ∨ last ≥ total then none else some (first, last, total)
  match read with
  | some range => .ok range
  | none => .error (.invalid "DOWNLOAD_FAILED: invalid Content-Range")

/-! ## the server -/

/-- What ends a request or a body before its end. -/
inductive Cut where
  | fails (message : String)
  /-- the time for the response, or for the next chunk, is over -/
  | stalls
  /-- the time for the whole transfer is over -/
  | overall
  | killed
deriving DecidableEq, Repr

def Cut.fault (stalled : String) : Cut → Fault Error
  | .fails message => .fail (.http message)
  | .stalls => .fail (.invalid stalled)
  | .overall => .fail (.invalid "DOWNLOAD_FAILED: overall timeout")
  | .killed => .crash

/-- A reply; a body that is not cut off ends after its chunks, be it whole or not. -/
structure Reply where
  status : Nat
  contentRange : Option String
  chunks : List Bytes
  ending : Option Cut
deriving DecidableEq, Repr

inductive Answer where
  | cut (c : Cut)
  | reply (r : Reply)
deriving DecidableEq, Repr

/-- What is answered to a request from an offset; one from zero names no range. -/
abbrev Server : Type := Nat → Answer

/-! ## a transfer -/

/-- What is at the path of the partial file. -/
inductive Part where
  | absent
  | file (content : Bytes)
  /-- anything but a regular file -/
  | irregular
deriving DecidableEq, Repr

/-- The partial file, and what has been accumulated in memory. -/
structure Transfer where
  part : Part
  bytes : Bytes
deriving DecidableEq, Repr

/-- The functions of other crates. -/
structure Libraries where
  sha256 : Bytes → String
  /-- at most so many bytes of what the stream decodes to, unless it is found invalid before -/
  gunzip : Nat → Bytes → Option Bytes
  base64 : List Char → Option Bytes
  percentDecode : List Char → Bytes
  statusText : Nat → String

def Part.append (chunk : Bytes) : Part → Part
  | .file content => .file (content ++ chunk)
  | part => part

namespace Downloader

variable (lib : Libraries)

/-- A `data:` url; representations that are impossible are not decoded. -/
def fromData (rep : Representation) (data : List Char) : Except Error Bytes :=
  match splitOnce ',' data with
  | none => .error (.invalid "DOWNLOAD_FAILED: invalid data URL")
  | some (metadata, encoded) =>
      let inBase64 : Bool := ";base64".toList.isSuffixOf metadata
      let maximum :=
        if inBase64 then min ((rep.size + 2) / 3 * 4) (2 ^ 64 - 1)
        else min (rep.size * 3) (2 ^ 64 - 1)
      if maximum < (String.ofList encoded).utf8ByteSize then
        .error (.invalid "DOWNLOAD_FAILED: oversized data URL")
      else
        let decoded := if inBase64 then lib.base64 encoded else some (lib.percentDecode encoded)
        match decoded with
        | none => .error (.invalid "DOWNLOAD_FAILED: invalid base64")
        | some bytes => (verify lib.sha256 bytes rep.size rep.sha256).map fun _ => bytes

/-- Where a transfer is resumed. -/
def offsetOf (rep : Representation) : Part → Except Error Nat
  | .absent => .ok 0
  | .file content => .ok (if content.length < rep.size then content.length else 0)
  | .irregular => .error (.invalid "invalid partial file")

/-- Where the body of the reply starts. -/
def accept (rep : Representation) (offset : Nat) (reply : Reply) : Except Error Nat :=
  if reply.status ≠ 200 ∧ reply.status ≠ 206 then
    .error (.invalid s!"DOWNLOAD_FAILED: HTTP {lib.statusText reply.status}")
  else if reply.status = 206 then
    match reply.contentRange with
    | none => .error (.invalid "DOWNLOAD_FAILED: missing Content-Range")
    | some range =>
        match parseContentRange range with
        | .error e => .error e
        | .ok (first, last, total) =>
            if first ≠ offset ∨ total ≠ rep.size ∨ last + 1 ≠ rep.size then
              .error (.invalid "DOWNLOAD_FAILED: mismatched Content-Range")
            else
              .ok offset
  else
    .ok 0

/-- `resume` says whether there is a directory for partial files. -/
def removePartial (resume : Bool) : Prog Error Transfer Unit :=
  Prog.modify fun t => if resume then { t with part := .absent } else t

/-- The partial file is appended to, or truncated. -/
def opened (resume : Bool) (start : Nat) (t : Transfer) : Transfer :=
  if resume then
    match t.part with
    | .file content => if 0 < start then ⟨.file content, content⟩ else ⟨.file [], []⟩
    | _ => ⟨.file [], []⟩
  else
    { t with bytes := [] }

/-- The loop over the chunks. -/
def receive (rep : Representation) (resume : Bool) : List Bytes → Prog Error Transfer Unit
  | [] => pure ()
  | chunk :: rest => do
      let t ← Prog.get
      if rep.size < t.bytes.length + chunk.length then do
        removePartial resume
        Prog.throw (.invalid "SIZE_MISMATCH: response exceeds declared size")
      else do
        Prog.modify fun t =>
          ⟨if resume then t.part.append chunk else t.part, t.bytes ++ chunk⟩
        receive rep resume rest

def transfer (rep : Representation) (resume : Bool) (server : Server) :
    Prog Error Transfer Bytes :=
  match stripPrefix "data:".toList rep.url.toList with
  | some data => Prog.ofExcept (fromData lib rep data)
  | none => do
      let t ← Prog.get
      let offset ← Prog.ofExcept (if resume then offsetOf rep t.part else .ok 0)
      match server offset with
      | .cut c => do
          -- this does not return
          Prog.raise (some (c.fault "DOWNLOAD_FAILED: response timeout"))
          pure []
      | .reply reply => do
          let start ← Prog.ofExcept (accept lib rep offset reply)
          Prog.modify (opened resume start)
          receive rep resume reply.chunks
          Prog.raise (reply.ending.map (Cut.fault "DOWNLOAD_FAILED: idle timeout"))
          let t ← Prog.get
          match verify lib.sha256 t.bytes rep.size rep.sha256 with
          | .ok () => pure t.bytes
          | .error e => do
              removePartial resume
              Prog.throw e

/-- The artifact in a compressed one. -/
def decoded (release : Release) (bytes : Bytes) : Except Error Bytes :=
  match lib.gunzip (min (release.size + 1) (2 ^ 64 - 1)) bytes with
  | none => .error (.invalid "DOWNLOAD_FAILED: invalid gzip")
  | some bytes => (verify lib.sha256 bytes release.size release.sha256).map fun _ => bytes

def download (policy : TransferPolicy) (release : Release) (resume : Bool) (server : Server) :
    Prog Error Transfer Bytes := do
  Prog.ofExcept release.validate
  let _ ← Prog.ofExcept (policy.budgets release.representation.size)
  let result ← transfer lib release.representation resume server
  if release.gzip.isNone then
    pure result
  else
    match decoded lib release result with
    | .ok bytes => pure bytes
    | .error e => do
        removePartial resume
        Prog.throw e

/-! ## what is read of a range -/

/-- A number of 64 bits is read back from its digits. -/
theorem parseU64_toDigits {n : Nat} (h : n < 2 ^ 64) : parseU64 (Nat.toDigits 10 n) = some n := by
  have hdigits : ∀ c ∈ Nat.toDigits 10 n, c.isDigit = true := fun c hc =>
    Nat.isDigit_of_mem_toDigits (by omega) (by omega) hc
  have hall : (Nat.toDigits 10 n).all (·.isDigit) = true := List.all_eq_true.mpr hdigits
  have hvalue : Nat.ofDigitChars 10 (Nat.toDigits 10 n) 0 = n :=
    Nat.ofDigitChars_toDigits (by omega) (by omega)
  unfold parseU64
  simp only [UpgradeLock.unsigned_toDigits, hvalue]
  rw [if_pos ⟨Nat.toDigits_ne_nil, hall, h⟩]

/-- A text is split at the first separator. -/
theorem splitOnce_append {c : Char} {front : List Char} (h : c ∉ front) (rest : List Char) :
    splitOnce c (front ++ c :: rest) = some (front, rest) := by
  have hfront : ∀ d ∈ front, (d != c) = true := fun d hd => by
    have hne : d ≠ c := fun heq => h (heq ▸ hd)
    simp [hne]
  have hdrop : (front ++ c :: rest).dropWhile (· != c) = c :: rest := by
    rw [List.dropWhile_append_of_pos hfront, List.dropWhile_cons]
    simp
  have htake : (front ++ c :: rest).takeWhile (· != c) = front := by
    rw [List.takeWhile_append_of_pos hfront, List.takeWhile_cons]
    simp
  rw [splitOnce, hdrop]
  simp only [htake]

/-- The range of the bytes from `offset` to the end. -/
def renderRange (offset size : Nat) : String := s!"bytes {offset}-{size - 1}/{size}"

/-- A range is read back from its header. -/
theorem parseContentRange_render {offset size : Nat} (h : offset < size) (hsize : size < 2 ^ 64) :
    parseContentRange (renderRange offset size) = .ok (offset, size - 1, size) := by
  have hslash : ∀ n, '/' ∉ Nat.toDigits 10 n := Json.not_mem_toDigits (by decide)
  have hdash : ∀ n, '-' ∉ Nat.toDigits 10 n := Json.not_mem_toDigits (by decide)
  have htext : (renderRange offset size).toList = "bytes ".toList ++
      ((Nat.toDigits 10 offset ++ '-' :: Nat.toDigits 10 (size - 1)) ++
        '/' :: Nat.toDigits 10 size) := by
    simp [renderRange, toString, String.toList_append, Nat.toList_repr]
  have hvalue : stripPrefix "bytes ".toList (renderRange offset size).toList =
      some ((Nat.toDigits 10 offset ++ '-' :: Nat.toDigits 10 (size - 1)) ++
        '/' :: Nat.toDigits 10 size) := by
    rw [htext, stripPrefix, if_pos (List.prefix_append _ _), List.drop_left]
  have hflat : '/' ∉ Nat.toDigits 10 offset ++ '-' :: Nat.toDigits 10 (size - 1) := by
    simp [hslash]
  have hspan := splitOnce_append hflat (Nat.toDigits 10 size)
  have hfirst := splitOnce_append (hdash offset) (Nat.toDigits 10 (size - 1))
  have hnumbers : parseU64 (Nat.toDigits 10 offset) = some offset ∧
      parseU64 (Nat.toDigits 10 (size - 1)) = some (size - 1) ∧
      parseU64 (Nat.toDigits 10 size) = some size :=
    ⟨parseU64_toDigits (by omega), parseU64_toDigits (by omega), parseU64_toDigits hsize⟩
  have hordered : ¬(offset > size - 1 ∨ size - 1 ≥ size) := by omega
  unfold parseContentRange
  simp only [hvalue, Option.bind_eq_bind, Option.bind_some, hspan, hfirst, hnumbers.1,
    hnumbers.2.1, hnumbers.2.2, hordered, if_false]

/-! ## the loop -/

variable {lib}
variable {rep : Representation} {resume : Bool} {t : Transfer}

/-- Two chunks, one after the other. -/
theorem Part.append_append (part : Part) (a b : Bytes) :
    (part.append a).append b = part.append (a ++ b) := by
  cases part <;> simp [Part.append]

theorem Part.append_nil (part : Part) : part.append [] = part := by
  cases part <;> simp [Part.append]

/-- Chunks that fit are appended, in the file as in memory. -/
theorem receive_fits {chunks : List Bytes}
    (h : t.bytes.length + chunks.flatten.length ≤ rep.size) :
    receive rep resume chunks t =
      (.ok (), ⟨if resume then t.part.append chunks.flatten else t.part,
        t.bytes ++ chunks.flatten⟩) := by
  induction chunks generalizing t with
  | nil =>
      obtain ⟨part, bytes⟩ := t
      cases resume <;> simp [receive, Part.append_nil]
  | cons chunk rest ih =>
      have hlength : (chunk :: rest).flatten.length = chunk.length + rest.flatten.length := by simp
      have hfits : ¬rep.size < t.bytes.length + chunk.length := by omega
      have hrest : (t.bytes ++ chunk).length + rest.flatten.length ≤ rep.size := by
        rw [List.length_append]
        omega
      rw [receive, Prog.bind_run_ok (Prog.get_run t), if_neg hfits,
        Prog.bind_run_ok (Prog.modify_run _ t), ih hrest]
      cases resume <;> simp [Part.append_append]

/-- One chunk too many, and the file is removed. -/
theorem receive_exceeds {chunks : List Bytes}
    (hstart : t.bytes.length ≤ rep.size)
    (h : rep.size < t.bytes.length + chunks.flatten.length) :
    ∃ bytes, receive rep resume chunks t =
      (.err (.invalid "SIZE_MISMATCH: response exceeds declared size"),
        ⟨if resume then .absent else t.part, bytes⟩) := by
  induction chunks generalizing t with
  | nil =>
      simp only [List.flatten_nil, List.length_nil, Nat.add_zero] at h
      omega
  | cons chunk rest ih =>
      rw [receive, Prog.bind_run_ok (Prog.get_run t)]
      by_cases hexceeds : rep.size < t.bytes.length + chunk.length
      · refine ⟨t.bytes, ?_⟩
        rw [if_pos hexceeds, removePartial, Prog.bind_run_ok (Prog.modify_run _ t)]
        cases resume <;> rfl
      · have hlength : (chunk :: rest).flatten.length = chunk.length + rest.flatten.length := by
          simp
        have hrest : rep.size < (t.bytes ++ chunk).length + rest.flatten.length := by
          rw [List.length_append]
          omega
        have hnext : (t.bytes ++ chunk).length ≤ rep.size := by
          rw [List.length_append]
          omega
        rw [if_neg hexceeds, Prog.bind_run_ok (Prog.modify_run _ t)]
        obtain ⟨bytes, hbytes⟩ := ih (t := ⟨if resume then t.part.append chunk else t.part,
          t.bytes ++ chunk⟩) hnext hrest
        refine ⟨bytes, ?_⟩
        rw [hbytes]
        cases resume <;> rfl

/-! ## how a transfer ends -/

/-- Where the request of a transfer starts, and where the reply does. -/
structure Accepted (lib : Libraries) (rep : Representation) (resume : Bool) (server : Server)
    (t : Transfer) (reply : Reply) (start : Nat) : Prop where
  http : stripPrefix "data:".toList rep.url.toList = none
  reply : ∃ offset, (if resume then offsetOf rep t.part else .ok 0) = .ok offset ∧
    server offset = .reply reply ∧ accept lib rep offset reply = .ok start

/-- What an accepted transfer does with its chunks. -/
theorem transfer_accepted {server : Server} {reply : Reply} {start : Nat}
    (h : Accepted lib rep resume server t reply start) :
    transfer lib rep resume server t = (do
      receive rep resume reply.chunks
      Prog.raise (reply.ending.map (Cut.fault "DOWNLOAD_FAILED: idle timeout"))
      let t ← Prog.get
      match verify lib.sha256 t.bytes rep.size rep.sha256 with
      | .ok () => pure t.bytes
      | .error e => do
          removePartial resume
          Prog.throw e : Prog Error Transfer Bytes) (opened resume start t) := by
  obtain ⟨hhttp, offset, hoffset, hreply, haccept⟩ := h
  unfold transfer
  rw [hhttp]
  simp only
  rw [Prog.bind_run_ok (Prog.get_run t), hoffset, Prog.bind_run_ok (Prog.ofExcept_ok_run _ t),
    hreply]
  simp only
  rw [haccept, Prog.bind_run_ok (Prog.ofExcept_ok_run _ t), Prog.bind_run_ok (Prog.modify_run _ t)]

/-- A body starts at the offset that was asked for, or at the front. -/
theorem accept_start {offset start : Nat} {reply : Reply}
    (h : accept lib rep offset reply = .ok start) : start = offset ∨ start = 0 := by
  unfold accept at h
  split_ifs at h
  · cases hrange : reply.contentRange with
    | none =>
        rw [hrange] at h
        cases h
    | some range =>
        rw [hrange] at h
        cases hparsed : parseContentRange range with
        | error e =>
            simp only [hparsed] at h
            cases h
        | ok parsed =>
            obtain ⟨first, last, total⟩ := parsed
            simp only [hparsed] at h
            split_ifs at h
            exact .inl (Except.ok.inj h).symm
  · exact .inr (Except.ok.inj h).symm

/-- What is resumed is below the declared size. -/
theorem opened_le {server : Server} {reply : Reply} {start : Nat}
    (h : Accepted lib rep resume server t reply start) :
    (opened resume start t).bytes.length ≤ rep.size := by
  obtain ⟨offset, hoffset, -, haccept⟩ := h.reply
  unfold opened
  cases resume with
  | false => simp
  | true =>
      cases hpart : t.part with
      | absent => simp
      | irregular => simp
      | file content =>
          simp only [hpart, if_true, offsetOf, Except.ok.injEq] at hoffset
          by_cases hstart : 0 < start
          · have hsame : start = offset := (accept_start haccept).resolve_right (by omega)
            simp only [if_true, hstart]
            by_cases hfits : content.length < rep.size
            · omega
            · rw [if_neg hfits] at hoffset
              omega
          · simp [hstart]

/-- What the chunks of an accepted reply add up to. -/
def accumulated (resume : Bool) (start : Nat) (t : Transfer) (reply : Reply) : Bytes :=
  (opened resume start t).bytes ++ reply.chunks.flatten

/-- Everything is received that the declared size has room for. -/
theorem receive_opened {start : Nat} {reply : Reply}
    (h : (accumulated resume start t reply).length ≤ rep.size) :
    receive rep resume reply.chunks (opened resume start t) =
      (.ok (), ⟨if resume then .file (accumulated resume start t reply) else t.part,
        accumulated resume start t reply⟩) := by
  rw [accumulated, List.length_append] at h
  rw [receive_fits h, accumulated]
  cases resume with
  | false => simp [opened]
  | true =>
      have hpart : (opened true start t).part = .file (opened true start t).bytes := by
        unfold opened
        cases t.part with
        | absent => rfl
        | irregular => rfl
        | file content => by_cases hstart : 0 < start <;> simp [hstart]
      simp [hpart, Part.append]

section Accepted

variable {server : Server} {reply : Reply} {start : Nat}

/-- A transfer that is cut off leaves what it has accumulated. -/
theorem transfer_cut (h : Accepted lib rep resume server t reply start)
    (hfits : (accumulated resume start t reply).length ≤ rep.size) {cut : Cut}
    (hcut : reply.ending = some cut) :
    ∃ e, transfer lib rep resume server t = (.early e,
      ⟨if resume then .file (accumulated resume start t reply) else t.part,
        accumulated resume start t reply⟩) := by
  rw [transfer_accepted h, Prog.bind_run_ok (receive_opened hfits), hcut, Option.map_some]
  have hraised : ∃ e, ∀ s : Transfer,
      (Prog.raise (some (cut.fault "DOWNLOAD_FAILED: idle timeout")) : Prog Error Transfer Unit) s =
        (.early e, s) := by
    cases cut with
    | fails message => exact ⟨some _, fun _ => rfl⟩
    | stalls => exact ⟨some _, fun _ => rfl⟩
    | overall => exact ⟨some _, fun _ => rfl⟩
    | killed => exact ⟨none, fun _ => rfl⟩
  obtain ⟨e, hraised⟩ := hraised
  exact ⟨e, Prog.bind_run_early (hraised _)⟩

/-- A reply of more than the declared size removes what there was. -/
theorem transfer_exceeds (h : Accepted lib rep resume server t reply start)
    (hexceeds : rep.size < (accumulated resume start t reply).length) :
    ∃ bytes, transfer lib rep resume server t =
      (.err (.invalid "SIZE_MISMATCH: response exceeds declared size"),
        ⟨if resume then .absent else t.part, bytes⟩) := by
  rw [accumulated, List.length_append] at hexceeds
  obtain ⟨bytes, hreceived⟩ := @receive_exceeds rep resume _ _ (opened_le h) hexceeds
  refine ⟨bytes, ?_⟩
  rw [transfer_accepted h, Prog.bind_run_err hreceived]
  cases resume <;> rfl

/-- A body that was not cut off is kept if it is what was declared. -/
theorem transfer_whole (h : Accepted lib rep resume server t reply start)
    (hfits : (accumulated resume start t reply).length ≤ rep.size) (hend : reply.ending = none) :
    transfer lib rep resume server t =
      match verify lib.sha256 (accumulated resume start t reply) rep.size rep.sha256 with
      | .ok () => (.ok (accumulated resume start t reply),
          ⟨if resume then .file (accumulated resume start t reply) else t.part,
            accumulated resume start t reply⟩)
      | .error e => (.err e,
          ⟨if resume then .absent else t.part, accumulated resume start t reply⟩) := by
  rw [transfer_accepted h, Prog.bind_run_ok (receive_opened hfits), hend]
  cases hverify : verify lib.sha256 (accumulated resume start t reply) rep.size rep.sha256 with
  | ok =>
      simp only [Option.map_none, Prog.bind_run, Prog.raise, Prog.get_run, hverify, Prog.pure_run]
  | error e =>
      simp only [Option.map_none, Prog.bind_run, Prog.raise, Prog.get_run, hverify, removePartial,
        Prog.modify_run, Prog.throw_run]
      cases resume <;> rfl

end Accepted

/-- An attempt whose reply is not accepted changes nothing. -/
theorem transfer_refused {server : Server}
    (hhttp : stripPrefix "data:".toList rep.url.toList = none)
    (h : ∀ reply start, ¬Accepted lib rep resume server t reply start) :
    ∃ e, transfer lib rep resume server t = (.early e, t) := by
  unfold transfer
  rw [hhttp]
  simp only
  rw [Prog.bind_run_ok (Prog.get_run t)]
  cases hoffset : (if resume then offsetOf rep t.part else .ok 0 : Except Error Nat) with
  | error e => exact ⟨some e, rfl⟩
  | ok offset =>
      rw [Prog.bind_run_ok (Prog.ofExcept_ok_run _ t)]
      cases hanswer : server offset with
      | cut c =>
          cases c with
          | fails message => exact ⟨some _, rfl⟩
          | stalls => exact ⟨some _, rfl⟩
          | overall => exact ⟨some _, rfl⟩
          | killed => exact ⟨none, rfl⟩
      | reply reply =>
          cases haccept : accept lib rep offset reply with
          | error e => exact ⟨some e, by simp only [haccept]; rfl⟩
          | ok start => exact absurd ⟨hhttp, offset, hoffset, hanswer, haccept⟩ (h reply start)

/-! ## attempts -/

variable {policy : TransferPolicy} {release : Release}

/-- Bytes are verified by their length and their digest. -/
theorem verify_ok_iff {bytes : Bytes} {size : Nat} {hash : String} :
    verify lib.sha256 bytes size hash = .ok () ↔ bytes.length = size ∧ lib.sha256 bytes = hash := by
  unfold verify
  split_ifs with hsize hhash <;> simp_all

/-- What the attempt does after its checks. -/
theorem download_run {server : Server} (hvalid : release.validate = .ok ())
    (hpolicy : ∃ b, policy.budgets release.representation.size = .ok b) :
    download lib policy release resume server t = (do
      let result ← transfer lib release.representation resume server
      if release.gzip.isNone then
        pure result
      else
        match decoded lib release result with
        | .ok bytes => pure bytes
        | .error e => do
            removePartial resume
            Prog.throw e : Prog Error Transfer Bytes) t := by
  obtain ⟨b, hbudgets⟩ := hpolicy
  unfold download
  rw [hvalid, Prog.bind_run_ok (Prog.ofExcept_ok_run _ t), hbudgets,
    Prog.bind_run_ok (Prog.ofExcept_ok_run _ t)]

/-- The errors of the verification of what was transferred. -/
def Mismatch (e : Error) : Prop :=
  e = .invalid "SIZE_MISMATCH" ∨ e = .invalid "SHA256_MISMATCH" ∨
    e = .invalid "SIZE_MISMATCH: response exceeds declared size"

/-- An error that is a mismatch comes with no partial file. -/
def Cleared (e : Option Error) (t : Transfer) : Prop :=
  ∀ err, e = some err → Mismatch err → t.part = .absent

/-- An error is no mismatch unless it says so. -/
theorem not_mismatch {message : String}
    (h : message.toList.head? ≠ some 'S') : ¬Mismatch (.invalid message) := by
  rintro (heq | heq | heq)
  all_goals
    cases heq
    exact h rfl

/-- Only a mismatch has to clear the partial file. -/
theorem cleared_of_not {err : Error} (h : ¬Mismatch err) : Cleared (some err) t := by
  intro err' heq hmismatch
  cases heq
  exact absurd hmismatch h

theorem cleared_absent {e : Option Error} (h : t.part = .absent) : Cleared e t := fun _ _ _ => h

/-- A connection that stalls is no mismatch. -/
theorem raise_clears {P : Transfer → Prop} {stalled : String} {cut : Option Cut}
    (h : stalled.toList.head? ≠ some 'S') :
    Triple P (Prog.raise (cut.map (Cut.fault stalled))) (fun _ _ => True) Cleared := by
  rintro s -
  cases cut with
  | none => exact True.intro
  | some cut =>
      have hhttp : ∀ message, ¬Mismatch (.http message) := fun message h => by
        rcases h with h | h | h <;> cases h
      cases cut with
      | fails message => exact cleared_of_not (hhttp message)
      | stalls => exact cleared_of_not (not_mismatch h)
      | overall => exact cleared_of_not (not_mismatch (by decide))
      | killed => exact fun _ heq => by cases heq

/-- Neither is a reply that is not accepted. -/
theorem accept_not_mismatch {offset : Nat} {reply : Reply} {e : Error}
    (h : accept lib rep offset reply = .error e) : ¬Mismatch e := by
  unfold accept at h
  split_ifs at h
  · cases h
    exact not_mismatch (by simp [toString, String.toList_append])
  · cases hrange : reply.contentRange with
    | none =>
        rw [hrange] at h
        cases h
        exact not_mismatch (by decide)
    | some range =>
        rw [hrange] at h
        cases hparsed : parseContentRange range with
        | error e' =>
            simp only [hparsed, Except.error.injEq] at h
            unfold parseContentRange at hparsed
            simp only at hparsed
            split at hparsed
            · cases hparsed
            · cases hparsed
              rw [← h]
              exact not_mismatch (by decide)
        | ok parsed =>
            obtain ⟨first, last, total⟩ := parsed
            simp only [hparsed] at h
            split_ifs at h
            cases h
            exact not_mismatch (by decide)

/-- The partial file is removed before the error. -/
theorem removePartial_clears {α : Type} {P : Transfer → Prop} {err : Error}
    {Q : α → Transfer → Prop} :
    Triple P (do removePartial true; Prog.throw err : Prog Error Transfer α) Q Cleared :=
  fun _ _ => cleared_absent rfl

/-- A transfer that gets too much clears the partial file. -/
theorem receive_clears {P : Transfer → Prop} {chunks : List Bytes} :
    Triple P (receive rep true chunks) (fun _ _ => True) Cleared := by
  induction chunks generalizing P with
  | nil => exact Triple.pure fun _ _ => True.intro
  | cons chunk rest ih =>
      refine Triple.get_bind fun t _ => Triple.ite (fun _ => removePartial_clears) fun _ => ?_
      exact Triple.bind (R := fun _ _ => True) (Triple.modify fun _ _ => True.intro) fun _ => ih

/-- **One attempt** clears the partial file when it ends in a mismatch. -/
theorem transfer_clears {server : Server}
    (hhttp : stripPrefix "data:".toList rep.url.toList = none) :
    Triple (fun _ => True) (transfer lib rep true server) (fun _ _ => True) Cleared := by
  unfold transfer
  rw [hhttp]
  refine Triple.get_bind fun t _ => ?_
  refine Triple.bind (R := fun _ _ => True) (Triple.ofExcept (fun _ _ _ _ => True.intro) ?_)
    fun offset => ?_
  · rintro e s herr -
    have hirregular : e = .invalid "invalid partial file" := by
      simp only [if_true] at herr
      cases hpart : t.part with
      | absent => simp [hpart, offsetOf] at herr
      | file content => simp [hpart, offsetOf] at herr
      | irregular =>
          simp only [hpart, offsetOf, Except.error.injEq] at herr
          exact herr.symm
    rw [hirregular]
    exact cleared_of_not (not_mismatch (by decide))
  · cases server offset with
    | cut c =>
        refine Triple.bind (R := fun _ _ => True) ?_ fun _ => Triple.pure fun _ _ => True.intro
        exact @raise_clears _ _ (some c) (by decide)
    | reply reply =>
        refine Triple.bind (R := fun _ _ => True) (Triple.ofExcept (fun _ _ _ _ => True.intro) ?_)
          fun start => ?_
        · exact fun e s herr _ => cleared_of_not (accept_not_mismatch herr)
        refine Triple.bind (R := fun _ _ => True) (Triple.modify fun _ _ => True.intro) fun _ => ?_
        refine Triple.bind (R := fun _ _ => True) receive_clears fun _ => ?_
        refine Triple.bind (R := fun _ _ => True) (raise_clears (by decide)) fun _ => ?_
        refine Triple.get_bind fun t _ => ?_
        cases verify lib.sha256 t.bytes rep.size rep.sha256 with
        | ok => exact Triple.pure fun _ _ => True.intro
        | error e => exact removePartial_clears

/-- A transfer that fails its verification leaves no partial file. -/
theorem download_clears {server : Server}
    (hhttp : stripPrefix "data:".toList release.representation.url.toList = none)
    (hvalid : release.validate = .ok ()) :
    Triple (fun _ => True) (download lib policy release true server) (fun _ _ => True) Cleared := by
  unfold download
  rw [hvalid]
  refine Triple.bind (R := fun _ _ => True)
    (Triple.ofExcept (fun _ _ _ _ => True.intro) fun _ _ heq _ => by cases heq) fun _ => ?_
  refine Triple.bind (R := fun _ _ => True) (Triple.ofExcept (fun _ _ _ _ => True.intro) ?_)
    fun _ => ?_
  · rintro e s herr -
    unfold TransferPolicy.budgets at herr
    split_ifs at herr
    cases herr
    exact cleared_of_not (not_mismatch (by decide))
  refine Triple.bind (transfer_clears hhttp) fun result => ?_
  refine Triple.ite (fun _ => Triple.pure fun _ _ => True.intro) fun _ => ?_
  cases decoded lib release result with
  | ok bytes => exact Triple.pure fun _ _ => True.intro
  | error e => exact removePartial_clears

/-! ## what an attempt returns -/

/-- What verification passes on was verified. -/
theorem map_verify {bytes bytes' : Bytes} {size : Nat} {hash : String}
    (h : (verify lib.sha256 bytes size hash).map (fun _ => bytes) = .ok bytes') :
    verify lib.sha256 bytes' size hash = .ok () := by
  cases hverify : verify lib.sha256 bytes size hash with
  | ok =>
      rw [hverify, Except.map, Except.ok.injEq] at h
      rw [← h, hverify]
  | error e =>
      rw [hverify] at h
      cases h

/-- A release given in its own link is verified. -/
theorem fromData_verified {data : List Char} {bytes : Bytes}
    (h : fromData lib rep data = .ok bytes) :
    verify lib.sha256 bytes rep.size rep.sha256 = .ok () := by
  unfold fromData at h
  cases hsplit : splitOnce ',' data with
  | none =>
      rw [hsplit] at h
      cases h
  | some split =>
      obtain ⟨metadata, encoded⟩ := split
      simp only [hsplit] at h
      split_ifs at h
      all_goals
        split at h
        · cases h
        · exact map_verify h

/-- **One attempt** returns verified bytes. -/
theorem transfer_verified {server : Server} {P : Transfer → Prop} :
    Triple P (transfer lib rep resume server)
      (fun bytes _ => verify lib.sha256 bytes rep.size rep.sha256 = .ok ())
      (fun _ _ => True) := by
  unfold transfer
  split
  · exact Triple.ofExcept (fun _ _ hok _ => fromData_verified hok) fun _ _ _ _ => True.intro
  · refine Triple.get_bind fun t _ => ?_
    refine Triple.bind (R := fun _ _ => True)
      (Triple.ofExcept (fun _ _ _ _ => True.intro) fun _ _ _ _ => True.intro) fun offset => ?_
    cases server offset with
    | cut c =>
        rintro s -
        cases c <;> exact True.intro
    | reply reply =>
        refine Triple.bind (R := fun _ _ => True)
          (Triple.ofExcept (fun _ _ _ _ => True.intro) fun _ _ _ _ => True.intro) fun start => ?_
        refine Triple.bind (R := fun _ _ => True) (Triple.modify fun _ _ => True.intro) fun _ => ?_
        refine Triple.bind (R := fun _ _ => True)
          (Raises.any.conseq (fun _ _ => True.intro) (fun _ _ h => h) fun _ _ _ => True.intro)
          fun _ => ?_
        refine Triple.bind (R := fun _ _ => True)
          (Triple.raise (fun _ _ => True.intro) fun _ _ _ => True.intro) fun _ => ?_
        refine Triple.get_bind fun t _ => ?_
        cases hverify : verify lib.sha256 t.bytes rep.size rep.sha256 with
        | ok => exact Triple.pure fun _ _ => hverify
        | error e => exact fun _ _ => True.intro

/-- An attempt returns what the release declares. -/
theorem download_verified {server : Server} {P : Transfer → Prop} :
    Triple P (download lib policy release resume server)
      (fun bytes _ => verify lib.sha256 bytes release.size release.sha256 = .ok ())
      (fun _ _ => True) := by
  unfold download
  refine Triple.bind (R := fun _ _ => True)
    (Triple.ofExcept (fun _ _ _ _ => True.intro) fun _ _ _ _ => True.intro) fun _ => ?_
  refine Triple.bind (R := fun _ _ => True)
    (Triple.ofExcept (fun _ _ _ _ => True.intro) fun _ _ _ _ => True.intro) fun _ => ?_
  refine Triple.bind transfer_verified fun result => ?_
  cases hgzip : release.gzip with
  | none =>
      refine Triple.pure fun _ hresult => ?_
      rw [Release.representation, hgzip] at hresult
      exact hresult
  | some gz =>
      refine Triple.ite (fun hnone => by simp at hnone) fun _ => ?_
      cases hdecoded : decoded lib release result with
      | error e => exact fun _ _ => True.intro
      | ok bytes =>
          refine Triple.pure fun _ _ => ?_
          unfold decoded at hdecoded
          split at hdecoded
          · cases hdecoded
          · exact map_verify hdecoded

/-! ## honest servers -/

/-- The server has the bytes, and serves them from the offset that is asked for or from the
front. -/
def Serves (rep : Representation) (body : Bytes) (server : Server) : Prop :=
  ∀ offset, offset = 0 ∨ offset < rep.size → ∃ reply, server offset = .reply reply ∧
    reply.ending = none ∧
    (reply.status = 200 ∧ reply.chunks.flatten = body ∨
      reply.status = 206 ∧ offset < rep.size ∧
        reply.contentRange = some (renderRange offset rep.size) ∧
        reply.chunks.flatten = body.drop offset)

/-- The bytes are the ones the release declares. -/
structure Declared (lib : Libraries) (release : Release) (body : Bytes) : Prop where
  transfer : verify lib.sha256 body release.representation.size
    release.representation.sha256 = .ok ()
  artifact : release.gzip ≠ none → ∃ bytes, decoded lib release body = .ok bytes

/-- A reply with the whole artifact starts at its beginning. -/
theorem accept_whole {offset : Nat} {reply : Reply} (h : reply.status = 200) :
    accept lib rep offset reply = .ok 0 := by
  simp [accept, h]

/-- A reply with the range asked for starts there. -/
theorem accept_range {offset : Nat} {reply : Reply} (h : reply.status = 206)
    (hoffset : offset < rep.size) (hsize : rep.size < 2 ^ 64)
    (hrange : reply.contentRange = some (renderRange offset rep.size)) :
    accept lib rep offset reply = .ok offset := by
  have hlast : rep.size - 1 + 1 = rep.size := by omega
  simp [accept, h, hrange, parseContentRange_render hoffset hsize, hlast]

/-- A transfer from the beginning has no bytes yet. -/
theorem opened_zero (resume : Bool) (t : Transfer) : (opened resume 0 t).bytes = [] := by
  unfold opened
  cases resume with
  | false => rfl
  | true => cases t.part <;> rfl

/-- Where a request starts: at the front, or behind the content of the partial file. -/
theorem offset_cases (resume : Bool) (rep : Representation) (hregular : t.part ≠ .irregular) :
    ∃ offset, (if resume then offsetOf rep t.part else .ok 0) = .ok offset ∧
      (offset = 0 ∨ resume = true ∧ 0 < offset ∧ offset < rep.size ∧
        ∃ content, t.part = .file content ∧ content.length = offset) := by
  cases resume with
  | false => exact ⟨0, rfl, .inl rfl⟩
  | true =>
      cases hpart : t.part with
      | irregular => exact absurd hpart hregular
      | absent => exact ⟨0, rfl, .inl rfl⟩
      | file content =>
          refine ⟨if content.length < rep.size then content.length else 0, rfl, ?_⟩
          by_cases hfits : content.length < rep.size
          · rw [if_pos hfits]
            rcases Nat.eq_zero_or_pos content.length with hzero | hpos
            · exact .inl hzero
            · exact .inr ⟨rfl, hpos, hfits, content, rfl, rfl⟩
          · exact .inl (if_neg hfits)

/-- An honest reply is accepted, and makes up the declared size; without a partial file it
makes up the declared bytes. -/
theorem serves_accepted {server : Server} {body : Bytes} (resume : Bool)
    (hhttp : stripPrefix "data:".toList rep.url.toList = none) (hsize : rep.size < 2 ^ 64)
    (hlength : body.length = rep.size) (h : Serves rep body server)
    (hregular : t.part ≠ .irregular) :
    ∃ reply start, Accepted lib rep resume server t reply start ∧ reply.ending = none ∧
      (accumulated resume start t reply).length = rep.size ∧
      (resume = false ∨ t.part = .absent → accumulated resume start t reply = body) := by
  obtain ⟨offset, hoffset, hcases⟩ := offset_cases resume rep hregular
  have hbelow : offset = 0 ∨ offset < rep.size := by
    rcases hcases with hzero | ⟨-, -, hfits, -⟩
    · exact .inl hzero
    · exact .inr hfits
  obtain ⟨reply, hreply, hend, hserved⟩ := h offset hbelow
  have hfront : ∀ accepted : accept lib rep offset reply = .ok 0, reply.chunks.flatten = body →
      ∃ reply start, Accepted lib rep resume server t reply start ∧ reply.ending = none ∧
        (accumulated resume start t reply).length = rep.size ∧
        (resume = false ∨ t.part = .absent → accumulated resume start t reply = body) := by
    intro haccept hbody
    have hwhole : accumulated resume 0 t reply = body := by
      rw [accumulated, opened_zero, List.nil_append, hbody]
    exact ⟨reply, 0, ⟨hhttp, offset, hoffset, hreply, haccept⟩, hend, by rw [hwhole, hlength],
      fun _ => hwhole⟩
  rcases hserved with ⟨hstatus, hbody⟩ | ⟨hstatus, hfits, hrange, hbody⟩
  · exact hfront (accept_whole hstatus) hbody
  · have haccept := @accept_range lib rep offset reply hstatus hfits hsize hrange
    rcases hcases with rfl | ⟨rfl, hpos, -, content, hpart, hcontent⟩
    · exact hfront haccept (by simpa using hbody)
    · have hresumed : accumulated true offset t reply = content ++ body.drop offset := by
        rw [accumulated, hbody]
        simp [opened, hpart, hpos]
      refine ⟨reply, offset, ⟨hhttp, offset, hoffset, hreply, haccept⟩, hend, ?_, ?_⟩
      · rw [hresumed, List.length_append, List.length_drop]
        omega
      · rintro (hresume | habsent)
        · cases hresume
        · rw [hpart] at habsent
          cases habsent

/-- A valid release declares a size of 64 bits. -/
theorem size_of_validate (h : release.validate = .ok ()) :
    release.representation.size < 2 ^ 64 := by
  unfold Release.validate at h
  unfold Release.representation
  split_ifs at h with hrelease
  cases hgzip : release.gzip with
  | none =>
      simp only
      omega
  | some gz =>
      simp only [hgzip] at h ⊢
      split_ifs at h with hgz
      omega

/-- An attempt at an honest server succeeds, or leaves no partial file where one was. -/
theorem download_honest {server : Server} {body : Bytes} (resume : Bool)
    (hvalid : release.validate = .ok ())
    (hpolicy : ∃ b, policy.budgets release.representation.size = .ok b)
    (hhttp : stripPrefix "data:".toList release.representation.url.toList = none)
    (hdeclared : Declared lib release body) (h : Serves release.representation body server)
    (hregular : t.part ≠ .irregular) :
    (∃ bytes, (download lib policy release resume server t).1 = .ok bytes) ∨
      t.part ≠ .absent ∧ (download lib policy release resume server t).2.part = .absent := by
  obtain ⟨reply, start, haccepted, hend, hlength, hwhole⟩ := serves_accepted resume hhttp
    (size_of_validate hvalid) (verify_ok_iff.mp hdeclared.transfer).1 h hregular
  have htransfer := transfer_whole haccepted (by omega) hend
  rw [download_run hvalid hpolicy]
  by_cases hfresh : resume = false ∨ t.part = .absent
  · rw [hwhole hfresh, hdeclared.transfer] at htransfer
    rw [Prog.bind_run_ok htransfer]
    cases hgzip : release.gzip with
    | none => exact .inl ⟨body, rfl⟩
    | some gz =>
        obtain ⟨bytes, hbytes⟩ := hdeclared.artifact (by simp [hgzip])
        exact .inl ⟨bytes, by simp [hbytes]⟩
  · rw [not_or, Bool.not_eq_false] at hfresh
    obtain ⟨rfl, hpart⟩ := hfresh
    cases hverify : verify lib.sha256 (accumulated true start t reply)
        release.representation.size release.representation.sha256 with
    | error e =>
        rw [hverify] at htransfer
        rw [Prog.bind_run_err htransfer]
        exact .inr ⟨hpart, rfl⟩
    | ok =>
        rw [hverify] at htransfer
        rw [Prog.bind_run_ok htransfer]
        cases release.gzip with
        | none => exact .inl ⟨_, rfl⟩
        | some gz =>
            cases decoded lib release (accumulated true start t reply) with
            | ok bytes => exact .inl ⟨bytes, by simp⟩
            | error e => exact .inr ⟨hpart, by simp [Prog.bind_run, removePartial]⟩

/-- Removing the partial file leaves nothing irregular. -/
theorem removePartial_regular {α : Type} {err : Error} {Q : α → Transfer → Prop} :
    Triple (fun t => t.part ≠ .irregular)
      (do removePartial resume; Prog.throw err : Prog Error Transfer α) Q
      (fun _ t => t.part ≠ .irregular) := by
  intro t ht
  cases resume with
  | false => exact ht
  | true => exact fun h => by cases h

/-- Receiving leaves nothing irregular. -/
theorem receive_regular {chunks : List Bytes} :
    Triple (fun t => t.part ≠ .irregular) (receive rep resume chunks)
      (fun _ t => t.part ≠ .irregular) (fun _ t => t.part ≠ .irregular) := by
  induction chunks with
  | nil => exact Triple.pure fun _ h => h
  | cons chunk rest ih =>
      refine Triple.get_bind fun t ht => Triple.ite (fun _ => ?_) fun _ => ?_
      · exact removePartial_regular.pre fun s hs => hs ▸ ht
      · refine Triple.bind (R := fun _ t => t.part ≠ .irregular) (Triple.modify ?_) fun _ => ih
        rintro s rfl
        cases resume with
        | false => exact ht
        | true => cases hpart : s.part <;> simp_all [Part.append]

/-- **One attempt** leaves nothing irregular. -/
theorem transfer_regular {server : Server} :
    Triple (fun t => t.part ≠ .irregular) (transfer lib rep resume server)
      (fun _ t => t.part ≠ .irregular) (fun _ t => t.part ≠ .irregular) := by
  unfold transfer
  split
  · exact Triple.ofExcept (fun _ _ _ h => h) fun _ _ _ h => h
  refine Triple.get_bind fun t ht => Triple.pre ?_ fun s hs => (hs ▸ ht : s.part ≠ .irregular)
  refine Triple.bind (R := fun _ t => t.part ≠ .irregular)
    (Triple.ofExcept (fun _ _ _ h => h) fun _ _ _ h => h) fun offset => ?_
  cases server offset with
  | cut c =>
      exact Triple.bind (R := fun _ t => t.part ≠ .irregular)
        (Triple.raise (fun _ h => h) fun _ _ h => h) fun _ => Triple.pure fun _ h => h
  | reply reply =>
      refine Triple.bind (R := fun _ t => t.part ≠ .irregular)
        (Triple.ofExcept (fun _ _ _ h => h) fun _ _ _ h => h) fun start => ?_
      refine Triple.bind (R := fun _ t => t.part ≠ .irregular) (Triple.modify ?_) fun _ => ?_
      · intro t ht
        unfold opened
        cases resume with
        | false => exact ht
        | true =>
            cases t.part with
            | absent => simp
            | irregular => simp
            | file content => by_cases hstart : 0 < start <;> simp [hstart]
      refine Triple.bind receive_regular fun _ => ?_
      refine Triple.bind (R := fun _ t => t.part ≠ .irregular)
        (Triple.raise (fun _ h => h) fun _ _ h => h) fun _ => ?_
      refine Triple.get_bind fun t ht => Triple.pre ?_ fun s hs => (hs ▸ ht : s.part ≠ .irregular)
      cases verify lib.sha256 t.bytes rep.size rep.sha256 with
      | ok => exact Triple.pure fun _ h => h
      | error e => exact removePartial_regular

/-- What is at the path of the partial file stays a file, if anything. -/
theorem download_regular {server : Server} :
    Triple (fun t => t.part ≠ .irregular) (download lib policy release resume server)
      (fun _ t => t.part ≠ .irregular) (fun _ t => t.part ≠ .irregular) := by
  refine Triple.bind (R := fun _ t => t.part ≠ .irregular)
    (Triple.ofExcept (fun _ _ _ h => h) fun _ _ _ h => h) fun _ => ?_
  refine Triple.bind (R := fun _ t => t.part ≠ .irregular)
    (Triple.ofExcept (fun _ _ _ h => h) fun _ _ _ h => h) fun _ => ?_
  refine Triple.bind transfer_regular fun result => ?_
  refine Triple.ite (fun _ => Triple.pure fun _ h => h) fun _ => ?_
  cases decoded lib release result with
  | ok bytes => exact Triple.pure fun _ h => h
  | error e => exact removePartial_regular

/-- The attempts, one after the other. -/
def attempts (lib : Libraries) (policy : TransferPolicy) (release : Release) (resume : Bool)
    (servers : List Server) (t : Transfer) : Transfer :=
  servers.foldl (fun t server => (download lib policy release resume server t).2) t

/-- **Any attempts** leave nothing irregular. -/
theorem attempts_regular (servers : List Server) (h : t.part ≠ .irregular) :
    (attempts lib policy release resume servers t).part ≠ .irregular := by
  induction servers generalizing t with
  | nil => exact h
  | cons server rest ih => exact ih (download_regular.leaves h)

/-- **A download is verified, and heals itself.**  After any attempts, the next one returns no
bytes but the declared ones.  Once its reply is accepted, whatever cuts it off leaves the bytes
accumulated so far in the partial file, which are no more than declared; a reply that is not
accepted leaves the file as it was.  An attempt that fails its verification leaves no partial
file.  So of two attempts at honest servers one succeeds. -/
theorem download_heals (lib : Libraries) (policy : TransferPolicy) (release : Release)
    (hvalid : release.validate = .ok ()) (resume : Bool) (servers : List Server)
    (initial : Transfer) :
    let rep := release.representation
    let attempt := download lib policy release resume
    let t := attempts lib policy release resume servers initial
    (∀ server bytes, (attempt server t).1 = .ok bytes →
      bytes.length = release.size ∧ lib.sha256 bytes = release.sha256) ∧
    (stripPrefix "data:".toList rep.url.toList = none →
      (∃ b, policy.budgets rep.size = .ok b) →
      (resume = true → ∀ server,
        (∀ reply start cut, Accepted lib rep resume server t reply start →
          reply.ending = some cut →
          (attempt server t).2 = ⟨.file (accumulated resume start t reply),
              accumulated resume start t reply⟩ ∧
            (accumulated resume start t reply).length ≤ rep.size ∨
          (attempt server t).2.part = .absent ∧
            rep.size < (accumulated resume start t reply).length) ∧
        ((∀ reply start, ¬Accepted lib rep resume server t reply start) →
          (attempt server t).2 = t) ∧
        ∀ e, (attempt server t).1 = .err e → Mismatch e → (attempt server t).2.part = .absent) ∧
      (initial.part ≠ .irregular → ∀ body, Declared lib release body → ∀ server server',
        Serves rep body server → Serves rep body server' →
        (∃ bytes, (attempt server t).1 = .ok bytes) ∨
          ∃ bytes, (attempt server' (attempt server t).2).1 = .ok bytes)) := by
  intro rep attempt t
  have hreached : initial.part ≠ .irregular → t.part ≠ .irregular := attempts_regular servers
  clear_value t
  refine ⟨fun server bytes hok => ?_, fun hhttp hpolicy => ⟨?_, ?_⟩⟩
  · have hverified : Triple (fun _ => True) (attempt server) _ _ := download_verified
    exact verify_ok_iff.mp (hverified.of_ok True.intro hok)
  · rintro rfl server
    refine ⟨fun reply start cut haccepted hcut => ?_, fun hrefused => ?_,
      fun e herr hmismatch => ?_⟩
    · by_cases hfits : (accumulated true start t reply).length ≤ rep.size
      · obtain ⟨e, htransfer⟩ := transfer_cut haccepted hfits hcut
        have hrun := (download_run hvalid hpolicy).trans (Prog.bind_run_early htransfer)
        exact .inl ⟨congrArg Prod.snd hrun, hfits⟩
      · obtain ⟨bytes, htransfer⟩ := transfer_exceeds haccepted (by omega)
        have hrun := (download_run hvalid hpolicy).trans (Prog.bind_run_err htransfer)
        exact .inr ⟨congrArg (Transfer.part ∘ Prod.snd) hrun, by omega⟩
    · obtain ⟨e, htransfer⟩ := transfer_refused hhttp hrefused
      exact congrArg Prod.snd ((download_run hvalid hpolicy).trans (Prog.bind_run_early htransfer))
    · exact (download_clears hhttp hvalid).of_err True.intro herr e rfl hmismatch
  · intro hregular body hdeclared server server' hserves hserves'
    rcases download_honest resume hvalid hpolicy hhttp hdeclared hserves (hreached hregular)
      with hok | ⟨-, habsent⟩
    · exact .inl hok
    · have hremoved : (attempt server t).2.part = .absent := habsent
      have hagain := download_honest resume hvalid hpolicy hhttp hdeclared hserves'
        (by simp [hremoved] : (attempt server t).2.part ≠ .irregular)
      exact .inr (hagain.resolve_right fun h => h.1 habsent)

/-- A hash that knows one artifact. -/
def knownHash : Bytes → String
  | [1, 2, 3] => "039058c6f2c0cb492c533b0a4d14ef77cc0f78abccced5287d84a1a2011cfb81"
  | _ => "e3b0c44298fc1c149afbf4c8996fb92427ae41e4649b934ca495991b7852b855"

/-- No release of `known` is compressed. -/
def knownLibraries : Libraries :=
  ⟨knownHash, fun _ _ => none, fun _ => none, fun _ => [], fun _ => ""⟩

def known : Release := ⟨"2", "http://127.0.0.1/artifact", knownHash [1, 2, 3], 3, none⟩

/-- A server that serves every range. -/
def ranged : Server := fun offset =>
  if offset = 0 then .reply ⟨200, none, [[1, 2, 3]], none⟩
  else .reply ⟨206, some (renderRange offset 3), [[1, 2, 3].drop offset], none⟩

/-- The server serves the artifact, in ranges. -/
theorem serves_ranged : Serves known.representation [1, 2, 3] ranged := by
  intro offset hoffset
  by_cases hzero : offset = 0
  · exact ⟨_, by rw [ranged, if_pos hzero], rfl, .inl ⟨rfl, rfl⟩⟩
  · exact ⟨_, by rw [ranged, if_neg hzero], rfl,
      .inr ⟨rfl, hoffset.resolve_left hzero, rfl, by simp⟩⟩

/-- A poisoned partial file. -/
theorem download_heals_poisoned :
    (∃ bytes, (download knownLibraries .default known true ranged
      (attempts knownLibraries .default known true [] ⟨.file [9], []⟩)).1 = .ok bytes) ∨
    ∃ bytes, (download knownLibraries .default known true ranged
      (download knownLibraries .default known true ranged
        (attempts knownLibraries .default known true [] ⟨.file [9], []⟩)).2).1 = .ok bytes := by
  have hvalid : known.validate = .ok () := by
    have hhash : validHash (knownHash [1, 2, 3]) = true := by decide +kernel
    simp [Release.validate, hhash, known]
  exact ((download_heals knownLibraries .default known hvalid true [] ⟨.file [9], []⟩).2
    (by decide) ⟨_, rfl⟩).2 (by decide) [1, 2, 3] ⟨rfl, fun h => absurd rfl h⟩ ranged ranged
    serves_ranged serves_ranged

end Downloader

end Artifact

end KCarrier
