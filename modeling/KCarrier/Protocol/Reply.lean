import KCarrier.Protocol.Wire
import KCarrier.Supervisor
import Mathlib.Algebra.GroupWithZero.Nat

/-!
# KCarrier.Protocol.Reply

Responses as bytes: one JSON object and a newline.

The length of a response is a sum over its texts (`Response.length`), each as long as it
is when it is escaped, and a response is read back whenever its numbers and its map are
what their types allow (`Response.Typed`, `fromJson_toJson`).
-/

namespace KCarrier

open Json (Value Members toVec)

/-! ## names -/

def OperationPhase.name : OperationPhase → String
  | .checking => "checking"
  | .downloading => "downloading"
  | .verifying => "verifying"
  | .staging => "staging"
  | .handingOver => "handing-over"
  | .probing => "probing"
  | .recovering => "recovering"
  | .promoted => "promoted"
  | .rolledBack => "rolled-back"
  | .held => "held"
  | .upToDate => "up-to-date"
  | .failed => "failed"

def OperationPhase.all : List OperationPhase :=
  [.checking, .downloading, .verifying, .staging, .handingOver, .probing, .recovering, .promoted,
    .rolledBack, .held, .upToDate, .failed]

def OperationPhase.ofName (name : String) : Option OperationPhase :=
  OperationPhase.all.find? (·.name == name)

def Outcome.all : List Outcome := [.promoted, .rolledBack, .held, .upToDate, .failed]

/-- An outcome has the name of the phase it ends in. -/
def Outcome.ofName (name : String) : Option Outcome := Outcome.all.find? (·.phase.name == name)

/-- A phase is found by its name. -/
theorem OperationPhase.ofName_name (phase : OperationPhase) : ofName phase.name = some phase := by
  cases phase <;> rfl

/-- An outcome is found by the name of its phase. -/
theorem Outcome.ofName_name (outcome : Outcome) : ofName outcome.phase.name = some outcome := by
  cases outcome <;> rfl

/-! ## writing -/

def OperationPhase.toJson (phase : OperationPhase) : Value := .string phase.name

def Outcome.toJson (outcome : Outcome) : Value := .string outcome.phase.name

def Detail.toJson (d : Detail) : Value := .object (d.map fun p => (p.1, .string p.2))

def Provenance.toJson (p : Provenance) : Value :=
  .object [("who", .string p.who), ("carrier", .string p.carrier)]

def Operation.toJson (op : Operation) : Value :=
  .object [("formatVersion", .number (.natural op.formatVersion)),
    ("id", .string op.id),
    ("startedAtMs", .number (.natural op.startedAtMs)),
    ("updatedAtMs", .number (.natural op.updatedAtMs)),
    ("fromVersion", .string op.fromVersion),
    ("targetVersion", .string op.targetVersion),
    ("previousStableVersion", .string op.previousStableVersion),
    ("phase", op.phase.toJson),
    ("outcome", Json.nullable Outcome.toJson op.outcome),
    ("reason", Json.nullable .string op.reason),
    ("provenance", Json.nullable Provenance.toJson op.provenance),
    ("metadata", op.metadata.toJson)]

def OperationRead.toJson : OperationRead → Value
  | .genesis => .object [("kind", .string "genesis")]
  | .observed op => .object [("kind", .string "observed"), ("operation", op.toJson)]
  | .unreadable reason => .object [("kind", .string "unreadable"), ("reason", .string reason)]

def Response.toJson (r : Response) : Value :=
  .object [("protocolVersion", .number (.natural r.protocolVersion)),
    ("action", .string r.action),
    ("exitCode", .number (.natural r.exitCode)),
    ("result", .string r.result),
    ("operation", r.operation.toJson),
    ("error", Json.nullable .string r.error)]

/-- What `serve_runner` writes for a response. -/
def Response.bytes (r : Response) : Bytes := toVec r.toJson ++ [10]

/-! ## reading -/

def OperationPhase.fromJson (v : Value) : Option OperationPhase :=
  v.asVariant.bind OperationPhase.ofName

def Outcome.fromJson (v : Value) : Option Outcome := v.asVariant.bind Outcome.ofName

/-- A map of strings; the last of a name counts. -/
def Detail.ofMembers : Members Value → Option Detail
  | [] => some []
  | (key, v) :: rest => do
      let value ← v.asString
      let d ← ofMembers rest
      some (if (d.lookup key).isSome then d else (key, value) :: d)

def Detail.fromJson : Value → Option Detail
  | .object members => ofMembers members
  | _ => none

def Provenance.fromJson (v : Value) : Option Provenance := do
  let fields ← Json.record ["who", "carrier"] false v
  let who ← Json.required fields "who" Value.asString
  let carrier ← Json.required fields "carrier" Value.asString
  some ⟨who, carrier⟩

def Operation.fromJson (v : Value) : Option Operation := do
  let fields ← Json.record ["formatVersion", "id", "startedAtMs", "updatedAtMs", "fromVersion",
    "targetVersion", "previousStableVersion", "phase", "outcome", "reason", "provenance",
    "metadata"] false v
  let formatVersion ← Json.required fields "formatVersion" (Value.asUnsigned 32)
  let id ← Json.required fields "id" Value.asString
  let startedAtMs ← Json.required fields "startedAtMs" (Value.asUnsigned 64)
  let updatedAtMs ← Json.required fields "updatedAtMs" (Value.asUnsigned 64)
  let fromVersion ← Json.required fields "fromVersion" Value.asString
  let targetVersion ← Json.required fields "targetVersion" Value.asString
  let previousStableVersion ← Json.required fields "previousStableVersion" Value.asString
  let phase ← Json.required fields "phase" OperationPhase.fromJson
  let outcome ← Json.required fields "outcome" (Value.asNullable Outcome.fromJson)
  let reason ← Json.required fields "reason" (Value.asNullable Value.asString)
  let provenance ← Json.required fields "provenance" (Value.asNullable Provenance.fromJson)
  let metadata ← Json.required fields "metadata" Detail.fromJson
  some { formatVersion, id, startedAtMs, updatedAtMs, fromVersion, targetVersion,
         previousStableVersion, phase, outcome, reason, provenance, metadata }

def OperationRead.fromJson (v : Value) : Option OperationRead := do
  let (kind, content) ← Json.tagged "kind" v
  if kind = "genesis" then
    some .genesis
  else if kind = "observed" then do
    let fields ← Json.record ["operation"] false content
    let operation ← Json.required fields "operation" Operation.fromJson
    some (.observed operation)
  else if kind = "unreadable" then do
    let fields ← Json.record ["reason"] false content
    let reason ← Json.required fields "reason" Value.asString
    some (.unreadable reason)
  else
    none

def Response.fromJson (v : Value) : Option Response := do
  let fields ← Json.record ["protocolVersion", "action", "exitCode", "result", "operation",
    "error"] false v
  let protocolVersion ← Json.required fields "protocolVersion" (Value.asUnsigned 32)
  let action ← Json.required fields "action" Value.asString
  let exitCode ← Json.required fields "exitCode" (Value.asUnsigned 8)
  let result ← Json.required fields "result" Value.asString
  let operation ← Json.required fields "operation" OperationRead.fromJson
  let error ← Json.required fields "error" (Value.asNullable Value.asString)
  some { protocolVersion, action, exitCode, result, operation, error }

/-- `serde_json::from_slice` at the type of the responses. -/
def Serde.response (serde : Serde) (bytes : Bytes) : Except String Response :=
  match (Json.fromSlice serde.float bytes).bind Response.fromJson with
  | some response => .ok response
  | none => .error (serde.message bytes)

/-! ## what the types of the source say -/

/-- The numbers are of 64 bits, and a map has each key once. -/
structure Operation.Typed (op : Operation) : Prop where
  formatVersion : op.formatVersion < 2 ^ 32
  startedAtMs : op.startedAtMs < 2 ^ 64
  updatedAtMs : op.updatedAtMs < 2 ^ 64
  metadata : (op.metadata.map (·.1)).Nodup

structure Response.Typed (r : Response) : Prop where
  protocolVersion : r.protocolVersion < 2 ^ 32
  exitCode : r.exitCode < 2 ^ 8
  operation : ∀ op, r.operation = .observed op → op.Typed

/-! ## reading back -/

/-- Details with distinct keys are read back as they were. -/
theorem Detail.ofMembers_toJson {d : Detail} (h : (d.map (·.1)).Nodup) :
    ofMembers (d.map fun p => (p.1, Value.string p.2)) = some d := by
  induction d with
  | nil => rfl
  | cons p d ih =>
      obtain ⟨key, value⟩ := p
      rw [List.map_cons, List.nodup_cons] at h
      have hnew : d.lookup key = none := by
        apply Json.lookup_eq_none
        intro p hp heq
        exact h.1 (List.mem_map.mpr ⟨p, hp, heq⟩)
      simp [ofMembers, Value.asString, ih h.2, hnew]

/-- A phase is read back as it was. -/
theorem OperationPhase.fromJson_toJson (phase : OperationPhase) :
    fromJson phase.toJson = some phase := phase.ofName_name

/-- An outcome is read back as it was. -/
theorem Outcome.fromJson_toJson (outcome : Outcome) : fromJson outcome.toJson = some outcome :=
  outcome.ofName_name

/-- A provenance is read back as it was. -/
theorem Provenance.fromJson_toJson (p : Provenance) : fromJson p.toJson = some p := rfl

/-- A text that may be missing is read back as it was. -/
theorem asNullable_string (x : Option String) :
    (Json.nullable .string x).asNullable Value.asString = some x := by
  have hread : ∀ s, (Value.string s).asString = some s := fun _ => rfl
  exact Json.asNullable_nullable hread (by simp) x

/-- An operation record is read back as it was. -/
theorem Operation.fromJson_toJson {op : Operation} (h : op.Typed) :
    fromJson op.toJson = some op := by
  have hformat := Json.asUnsigned_natural h.formatVersion
  have hstarted := Json.asUnsigned_natural h.startedAtMs
  have hupdated := Json.asUnsigned_natural h.updatedAtMs
  have hphase := op.phase.fromJson_toJson
  have houtcome := Json.asNullable_nullable Outcome.fromJson_toJson (by simp [Outcome.toJson])
    op.outcome
  have hreason := asNullable_string op.reason
  have hprovenance := Json.asNullable_nullable Provenance.fromJson_toJson
    (by simp [Provenance.toJson]) op.provenance
  have hmetadata : Detail.fromJson op.metadata.toJson = some op.metadata :=
    Detail.ofMembers_toJson h.metadata
  have hrecord : Json.record ["formatVersion", "id", "startedAtMs", "updatedAtMs", "fromVersion",
      "targetVersion", "previousStableVersion", "phase", "outcome", "reason", "provenance",
      "metadata"] false op.toJson = some _ := rfl
  have htext : ∀ s, (Value.string s).asString = some s := fun _ => rfl
  rw [fromJson, hrecord, Option.bind_eq_bind, Option.bind_some]
  apply Json.required_bind rfl hformat
  apply Json.required_bind rfl (htext _)
  apply Json.required_bind rfl hstarted
  apply Json.required_bind rfl hupdated
  apply Json.required_bind rfl (htext _)
  apply Json.required_bind rfl (htext _)
  apply Json.required_bind rfl (htext _)
  apply Json.required_bind rfl hphase
  apply Json.required_bind rfl houtcome
  apply Json.required_bind rfl hreason
  apply Json.required_bind rfl hprovenance
  apply Json.required_bind rfl hmetadata
  rfl

/-- What was read of a record is read back as it was. -/
theorem OperationRead.fromJson_toJson {read : OperationRead}
    (h : ∀ op, read = .observed op → op.Typed) : fromJson read.toJson = some read := by
  cases read with
  | genesis => rfl
  | unreadable reason => rfl
  | observed op =>
      have hop := Operation.fromJson_toJson (h op rfl)
      have htagged : Json.tagged "kind" (OperationRead.observed op).toJson =
          some ("observed", .object [("operation", op.toJson)]) := rfl
      have hrecord : Json.record ["operation"] false (.object [("operation", op.toJson)]) =
          some [("operation", op.toJson)] := rfl
      simp [fromJson, htagged, hrecord, Json.required, hop]

/-- A response is read back as it was. -/
theorem Response.fromJson_toJson {r : Response} (h : r.Typed) : fromJson r.toJson = some r := by
  have hversion := Json.asUnsigned_natural h.protocolVersion
  have hcode := Json.asUnsigned_natural h.exitCode
  have hoperation := OperationRead.fromJson_toJson h.operation
  have herror := asNullable_string r.error
  have hrecord : Json.record ["protocolVersion", "action", "exitCode", "result", "operation",
      "error"] false r.toJson = some _ := rfl
  have htext : ∀ s, (Value.string s).asString = some s := fun _ => rfl
  rw [fromJson, hrecord, Option.bind_eq_bind, Option.bind_some]
  apply Json.required_bind rfl hversion
  apply Json.required_bind rfl (htext _)
  apply Json.required_bind rfl hcode
  apply Json.required_bind rfl (htext _)
  apply Json.required_bind rfl hoperation
  apply Json.required_bind rfl herror
  rfl

/-! ## how deep and how long -/

/-- What may be missing fits where what is there does. -/
theorem fits_nullable {α : Type} {write : α → Value} {depth : Nat}
    (h : ∀ a, Json.Fits depth (write a)) (x : Option α) :
    Json.Fits depth (Json.nullable write x) := by
  cases x with
  | none => exact .null
  | some a => exact h a

/-- A number of up to 64 bits fits anywhere. -/
theorem fits_natural {bits n depth : Nat} (h : n < 2 ^ bits) (hbits : bits ≤ 64) :
    Json.Fits depth (.number (.natural n)) := by
  have hle : 2 ^ bits ≤ 2 ^ 64 := Nat.pow_le_pow_right (by omega) hbits
  exact .number (.natural n (by omega))

/-- An operation record takes two levels. -/
theorem Operation.fits_toJson {op : Operation} (h : op.Typed) (depth : Nat) :
    Json.Fits (depth + 2) op.toJson := by
  have hformat : Json.Fits (depth + 1) (.number (.natural op.formatVersion)) :=
    fits_natural h.formatVersion (by omega)
  have hstarted : Json.Fits (depth + 1) (.number (.natural op.startedAtMs)) :=
    fits_natural h.startedAtMs (by omega)
  have hupdated : Json.Fits (depth + 1) (.number (.natural op.updatedAtMs)) :=
    fits_natural h.updatedAtMs (by omega)
  have hphase : Json.Fits (depth + 1) op.phase.toJson := .string _
  have houtcome : Json.Fits (depth + 1) (Json.nullable Outcome.toJson op.outcome) :=
    fits_nullable (fun _ => .string _) op.outcome
  have hreason : Json.Fits (depth + 1) (Json.nullable .string op.reason) :=
    fits_nullable .string op.reason
  have hprovenance : Json.Fits (depth + 1) (Json.nullable Provenance.toJson op.provenance) :=
    fits_nullable (fun p => .object (by simp [Json.Fits.string])) op.provenance
  have hmetadata : Json.Fits (depth + 1) op.metadata.toJson := by
    apply Json.Fits.object
    intro p hp
    obtain ⟨q, -, rfl⟩ := List.mem_map.mp hp
    exact .string q.2
  exact .object (by simp [Json.Fits.string, hformat, hstarted, hupdated, hphase, houtcome, hreason,
    hprovenance, hmetadata])

/-- A response is never too deep for the reader. -/
theorem Response.fits_toJson {r : Response} (h : r.Typed) : Json.Fits Json.maxDepth r.toJson := by
  have hversion : Json.Fits 126 (.number (.natural r.protocolVersion)) :=
    fits_natural h.protocolVersion (by omega)
  have hcode : Json.Fits 126 (.number (.natural r.exitCode)) := fits_natural h.exitCode (by omega)
  have herror : Json.Fits 126 (Json.nullable .string r.error) := fits_nullable .string r.error
  have hoperation : Json.Fits 126 r.operation.toJson := by
    cases hop : r.operation with
    | genesis => exact .object (by simp [Json.Fits.string])
    | unreadable reason => exact .object (by simp [Json.Fits.string])
    | observed op =>
        have hrecord : Json.Fits 125 op.toJson := Operation.fits_toJson (h.operation op hop) 123
        exact .object (by simp [Json.Fits.string, hrecord])
  exact .object (by simp [Json.Fits.string, hversion, hcode, herror, hoperation])

/-- A response is read back from its bytes, the newline behind it included. -/
theorem Serde.response_bytes (serde : Serde) {r : Response} (h : r.Typed) :
    serde.response r.bytes = .ok r := by
  have hnewline : Json.encode ['\n'] = [10] := by decide
  have hbytes : r.bytes = Json.encode (r.toJson.write ++ ['\n']) := by
    rw [Response.bytes, ← hnewline]
    simp [toVec, Json.encode]
  have hspace : ∀ c ∈ ['\n'], Json.isSpace c = true := by
    intro c hc
    rw [List.mem_singleton.mp hc]
    rfl
  have hread := Json.fromSlice_encode serde.float (Response.fits_toJson h) hspace
  rw [← hbytes] at hread
  simp [response, hread, Response.fromJson_toJson h]

/-- The length of a text between its quotes, escaped. -/
def quoted (s : String) : Nat := Json.size (Json.writeString s)

def digits (n : Nat) : Nat := (Nat.toDigits 10 n).length

def nullableLength {α : Type} (length : α → Nat) : Option α → Nat
  | none => 4
  | some a => length a

def Detail.length : Detail → Nat
  | [] => 2
  | d => 1 + (d.map fun p => quoted p.1 + quoted p.2 + 2).sum

def Provenance.length (p : Provenance) : Nat := 19 + quoted p.who + quoted p.carrier

def Operation.length (op : Operation) : Nat :=
  167 + digits op.formatVersion + quoted op.id + digits op.startedAtMs + digits op.updatedAtMs +
    quoted op.fromVersion + quoted op.targetVersion + quoted op.previousStableVersion +
    quoted op.phase.name + nullableLength (fun o : Outcome => quoted o.phase.name) op.outcome +
    nullableLength quoted op.reason + nullableLength Provenance.length op.provenance +
    op.metadata.length

def OperationRead.length : OperationRead → Nat
  | .genesis => 18
  | .observed op => 32 + op.length
  | .unreadable reason => 31 + quoted reason

/-- The number of bytes of a response and its newline. -/
def Response.length (r : Response) : Nat :=
  75 + digits r.protocolVersion + quoted r.action + digits r.exitCode + quoted r.result +
    r.operation.length + nullableLength quoted r.error

/-- The names of the members, between their quotes. -/
theorem quoted_names : quoted "protocolVersion" = 17 ∧ quoted "action" = 8 ∧
    quoted "exitCode" = 10 ∧ quoted "result" = 8 ∧ quoted "operation" = 11 ∧ quoted "error" = 7 ∧
    quoted "kind" = 6 ∧ quoted "reason" = 8 ∧ quoted "formatVersion" = 15 ∧ quoted "id" = 4 ∧
    quoted "startedAtMs" = 13 ∧ quoted "updatedAtMs" = 13 ∧ quoted "fromVersion" = 13 ∧
    quoted "targetVersion" = 15 ∧ quoted "previousStableVersion" = 23 ∧ quoted "phase" = 7 ∧
    quoted "outcome" = 9 ∧ quoted "provenance" = 12 ∧ quoted "metadata" = 10 ∧ quoted "who" = 5 ∧
    quoted "carrier" = 9 := by
  decide

/-- A digit takes one byte. -/
theorem utf8Size_of_isDigit {c : Char} (h : c.isDigit = true) : c.utf8Size = 1 := by
  have hle : c.val ≤ 0x7f := by
    simp only [Char.isDigit, Bool.and_eq_true, decide_eq_true_eq] at h
    exact UInt32.le_trans h.2 (by decide)
  simp [Char.utf8Size, hle]

/-- A number takes its digits. -/
theorem size_natural (n : Nat) : Json.size (Value.number (.natural n)).write = digits n := by
  have hdigit : ∀ c ∈ Nat.toDigits 10 n, c.utf8Size = 1 := fun c hc =>
    utf8Size_of_isDigit (Nat.isDigit_of_mem_toDigits (by omega) (by omega) hc)
  rw [Json.size_write_number, Json.Number.write, Json.size, List.map_congr_left hdigit]
  simp [digits]

/-- What may be missing takes what is there, or `null`. -/
theorem size_nullable {α : Type} {write : α → Value} {length : α → Nat}
    (h : ∀ a, Json.size (write a).write = length a) (x : Option α) :
    Json.size (Json.nullable write x).write = nullableLength length x := by
  cases x with
  | none =>
      have hnull : Json.size Value.null.write = 4 := by decide
      exact hnull
  | some a => exact h a

/-- The name of a member takes its quoted text. -/
theorem size_name (s : String) : Json.size (Json.writeString s) = quoted s := rfl

/-- A text takes its quoted text. -/
theorem size_string (s : String) : Json.size (Value.string s).write = quoted s := rfl

/-- Details take their length. -/
theorem Detail.size_toJson (d : Detail) : Json.size d.toJson.write = d.length := by
  have hmembers : ∀ (p : String × String) (rest : Detail),
      Json.size (Json.writeMembers ((p :: rest).map fun p => (p.1, Value.string p.2))) + 1 =
        ((p :: rest).map fun p => quoted p.1 + quoted p.2 + 2).sum := by
    intro p rest
    induction rest generalizing p with
    | nil =>
        simp only [List.map_cons, List.map_nil, Json.size_writeMembers_one, size_name, size_string,
          List.sum_cons, List.sum_nil]
        omega
    | cons q rest ih =>
        have hq := ih q
        simp only [List.map_cons, Json.size_writeMembers_cons, size_name, size_string,
          List.sum_cons] at hq ⊢
        omega
  cases d with
  | nil => decide
  | cons p rest =>
      have hp := hmembers p rest
      rw [Detail.toJson, Json.size_write_object, Detail.length]
      · omega
      · simp

/-- A provenance takes its length. -/
theorem Provenance.size_toJson (p : Provenance) : Json.size p.toJson.write = p.length := by
  simp only [toJson, Json.size_write_object, Json.size_writeMembers_cons,
    Json.size_writeMembers_one, size_name, size_string, length, quoted_names]
  omega

/-- An operation record takes its length. -/
theorem Operation.size_toJson (op : Operation) : Json.size op.toJson.write = op.length := by
  have hname : ∀ o : Outcome, Json.size o.toJson.write = quoted o.phase.name := fun _ => rfl
  have houtcome := size_nullable hname op.outcome
  have hreason := size_nullable size_string op.reason
  have hprovenance := size_nullable Provenance.size_toJson op.provenance
  simp only [toJson, Json.size_write_object, Json.size_writeMembers_cons,
    Json.size_writeMembers_one, size_name, size_string, size_natural, length, quoted_names,
    OperationPhase.toJson, houtcome, hreason, hprovenance,
    op.metadata.size_toJson]
  omega

/-- What was read of a record takes its length. -/
theorem OperationRead.size_toJson (read : OperationRead) :
    Json.size read.toJson.write = read.length := by
  cases read with
  | genesis => decide
  | observed op =>
      have hkind : quoted "observed" = 10 := by decide
      simp only [toJson, Json.size_write_object, Json.size_writeMembers_cons,
        Json.size_writeMembers_one, size_name, size_string, length, quoted_names, hkind, op.size_toJson]
      omega
  | unreadable reason =>
      have hkind : quoted "unreadable" = 12 := by decide
      simp only [toJson, Json.size_write_object, Json.size_writeMembers_cons,
        Json.size_writeMembers_one, size_name, size_string, length, quoted_names, hkind]
      omega

/-- What a response takes on the wire. -/
theorem Response.length_bytes (r : Response) : r.bytes.length = r.length := by
  have herror := size_nullable size_string r.error
  rw [bytes, List.length_append, Json.length_toVec]
  simp only [toJson, Json.size_write_object, Json.size_writeMembers_cons,
    Json.size_writeMembers_one, size_name, size_string, size_natural, length, quoted_names,
    r.operation.size_toJson, herror, List.length_singleton]
  omega

/-! ## what a record takes -/

/-- What no transition changes of a record. -/
def Operation.frame (op : Operation) : Nat :=
  167 + digits op.formatVersion + quoted op.id + digits op.startedAtMs + quoted op.fromVersion +
    quoted op.targetVersion + quoted op.previousStableVersion +
    nullableLength Provenance.length op.provenance + op.metadata.length

/-- A text in two parts has one pair of quotes. -/
theorem quoted_append (s t : String) : quoted (s ++ t) + 2 = quoted s + quoted t := by
  have hescaped : Json.escaped (s ++ t).toList = Json.escaped s.toList ++ Json.escaped t.toList := by
    rw [String.toList_append, Json.escaped, List.flatMap_append]
    rfl
  simp only [quoted, Json.size_writeString, hescaped, Json.size_append]
  omega

/-- A number of 64 bits has at most 20 digits. -/
theorem digits_le {n : Nat} (h : n < 2 ^ 64) : digits n ≤ 20 := by
  have hlt : n < 10 ^ 20 := by omega
  exact (Nat.length_toDigits_le_iff (by omega) (by omega)).mpr hlt

/-- The longest name of a phase is `handing-over`. -/
theorem OperationPhase.quoted_name_le (phase : OperationPhase) : quoted phase.name ≤ 14 := by
  cases phase <;> decide

/-- The longest name of an outcome is `rolled-back`. -/
theorem Outcome.quoted_name_le (outcome : Outcome) : quoted outcome.phase.name ≤ 13 := by
  cases outcome <;> decide

/-- A record takes its frame, its reason, and what the rest of it can take. -/
theorem Operation.length_le {op : Operation} (h : op.Typed) :
    op.length ≤ op.frame + nullableLength quoted op.reason + 47 := by
  have hupdated := digits_le h.updatedAtMs
  have hphase := op.phase.quoted_name_le
  have houtcome : nullableLength (fun o : Outcome => quoted o.phase.name) op.outcome ≤ 13 := by
    cases op.outcome with
    | none => simp [nullableLength]
    | some outcome => exact outcome.quoted_name_le
  rw [length, frame]
  omega

end KCarrier
