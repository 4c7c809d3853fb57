import KCarrier.Protocol
import KCarrier.Storage
import KCarrier.Json.Derive
import KCarrier.Json.RoundTrip

/-!
# KCarrier.Protocol.Wire

Requests as bytes.

The supervisor writes a request with its tag first and its fields in their order;
`serve_runner` reads no more than 16,384 bytes, and `Request::parse` goes through a map
and looks at two members before the derived reader does.

* `request_fits` — a valid request fits the input of the runner and is read back;
* `request_accepted` — what an accepted request says, whether or not it is an object all
  the way down.
-/

namespace KCarrier

open Json (Value Members toVec)

/-- What the JSON library does that no result depends on: the floats it reads, and the
texts of its errors. -/
structure Serde where
  float : List Char → Option String
  message : Bytes → String

/-! ## writing -/

def Expected.toJson (e : Expected) : Value :=
  .object [("id", .string e.id), ("targetVersion", .string e.targetVersion)]

namespace Request

def toJson : Request → Value
  | .upgrade version id targetVersion consented =>
      .object [("action", .string "upgrade"), ("protocolVersion", .number (.natural version)),
        ("id", .string id), ("targetVersion", .string targetVersion),
        ("consented", .bool consented)]
  | .recover version none =>
      .object [("action", .string "recover"), ("protocolVersion", .number (.natural version))]
  | .recover version (some e) =>
      .object [("action", .string "recover"), ("protocolVersion", .number (.natural version)),
        ("expected", e.toJson)]
  | .status version =>
      .object [("action", .string "status"), ("protocolVersion", .number (.natural version))]

end Request

/-! ## reading -/

def Expected.fromJson (v : Value) : Option Expected := do
  let fields ← Json.record ["id", "targetVersion"] true v
  let id ← Json.required fields "id" Value.asString
  let targetVersion ← Json.required fields "targetVersion" Value.asString
  some ⟨id, targetVersion⟩

namespace Request

def fromJson (v : Value) : Option Request := do
  let (action, content) ← Json.tagged "action" v
  if action = "upgrade" then do
    let fields ← Json.record ["protocolVersion", "id", "targetVersion", "consented"] true content
    let version ← Json.required fields "protocolVersion" (Value.asUnsigned 32)
    let id ← Json.required fields "id" Value.asString
    let targetVersion ← Json.required fields "targetVersion" Value.asString
    let consented ← Json.required fields "consented" Value.asBool
    some (.upgrade version id targetVersion consented)
  else if action = "recover" then do
    let fields ← Json.record ["protocolVersion", "expected"] true content
    let version ← Json.required fields "protocolVersion" (Value.asUnsigned 32)
    let expected ← Json.optional fields "expected" Expected.fromJson
    some (.recover version expected)
  else if action = "status" then do
    let fields ← Json.record ["protocolVersion"] true content
    let version ← Json.required fields "protocolVersion" (Value.asUnsigned 32)
    some (.status version)
  else
    none

/-- Whether the document says that it follows version 1. -/
def isVersionOne : Option Value → Bool
  | some (.number (.natural 1)) => true
  | _ => false

def isNull : Option Value → Bool
  | some .null => true
  | _ => false

def parse (serde : Serde) (bytes : Bytes) : Except Error Request :=
  if bytes.length > 65536 then
    .error (.invalid "RUNNER_PROTOCOL_INVALID: request too large")
  else
    match Json.fromSlice serde.float bytes with
    | none => .error (.json (serde.message bytes))
    | some document =>
        let value := document.settle
        if !isVersionOne (value.get "protocolVersion") then
          .error (.invalid "RUNNER_PROTOCOL_UNSUPPORTED")
        else if isNull (value.get "expected") then
          .error (.invalid "RUNNER_PROTOCOL_INVALID: null expected")
        else
          match fromJson value with
          | none => .error (.json (serde.message bytes))
          | some request =>
              match request.validate with
              | .error e => .error e
              | .ok () => .ok request

end Request

/-- What `serve_runner` makes of its input. -/
def serveRequest (serde : Serde) (input : Bytes) : Except Error Request :=
  let bytes := input.take 16385
  if bytes.length > 16384 then
    .error (.invalid "RUNNER_REQUEST_TOO_LARGE")
  else
    Request.parse serde bytes

/-! ## sizes -/

theorem length_le_utf16Length (s : String) : s.toList.length ≤ utf16Length s := by
  unfold utf16Length
  induction s.toList with
  | nil => simp
  | cons c cs ih =>
      simp only [List.length_cons, List.map_cons, List.sum_cons]
      split <;> omega

/-- A text of a request, whatever it takes to escape it. -/
theorem size_text {s : String} (h : text s = true) :
    Json.size (Json.writeString s) ≤ 1538 := by
  have hunits : utf16Length s ≤ 256 := by
    simp only [text, Bool.and_eq_true, decide_eq_true_eq] at h
    exact h.2
  have hlength := length_le_utf16Length s
  have hescaped := Json.size_escaped_le s.toList
  rw [Json.size_writeString]
  omega

namespace Request

theorem validate_eq_ok_iff {r : Request} :
    r.validate = .ok () ↔ r.protocolVersion = 1 ∧
      ∀ e, r.expected = some e → text e.id = true ∧ text e.targetVersion = true := by
  unfold validate
  by_cases hversion : r.protocolVersion = 1
  · cases he : r.expected with
    | none => simp [hversion]
    | some e =>
        cases hid : text e.id <;> cases htarget : text e.targetVersion <;>
          simp [hversion, hid, htarget]
  · simp [hversion]

theorem fits_toJson (r : Request) (h : r.protocolVersion = 1) :
    Json.Fits Json.maxDepth r.toJson := by
  have hone : Json.Number.Fits (.natural 1) := .natural 1 (by omega)
  cases r with
  | upgrade version id targetVersion consented =>
      obtain rfl : version = 1 := h
      exact .object (by simp [Json.Fits.string, Json.Fits.bool, Json.Fits.number hone])
  | recover version expected =>
      obtain rfl : version = 1 := h
      cases expected with
      | none => exact .object (by simp [Json.Fits.string, Json.Fits.number hone])
      | some e =>
          have he : Json.Fits 126 e.toJson := .object (by simp [Json.Fits.string])
          exact .object (by simp [Json.Fits.string, Json.Fits.number hone, he])
  | status version =>
      obtain rfl : version = 1 := h
      exact .object (by simp [Json.Fits.string, Json.Fits.number hone])

/-- The derived reader reads what the derived writer wrote. -/
theorem fromJson_toJson (r : Request) (h : r.protocolVersion = 1) :
    fromJson r.toJson.settle = some r := by
  cases r with
  | upgrade version id targetVersion consented =>
      obtain rfl : version = 1 := h
      rfl
  | recover version expected =>
      obtain rfl : version = 1 := h
      cases expected <;> rfl
  | status version =>
      obtain rfl : version = 1 := h
      rfl

/-- A request leaves most of the input bound unused. -/
theorem length_toVec_le (r : Request) (h : r.validate = .ok ()) :
    (toVec r.toJson).length ≤ 16384 := by
  obtain ⟨hversion, htexts⟩ := validate_eq_ok_iff.mp h
  rw [Json.length_toVec]
  have hone : Json.size (Json.Number.natural 1).write = 1 := by decide
  have haction : Json.size (Json.writeString "action") = 8 := by decide
  have hkey : Json.size (Json.writeString "protocolVersion") = 17 := by decide
  have hid : Json.size (Json.writeString "id") = 4 := by decide
  have htarget : Json.size (Json.writeString "targetVersion") = 15 := by decide
  cases r with
  | upgrade version id targetVersion consented =>
      obtain rfl : version = 1 := hversion
      have hupgrade : Json.size (Json.writeString "upgrade") = 9 := by decide
      have hname : Json.size (Json.writeString "consented") = 11 := by decide
      have hconsented : Json.size (Value.bool consented).write ≤ 5 := by cases consented <;> decide
      have htexts : text id = true ∧ text targetVersion = true := htexts _ rfl
      have hsizes := And.intro (size_text htexts.1) (size_text htexts.2)
      simp only [toJson, Json.size_write_object, Json.size_writeMembers_cons,
        Json.size_writeMembers_one, Json.size_write_string, Json.size_write_number, hone, haction,
        hkey, hid, htarget, hupgrade, hname]
      omega
  | recover version expected =>
      obtain rfl : version = 1 := hversion
      have hrecover : Json.size (Json.writeString "recover") = 9 := by decide
      cases expected with
      | none =>
          simp only [toJson, Json.size_write_object, Json.size_writeMembers_cons,
            Json.size_writeMembers_one, Json.size_write_string, Json.size_write_number, hone,
            haction, hkey, hrecover]
          omega
      | some e =>
          have hname : Json.size (Json.writeString "expected") = 10 := by decide
          have htexts := htexts e rfl
          have hsizes := And.intro (size_text htexts.1) (size_text htexts.2)
          simp only [toJson, Expected.toJson, Json.size_write_object, Json.size_writeMembers_cons,
            Json.size_writeMembers_one, Json.size_write_string, Json.size_write_number, hone,
            haction, hkey, hid, htarget, hrecover, hname]
          omega
  | status version =>
      obtain rfl : version = 1 := hversion
      have hstatus : Json.size (Json.writeString "status") = 8 := by decide
      simp only [toJson, Json.size_write_object, Json.size_writeMembers_cons,
        Json.size_writeMembers_one, Json.size_write_string, Json.size_write_number, hone, haction,
        hkey, hstatus]
      omega

/-- The bytes of a valid request are read as that request. -/
theorem parse_toVec (serde : Serde) (r : Request) (h : r.validate = .ok ()) :
    parse serde (toVec r.toJson) = .ok r := by
  have hversion : r.protocolVersion = 1 := (validate_eq_ok_iff.mp h).1
  have hsmall : ¬(toVec r.toJson).length > 65536 := by
    have := length_toVec_le r h
    omega
  have hread := Json.fromSlice_toVec serde.float (fits_toJson r hversion)
  have hone : isVersionOne (r.toJson.settle.get "protocolVersion") = true := by
    cases r with
    | upgrade version id targetVersion consented =>
        obtain rfl : version = 1 := hversion
        rfl
    | recover version expected =>
        obtain rfl : version = 1 := hversion
        cases expected <;> rfl
    | status version =>
        obtain rfl : version = 1 := hversion
        rfl
  have hnull : isNull (r.toJson.settle.get "expected") = false := by
    cases r with
    | upgrade => rfl
    | recover version expected => cases expected <;> rfl
    | status => rfl
  simp only [parse, if_neg hsmall, hread, hone, hnull, fromJson_toJson r hversion, h]
  rfl

/-! ## what an accepted request says -/

/-- The names of the members of a request. -/
def keys : Request → List String
  | .upgrade _ _ _ _ => ["action", "protocolVersion", "id", "targetVersion", "consented"]
  | .recover _ none => ["action", "protocolVersion"]
  | .recover _ (some _) => ["action", "protocolVersion", "expected"]
  | .status _ => ["action", "protocolVersion"]

/-- The members the action asks for. -/
def Fields (v : Value) : Request → Prop
  | .upgrade _ id targetVersion consented => v.get "id" = some (.string id) ∧
      v.get "targetVersion" = some (.string targetVersion) ∧
      v.get "consented" = some (.bool consented)
  | .recover _ (some e) => ∃ members, v.get "expected" = some (.object members) ∧
      (∀ key, key ∈ members.map (·.1) ↔ key ∈ ["id", "targetVersion"]) ∧
      members.lookup "id" = some (.string e.id) ∧
      members.lookup "targetVersion" = some (.string e.targetVersion)
  | _ => True

/-- The value is an object that spells the request out. -/
structure Spelled (r : Request) (v : Value) : Prop where
  keys : ∃ members, v = .object members ∧ ∀ key, key ∈ members.map (·.1) ↔ key ∈ r.keys
  version : v.get "protocolVersion" = some (.number (.natural 1))
  action : v.get "action" = some (.string r.action)
  fields : r.Fields v
  texts : ∀ e, r.expected = some e → text e.id = true ∧ text e.targetVersion = true
  encoded : r.toJson.settle = v

/-- The operation a recovery expects is listed, not named. -/
def ExpectsArray (v : Value) : Prop := ∃ items, v.get "expected" = some (.array items)

end Request

/-! The documents the writer settles for, member by member. -/

theorem Expected.settle_toJson (e : Expected) : e.toJson.settle =
    .object [("id", .string e.id), ("targetVersion", .string e.targetVersion)] := rfl

namespace Request

theorem settle_upgrade (version : Nat) (id targetVersion : String) (consented : Bool) :
    (upgrade version id targetVersion consented).toJson.settle =
      .object [("action", .string "upgrade"), ("consented", .bool consented), ("id", .string id),
        ("protocolVersion", .number (.natural version)),
        ("targetVersion", .string targetVersion)] := rfl

theorem settle_recover_none (version : Nat) : (recover version none).toJson.settle =
    .object [("action", .string "recover"),
      ("protocolVersion", .number (.natural version))] := rfl

theorem settle_recover_some (version : Nat) (e : Expected) :
    (recover version (some e)).toJson.settle =
      .object [("action", .string "recover"), ("expected", e.toJson.settle),
        ("protocolVersion", .number (.natural version))] := rfl

theorem settle_status (version : Nat) : (status version).toJson.settle =
    .object [("action", .string "status"), ("protocolVersion", .number (.natural version))] := rfl

theorem spelled_toJson {r : Request} (h : r.validate = .ok ()) : Spelled r r.toJson.settle := by
  obtain ⟨hversion, htexts⟩ := validate_eq_ok_iff.mp h
  cases r with
  | upgrade version id targetVersion consented =>
      obtain rfl : version = 1 := hversion
      have hkeys := settle_upgrade 1 id targetVersion consented
      exact ⟨⟨_, hkeys, by simp [keys]; grind⟩, rfl, rfl, ⟨rfl, rfl, rfl⟩, htexts, rfl⟩
  | recover version expected =>
      obtain rfl : version = 1 := hversion
      cases expected with
      | none => exact ⟨⟨_, settle_recover_none 1, by simp [keys]⟩, rfl, rfl, trivial, htexts, rfl⟩
      | some e =>
          have hfields : Fields (recover 1 (some e)).toJson.settle (recover 1 (some e)) :=
            ⟨[("id", .string e.id), ("targetVersion", .string e.targetVersion)], rfl, by simp, rfl,
              rfl⟩
          have hkeys := settle_recover_some 1 e
          exact ⟨⟨_, hkeys, by simp [keys]; grind⟩, rfl, rfl, hfields, htexts, rfl⟩
  | status version =>
      obtain rfl : version = 1 := hversion
      exact ⟨⟨_, settle_status 1, by simp [keys]⟩, rfl, rfl, trivial, htexts, rfl⟩

end Request

/-- Sorted members that say the same as the written ones, under every name there is. -/
theorem settle_of_lookup {v : Value} {written members : Members Value} (names : List String)
    (hv : v.settle = .object written) (hc : Json.Canonical (.object members))
    (hwritten : ∀ p ∈ written, p.1 ∈ names) (hmembers : ∀ p ∈ members, p.1 ∈ names)
    (h : ∀ key ∈ names, written.lookup key = members.lookup key) :
    v.settle = .object members := by
  have hcanonical := Json.canonical_settle v
  rw [hv] at hcanonical ⊢
  cases hc with
  | object _ hsorted _ =>
      cases hcanonical with
      | object _ hwrittenSorted _ =>
          rw [Json.eq_of_lookup_names hwrittenSorted hsorted names hwritten hmembers h]

/-- An object that is read as an expectation is the one that is written for it. -/
theorem Expected.settle_of_fromJson {members : Members Value} {e : Expected}
    (hc : Json.Canonical (.object members)) (h : Expected.fromJson (.object members) = some e) :
    e.toJson.settle = .object members := by
  obtain ⟨fields, hrecord, h⟩ := Option.bind_eq_some_iff.mp h
  obtain ⟨id, hid, h⟩ := Option.bind_eq_some_iff.mp h
  obtain ⟨target, htarget, h⟩ := Option.bind_eq_some_iff.mp h
  cases h
  obtain ⟨rfl, hnames⟩ := Json.record_object hrecord
  have hid := Json.required_string hid
  have htarget := Json.required_string htarget
  exact settle_of_lookup ["id", "targetVersion"] (Expected.settle_toJson _) hc (by simp) hnames
    (by simp [hid, htarget, List.lookup_cons])

/-- An expectation is read from an object or an array. -/
theorem Expected.fromJson_shape {v : Value} {e : Expected} (h : Expected.fromJson v = some e) :
    (∃ members, v = .object members) ∨ ∃ items, v = .array items := by
  cases v with
  | object members => exact .inl ⟨members, rfl⟩
  | array items => exact .inr ⟨items, rfl⟩
  | _ => cases h

namespace Request

/-- The members of a tagged object, under every name the variant knows. -/
theorem names_of_record {names : List String} {members fields : Members Value}
    (h : Json.record names true (.object (members.filter (·.1 != "action"))) = some fields) :
    (∀ p ∈ members, p.1 ∈ "action" :: names) ∧
      ∀ key, key ≠ "action" → members.lookup key = fields.lookup key := by
  obtain ⟨rfl, hnames⟩ := Json.record_object h
  constructor
  · intro p hp
    by_cases haction : p.1 = "action"
    · simp [haction]
    · exact List.mem_cons_of_mem _ (hnames p (by simp [hp, haction]))
  · intro key hkey
    rw [Json.lookup_filter_ne members hkey]

theorem settle_of_fromJson {members : Members Value} {r : Request}
    (hc : Json.Canonical (.object members))
    (hversion : members.lookup "protocolVersion" = some (.number (.natural r.protocolVersion)))
    (hnull : members.lookup "expected" ≠ some .null) (harray : ¬ExpectsArray (.object members))
    (h : fromJson (.object members) = some r) : r.toJson.settle = .object members := by
  obtain ⟨⟨action, content⟩, htagged, h⟩ := Option.bind_eq_some_iff.mp h
  obtain ⟨haction, rfl⟩ := Json.tagged_object htagged
  simp only at h
  split at h
  · next hname =>
      subst hname
      obtain ⟨fields, hrecord, h⟩ := Option.bind_eq_some_iff.mp h
      obtain ⟨version, -, h⟩ := Option.bind_eq_some_iff.mp h
      obtain ⟨id, hid, h⟩ := Option.bind_eq_some_iff.mp h
      obtain ⟨target, htarget, h⟩ := Option.bind_eq_some_iff.mp h
      obtain ⟨consented, hconsented, h⟩ := Option.bind_eq_some_iff.mp h
      cases h
      obtain ⟨hnames, hlookup⟩ := names_of_record hrecord
      have hid := Json.required_string hid
      have htarget := Json.required_string htarget
      have hconsented := Json.required_bool hconsented
      rw [← hlookup _ (by decide)] at hid htarget hconsented
      exact settle_of_lookup _ (settle_upgrade version id target consented) hc (by simp) hnames
        (by simp [haction, hversion, hid, htarget, hconsented, List.lookup_cons, protocolVersion])
  · split at h
    · next hname =>
        subst hname
        obtain ⟨fields, hrecord, h⟩ := Option.bind_eq_some_iff.mp h
        obtain ⟨version, -, h⟩ := Option.bind_eq_some_iff.mp h
        obtain ⟨expected, hexpected, h⟩ := Option.bind_eq_some_iff.mp h
        cases h
        obtain ⟨hnames, hlookup⟩ := names_of_record hrecord
        have hcases := Json.optional_eq_some hexpected
        rcases hcases with ⟨hnone, rfl⟩ | ⟨hfound, rfl⟩ | ⟨v, e, hv, he, rfl⟩
        · rw [← hlookup _ (by decide)] at hnone
          exact settle_of_lookup _ (settle_recover_none version) hc (by simp) hnames
            (by simp [haction, hversion, hnone, List.lookup_cons, protocolVersion])
        · rw [← hlookup _ (by decide)] at hfound
          exact absurd hfound hnull
        · rw [← hlookup _ (by decide)] at hv
          have hcanonical : Json.Canonical v := by
            cases hc with
            | object _ _ hall => exact hall _ (Json.mem_of_lookup hv)
          cases Expected.fromJson_shape he with
          | inl hobject =>
              obtain ⟨named, rfl⟩ := hobject
              have hsettle := Expected.settle_of_fromJson hcanonical he
              exact settle_of_lookup _ (settle_recover_some version e) hc (by simp) hnames
                (by simp [haction, hversion, hv, hsettle, List.lookup_cons, protocolVersion])
          | inr hitems =>
              obtain ⟨items, rfl⟩ := hitems
              exact absurd ⟨items, hv⟩ harray
    · split at h
      · next hname =>
          subst hname
          obtain ⟨fields, hrecord, h⟩ := Option.bind_eq_some_iff.mp h
          obtain ⟨version, -, h⟩ := Option.bind_eq_some_iff.mp h
          cases h
          obtain ⟨hnames, -⟩ := names_of_record hrecord
          exact settle_of_lookup _ (settle_status version) hc (by simp) hnames
            (by simp [haction, hversion, List.lookup_cons, protocolVersion])
      · cases h

/-- What `parse` accepted, check by check. -/
theorem parse_eq_ok {serde : Serde} {bytes : Bytes} {r : Request}
    (h : parse serde bytes = .ok r) :
    ∃ document members, Json.fromSlice serde.float bytes = some document ∧
      document.settle = .object members ∧
      members.lookup "protocolVersion" = some (.number (.natural 1)) ∧
      members.lookup "expected" ≠ some .null ∧ fromJson (.object members) = some r ∧
      r.validate = .ok () := by
  unfold parse at h
  split at h
  · cases h
  · split at h
    · cases h
    · next document hdocument =>
        simp only at h
        split at h
        · cases h
        · next hversion =>
            split at h
            · cases h
            · next hnull =>
                split at h
                · cases h
                · next request hrequest =>
                    split at h
                    · cases h
                    · next hvalid =>
                        cases h
                        cases hsettle : document.settle with
                        | object members =>
                            simp only [hsettle, Value.get] at hversion hnull hrequest
                            refine ⟨document, members, hdocument, hsettle, ?_, ?_, hrequest, hvalid⟩
                            · unfold isVersionOne at hversion
                              grind
                            · intro hfound
                              simp [hfound, isNull] at hnull
                        | _ => simp [hsettle, Value.get, isVersionOne] at hversion

theorem not_expectsArray_toJson (r : Request) : ¬ExpectsArray r.toJson.settle := by
  rintro ⟨items, h⟩
  cases r with
  | upgrade => cases h
  | recover version expected => cases expected <;> cases h
  | status => cases h

end Request

/-- Requests on the wire.  A valid request fits the input bound of the runner, whatever its
texts take to escape, and is read back as it was sent.  What the runner accepts spells its
request out, and is written again as it was, exactly when it names what a recovery expects
instead of listing it. -/
theorem request_agreement (serde : Serde) :
    (∀ r : Request, r.validate = .ok () → (toVec r.toJson).length ≤ 16384 ∧
      Request.parse serde (toVec r.toJson) = .ok r ∧
      serveRequest serde (toVec r.toJson) = .ok r) ∧
    (∀ bytes r, Request.parse serde bytes = .ok r →
      ∃ document, Json.fromSlice serde.float bytes = some document ∧
        (r.Spelled document.settle ↔ ¬Request.ExpectsArray document.settle)) := by
  constructor
  · intro r h
    have hlength := Request.length_toVec_le r h
    have hparse := Request.parse_toVec serde r h
    refine ⟨hlength, hparse, ?_⟩
    have htake : (toVec r.toJson).take 16385 = toVec r.toJson :=
      List.take_of_length_le (by omega)
    simp only [serveRequest, htake, hparse]
    rw [if_neg (by omega)]
  · intro bytes r h
    obtain ⟨document, members, hdocument, hsettle, hversion, hnull, hread, hvalid⟩ :=
      Request.parse_eq_ok h
    refine ⟨document, hdocument, ?_⟩
    constructor
    · intro hspelled
      rw [← hspelled.encoded]
      exact Request.not_expectsArray_toJson r
    · intro harray
      have hone : r.protocolVersion = 1 := (Request.validate_eq_ok_iff.mp hvalid).1
      have hcanonical := Json.canonical_settle document
      rw [hsettle] at hcanonical harray ⊢
      rw [← Request.settle_of_fromJson hcanonical (by rw [hone]; exact hversion) hnull harray hread]
      exact Request.spelled_toJson hvalid

/-- A JSON library without floats. -/
def plainSerde : Serde where
  float _ := none
  message _ := "expected value at line 1 column 1"

theorem request_agreement_upgrade :
    serveRequest plainSerde (toVec (Request.upgrade 1 "op-1" "2\u0001\u0001" true).toJson) =
      .ok (.upgrade 1 "op-1" "2\u0001\u0001" true) := by
  have hvalid : (Request.upgrade 1 "op-1" "2\u0001\u0001" true).validate = .ok () :=
    Request.validate_upgrade (by decide +kernel) (by decide +kernel)
  exact ((request_agreement plainSerde).1 _ hvalid).2.2

/-- A recovery that lists the id and the target it expects. -/
def listedRecovery : Value :=
  .object [("protocolVersion", .number (.natural 1)), ("action", .string "recover"),
    ("expected", .array [.string "op-1", .string "2"])]

/-- It is accepted, though `expected` is no object, and is written as another document. -/
theorem request_listed : ∃ r document,
    Request.parse plainSerde (toVec listedRecovery) = .ok r ∧
    Json.fromSlice plainSerde.float (toVec listedRecovery) = some document ∧
    ¬r.Spelled document.settle ∧ r.toJson.settle ≠ document.settle := by
  have hone : Json.Number.Fits (.natural 1) := .natural 1 (by omega)
  have hlist : Json.Fits 126 (.array [.string "op-1", .string "2"]) :=
    .array (by simp [Json.Fits.string])
  have hfits : Json.Fits Json.maxDepth listedRecovery :=
    .object (by simp [Json.Fits.string, Json.Fits.number hone, hlist])
  have hread := Json.fromSlice_toVec plainSerde.float hfits
  have hsmall : ¬(toVec listedRecovery).length > 65536 := by
    rw [Json.length_toVec]
    decide +kernel
  have hvalid : (Request.recover 1 (some ⟨"op-1", "2"⟩)).validate = .ok () :=
    Request.validate_recover (by decide +kernel) (by decide +kernel)
  have hrequest : Request.fromJson listedRecovery.settle =
      some (.recover 1 (some ⟨"op-1", "2"⟩)) := rfl
  have hversion : Request.isVersionOne (listedRecovery.settle.get "protocolVersion") = true := rfl
  have hnull : Request.isNull (listedRecovery.settle.get "expected") = false := rfl
  have hparse : Request.parse plainSerde (toVec listedRecovery) =
      .ok (.recover 1 (some ⟨"op-1", "2"⟩)) := by
    simp only [Request.parse, if_neg hsmall, hread, hversion, hnull, hrequest, hvalid]
    rfl
  have hne : (Request.recover 1 (some ⟨"op-1", "2"⟩)).toJson.settle ≠ listedRecovery.settle := by
    intro heq
    have harray : (Request.recover 1 (some ⟨"op-1", "2"⟩)).toJson.settle.get "expected" =
        some (.array [.string "op-1", .string "2"]) := by
      rw [heq]
      rfl
    exact Request.not_expectsArray_toJson _ ⟨_, harray⟩
  exact ⟨_, _, hparse, hread, fun h => hne h.encoded, hne⟩

end KCarrier
