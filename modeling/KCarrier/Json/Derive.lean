import KCarrier.Json.Value

/-!
# KCarrier.Json.Derive

Records and tagged enumerations out of a document, as a derived deserializer reads them.

A record is an object with one member for each field, or an array of the fields in their
order.  A strict record refuses the members it does not know; another ignores them.  The
tag of an enumeration is a member of the object of its variant, or comes first in an
array.
-/

namespace Json

def Value.asString : Value → Option String
  | .string s => some s
  | _ => none

def Value.asBool : Value → Option Bool
  | .bool b => some b
  | _ => none

/-- An unsigned integer of `bits` bits. -/
def Value.asUnsigned (bits : Nat) : Value → Option Nat
  | .number (.natural n) => if n < 2 ^ bits then some n else none
  | _ => none

/-- A value or null. -/
def Value.asNullable {α : Type} (read : Value → Option α) : Value → Option (Option α)
  | .null => some none
  | v => (read v).map some

/-- A value, or null for none. -/
def nullable {α : Type} (write : α → Value) : Option α → Value
  | none => .null
  | some a => write a

/-- A nullable field is read back, if its value is not written as null. -/
theorem asNullable_nullable {α : Type} {read : Value → Option α} {write : α → Value}
    (h : ∀ a, read (write a) = some a) (hnull : ∀ a, write a ≠ .null) (x : Option α) :
    (nullable write x).asNullable read = some x := by
  cases x with
  | none => rfl
  | some a =>
      have ha := h a
      have hne := hnull a
      simp only [nullable]
      unfold Value.asNullable
      split
      · next heq => exact absurd heq hne
      · rw [ha, Option.map_some]

/-- A number within the bits is read as it is. -/
theorem asUnsigned_natural {bits n : Nat} (h : n < 2 ^ bits) :
    (Value.number (.natural n)).asUnsigned bits = some n := by
  simp only [Value.asUnsigned, if_pos h]

/-- A variant without fields: its name, or an object of its name and null. -/
def Value.asVariant : Value → Option String
  | .string name => some name
  | .object [(name, .null)] => some name
  | _ => none

/-- The fields of a record. -/
def record (names : List String) (strict : Bool) : Value → Option (Members Value)
  | .object members =>
      if strict = true ∧ ¬∀ p ∈ members, p.1 ∈ names then
        none
      else if ((members.map (·.1)).filter (names.contains ·)).Nodup then
        some members
      else
        none
  | .array items => if items.length = names.length then some (names.zip items) else none
  | _ => none

/-- A field that must be there. -/
def required {α : Type} (fields : Members Value) (name : String) (read : Value → Option α) :
    Option α :=
  (fields.lookup name).bind read

/-- What follows a field that is there gets its value. -/
theorem required_bind {α β : Type} {fields : Members Value} {name : String}
    {read : Value → Option α} {v : Value} {a : α} {b : Option β} {k : α → Option β}
    (hlookup : fields.lookup name = some v) (hread : read v = some a) (h : k a = b) :
    (required fields name read >>= k) = b := by
  rw [required, hlookup, Option.bind_some, hread, Option.bind_eq_bind, Option.bind_some, h]

/-- A field that may be missing, or null. -/
def optional {α : Type} (fields : Members Value) (name : String) (read : Value → Option α) :
    Option (Option α) :=
  match fields.lookup name with
  | none => some none
  | some v => v.asNullable read

/-- The tag of an enumeration, and what is left to its variant. -/
def tagged (tag : String) : Value → Option (String × Value)
  | .object members =>
      if ((members.map (·.1)).filter (· == tag)).length = 1 then do
        let name ← required members tag Value.asString
        some (name, .object (members.filter (·.1 != tag)))
      else
        none
  | .array (name :: items) => do
      let name ← name.asString
      some (name, .array items)
  | _ => none

section

variable {α : Type}

theorem lookup_filter_ne (m : Members α) {key tag : String} (h : key ≠ tag) :
    (m.filter (·.1 != tag)).lookup key = m.lookup key := by
  induction m with
  | nil => rfl
  | cons p m ih =>
      obtain ⟨k, v⟩ := p
      by_cases hk : k = tag
      · subst hk
        simp [lookup_cons_of_ne v m h, ih]
      · by_cases hkey : key = k
        · subst hkey
          simp [hk]
        · simp [hk, lookup_cons_of_ne v _ hkey, ih]

end

/-! ## what a reading found -/

/-- A strict record that was read from an object has no other member. -/
theorem record_object {names : List String} {members fields : Members Value}
    (h : record names true (.object members) = some fields) :
    fields = members ∧ ∀ p ∈ members, p.1 ∈ names := by
  simp only [record, true_and] at h
  split at h
  · cases h
  · next hall =>
      split at h
      · exact ⟨(Option.some.inj h).symm, Classical.not_not.mp hall⟩
      · cases h

/-- The tag is taken out of the members. -/
theorem tagged_object {tag name : String} {members : Members Value} {content : Value}
    (h : tagged tag (.object members) = some (name, content)) :
    members.lookup tag = some (.string name) ∧
      content = .object (members.filter (·.1 != tag)) := by
  simp only [tagged] at h
  split at h
  · obtain ⟨found, hfound, h⟩ := Option.bind_eq_some_iff.mp h
    cases h
    obtain ⟨v, hv, hstring⟩ := Option.bind_eq_some_iff.mp hfound
    cases v <;> simp_all [Value.asString]
  · cases h

theorem required_string {fields : Members Value} {name s : String}
    (h : required fields name Value.asString = some s) : fields.lookup name = some (.string s) := by
  obtain ⟨v, hv, hread⟩ := Option.bind_eq_some_iff.mp h
  cases v <;> simp_all [Value.asString]

theorem required_bool {fields : Members Value} {name : String} {b : Bool}
    (h : required fields name Value.asBool = some b) : fields.lookup name = some (.bool b) := by
  obtain ⟨v, hv, hread⟩ := Option.bind_eq_some_iff.mp h
  cases v <;> simp_all [Value.asBool]

/-- An optional field is read or was not there. -/
theorem optional_eq_some {α : Type} {fields : Members Value} {name : String}
    {read : Value → Option α} {found : Option α} (h : optional fields name read = some found) :
    (fields.lookup name = none ∧ found = none) ∨
      (fields.lookup name = some .null ∧ found = none) ∨
      ∃ v a, fields.lookup name = some v ∧ read v = some a ∧ found = some a := by
  unfold optional at h
  split at h
  · next hnone => exact .inl ⟨hnone, (Option.some.inj h).symm⟩
  · next v hv =>
      unfold Value.asNullable at h
      split at h
      · exact .inr (.inl ⟨hv, (Option.some.inj h).symm⟩)
      · obtain ⟨a, ha, hfound⟩ := Option.map_eq_some_iff.mp h
        exact .inr (.inr ⟨v, a, hv, ha, hfound.symm⟩)

end Json
