import Mathlib.Data.String.Basic

/-!
# KCarrier.Json.Value

JSON documents, and the values a map type makes of them.

A `Value` is a document as it is written: an object lists its members in their order,
and may name one of them twice.  `settle` is what is left of it in a map: of members of
one name the last counts, and the members are sorted by name.  So two settled values are
equal exactly when they say the same under every name (`eq_of_lookup`).

Floating-point numbers are opaque: a float stands for the text it is written as.
-/

namespace Json

/-- Integers of 64 bits, and floats. -/
inductive Number where
  | natural (n : Nat)
  /-- the integer `-n` -/
  | negative (n : Nat)
  | float (text : String)
deriving DecidableEq, Repr

inductive Value where
  | null
  | bool (b : Bool)
  | number (n : Number)
  | string (s : String)
  | array (items : List Value)
  | object (members : List (String × Value))
deriving Repr

/-- The members of an object. -/
abbrev Members (α : Type) : Type := List (String × α)

def Value.get (v : Value) (key : String) : Option Value :=
  match v with
  | .object members => members.lookup key
  | _ => none

/-! ## sorted members -/

section

variable {α : Type}

/-- Members in the order of their names, each name once. -/
def Sorted (m : Members α) : Prop := m.Pairwise fun p q => p.1 < q.1

/-- Put a member into sorted members, in place of one of the same name. -/
def insert (key : String) (v : α) : Members α → Members α
  | [] => [(key, v)]
  | (k, w) :: rest =>
      if key < k then (key, v) :: (k, w) :: rest
      else if key = k then (key, v) :: rest
      else (k, w) :: insert key v rest

theorem lookup_cons_of_ne {key k : String} (w : α) (rest : Members α) (h : key ≠ k) :
    List.lookup key ((k, w) :: rest) = rest.lookup key := by
  have hne : (key == k) = false := by simpa using h
  simp [List.lookup_cons, hne]

/-- Inserting brings in one member. -/
theorem mem_insert {key : String} {v : α} {m : Members α} {p : String × α}
    (h : p ∈ insert key v m) : p = (key, v) ∨ p ∈ m := by
  induction m with
  | nil => simpa [insert] using h
  | cons q rest ih =>
      obtain ⟨k, w⟩ := q
      grind [insert]

/-- Inserting keeps the keys in order. -/
theorem sorted_insert {key : String} {v : α} {m : Members α} (h : Sorted m) :
    Sorted (insert key v m) := by
  induction m with
  | nil => simp [insert, Sorted]
  | cons q rest ih =>
      obtain ⟨k, w⟩ := q
      simp only [Sorted, List.pairwise_cons] at h
      obtain ⟨hhead, htail⟩ := h
      simp only [insert]
      split
      · next hlt =>
          simp only [Sorted, List.pairwise_cons, List.mem_cons]
          have hrest : ∀ p ∈ rest, key < p.1 := fun p hp => lt_trans hlt (hhead p hp)
          grind
      · next hge =>
          split
          · next heq =>
              subst heq
              simp only [Sorted, List.pairwise_cons]
              exact ⟨hhead, htail⟩
          · next hne =>
              have hgt : k < key := lt_of_le_of_ne (not_lt.mp hge) (Ne.symm hne)
              simp only [Sorted, List.pairwise_cons]
              constructor
              · intro p hp
                cases mem_insert hp with
                | inl heq => rw [heq]; exact hgt
                | inr hmem => exact hhead p hmem
              · exact ih htail

/-- A key reads what was inserted last. -/
@[simp] theorem lookup_insert_self (key : String) (v : α) (m : Members α) :
    (insert key v m).lookup key = some v := by
  induction m with
  | nil => simp [insert]
  | cons q rest ih =>
      obtain ⟨k, w⟩ := q
      simp only [insert]
      split
      · simp
      · split
        · simp
        · next hne => rw [lookup_cons_of_ne w _ hne, ih]

/-- Nothing is found under a name smaller than all. -/
theorem lookup_eq_none_of_lt {key : String} {m : Members α} (h : ∀ p ∈ m, key < p.1) :
    m.lookup key = none := by
  rw [List.lookup_eq_none_iff]
  intro p hp
  simpa using ne_of_lt (h p hp)

/-- Sorted members are determined by what they say under each name. -/
theorem eq_of_lookup {m n : Members α} (hm : Sorted m) (hn : Sorted n)
    (h : ∀ key, m.lookup key = n.lookup key) : m = n := by
  induction m generalizing n with
  | nil =>
      cases n with
      | nil => rfl
      | cons q n =>
          obtain ⟨l, w⟩ := q
          simpa using h l
  | cons p m ih =>
      obtain ⟨k, v⟩ := p
      cases n with
      | nil => simpa using h k
      | cons q n =>
          obtain ⟨l, w⟩ := q
          simp only [Sorted, List.pairwise_cons] at hm hn
          have hkl : k = l := by
            rcases lt_trichotomy k l with hlt | heq | hgt
            · have hnone : ((l, w) :: n).lookup k = none :=
                lookup_eq_none_of_lt (by grind)
              have hk := h k
              simp [hnone] at hk
            · exact heq
            · have hnone : ((k, v) :: m).lookup l = none :=
                lookup_eq_none_of_lt (by grind)
              have hl := h l
              simp [hnone] at hl
          subst hkl
          have hvw : v = w := by simpa using h k
          subst hvw
          have htail : ∀ key, m.lookup key = n.lookup key := by
            intro key
            by_cases hkey : key = k
            · subst hkey
              rw [lookup_eq_none_of_lt hm.1, lookup_eq_none_of_lt hn.1]
            · have hk := h key
              rwa [lookup_cons_of_ne v m hkey, lookup_cons_of_ne v n hkey] at hk
          rw [ih hm.2 hn.2 htail]

theorem mem_of_lookup {m : Members α} {key : String} {v : α} (h : m.lookup key = some v) :
    (key, v) ∈ m := by
  induction m with
  | nil => simp at h
  | cons p m ih =>
      obtain ⟨k, w⟩ := p
      by_cases hk : key = k
      · subst hk
        simp only [List.lookup_cons_self, Option.some.injEq] at h
        simp [h]
      · rw [lookup_cons_of_ne w m hk] at h
        simp [ih h]

theorem lookup_eq_none {m : Members α} {key : String} (h : ∀ p ∈ m, p.1 ≠ key) :
    m.lookup key = none := by
  rw [List.lookup_eq_none_iff]
  intro p hp
  simpa using (h p hp).symm

/-- Sorted members with names of a list are determined by what they say under these. -/
theorem eq_of_lookup_names {m n : Members α} (hm : Sorted m) (hn : Sorted n) (names : List String)
    (hmn : ∀ p ∈ m, p.1 ∈ names) (hnn : ∀ p ∈ n, p.1 ∈ names)
    (h : ∀ key ∈ names, m.lookup key = n.lookup key) : m = n := by
  apply eq_of_lookup hm hn
  intro key
  by_cases hkey : key ∈ names
  · exact h key hkey
  · have hm : m.lookup key = none := by
      apply lookup_eq_none
      rintro p hp rfl
      exact hkey (hmn p hp)
    have hn : n.lookup key = none := by
      apply lookup_eq_none
      rintro p hp rfl
      exact hkey (hnn p hp)
    rw [hm, hn]

end

/-! ## settling -/

mutual

/-- What is left of a document in a map. -/
def Value.settle : Value → Value
  | .array items => .array (settleItems items)
  | .object members => .object (settleMembers [] members)
  | v => v

def settleItems : List Value → List Value
  | [] => []
  | v :: rest => v.settle :: settleItems rest

/-- Members are put in one by one, so the last of a name counts. -/
def settleMembers (acc : Members Value) : Members Value → Members Value
  | [] => acc
  | (key, v) :: rest => settleMembers (insert key v.settle acc) rest

end

/-- A value whose objects are sorted, down to the leaves. -/
inductive Canonical : Value → Prop
  | null : Canonical .null
  | bool (b : Bool) : Canonical (.bool b)
  | number (n : Number) : Canonical (.number n)
  | string (s : String) : Canonical (.string s)
  | array (items : List Value) : (∀ v ∈ items, Canonical v) → Canonical (.array items)
  | object (members : Members Value) : Sorted members → (∀ p ∈ members, Canonical p.2) →
      Canonical (.object members)

mutual

theorem canonical_settle : (v : Value) → Canonical v.settle
  | .null => .null
  | .bool b => .bool b
  | .number n => .number n
  | .string s => .string s
  | .array items => .array _ (canonical_settleItems items)
  | .object members =>
      have h := canonical_settleMembers [] members (by simp [Sorted]) (by simp)
      .object _ h.1 h.2

theorem canonical_settleItems : (items : List Value) → ∀ v ∈ settleItems items, Canonical v
  | [] => by simp [settleItems]
  | v :: rest => by
      have hv : Canonical v.settle := canonical_settle v
      have hrest := canonical_settleItems rest
      simp only [settleItems, List.mem_cons]
      grind

theorem canonical_settleMembers (acc : Members Value) : (members : Members Value) →
    Sorted acc → (∀ p ∈ acc, Canonical p.2) →
      Sorted (settleMembers acc members) ∧ ∀ p ∈ settleMembers acc members, Canonical p.2
  | [], hsorted, hacc => ⟨hsorted, hacc⟩
  | (key, v) :: rest, hsorted, hacc => by
      have hv : Canonical v.settle := canonical_settle v
      have hnext : ∀ p ∈ insert key v.settle acc, Canonical p.2 := by
        intro p hp
        cases mem_insert hp with
        | inl heq => rw [heq]; exact hv
        | inr hmem => exact hacc p hmem
      exact canonical_settleMembers (insert key v.settle acc) rest (sorted_insert hsorted) hnext

end

end Json
