import Mathlib.Algebra.GroupWithZero.Nat

/-!
# KCarrier.Text

The string operations of the standard library the code relies on: trimming,
searching, and counting UTF-16 units.
-/

namespace KCarrier

/-! ## trimming -/

/-- The characters with the Unicode property White_Space. -/
def isWhitespace (c : Char) : Bool :=
  let n := c.toNat
  (0x09 ≤ n && n ≤ 0x0D) || n == 0x20 || n == 0x85 || n == 0xA0 || n == 0x1680 ||
    (0x2000 ≤ n && n ≤ 0x200A) || n == 0x2028 || n == 0x2029 || n == 0x202F || n == 0x205F ||
    n == 0x3000

def trimChars (cs : List Char) : List Char :=
  ((cs.dropWhile isWhitespace).reverse.dropWhile isWhitespace).reverse

/-- The text without leading and trailing white space. -/
def trim (s : String) : String := String.ofList (trimChars s.toList)

/-- What stands at the front of a list with nothing left to drop. -/
theorem dropWhile_head {p : Char → Bool} (cs : List Char) (c : Char) (rest : List Char)
    (h : cs.dropWhile p = c :: rest) : p c = false := by
  induction cs with
  | nil => simp at h
  | cons a cs ih =>
      rw [List.dropWhile_cons] at h
      cases ha : p a with
      | true =>
          simp only [ha, if_true] at h
          exact ih h
      | false =>
          simp only [ha, Bool.false_eq_true, if_false, List.cons.injEq] at h
          rw [← h.1]
          exact ha

theorem dropWhile_eq_self {p : Char → Bool} {cs : List Char}
    (h : ∀ c rest, cs = c :: rest → p c = false) : cs.dropWhile p = cs := by
  cases cs with
  | nil => rfl
  | cons c rest =>
      rw [List.dropWhile_cons]
      simp only [h c rest rfl, Bool.false_eq_true, if_false]

/-- Nothing is left to drop after dropping. -/
theorem dropWhile_dropWhile (p : Char → Bool) (cs : List Char) :
    (cs.dropWhile p).dropWhile p = cs.dropWhile p :=
  dropWhile_eq_self fun c rest h => dropWhile_head cs c rest h

/-- Dropping from the end keeps the front. -/
theorem dropWhile_reverse_front {p : Char → Bool} {cs : List Char}
    (h : ∀ c rest, cs = c :: rest → p c = false) (c : Char) (rest : List Char)
    (hr : (cs.reverse.dropWhile p).reverse = c :: rest) : p c = false := by
  have hsuffix : cs.reverse.dropWhile p <:+ cs.reverse := List.dropWhile_suffix p
  have hprefix : (cs.reverse.dropWhile p).reverse <+: cs := by
    have := List.reverse_prefix.mpr hsuffix
    rwa [List.reverse_reverse] at this
  rw [hr] at hprefix
  obtain ⟨more, hmore⟩ := hprefix
  exact h c (rest ++ more) (by rw [← hmore]; rfl)

/-- Trimming is idempotent. -/
theorem trim_trim (s : String) : trim (trim s) = trim s := by
  have hfront : ∀ c rest, s.toList.dropWhile isWhitespace = c :: rest → isWhitespace c = false :=
    fun c rest h => dropWhile_head s.toList c rest h
  have hkeep : (trimChars s.toList).dropWhile isWhitespace = trimChars s.toList :=
    dropWhile_eq_self fun c rest h => dropWhile_reverse_front hfront c rest h
  have hchars : trimChars (trimChars s.toList) = trimChars s.toList := by
    have hunfold : trimChars (trimChars s.toList) =
        (((trimChars s.toList).dropWhile isWhitespace).reverse.dropWhile isWhitespace).reverse := rfl
    rw [hunfold, hkeep, trimChars, List.reverse_reverse, dropWhile_dropWhile]
  unfold trim
  rw [String.toList_ofList, hchars]

/-- Trimming cuts off both ends and nothing else. -/
theorem trimChars_within (cs : List Char) : trimChars cs <:+: cs := by
  have hfront : cs.dropWhile isWhitespace <:+ cs := List.dropWhile_suffix _
  have hback : trimChars cs <+: cs.dropWhile isWhitespace := by
    have := List.reverse_prefix.mpr
      (List.dropWhile_suffix isWhitespace (l := (cs.dropWhile isWhitespace).reverse))
    rwa [List.reverse_reverse] at this
  exact hback.isInfix.trans hfront.isInfix

/-! ## searching -/

/-- Whether `needle` occurs in the text. -/
def containsChars (needle : List Char) : List Char → Bool
  | [] => needle.isEmpty
  | c :: cs => needle.isPrefixOf (c :: cs) || containsChars needle cs

theorem containsChars_iff {needle cs : List Char} :
    containsChars needle cs = true ↔ needle <:+: cs := by
  induction cs with
  | nil => simp [containsChars]
  | cons c cs ih =>
      rw [containsChars, Bool.or_eq_true, ih, List.isPrefixOf_iff_prefix, List.infix_cons_iff]

def contains (text needle : String) : Bool := containsChars needle.toList text.toList

/-! ## UTF-16 -/

/-- The number of UTF-16 units of the text. -/
def utf16Length (s : String) : Nat :=
  (s.toList.map fun c => if c.toNat < 0x10000 then 1 else 2).sum

end KCarrier
