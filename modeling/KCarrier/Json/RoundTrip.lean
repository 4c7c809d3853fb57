import KCarrier.Json.Read
import Mathlib.Data.List.TakeWhile

/-!
# KCarrier.Json.RoundTrip

A written document is read back (`fromSlice_toVec`), if its integers fit 64 bits and it
nests no deeper than the reader allows (`Fits`).  Floats are left out: their text is not
the library's own.
-/

namespace Json

variable (float : List Char → Option String)

/-! ## strings -/

/-- A hexadecimal digit is read back. -/
theorem hexValue_hexDigit {n : Nat} (h : n < 16) : hexValue (hexDigit n) = some n := by
  have hall : ∀ k < 16, hexValue (hexDigit k) = some k := by decide
  exact hall n h

/-- A character is read back from its escape, whatever follows. -/
theorem readChars_escape (c : Char) (fuel : Nat) (rest : List Char) :
    readChars (fuel + 1) (escape c ++ rest) =
      (readChars fuel rest).bind fun p => some (c :: p.1, p.2) := by
  unfold escape
  iterate 7 (split; · next h => subst h; rfl)
  split
  · next hlow =>
      have hhigh := hexValue_hexDigit (n := c.toNat / 16) (by omega)
      have hdigit := hexValue_hexDigit (n := c.toNat % 16) (by omega)
      have hzero : hexValue '0' = some 0 := by decide
      have hhex : readHex ('0' :: '0' :: hexDigit (c.toNat / 16) :: hexDigit (c.toNat % 16) ::
          rest) = some (c.toNat, rest) := by
        simp [readHex, hhigh, hdigit, hzero]
        omega
      have hunicode : readUnicode ('0' :: '0' :: hexDigit (c.toNat / 16) ::
          hexDigit (c.toNat % 16) :: rest) = some (c, rest) := by
        have htail : ¬(0xDC00 ≤ c.toNat ∧ c.toNat ≤ 0xDFFF) := by omega
        have hlead : ¬(0xD800 ≤ c.toNat ∧ c.toNat ≤ 0xDBFF) := by omega
        simp only [readUnicode, hhex, Option.bind_eq_bind, Option.bind_some, if_neg htail,
          if_neg hlead, Char.ofNat_toNat]
      simp [readChars, readEscape, hunicode]
  · next hquote hslash _ _ _ _ _ hlow => simp [readChars, hquote, hslash, hlow]

/-- The characters of a string are read back to its quotation mark. -/
theorem readChars_escaped (cs : List Char) {fuel : Nat} (rest : List Char)
    (hfuel : cs.length < fuel) :
    readChars fuel (escaped cs ++ '"' :: rest) = some (cs, rest) := by
  induction cs generalizing fuel with
  | nil =>
      obtain ⟨fuel, rfl⟩ := Nat.exists_eq_succ_of_ne_zero (by omega : fuel ≠ 0)
      simp [escaped, readChars]
  | cons c cs ih =>
      obtain ⟨fuel, rfl⟩ := Nat.exists_eq_succ_of_ne_zero (by omega : fuel ≠ 0)
      have hrest : readChars fuel (escaped cs ++ '"' :: rest) = some (cs, rest) :=
        ih (by simpa using hfuel)
      have hsplit : escaped (c :: cs) ++ '"' :: rest = escape c ++ (escaped cs ++ '"' :: rest) := by
        simp [escaped]
      rw [hsplit, readChars_escape, hrest]
      rfl

/-- Escaping loses no character. -/
theorem length_le_escaped (cs : List Char) : cs.length ≤ (escaped cs).length := by
  induction cs with
  | nil => simp [escaped]
  | cons c cs ih =>
      have hc : 1 ≤ (escape c).length := by
        unfold escape
        split_ifs <;> simp
      simp only [escaped, List.flatMap_cons, List.length_append, List.length_cons] at ih ⊢
      omega

/-- **A string** is read back. -/
theorem readString_write (s : String) (rest : List Char) :
    readString (escaped s.toList ++ '"' :: rest) = some (s, rest) := by
  have hfuel : s.toList.length < (escaped s.toList ++ '"' :: rest).length := by
    have := length_le_escaped s.toList
    simp only [List.length_append, List.length_cons]
    omega
  unfold readString
  rw [readChars_escaped s.toList rest hfuel]
  simp [String.ofList_toList]

/-! ## numbers -/

/-- What may stand behind a value. -/
def closers : List Char := [',', ']', '}', ' ', '\n', '\t', '\r']

def Closed (rest : List Char) : Prop :=
  ∀ c more, rest = c :: more → c ∈ closers

theorem closed_nil : Closed [] := by
  intro c more h
  cases h

/-- What closes a value closes a number. -/
theorem closed_cons {c : Char} (more : List Char) (h : c ∈ closers) : Closed (c :: more) := by
  intro d rest heq
  cases heq
  exact h

/-- What follows a number is no digit. -/
theorem Closed.not_digit {rest : List Char} (h : Closed rest) (c : Char) (more : List Char)
    (heq : rest = c :: more) : c.isDigit = false := by
  have hall : closers.all (fun d => !d.isDigit) = true := by decide
  have hc := List.all_eq_true.mp hall c (h c more heq)
  simpa using hc

/-- Digits are read to their end. -/
theorem readDigits_append {ds rest : List Char} (hds : ∀ c ∈ ds, c.isDigit = true) (hne : ds ≠ [])
    (hrest : Closed rest) : readDigits (ds ++ rest) = some (ds, rest) := by
  have hnone : rest.takeWhile (·.isDigit) = [] ∧ rest.dropWhile (·.isDigit) = rest := by
    cases rest with
    | nil => simp
    | cons c more => simp [hrest.not_digit c more rfl]
  have htake : (ds ++ rest).takeWhile (·.isDigit) = ds := by
    rw [List.takeWhile_append_of_pos hds, hnone.1, List.append_nil]
  have hdrop : (ds ++ rest).dropWhile (·.isDigit) = rest := by
    rw [List.dropWhile_append_of_pos hds, hnone.2]
  simp only [readDigits, htake, hdrop, if_neg hne]

/-- Only zero is written as `0`. -/
theorem digitChar_eq_zero {n : Nat} (h : n < 10) (hc : n.digitChar = '0') : n = 0 := by
  have hall : ∀ k < 10, k.digitChar = '0' → k = 0 := by decide
  exact hall n h hc

/-- Only zero is written with a leading zero. -/
theorem head_toDigits (n : Nat) (h : (Nat.toDigits 10 n).head? = some '0') : n = 0 := by
  induction n using Nat.strong_induction_on with
  | _ n ih =>
      by_cases hn : n < 10
      · rw [Nat.toDigits_of_lt_base hn] at h
        exact digitChar_eq_zero hn (by simpa using h)
      · rw [Nat.toDigits_of_base_le (by omega) (by omega), List.head?_append] at h
        have hne : (Nat.toDigits 10 (n / 10)).head? ≠ none := by simp [Nat.toDigits_ne_nil]
        obtain ⟨c, hc⟩ := Option.ne_none_iff_exists'.mp hne
        rw [hc, Option.some_or] at h
        have hzero : n / 10 = 0 := ih (n / 10) (by omega) (hc.trans h)
        omega

/-- A number that is closed has no fraction. -/
theorem readFraction_closed {rest : List Char} (h : Closed rest) :
    readFraction rest = some ([], rest) := by
  cases rest with
  | nil => rfl
  | cons c more =>
      have hne : c ≠ '.' := by
        rintro rfl
        exact absurd (h '.' more rfl) (by decide)
      unfold readFraction
      split
      · next heq =>
          injection heq with hc
          exact absurd hc hne
      · rfl

/-- It has no exponent. -/
theorem readExponent_closed {rest : List Char} (h : Closed rest) :
    readExponent rest = some ([], rest) := by
  cases rest with
  | nil => rfl
  | cons c more =>
      have hne : ¬(c = 'e' ∨ c = 'E') := by
        rintro (rfl | rfl)
        · exact absurd (h 'e' more rfl) (by decide)
        · exact absurd (h 'E' more rfl) (by decide)
      simp only [readExponent, if_neg hne]

/-- The digits of a number are read as that number. -/
theorem readUnsigned_toDigits (negative : Bool) (n : Nat) {rest : List Char} (h : Closed rest) :
    readUnsigned float negative (Nat.toDigits 10 n ++ rest) =
      (toNumber float negative (Nat.toDigits 10 n) []).bind fun m => some (m, rest) := by
  have hdigit : ∀ c ∈ Nat.toDigits 10 n, c.isDigit = true := fun c hc =>
    Nat.isDigit_of_mem_toDigits (by omega) (by omega) hc
  have hlead : ¬((Nat.toDigits 10 n).head? = some '0' ∧ (Nat.toDigits 10 n).length ≠ 1) := by
    rintro ⟨hhead, hlength⟩
    rw [head_toDigits n hhead] at hlength
    exact hlength (by decide)
  simp only [readUnsigned, readDigits_append hdigit Nat.toDigits_ne_nil h, Option.bind_eq_bind,
    Option.bind_some, if_neg hlead, readFraction_closed h, readExponent_closed h, List.append_nil]

/-- A natural number is written without a sign. -/
theorem toDigits_ne_minus (n : Nat) (rest more : List Char) :
    Nat.toDigits 10 n ++ rest ≠ '-' :: more := by
  intro heq
  cases hd : Nat.toDigits 10 n with
  | nil => exact Nat.toDigits_ne_nil hd
  | cons c ds =>
      have hdigit : c.isDigit = true :=
        Nat.isDigit_of_mem_toDigits (b := 10) (n := n) (by omega) (by omega) (by simp [hd])
      rw [hd, List.cons_append] at heq
      injection heq with hc
      rw [hc] at hdigit
      exact absurd hdigit (by decide)

/-- The numbers the reader takes for what they were written as. -/
inductive Number.Fits : Number → Prop
  | natural (n : Nat) : n < 2 ^ 64 → Fits (.natural n)
  | negative (n : Nat) : 0 < n → n ≤ 2 ^ 63 → Fits (.negative n)

/-- **A number** is read back. -/
theorem readNumber_write {n : Number} (hn : n.Fits) {rest : List Char} (h : Closed rest) :
    readNumber float (n.write ++ rest) = some (n, rest) := by
  cases hn with
  | natural n hlt =>
      have hread : readNumber float (Nat.toDigits 10 n ++ rest) =
          readUnsigned float false (Nat.toDigits 10 n ++ rest) := by
        unfold readNumber
        split
        · next more heq => exact absurd heq (toDigits_ne_minus n rest more)
        · rfl
      have hnumber : toNumber float false (Nat.toDigits 10 n) [] = some (.natural n) := by
        unfold toNumber
        rw [Nat.ofDigitChars_ten_toDigits, if_pos ⟨rfl, rfl, hlt⟩]
      rw [Number.write, hread, readUnsigned_toDigits float false n h, hnumber, Option.bind_some]
  | negative n hpos hle =>
      have hread : readNumber float ('-' :: Nat.toDigits 10 n ++ rest) =
          readUnsigned float true (Nat.toDigits 10 n ++ rest) := rfl
      have hnumber : toNumber float true (Nat.toDigits 10 n) [] = some (.negative n) := by
        unfold toNumber
        simp only [Nat.ofDigitChars_ten_toDigits]
        rw [if_neg (by simp), if_pos ⟨trivial, trivial, hpos, hle⟩]
      rw [Number.write, hread, readUnsigned_toDigits float true n h, hnumber, Option.bind_some]

/-- A number begins with a digit or a minus sign. -/
theorem Number.Fits.head {n : Number} (hn : n.Fits) :
    ∃ c more, n.write = c :: more ∧ (c.isDigit = true ∨ c = '-') := by
  cases hn with
  | natural n hlt =>
      cases hd : Nat.toDigits 10 n with
      | nil => exact absurd hd Nat.toDigits_ne_nil
      | cons c more =>
          have hdigit : c.isDigit = true :=
            Nat.isDigit_of_mem_toDigits (b := 10) (n := n) (by omega) (by omega) (by simp [hd])
          exact ⟨c, more, hd, .inl hdigit⟩
  | negative n hpos hle => exact ⟨'-', Nat.toDigits 10 n, rfl, .inr rfl⟩

/-! ## values -/

/-- The documents that are read back: integers of 64 bits, at most `depth` deep. -/
inductive Fits : Nat → Value → Prop
  | null {depth} : Fits depth .null
  | bool {depth} (b : Bool) : Fits depth (.bool b)
  | number {depth} {n : Number} : n.Fits → Fits depth (.number n)
  | string {depth} (s : String) : Fits depth (.string s)
  | array {depth} {items : List Value} : (∀ v ∈ items, Fits depth v) →
      Fits (depth + 1) (.array items)
  | object {depth} {members : Members Value} : (∀ p ∈ members, Fits depth p.2) →
      Fits (depth + 1) (.object members)

/-- A number does not start with space. -/
theorem not_space_of_number {c : Char} (hc : c.isDigit = true ∨ c = '-') : isSpace c = false := by
  cases hs : isSpace c with
  | false => rfl
  | true =>
      have hspaces : c = ' ' ∨ c = '\n' ∨ c = '\t' ∨ c = '\r' := by
        simpa [isSpace, or_assoc] using hs
      rcases hspaces with rfl | rfl | rfl | rfl <;> exact absurd hc (by decide)

/-- There is no space to skip before a character that is none. -/
theorem skipSpace_cons {c : Char} (more : List Char) (h : isSpace c = false) :
    skipSpace (c :: more) = c :: more := by
  simp [skipSpace, h]

/-- A digit or a sign starts a number. -/
theorem readNode_number (nested : Option (Reader Value)) {c : Char} (more : List Char)
    (hc : c.isDigit = true ∨ c = '-') :
    readNode float nested (c :: more) =
      (readNumber float (c :: more)).bind fun p => some (.number p.1, p.2) := by
  have hskip : skipSpace (c :: more) = c :: more := skipSpace_cons more (not_space_of_number hc)
  unfold readNode
  rw [hskip]
  split
  case h_7 => rfl
  all_goals
    next heq =>
      injection heq with hhead
      subst hhead
      simp at hc

/-- The front of a written value: no white space, and no bracket that closes. -/
def Opens (cs : List Char) : Prop :=
  ∃ c more, cs = c :: more ∧ isSpace c = false ∧ c ≠ ']'

/-- A value that fits starts with no space. -/
theorem Fits.opens {depth : Nat} {v : Value} (h : Fits depth v) : Opens v.write := by
  cases h with
  | null => exact ⟨'n', _, rfl, by decide, by decide⟩
  | bool b => cases b <;> exact ⟨_, _, rfl, by decide, by decide⟩
  | number hn =>
      obtain ⟨c, more, hwrite, hc⟩ := hn.head
      refine ⟨c, more, hwrite, not_space_of_number hc, ?_⟩
      rintro rfl
      exact absurd hc (by decide)
  | string s => exact ⟨'"', _, rfl, by decide, by decide⟩
  | array h => exact ⟨'[', _, rfl, by decide, by decide⟩
  | object h => exact ⟨'{', _, rfl, by decide, by decide⟩

section

variable {inner : Reader Value}

/-- The items are read back if each of them is. -/
theorem readItems_write {items : List Value} (hne : items ≠ [])
    (h : ∀ v ∈ items, ∀ rest, Closed rest → inner (v.write ++ rest) = some (v, rest))
    {fuel : Nat} (hfuel : items.length ≤ fuel) (rest : List Char) :
    readItems inner fuel (writeItems items ++ ']' :: rest) = some (items, rest) := by
  induction items generalizing fuel with
  | nil => exact absurd rfl hne
  | cons v items ih =>
      obtain ⟨fuel, rfl⟩ := Nat.exists_eq_succ_of_ne_zero (by simp at hfuel; omega : fuel ≠ 0)
      have hhead := h v List.mem_cons_self
      cases items with
      | nil =>
          have hv := hhead (']' :: rest) (closed_cons rest (by decide))
          simp only [writeItems, readItems, hv, Option.bind_eq_bind, Option.bind_some]
          rfl
      | cons w items =>
          have hv := hhead (',' :: (writeItems (w :: items) ++ ']' :: rest))
            (closed_cons _ (by decide))
          have hrest : readItems inner fuel (writeItems (w :: items) ++ ']' :: rest) =
              some (w :: items, rest) :=
            ih (by simp) (fun u hu => h u (List.mem_cons_of_mem v hu)) (by simpa using hfuel)
          simp only [writeItems, List.append_assoc, List.cons_append, readItems, hv,
            Option.bind_eq_bind, Option.bind_some]
          simp [skipSpace, isSpace, hrest]

/-- The items take a character each, but the last. -/
theorem length_le_writeItems (items : List Value) :
    items.length ≤ (writeItems items).length + 1 := by
  induction items with
  | nil => simp
  | cons v items ih =>
      cases items with
      | nil => simp
      | cons w items =>
          simp only [writeItems, List.length_cons, List.length_append] at ih ⊢
          omega

/-- **An array** is read back. -/
theorem readArray_write {items : List Value} (hopens : ∀ v ∈ items, Opens v.write)
    (h : ∀ v ∈ items, ∀ rest, Closed rest → inner (v.write ++ rest) = some (v, rest))
    (rest : List Char) :
    readArray inner (writeItems items ++ ']' :: rest) = some (items, rest) := by
  cases items with
  | nil => rfl
  | cons v items =>
      have hfuel : (v :: items).length ≤ (writeItems (v :: items) ++ ']' :: rest).length := by
        have := length_le_writeItems (v :: items)
        simp only [List.length_append, List.length_cons] at this ⊢
        omega
      have hread := readItems_write (by simp) h hfuel rest
      obtain ⟨c, more, hwrite, hspace, hne⟩ := hopens v List.mem_cons_self
      obtain ⟨front, hfront⟩ : ∃ front, writeItems (v :: items) ++ ']' :: rest = c :: front := by
        cases items with
        | nil => simp [writeItems, hwrite]
        | cons w items => simp [writeItems, hwrite]
      rw [hfront] at hread ⊢
      unfold readArray
      rw [skipSpace_cons front hspace]
      split
      · next heq =>
          injection heq with hc
          exact absurd hc hne
      · exact hread

/-- A member is read back. -/
theorem readMember_write (key : String) {v : Value} {rest : List Char}
    (h : inner (v.write ++ rest) = some (v, rest)) :
    readMember inner (writeString key ++ ':' :: v.write ++ rest) = some ((key, v), rest) := by
  have hkey := readString_write key (':' :: (v.write ++ rest))
  have hquote : skipSpace ('"' :: (escaped key.toList ++ '"' :: ':' :: (v.write ++ rest))) =
      '"' :: (escaped key.toList ++ '"' :: ':' :: (v.write ++ rest)) :=
    skipSpace_cons _ (by decide)
  have hcolon : skipSpace (':' :: (v.write ++ rest)) = ':' :: (v.write ++ rest) :=
    skipSpace_cons _ (by decide)
  simp only [writeString, List.cons_append, List.append_assoc, List.nil_append, readMember, hquote,
    hkey, Option.bind_eq_bind, Option.bind_some, hcolon, h]

/-- Members are read back one after the other. -/
theorem readMembers_write {members : Members Value} (hne : members ≠ [])
    (h : ∀ p ∈ members, ∀ rest, Closed rest → inner (p.2.write ++ rest) = some (p.2, rest))
    {fuel : Nat} (hfuel : members.length ≤ fuel) (rest : List Char) :
    readMembers inner fuel (writeMembers members ++ '}' :: rest) = some (members, rest) := by
  induction members generalizing fuel with
  | nil => exact absurd rfl hne
  | cons p members ih =>
      obtain ⟨key, v⟩ := p
      obtain ⟨fuel, rfl⟩ := Nat.exists_eq_succ_of_ne_zero (by simp at hfuel; omega : fuel ≠ 0)
      have hhead := h (key, v) List.mem_cons_self
      cases members with
      | nil =>
          have hv := readMember_write key (hhead ('}' :: rest) (closed_cons rest (by decide)))
          simp only [writeMembers, readMembers, hv, Option.bind_eq_bind, Option.bind_some]
          rfl
      | cons q members =>
          have hv := readMember_write key
            (hhead (',' :: (writeMembers (q :: members) ++ '}' :: rest)) (closed_cons _ (by decide)))
          have hrest : readMembers inner fuel (writeMembers (q :: members) ++ '}' :: rest) =
              some (q :: members, rest) :=
            ih (by simp) (fun r hr => h r (List.mem_cons_of_mem _ hr)) (by simpa using hfuel)
          have htext : writeMembers ((key, v) :: q :: members) ++ '}' :: rest =
              writeString key ++ ':' :: v.write ++
                ',' :: (writeMembers (q :: members) ++ '}' :: rest) := by
            simp [writeMembers]
          rw [htext, readMembers, hv]
          simp [skipSpace, isSpace, hrest]

/-- The members take a character each, but the last. -/
theorem length_le_writeMembers (members : Members Value) :
    members.length ≤ (writeMembers members).length + 1 := by
  induction members with
  | nil => simp
  | cons p members ih =>
      obtain ⟨key, v⟩ := p
      cases members with
      | nil => simp
      | cons q members =>
          simp only [writeMembers, List.length_cons, List.length_append] at ih ⊢
          omega

/-- **An object** is read back. -/
theorem readObject_write {members : Members Value}
    (h : ∀ p ∈ members, ∀ rest, Closed rest → inner (p.2.write ++ rest) = some (p.2, rest))
    (rest : List Char) :
    readObject inner (writeMembers members ++ '}' :: rest) = some (members, rest) := by
  cases members with
  | nil => rfl
  | cons p members =>
      have hfuel : (p :: members).length ≤ (writeMembers (p :: members) ++ '}' :: rest).length := by
        have := length_le_writeMembers (p :: members)
        simp only [List.length_append, List.length_cons] at this ⊢
        omega
      have hread := readMembers_write (by simp) h hfuel rest
      obtain ⟨front, hfront⟩ : ∃ front, writeMembers (p :: members) ++ '}' :: rest =
          '"' :: front := by
        cases members with
        | nil => simp [writeMembers, writeString]
        | cons q members => simp [writeMembers, writeString]
      rw [hfront] at hread ⊢
      unfold readObject
      rw [skipSpace_cons front (by decide)]
      exact hread

end

/-- A value is read back from what it was written as. -/
theorem readValue_write {depth : Nat} {v : Value} (hv : Fits depth v) (rest : List Char)
    (hrest : Closed rest) : readValue float depth (v.write ++ rest) = some (v, rest) := by
  induction hv generalizing rest with
  | @null depth => cases depth <;> rfl
  | @bool depth b => cases depth <;> cases b <;> rfl
  | @number depth n hn =>
      have hnode (nested : Option (Reader Value)) :
          readNode float nested (n.write ++ rest) = some (.number n, rest) := by
        have hread := readNumber_write float hn hrest
        obtain ⟨c, more, hwrite, hc⟩ := hn.head
        rw [hwrite, List.cons_append] at hread ⊢
        rw [readNode_number float nested (more ++ rest) hc, hread, Option.bind_some]
      cases depth with
      | zero => exact hnode none
      | succ depth => exact hnode (some (readValue float depth))
  | @string depth s =>
      have hnode (nested : Option (Reader Value)) :
          readNode float nested (writeString s ++ rest) = some (.string s, rest) := by
        have hread := readString_write s rest
        have hquote : skipSpace ('"' :: (escaped s.toList ++ '"' :: rest)) =
            '"' :: (escaped s.toList ++ '"' :: rest) := skipSpace_cons _ (by decide)
        simp only [writeString, List.cons_append, List.append_assoc, List.nil_append, readNode,
          hquote, hread, Option.bind_eq_bind, Option.bind_some]
      cases depth with
      | zero => exact hnode none
      | succ depth => exact hnode (some (readValue float depth))
  | @array depth items hitems ih =>
      have hread : readArray (readValue float depth) (writeItems items ++ ']' :: rest) =
          some (items, rest) :=
        readArray_write (fun v hv => (hitems v hv).opens) ih rest
      have hbracket : skipSpace ('[' :: (writeItems items ++ ']' :: rest)) =
          '[' :: (writeItems items ++ ']' :: rest) := skipSpace_cons _ (by decide)
      simp only [Value.write, List.cons_append, List.append_assoc, List.nil_append, readValue,
        readNode, hbracket, hread, Option.bind_eq_bind, Option.bind_some]
  | @object depth members hmembers ih =>
      have hread : readObject (readValue float depth) (writeMembers members ++ '}' :: rest) =
          some (members, rest) := readObject_write ih rest
      have hbrace : skipSpace ('{' :: (writeMembers members ++ '}' :: rest)) =
          '{' :: (writeMembers members ++ '}' :: rest) := skipSpace_cons _ (by decide)
      simp only [Value.write, List.cons_append, List.append_assoc, List.nil_append, readValue,
        readNode, hbrace, hread, Option.bind_eq_bind, Option.bind_some]

/-- **Round trip**: the bytes of a document are read as that document, also with white
space behind it. -/
theorem fromSlice_encode {v : Value} (hv : Fits maxDepth v) {space : List Char}
    (hspace : ∀ c ∈ space, isSpace c = true) :
    fromSlice float (encode (v.write ++ space)) = some v := by
  have hclosed : Closed space := by
    intro c more heq
    have hc : isSpace c = true := hspace c (by simp [heq])
    have hspaces : c = ' ' ∨ c = '\n' ∨ c = '\t' ∨ c = '\r' := by
      simpa [isSpace, or_assoc] using hc
    rcases hspaces with rfl | rfl | rfl | rfl <;> decide
  have hskip : skipSpace space = [] := List.dropWhile_eq_nil_iff.mpr hspace
  have hread := readValue_write float hv space hclosed
  simp only [fromSlice, decode_encode, Option.bind_eq_bind, Option.bind_some, read, hread, hskip,
    if_true]

/-- **A value** that fits is read back from its bytes. -/
theorem fromSlice_toVec {v : Value} (hv : Fits maxDepth v) :
    fromSlice float (toVec v) = some v := by
  have hread := fromSlice_encode float hv (fun c (hc : c ∈ []) => by cases hc)
  rwa [List.append_nil] at hread

end Json
