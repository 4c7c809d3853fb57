import KCarrier.Json.RoundTrip

/-!
# KCarrier.Json.OneLine

Documents in files of lines: what is written holds no newline, as a text and as bytes.
-/

namespace Json

/-- A newline is escaped. -/
theorem newline_not_mem_escape (c : Char) : '\n' ∉ escape c := by
  have hhex : ∀ n < 16, hexDigit n ≠ '\n' := by decide
  unfold escape
  split
  · decide
  split
  · decide
  split
  · decide
  split
  · decide
  split
  · decide
  split
  · decide
  split
  · decide
  next hne _ _ =>
    split
    · next hlow =>
        have hhigh := hhex (c.toNat / 16) (by omega)
        have hrest := hhex (c.toNat % 16) (by omega)
        simp [hhigh.symm, hrest.symm]
    · simpa using Ne.symm hne

/-- No string is written over two lines. -/
theorem newline_not_mem_writeString (s : String) : '\n' ∉ writeString s := by
  have hescaped : '\n' ∉ escaped s.toList := by
    rw [escaped, List.mem_flatMap]
    rintro ⟨c, -, hc⟩
    exact newline_not_mem_escape c hc
  simp [writeString, hescaped]

theorem not_mem_toDigits {c : Char} (hc : c.isDigit = false) (n : Nat) : c ∉ Nat.toDigits 10 n := by
  intro h
  rw [Nat.isDigit_of_mem_toDigits (by omega) (by omega) h] at hc
  cases hc

theorem newline_not_mem_writeItems {items : List Value} (h : ∀ v ∈ items, '\n' ∉ v.write) :
    '\n' ∉ writeItems items := by
  induction items with
  | nil => simp [writeItems]
  | cons v items ih =>
      rw [List.forall_mem_cons] at h
      cases items with
      | nil => exact h.1
      | cons w rest =>
          have hrest := ih h.2
          simp [writeItems, h.1, hrest]

theorem newline_not_mem_writeMembers {members : Members Value}
    (h : ∀ p ∈ members, '\n' ∉ p.2.write) : '\n' ∉ writeMembers members := by
  induction members with
  | nil => simp [writeMembers]
  | cons p members ih =>
      obtain ⟨key, v⟩ := p
      rw [List.forall_mem_cons] at h
      have hkey := newline_not_mem_writeString key
      cases members with
      | nil => simp [writeMembers, hkey, h.1]
      | cons q rest =>
          have hrest := ih h.2
          simp [writeMembers, hkey, h.1, hrest]

/-- A document stands on one line. -/
theorem newline_not_mem_write {depth : Nat} {v : Value} (h : Fits depth v) : '\n' ∉ v.write := by
  induction h with
  | null => decide
  | bool b => cases b <;> decide
  | number hn =>
      cases hn with
      | natural n hlt => exact not_mem_toDigits (by decide) n
      | negative n hpos hle =>
          have hdigits : '\n' ∉ Nat.toDigits 10 n := not_mem_toDigits (by decide) n
          simpa [Value.write, Number.write] using hdigits
  | string s => exact newline_not_mem_writeString s
  | array hitems ih => simpa [Value.write] using newline_not_mem_writeItems ih
  | object hmembers ih => simpa [Value.write] using newline_not_mem_writeMembers ih

/-- Only a character of ASCII is encoded with the byte of its own value. -/
theorem toNat_of_mem_utf8EncodeChar {c : Char} {b : UInt8} (hb : b.toNat < 128)
    (h : b ∈ String.utf8EncodeChar c) : c.toNat = b.toNat := by
  have hbyte : ∀ m : Nat, b = UInt8.ofNat m → m % 256 = b.toNat := fun m hm => by
    have hval := congrArg UInt8.toNat hm
    simpa using hval.symm
  have hval : c.val.toNat = c.toNat := rfl
  unfold String.utf8EncodeChar at h
  dsimp only at h
  split at h
  · next hle =>
      have := hbyte _ (List.mem_singleton.mp h)
      omega
  · exfalso
    split at h
    · simp only [List.mem_cons, List.not_mem_nil, or_false] at h
      rcases h with h | h <;> have := hbyte _ h <;> omega
    · split at h
      · simp only [List.mem_cons, List.not_mem_nil, or_false] at h
        rcases h with h | h | h <;> have := hbyte _ h <;> omega
      · simp only [List.mem_cons, List.not_mem_nil, or_false] at h
        rcases h with h | h | h | h <;> have := hbyte _ h <;> omega

/-- A byte of ASCII stands for its character. -/
theorem mem_of_mem_encode {cs : List Char} {c : Char} (hc : c.toNat < 128)
    (h : UInt8.ofNat c.toNat ∈ encode cs) : c ∈ cs := by
  rw [encode, List.mem_flatMap] at h
  obtain ⟨d, hd, hmem⟩ := h
  have hbyte : (UInt8.ofNat c.toNat).toNat = c.toNat := by
    rw [UInt8.toNat_ofNat']
    omega
  have hval := toNat_of_mem_utf8EncodeChar (by omega) hmem
  rw [hbyte] at hval
  have heq : d = c := Char.ext (UInt32.toNat_inj.mp hval)
  rwa [← heq]

theorem newline_not_mem_encode {cs : List Char} (h : '\n' ∉ cs) : (10 : UInt8) ∉ encode cs :=
  fun hmem => h (mem_of_mem_encode (by decide) hmem)

/-- **One line.** -/
theorem newline_not_mem_toVec {depth : Nat} {v : Value} (h : Fits depth v) :
    (10 : UInt8) ∉ toVec v := newline_not_mem_encode (newline_not_mem_write h)

end Json
