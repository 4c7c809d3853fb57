import KCarrier.Json.OneLine

/-!
# KCarrier.Json.Unclosed

Documents that were cut off.

A reader takes characters off the front of its text and puts none back (`Takes`), so the
brace that ends an object is a character of the text.  An object that is written up to its
last brace only is no document (`fromSlice_unclosed`).
-/

namespace Json

variable {α : Type}

/-- What a reader leaves is the end of its text. -/
def Takes (r : Reader α) : Prop :=
  ∀ cs a rest, r cs = some (a, rest) → rest <:+ cs

/-- Skipping space leaves a suffix. -/
theorem skipSpace_suffix (cs : List Char) : skipSpace cs <:+ cs := List.dropWhile_suffix _

/-- What follows the first character after the space is a suffix. -/
theorem skipSpace_cons_suffix {cs rest : List Char} {c : Char} (h : skipSpace cs = c :: rest) :
    rest <:+ cs :=
  (List.suffix_cons c rest).trans (h ▸ skipSpace_suffix cs)

/-- What follows a word after the space is a suffix. -/
theorem skipSpace_append_suffix {cs rest : List Char} (word : List Char)
    (h : skipSpace cs = word ++ rest) : rest <:+ cs :=
  (List.suffix_append word rest).trans (h ▸ skipSpace_suffix cs)

/-! ## strings -/

/-- Four hexadecimal digits. -/
theorem takes_readHex : Takes readHex := by
  intro cs n rest h
  unfold readHex at h
  split at h
  · simp only [Option.bind_eq_bind, Option.bind_eq_some_iff, Option.some.injEq, Prod.mk.injEq] at h
    obtain ⟨_, -, _, -, _, -, _, -, -, rfl⟩ := h
    exact ⟨[_, _, _, _], rfl⟩
  · cases h

/-- A character by its code, or by two surrogates. -/
theorem takes_readUnicode : Takes readUnicode := by
  intro cs c rest h
  simp only [readUnicode, Option.bind_eq_bind, Option.bind_eq_some_iff] at h
  obtain ⟨⟨n, rest₁⟩, hfirst, h⟩ := h
  have htaken := takes_readHex _ _ _ hfirst
  dsimp only at h
  split at h
  · cases h
  split at h
  · split at h
    · simp only [Option.bind_eq_some_iff] at h
      obtain ⟨⟨m, rest₂⟩, hsecond, h⟩ := h
      have htaken₂ := takes_readHex _ _ _ hsecond
      dsimp only at h
      split at h
      · simp only [Option.some.injEq, Prod.mk.injEq] at h
        obtain ⟨-, rfl⟩ := h
        exact htaken₂.trans (List.IsSuffix.trans ⟨['\\', 'u'], rfl⟩ htaken)
      · cases h
    · cases h
  · simp only [Option.some.injEq, Prod.mk.injEq] at h
    obtain ⟨-, rfl⟩ := h
    exact htaken

/-- An escape. -/
theorem takes_readEscape : Takes readEscape := by
  intro cs c rest h
  unfold readEscape at h
  split at h
  case h_9 => exact (takes_readUnicode _ _ _ h).trans (List.suffix_cons _ _)
  case h_10 => cases h
  all_goals
    cases h
    exact List.suffix_cons _ _

/-- The characters of a string, to the quotation mark. -/
theorem takes_readChars (fuel : Nat) : Takes (readChars fuel) := by
  intro cs ds rest h
  induction fuel generalizing cs ds rest with
  | zero => cases h
  | succ fuel ih =>
      cases cs with
      | nil => cases h
      | cons c cs =>
          rw [readChars] at h
          split at h
          · cases h
            exact List.suffix_cons _ _
          split at h
          · simp only [Option.bind_eq_bind, Option.bind_eq_some_iff] at h
            obtain ⟨⟨d, rest₁⟩, hescape, ⟨es, rest₂⟩, hrest, h⟩ := h
            cases h
            exact (ih _ _ _ hrest).trans
              ((takes_readEscape _ _ _ hescape).trans (List.suffix_cons _ _))
          split at h
          · cases h
          · simp only [Option.bind_eq_bind, Option.bind_eq_some_iff] at h
            obtain ⟨⟨es, rest₁⟩, hrest, h⟩ := h
            cases h
            exact (ih _ _ _ hrest).trans (List.suffix_cons _ _)

/-- A string. -/
theorem takes_readString : Takes readString := by
  intro cs s rest h
  simp only [readString, Option.bind_eq_bind, Option.bind_eq_some_iff] at h
  obtain ⟨⟨ds, rest₁⟩, hchars, h⟩ := h
  cases h
  exact takes_readChars _ _ _ _ hchars

/-! ## numbers -/

/-- Digits, at least one. -/
theorem takes_readDigits : Takes readDigits := by
  intro cs ds rest h
  unfold readDigits at h
  dsimp only at h
  split at h
  · cases h
  · cases h
    exact List.dropWhile_suffix _

/-- A fraction. -/
theorem takes_readFraction : Takes readFraction := by
  intro cs ds rest h
  unfold readFraction at h
  split at h
  · simp only [Option.bind_eq_bind, Option.bind_eq_some_iff] at h
    obtain ⟨⟨digits, rest₁⟩, hdigits, h⟩ := h
    cases h
    exact (takes_readDigits _ _ _ hdigits).trans (List.suffix_cons _ _)
  · cases h
    exact List.suffix_rfl

/-- A sign may be missing. -/
theorem readSign_suffix (cs : List Char) : (readSign cs).2 <:+ cs := by
  unfold readSign
  split
  · exact List.suffix_cons _ _
  · exact List.suffix_cons _ _
  · exact List.suffix_rfl

/-- An exponent. -/
theorem takes_readExponent : Takes readExponent := by
  intro cs ds rest h
  unfold readExponent at h
  split at h
  · split at h
    · simp only [Option.bind_eq_bind, Option.bind_eq_some_iff] at h
      obtain ⟨⟨digits, rest₁⟩, hdigits, h⟩ := h
      cases h
      exact (takes_readDigits _ _ _ hdigits).trans
        ((readSign_suffix _).trans (List.suffix_cons _ _))
    · cases h
      exact List.suffix_rfl
  · cases h
    exact List.suffix_rfl

variable {float : List Char → Option String}

/-- A number after its sign. -/
theorem takes_readUnsigned (negative : Bool) : Takes (readUnsigned float negative) := by
  intro cs n rest h
  simp only [readUnsigned, Option.bind_eq_bind, Option.bind_eq_some_iff] at h
  obtain ⟨⟨digits, rest₁⟩, hdigits, h⟩ := h
  dsimp only at h
  split at h
  · cases h
  · simp only [Option.bind_eq_some_iff] at h
    obtain ⟨⟨fraction, rest₂⟩, hfraction, ⟨exponent, rest₃⟩, hexponent, n', -, h⟩ := h
    cases h
    exact (takes_readExponent _ _ _ hexponent).trans
      ((takes_readFraction _ _ _ hfraction).trans (takes_readDigits _ _ _ hdigits))

/-- A number. -/
theorem takes_readNumber : Takes (readNumber float) := by
  intro cs n rest h
  unfold readNumber at h
  split at h
  · exact (takes_readUnsigned true _ _ _ h).trans (List.suffix_cons _ _)
  · exact takes_readUnsigned false _ _ _ h

/-! ## values -/

section

variable {inner : Reader Value}

/-- The items of an array, one after the other. -/
theorem takes_readItems (hinner : Takes inner) (fuel : Nat) : Takes (readItems inner fuel) := by
  intro cs vs rest h
  induction fuel generalizing cs vs rest with
  | zero => cases h
  | succ fuel ih =>
      simp only [readItems, Option.bind_eq_bind, Option.bind_eq_some_iff] at h
      obtain ⟨⟨v, rest₁⟩, hv, h⟩ := h
      have htaken := hinner _ _ _ hv
      dsimp only at h
      split at h
      · next rest₂ hskip =>
          simp only [Option.bind_eq_some_iff] at h
          obtain ⟨⟨ws, rest₃⟩, hrest, h⟩ := h
          cases h
          exact (ih _ _ _ hrest).trans ((skipSpace_cons_suffix hskip).trans htaken)
      · next rest₂ hskip =>
          cases h
          exact (skipSpace_cons_suffix hskip).trans htaken
      · cases h

/-- An array. -/
theorem takes_readArray (hinner : Takes inner) : Takes (readArray inner) := by
  intro cs vs rest h
  unfold readArray at h
  split at h
  · next hskip =>
      cases h
      exact skipSpace_cons_suffix hskip
  · exact takes_readItems hinner _ _ _ _ h

/-- A member of an object: its name, a colon and its value. -/
theorem takes_readMember (hinner : Takes inner) : Takes (readMember inner) := by
  intro cs p rest h
  unfold readMember at h
  split at h
  · next rest₁ hskip =>
      simp only [Option.bind_eq_bind, Option.bind_eq_some_iff] at h
      obtain ⟨⟨key, rest₂⟩, hkey, h⟩ := h
      have htaken := (takes_readString _ _ _ hkey).trans (skipSpace_cons_suffix hskip)
      dsimp only at h
      split at h
      · next rest₃ hcolon =>
          simp only [Option.bind_eq_some_iff] at h
          obtain ⟨⟨v, rest₄⟩, hv, h⟩ := h
          cases h
          exact (hinner _ _ _ hv).trans ((skipSpace_cons_suffix hcolon).trans htaken)
      · cases h
  · cases h

/-- The members end with a brace that was in the text. -/
theorem readMembers_closed (hinner : Takes inner) (fuel : Nat) (cs : List Char)
    (ms : Members Value) (rest : List Char) (h : readMembers inner fuel cs = some (ms, rest)) :
    '}' :: rest <:+ cs := by
  induction fuel generalizing cs ms rest with
  | zero => cases h
  | succ fuel ih =>
      simp only [readMembers, Option.bind_eq_bind, Option.bind_eq_some_iff] at h
      obtain ⟨⟨p, rest₁⟩, hp, h⟩ := h
      have htaken := takes_readMember hinner _ _ _ hp
      dsimp only at h
      split at h
      · next rest₂ hskip =>
          simp only [Option.bind_eq_some_iff] at h
          obtain ⟨⟨qs, rest₃⟩, hrest, h⟩ := h
          cases h
          exact (ih _ _ _ hrest).trans ((skipSpace_cons_suffix hskip).trans htaken)
      · next rest₂ hskip =>
          cases h
          rw [← hskip]
          exact (skipSpace_suffix _).trans htaken
      · cases h

/-- An object ends in its closing brace. -/
theorem readObject_closed (hinner : Takes inner) {cs : List Char} {ms : Members Value}
    {rest : List Char} (h : readObject inner cs = some (ms, rest)) : '}' :: rest <:+ cs := by
  unfold readObject at h
  split at h
  · next rest₁ hskip =>
      cases h
      rw [← hskip]
      exact skipSpace_suffix cs
  · exact readMembers_closed hinner _ _ _ _ h

end

/-- A value whose parts `nested` reads. -/
theorem takes_readNode {nested : Option (Reader Value)} (hnested : ∀ r ∈ nested, Takes r) :
    Takes (readNode float nested) := by
  intro cs v rest h
  unfold readNode at h
  split at h
  · next hskip =>
      cases h
      exact skipSpace_append_suffix ['n', 'u', 'l', 'l'] hskip
  · next hskip =>
      cases h
      exact skipSpace_append_suffix ['t', 'r', 'u', 'e'] hskip
  · next hskip =>
      cases h
      exact skipSpace_append_suffix ['f', 'a', 'l', 's', 'e'] hskip
  · next hskip =>
      simp only [Option.bind_eq_bind, Option.bind_eq_some_iff] at h
      obtain ⟨⟨s, rest₁⟩, hs, h⟩ := h
      cases h
      exact (takes_readString _ _ _ hs).trans (skipSpace_cons_suffix hskip)
  · next hskip =>
      simp only [Option.bind_eq_bind, Option.bind_eq_some_iff] at h
      obtain ⟨inner, hinner, ⟨items, rest₁⟩, hitems, h⟩ := h
      cases h
      exact (takes_readArray (hnested inner hinner) _ _ _ hitems).trans
        (skipSpace_cons_suffix hskip)
  · next hskip =>
      simp only [Option.bind_eq_bind, Option.bind_eq_some_iff] at h
      obtain ⟨inner, hinner, ⟨members, rest₁⟩, hmembers, h⟩ := h
      cases h
      have hclosed := readObject_closed (hnested inner hinner) hmembers
      exact (List.suffix_cons _ _).trans (hclosed.trans (skipSpace_cons_suffix hskip))
  · simp only [Option.bind_eq_bind, Option.bind_eq_some_iff] at h
    obtain ⟨⟨n, rest₁⟩, hn, h⟩ := h
    cases h
    exact (takes_readNumber _ _ _ hn).trans (skipSpace_suffix cs)

/-- A value of any depth. -/
theorem takes_readValue (depth : Nat) : Takes (readValue float depth) := by
  induction depth with
  | zero => exact takes_readNode (by simp)
  | succ depth ih => exact takes_readNode (by simpa using ih)

/-! ## objects -/

/-- A text that opens an object and has no brace to close it. -/
theorem read_unclosed {cs : List Char} (hopen : ∀ c rest, cs = c :: rest → c = '{')
    (hclose : '}' ∉ cs) : read float cs = none := by
  have hvalue : readValue float maxDepth cs = none := by
    cases cs with
    | nil => rfl
    | cons c rest =>
        cases hopen c rest rfl
        have hobject : readObject (readValue float 126) rest = none := by
          cases hread : readObject (readValue float 126) rest with
          | none => rfl
          | some p =>
              have hclosed := readObject_closed (takes_readValue 126) hread
              have hmem : '}' ∈ rest := hclosed.subset List.mem_cons_self
              exact absurd (List.mem_cons_of_mem _ hmem) hclose
        have hnode : readValue float maxDepth ('{' :: rest) =
            (readObject (readValue float 126) rest).bind
              fun p => some (.object p.1, p.2) := rfl
        rw [hnode, hobject, Option.bind_none]
  rw [read, hvalue]
  rfl

/-- The bytes that are read as a text are the bytes it is written as. -/
theorem encode_of_decode {bytes : List UInt8} {cs : List Char} (h : decode bytes = some cs) :
    encode cs = bytes := by
  rw [decode, Option.map_eq_some_iff] at h
  obtain ⟨text, htext, rfl⟩ := h
  unfold String.fromUTF8? at htext
  split at htext
  · next hvalid =>
      cases htext
      have hbytes : (encode (String.fromUTF8 bytes.toByteArray hvalid).toList).toByteArray =
          bytes.toByteArray := by
        have hlist : (String.ofList (String.fromUTF8 bytes.toByteArray hvalid).toList).toByteArray =
            (encode (String.fromUTF8 bytes.toByteArray hvalid).toList).toByteArray :=
          String.toByteArray_ofList
        rw [String.ofList_toList] at hlist
        exact hlist.symm
      have hdata := congrArg (fun b => b.data.toList) hbytes
      simpa [List.data_toByteArray] using hdata
  · cases htext

/-- **An object that was cut off** before its last brace is no document. -/
theorem fromSlice_unclosed {members : Members Value} {bytes : List UInt8}
    (hbrace : '}' ∉ writeMembers members) (hcut : bytes <+: toVec (.object members))
    (hne : bytes ≠ toVec (.object members)) : fromSlice float bytes = none := by
  have htext : toVec (.object members) = encode ('{' :: writeMembers members) ++ [125] := by
    rw [toVec, Value.write, encode, List.flatMap_append]
    rfl
  rw [htext] at hcut hne
  -- what is there of the object is there of what stands before the brace
  have hcut' : bytes <+: encode ('{' :: writeMembers members) := by
    rcases List.prefix_concat_iff.mp hcut with heq | hprefix
    · exact absurd heq hne
    · exact hprefix
  unfold fromSlice
  cases hdecode : decode bytes with
  | none => rfl
  | some cs =>
      have hbytes := encode_of_decode hdecode
      subst hbytes
      have hclose : '}' ∉ cs := by
        intro hmem
        have hbyte : (125 : UInt8) ∈ encode cs := by
          rw [encode, List.mem_flatMap]
          exact ⟨'}', hmem, by decide⟩
        have hread : '}' ∈ '{' :: writeMembers members :=
          mem_of_mem_encode (by decide) (hcut'.subset hbyte)
        rcases List.mem_cons.mp hread with h | h
        · exact absurd h (by decide)
        · exact hbrace h
      have hopen : ∀ c rest, cs = c :: rest → c = '{' := by
        rintro c rest rfl
        obtain ⟨b, bs, hfirst⟩ : ∃ b bs, String.utf8EncodeChar c = b :: bs :=
          List.exists_cons_of_ne_nil String.utf8EncodeChar_ne_nil
        have hhead : b = 123 := by
          obtain ⟨more, hmore⟩ := hcut'
          rw [encode, List.flatMap_cons, hfirst] at hmore
          have hbrace : String.utf8EncodeChar '{' = [123] := by decide
          rw [encode, List.flatMap_cons, hbrace] at hmore
          exact (List.cons.inj hmore).1
        have hmem : (123 : UInt8) ∈ String.utf8EncodeChar c := by
          rw [hfirst, hhead]
          exact List.mem_cons_self
        exact Char.ext (UInt32.toNat_inj.mp (toNat_of_mem_utf8EncodeChar (by decide) hmem))
      exact read_unclosed hopen hclose

end Json
