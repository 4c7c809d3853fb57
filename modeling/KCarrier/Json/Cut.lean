import KCarrier.Json.Unclosed

/-!
# KCarrier.Json.Cut

Objects delimit themselves.

What a reader has read it reads again when more text follows, if it stopped at a character and
not at the end of its text (`Steady`).  An object ends with its own brace; so no part of a
written object is a document (`fromSlice_cut`), whatever its texts hold.
-/

namespace Json

variable {α : Type}

/-- More text behind the character a reader stopped at changes nothing. -/
def Steady (r : Reader α) : Prop :=
  ∀ cs a rest more, r cs = some (a, rest) → rest ≠ [] → r (cs ++ more) = some (a, rest ++ more)

/-- What is left of a text that is not used up. -/
theorem ne_nil_of_suffix {xs ys : List α} (h : xs <:+ ys) (hne : xs ≠ []) : ys ≠ [] := by
  rintro rfl
  exact hne (List.suffix_nil.mp h)

/-- What is dropped ends before the list does. -/
theorem dropWhile_append {p : α → Bool} {xs : List α} (ys : List α) (h : xs.dropWhile p ≠ []) :
    (xs ++ ys).dropWhile p = xs.dropWhile p ++ ys := by
  rw [List.dropWhile_append]
  simp [h]

/-- What is taken ends before the list does. -/
theorem takeWhile_append {p : α → Bool} {xs : List α} (ys : List α) (h : xs.dropWhile p ≠ []) :
    (xs ++ ys).takeWhile p = xs.takeWhile p := by
  induction xs with
  | nil => simp at h
  | cons x xs ih =>
      cases hp : p x with
      | false => simp [hp]
      | true =>
          rw [List.dropWhile_cons_of_pos hp] at h
          simp [hp, ih h]

/-- Space that ends before the text does. -/
theorem skipSpace_append {cs : List Char} (more : List Char) (h : skipSpace cs ≠ []) :
    skipSpace (cs ++ more) = skipSpace cs ++ more := dropWhile_append more h

/-- The first character after the space. -/
theorem skipSpace_append_cons {cs rest : List Char} {c : Char} (more : List Char)
    (h : skipSpace cs = c :: rest) : skipSpace (cs ++ more) = c :: (rest ++ more) := by
  rw [skipSpace_append more (by simp [h]), h, List.cons_append]

/-! ## strings -/

/-- Four hexadecimal digits. -/
theorem readHex_append {cs rest : List Char} {n : Nat} (more : List Char)
    (h : readHex cs = some (n, rest)) : readHex (cs ++ more) = some (n, rest ++ more) := by
  unfold readHex at h
  split at h
  · simp only [Option.bind_eq_bind, Option.bind_eq_some_iff, Option.some.injEq, Prod.mk.injEq] at h
    obtain ⟨a, ha, b, hb, c, hc, d, hd, rfl, rfl⟩ := h
    simp [readHex, ha, hb, hc, hd]
  · cases h

/-- A character by its code. -/
theorem readUnicode_append {cs rest : List Char} {c : Char} (more : List Char)
    (h : readUnicode cs = some (c, rest)) : readUnicode (cs ++ more) = some (c, rest ++ more) := by
  simp only [readUnicode, Option.bind_eq_bind, Option.bind_eq_some_iff] at h
  obtain ⟨⟨n, rest₁⟩, hfirst, h⟩ := h
  have hfirst := readHex_append more hfirst
  simp only [readUnicode, Option.bind_eq_bind, hfirst, Option.bind_some]
  dsimp only at h
  split at h
  · cases h
  split at h
  · split at h
    · simp only [Option.bind_eq_some_iff] at h
      obtain ⟨⟨m, rest₂⟩, hsecond, h⟩ := h
      have hsecond := readHex_append more hsecond
      dsimp only at h
      split at h
      · simp only [Option.some.injEq, Prod.mk.injEq] at h
        obtain ⟨rfl, rfl⟩ := h
        simp [*]
      · cases h
    · cases h
  · simp only [Option.some.injEq, Prod.mk.injEq] at h
    obtain ⟨rfl, rfl⟩ := h
    simp [*]

/-- An escape. -/
theorem readEscape_append {cs rest : List Char} {c : Char} (more : List Char)
    (h : readEscape cs = some (c, rest)) : readEscape (cs ++ more) = some (c, rest ++ more) := by
  unfold readEscape at h
  split at h
  case h_9 => exact readUnicode_append more h
  case h_10 => cases h
  all_goals
    cases h
    rfl

/-- The fuel is as good when there is more of it. -/
theorem readChars_append {fuel more_fuel : Nat} {cs ds rest : List Char} (more : List Char)
    (hfuel : fuel ≤ more_fuel) (h : readChars fuel cs = some (ds, rest)) :
    readChars more_fuel (cs ++ more) = some (ds, rest ++ more) := by
  induction fuel generalizing more_fuel cs ds rest with
  | zero => cases h
  | succ fuel ih =>
      obtain ⟨big, rfl⟩ := Nat.exists_eq_add_of_le' (by omega : 1 ≤ more_fuel)
      cases cs with
      | nil => cases h
      | cons c cs =>
          rw [List.cons_append, readChars]
          rw [readChars] at h
          split at h
          · cases h
            simp [*]
          split at h
          · simp only [Option.bind_eq_bind, Option.bind_eq_some_iff] at h
            obtain ⟨⟨d, rest₁⟩, hescape, ⟨es, rest₂⟩, hrest, h⟩ := h
            cases h
            have hescape := readEscape_append more hescape
            have hrest := ih (by omega : fuel ≤ big) hrest
            simp [*]
          split at h
          · cases h
          · simp only [Option.bind_eq_bind, Option.bind_eq_some_iff] at h
            obtain ⟨⟨es, rest₁⟩, hrest, h⟩ := h
            cases h
            have hrest := ih (by omega : fuel ≤ big) hrest
            simp [*]

/-- **A string** is read however the text goes on. -/
theorem readString_append {cs rest : List Char} {s : String} (more : List Char)
    (h : readString cs = some (s, rest)) : readString (cs ++ more) = some (s, rest ++ more) := by
  simp only [readString, Option.bind_eq_bind, Option.bind_eq_some_iff] at h
  obtain ⟨⟨ds, rest₁⟩, hchars, h⟩ := h
  cases h
  have hchars := readChars_append more (by simp : cs.length ≤ (cs ++ more).length) hchars
  simp only [readString, Option.bind_eq_bind, hchars, Option.bind_some]

/-! ## numbers -/

/-- Digits that end before the text does. -/
theorem steady_readDigits : Steady readDigits := by
  intro cs ds rest more h hne
  unfold readDigits at h ⊢
  dsimp only at h ⊢
  split at h
  · cases h
  · cases h
    rw [takeWhile_append more hne, dropWhile_append more hne]
    simp [*]

/-- A fraction. -/
theorem steady_readFraction : Steady readFraction := by
  intro cs ds rest more h hne
  unfold readFraction at h
  split at h
  · simp only [Option.bind_eq_bind, Option.bind_eq_some_iff] at h
    obtain ⟨⟨digits, rest₁⟩, hdigits, h⟩ := h
    cases h
    have hdigits := steady_readDigits _ _ _ more hdigits hne
    simp [readFraction, hdigits]
  · next hdot =>
      cases h
      cases cs with
      | nil => exact absurd rfl hne
      | cons c cs =>
          unfold readFraction
          split
          · next heq => cases heq; exact absurd rfl (hdot cs)
          · rfl

/-- A sign that is followed by something. -/
theorem readSign_append {cs : List Char} (more : List Char) (h : (readSign cs).2 ≠ []) :
    readSign (cs ++ more) = ((readSign cs).1, (readSign cs).2 ++ more) := by
  unfold readSign at h ⊢
  split at h
  · rfl
  · rfl
  · next hplus hminus =>
      cases cs with
      | nil => exact absurd rfl h
      | cons c cs =>
          split
          · next heq => cases heq; exact absurd rfl (hplus cs)
          · next heq => cases heq; exact absurd rfl (hminus cs)
          · rfl

/-- An exponent. -/
theorem steady_readExponent : Steady readExponent := by
  intro cs ds rest more h hne
  cases cs with
  | nil =>
      cases h
      exact absurd rfl hne
  | cons c cs =>
      rw [readExponent] at h
      rw [List.cons_append, readExponent]
      split at h
      · simp only [Option.bind_eq_bind, Option.bind_eq_some_iff] at h
        obtain ⟨⟨digits, rest₁⟩, hdigits, h⟩ := h
        cases h
        have hsign : (readSign cs).2 ≠ [] :=
          ne_nil_of_suffix (takes_readDigits _ _ _ hdigits) hne
        have hdigits := steady_readDigits _ _ _ more hdigits hne
        simp [*, readSign_append more hsign]
      · cases h
        simp [*]

variable {float : List Char → Option String}

/-- A number after its sign. -/
theorem steady_readUnsigned (negative : Bool) : Steady (readUnsigned float negative) := by
  intro cs n rest more h hne
  simp only [readUnsigned, Option.bind_eq_bind, Option.bind_eq_some_iff] at h
  obtain ⟨⟨digits, rest₁⟩, hdigits, h⟩ := h
  dsimp only at h
  split at h
  · cases h
  · next hlead =>
      simp only [Option.bind_eq_some_iff] at h
      obtain ⟨⟨fraction, rest₂⟩, hfraction, ⟨exponent, rest₃⟩, hexponent, n', hn, h⟩ := h
      cases h
      -- each part stops at a character, as the last one does
      have hne₂ : rest₂ ≠ [] := ne_nil_of_suffix (takes_readExponent _ _ _ hexponent) hne
      have hne₁ : rest₁ ≠ [] := ne_nil_of_suffix (takes_readFraction _ _ _ hfraction) hne₂
      have hdigits := steady_readDigits _ _ _ more hdigits hne₁
      have hfraction := steady_readFraction _ _ _ more hfraction hne₂
      have hexponent := steady_readExponent _ _ _ more hexponent hne
      simp only [readUnsigned, Option.bind_eq_bind, hdigits, Option.bind_some, hfraction, hexponent,
        hn, if_neg hlead]

/-- **A number** that ends before the text does. -/
theorem steady_readNumber : Steady (readNumber float) := by
  intro cs n rest more h hne
  unfold readNumber at h
  split at h
  · exact steady_readUnsigned true _ _ _ more h hne
  · next hminus =>
      cases cs with
      | nil => cases h
      | cons c cs =>
          have hread := steady_readUnsigned false _ _ _ more h hne
          rw [List.cons_append] at hread ⊢
          unfold readNumber
          split
          · next heq => cases heq; exact absurd rfl (hminus cs)
          · exact hread

/-- A number begins with a digit or a sign. -/
theorem readNumber_head {c : Char} {cs rest : List Char} {n : Number}
    (h : readNumber float (c :: cs) = some (n, rest)) : c.isDigit = true ∨ c = '-' := by
  unfold readNumber at h
  split at h
  · next heq =>
      cases heq
      exact .inr rfl
  · simp only [readUnsigned, Option.bind_eq_bind, Option.bind_eq_some_iff] at h
    obtain ⟨⟨digits, rest₁⟩, hdigits, -⟩ := h
    unfold readDigits at hdigits
    dsimp only at hdigits
    split at hdigits
    · cases hdigits
    · next hsome =>
        left
        by_contra hc
        simp [hc] at hsome

/-! ## values -/

section

variable {inner : Reader Value}

/-- The items of an array. -/
theorem steady_readItems (hinner : Steady inner) {fuel big : Nat} {cs rest : List Char}
    {vs : List Value} (more : List Char) (hfuel : fuel ≤ big)
    (h : readItems inner fuel cs = some (vs, rest)) :
    readItems inner big (cs ++ more) = some (vs, rest ++ more) := by
  induction fuel generalizing big cs vs rest with
  | zero => cases h
  | succ fuel ih =>
      obtain ⟨big, rfl⟩ := Nat.exists_eq_add_of_le' (by omega : 1 ≤ big)
      simp only [readItems, Option.bind_eq_bind, Option.bind_eq_some_iff] at h ⊢
      obtain ⟨⟨v, rest₁⟩, hv, h⟩ := h
      dsimp only at h
      have hne : skipSpace rest₁ ≠ [] → rest₁ ≠ [] := ne_nil_of_suffix (skipSpace_suffix rest₁)
      split at h
      · next rest₂ hskip =>
          have hv := hinner _ _ _ more hv (hne (by simp [hskip]))
          simp only [Option.bind_eq_some_iff] at h
          obtain ⟨⟨ws, rest₃⟩, hrest, h⟩ := h
          cases h
          have hrest := ih (by omega : fuel ≤ big) hrest
          exact ⟨_, hv, by simp [skipSpace_append_cons more hskip, hrest]⟩
      · next rest₂ hskip =>
          have hv := hinner _ _ _ more hv (hne (by simp [hskip]))
          cases h
          exact ⟨_, hv, by simp [skipSpace_append_cons more hskip]⟩
      · cases h

/-- **An array** is read however the text goes on. -/
theorem readArray_append (hinner : Steady inner)
    (hblank : ∀ cs, skipSpace cs = [] → inner cs = none) {cs rest : List Char} {vs : List Value}
    (more : List Char) (h : readArray inner cs = some (vs, rest)) :
    readArray inner (cs ++ more) = some (vs, rest ++ more) := by
  have hcs : skipSpace cs ≠ [] := by
    intro hskip
    rw [readArray, hskip] at h
    cases hlength : cs.length with
    | zero => simp [hlength, readItems] at h
    | succ n => simp [hlength, readItems, hblank cs hskip] at h
  unfold readArray at h ⊢
  rw [skipSpace_append more hcs]
  split at h
  · next rest₁ hskip =>
      cases h
      rw [hskip]
      rfl
  · next hopen =>
      have hitems := steady_readItems hinner more (by simp : cs.length ≤ (cs ++ more).length) h
      cases hskip : skipSpace cs with
      | nil => exact absurd hskip hcs
      | cons c rest₁ =>
          rw [List.cons_append]
          split
          · next heq => cases heq; exact absurd hskip (hopen rest₁)
          · exact hitems

/-- A member of an object. -/
theorem steady_readMember (hinner : Steady inner) : Steady (readMember inner) := by
  intro cs p rest more h hne
  unfold readMember at h ⊢
  split at h
  · next rest₁ hskip =>
      simp only [Option.bind_eq_bind, Option.bind_eq_some_iff] at h
      obtain ⟨⟨key, rest₂⟩, hkey, h⟩ := h
      have hkey := readString_append more hkey
      dsimp only at h
      split at h
      · next rest₃ hcolon =>
          simp only [Option.bind_eq_some_iff] at h
          obtain ⟨⟨v, rest₄⟩, hv, h⟩ := h
          cases h
          have hv := hinner _ _ _ more hv hne
          simp [skipSpace_append_cons more hskip, hkey, skipSpace_append_cons more hcolon, hv]
      · cases h
  · cases h

/-- The members of an object. -/
theorem readMembers_append (hinner : Steady inner) {fuel big : Nat} {cs rest : List Char}
    {ms : Members Value} (more : List Char) (hfuel : fuel ≤ big)
    (h : readMembers inner fuel cs = some (ms, rest)) :
    readMembers inner big (cs ++ more) = some (ms, rest ++ more) := by
  induction fuel generalizing big cs ms rest with
  | zero => cases h
  | succ fuel ih =>
      obtain ⟨big, rfl⟩ := Nat.exists_eq_add_of_le' (by omega : 1 ≤ big)
      simp only [readMembers, Option.bind_eq_bind, Option.bind_eq_some_iff] at h ⊢
      obtain ⟨⟨p, rest₁⟩, hp, h⟩ := h
      dsimp only at h
      have hne : skipSpace rest₁ ≠ [] → rest₁ ≠ [] := ne_nil_of_suffix (skipSpace_suffix rest₁)
      split at h
      · next rest₂ hskip =>
          have hp := steady_readMember hinner _ _ _ more hp (hne (by simp [hskip]))
          simp only [Option.bind_eq_some_iff] at h
          obtain ⟨⟨ps, rest₃⟩, hrest, h⟩ := h
          cases h
          have hrest := ih (by omega : fuel ≤ big) hrest
          exact ⟨_, hp, by simp [skipSpace_append_cons more hskip, hrest]⟩
      · next rest₂ hskip =>
          have hp := steady_readMember hinner _ _ _ more hp (hne (by simp [hskip]))
          cases h
          exact ⟨_, hp, by simp [skipSpace_append_cons more hskip]⟩
      · cases h

/-- **An object** is read however the text goes on. -/
theorem readObject_append (hinner : Steady inner) {cs rest : List Char} {ms : Members Value}
    (more : List Char) (h : readObject inner cs = some (ms, rest)) :
    readObject inner (cs ++ more) = some (ms, rest ++ more) := by
  have hcs : skipSpace cs ≠ [] := by
    intro hskip
    rw [readObject, hskip] at h
    cases hlength : cs.length with
    | zero => simp [hlength, readMembers] at h
    | succ n => simp [hlength, readMembers, readMember, hskip] at h
  unfold readObject at h ⊢
  rw [skipSpace_append more hcs]
  split at h
  · next rest₁ hskip =>
      cases h
      rw [hskip]
      rfl
  · next hopen =>
      have hmembers := readMembers_append hinner more (by simp : cs.length ≤ (cs ++ more).length) h
      cases hskip : skipSpace cs with
      | nil => exact absurd hskip hcs
      | cons c rest₁ =>
          rw [List.cons_append]
          split
          · next heq => cases heq; exact absurd hskip (hopen rest₁)
          · exact hmembers

end

/-- There is no value in white space. -/
theorem readNode_blank (nested : Option (Reader Value)) {cs : List Char} (h : skipSpace cs = []) :
    readNode float nested cs = none := by
  unfold readNode
  rw [h]
  rfl

/-- A value whose parts `nested` reads. -/
theorem steady_readNode {nested : Option (Reader Value)} (hsteady : ∀ r ∈ nested, Steady r)
    (hblank : ∀ r ∈ nested, ∀ cs, skipSpace cs = [] → r cs = none) :
    Steady (readNode float nested) := by
  intro cs v rest more h hne
  have hcs : skipSpace cs ≠ [] := by
    intro hskip
    rw [readNode_blank nested hskip] at h
    cases h
  have hskip := skipSpace_append more hcs
  unfold readNode at h
  split at h
  · next heq =>
      cases h
      simp [readNode, hskip, heq]
  · next heq =>
      cases h
      simp [readNode, hskip, heq]
  · next heq =>
      cases h
      simp [readNode, hskip, heq]
  · next rest₁ heq =>
      simp only [Option.bind_eq_bind, Option.bind_eq_some_iff] at h
      obtain ⟨⟨s, rest₂⟩, hs, h⟩ := h
      cases h
      simp [readNode, hskip, heq, readString_append more hs]
  · next rest₁ heq =>
      simp only [Option.bind_eq_bind, Option.bind_eq_some_iff] at h
      obtain ⟨inner, hinner, ⟨items, rest₂⟩, hitems, h⟩ := h
      cases h
      have hitems := readArray_append (hsteady inner hinner) (hblank inner hinner) more hitems
      simp [readNode, hskip, heq, hinner, hitems]
  · next rest₁ heq =>
      simp only [Option.bind_eq_bind, Option.bind_eq_some_iff] at h
      obtain ⟨inner, hinner, ⟨members, rest₂⟩, hmembers, h⟩ := h
      cases h
      have hmembers := readObject_append (hsteady inner hinner) more hmembers
      simp [readNode, hskip, heq, hinner, hmembers]
  · simp only [Option.bind_eq_bind, Option.bind_eq_some_iff] at h
    obtain ⟨⟨n, rest₁⟩, hn, h⟩ := h
    cases h
    have hread := steady_readNumber _ _ _ more hn hne
    cases heq : skipSpace cs with
    | nil => exact absurd heq hcs
    | cons c rest₂ =>
        -- a number begins as no other value does
        rw [heq] at hn hread hskip
        have hhead := readNumber_head hn
        have hnode := readNode_number float nested (rest₂ ++ more) hhead
        rw [← List.cons_append, hread, Option.bind_some] at hnode
        have hsame : readNode float nested (cs ++ more) =
            readNode float nested (c :: rest₂ ++ more) := by
          have htwice : skipSpace (c :: rest₂ ++ more) = c :: rest₂ ++ more :=
            skipSpace_cons _ (not_space_of_number hhead)
          rw [readNode, readNode, hskip, htwice]
        rw [hsame, hnode]

/-- There is no value in space. -/
theorem readValue_blank (depth : Nat) {cs : List Char} (h : skipSpace cs = []) :
    readValue float depth cs = none := by
  cases depth with
  | zero => exact readNode_blank none h
  | succ depth => exact readNode_blank _ h

/-- **A value** of any depth. -/
theorem steady_readValue (depth : Nat) : Steady (readValue float depth) := by
  induction depth with
  | zero => exact steady_readNode (by simp) (by simp)
  | succ depth ih =>
      refine steady_readNode (by simpa using ih) ?_
      rintro r hr cs hcs
      cases hr
      exact readValue_blank depth hcs

/-! ## objects -/

/-- An object is read the same, whatever follows its brace. -/
theorem readValue_object_append {depth : Nat} {cs rest : List Char} {v : Value} (more : List Char)
    (h : readValue float (depth + 1) ('{' :: cs) = some (v, rest)) :
    readValue float (depth + 1) ('{' :: cs ++ more) = some (v, rest ++ more) := by
  have hnode : ∀ cs, readValue float (depth + 1) ('{' :: cs) =
      (readObject (readValue float depth) cs).bind fun p => some (.object p.1, p.2) := fun _ => rfl
  rw [hnode, Option.bind_eq_some_iff] at h
  obtain ⟨⟨ms, rest₁⟩, hread, h⟩ := h
  cases h
  rw [List.cons_append, hnode, readObject_append (steady_readValue depth) more hread]
  rfl

/-- **A part of an object** is no document: an object ends with its own brace. -/
theorem read_cut {members : Members Value} (hfits : Fits maxDepth (.object members))
    {cs more : List Char} (hcut : (Value.object members).write = cs ++ more) (hmore : more ≠ []) :
    read float cs = none := by
  cases cs with
  | nil => rfl
  | cons c cs =>
      obtain rfl : c = '{' := by
        rw [Value.write] at hcut
        exact (List.cons.inj hcut).1.symm
      cases hvalue : readValue float maxDepth ('{' :: cs) with
      | none =>
          rw [read, hvalue]
          rfl
      | some p =>
          obtain ⟨v, rest⟩ := p
          have hwhole := readValue_write float hfits [] closed_nil
          have hlonger : readValue float maxDepth ('{' :: cs ++ more) = some (v, rest ++ more) :=
            readValue_object_append more hvalue
          rw [List.append_nil, hcut, hlonger] at hwhole
          simp only [Option.some.injEq, Prod.mk.injEq, List.append_eq_nil_iff] at hwhole
          exact absurd hwhole.2.2 hmore

/-- A character is told from the bytes it begins with. -/
theorem encode_char_append {c d : Char} {xs ys : List UInt8}
    (h : String.utf8EncodeChar c ++ xs = String.utf8EncodeChar d ++ ys) : c = d ∧ xs = ys := by
  have hread : ∀ (c : Char) (xs : List UInt8),
      (String.utf8EncodeChar c ++ xs).toByteArray.utf8DecodeChar? 0 = some c := by
    intro c xs
    rw [List.toByteArray_append]
    exact ByteArray.utf8DecodeChar?_utf8EncodeChar_append
  have hchar : some c = some d := by rw [← hread c xs, h, hread d ys]
  cases hchar
  exact ⟨rfl, List.append_cancel_left h⟩

/-- What is written first of a text is a text. -/
theorem prefix_of_encode_prefix {cs ds : List Char} (h : encode cs <+: encode ds) : cs <+: ds := by
  induction cs generalizing ds with
  | nil => exact List.nil_prefix
  | cons c cs ih =>
      obtain ⟨more, hmore⟩ := h
      cases ds with
      | nil =>
          rw [encode, List.flatMap_cons, List.append_assoc] at hmore
          have hempty := (List.append_eq_nil_iff.mp hmore).1
          exact absurd hempty String.utf8EncodeChar_ne_nil
      | cons d ds =>
          simp only [encode, List.flatMap_cons, List.append_assoc] at hmore
          obtain ⟨rfl, hrest⟩ := encode_char_append hmore
          exact List.cons_prefix_cons.mpr ⟨rfl, ih ⟨more, hrest⟩⟩

/-- **An object that was cut off** anywhere is no document. -/
theorem fromSlice_cut {members : Members Value} (hfits : Fits maxDepth (.object members))
    {bytes : List UInt8} (hcut : bytes <+: toVec (.object members))
    (hne : bytes ≠ toVec (.object members)) : fromSlice float bytes = none := by
  unfold fromSlice
  cases hdecode : decode bytes with
  | none => rfl
  | some cs =>
      have hbytes := encode_of_decode hdecode
      subst hbytes
      obtain ⟨more, hmore⟩ := prefix_of_encode_prefix hcut
      refine read_cut hfits hmore.symm ?_
      rintro rfl
      rw [List.append_nil] at hmore
      exact hne (by rw [hmore, toVec])

/-- What is left of a line with one object is that object, or no document. -/
theorem fromSlice_line {members : Members Value} (hfits : Fits maxDepth (.object members))
    {bytes : List UInt8} (hcut : bytes <+: toVec (.object members) ++ [10]) :
    fromSlice float bytes = none ∨ fromSlice float bytes = some (.object members) := by
  rcases List.prefix_concat_iff.mp hcut with rfl | hcut
  · have hspace : ∀ c ∈ ['\n'], isSpace c = true := by
      intro c hc
      rw [List.mem_singleton.mp hc]
      rfl
    have hline : toVec (.object members) ++ [10] =
        encode ((Value.object members).write ++ ['\n']) := by
      rw [encode, List.flatMap_append]
      rfl
    rw [hline]
    exact .inr (fromSlice_encode float hfits hspace)
  · by_cases hwhole : bytes = toVec (.object members)
    · subst hwhole
      exact .inr (fromSlice_toVec float hfits)
    · exact .inl (fromSlice_cut hfits hcut hwhole)

end Json
