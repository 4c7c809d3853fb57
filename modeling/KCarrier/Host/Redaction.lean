import KCarrier.Crash.Lines
import KCarrier.Text
import Mathlib.Algebra.GroupWithZero.Nat

/-!
# KCarrier.Host.Redaction

The host's reason for a failure, as it reaches the terminal and the receipt.

`redactHostError` works on the lines of the raw text and is a fold over them: the words kept so
far, and whether the next line with something in it goes too.  `Redacted` says which lines are
replaced without naming the fold, and `redactLine_step` compares two runs over one line each;
`hostErrorDetail_redacts` is the induction over the lines.

* `Differ` — two texts that agree on every line neither run shows;
* `shorten_printable` — what the loop over the characters keeps.
-/

namespace KCarrier

/-! ## characters -/

/-- `char::is_control`: the general category Cc. -/
def isControl (c : Char) : Bool :=
  let n := c.toNat
  n ≤ 0x1F || (0x7F ≤ n && n ≤ 0x9F)

def toAsciiLowercase (c : Char) : Char :=
  if 'A' ≤ c ∧ c ≤ 'Z' then Char.ofNat (c.toNat + 32) else c

def isAsciiAlphanumeric (c : Char) : Bool :=
  ('0' ≤ c ∧ c ≤ '9') || ('A' ≤ c ∧ c ≤ 'Z') || ('a' ≤ c ∧ c ≤ 'z')

/-! ## lines and words -/

/-- One carriage return before the line feed goes with it. -/
def stripReturn (line : List Char) : List Char :=
  if line.getLast? = some '\r' then line.dropLast else line

/-- `str::lines`: a text that ends with a line feed has no empty line behind it. -/
def lines (raw : List Char) : List (List Char) :=
  let rest := Crash.unfinished '\n' raw
  (Crash.complete '\n' raw).map stripReturn ++ if rest = [] then [] else [rest]

def splitWhitespace (line : List Char) : List (List Char) :=
  (line.splitOnP isWhitespace).filter (· ≠ [])

/-! ## what is redacted -/

def credentialMarkers : List String :=
  ["authorization", "bearer", "token", "secret", "password", "passwd", "api_key", "api key",
    "api-key", "apikey", "access_key", "access key", "access-key", "client_secret",
    "client secret", "client-secret", "cookie", "database_url", "database-url"]

def hasCredentialMarker (line : List Char) : Bool :=
  credentialMarkers.any fun marker => containsChars marker.toList (line.map toAsciiLowercase)

/-- What stands behind the first `://`. -/
def afterScheme : List Char → Option (List Char)
  | [] => none
  | c :: rest =>
      if "://".toList.isPrefixOf (c :: rest) then some (rest.drop 2) else afterScheme rest

theorem afterScheme_length {line after : List Char} (h : afterScheme line = some after) :
    after.length < line.length := by
  induction line with
  | nil => cases h
  | cons c rest ih =>
      rw [afterScheme] at h
      split at h
      · cases h
        simp only [List.length_drop, List.length_cons]
        omega
      · have := ih h
        simp only [List.length_cons]
        omega

def endsAuthority (c : Char) : Bool :=
  isWhitespace c || "/?#".toList.contains c

def authority (after : List Char) : List Char :=
  after.takeWhile fun c => !endsAuthority c

def hasUrlUserinfo (line : List Char) : Bool :=
  match _ : afterScheme line with
  | none => false
  | some after =>
      if (Crash.rposition (· = '@') (authority after)).any (0 < ·) then true
      else hasUrlUserinfo after
termination_by line.length
decreasing_by exact afterScheme_length ‹_›

/-- The bytes of the text in UTF-8. -/
def utf8Length (cs : List Char) : Nat := (cs.map Char.utf8Size).sum

def redactedMark : List Char := "<redacted>".toList

def redactOpaqueWord (word : List Char) : List Char :=
  if 24 ≤ utf8Length word ∧
      word.all fun c => isAsciiAlphanumeric c || "._-+".toList.contains c then
    redactedMark
  else word

/-! ## the loop over the lines -/

/-- The words so far, and whether the next line with something in it goes too. -/
structure Redaction where
  out : List (List Char)
  redactNext : Bool

/-- `:` or `=` announces a value that may stand on another line. -/
def endsInSeparator (trimmed : List Char) : Bool :=
  trimmed.getLast? = some ':' || trimmed.getLast? = some '='

def redactLine (r : Redaction) (line : List Char) : Redaction :=
  let trimmed := trimChars line
  if trimmed = [] then r
  else
    let carried := r.redactNext
    let credential := hasCredentialMarker line
    let redactNext := credential && endsInSeparator trimmed
    if carried || credential || hasUrlUserinfo line then
      ⟨r.out ++ [redactedMark], redactNext⟩
    else ⟨r.out ++ (splitWhitespace line).map redactOpaqueWord, redactNext⟩

def redactLines (ls : List (List Char)) : Redaction := ls.foldl redactLine ⟨[], false⟩

def redactHostError (raw : List Char) : List Char :=
  [' '].intercalate (redactLines (lines raw)).out

/-! ## the loop over the characters -/

def hostErrorDetailMaxChars : Nat := 240

def shorten : List Char → List Char → Nat → List Char
  | [], out, _ => out
  | ch :: rest, out, chars =>
      let ch := if isControl ch then ' ' else ch
      if ch = ' ' ∧ out.getLast? = some ' ' then shorten rest out chars
      else if chars = hostErrorDetailMaxChars then out ++ ['…']
      else shorten rest (out ++ [ch]) (chars + 1)

/-- A host-supplied failure reason, reduced to one bounded printable line. -/
def hostErrorDetail (raw : String) : String :=
  String.ofList (trimChars (shorten (redactHostError raw.toList) [] 0))

/-! ## which lines are redacted -/

/-- A line that names a credential, in whatever ASCII case. -/
def NamesCredential (line : List Char) : Prop :=
  ∃ marker ∈ credentialMarkers, ∃ word, word <:+: line ∧
    word.map toAsciiLowercase = marker.toList

/-- A line with `://`, a user that ends no authority, and `@`. -/
def CarriesUserinfo (line : List Char) : Prop :=
  ∃ before user after, line = before ++ "://".toList ++ user ++ '@' :: after ∧ user ≠ [] ∧
    ∀ c ∈ user, endsAuthority c = false

/-- A line that names a credential and ends, but for white space, in `:` or `=`. -/
def Announces (line : List Char) : Prop :=
  NamesCredential line ∧ endsInSeparator (trimChars line) = true

def Blank (line : List Char) : Prop := trimChars line = []

/-- The last line of `before` with something in it announces a value. -/
def Awaited (before : List (List Char)) : Prop :=
  ∃ earlier line blanks, before = earlier ++ line :: blanks ∧ Announces line ∧
    ∀ b ∈ blanks, Blank b

/-- The line behind `before` is replaced. -/
def Redacted (before : List (List Char)) (line : List Char) : Prop :=
  ¬Blank line ∧ (NamesCredential line ∨ CarriesUserinfo line ∨ Awaited before)

/-- The same lines but for some that are replaced in both, of which both announce a value or
neither does. -/
def Differ (ls ls' : List (List Char)) : Prop :=
  ls.length = ls'.length ∧
    ∀ (i : Nat) (line line' : List Char), ls[i]? = some line → ls'[i]? = some line' →
      line = line' ∨
        Redacted (ls.take i) line ∧ Redacted (ls'.take i) line' ∧
          (Announces line ↔ Announces line')

/-! ## the scans -/

theorem hasCredentialMarker_iff {line : List Char} :
    hasCredentialMarker line = true ↔ NamesCredential line := by
  unfold hasCredentialMarker NamesCredential
  simp only [List.any_eq_true, containsChars_iff]
  constructor
  · rintro ⟨marker, hmarker, pre, post, hline⟩
    obtain ⟨front, back, rfl, hfront, -⟩ := List.map_eq_append_iff.mp hline.symm
    obtain ⟨first, word, rfl, -, hword⟩ := List.map_eq_append_iff.mp hfront
    exact ⟨marker, hmarker, word, ⟨first, back, rfl⟩, hword⟩
  · rintro ⟨marker, hmarker, word, hword, hlower⟩
    have hline : word.map toAsciiLowercase <:+: line.map toAsciiLowercase :=
      hword.map toAsciiLowercase
    rw [hlower] at hline
    exact ⟨marker, hmarker, hline⟩

theorem afterScheme_some {line after : List Char} (h : afterScheme line = some after) :
    ∃ before, line = before ++ "://".toList ++ after := by
  induction line with
  | nil => cases h
  | cons c rest ih =>
      rw [afterScheme] at h
      split at h
      · next hprefix =>
          obtain ⟨after', hafter⟩ := List.isPrefixOf_iff_prefix.mp hprefix
          have hc : c :: rest = ':' :: '/' :: '/' :: after' := hafter.symm
          cases hc
          cases h
          exact ⟨[], rfl⟩
      · obtain ⟨before, rfl⟩ := ih h
        exact ⟨c :: before, rfl⟩

/-- Two occurrences of `://` do not overlap: the first one is where the text says or
earlier. -/
theorem afterScheme_append (before after : List Char) :
    afterScheme (before ++ "://".toList ++ after) = some after ∨
      ∃ before', afterScheme (before ++ "://".toList ++ after) =
        some (before' ++ "://".toList ++ after) := by
  induction before with
  | nil => exact .inl rfl
  | cons c before ih =>
      rw [List.cons_append, List.cons_append, afterScheme]
      split
      · next hprefix =>
          right
          match before, hprefix with
          | [], h => simp at h
          | [_], h => simp at h
          | _ :: _ :: before, _ => exact ⟨before, rfl⟩
      · exact ih

/-- The last `@` of the authority stands behind a user. -/
theorem authority_iff {cs : List Char} :
    (Crash.rposition (· = '@') (authority cs)).any (0 < ·) = true ↔
      ∃ user after, cs = user ++ '@' :: after ∧ user ≠ [] ∧
        ∀ c ∈ user, endsAuthority c = false := by
  constructor
  · intro h
    obtain ⟨i, hat, hi⟩ := Option.any_eq_true _ _ |>.mp h
    obtain ⟨user, at', after, hcs, hat', hlength⟩ := Crash.rposition_some hat
    have hfree : ∀ c ∈ authority cs, endsAuthority c = false := by
      have hall := List.all_takeWhile (p := fun c => !endsAuthority c) (l := cs)
      unfold authority
      simpa using List.all_eq_true.mp hall
    obtain ⟨rest, hrest⟩ : authority cs <+: cs := List.takeWhile_prefix _
    rw [hcs] at hrest hfree
    simp only [decide_eq_true_eq] at hat' hi
    subst hat'
    refine ⟨user, after ++ rest, by rw [← hrest]; simp, ?_, fun c hc => hfree c (by simp [hc])⟩
    rintro rfl
    simp only [List.length_nil] at hlength
    omega
  · rintro ⟨user, after, rfl, huser, hfree⟩
    have hauthority : authority (user ++ '@' :: after) = user ++ '@' :: authority after := by
      unfold authority
      rw [List.takeWhile_append_of_pos (by simpa using hfree), List.takeWhile_cons]
      rfl
    obtain ⟨i, hat, hle⟩ : ∃ i, Crash.rposition (· = '@') (user ++ '@' :: authority after) =
        some i ∧ user.length ≤ i := Crash.rposition_append_cons (by decide)
    have hlength : 0 < user.length := List.length_pos_iff.mpr huser
    rw [hauthority, hat]
    simp only [Option.any_some, decide_eq_true_eq]
    omega

theorem hasUrlUserinfo_iff {line : List Char} :
    hasUrlUserinfo line = true ↔ CarriesUserinfo line := by
  induction line using hasUrlUserinfo.induct with
  | case1 line hnone =>
      rw [hasUrlUserinfo]
      split
      · constructor
        · intro h
          cases h
        · rintro ⟨before, user, after, rfl, -, -⟩
          rw [List.append_assoc] at hnone
          rcases afterScheme_append before (user ++ '@' :: after) with h | ⟨before', h⟩
          · rw [hnone] at h
            cases h
          · rw [hnone] at h
            cases h
      · next hsome =>
          rw [hnone] at hsome
          cases hsome
  | case2 line after hsome hat =>
      obtain ⟨before, rfl⟩ := afterScheme_some hsome
      obtain ⟨user, rest, rfl, huser, hfree⟩ := authority_iff.mp hat
      rw [hasUrlUserinfo]
      split
      · next hnone =>
          rw [hsome] at hnone
          cases hnone
      · next after' hsome' =>
          rw [hsome] at hsome'
          cases hsome'
          rw [if_pos hat]
          exact iff_of_true rfl ⟨before, user, rest, by simp, huser, hfree⟩
  | case3 line after hsome hat ih =>
      obtain ⟨before, rfl⟩ := afterScheme_some hsome
      have hstep : hasUrlUserinfo (before ++ "://".toList ++ after) = hasUrlUserinfo after := by
        rw [hasUrlUserinfo]
        split
        · next hnone =>
            rw [hsome] at hnone
            cases hnone
        · next after' hsome' =>
            rw [hsome] at hsome'
            cases hsome'
            rw [if_neg hat]
      rw [hstep, ih]
      constructor
      · rintro ⟨first, user, rest, rfl, huser, hfree⟩
        exact ⟨before ++ "://".toList ++ first, user, rest, by simp, huser, hfree⟩
      · rintro ⟨first, user, rest, hline, huser, hfree⟩
        have hscan := hsome
        rw [hline, List.append_assoc] at hscan
        rcases afterScheme_append first (user ++ '@' :: rest) with h | ⟨first', h⟩
        · rw [hscan] at h
          cases h
          exact absurd (authority_iff.mpr ⟨user, rest, rfl, huser, hfree⟩) hat
        · rw [hscan] at h
          cases h
          exact ⟨first', user, rest, by simp, huser, hfree⟩

/-! ## the state between two lines -/

theorem redactLines_concat (ls : List (List Char)) (line : List Char) :
    redactLines (ls ++ [line]) = redactLine (redactLines ls) line := by
  rw [redactLines, List.foldl_append]
  rfl

theorem announces_iff {line : List Char} :
    (hasCredentialMarker line && endsInSeparator (trimChars line)) = true ↔ Announces line := by
  rw [Bool.and_eq_true, hasCredentialMarker_iff]
  rfl

theorem Announces.not_blank {line : List Char} (h : Announces line) : ¬Blank line := by
  intro hblank
  have hends := h.2
  rw [hblank] at hends
  exact absurd hends (by decide)

theorem awaited_concat {ls : List (List Char)} {line : List Char} :
    Awaited (ls ++ [line]) ↔ Announces line ∨ Blank line ∧ Awaited ls := by
  constructor
  · rintro ⟨earlier, announcing, blanks, hsplit, hannounces, hblank⟩
    rcases List.eq_nil_or_concat blanks with rfl | ⟨blanks, last, rfl⟩
    · obtain ⟨-, hline⟩ := List.append_inj' hsplit rfl
      cases hline
      exact .inl hannounces
    · have hsplit' : ls ++ [line] = earlier ++ announcing :: blanks ++ [last] := by
        rw [hsplit]
        simp
      obtain ⟨rfl, hline⟩ := List.append_inj' hsplit' rfl
      cases hline
      exact .inr ⟨hblank line (by simp), earlier, announcing, blanks, rfl, hannounces,
        fun b hb => hblank b (by simp [hb])⟩
  · rintro (hannounces | ⟨hblank, earlier, announcing, blanks, rfl, hannounces, hblanks⟩)
    · exact ⟨ls, line, [], rfl, hannounces, by simp⟩
    · refine ⟨earlier, announcing, blanks ++ [line], by simp, hannounces, fun b hb => ?_⟩
      rcases List.mem_append.mp hb with hb | hb
      · exact hblanks b hb
      · rw [List.mem_singleton.mp hb]
        exact hblank

/-- The loop knows whether the next line is awaited as a value. -/
theorem redactNext_iff {ls : List (List Char)} :
    (redactLines ls).redactNext = true ↔ Awaited ls := by
  induction ls using List.reverseRecOn with
  | nil =>
      constructor
      · intro h
        cases h
      · rintro ⟨earlier, line, blanks, hnil, -, -⟩
        simp at hnil
  | append_singleton ls line ih =>
      rw [redactLines_concat, awaited_concat, redactLine]
      by_cases hblank : trimChars line = []
      · have hnot : ¬Announces line := fun h => h.not_blank hblank
        simp only [hblank, if_true, ih, hnot, false_or]
        exact ⟨fun h => ⟨hblank, h⟩, And.right⟩
      · have hnot : ¬Blank line := hblank
        simp only [hblank, if_false, hnot, false_and, or_false]
        split <;> exact announces_iff

/-! ## two runs -/

/-- A line that is replaced leaves its mark, and whether it announces a value. -/
theorem redactLine_redacted {before : List (List Char)} {line : List Char}
    (h : Redacted before line) :
    redactLine (redactLines before) line =
      ⟨(redactLines before).out ++ [redactedMark],
        hasCredentialMarker line && endsInSeparator (trimChars line)⟩ := by
  obtain ⟨hblank, hwhy⟩ := h
  have hreplaced : ((redactLines before).redactNext || hasCredentialMarker line ||
      hasUrlUserinfo line) = true := by
    simp only [Bool.or_eq_true, redactNext_iff, hasCredentialMarker_iff, hasUrlUserinfo_iff]
    tauto
  rw [redactLine]
  simp only [show ¬trimChars line = [] from hblank, if_false, hreplaced, if_true]

/-- **What is replaced does not show**: two runs over texts that differ there only agree after
each line. -/
theorem redactLines_eq {ls ls' : List (List Char)} (h : Differ ls ls') :
    redactLines ls = redactLines ls' := by
  obtain ⟨hlength, hagree⟩ := h
  have hrun : ∀ n ≤ ls.length, redactLines (ls.take n) = redactLines (ls'.take n) := by
    intro n hn
    induction n with
    | zero => rfl
    | succ n ih =>
        have hbefore := ih (by omega)
        have hline : ls[n]? = some ls[n] := List.getElem?_eq_getElem hn
        have hline' : ls'[n]? = some ls'[n] := List.getElem?_eq_getElem (by omega)
        rw [List.take_add_one, List.take_add_one, hline, hline']
        simp only [Option.toList_some]
        rw [redactLines_concat, redactLines_concat]
        rcases hagree n _ _ hline hline' with heq | ⟨hredacted, hredacted', hannounces⟩
        · rw [hbefore, heq]
        · have hnext : (hasCredentialMarker ls[n] && endsInSeparator (trimChars ls[n])) =
              (hasCredentialMarker ls'[n] && endsInSeparator (trimChars ls'[n])) := by
            rw [Bool.eq_iff_iff, announces_iff, announces_iff]
            exact hannounces
          rw [redactLine_redacted hredacted, redactLine_redacted hredacted', hbefore, hnext]
  have hall := hrun ls.length (Nat.le_refl _)
  rwa [List.take_length, hlength, List.take_length] at hall

/-! ## the characters that remain -/

/-- A line to show: bounded, printable, and with no two spaces next to each other. -/
structure Printable (bound : Nat) (cs : List Char) : Prop where
  length_le : cs.length ≤ bound
  control_free : ∀ c ∈ cs, isControl c = false
  spaced : ¬[' ', ' '] <:+: cs

theorem Printable.part {bound : Nat} {cs part : List Char} (h : Printable bound cs)
    (hpart : part <:+: cs) : Printable bound part where
  length_le := Nat.le_trans hpart.length_le h.length_le
  control_free c hc := h.control_free c (hpart.subset hc)
  spaced hspaces := h.spaced (hspaces.trans hpart)

/-- One more character, which is no second space. -/
theorem Printable.concat {bound : Nat} {cs : List Char} {c : Char} (h : Printable bound cs)
    (hc : isControl c = false) (hspace : ¬(c = ' ' ∧ cs.getLast? = some ' ')) :
    Printable (bound + 1) (cs ++ [c]) where
  length_le := by
    have := h.length_le
    simp only [List.length_append, List.length_singleton]
    omega
  control_free d hd := by
    rcases List.mem_append.mp hd with hd | hd
    · exact h.control_free d hd
    · rw [List.mem_singleton.mp hd]
      exact hc
  spaced := by
    rintro ⟨first, rest, hsplit⟩
    rcases List.eq_nil_or_concat rest with rfl | ⟨rest, last, rfl⟩
    · have hsplit' : (first ++ [' ']) ++ [' '] = cs ++ [c] := by
        rw [← hsplit]
        simp
      obtain ⟨rfl, hlast⟩ := List.append_inj' hsplit' rfl
      cases hlast
      exact hspace ⟨rfl, by simp⟩
    · have hsplit' : (first ++ [' ', ' '] ++ rest) ++ [last] = cs ++ [c] := by
        rw [← hsplit]
        simp
      obtain ⟨rfl, -⟩ := List.append_inj' hsplit' rfl
      exact h.spaced ⟨first, rest, rfl⟩

/-- **What the loop keeps**: `chars` counts what is out, up to the bound. -/
theorem shorten_printable (rest out : List Char) (chars : Nat)
    (hout : Printable chars out) (hchars : chars ≤ hostErrorDetailMaxChars) :
    Printable (hostErrorDetailMaxChars + 1) (shorten rest out chars) := by
  induction rest generalizing out chars with
  | nil =>
      have hlength : out.length ≤ hostErrorDetailMaxChars + 1 := by
        have := hout.length_le
        omega
      exact ⟨hlength, hout.control_free, hout.spaced⟩
  | cons ch rest ih =>
      have hcontrol : isControl (if isControl ch then ' ' else ch) = false := by
        split
        · decide
        · next h => simpa using h
      rw [shorten]
      generalize (if isControl ch then ' ' else ch) = c at hcontrol ⊢
      split
      · exact ih out chars hout hchars
      · next hspace =>
          split
          · next hfull =>
              rw [← hfull]
              exact hout.concat (by decide) fun h => absurd h.1 (by decide)
          · next hroom =>
              exact ih _ _ (hout.concat hcontrol hspace) (by omega)

/-! ## the law -/

/-- **Host failure text** does not depend on what it leaves out, and is one bounded printable
line. -/
theorem hostErrorDetail_redacts :
    (∀ raw raw' : String, Differ (lines raw.toList) (lines raw'.toList) →
      hostErrorDetail raw = hostErrorDetail raw') ∧
    ∀ raw : String, Printable 241 (hostErrorDetail raw).toList := by
  constructor
  · intro raw raw' h
    rw [hostErrorDetail, hostErrorDetail, redactHostError, redactHostError, redactLines_eq h]
  · intro raw
    rw [hostErrorDetail, String.toList_ofList]
    have hshort := shorten_printable (redactHostError raw.toList) [] 0
      ⟨Nat.le_refl _, by simp, by simp⟩ (by decide)
    exact hshort.part (trimChars_within _)

/-- Two passwords on a line behind the one that announces them. -/
theorem hostErrorDetail_redacts_password :
    Differ (lines "password:\n\n hunter2\nlost".toList)
        (lines "password:\n\n abc d\nlost".toList) ∧
      hostErrorDetail "password:\n\n hunter2\nlost" =
        hostErrorDetail "password:\n\n abc d\nlost" := by
  have hlines : lines "password:\n\n hunter2\nlost".toList =
      ["password:".toList, [], " hunter2".toList, "lost".toList] := by decide +kernel
  have hlines' : lines "password:\n\n abc d\nlost".toList =
      ["password:".toList, [], " abc d".toList, "lost".toList] := by decide +kernel
  have hannounces : Announces "password:".toList := announces_iff.mp (by decide +kernel)
  have hawaited : Awaited ["password:".toList, []] :=
    ⟨[], "password:".toList, [[]], rfl, hannounces, by simp [Blank, trimChars]⟩
  have hnot : ∀ line, line = " hunter2".toList ∨ line = " abc d".toList →
      ¬Blank line ∧ ¬Announces line := by
    rintro _ (rfl | rfl)
    · rw [← announces_iff]
      constructor
      · unfold Blank
        decide +kernel
      · decide +kernel
    · rw [← announces_iff]
      constructor
      · unfold Blank
        decide +kernel
      · decide +kernel
  obtain ⟨hblank, hplain⟩ := hnot _ (.inl rfl)
  obtain ⟨hblank', hplain'⟩ := hnot _ (.inr rfl)
  have hdiffer : Differ (lines "password:\n\n hunter2\nlost".toList)
      (lines "password:\n\n abc d\nlost".toList) := by
    rw [hlines, hlines']
    refine ⟨rfl, fun i line line' h h' => ?_⟩
    rcases i with _ | _ | _ | _ | n
    · cases h; cases h'; exact .inl rfl
    · cases h; cases h'; exact .inl rfl
    · cases h
      cases h'
      exact .inr ⟨⟨hblank, .inr (.inr hawaited)⟩, ⟨hblank', .inr (.inr hawaited)⟩,
        iff_of_false hplain hplain'⟩
    · cases h; cases h'; exact .inl rfl
    · cases h
  exact ⟨hdiffer, hostErrorDetail_redacts.1 _ _ hdiffer⟩

end KCarrier
