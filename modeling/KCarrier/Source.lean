import Mathlib.Data.List.GetD
import Mathlib.Data.Prod.Lex
import Mathlib.Order.PiLex
import KCarrier.Crash.Lines
import KCarrier.Runner
import Mathlib.Algebra.Group.Int.Defs

/-!
# KCarrier.Source

The static release source and its order of versions.

`newer` walks over the components of two versions, the shorter list padded with zeros,
and asks last whether one of them is a prerelease.  `versionKey` maps a version into a
linear order, its padded components first, and `newer` is that order (`newer_iff`), so it
is a strict weak order.

* `version_order` — the laws of `newer`, and what it does not look at;
* `check_chain_fresh` — what a chain of checks offers, each installed.
-/

namespace KCarrier

/-! ## versions -/

/-- The digits of `parse::<i128>`, which has to fit. -/
def parseDigits (negative : Bool) (ds : List Char) : Option Int :=
  if ds ≠ [] ∧ ds.all (·.isDigit) = true then
    let n : Int := Nat.ofDigitChars 10 ds 0
    let n := if negative then -n else n
    if -2 ^ 127 ≤ n ∧ n < 2 ^ 127 then some n else none
  else
    none

/-- `parse::<i128>`: a sign may stand in front. -/
def parseI128 : List Char → Option Int
  | '+' :: ds => parseDigits false ds
  | '-' :: ds => parseDigits true ds
  | ds => parseDigits false ds

/-- A component that is no number counts as zero. -/
def component (cs : List Char) : Int := (parseI128 cs).getD 0

/-- The numbers before the first hyphen. -/
def partsOf (cs : List Char) : List Int :=
  ((cs.takeWhile (· != '-')).splitOn '.').map component

def parts (v : String) : List Int := partsOf v.toList

/-- The first difference of two lists from index `i` on, within `n` steps. -/
def compareFrom (as bs : List Int) : Nat → Nat → Ordering
  | 0, _ => .eq
  | n + 1, i =>
      let cmp := compare (as.getD i 0) (bs.getD i 0)
      if cmp ≠ .eq then cmp else compareFrom as bs n (i + 1)

/-- Prereleases are below their release, and two of one core compare equal. -/
def newer (a b : String) : Bool :=
  let as := parts a
  let bs := parts b
  match compareFrom as bs (max as.length bs.length) 0 with
  | .gt => true
  | .lt => false
  | .eq => !a.toList.contains '-' && b.toList.contains '-'

/-! ## manifests -/

structure ManifestTarget where
  file : String
  sha256 : String
  size : Nat
deriving DecidableEq, Repr

structure Manifest where
  version : String
  targets : List (String × ManifestTarget)
deriving DecidableEq, Repr

/-- `trim_end_matches('/')`. -/
def trimSlashes (s : String) : String :=
  String.ofList (s.toList.reverse.dropWhile (· == '/')).reverse

def Manifest.release (m : Manifest) (base platform : String) : Except Error Release :=
  match m.targets.lookup platform with
  | none => .error (.invalid "UNSUPPORTED_PLATFORM")
  | some target => .ok ⟨m.version, s!"{trimSlashes base}/{target.file}", target.sha256, target.size⟩

namespace StaticManifestSource

/-- `check`, on what the download of the manifest came to. -/
def check (base : String) (manifest : Except Error Manifest) (context : ReleaseContext) :
    Except Error (Option Release) :=
  match manifest with
  | .error e => .error e
  | .ok m =>
      if !newer m.version context.currentVersion then
        .ok none
      else
        match m.release base context.platformKey with
        | .error e => .error e
        | .ok release => .ok (some release)

def fetch (base : String) (manifest : Except Error Manifest) (version : String)
    (context : ReleaseContext) : Except Error Release :=
  match manifest with
  | .error e => .error e
  | .ok m =>
      if m.version ≠ version then
        .error (.invalid "PINNED_VERSION_MISMATCH")
      else
        m.release base context.platformKey

/-- What the next context shows of an installed version: the version itself, or what the
stable slot reports of it. -/
def shown (fromSlot : Bool) (version : String) : String :=
  if fromSlot then trim version else version

/-- The releases that checks of `manifests` offer, each installed before the next check. -/
def chain (base platform : String) (fromSlot : Bool) :
    List (Except Error Manifest) → String → List Release
  | [], _ => []
  | m :: ms, current =>
      match check base m ⟨current, platform⟩ with
      | .ok (some release) =>
          release :: chain base platform fromSlot ms (shown fromSlot release.version)
      | _ => chain base platform fromSlot ms current

end StaticManifestSource

/-! ## the order of versions -/

/-- The components of a version, padded with zeros. -/
def padded (ps : List Int) (i : Nat) : Int := ps.getD i 0

/-- The padded components first, a prerelease before its release. -/
def versionKey (v : String) : Lex (Lex (Nat → Int) × Bool) :=
  toLex (toLex (padded (parts v)), !v.toList.contains '-')

/-- The first difference, or the lack of one, in each outcome of the walk. -/
def FirstDifference (as bs : List Int) (i n : Nat) : Ordering → Prop
  | .eq => ∀ j, i ≤ j → j < i + n → padded as j = padded bs j
  | .lt => ∃ j, i ≤ j ∧ (∀ k, i ≤ k → k < j → padded as k = padded bs k) ∧
      padded as j < padded bs j
  | .gt => ∃ j, i ≤ j ∧ (∀ k, i ≤ k → k < j → padded as k = padded bs k) ∧
      padded bs j < padded as j

/-- The comparison finds the first difference. -/
theorem compareFrom_spec (as bs : List Int) (n i : Nat) :
    FirstDifference as bs i n (compareFrom as bs n i) := by
  induction n generalizing i with
  | zero =>
      intro j hi hj
      omega
  | succ n ih =>
      have hbefore : ∀ k, i ≤ k → k < i → padded as k = padded bs k := fun k h h' => by omega
      rw [compareFrom]
      rcases lt_trichotomy (as.getD i 0) (bs.getD i 0) with hlt | heq | hgt
      · rw [compare_lt_iff_lt.mpr hlt, if_pos (by decide)]
        exact ⟨i, Nat.le_refl i, hbefore, hlt⟩
      · rw [compare_eq_iff_eq.mpr heq, if_neg (by decide)]
        have hstep : ∀ k, i ≤ k → (i + 1 ≤ k → padded as k = padded bs k) →
            padded as k = padded bs k := by
          intro k hk hrest
          by_cases hki : k = i
          · rw [hki]
            exact heq
          · exact hrest (by omega)
        have hrest := ih (i + 1)
        cases hcmp : compareFrom as bs n (i + 1) with
        | eq =>
            rw [hcmp] at hrest
            exact fun j hi hj => hstep j hi fun h => hrest j h (by omega)
        | lt =>
            rw [hcmp] at hrest
            obtain ⟨j, hj, hsame, hless⟩ := hrest
            exact ⟨j, by omega, fun k hk hkj => hstep k hk fun h => hsame k h hkj, hless⟩
        | gt =>
            rw [hcmp] at hrest
            obtain ⟨j, hj, hsame, hless⟩ := hrest
            exact ⟨j, by omega, fun k hk hkj => hstep k hk fun h => hsame k h hkj, hless⟩
      · rw [compare_gt_iff_gt.mpr hgt, if_pos (by decide)]
        exact ⟨i, Nat.le_refl i, hbefore, hgt⟩

/-- Past its end a version goes on with zeros. -/
theorem padded_of_le {ps : List Int} {i : Nat} (h : ps.length ≤ i) : padded ps i = 0 := by
  simp [padded, h]

/-- Versions are ordered by the first part they differ in. -/
theorem toLex_padded_lt_iff {as bs : List Int} :
    toLex (padded as) < toLex (padded bs) ↔
      ∃ j, (∀ k, k < j → padded as k = padded bs k) ∧ padded as j < padded bs j := Iff.rfl

/-- **The walk is the order of the keys.** -/
theorem newer_iff {a b : String} : newer a b = true ↔ versionKey b < versionKey a := by
  have hspec := compareFrom_spec (parts a) (parts b) (max (parts a).length (parts b).length) 0
  have hflags : ∀ p q : Bool, (!q) < (!p) ↔ (!p && q) = true := by decide
  unfold newer versionKey
  rw [Prod.Lex.toLex_lt_toLex]
  dsimp only
  cases hcmp : compareFrom (parts a) (parts b) (max (parts a).length (parts b).length) 0 with
  | gt =>
      rw [hcmp] at hspec
      obtain ⟨j, -, hsame, hless⟩ := hspec
      have hlt : toLex (padded (parts b)) < toLex (padded (parts a)) :=
        toLex_padded_lt_iff.mpr ⟨j, fun k hk => (hsame k (Nat.zero_le k) hk).symm, hless⟩
      simp [hlt]
  | lt =>
      rw [hcmp] at hspec
      obtain ⟨j, -, hsame, hless⟩ := hspec
      have hlt : toLex (padded (parts a)) < toLex (padded (parts b)) :=
        toLex_padded_lt_iff.mpr ⟨j, fun k hk => hsame k (Nat.zero_le k) hk, hless⟩
      have hnot : ¬toLex (padded (parts b)) < toLex (padded (parts a)) := lt_asymm hlt
      have hne : toLex (padded (parts b)) ≠ toLex (padded (parts a)) := ne_of_gt hlt
      simp [hnot, hne]
  | eq =>
      rw [hcmp] at hspec
      have heq : toLex (padded (parts b)) = toLex (padded (parts a)) := by
        refine congrArg toLex (funext fun j => ?_)
        by_cases hj : j < max (parts a).length (parts b).length
        · exact (hspec j (Nat.zero_le j) (by omega)).symm
        · rw [padded_of_le (by omega), padded_of_le (by omega)]
      have hnot : ¬toLex (padded (parts b)) < toLex (padded (parts a)) := by
        rw [heq]
        exact lt_irrefl _
      rw [← hflags]
      exact ⟨fun h => .inr ⟨heq, h⟩, fun h => (h.resolve_left hnot).2⟩

/-- Neither is newer exactly where the keys agree. -/
theorem incomparable_iff {a b : String} :
    newer a b = false ∧ newer b a = false ↔ versionKey a = versionKey b := by
  rw [← Bool.not_eq_true, ← Bool.not_eq_true, newer_iff, newer_iff, not_lt, not_lt]
  exact ⟨fun h => le_antisymm h.1 h.2, fun h => ⟨h.le, h.ge⟩⟩

/-- Versions with one key are alike in every comparison. -/
theorem newer_congr {a a' : String} (h : versionKey a = versionKey a') (c : String) :
    newer a c = newer a' c ∧ newer c a = newer c a' := by
  constructor
  · rw [Bool.eq_iff_iff, newer_iff, newer_iff, h]
  · rw [Bool.eq_iff_iff, newer_iff, newer_iff, h]

/-! ## what the order does not look at -/

/-- `core` with `n` more components `.0`. -/
def withZeros (n : Nat) (core : String) : String :=
  core ++ String.join (List.replicate n ".0")

/-- What may follow the core of a version: nothing, or a prerelease. -/
def IsTail (tail : String) : Prop := tail = "" ∨ ∃ text, tail = "-" ++ text

/-- The core of a version ends at the first hyphen. -/
theorem takeWhile_core {core : List Char} (hcore : '-' ∉ core) {tail : List Char}
    (htail : tail = [] ∨ ∃ text, tail = '-' :: text) :
    (core ++ tail).takeWhile (· != '-') = core := by
  have hkeep : ∀ c ∈ core, (c != '-') = true := fun c hc => by
    simp only [bne_iff_ne, ne_eq]
    rintro rfl
    exact hcore hc
  rw [List.takeWhile_append_of_pos hkeep]
  rcases htail with rfl | ⟨text, rfl⟩
  · simp
  · simp

/-- The components of a version are those of its core. -/
theorem partsOf_core {core : List Char} (hcore : '-' ∉ core) {tail : List Char}
    (htail : tail = [] ∨ ∃ text, tail = '-' :: text) :
    partsOf (core ++ tail) = (core.splitOn '.').map component := by
  rw [partsOf, takeWhile_core hcore htail]

/-- Zero parts more are parts more. -/
theorem splitOn_zeros (core : List Char) (n : Nat) :
    (core ++ (List.replicate n ['.', '0']).flatten).splitOn '.' =
      core.splitOn '.' ++ List.replicate n ['0'] := by
  induction n with
  | zero => simp
  | succ n ih =>
      have hzero : ['0'].splitOn '.' = [['0']] := List.splitOn_eq_singleton (by decide)
      have hassoc : core ++ (List.replicate (n + 1) ['.', '0']).flatten =
          (core ++ (List.replicate n ['.', '0']).flatten) ++ '.' :: ['0'] := by
        rw [List.replicate_succ', List.flatten_append, List.flatten_singleton, List.append_assoc]
      rw [hassoc, List.splitOn_append_cons_self, ih, hzero, List.append_assoc,
        ← List.replicate_succ']

/-- Zero parts more change nothing. -/
theorem padded_append_zeros (ps : List Int) (n : Nat) :
    padded (ps ++ List.replicate n 0) = padded ps := by
  funext i
  unfold padded
  by_cases hi : i < ps.length
  · rw [List.getD_append _ _ _ _ hi]
  · rw [List.getD_append_right _ _ _ _ (by omega), List.getD_eq_default ps 0 (by omega)]
    generalize i - ps.length = k
    by_cases hk : k < (List.replicate n (0 : Int)).length
    · rw [List.getD_eq_getElem _ _ hk, List.getElem_replicate]
    · rw [List.getD_eq_default _ _ (by omega)]

/-- A tail is empty or starts with a hyphen. -/
theorem toList_tail {tail : String} (h : IsTail tail) :
    tail.toList = [] ∨ ∃ text, tail.toList = '-' :: text := by
  rcases h with rfl | ⟨text, rfl⟩
  · exact .inl rfl
  · exact .inr ⟨text.toList, by simp⟩

/-- The characters of a core with zeros. -/
theorem toList_withZeros (n : Nat) (core : String) :
    (withZeros n core).toList = core.toList ++ (List.replicate n ['.', '0']).flatten := by
  simp [withZeros, String.toList_append, String.toList_join, List.flatMap_replicate]

/-- Components `.0` at the end of the core count for nothing. -/
theorem versionKey_withZeros {core tail : String} (hcore : '-' ∉ core.toList)
    (htail : IsTail tail) (n : Nat) :
    versionKey (withZeros n core ++ tail) = versionKey (core ++ tail) := by
  have hlist := toList_tail htail
  have hzeros : '-' ∉ (List.replicate n ['.', '0']).flatten := by simp
  have hmore : '-' ∉ core.toList ++ (List.replicate n ['.', '0']).flatten := by
    rw [List.mem_append, not_or]
    exact ⟨hcore, hzeros⟩
  have hzero : component ['0'] = 0 := by decide
  have hparts : parts (withZeros n core ++ tail) =
      parts (core ++ tail) ++ List.replicate n 0 := by
    rw [parts, parts, String.toList_append, String.toList_append, toList_withZeros,
      partsOf_core hmore hlist, partsOf_core hcore hlist, splitOn_zeros, List.map_append,
      List.map_replicate, hzero]
  have hflag : (withZeros n core ++ tail).toList.contains '-' =
      (core ++ tail).toList.contains '-' := by
    rw [String.toList_append, String.toList_append, toList_withZeros]
    simp [hcore]
  rw [versionKey, versionKey, hparts, padded_append_zeros, hflag]

/-- Nothing behind the first hyphen counts. -/
theorem versionKey_prerelease {core : String} (hcore : '-' ∉ core.toList) (text text' : String) :
    versionKey (core ++ "-" ++ text) = versionKey (core ++ "-" ++ text') := by
  have hlist : ∀ t : String, (core ++ "-" ++ t).toList = core.toList ++ '-' :: t.toList :=
    fun t => by simp [String.toList_append]
  have hflag : ∀ t : String, (core ++ "-" ++ t).toList.contains '-' = true := fun t => by
    rw [hlist]
    simp
  rw [versionKey, versionKey, hflag, hflag, parts, parts, hlist, hlist,
    partsOf_core hcore (.inr ⟨_, rfl⟩), partsOf_core hcore (.inr ⟨_, rfl⟩)]

/-! ## trimming -/

/-- One list of components is nowhere above the other. -/
def PartsLe (cs ds : List Char) : Prop := ∀ i, padded (partsOf cs) i ≤ padded (partsOf ds) i

/-- One character that is no digit is enough for none. -/
theorem parseDigits_none {negative : Bool} {ds : List Char} {c : Char} (hc : c ∈ ds)
    (hdigit : c.isDigit = false) : parseDigits negative ds = none := by
  unfold parseDigits
  rw [if_neg]
  rintro ⟨-, hall⟩
  rw [List.all_eq_true] at hall
  rw [hall c hc] at hdigit
  cases hdigit

/-- Space is no digit. -/
theorem not_digit_of_whitespace {c : Char} (h : isWhitespace c = true) : c.isDigit = false := by
  cases hd : c.isDigit with
  | false => rfl
  | true =>
      exfalso
      simp only [isWhitespace, Char.isDigit, Char.toNat, Bool.or_eq_true, Bool.and_eq_true,
        decide_eq_true_eq, beq_iff_eq, UInt32.le_iff_toNat_le] at h hd
      have hlow : '0'.val.toNat = 48 := rfl
      have hhigh : '9'.val.toNat = 57 := rfl
      omega

/-- Text with white space in it is no number. -/
theorem component_whitespace {cs : List Char} {c : Char} (hc : c ∈ cs)
    (hspace : isWhitespace c = true) : component cs = 0 := by
  have hdigit := not_digit_of_whitespace hspace
  have hsign : ∀ sign : Char, isWhitespace sign = false → c ≠ sign := by
    rintro sign hs rfl
    rw [hs] at hspace
    cases hspace
  have hrest : ∀ {sign : Char} {ds : List Char}, isWhitespace sign = false →
      c ∈ sign :: ds → c ∈ ds := fun hs hmem =>
    (List.mem_cons.mp hmem).resolve_left (hsign _ hs)
  have hnone : parseI128 cs = none := by
    unfold parseI128
    split
    · exact parseDigits_none (hrest (by decide) hc) hdigit
    · exact parseDigits_none (hrest (by decide) hc) hdigit
    · exact parseDigits_none hc hdigit
  rw [component, hnone]
  rfl

/-- Without a sign the number is not negative. -/
theorem parseDigits_nonneg {ds : List Char} {n : Int} (h : parseDigits false ds = some n) :
    0 ≤ n := by
  simp only [parseDigits, Bool.false_eq_true, if_false] at h
  split at h
  · split at h
    · rw [← Option.some.inj h]
      exact Int.natCast_nonneg _
    · cases h
  · cases h

/-- No component is negative: the hyphen ends the core. -/
theorem component_nonneg {cs : List Char} (h : '-' ∉ cs) : 0 ≤ component cs := by
  unfold component
  cases hp : parseI128 cs with
  | none => exact Int.le_refl 0
  | some n =>
      unfold parseI128 at hp
      split at hp
      · exact parseDigits_nonneg hp
      · simp at h
      · exact parseDigits_nonneg hp

/-- What is not in a text is in none of its parts. -/
theorem not_mem_of_mem_splitOn {a sep : Char} {cs : List Char} (h : a ∉ cs) :
    ∀ part ∈ cs.splitOn sep, a ∉ part := by
  induction cs with
  | nil => simp
  | cons c cs ih =>
      rw [List.mem_cons, not_or] at h
      rw [List.splitOn_cons_eq_if_modifyHead]
      split
      · simpa using ih h.2
      · cases hsplit : cs.splitOn sep with
        | nil => exact absurd hsplit (List.splitOn_ne_nil sep cs)
        | cons part rest =>
            have ih := ih h.2
            rw [hsplit, List.forall_mem_cons] at ih
            rw [List.modifyHead_cons, List.forall_mem_cons]
            exact ⟨by simp [h.1, ih.1], ih.2⟩

/-- Space is no hyphen. -/
theorem not_hyphen_of_whitespace {c : Char} (h : isWhitespace c = true) : c ≠ '-' := by
  rintro rfl
  exact absurd h (by decide)

/-- Space is no dot. -/
theorem not_dot_of_whitespace {c : Char} (h : isWhitespace c = true) : c ≠ '.' := by
  rintro rfl
  exact absurd h (by decide)

/-- A core has no hyphen. -/
theorem hyphen_not_mem_takeWhile (cs : List Char) : '-' ∉ cs.takeWhile (· != '-') := by
  intro h
  have hall : (cs.takeWhile (· != '-')).all (· != '-') = true := List.all_takeWhile
  simpa using List.all_eq_true.mp hall '-' h

/-- A larger first part. -/
theorem padded_cons_le {x y : Int} {xs : List Int} (h : x ≤ y) (i : Nat) :
    padded (x :: xs) i ≤ padded (y :: xs) i := by
  cases i with
  | zero => exact h
  | succ i => exact Int.le_refl _

/-- A larger last part. -/
theorem padded_concat_le {x y : Int} {xs : List Int} (h : x ≤ y) (i : Nat) :
    padded (xs ++ [x]) i ≤ padded (xs ++ [y]) i := by
  induction xs generalizing i with
  | nil => exact padded_cons_le h i
  | cons z xs ih =>
      cases i with
      | zero => exact Int.le_refl _
      | succ i => exact ih i

/-- White space in front hides the first number. -/
theorem partsLe_cons {c : Char} (hspace : isWhitespace c = true) (cs : List Char) :
    PartsLe (c :: cs) cs := by
  have hcore : (c :: cs).takeWhile (· != '-') = c :: cs.takeWhile (· != '-') := by
    rw [List.takeWhile_cons, if_pos (by simpa using not_hyphen_of_whitespace hspace)]
  have hdot : ¬(c == '.') = true := by simpa using not_dot_of_whitespace hspace
  intro i
  rw [partsOf, partsOf, hcore, List.splitOn_cons_eq_if_modifyHead, if_neg hdot]
  cases hsplit : (cs.takeWhile (· != '-')).splitOn '.' with
  | nil => exact absurd hsplit (List.splitOn_ne_nil _ _)
  | cons part rest =>
      have hpart : '-' ∉ part := not_mem_of_mem_splitOn (hyphen_not_mem_takeWhile cs) part
        (by rw [hsplit]; exact List.mem_cons_self)
      rw [List.modifyHead_cons, List.map_cons, List.map_cons,
        component_whitespace List.mem_cons_self hspace]
      exact padded_cons_le (component_nonneg hpart) i

/-- White space at the end hides the last number, unless it belongs to a prerelease. -/
theorem partsLe_concat {c : Char} (hspace : isWhitespace c = true) (cs : List Char) :
    PartsLe (cs ++ [c]) cs := by
  intro i
  by_cases hpre : '-' ∈ cs
  · have hcore : (cs ++ [c]).takeWhile (· != '-') = cs.takeWhile (· != '-') := by
      rw [List.takeWhile_append, if_neg]
      intro hlength
      have hall : cs.takeWhile (· != '-') = cs :=
        (List.takeWhile_prefix _).eq_of_length hlength
      exact hyphen_not_mem_takeWhile cs (by rw [hall]; exact hpre)
    rw [partsOf, partsOf, hcore]
  · have hwhole : cs.takeWhile (· != '-') = cs := by
      simpa using takeWhile_core hpre (.inl rfl)
    have hmore : (cs ++ [c]).takeWhile (· != '-') = cs ++ [c] := by
      have hmem : '-' ∉ cs ++ [c] := by
        rw [List.mem_append, List.mem_singleton, not_or]
        exact ⟨hpre, (not_hyphen_of_whitespace hspace).symm⟩
      simpa using takeWhile_core hmem (.inl rfl)
    have hsplit : cs.splitOn '.' = Crash.complete '.' cs ++ [Crash.unfinished '.' cs] :=
      Crash.complete_concat_unfinished.symm
    have hlast : '-' ∉ Crash.unfinished '.' cs := not_mem_of_mem_splitOn hpre _
      (by rw [hsplit]; simp)
    rw [partsOf, partsOf, hwhole, hmore,
      Crash.splitOn_concat_ne (not_dot_of_whitespace hspace) hsplit, hsplit, List.map_append,
      List.map_append, List.map_singleton, List.map_singleton,
      component_whitespace (by simp) hspace]
    exact padded_concat_le (component_nonneg hlast) i

/-- Space before a text makes its parts no larger. -/
theorem partsLe_dropWhile (cs : List Char) : PartsLe cs (cs.dropWhile isWhitespace) := by
  induction cs with
  | nil => exact fun _ => Int.le_refl _
  | cons c cs ih =>
      rw [List.dropWhile_cons]
      split
      · next hspace => exact fun i => Int.le_trans (partsLe_cons hspace cs i) (ih i)
      · exact fun _ => Int.le_refl _

/-- Nor does space after it. -/
theorem partsLe_dropWhile_reverse (cs : List Char) :
    PartsLe cs (cs.reverse.dropWhile isWhitespace).reverse := by
  induction cs using List.reverseRecOn with
  | nil => exact fun _ => Int.le_refl _
  | append_singleton cs c ih =>
      rw [List.reverse_concat, List.dropWhile_cons]
      split
      · next hspace => exact fun i => Int.le_trans (partsLe_concat hspace cs i) (ih i)
      · rw [List.reverse_cons, List.reverse_reverse]
        exact fun _ => Int.le_refl _

/-- Only space is trimmed. -/
theorem mem_dropWhile_iff {c : Char} (hc : isWhitespace c = false) (cs : List Char) :
    c ∈ cs.dropWhile isWhitespace ↔ c ∈ cs := by
  induction cs with
  | nil => rfl
  | cons d cs ih =>
      rw [List.dropWhile_cons]
      split
      · next hspace =>
          have hne : c ≠ d := by
            rintro rfl
            rw [hc] at hspace
            cases hspace
          rw [ih, List.mem_cons, or_iff_right hne]
      · rfl

/-- **Trimming never lowers a version.** -/
theorem versionKey_le_trim (v : String) : versionKey v ≤ versionKey (trim v) := by
  have hparts : PartsLe v.toList (trimChars v.toList) := fun i =>
    Int.le_trans (partsLe_dropWhile v.toList i) (partsLe_dropWhile_reverse _ i)
  have hflag : (trimChars v.toList).contains '-' = v.toList.contains '-' := by
    have hspace : isWhitespace '-' = false := by decide
    rw [Bool.eq_iff_iff, List.contains_iff_mem, List.contains_iff_mem, trimChars,
      List.mem_reverse, mem_dropWhile_iff hspace, List.mem_reverse, mem_dropWhile_iff hspace]
  have hle : toLex (padded (parts v)) ≤ toLex (padded (parts (trim v))) := by
    refine Pi.toLex_monotone fun i => ?_
    rw [parts, parts, trim, String.toList_ofList]
    exact hparts i
  rw [versionKey, versionKey, Prod.Lex.toLex_le_toLex']
  refine ⟨hle, fun _ => ?_⟩
  dsimp only
  rw [trim, String.toList_ofList, hflag]

/-! ## chains of checks -/

namespace StaticManifestSource

variable {base platform : String} {fromSlot : Bool}

/-- What a check offers is newer than what is installed. -/
theorem check_some {manifest : Except Error Manifest} {current platform : String}
    {release : Release} (h : check base manifest ⟨current, platform⟩ = .ok (some release)) :
    versionKey current < versionKey release.version := by
  cases manifest with
  | error e => cases h
  | ok m =>
      rw [check] at h
      cases hnewer : newer m.version current with
      | false => simp [hnewer] at h
      | true =>
          simp only [hnewer, Bool.not_true, Bool.false_eq_true, if_false] at h
          cases hrelease : m.release base platform with
          | error e => simp [hrelease] at h
          | ok r =>
              simp only [hrelease, Except.ok.injEq, Option.some.injEq] at h
              subst h
              have hversion : r.version = m.version := by
                rw [Manifest.release] at hrelease
                split at hrelease
                · cases hrelease
                · cases hrelease
                  rfl
              rw [hversion]
              exact newer_iff.mp hnewer

/-- However an installed version is shown, it is not shown below itself. -/
theorem versionKey_le_shown (fromSlot : Bool) (v : String) :
    versionKey v ≤ versionKey (shown fromSlot v) := by
  unfold shown
  split
  · exact versionKey_le_trim v
  · exact le_refl _

/-- **A chain of checks climbs**: every offer is above what was installed before it. -/
theorem chain_climbs (manifests : List (Except Error Manifest)) (current : String) :
    (∀ release ∈ chain base platform fromSlot manifests current,
      versionKey current < versionKey release.version) ∧
    (chain base platform fromSlot manifests current).Pairwise fun earlier later =>
      versionKey (shown fromSlot earlier.version) < versionKey later.version := by
  induction manifests generalizing current with
  | nil => exact ⟨by simp [chain], .nil⟩
  | cons m ms ih =>
      rw [chain]
      split
      · next release hcheck =>
          have hnew : versionKey current < versionKey release.version := check_some hcheck
          have hrest := ih (shown fromSlot release.version)
          refine ⟨fun later hlater => ?_, List.pairwise_cons.mpr hrest⟩
          rcases List.mem_cons.mp hlater with rfl | hlater
          · exact hnew
          · have hshown := versionKey_le_shown fromSlot release.version
            exact lt_trans (lt_of_lt_of_le hnew hshown) (hrest.1 later hlater)
      · exact ih current

end StaticManifestSource

/-! ## the laws -/

/-- A version that is smaller is not newer. -/
theorem not_newer_of_lt {a b : String} (h : versionKey a < versionKey b) : newer a b = false := by
  rw [← Bool.not_eq_true, newer_iff]
  exact lt_asymm h

/-- Newer than newer is newer. -/
theorem newer_trans {a b c : String} (hab : newer a b = true) (hbc : newer b c = true) :
    newer a c = true := by
  rw [newer_iff] at hab hbc ⊢
  exact lt_trans hbc hab

/-- **Neither newer** is an equivalence of versions. -/
theorem incomparable_equivalence :
    Equivalence fun a b => newer a b = false ∧ newer b a = false := by
  simp only [incomparable_iff]
  exact ⟨fun _ => rfl, Eq.symm, Eq.trans⟩

open StaticManifestSource in
/-- **A chain of checks** installs each version once, and never an older one. -/
theorem chain_fresh (base platform : String) (fromSlot : Bool)
    (manifests : List (Except Error Manifest)) (current : String) :
    ((chain base platform fromSlot manifests current).map (·.version)).Nodup ∧
    (∀ release ∈ chain base platform fromSlot manifests current,
      newer current release.version = false) ∧
    (chain base platform fromSlot manifests current).Pairwise fun installed later =>
      newer installed.version later.version = false ∧
      newer (shown fromSlot installed.version) later.version = false := by
  have hclimbs := @chain_climbs base platform fromSlot manifests current
  generalize chain base platform fromSlot manifests current = offered at hclimbs ⊢
  obtain ⟨hnew, hclimbs⟩ := hclimbs
  have habove : ∀ installed later : Release,
      versionKey (shown fromSlot installed.version) < versionKey later.version →
      versionKey installed.version < versionKey later.version := fun installed _ h =>
    lt_of_le_of_lt (versionKey_le_shown fromSlot installed.version) h
  have hdistinct : ∀ installed later : Release,
      versionKey (shown fromSlot installed.version) < versionKey later.version →
      installed.version ≠ later.version := by
    intro installed later h heq
    have hlt := habove installed later h
    rw [heq] at hlt
    exact lt_irrefl _ hlt
  have hbelow : ∀ installed later : Release,
      versionKey (shown fromSlot installed.version) < versionKey later.version →
      newer installed.version later.version = false ∧
        newer (shown fromSlot installed.version) later.version = false := fun installed later h =>
    ⟨not_newer_of_lt (habove installed later h), not_newer_of_lt h⟩
  refine ⟨List.pairwise_map.mpr (hclimbs.imp fun {a b} => hdistinct a b), fun release h => ?_,
    hclimbs.imp fun {a b} => hbelow a b⟩
  exact not_newer_of_lt (hnew release h)

open StaticManifestSource in
/-- **Version order.**  `newer` is a strict weak order, and looks neither at components `.0`
at the end of the core nor at the text behind the first hyphen.  A chain of checks, each offer
installed before the next one, offers no version again and none below an installed one,
whether the context shows the version as it was offered or as the stable slot reports it. -/
theorem version_order :
    (∀ a, newer a a = false) ∧
    (∀ a b, newer a b = true → newer b a = false) ∧
    (∀ a b c, newer a b = true → newer b c = true → newer a c = true) ∧
    Equivalence (fun a b => newer a b = false ∧ newer b a = false) ∧
    (∀ core tail n c, '-' ∉ core.toList → IsTail tail →
      newer (withZeros n core ++ tail) c = newer (core ++ tail) c ∧
      newer c (withZeros n core ++ tail) = newer c (core ++ tail)) ∧
    (∀ core text text' c, '-' ∉ core.toList →
      newer (core ++ "-" ++ text) c = newer (core ++ "-" ++ text') c ∧
      newer c (core ++ "-" ++ text) = newer c (core ++ "-" ++ text')) ∧
    ∀ base platform fromSlot manifests current,
      let offered := chain base platform fromSlot manifests current
      (offered.map (·.version)).Nodup ∧
      (∀ release ∈ offered, newer current release.version = false) ∧
      offered.Pairwise fun installed later =>
        newer installed.version later.version = false ∧
        newer (shown fromSlot installed.version) later.version = false := by
  refine ⟨fun a => ?_, fun a b h => not_newer_of_lt (newer_iff.mp h), fun a b c => newer_trans,
    incomparable_equivalence, fun core tail n c hcore htail => ?_,
    fun core text text' c hcore => ?_, fun base platform fromSlot manifests current => ?_⟩
  · rw [← Bool.not_eq_true, newer_iff]
    exact lt_irrefl _
  · exact newer_congr (versionKey_withZeros hcore htail n) c
  · exact newer_congr (versionKey_prerelease hcore text text') c
  · exact chain_fresh base platform fromSlot manifests current

example : newer "2.0.0" "2.0.0-rc.1" = true ∧ newer "2.0.0-rc.1" "2" = false := by
  decide +kernel

end KCarrier
