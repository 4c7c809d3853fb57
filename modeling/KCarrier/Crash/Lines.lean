import Mathlib.Data.List.Induction

/-!
# KCarrier.Crash.Lines

Files of lines, each ended by a separator, the last one possibly unfinished.

A list over any type with a separator `sep` is its complete lines (`complete`), each
followed by `sep`, and an unfinished line without one (`unfinished`).  Both are given
by `List.splitOn`, and both are known from what one more element does to them
(`complete_concat`, `unfinished_concat`), which is all a proof about a scan from the
left or from the right needs.

* `complete_append` — what follows the last separator completes no line;
* `take_completeEnd` — cutting after the last separator keeps the complete lines and
  nothing else.
-/

namespace Crash

variable {α : Type}

/-! ## complete lines -/

section

variable [DecidableEq α] {sep b : α} {bs xs : List α}

/-- The lines that are followed by `sep`. -/
def complete (sep : α) (bs : List α) : List (List α) := (bs.splitOn sep).dropLast

/-- What follows the last `sep`. -/
def unfinished (sep : α) (bs : List α) : List α := (bs.splitOn sep).getLast (List.splitOn_ne_nil sep bs)

@[simp] theorem complete_nil : complete sep [] = [] := by
  simp [complete]

@[simp] theorem unfinished_nil : unfinished sep [] = [] := by
  simp [unfinished]

/-- The lines of a list and its unfinished line are what it splits into. -/
theorem complete_concat_unfinished : complete sep bs ++ [unfinished sep bs] = bs.splitOn sep :=
  List.dropLast_concat_getLast (List.splitOn_ne_nil sep bs)

/-! ## one more element -/

/-- The separator finishes the unfinished line. -/
theorem splitOn_concat_sep : (bs ++ [sep]).splitOn sep = bs.splitOn sep ++ [[]] := by
  rw [List.splitOn_append_cons_self, List.splitOn_nil]

/-- Anything else goes to the end of the last line. -/
theorem splitOn_concat_ne (h : b ≠ sep) {ls : List (List α)} {l : List α}
    (hsplit : bs.splitOn sep = ls ++ [l]) : (bs ++ [b]).splitOn sep = ls ++ [l ++ [b]] := by
  induction bs generalizing ls l with
  | nil =>
      have hlast : [] ++ [[]] = ls ++ [l] := hsplit
      obtain ⟨rfl, hl⟩ := List.append_inj' hlast rfl
      cases hl
      rw [List.nil_append, List.splitOn_eq_singleton (by simpa using h.symm)]
      rfl
  | cons a bs ih =>
      have hrest : (bs ++ [b]).splitOn sep = complete sep bs ++ [unfinished sep bs ++ [b]] :=
        ih complete_concat_unfinished.symm
      rw [List.cons_append, List.splitOn_cons_eq_if_modifyHead, hrest]
      rw [List.splitOn_cons_eq_if_modifyHead, ← complete_concat_unfinished] at hsplit
      by_cases ha : a = sep
      · simp only [ha, beq_self_eq_true, if_true, ← List.cons_append] at hsplit ⊢
        obtain ⟨rfl, hl⟩ := List.append_inj' hsplit rfl
        cases hl
        rfl
      · have hb : ¬(a == sep) = true := by simpa using ha
        rw [if_neg hb] at hsplit ⊢
        cases hc : complete sep bs with
        | nil =>
            rw [hc] at hsplit
            have hlast : [] ++ [a :: unfinished sep bs] = ls ++ [l] := hsplit
            obtain ⟨rfl, hl⟩ := List.append_inj' hlast rfl
            cases hl
            rfl
        | cons k ks =>
            rw [hc] at hsplit
            have hlast : ((a :: k) :: ks) ++ [unfinished sep bs] = ls ++ [l] := hsplit
            obtain ⟨rfl, hl⟩ := List.append_inj' hlast rfl
            cases hl
            rfl

theorem complete_concat :
    complete sep (bs ++ [b]) =
      if b = sep then complete sep bs ++ [unfinished sep bs] else complete sep bs := by
  by_cases h : b = sep
  · subst h
    rw [if_pos rfl, complete_concat_unfinished, complete, splitOn_concat_sep]
    simp
  · rw [if_neg h, complete, splitOn_concat_ne h complete_concat_unfinished.symm]
    simp

theorem unfinished_concat :
    unfinished sep (bs ++ [b]) = if b = sep then [] else unfinished sep bs ++ [b] := by
  by_cases h : b = sep
  · subst h
    simp [unfinished, splitOn_concat_sep]
  · simp [unfinished, splitOn_concat_ne h complete_concat_unfinished.symm, h]

/-! ## appending -/

/-- Elements without a separator complete no line. -/
theorem complete_append (h : sep ∉ xs) : complete sep (bs ++ xs) = complete sep bs := by
  induction xs using List.reverseRecOn with
  | nil => rw [List.append_nil]
  | append_singleton xs x ih =>
      simp only [List.mem_append, List.mem_singleton, not_or] at h
      rw [← List.append_assoc, complete_concat, if_neg (Ne.symm h.2), ih h.1]

theorem unfinished_append (h : sep ∉ xs) : unfinished sep (bs ++ xs) = unfinished sep bs ++ xs := by
  induction xs using List.reverseRecOn with
  | nil => simp
  | append_singleton xs x ih =>
      simp only [List.mem_append, List.mem_singleton, not_or] at h
      rw [← List.append_assoc, unfinished_concat, if_neg (Ne.symm h.2), ih h.1, List.append_assoc]

/-- Later elements leave the complete lines as they are. -/
theorem complete_prefix : complete sep bs <+: complete sep (bs ++ xs) := by
  induction xs using List.reverseRecOn with
  | nil =>
      simp only [List.append_nil, List.prefix_rfl]
  | append_singleton xs x ih =>
      rw [← List.append_assoc, complete_concat]
      by_cases h : x = sep
      · rw [if_pos h]
        exact ih.trans (List.prefix_append _ _)
      · rw [if_neg h]
        exact ih

/-- A whole line and its separator. -/
theorem complete_append_line (h : sep ∉ xs) :
    complete sep (bs ++ xs ++ [sep]) = complete sep bs ++ [unfinished sep bs ++ xs] := by
  rw [complete_concat, if_pos rfl, complete_append h, unfinished_append h]

theorem unfinished_append_line : unfinished sep (bs ++ xs ++ [sep]) = [] := by
  rw [unfinished_concat, if_pos rfl]

end

/-! ## the end of the complete lines -/

/-- The index of the last element `p` holds of. -/
def rposition (p : α → Bool) (bs : List α) : Option Nat :=
  (bs.reverse.findIdx? p).map (bs.length - 1 - ·)

theorem rposition_concat (p : α → Bool) {b : α} {bs : List α} :
    rposition p (bs ++ [b]) = if p b then some bs.length else rposition p bs := by
  unfold rposition
  rw [List.reverse_concat, List.findIdx?_cons]
  by_cases h : p b
  · simp [h]
  · cases hi : bs.reverse.findIdx? p with
    | none => simp [h]
    | some i =>
        have hlt : i < bs.reverse.length := (List.findIdx?_eq_some_iff_findIdx_eq.mp hi).1
        rw [List.length_reverse] at hlt
        simp [h]
        omega

theorem rposition_some {p : α → Bool} {bs : List α} {i : Nat} (h : rposition p bs = some i) :
    ∃ before b after, bs = before ++ b :: after ∧ p b = true ∧ before.length = i := by
  induction bs using List.reverseRecOn with
  | nil => simp [rposition] at h
  | append_singleton bs b ih =>
      rw [rposition_concat] at h
      split at h
      · next hb =>
          cases h
          exact ⟨bs, b, [], rfl, hb, rfl⟩
      · obtain ⟨before, b', after, rfl, hb', hi⟩ := ih h
        exact ⟨before, b', after ++ [b], by simp, hb', hi⟩

/-- The last one is where one of them stands, or later. -/
theorem rposition_append_cons {p : α → Bool} {before after : List α} {b : α} (hb : p b = true) :
    ∃ i, rposition p (before ++ b :: after) = some i ∧ before.length ≤ i := by
  induction after using List.reverseRecOn with
  | nil => exact ⟨before.length, by rw [rposition_concat, if_pos hb], Nat.le_refl _⟩
  | append_singleton after c ih =>
      obtain ⟨i, hi, hle⟩ := ih
      have hsplit : before ++ b :: (after ++ [c]) = before ++ b :: after ++ [c] := by simp
      rw [hsplit, rposition_concat]
      split
      · exact ⟨_, rfl, by simp⟩
      · exact ⟨i, hi, hle⟩

variable [DecidableEq α] {sep b : α} {bs : List α}

/-- Where the last complete line ends. -/
def completeEnd (sep : α) (bs : List α) : Nat :=
  match rposition (· = sep) bs with
  | none => 0
  | some i => i + 1

theorem completeEnd_concat :
    completeEnd sep (bs ++ [b]) = if b = sep then bs.length + 1 else completeEnd sep bs := by
  unfold completeEnd
  rw [rposition_concat]
  by_cases h : b = sep <;> simp [h]

/-- Behind the complete lines stands the unfinished one. -/
theorem completeEnd_add : completeEnd sep bs + (unfinished sep bs).length = bs.length := by
  induction bs using List.reverseRecOn with
  | nil => simp [completeEnd, rposition]
  | append_singleton bs b ih =>
      rw [completeEnd_concat, unfinished_concat]
      by_cases h : b = sep
      · simp [h]
      · simp [h]
        omega

theorem completeEnd_le : completeEnd sep bs ≤ bs.length := by
  have hadd : completeEnd sep bs + (unfinished sep bs).length = bs.length := completeEnd_add
  omega

theorem take_completeEnd :
    complete sep (bs.take (completeEnd sep bs)) = complete sep bs ∧
      unfinished sep (bs.take (completeEnd sep bs)) = [] := by
  induction bs using List.reverseRecOn with
  | nil => simp
  | append_singleton bs b ih =>
      rw [completeEnd_concat]
      by_cases h : b = sep
      · subst h
        rw [if_pos rfl, List.take_of_length_le (by simp), unfinished_concat, if_pos rfl]
        exact ⟨rfl, rfl⟩
      · rw [if_neg h, List.take_append_of_le_length completeEnd_le, complete_concat, if_neg h]
        exact ih

/-- The unfinished line begins where the complete ones end. -/
theorem drop_completeEnd : bs.drop (completeEnd sep bs) = unfinished sep bs := by
  induction bs using List.reverseRecOn with
  | nil => simp
  | append_singleton bs b ih =>
      rw [completeEnd_concat, unfinished_concat]
      by_cases h : b = sep
      · rw [if_pos h, if_pos h]
        simp
      · rw [if_neg h, if_neg h, List.drop_append_of_le_length completeEnd_le, ih]

end Crash
