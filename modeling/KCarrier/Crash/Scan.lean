import KCarrier.Crash.Lines

/-!
# KCarrier.Crash.Scan

Reading a file of lines in one pass over its elements.

The loop keeps the index where the line it is in begins; at each separator the slice since
then goes through `step`.  `scanLines_eq` says that this is a fold over the complete lines,
so that whatever follows the last separator is not looked at.
-/

namespace Crash

variable {α β ε : Type} {step : β → List α → Except ε β}

/-! ## folding lines -/

/-- What the lines come to, one after the other. -/
def foldLines (step : β → List α → Except ε β) : List (List α) → β → Except ε β
  | [], acc => .ok acc
  | line :: rest, acc =>
      match step acc line with
      | .error e => .error e
      | .ok acc => foldLines step rest acc

theorem foldLines_append (lines more : List (List α)) (acc : β) :
    foldLines step (lines ++ more) acc =
      match foldLines step lines acc with
      | .error e => .error e
      | .ok acc => foldLines step more acc := by
  induction lines generalizing acc with
  | nil => rfl
  | cons line lines ih =>
      rw [List.cons_append, foldLines, foldLines]
      cases step acc line with
      | error e => rfl
      | ok acc => exact ih acc

/-! ## the loop -/

section

variable [DecidableEq α] {sep : α} {bs : List α}

/-- The loop over the elements from index `i` on. -/
def scan (sep : α) (step : β → List α → Except ε β) (bs : List α) :
    List α → Nat → Nat → β → Except ε β
  | [], _, _, acc => .ok acc
  | b :: rest, i, start, acc =>
      if b ≠ sep then
        scan sep step bs rest (i + 1) start acc
      else
        match step acc ((bs.take i).drop start) with
        | .error e => .error e
        | .ok acc => scan sep step bs rest (i + 1) (i + 1) acc

def scanLines (sep : α) (step : β → List α → Except ε β) (bs : List α) (acc : β) : Except ε β :=
  scan sep step bs bs 0 0 acc

/-- The loop from `pre` on: it has folded the lines of `pre`. -/
theorem scan_eq (rest pre : List α) (init acc : β) (hbs : bs = pre ++ rest)
    (hread : foldLines step (complete sep pre) init = .ok acc) :
    scan sep step bs rest pre.length (completeEnd sep pre) acc =
      foldLines step (complete sep bs) init := by
  induction rest generalizing pre acc with
  | nil => rw [hbs, List.append_nil, hread, scan]
  | cons b rest ih =>
      have hnext : bs = (pre ++ [b]) ++ rest := by simp [hbs]
      have hlength : pre.length + 1 = (pre ++ [b]).length := by simp
      rw [scan]
      by_cases hb : b = sep
      · subst hb
        have hslice : (bs.take pre.length).drop (completeEnd b pre) = unfinished b pre := by
          rw [hbs, List.take_left, drop_completeEnd]
        have hlines : complete b (pre ++ [b]) = complete b pre ++ [unfinished b pre] := by
          rw [complete_concat, if_pos rfl]
        -- the lines as far as the one that ends here, and all of them
        obtain ⟨more, hmore⟩ : complete b (pre ++ [b]) <+: complete b bs := by
          rw [hnext]
          exact complete_prefix
        rw [if_neg (by simp), hslice]
        have hfold : foldLines step (complete b (pre ++ [b])) init =
            match step acc (unfinished b pre) with
            | .error e => .error e
            | .ok acc => .ok acc := by
          rw [hlines, foldLines_append, hread]
          rfl
        cases hstep : step acc (unfinished b pre) with
        | error e =>
            rw [← hmore, foldLines_append, hfold, hstep]
        | ok acc' =>
            rw [hstep] at hfold
            have hend : completeEnd b (pre ++ [b]) = pre.length + 1 := by
              rw [completeEnd_concat, if_pos rfl]
            have hrest := ih (pre ++ [b]) acc' hnext hfold
            rw [hend, ← hlength] at hrest
            exact hrest
      · have hend : completeEnd sep (pre ++ [b]) = completeEnd sep pre := by
          rw [completeEnd_concat, if_neg hb]
        have hrest := ih (pre ++ [b]) acc hnext (by rw [complete_concat, if_neg hb, hread])
        rw [hend, ← hlength] at hrest
        rw [if_pos hb]
        exact hrest

/-- **One pass reads the complete lines.** -/
theorem scanLines_eq (bs : List α) (acc : β) :
    scanLines sep step bs acc = foldLines step (complete sep bs) acc := by
  have hstart : completeEnd sep ([] : List α) = 0 := by
    simp [completeEnd, rposition]
  have hscan : scan sep step bs bs 0 (completeEnd sep []) acc =
      foldLines step (complete sep bs) acc :=
    scan_eq bs [] acc acc rfl (by
      rw [complete_nil]
      rfl)
  rw [hstart] at hscan
  exact hscan

end

end Crash
