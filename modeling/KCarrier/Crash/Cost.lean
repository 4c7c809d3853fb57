import KCarrier.Crash.Triple

/-!
# KCarrier.Crash.Cost

What a run of a program adds to a measure of the state.

`Spends μ n m` says that a run of `m` raises `μ` by at most `n`, however it ends: an error
or the death of the worker may cut the run short, but nothing of it is taken back.  Costs
add up along a sequence (`Spends.bind`), and a branch costs what the dearer of its two sides
does (`Spends.ite`).
-/

namespace Crash

variable {ε σ τ α β : Type}

/-- However a run of the program ends, it raises `μ` by at most `n`. -/
def Spends (μ : σ → Nat) (n : Nat) (m : Prog ε σ α) : Prop := ∀ s, μ (m s).2 ≤ μ s + n

namespace Spends

variable {μ : σ → Nat} {n k : Nat} {m : Prog ε σ α}

theorem mono (h : Spends μ n m) (hle : n ≤ k) : Spends μ k m := by
  intro s
  have := h s
  omega

/-- A program that leaves the state alone costs nothing. -/
theorem of_same (h : ∀ s, (m s).2 = s) : Spends μ n m := by
  intro s
  rw [h s]
  omega

theorem pure (a : α) : Spends μ n (Pure.pure a : Prog ε σ α) := of_same fun _ => rfl

theorem throw (e : ε) : Spends μ n (Prog.throw e : Prog ε σ α) := of_same fun _ => rfl

theorem get : Spends μ n (Prog.get : Prog ε σ σ) := of_same fun _ => rfl

theorem ofExcept (x : Except ε α) : Spends μ n (Prog.ofExcept x : Prog ε σ α) :=
  of_same fun s => by cases x <;> rfl

theorem raise (fault : Option (Fault ε)) : Spends μ n (Prog.raise fault : Prog ε σ Unit) :=
  of_same fun s => by
    cases fault with
    | none => rfl
    | some fault => cases fault <;> rfl

theorem modify {f : σ → σ} (h : ∀ s, μ (f s) ≤ μ s + n) :
    Spends μ n (Prog.modify f : Prog ε σ Unit) := h

/-- The costs of a sequence add up; a run cut off in its first half has paid no more. -/
theorem bind {f : α → Prog ε σ β} (hm : Spends μ n m) (hf : ∀ a, Spends μ k (f a)) :
    Spends μ (n + k) (m >>= f) := by
  intro s
  have hfirst := hm s
  rw [Prog.bind_run]
  generalize m s = r at hfirst ⊢
  obtain ⟨r, s'⟩ := r
  cases r with
  | ok a =>
      have hsecond := hf a s'
      simp only at hfirst ⊢
      omega
  | err e =>
      simp only at hfirst ⊢
      omega
  | crash =>
      simp only at hfirst ⊢
      omega

theorem attempt (h : Spends μ n m) : Spends μ n (Prog.attempt m) := by
  intro s
  have hrun := h s
  unfold Prog.attempt
  generalize m s = r at hrun ⊢
  obtain ⟨r, s'⟩ := r
  cases r <;> exact hrun

theorem ite {p : Prop} [Decidable p] {m' : Prog ε σ α} (hm : Spends μ n m)
    (hm' : Spends μ k m') : Spends μ (max n k) (if p then m else m') := by
  by_cases hp : p
  · rw [if_pos hp]
    exact hm.mono (Nat.le_max_left n k)
  · rw [if_neg hp]
    exact hm'.mono (Nat.le_max_right n k)

/-- A program run on a component costs there what it costs by itself. -/
theorem zoom {get : τ → σ} {set : σ → τ → τ} {ν : τ → Nat} (h : Spends μ n m)
    (hget : ∀ t, ν t = μ (get t)) (hset : ∀ s t, ν (set s t) = μ s) :
    Spends ν n (Prog.zoom get set m) := by
  intro t
  have hrun := h (get t)
  unfold Prog.zoom
  rw [hset, hget]
  exact hrun

/-- A cost is a bound on what a run leaves. -/
theorem triple (h : Spends μ n m) (k : Nat) :
    Triple (fun s => μ s ≤ k) m (fun _ s => μ s ≤ k + n) (fun _ s => μ s ≤ k + n) := by
  intro s hs
  have hrun := h s
  generalize m s = r at hrun ⊢
  obtain ⟨r, s'⟩ := r
  have hle : μ s' ≤ k + n := by
    simp only at hrun
    omega
  cases r <;> exact hle

end Spends

end Crash
