import KCarrier.Crash.Prog

/-!
# KCarrier.Crash.Shows

Programs that carry more state than they use.

`Shows get m' m` says: seen through `get`, the program `m'` on the larger state does what
`m` does, and ends as `m` ends.  It follows the structure of programs, so a program whose
calls were all instrumented shows the program it was made from.
-/

namespace Crash

variable {ε σ τ α β : Type}

/-- Seen through `get`, a run of `m'` is a run of `m`. -/
def Shows (get : τ → σ) (m' : Prog ε τ α) (m : Prog ε σ α) : Prop :=
  ∀ t, ((m' t).1, get (m' t).2) = m (get t)

namespace Shows

variable {get : τ → σ} {m' : Prog ε τ α} {m : Prog ε σ α}

/-- The state a shown run leaves. -/
theorem state (h : Shows get m' m) (t : τ) : get (m' t).2 = (m (get t)).2 := by
  rw [← h t]

theorem pure (a : α) : Shows get (Pure.pure a : Prog ε τ α) (Pure.pure a : Prog ε σ α) :=
  fun _ => rfl

theorem throw (e : ε) : Shows get (Prog.throw e : Prog ε τ α) (Prog.throw e : Prog ε σ α) :=
  fun _ => rfl

theorem modify {f' : τ → τ} {f : σ → σ} (h : ∀ t, get (f' t) = f (get t)) :
    Shows get (Prog.modify f' : Prog ε τ Unit) (Prog.modify f : Prog ε σ Unit) := by
  intro t
  simp only [Prog.modify_run, h]

theorem ofExcept (x : Except ε α) :
    Shows get (Prog.ofExcept x : Prog ε τ α) (Prog.ofExcept x : Prog ε σ α) := by
  intro t
  cases x <;> rfl

/-- One after the other. -/
theorem bind {f' : α → Prog ε τ β} {f : α → Prog ε σ β} (h : Shows get m' m)
    (hf : ∀ a, Shows get (f' a) (f a)) : Shows get (m' >>= f') (m >>= f) := by
  intro t
  have ht := h t
  rw [Prog.bind_run, Prog.bind_run, ← ht]
  generalize m' t = r
  obtain ⟨r, t'⟩ := r
  cases r with
  | ok a => exact hf a t'
  | err e => rfl
  | crash => rfl

/-- Reading the state: what follows is shown for each state that was read. -/
theorem get_bind {f' : τ → Prog ε τ β} {f : σ → Prog ε σ β}
    (hf : ∀ t, Shows get (f' t) (f (get t))) :
    Shows get (Prog.get >>= f') (Prog.get >>= f) := fun t => hf t t

/-- With its error caught. -/
theorem attempt (h : Shows get m' m) : Shows get (Prog.attempt m') (Prog.attempt m) := by
  intro t
  have ht := h t
  unfold Prog.attempt
  rw [← ht]
  generalize m' t = r
  obtain ⟨r, t'⟩ := r
  cases r <;> rfl

theorem ite {p : Prop} [Decidable p] {n' : Prog ε τ α} {n : Prog ε σ α} (ht : Shows get m' m)
    (he : Shows get n' n) : Shows get (if p then m' else n') (if p then m else n) := by
  by_cases hp : p
  · rw [if_pos hp, if_pos hp]
    exact ht
  · rw [if_neg hp, if_neg hp]
    exact he

/-- Programs run on a component of states of which one shows the other. -/
theorem zoom {υ ω : Type} {getτ : υ → τ} {setτ : τ → υ → υ} {getσ : ω → σ} {setσ : σ → ω → ω}
    {view : υ → ω} (h : Shows get m' m) (hget : ∀ u, getσ (view u) = get (getτ u))
    (hset : ∀ t u, view (setτ t u) = setσ (get t) (view u)) :
    Shows view (Prog.zoom getτ setτ m') (Prog.zoom getσ setσ m) := by
  intro u
  have hu := h (getτ u)
  unfold Prog.zoom
  simp only [hget, hset, ← hu]

end Shows

end Crash
