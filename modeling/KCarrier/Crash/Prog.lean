/-!
# KCarrier.Crash.Prog

Programs over a state that may return a value, return an error, or die.

`Prog ε σ α` is the state monad of a program whose every call ends in one of
three ways (`Res`): with a value, with an error its caller may handle, or with
the death of the worker that runs it.  An error can be caught (`attempt`); a
crash cannot, and nothing of the program runs after it, but the state it leaves
behind is what the next program starts from.

`Fault` is what a fault plan may do at one point of a program; `Prog.zoom` runs
a program on one component of a larger state.
-/

namespace Crash

/-- How a call ended: with a value, with an error its caller sees, or with the
death of the worker, which nothing in that worker sees. -/
inductive Res (ε α : Type) where
  | ok (a : α)
  | err (e : ε)
  | crash
deriving DecidableEq, Repr

/-- The end of a call that did not return: its error, or none when the worker died. -/
def Res.early {ε α : Type} : Option ε → Res ε α
  | some e => .err e
  | none => .crash

def Res.map {ε α β : Type} (f : α → β) : Res ε α → Res ε β
  | .ok a => .ok (f a)
  | .err e => .err e
  | .crash => .crash

/-- Whether a call returned, and with a value that passes `p`. -/
def Res.returns {ε α : Type} (p : α → Bool) : Res ε α → Bool
  | .ok a => p a
  | _ => false

theorem Res.returns_iff {ε α : Type} {p : α → Bool} {r : Res ε α} :
    r.returns p = true ↔ ∃ a, r = .ok a ∧ p a = true := by
  cases r <;> simp [returns]

/-- A program on the state `σ` with errors in `ε`. -/
def Prog (ε σ α : Type) : Type := σ → Res ε α × σ

/-- What a fault plan does at one point: make the call there fail, or kill the
worker. -/
inductive Fault (ε : Type) where
  | fail (e : ε)
  | crash
deriving DecidableEq, Repr

namespace Prog

variable {ε σ τ α β : Type}

/-- Sequencing: an error or a crash ends the whole program. -/
def bind (m : Prog ε σ α) (f : α → Prog ε σ β) : Prog ε σ β := fun s =>
  match m s with
  | (.ok a, s') => f a s'
  | (.err e, s') => (.err e, s')
  | (.crash, s') => (.crash, s')

instance : Monad (Prog ε σ) where
  pure a := fun s => (.ok a, s)
  bind := bind

/-- Return an error. -/
def throw (e : ε) : Prog ε σ α := fun s => (.err e, s)

/-- Run `m` and hand its error to the caller as a value.  A crash is not caught. -/
def attempt (m : Prog ε σ α) : Prog ε σ (Except ε α) := fun s =>
  match m s with
  | (.ok a, s') => (.ok (.ok a), s')
  | (.err e, s') => (.ok (.error e), s')
  | (.crash, s') => (.crash, s')

/-- Read the state. -/
def get : Prog ε σ σ := fun s => (.ok s, s)

/-- Change the state. -/
def modify (f : σ → σ) : Prog ε σ Unit := fun s => (.ok (), f s)

/-- A pure computation that may fail. -/
def ofExcept (x : Except ε α) : Prog ε σ α := fun s =>
  match x with
  | .ok a => (.ok a, s)
  | .error e => (.err e, s)

/-- What the program does when the plan has `fault` for it. -/
def raise (fault : Option (Fault ε)) : Prog ε σ Unit := fun s =>
  match fault with
  | none => (.ok (), s)
  | some (.fail e) => (.err e, s)
  | some .crash => (.crash, s)

/-- Run a program on the component `get` of a larger state. -/
def zoom (get : τ → σ) (set : σ → τ → τ) (m : Prog ε σ α) : Prog ε τ α := fun t =>
  let r := m (get t)
  (r.1, set r.2 t)

/-! ## runs on a given state -/

@[simp] theorem pure_run (a : α) (s : σ) : (pure a : Prog ε σ α) s = (.ok a, s) := rfl

@[simp] theorem throw_run (e : ε) (s : σ) : (throw e : Prog ε σ α) s = (.err e, s) := rfl

@[simp] theorem get_run (s : σ) : (get : Prog ε σ σ) s = (.ok s, s) := rfl

@[simp] theorem modify_run (f : σ → σ) (s : σ) : (modify f : Prog ε σ Unit) s = (.ok (), f s) := rfl

@[simp] theorem ofExcept_ok_run (a : α) (s : σ) :
    (ofExcept (.ok a) : Prog ε σ α) s = (.ok a, s) := rfl

@[simp] theorem ofExcept_error_run (e : ε) (s : σ) :
    (ofExcept (.error e) : Prog ε σ α) s = (.err e, s) := rfl

/-- The second runs where the first has returned. -/
theorem bind_run (m : Prog ε σ α) (f : α → Prog ε σ β) (s : σ) :
    (m >>= f) s = match m s with
      | (.ok a, s') => f a s'
      | (.err e, s') => (.err e, s')
      | (.crash, s') => (.crash, s') := rfl

/-- Sequencing is associative. -/
theorem bind_assoc {δ : Type} (m : Prog ε σ α) (f : α → Prog ε σ β) (g : β → Prog ε σ δ) :
    m >>= f >>= g = m >>= fun a => f a >>= g := by
  funext s
  rw [bind_run, bind_run, bind_run]
  cases hm : m s with
  | mk r s' => cases r <;> rfl

/-- A sequence run on a component is a sequence of runs on it. -/
theorem zoom_bind (get : τ → σ) (set : σ → τ → τ) (hget : ∀ s t, get (set s t) = s)
    (hset : ∀ s s' t, set s (set s' t) = set s t) (m : Prog ε σ α) (f : α → Prog ε σ β) :
    zoom get set (m >>= f) = zoom get set m >>= fun a => zoom get set (f a) := by
  funext t
  rw [bind_run]
  unfold zoom
  rw [bind_run]
  cases hm : m (get t) with
  | mk r s => cases r <;> simp [hget, hset]

/-- A program whose first call returned goes on from there. -/
theorem bind_run_ok {m : Prog ε σ α} {f : α → Prog ε σ β} {s s' : σ} {a : α}
    (h : m s = (.ok a, s')) : (m >>= f) s = f a s' := by
  rw [bind_run, h]

/-- A program whose first call failed fails with the same error. -/
theorem bind_run_err {m : Prog ε σ α} {f : α → Prog ε σ β} {s s' : σ} {e : ε}
    (h : m s = (.err e, s')) : (m >>= f) s = (.err e, s') := by
  rw [bind_run, h]

/-- A program whose first call did not return ends as that call did. -/
theorem bind_run_early {m : Prog ε σ α} {f : α → Prog ε σ β} {s s' : σ} {e : Option ε}
    (h : m s = (.early e, s')) : (m >>= f) s = (.early e, s') := by
  rw [bind_run, h]
  cases e <;> rfl

/-- What a successful sequence did: both halves succeeded. -/
theorem bind_eq_ok {m : Prog ε σ α} {f : α → Prog ε σ β} {s t : σ} {b : β}
    (h : (m >>= f) s = (.ok b, t)) : ∃ a s', m s = (.ok a, s') ∧ f a s' = (.ok b, t) := by
  rw [bind_run] at h
  split at h
  · next a s' hm => exact ⟨a, s', hm, h⟩
  · cases h
  · cases h

theorem attempt_run_ok {m : Prog ε σ α} {s s' : σ} {a : α} (h : m s = (.ok a, s')) :
    attempt m s = (.ok (.ok a), s') := by
  rw [attempt, h]

theorem attempt_run_err {m : Prog ε σ α} {s s' : σ} {e : ε} (h : m s = (.err e, s')) :
    attempt m s = (.ok (.error e), s') := by
  rw [attempt, h]

/-- An attempt that came to a value is a call that returned it. -/
theorem attempt_eq_ok {m : Prog ε σ α} {s t : σ} {a : α} (h : attempt m s = (.ok (.ok a), t)) :
    m s = (.ok a, t) := by
  unfold attempt at h
  split at h
  · next b s' hm =>
      cases h
      exact hm
  · cases h
  · cases h

end Prog

end Crash
