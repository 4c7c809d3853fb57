import KCarrier.Crash.Prog

/-!
# KCarrier.Crash.Triple

Program logic for programs that may fail or crash.

`Triple P m Q F` says: from any state in `P`, the program `m` either returns a
value `a` in a state of `Q a`, or ends early in a state of `F`, where `F`
receives the error, or `none` when the worker died.  `F` is the *crash
condition*: it has to describe every state the program can be cut off in, so a
triple speaks about all the boundaries of a program and not only about its end.

The rules follow the program: `Triple.bind` for sequencing, `Triple.attempt` for
a caught error, `Triple.zoom` for a program run on a component of the state.
-/

namespace Crash

variable {ε σ τ α β : Type}

/-- The state a run ended in satisfies `Q` after a value, `F` after an error or
a crash. -/
def Ends (Q : α → σ → Prop) (F : Option ε → σ → Prop) : Res ε α × σ → Prop
  | (.ok a, s) => Q a s
  | (.err e, s) => F (some e) s
  | (.crash, s) => F none s

/-- From every state of `P`, the program ends as `Ends Q F` says. -/
def Triple (P : σ → Prop) (m : Prog ε σ α) (Q : α → σ → Prop) (F : Option ε → σ → Prop) : Prop :=
  ∀ s, P s → Ends Q F (m s)

/-- What a call whose error was caught left: `Q` of its value, or `F` of its error. -/
abbrev Caught (Q : α → σ → Prop) (F : ε → σ → Prop) (reply : Except ε α) (s : σ) : Prop :=
  match reply with
  | .ok a => Q a s
  | .error e => F e s

@[simp] theorem ends_ok {Q : α → σ → Prop} {F : Option ε → σ → Prop} {a : α} {s : σ} :
    Ends Q F (.ok a, s) ↔ Q a s := Iff.rfl

@[simp] theorem ends_err {Q : α → σ → Prop} {F : Option ε → σ → Prop} {e : ε} {s : σ} :
    Ends Q F (.err e, s) ↔ F (some e) s := Iff.rfl

@[simp] theorem ends_crash {Q : α → σ → Prop} {F : Option ε → σ → Prop} {s : σ} :
    Ends Q F ((.crash : Res ε α), s) ↔ F none s := Iff.rfl

/-- Weakening both conditions of an ended run. -/
theorem Ends.mono {Q Q' : α → σ → Prop} {F F' : Option ε → σ → Prop} {r : Res ε α × σ}
    (h : Ends Q F r) (hQ : ∀ a s, Q a s → Q' a s) (hF : ∀ e s, F e s → F' e s) :
    Ends Q' F' r := by
  obtain ⟨r, s⟩ := r
  cases r with
  | ok a => exact hQ a s h
  | err e => exact hF (some e) s h
  | crash => exact hF none s h

/-- An ended run satisfies two pairs of conditions at once. -/
theorem Ends.and {Q Q' : α → σ → Prop} {F F' : Option ε → σ → Prop} {r : Res ε α × σ}
    (h : Ends Q F r) (h' : Ends Q' F' r) :
    Ends (fun a s => Q a s ∧ Q' a s) (fun e s => F e s ∧ F' e s) r := by
  obtain ⟨r, s⟩ := r
  cases r <;> exact ⟨h, h'⟩

namespace Triple

variable {P P' : σ → Prop} {m : Prog ε σ α} {Q Q' : α → σ → Prop} {F F' : Option ε → σ → Prop}

/-- The rule of consequence. -/
theorem conseq (h : Triple P m Q F) (hP : ∀ s, P' s → P s) (hQ : ∀ a s, Q a s → Q' a s)
    (hF : ∀ e s, F e s → F' e s) : Triple P' m Q' F' :=
  fun s hs => (h s (hP s hs)).mono hQ hF

/-- Starting from less. -/
theorem pre (h : Triple P m Q F) (hP : ∀ s, P' s → P s) : Triple P' m Q F :=
  h.conseq hP (fun _ _ hq => hq) (fun _ _ hf => hf)

/-- Ending in more. -/
theorem post (h : Triple P m Q F) (hQ : ∀ a s, Q a s → Q' a s) : Triple P m Q' F :=
  h.conseq (fun _ hp => hp) hQ (fun _ _ hf => hf)

/-- Weakening the crash condition alone. -/
theorem crash {G F : σ → Prop} (h : Triple P m Q (fun _ => G)) (hF : ∀ s, G s → F s) :
    Triple P m Q (fun _ => F) :=
  h.conseq (fun _ hp => hp) (fun _ _ hq => hq) fun _ => hF

/-- Two triples about one program hold together: a program has one outcome. -/
theorem and (h : Triple P m Q F) (h' : Triple P' m Q' F') :
    Triple (fun s => P s ∧ P' s) m (fun a s => Q a s ∧ Q' a s) (fun e s => F e s ∧ F' e s) :=
  fun s hs => (h s hs.1).and (h' s hs.2)

/-- A precondition may be split over a parameter of the state. -/
theorem exists_pre {ι : Type} {P : ι → σ → Prop} (h : ∀ i, Triple (P i) m Q F) :
    Triple (fun s => ∃ i, P i s) m Q F :=
  fun s ⟨i, hs⟩ => h i s hs

/-- A fact about the state that does not depend on it may be assumed. -/
theorem assume {p : Prop} (h : p → Triple P m Q F) : Triple (fun s => p ∧ P s) m Q F :=
  fun s hs => h hs.1 s hs.2

/-- It is enough to treat each starting state by itself. -/
theorem of_forall (h : ∀ s, P s → Triple (· = s) m Q F) : Triple P m Q F :=
  fun s hs => h s hs s rfl

theorem pure {a : α} (h : ∀ s, P s → Q a s) : Triple P (pure a : Prog ε σ α) Q F := h

/-- An error is thrown. -/
theorem throw {e : ε} (h : ∀ s, P s → F (some e) s) :
    Triple P (Prog.throw e : Prog ε σ α) Q F := h

theorem get {Q : σ → σ → Prop} (h : ∀ s, P s → Q s s) :
    Triple P (Prog.get : Prog ε σ σ) Q F := h

/-- The state is changed. -/
theorem modify {f : σ → σ} {Q : Unit → σ → Prop} (h : ∀ s, P s → Q () (f s)) :
    Triple P (Prog.modify f : Prog ε σ Unit) Q F := h

/-- A value or an error, from outside. -/
theorem ofExcept {x : Except ε α} (hok : ∀ a s, x = .ok a → P s → Q a s)
    (herr : ∀ e s, x = .error e → P s → F (some e) s) :
    Triple P (Prog.ofExcept x) Q F := by
  intro s hs
  cases x with
  | ok a => exact hok a s rfl hs
  | error e => exact herr e s rfl hs

/-- A fault is raised, or there is none. -/
theorem raise {fault : Option (Fault ε)} {Q : Unit → σ → Prop} (hok : ∀ s, P s → Q () s)
    (hF : ∀ e s, P s → F e s) : Triple P (Prog.raise fault : Prog ε σ Unit) Q F := by
  intro s hs
  cases fault with
  | none => exact hok s hs
  | some fault =>
      cases fault with
      | fail e => exact hF (some e) s hs
      | crash => exact hF none s hs

/-- Sequencing: the condition between the two halves is the first half's
postcondition; both halves share the crash condition. -/
theorem bind {f : α → Prog ε σ β} {R : α → σ → Prop} {Q : β → σ → Prop}
    (hm : Triple P m R F) (hf : ∀ a, Triple (R a) (f a) Q F) : Triple P (m >>= f) Q F := by
  intro s hs
  have h := hm s hs
  rw [Prog.bind_run]
  generalize m s = r at h
  obtain ⟨r, s'⟩ := r
  cases r with
  | ok a => exact hf a s' h
  | err e => exact h
  | crash => exact h

/-- A conditional: each branch under its condition. -/
theorem ite {p : Prop} [Decidable p] {m' : Prog ε σ α} (ht : p → Triple P m Q F)
    (he : ¬p → Triple P m' Q F) : Triple P (if p then m else m') Q F := by
  by_cases hp : p
  · rw [if_pos hp]
    exact ht hp
  · rw [if_neg hp]
    exact he hp

/-- A program that starts by reading the state is one program for each state. -/
theorem get_bind {f : σ → Prog ε σ β} {Q : β → σ → Prop}
    (h : ∀ s, P s → Triple (· = s) (f s) Q F) : Triple P (Prog.get >>= f) Q F :=
  fun s hs => h s hs s rfl

/-- Catching an error: the error becomes a value, a crash stays a crash. -/
theorem attempt {Q : Except ε α → σ → Prop}
    (h : Triple P m (fun a => Q (.ok a)) (fun e s => match e with
      | some e => Q (.error e) s
      | none => F none s)) : Triple P (Prog.attempt m) Q F := by
  intro s hs
  have h := h s hs
  unfold Prog.attempt
  generalize m s = r at h
  obtain ⟨r, s'⟩ := r
  cases r <;> exact h

/-- A program run on a component of the state. -/
theorem zoom {get : τ → σ} {set : σ → τ → τ} {P : τ → Prop} {Q : α → τ → Prop}
    {F : Option ε → τ → Prop}
    (h : ∀ t, P t → Ends (fun a s => Q a (set s t)) (fun e s => F e (set s t)) (m (get t))) :
    Triple P (Prog.zoom get set m) Q F := by
  intro t ht
  have h := h t ht
  unfold Prog.zoom
  generalize m (get t) = r at h ⊢
  obtain ⟨r, s'⟩ := r
  cases r <;> exact h

/-- The run of a program from a state of the precondition, when it returned. -/
theorem run_ok {s s' : σ} {a : α} (h : Triple P m Q F) (hs : P s) (hr : m s = (.ok a, s')) :
    Q a s' := by
  have := h s hs
  rwa [hr] at this

/-- What a run that returned satisfies. -/
theorem of_ok {s : σ} {a : α} (h : Triple P m Q F) (hs : P s) (hr : (m s).1 = .ok a) :
    Q a (m s).2 := by
  have hends := h s hs
  generalize m s = r at hends hr ⊢
  obtain ⟨_, s'⟩ := r
  subst hr
  exact hends

/-- How a run that failed has ended. -/
theorem of_err {s : σ} {e : ε} (h : Triple P m Q F) (hs : P s) (hr : (m s).1 = .err e) :
    F (some e) (m s).2 := by
  have hends := h s hs
  generalize m s = r at hends hr ⊢
  obtain ⟨_, s'⟩ := r
  subst hr
  exact hends

/-- A run from a known state, with what it came to. -/
theorem exact {s : σ} (h : Triple P m Q F) (hs : P s) :
    Triple (· = s) m (fun a s' => m s = (.ok a, s') ∧ Q a s')
      (fun e s' => m s = (.early e, s') ∧ F e s') := by
  intro t ht
  subst ht
  have hends := h t hs
  generalize m t = r at hends
  obtain ⟨r, s'⟩ := r
  cases r with
  | ok a => exact ⟨rfl, hends⟩
  | err e => exact ⟨rfl, hends⟩
  | crash => exact ⟨rfl, hends⟩

/-- A program that goes on from where the run of `m` from `s` came to, with that run. -/
theorem after {f : α → Prog ε σ β} {s : σ} {a : α} {P : σ → Prop} {Q : β → σ → Prop}
    (h : Triple P (f a) Q F) : Triple (fun t => m s = (.ok a, t) ∧ P t) (f a)
      (fun b t => (m >>= f) s = (.ok b, t) ∧ Q b t) F := by
  rintro t ⟨hrun, ht⟩
  have hends := h t ht
  have hwhole : (m >>= f) s = f a t := Prog.bind_run_ok hrun
  revert hends hwhole
  generalize f a t = r
  obtain ⟨r, t'⟩ := r
  intro hends hwhole
  cases r with
  | ok b => exact ⟨hwhole, hends⟩
  | err e => exact hends
  | crash => exact hends

/-- What a program leaves behind, however it ends. -/
theorem leaves {s : σ} {G : σ → Prop} (h : Triple P m (fun _ => G) (fun _ => G)) (hs : P s) :
    G (m s).2 := by
  have := h s hs
  generalize m s = r at this ⊢
  obtain ⟨r, s'⟩ := r
  cases r <;> exact this

/-- Every program ends somewhere. -/
theorem any : Triple P m (fun _ _ => True) (fun _ _ => True) := by
  intro s _
  generalize m s = r
  obtain ⟨r, s'⟩ := r
  cases r <;> trivial

/-- A program that cannot end early returns. -/
theorem run_of_not_fault {s : σ} (h : Triple P m Q (fun _ _ => False)) (hs : P s) :
    ∃ a s', m s = (.ok a, s') ∧ Q a s' := by
  have := h s hs
  generalize m s = r at this
  obtain ⟨r, s'⟩ := r
  cases r with
  | ok a => exact ⟨a, s', rfl, this⟩
  | err e => exact this.elim
  | crash => exact this.elim

end Triple

/-! ## programs that return -/

/-- From every state of `P` the program returns, as `Q` says. -/
abbrev Total (P : σ → Prop) (m : Prog ε σ α) (Q : α → σ → Prop) : Prop :=
  Triple P m Q fun _ _ => False

namespace Total

variable {P P' : σ → Prop} {m : Prog ε σ α} {Q Q' : α → σ → Prop}

/-- A program that returns, with what another triple says of it. -/
theorem and_triple {F : Option ε → σ → Prop} (h : Total P m Q) (h' : Triple P' m Q' F) :
    Total (fun s => P s ∧ P' s) m (fun a s => Q a s ∧ Q' a s) :=
  (Triple.and h h').conseq (fun _ hs => hs) (fun _ _ hq => hq) fun _ _ hf => hf.1

/-- There is no error to be caught. -/
theorem attempt (h : Total P m Q) :
    Total P (Prog.attempt m) (fun reply s => ∃ a, reply = .ok a ∧ Q a s) := by
  refine Triple.attempt (h.conseq (fun _ hs => hs) (fun a _ hq => ⟨a, rfl, hq⟩) fun _ _ hf => ?_)
  exact hf.elim

/-- Sequencing after a program whose value is known. -/
theorem bind_eq {f : α → Prog ε σ β} {R : σ → Prop} {a : α} {Q : β → σ → Prop}
    {F : Option ε → σ → Prop} (hm : Triple P m (fun b s => b = a ∧ R s) F)
    (hf : Triple R (f a) Q F) : Triple P (m >>= f) Q F :=
  Triple.bind hm fun b => Triple.assume fun hb => by
    rw [hb]
    exact hf

end Total

/-! ## the errors of a program -/

/-- The error, if there is one, is of the kind `p`. -/
def Kind (p : ε → Prop) (e : Option ε) : Prop := ∀ err, e = some err → p err

/-- A crash is of any kind. -/
@[simp] theorem kind_none {p : ε → Prop} : Kind p none := fun _ h => by cases h

/-- An error is of the kind it is. -/
@[simp] theorem kind_some {p : ε → Prop} {e : ε} : Kind p (some e) ↔ p e :=
  ⟨fun h => h e rfl, fun h _ he => Option.some.inj he ▸ h⟩

/-- Every error of the program is of the kind `p`. -/
def Raises (p : ε → Prop) (m : Prog ε σ α) : Prop :=
  Triple (fun _ => True) m (fun _ _ => True) (fun e _ => Kind p e)

namespace Raises

variable {p : ε → Prop} {m : Prog ε σ α}

theorem pure (a : α) : Raises p (Pure.pure a : Prog ε σ α) := fun _ _ => trivial

/-- An error of the kind is thrown. -/
theorem throw {e : ε} (h : p e) : Raises p (Prog.throw e : Prog ε σ α) :=
  fun _ _ => kind_some.mpr h

theorem get : Raises p (Prog.get : Prog ε σ σ) := fun _ _ => trivial

theorem modify (f : σ → σ) : Raises p (Prog.modify f : Prog ε σ Unit) := fun _ _ => trivial

/-- A value, or an error of the kind. -/
theorem ofExcept {x : Except ε α} (h : ∀ e, x = .error e → p e) :
    Raises p (Prog.ofExcept x : Prog ε σ α) :=
  Triple.ofExcept (fun _ _ _ _ => trivial) fun e _ he _ => kind_some.mpr (h e he)

/-- One program after the other. -/
theorem bind {f : α → Prog ε σ β} (hm : Raises p m) (hf : ∀ a, Raises p (f a)) :
    Raises p (m >>= f) := Triple.bind hm hf

theorem ite {c : Prop} [Decidable c] {m' : Prog ε σ α} (ht : Raises p m) (he : Raises p m') :
    Raises p (if c then m else m') := Triple.ite (fun _ => ht) fun _ => he

/-- A caught error is none. -/
theorem attempt (m : Prog ε σ α) : Raises p (Prog.attempt m) := by
  intro s _
  unfold Prog.attempt
  generalize m s = r
  obtain ⟨r, s'⟩ := r
  cases r with
  | ok a => exact trivial
  | err e => exact trivial
  | crash => exact kind_none

/-- The error that was caught is of the kind, too. -/
theorem attempt_bind {f : Except ε α → Prog ε σ β} (hm : Raises p m)
    (hok : ∀ a, Raises p (f (.ok a))) (herr : ∀ e, p e → Raises p (f (.error e))) :
    Raises p (Prog.attempt m >>= f) := by
  refine Triple.bind (R := fun r _ => ∀ e, r = .error e → p e) ?_ fun r => ?_
  · refine Triple.attempt (hm.conseq (fun _ h => h) (fun _ _ _ e he => by cases he) ?_)
    intro e s h
    cases e with
    | none => exact kind_none
    | some err =>
        intro e he
        cases he
        exact kind_some.mp h
  · cases r with
    | ok a => exact fun s _ => hok a s trivial
    | error e => exact fun s h => herr e (h e rfl) s trivial

/-- A program on a part of the state. -/
theorem zoom {get : τ → σ} {set : σ → τ → τ} (h : Raises p m) :
    Raises p (Prog.zoom get set m) :=
  Triple.zoom fun t _ => h (get t) trivial

/-- Every program raises errors of some kind. -/
theorem any : Raises (fun _ => True) m := by
  intro s _
  generalize m s = r
  obtain ⟨r, s'⟩ := r
  cases r with
  | ok a => exact trivial
  | err e => exact fun _ _ => trivial
  | crash => exact kind_none

/-- What a program ends in, with what its errors are. -/
theorem and {P : σ → Prop} {Q : α → σ → Prop} {F : Option ε → σ → Prop} (hm : Raises p m)
    (h : Triple P m Q F) : Triple P m Q (fun e s => Kind p e ∧ F e s) :=
  (Triple.and hm h).conseq (fun _ hp => ⟨trivial, hp⟩) (fun _ _ hq => hq.2) fun _ _ hf => hf

/-- What a program returns in, when only the kind of its errors counts. -/
theorem returns {q : ε → Prop} {P : σ → Prop} {Q : α → σ → Prop} {F : Option ε → σ → Prop}
    (hm : Raises p m) (h : Triple P m Q F) (hpq : ∀ e, p e → q e) :
    Triple P m Q (fun e _ => Kind q e) :=
  (hm.and h).conseq (fun _ hp => hp) (fun _ _ hq => hq) fun _ _ hf err he => hpq err (hf.1 err he)

end Raises

/-! ## what a program keeps and says -/

/-- The program keeps `I`, what it returns is of the kind `q`, and its errors are of the kind
`p`. -/
def Obeys (p : ε → Prop) (I : σ → Prop) (q : α → Prop) (m : Prog ε σ α) : Prop :=
  Triple I m (fun a s => q a ∧ I s) (fun e s => Kind p e ∧ I s)

namespace Obeys

variable {p p' : ε → Prop} {I : σ → Prop} {q q' : α → Prop} {m : Prog ε σ α}

/-- Weakening what is said. -/
theorem mono (h : Obeys p I q m) (hp : ∀ e, p e → p' e) (hq : ∀ a, q a → q' a) :
    Obeys p' I q' m :=
  Triple.conseq h (fun _ hs => hs) (fun a _ ha => ⟨hq a ha.1, ha.2⟩)
    fun _ _ he => ⟨fun err herr => hp err (he.1 err herr), he.2⟩

theorem pure {a : α} (h : q a) : Obeys p I q (Pure.pure a : Prog ε σ α) :=
  Triple.pure fun _ hs => ⟨h, hs⟩

/-- An error of the kind is thrown. -/
theorem throw {e : ε} (h : p e) : Obeys p I q (Prog.throw e : Prog ε σ α) :=
  Triple.throw fun _ hs => ⟨kind_some.mpr h, hs⟩

/-- A step that keeps `I`. -/
theorem modify {f : σ → σ} (h : ∀ s, I s → I (f s)) :
    Obeys p I (fun _ => True) (Prog.modify f : Prog ε σ Unit) :=
  Triple.modify fun s hs => ⟨trivial, h s hs⟩

/-- A value of the kind `q`, or an error of the kind `p`. -/
theorem ofExcept {x : Except ε α} (hok : ∀ a, x = .ok a → q a) (herr : ∀ e, x = .error e → p e) :
    Obeys p I q (Prog.ofExcept x : Prog ε σ α) :=
  Triple.ofExcept (fun a _ ha hs => ⟨hok a ha, hs⟩) fun e _ he hs =>
    ⟨kind_some.mpr (herr e he), hs⟩

/-- One program after the other. -/
theorem bind {q : β → Prop} {r : α → Prop} {f : α → Prog ε σ β} (hm : Obeys p I r m)
    (hf : ∀ a, r a → Obeys p I q (f a)) : Obeys p I q (m >>= f) :=
  Triple.bind hm fun a => Triple.assume (hf a)

/-- What follows a reading of the state is treated for each state by itself. -/
theorem get_bind {q : β → Prop} {f : σ → Prog ε σ β} (h : ∀ s, I s → Obeys p I q (f s)) :
    Obeys p I q (Prog.get >>= f) :=
  fun s hs => h s hs s hs

theorem ite {c : Prop} [Decidable c] {m' : Prog ε σ α} (ht : c → Obeys p I q m)
    (he : ¬c → Obeys p I q m') : Obeys p I q (if c then m else m') := Triple.ite ht he

/-- A caught error is as the errors of the program are. -/
theorem attempt (h : Obeys p I q m) : Obeys p' I
    (fun reply => (∀ a, reply = .ok a → q a) ∧ ∀ e, reply = .error e → p e) (Prog.attempt m) := by
  refine Triple.attempt (Triple.conseq h (fun _ hs => hs) (fun a s ha => ?_) fun e s he => ?_)
  · refine ⟨⟨fun b hb => ?_, fun e he => (by cases he)⟩, ha.2⟩
    cases hb
    exact ha.1
  · cases e with
    | none => exact ⟨kind_none, he.2⟩
    | some e =>
        refine ⟨⟨fun a ha => (by cases ha), fun e' he' => ?_⟩, he.2⟩
        cases he'
        exact kind_some.mp he.1

/-- A program run on a component of the state. -/
theorem zoom {J : τ → Prop} {get : τ → σ} {set : σ → τ → τ} (h : Obeys p I q m)
    (hget : ∀ t, J t → I (get t)) (hset : ∀ s t, J t → I s → J (set s t)) :
    Obeys p J q (Prog.zoom get set m) :=
  Triple.zoom fun t ht => (h (get t) (hget t ht)).mono (fun _ s ha => ⟨ha.1, hset s t ht ha.2⟩)
    fun _ s he => ⟨he.1, hset s t ht he.2⟩

/-- What is kept in the end may be less. -/
theorem into {J : σ → Prop} (h : Obeys p I q m) (hI : ∀ s, I s → J s) :
    Triple I m (fun a s => q a ∧ J s) (fun e s => Kind p e ∧ J s) :=
  Triple.conseq h (fun _ hs => hs) (fun _ s ha => ⟨ha.1, hI s ha.2⟩)
    fun _ s he => ⟨he.1, hI s he.2⟩

/-- Sequencing, when less is kept from some point on. -/
theorem bind_into {J : σ → Prop} {q : β → Prop} {r : α → Prop} {f : α → Prog ε σ β}
    (hm : Obeys p I r m) (hI : ∀ s, I s → J s)
    (hf : ∀ a, r a → Triple I (f a) (fun b s => q b ∧ J s) (fun e s => Kind p e ∧ J s)) :
    Triple I (m >>= f) (fun b s => q b ∧ J s) (fun e s => Kind p e ∧ J s) :=
  Triple.bind (Triple.conseq hm (fun _ hs => hs) (fun _ _ ha => ha)
    fun _ s he => ⟨he.1, hI s he.2⟩) fun a => Triple.assume (hf a)

/-- A program that only keeps `I` says nothing of what it returns. -/
theorem of_keeps (hkeeps : Triple I m (fun _ => I) (fun _ => I)) (hraises : Raises p m) :
    Obeys p I (fun _ => True) m :=
  (hraises.and hkeeps).post fun _ _ hs => ⟨trivial, hs⟩

end Obeys

end Crash
