import Mathlib.Logic.Function.Basic
import KCarrier.Runner.Records
import KCarrier.Runner.Settlement

/-!
# KCarrier.Runner.Workers

Worker processes that execute one request each on one state directory, in any order of their
steps.

The upgrade lock covers the body of a request and nothing more: `operation.json` is read, and the
answer made of it, after the lock was given back (`Site.Act.answer`), so another worker may have
recorded its own operation in between.  A worker without the lock sees of the one that has it only
`operation.json`, one record after the other; so a body is run at once (`Site.Act.enter`) and its
records come to light one at a time (`Site.Act.publish`).

Every worker that is answered shows its own operation, with the outcome its run recorded, if and
only if no other worker recorded an operation of its own since it came back
(`workers_report_own`; the other conditions are about the worker's own errors).
-/

namespace KCarrier

open Crash

/-- A worker process: its runner, and the request it executes. -/
structure Worker (η γ : Type) where
  runner : Runner η γ
  request : Request

/-- How far a worker is. -/
inductive Standing where
  | waiting
  /-- it has the lock: what the body comes to, unless the worker dies in it, and the records that
  have not come to light yet -/
  | inside (result : Option (Except Error (String × Nat))) (rest : List Operation)
  /-- the body is over, after `since` records; the answer is still to be made -/
  | back (result : Except Error (String × Nat)) (since : Nat)
  | answered (response : Response)
  | dead

/-- A state directory and its workers. -/
structure Site (ι η γ : Type) where
  /-- what the last body leaves behind -/
  world : World η γ
  /-- what `operation.json` showed at first -/
  first : OperationRead
  /-- the records that came to light since, and whose they are -/
  history : List (ι × Operation)
  /-- who keeps the lock from the others -/
  holder : Option ι
  standing : ι → Standing

/-- What a caller sees of a body. -/
def returned (o : Res Error (Except Error (String × Nat))) : Option (Except Error (String × Nat)) :=
  match o with
  | .ok result => some result
  | _ => none

namespace Site

/-- A step of one worker, with what it finds outside the directory. -/
inductive Act (ι γ : Type) where
  /-- the whole body, under the lock if it takes it -/
  | enter (i : ι) (product : γ)
  /-- a body that does not get the lock -/
  | pass (i : ι) (lock : LockState) (product : γ) (tick : Nat)
  | publish (i : ι)
  /-- the lock is given back, or kept until the process exits -/
  | leave (i : ι)
  /-- `operation.json` is read, the answer is made, and the process exits -/
  | answer (i : ι)
  | perish (i : ι)

variable {ι η γ : Type}

/-- Nobody has done anything yet. -/
def start (w : World η γ) : Site ι η γ where
  world := w
  first := w.disk.readOperation
  history := []
  holder := none
  standing _ := .waiting

/-- What `operation.json` showed after the first `n` records. -/
def shownAt (s : Site ι η γ) (n : Nat) : OperationRead :=
  latest s.first ((s.history.take n).map Prod.snd)

/-- What it shows now. -/
def shown (s : Site ι η γ) : OperationRead := latest s.first (s.history.map Prod.snd)

variable [DecidableEq ι]

def put (s : Site ι η γ) (i : ι) (standing : Standing) : Site ι η γ :=
  { s with standing := Function.update s.standing i standing }

/-- The process exits, and the lock with it. -/
def exit (s : Site ι η γ) (i : ι) (standing : Standing) : Site ι η γ :=
  { s.put i standing with holder := if s.holder = some i then none else s.holder }

/-- One step, where it is possible. -/
def step (workers : ι → Worker η γ) (s : Site ι η γ) : Act ι γ → Option (Site ι η γ)
  | .enter i product =>
      match s.standing i, s.holder, (workers i).request.validate with
      | .waiting, none, .ok _ =>
          let o := Prog.attempt ((workers i).runner.perform (workers i).request)
            { s.world with lock := .free, product := product }
          some { s.put i (.inside (returned o.1) (o.2.published.drop s.world.published.length)) with
            world := o.2
            holder := some i }
      | _, _, _ => none
  | .pass i lock product tick =>
      match s.standing i, lock, (workers i).request.validate with
      | .waiting, .free, _ => none
      | .waiting, lock, .ok _ =>
          let o := Prog.attempt ((workers i).runner.perform (workers i).request)
            { s.world with lock := lock, product := product, tick := tick }
          match returned o.1 with
          | some result => some (s.put i (.back result s.history.length))
          | none => some (s.put i .dead)
      | _, _, _ => none
  | .publish i =>
      match s.standing i with
      | .inside result (op :: rest) =>
          some { s.put i (.inside result rest) with history := s.history ++ [(i, op)] }
      | _ => none
  | .leave i =>
      match s.standing i with
      | .inside (some result) [] =>
          some { s.put i (.back result s.history.length) with
            holder := if s.world.lock = .free then none else some i }
      | .inside none [] => some (s.exit i .dead)
      | _ => none
  | .answer i =>
      match s.standing i with
      | .back result _ =>
          some (s.exit i (.answered (Runner.respond (workers i).request result s.shown)))
      | _ => none
  | .perish i =>
      match s.standing i with
      | .back _ _ => some (s.exit i .dead)
      | _ => none

/-- A run, step by step. -/
def run (workers : ι → Worker η γ) (s : Site ι η γ) : List (Act ι γ) → Option (Site ι η γ)
  | [] => some s
  | act :: acts => (s.step workers act).bind fun s' => s'.run workers acts

/-! ## what a worker says -/

section

variable {workers : ι → Worker η γ} {s t : Site ι η γ}

/-- The operation a worker records. -/
def own (workers : ι → Worker η γ) (i : ι) : Option String :=
  Runner.recordedBy (workers i).request

/-- The last record that the run of `i` put in place of its own operation. -/
def recorded (workers : ι → Worker η γ) (s : Site ι η γ) (i : ι) : Option Operation :=
  ((s.history.filter fun entry => entry.1 = i ∧ own workers i = some entry.2.id).getLast?).map
    Prod.snd

/-- The response of `i` is about its own operation `id`: it shows its record, its exit code is
that of the outcome its run recorded, and a promotion is not reported as anything worse. -/
structure ReportsOwn (workers : ι → Worker η γ) (s : Site ι η γ) (i : ι) (id : String)
    (response : Response) : Prop where
  operation : response.operation.Shows id
  exitCode : ∀ op outcome, s.recorded workers i = some op → op.outcome = some outcome →
    response.exitCode = outcome.exitCode
  promoted : ∀ op, s.recorded workers i = some op → op.outcome = some .promoted →
    response.result ≠ "failed" ∧ response.result ≠ "recovery-required"

/-- After the first `n` records another operation was recorded by the worker it belongs to. -/
def Overtaken (workers : ι → Worker η γ) (s : Site ι η γ) (n : Nat) : Prop :=
  ∃ entry ∈ s.history.drop n, own workers entry.1 = some entry.2.id

/-- The error a body ended in goes with the outcome it recorded: a definite error after a failure
or a rollback. -/
def Agrees (result : Except Error (String × Nat)) (recorded : Option Operation) : Prop :=
  ∀ err op outcome, result = .error err → recorded = some op → op.outcome = some outcome →
    outcome.exitCode = 1 ∧ err.isUncertain = false

/-- Before its answer, the worker `i` has nothing but its own operation to report: it replays a
receipt, or it came back when `operation.json` showed its operation, no other was recorded by its
worker since, and it had not failed after the fact. -/
def Undisturbed (workers : ι → Worker η γ) (s : Site ι η γ) (i : ι) (id : String) : Prop :=
  ∃ result since, s.standing i = .back result since ∧
    ((∃ op, result = .error (.replay op)) ∨
      (s.shownAt since).Shows id ∧ ¬s.Overtaken workers since ∧
        Agrees result (s.recorded workers i))

/-! ## the invariant -/

/-- A body that is over. -/
structure IsBack (workers : ι → Worker η γ) (s : Site ι η γ) (i : ι)
    (result : Except Error (String × Nat)) (since : Nat) : Prop where
  since_le : since ≤ s.history.length
  later : ∀ entry ∈ s.history.drop since, entry.1 ≠ i
  recorded : ∀ op, s.recorded workers i = some op → s.shownAt since = .observed op
  comes : ∀ version id targetVersion consented,
    (workers i).request = .upgrade version id targetVersion consented →
    Runner.Comes ⟨id, targetVersion⟩ (s.recorded workers i = none) (s.shownAt since) result

/-- A body that is coming to light. -/
structure IsInside (workers : ι → Worker η γ) (s : Site ι η γ) (i : ι)
    (result : Option (Except Error (String × Nat))) (rest : List Operation) : Prop where
  holder : s.holder = some i
  linked : LinkedAll s.shown (rest.map fun op => (own workers i, op))
  read : s.world.disk.readOperation = latest s.shown rest
  recorded : ∀ op, s.recorded workers i = some op → s.shown = .observed op
  comes : ∀ version id targetVersion consented,
    (workers i).request = .upgrade version id targetVersion consented → ∀ x, result = some x →
    Runner.Comes ⟨id, targetVersion⟩ (s.recorded workers i = none ∧ rest = [])
      s.world.disk.readOperation x

structure Sound (workers : ι → Worker η γ) (s : Site ι η γ) : Prop where
  linked : LinkedAll s.first (s.history.map fun entry => (own workers entry.1, entry.2))
  waiting : ∀ i, s.standing i = .waiting → ∀ entry ∈ s.history, entry.1 ≠ i
  inside : ∀ i result rest, s.standing i = .inside result rest →
    IsInside workers s i result rest
  idle : (∀ i result rest, s.standing i ≠ .inside result rest) →
    s.world.disk.readOperation = s.shown
  back : ∀ i result since, s.standing i = .back result since →
    IsBack workers s i result since

/-- The site is sound before any step. -/
theorem start_sound (workers : ι → Worker η γ) (w : World η γ) : Sound workers (start w) where
  linked := trivial
  waiting _ _ _ h := by cases h
  inside _ _ _ h := by cases h
  idle _ := rfl
  back _ _ _ h := by cases h

/-- Nothing of a worker that has recorded nothing. -/
theorem recorded_eq_none {i : ι} (h : ∀ entry ∈ s.history, entry.1 ≠ i) :
    s.recorded workers i = none := by
  have hnil : (s.history.filter fun entry => entry.1 = i ∧ own workers i = some entry.2.id) = [] := by
    rw [List.filter_eq_nil_iff]
    intro entry hentry
    simp [h entry hentry]
  rw [recorded, hnil]
  rfl

omit [DecidableEq ι] in
/-- What is shown now. -/
theorem shownAt_length (s : Site ι η γ) : s.shownAt s.history.length = s.shown := by
  rw [shownAt, shown, List.take_length]

/-! ## the steps -/

/-- A worker that is back stays so while others act. -/
theorem IsBack.same {i : ι} {result : Except Error (String × Nat)} {since : Nat}
    (h : IsBack workers s i result since) (hfirst : t.first = s.first)
    (hhistory : t.history = s.history) : IsBack workers t i result since := by
  have hrecorded : t.recorded workers i = s.recorded workers i := by
    rw [Site.recorded, Site.recorded, hhistory]
  have hshown : t.shownAt since = s.shownAt since := by
    rw [shownAt, shownAt, hfirst, hhistory]
  constructor
  · rw [hhistory]
    exact h.since_le
  · rw [hhistory]
    exact h.later
  · rw [hrecorded, hshown]
    exact h.recorded
  · rw [hrecorded, hshown]
    exact h.comes

/-- A worker inside stays so while no record is published. -/
theorem IsInside.same {i : ι} {result : Option (Except Error (String × Nat))} {rest : List Operation}
    (h : IsInside workers s i result rest) (hfirst : t.first = s.first)
    (hhistory : t.history = s.history) (hholder : t.holder = s.holder)
    (hread : t.world.disk.readOperation = s.world.disk.readOperation) :
    IsInside workers t i result rest := by
  have hrecorded : t.recorded workers i = s.recorded workers i := by
    rw [Site.recorded, Site.recorded, hhistory]
  have hshown : t.shown = s.shown := by
    rw [shown, shown, hfirst, hhistory]
  constructor
  · rw [hholder]
    exact h.holder
  · rw [hshown]
    exact h.linked
  · rw [hread, hshown]
    exact h.read
  · rw [hrecorded, hshown]
    exact h.recorded
  · rw [hrecorded, hread]
    exact h.comes

/-- **A step that brings no record to light**: what has to be shown about the worker `i` that
takes it. -/
theorem Sound.quiet (h : s.Sound workers) (i : ι) (hfirst : t.first = s.first)
    (hhistory : t.history = s.history) (hothers : ∀ j, j ≠ i → t.standing j = s.standing j)
    (hwaiting : t.standing i ≠ .waiting)
    (hinside : ∀ result rest, t.standing i = .inside result rest →
      IsInside workers t i result rest)
    (hback : ∀ result since, t.standing i = .back result since →
      IsBack workers t i result since)
    (hundisturbed : ∀ j result rest, j ≠ i → s.standing j = .inside result rest →
      t.holder = s.holder ∧ t.world.disk.readOperation = s.world.disk.readOperation)
    (hidle : (∀ j result rest, t.standing j ≠ .inside result rest) →
      t.world.disk.readOperation = t.shown) : t.Sound workers where
  linked := by
    rw [hfirst, hhistory]
    exact h.linked
  waiting j hj := by
    by_cases hji : j = i
    · subst hji
      exact absurd hj hwaiting
    · rw [hhistory]
      exact h.waiting j ((hothers j hji).symm.trans hj)
  inside j result rest hj := by
    by_cases hji : j = i
    · subst hji
      exact hinside result rest hj
    · rw [hothers j hji] at hj
      obtain ⟨hholder, hread⟩ := hundisturbed j result rest hji hj
      exact (h.inside j result rest hj).same hfirst hhistory hholder hread
  idle := hidle
  back j result since hj := by
    by_cases hji : j = i
    · subst hji
      exact hback result since hj
    · rw [hothers j hji] at hj
      exact (h.back j result since hj).same hfirst hhistory

/-- What a body leaves, however it ends. -/
theorem body_adds {r : Runner η γ} (hr : r.Surroundings Error.NotReplay) (request : Request)
    (w₀ : World η γ) :
    ∃ new, Adds (Runner.recordedBy request) w₀ new (Prog.attempt (r.perform request) w₀).2 ∧
      ∀ version id targetVersion consented, request = .upgrade version id targetVersion consented →
        ∀ x, returned (Prog.attempt (r.perform request) w₀).1 = some x →
          Runner.Comes ⟨id, targetVersion⟩ (new = [])
            (Prog.attempt (r.perform request) w₀).2.disk.readOperation x := by
  have hrecords : Triple (· = w₀) (Prog.attempt (r.perform request))
      (fun _ => Continues (Runner.recordedBy request) w₀)
      (fun _ => Continues (Runner.recordedBy request) w₀) :=
    Triple.attempt ((Runner.perform_adds hr request w₀).conseq (fun _ hw => hw) (fun _ _ hw => hw)
      fun err _ hw => by cases err <;> exact hw.1)
  cases request with
  | upgrade version id targetVersion consented =>
      have hcomes := Runner.perform_comes hr version id targetVersion consented w₀ w₀ rfl
      generalize Prog.attempt (r.perform (.upgrade version id targetVersion consented)) w₀ = o
        at hcomes ⊢
      obtain ⟨o, w⟩ := o
      cases o with
      | ok result =>
          obtain ⟨new, hnew, hcomes⟩ := hcomes
          refine ⟨new, hnew, fun _ _ _ _ he x hx => ?_⟩
          cases he
          cases hx
          exact hcomes
      | err err =>
          obtain ⟨new, hnew⟩ := hcomes
          exact ⟨new, hnew, fun _ _ _ _ _ _ hx => by cases hx⟩
      | crash =>
          obtain ⟨new, hnew⟩ := hcomes
          exact ⟨new, hnew, fun _ _ _ _ _ _ hx => by cases hx⟩
  | recover version expected =>
      obtain ⟨new, hnew⟩ := Triple.leaves hrecords rfl
      exact ⟨new, hnew, fun _ _ _ _ he => by cases he⟩
  | status version =>
      obtain ⟨new, hnew⟩ := Triple.leaves hrecords rfl
      exact ⟨new, hnew, fun _ _ _ _ he => by cases he⟩

/-- What an upgrade comes to that finds the lock taken. -/
theorem body_busy {r : Runner η γ} (hr : r.Surroundings Error.NotReplay) {request : Request}
    (last : OperationRead) {w₀ : World η γ} {version : Nat} {id targetVersion : String}
    {consented : Bool} (he : request = .upgrade version id targetVersion consented)
    {x : Except Error (String × Nat)}
    (hx : returned (Prog.attempt (r.perform request) w₀).1 = some x) (hlock : w₀.lock ≠ .free) :
    Runner.Comes ⟨id, targetVersion⟩ True last x := by
  subst he
  have hcomes := Runner.perform_busy hr version id targetVersion consented last hlock w₀ rfl
  generalize Prog.attempt (r.perform (.upgrade version id targetVersion consented)) w₀ = o
    at hcomes hx
  obtain ⟨o, w⟩ := o
  cases o with
  | ok result =>
      cases hx
      exact hcomes
  | err err => cases hx
  | crash => cases hx

/-- **A body is run** under the lock, when nobody has it. -/
theorem Sound.enter (hr : ∀ i, (workers i).runner.Surroundings Error.NotReplay)
    (h : s.Sound workers) {i : ι} {product : γ}
    (hstep : s.step workers (.enter i product) = some t) : t.Sound workers := by
  unfold step at hstep
  dsimp only at hstep
  split at hstep
  · next hwaiting hholder hvalid =>
      simp only [Option.some.injEq] at hstep
      subst hstep
      have hnobody : ∀ j result rest, s.standing j ≠ .inside result rest := by
        intro j result rest hj
        rw [(h.inside j result rest hj).holder] at hholder
        cases hholder
      have hshown : s.world.disk.readOperation = s.shown := h.idle hnobody
      have hnone : s.recorded workers i = none := recorded_eq_none (h.waiting i hwaiting)
      obtain ⟨new, hnew, hcomes⟩ := body_adds (hr i) (workers i).request
        { s.world with lock := .free, product := product }
      have hrest : (Prog.attempt ((workers i).runner.perform (workers i).request)
          { s.world with lock := .free, product := product }).2.published.drop
            s.world.published.length = new := by
        rw [hnew.published]
        exact List.drop_left
      refine h.quiet i rfl rfl (fun j hj => Function.update_of_ne hj _ _) ?_ ?_ ?_ ?_ ?_
      · simp [put]
      · intro result rest hinside
        simp only [put, Function.update_self, Standing.inside.injEq] at hinside
        obtain ⟨rfl, rfl⟩ := hinside
        rw [hrest]
        refine ⟨rfl, ?_, ?_, ?_, ?_⟩
        · have hlinked := hnew.linked
          exact hshown ▸ hlinked
        · have hread := hnew.read
          exact hshown ▸ hread
        · intro op hop
          exact absurd (hnone.symm.trans hop) (by simp)
        · intro version id targetVersion consented he x hx
          exact (hcomes version id targetVersion consented he x hx).imp fun h => ⟨hnone, h⟩
      · intro result since hback
        simp [put] at hback
      · intro j result rest _ hj
        exact absurd hj (hnobody j result rest)
      · intro hidle
        exact absurd (Function.update_self i _ _) (hidle i _ _)
  · cases hstep

/-- A worker that never got the lock is back, and has recorded nothing. -/
theorem Sound.pass (hr : ∀ i, (workers i).runner.Surroundings Error.NotReplay)
    (h : s.Sound workers) {i : ι} {lock : LockState} {product : γ} {tick : Nat}
    (hstep : s.step workers (.pass i lock product tick) = some t) : t.Sound workers := by
  -- the others, and the directory, are as they were
  have hmoved : ∀ standing, s.standing i = .waiting → standing ≠ .waiting →
      (∀ result rest, standing ≠ .inside result rest) →
      (∀ result since, standing = .back result since →
        IsBack workers (s.put i standing) i result since) → (s.put i standing).Sound workers := by
    intro standing hwaiting hnot hout hback
    refine h.quiet i rfl rfl (fun j hj => Function.update_of_ne hj _ _) ?_ ?_ ?_ ?_ ?_
    · simpa [put] using hnot
    · intro result rest hinside
      exact absurd ((Function.update_self i _ _).symm.trans hinside) (hout result rest)
    · intro result since hstanding
      exact hback result since ((Function.update_self i _ _).symm.trans hstanding)
    · exact fun _ _ _ _ _ => ⟨rfl, rfl⟩
    · intro hidle
      refine h.idle fun j result rest hj => ?_
      by_cases hji : j = i
      · subst hji
        rw [hwaiting] at hj
        cases hj
      · exact hidle j result rest ((Function.update_of_ne hji _ _).trans hj)
  unfold step at hstep
  dsimp only at hstep
  split at hstep
  · cases hstep
  · next hwaiting hbusy hvalid =>
      split at hstep
      · next result hresult =>
          cases hstep
          refine hmoved _ hwaiting (by simp) (by simp) ?_
          intro result' since hback
          cases hback
          have hnobody := h.waiting i hwaiting
          have hnone : s.recorded workers i = none := recorded_eq_none hnobody
          refine ⟨Nat.le_refl _, ?_, ?_, ?_⟩
          · simp [put]
          · intro op hop
            exact absurd (hnone.symm.trans hop) (by simp)
          · intro version id targetVersion consented he
            exact (body_busy (hr i) (s.shownAt s.history.length) he hresult hbusy).imp fun _ => hnone
      · cases hstep
        exact hmoved _ hwaiting (by simp) (by simp) (by simp)
  · cases hstep

/-- What a worker recorded is its own operation. -/
theorem own_of_recorded {i : ι} {op : Operation} (h : s.recorded workers i = some op) :
    own workers i = some op.id := by
  obtain ⟨entry, hentry, rfl⟩ := Option.map_eq_some_iff.mp h
  have hmem := List.mem_of_getLast? hentry
  simp only [List.mem_filter, decide_eq_true_eq] at hmem
  exact hmem.2.2

/-- A record of another worker is none of `i`. -/
theorem recorded_publish_of_ne {i j : ι} {op : Operation} (hji : i ≠ j)
    (hhistory : t.history = s.history ++ [(i, op)]) :
    t.recorded workers j = s.recorded workers j := by
  rw [recorded, recorded, hhistory, List.filter_append]
  simp [hji]

/-- A record of its own is what a worker recorded last. -/
theorem recorded_publish (i : ι) (op : Operation) (hhistory : t.history = s.history ++ [(i, op)]) :
    t.recorded workers i =
      if own workers i = some op.id then some op else s.recorded workers i := by
  rw [recorded, recorded, hhistory, List.filter_append]
  by_cases hown : own workers i = some op.id
  · simp [hown]
  · simp [hown]

/-- **A record comes to light.** -/
theorem Sound.publish (h : s.Sound workers) {i : ι}
    (hstep : s.step workers (.publish i) = some t) : t.Sound workers := by
  unfold step at hstep
  dsimp only at hstep
  split at hstep
  · next result op rest hinside =>
      simp only [Option.some.injEq] at hstep
      have hi := h.inside i _ _ hinside
      obtain ⟨hlinked, hrest⟩ := hi.linked
      have hfirst : t.first = s.first := by rw [← hstep]; rfl
      have hhistory : t.history = s.history ++ [(i, op)] := by rw [← hstep]
      have hself : t.standing i = .inside result rest := by
        rw [← hstep]
        exact Function.update_self i _ _
      have hothers : ∀ j, j ≠ i → t.standing j = s.standing j := by
        intro j hj
        rw [← hstep]
        exact Function.update_of_ne hj _ _
      have hworld : t.world = s.world := by rw [← hstep]; rfl
      have hholder : t.holder = s.holder := by rw [← hstep]; rfl
      have hshown : t.shown = .observed op := by
        rw [shown, hhistory, List.map_append]
        exact latest_concat _ _ op
      constructor
      · rw [hfirst, hhistory, List.map_append, linkedAll_append]
        refine ⟨h.linked, ?_, trivial⟩
        simpa [shown, Function.comp_def] using hlinked
      · intro j hj entry hentry
        have hji : j ≠ i := by
          intro hji
          rw [hji, hself] at hj
          cases hj
        rw [hhistory] at hentry
        rw [hothers j hji] at hj
        obtain hentry | hentry := List.mem_append.mp hentry
        · exact h.waiting j hj entry hentry
        · rw [List.mem_singleton.mp hentry]
          exact Ne.symm hji
      · intro j result' rest' hj
        by_cases hji : j = i
        · subst hji
          rw [hself, Standing.inside.injEq] at hj
          obtain ⟨rfl, rfl⟩ := hj
          refine ⟨hholder.trans hi.holder, ?_, ?_, ?_, ?_⟩
          · rw [hshown]
            exact hrest
          · rw [hworld, hshown]
            exact hi.read
          · intro op' hop'
            rw [recorded_publish j op hhistory] at hop'
            rw [hshown]
            split at hop'
            · cases hop'
              rfl
            · next hnot =>
                -- what it settled was its own operation, so this is its own operation, too
                have hbefore := hi.recorded op' hop'
                obtain hown | ⟨found, hfound, -, hid⟩ := hlinked
                · exact absurd hown hnot
                · rw [hbefore] at hfound
                  cases hfound
                  exact absurd (hid ▸ own_of_recorded hop') hnot
          · intro version id targetVersion consented he x hx
            rw [hworld]
            exact (hi.comes version id targetVersion consented he x hx).imp fun ⟨_, hnil⟩ => by
              cases hnil
        · -- the lock has one holder
          rw [hothers j hji] at hj
          have hj := (h.inside j _ _ hj).holder
          rw [hi.holder, Option.some.injEq] at hj
          exact absurd hj.symm hji
      · intro hidle
        exact absurd hself (hidle i result rest)
      · intro j result' since hj
        have hji : j ≠ i := by
          intro hji
          rw [hji, hself] at hj
          cases hj
        rw [hothers j hji] at hj
        have hback := h.back j result' since hj
        have hrecorded : t.recorded workers j = s.recorded workers j :=
          recorded_publish_of_ne (Ne.symm hji) hhistory
        have hsame : t.shownAt since = s.shownAt since := by
          rw [shownAt, shownAt, hfirst, hhistory, List.take_append_of_le_length hback.since_le]
        refine ⟨?_, ?_, ?_, ?_⟩
        · rw [hhistory, List.length_append]
          exact Nat.le_add_right_of_le hback.since_le
        · intro entry hentry
          rw [hhistory, List.drop_append_of_le_length hback.since_le] at hentry
          obtain hentry | hentry := List.mem_append.mp hentry
          · exact hback.later entry hentry
          · rw [List.mem_singleton.mp hentry]
            exact Ne.symm hji
        · rw [hrecorded, hsame]
          exact hback.recorded
        · rw [hrecorded, hsame]
          exact hback.comes
  · cases hstep

/-- A worker that has nothing more to bring to light exits. -/
theorem Sound.exit (h : s.Sound workers) {i : ι} {standing : Standing}
    (hwaiting : standing ≠ .waiting) (hinside : ∀ result rest, standing ≠ .inside result rest)
    (hback : ∀ result since, standing ≠ .back result since)
    (hlight : ∀ result rest, s.standing i = .inside result rest → rest = []) :
    (s.exit i standing).Sound workers := by
  have hself : (s.exit i standing).standing i = standing := Function.update_self i _ _
  refine h.quiet i rfl rfl (fun j hj => Function.update_of_ne hj _ _) ?_ ?_ ?_ ?_ ?_
  · rw [hself]
    exact hwaiting
  · intro result rest hi
    exact absurd (hself.symm.trans hi) (hinside result rest)
  · intro result since hi
    exact absurd (hself.symm.trans hi) (hback result since)
  · intro j result rest hji hj
    refine ⟨?_, rfl⟩
    have hholder := (h.inside j result rest hj).holder
    have hne : s.holder ≠ some i := by
      rw [hholder]
      simpa using hji
    exact if_neg hne
  · intro hidle
    show s.world.disk.readOperation = s.shown
    by_cases hi : ∃ result rest, s.standing i = .inside result rest
    · obtain ⟨result, rest, hi⟩ := hi
      have hnil := hlight result rest hi
      subst hnil
      exact (h.inside i result [] hi).read
    · refine h.idle fun j result rest hj => ?_
      by_cases hji : j = i
      · subst hji
        exact hi ⟨result, rest, hj⟩
      · exact hidle j result rest ((Function.update_of_ne hji _ _).trans hj)

/-- **The body is over.** -/
theorem Sound.leave (h : s.Sound workers) {i : ι}
    (hstep : s.step workers (.leave i) = some t) : t.Sound workers := by
  unfold step at hstep
  dsimp only at hstep
  split at hstep
  · next result hinside =>
      cases hstep
      have hi := h.inside i _ _ hinside
      refine h.quiet i rfl rfl (fun j hj => Function.update_of_ne hj _ _) ?_ ?_ ?_ ?_ ?_
      · simp [put]
      · simp [put]
      · intro result' since hback
        simp only [put, Function.update_self, Standing.back.injEq] at hback
        obtain ⟨rfl, rfl⟩ := hback
        refine ⟨Nat.le_refl _, ?_, ?_, ?_⟩
        · simp [put]
        · intro op hop
          have hshown := hi.recorded op hop
          rw [← shownAt_length] at hshown
          exact hshown
        · intro version id targetVersion consented he
          have hread : s.world.disk.readOperation = s.shownAt s.history.length :=
            hi.read.trans (shownAt_length s).symm
          have hcomes := hi.comes version id targetVersion consented he result rfl
          rw [hread] at hcomes
          exact hcomes.imp fun hsilent => hsilent.1
      · intro j result' rest' hji hj
        have hj := (h.inside j _ _ hj).holder
        rw [hi.holder, Option.some.injEq] at hj
        exact absurd hj.symm hji
      · exact fun _ => hi.read
  · next hinside =>
      cases hstep
      refine h.exit (by simp) (by simp) (by simp) fun result rest hi => ?_
      rw [hinside] at hi
      cases hi
      rfl
  · cases hstep

/-- **The answer.** -/
theorem Sound.answer (h : s.Sound workers) {i : ι}
    (hstep : s.step workers (.answer i) = some t) : t.Sound workers := by
  unfold step at hstep
  dsimp only at hstep
  split at hstep
  · next result since hback =>
      cases hstep
      refine h.exit (by simp) (by simp) (by simp) fun result rest hi => ?_
      rw [hback] at hi
      cases hi
  · cases hstep

/-- A worker that dies leaves the site sound. -/
theorem Sound.perish (h : s.Sound workers) {i : ι}
    (hstep : s.step workers (.perish i) = some t) : t.Sound workers := by
  unfold step at hstep
  dsimp only at hstep
  split at hstep
  · next result since hback =>
      cases hstep
      refine h.exit (by simp) (by simp) (by simp) fun result rest hi => ?_
      rw [hback] at hi
      cases hi
  · cases hstep

/-- **Every step keeps the site sound.** -/
theorem Sound.step (hr : ∀ i, (workers i).runner.Surroundings Error.NotReplay)
    (h : s.Sound workers) {act : Act ι γ} (hstep : s.step workers act = some t) :
    t.Sound workers := by
  cases act with
  | enter i product => exact h.enter hr hstep
  | pass i lock product tick => exact h.pass hr hstep
  | publish i => exact h.publish hstep
  | leave i => exact h.leave hstep
  | answer i => exact h.answer hstep
  | perish i => exact h.perish hstep

/-- **Every run does.** -/
theorem Sound.run (hr : ∀ i, (workers i).runner.Surroundings Error.NotReplay)
    (h : s.Sound workers) {acts : List (Act ι γ)} (hrun : s.run workers acts = some t) :
    t.Sound workers := by
  induction acts generalizing s with
  | nil =>
      cases hrun
      exact h
  | cons act acts ih =>
      obtain ⟨s', hstep, hrest⟩ := Option.bind_eq_some_iff.mp hrun
      exact ih (h.step hr hstep) hrest

/-! ## what is shown in the end -/

/-- What came to light since the worker is back. -/
theorem Sound.linked_since (h : s.Sound workers) (since : Nat) : LinkedAll (s.shownAt since)
    ((s.history.drop since).map fun entry => (own workers entry.1, entry.2)) := by
  have hall := h.linked
  rw [← List.take_append_drop since s.history, List.map_append, linkedAll_append] at hall
  simpa [shownAt, Function.comp_def] using hall.2

omit [DecidableEq ι] in
/-- What is shown is the latest since any time. -/
theorem shown_since (s : Site ι η γ) (since : Nat) :
    s.shown = latest (s.shownAt since) ((s.history.drop since).map Prod.snd) := by
  rw [shownAt, ← latest_append, ← List.map_append, List.take_append_drop]
  rfl

omit [DecidableEq ι] in
/-- Nobody overtook a worker if no record since is another's own. -/
theorem not_overtaken_iff (n : Nat) : ¬s.Overtaken workers n ↔
    ∀ entry ∈ (s.history.drop n).map fun entry => (own workers entry.1, entry.2),
      entry.1 ≠ some entry.2.id := by
  constructor
  · intro hnot entry hentry hown
    obtain ⟨origin, horigin, rfl⟩ := List.mem_map.mp hentry
    exact hnot ⟨origin, horigin, hown⟩
  · rintro hall ⟨entry, hentry, hown⟩
    exact hall _ (List.mem_map_of_mem hentry) hown

/-- **The operation of a worker that is back is shown** if and only if it was shown when the
worker came back, and nobody has recorded an operation of their own since. -/
theorem Sound.shown_iff (h : s.Sound workers)
    (hids : ∀ i j id, own workers i = some id → own workers j = some id → i = j) {i : ι}
    {id : String} (hid : own workers i = some id) {result : Except Error (String × Nat)}
    {since : Nat} (hback : s.standing i = .back result since) :
    s.shown.Shows id ↔ (s.shownAt since).Shows id ∧ ¬s.Overtaken workers since := by
  have hothers : ∀ entry ∈ (s.history.drop since).map fun entry => (own workers entry.1, entry.2),
      entry.1 ≠ some id := by
    intro entry hentry hown
    obtain ⟨origin, horigin, rfl⟩ := List.mem_map.mp hentry
    exact (h.back i result since hback).later origin horigin (hids _ _ id hown hid)
  have hiff := (h.linked_since since).shows_iff hothers
  rw [not_overtaken_iff, ← hiff, shown_since s since]
  simp [Function.comp_def]

/-- A settled record is still there. -/
theorem Sound.shown_settled (h : s.Sound workers) {op : Operation} {since : Nat}
    (hop : s.shownAt since = .observed op) (ho : op.outcome ≠ none)
    (hnot : ¬s.Overtaken workers since) : s.shown = .observed op := by
  have hlinked := h.linked_since since
  rw [hop] at hlinked
  have hnil := hlinked.settled ((not_overtaken_iff since).mp hnot) ho
  rw [List.map_eq_nil_iff] at hnil
  rw [shown_since s since, hnil, hop]
  rfl

/-! ## the answer -/

/-- An error that is no replay and not busy, by what it says. -/
theorem respond_failure {request : Request} (hstatus : request.isStatus = false) {err : Error}
    {read : OperationRead} (hno : err.NotReplay)
    (hbusy : (Runner.respond request (.error err) read).result ≠ "busy") :
    (Runner.respond request (.error err) read).operation = read ∧
      ((Runner.respond request (.error err) read).exitCode = 3 ∧
          (read.Outstanding ∨ err.isUncertain = true) ∨
        (Runner.respond request (.error err) read).exitCode = 1 ∧
          ¬(read.Outstanding ∨ err.isUncertain = true)) := by
  obtain ⟨op, rfl⟩ | ⟨pid, rfl⟩ | ⟨-, hlocked⟩ := Runner.error_cases err
  · exact absurd rfl (hno op)
  · exact absurd (by simp [Runner.respond, Runner.report]) hbusy
  · obtain ⟨word, code, hreport, hword, hiff⟩ := Runner.report_error read hno hlocked
    rw [Runner.respond_operation, hreport]
    refine ⟨rfl, ?_⟩
    by_cases hunresolved : read.Outstanding ∨ err.isUncertain = true
    · rw [hiff.mpr hunresolved] at hreport
      exact .inl ⟨Runner.respond_unresolved hstatus hreport, hunresolved⟩
    · have hcode : code = 1 := by
        have hthree : code ≠ 3 := fun h => hunresolved (hiff.mp h)
        omega
      refine .inr ⟨?_, hunresolved⟩
      unfold Runner.respond
      rw [hreport, hcode]
      cases read with
      | unreadable reason => exact absurd (.inl trivial) hunresolved
      | genesis => simp
      | observed op => simp

/-- What an upgrade that recorded an outcome, and failed, is answered with. -/
theorem failure_reports (h : s.Sound workers) {i : ι} {id : String} {request : Request}
    (hstatus : request.isStatus = false) {err : Error} (hno : err.NotReplay)
    {since : Nat} (hback : IsBack workers s i (.error err) since)
    (hiff : s.shown.Shows id ↔ (s.shownAt since).Shows id ∧ ¬s.Overtaken workers since)
    (hbusy : (Runner.respond request (.error err) s.shown).result ≠ "busy") :
    ReportsOwn workers s i id (Runner.respond request (.error err) s.shown) ↔
      (s.shownAt since).Shows id ∧ ¬s.Overtaken workers since ∧
        Agrees (.error err) (s.recorded workers i) := by
  obtain ⟨hoperation, hcode⟩ := respond_failure hstatus hno hbusy
  -- an outcome that was recorded is still shown
  have hshown : ∀ op outcome, ¬s.Overtaken workers since → s.recorded workers i = some op →
      op.outcome = some outcome → s.shown = .observed op ∧ ¬s.shown.Outstanding := by
    intro op outcome hnot hop ho
    have hshown := h.shown_settled (hback.recorded op hop) (by simp [ho]) hnot
    rw [hshown]
    exact ⟨rfl, by simp [OperationRead.Outstanding, ho]⟩
  constructor
  · rintro ⟨hshows, hexit, -⟩
    rw [hoperation] at hshows
    obtain ⟨hleft, hnot⟩ := hiff.mp hshows
    refine ⟨hleft, hnot, fun err' op outcome he hop ho => ?_⟩
    cases he
    have hsame := hexit op outcome hop ho
    have hclosed := (hshown op outcome hnot hop ho).2
    obtain ⟨hthree, -⟩ | ⟨hone, hdefinite⟩ := hcode
    · rw [hthree] at hsame
      cases outcome <;> cases hsame
    · exact ⟨hsame.symm.trans hone, by simpa [hclosed] using hdefinite⟩
  · rintro ⟨hleft, hnot, hagrees⟩
    refine ⟨?_, fun op outcome hop ho => ?_, fun op hop ho => ?_⟩
    · rw [hoperation]
      exact hiff.mpr ⟨hleft, hnot⟩
    · obtain ⟨hone, hdefinite⟩ := hagrees err op outcome rfl hop ho
      have hclosed := (hshown op outcome hnot hop ho).2
      obtain ⟨-, hunresolved⟩ | ⟨hexit, -⟩ := hcode
      · simp [hclosed, hdefinite] at hunresolved
      · rw [hexit, hone]
    · cases (hagrees err op .promoted rfl hop ho).1

/-- An answer that is no error agrees with anything. -/
theorem agrees_ok {a : String × Nat} {recorded : Option Operation} : Agrees (.ok a) recorded :=
  fun _ _ _ h => by cases h

/-- What an upgrade is answered with, once it is back. -/
theorem Sound.reports_iff (h : s.Sound workers)
    (hids : ∀ i j id, own workers i = some id → own workers j = some id → i = j) {i : ι}
    {id : String} (hid : own workers i = some id) {result : Except Error (String × Nat)}
    {since : Nat} (hstanding : s.standing i = .back result since)
    (hbusy : (Runner.respond (workers i).request result s.shown).result ≠ "busy") :
    ReportsOwn workers s i id (Runner.respond (workers i).request result s.shown) ↔
      (∃ op, result = .error (.replay op)) ∨
        (s.shownAt since).Shows id ∧ ¬s.Overtaken workers since ∧
          Agrees result (s.recorded workers i) := by
  have hback := h.back i result since hstanding
  have hiff := h.shown_iff hids hid hstanding
  cases hrequest : (workers i).request with
  | status version => simp [own, hrequest, Runner.recordedBy] at hid
  | recover version expected => simp [own, hrequest, Runner.recordedBy] at hid
  | upgrade version id' targetVersion consented =>
      have hsame : id' = id := by simpa [own, hrequest, Runner.recordedBy] using hid
      subst hsame
      rw [hrequest] at hbusy
      have hcomes := hback.comes version id' targetVersion consented hrequest
      generalize hlast : s.shownAt since = last at hcomes
      cases hcomes with
      | managed hsilent =>
          have hnone : ∀ op, s.recorded workers i ≠ some op := fun op hop => by
            rw [hsilent] at hop
            cases hop
          rw [Runner.respond_held]
          constructor
          · rintro ⟨hshows, -, -⟩
            obtain ⟨hleft, hnot⟩ := hiff.mp hshows
            exact .inr ⟨hlast ▸ hleft, hnot, agrees_ok⟩
          · rintro (⟨op, hop⟩ | ⟨hleft, hnot, -⟩)
            · cases hop
            · exact ⟨hiff.mpr ⟨hlast ▸ hleft, hnot⟩, fun op _ hop => absurd hop (hnone op),
                fun op hop => absurd hop (hnone op)⟩
      | answered outcome op hop hfor ho =>
          subst hop
          constructor
          · rintro ⟨hshows, -, -⟩
            rw [Runner.respond_operation] at hshows
            obtain ⟨hleft, hnot⟩ := hiff.mp hshows
            exact .inr ⟨hlast ▸ hleft, hnot, agrees_ok⟩
          · rintro (⟨op, hop⟩ | ⟨-, hnot, -⟩)
            · cases hop
            · rw [h.shown_settled hlast (by simp [ho]) hnot,
                Runner.respond_answered rfl rfl hfor ho]
              have hrecorded : ∀ op', s.recorded workers i = some op' → op' = op := by
                intro op' hop'
                have hshown := (hback.recorded op' hop').symm.trans hlast
                cases hshown
                rfl
              refine ⟨⟨op, rfl, hfor.id⟩, fun op' outcome' hop' ho' => ?_, fun op' hop' ho' => ?_⟩
              · rw [hrecorded op' hop', ho, Option.some.injEq] at ho'
                rw [← ho']
              · rw [hrecorded op' hop', ho, Option.some.injEq] at ho'
                cases outcome with
                | promoted report => simp [Runner.answerOf]
                | _ => cases ho'
      | replayed op hfor ho hsame =>
          refine iff_of_true ?_ (.inl ⟨op, rfl⟩)
          have hexpected : (Request.upgrade version id' targetVersion consented).expected =
              some ⟨op.id, op.targetVersion⟩ := by
            rw [hfor.id, hfor.targetVersion]
            rfl
          rw [Runner.respond_replay hexpected]
          refine ⟨⟨op, rfl, hfor.id⟩, fun op' outcome hop' ho' => ?_, fun op' _ _ => ?_⟩
          · have hcurrent : last = .observed op := hsame.resolve_left fun hnone => by
              rw [hnone] at hop'
              cases hop'
            have hshown := (hback.recorded op' hop').symm.trans (hlast.trans hcurrent)
            cases hshown
            simp [Runner.replayed, OperationRead.exitCode, ho']
          · simp [Runner.replayed]
      | refused err hno =>
          rw [failure_reports h rfl hno hback hiff hbusy, hlast]
          constructor
          · exact .inr
          · rintro (⟨op, hop⟩ | hgood)
            · cases hop
              exact absurd rfl (hno op)
            · exact hgood

/-- **An answer is about the worker's own operation exactly when the worker was left undisturbed**:
in every run of any workers with different operations, for every answer to an upgrade that is not
busy. -/
theorem workers_report_own (workers : ι → Worker η γ)
    (hr : ∀ i, (workers i).runner.Surroundings Error.NotReplay)
    (hids : ∀ i j id, own workers i = some id → own workers j = some id → i = j) (w : World η γ)
    (acts : List (Act ι γ)) (s : Site ι η γ) (hrun : (start w).run workers acts = some s) (i : ι)
    (id : String) (hid : own workers i = some id) (t : Site ι η γ)
    (hstep : s.step workers (.answer i) = some t) (response : Response)
    (hanswer : t.standing i = .answered response) (hbusy : response.result ≠ "busy") :
    ReportsOwn workers t i id response ↔ s.Undisturbed workers i id := by
  have h : s.Sound workers := (start_sound workers w).run hr hrun
  unfold step at hstep
  dsimp only at hstep
  split at hstep
  · next result since hback =>
      cases hstep
      have hself : Standing.answered (Runner.respond (workers i).request result s.shown) =
          .answered response := (Function.update_self i _ _).symm.trans hanswer
      cases hself
      have hiff := h.reports_iff hids hid hback hbusy
      constructor
      · rintro ⟨hoperation, hexit, hpromoted⟩
        exact ⟨result, since, hback, hiff.mp ⟨hoperation, hexit, hpromoted⟩⟩
      · rintro ⟨result', since', hback', hgood⟩
        rw [hback, Standing.back.injEq] at hback'
        obtain ⟨rfl, rfl⟩ := hback'
        obtain ⟨hoperation, hexit, hpromoted⟩ := hiff.mpr hgood
        exact ⟨hoperation, hexit, hpromoted⟩
  · cases hstep

/-! ## a worker on its own -/

/-- Acts after acts. -/
theorem run_append (s : Site ι η γ) (acts acts' : List (Act ι γ)) :
    s.run workers (acts ++ acts') = (s.run workers acts).bind fun t => t.run workers acts' := by
  induction acts generalizing s with
  | nil => rfl
  | cons act acts ih =>
      rw [List.cons_append, run, run]
      cases s.step workers act with
      | none => rfl
      | some t => exact ih t

/-- All of a body comes to light. -/
theorem publish_all {i : ι} {result : Option (Except Error (String × Nat))} (rest : List Operation)
    (s : Site ι η γ) (h : s.standing i = .inside result rest) :
    ∃ t, s.run workers (List.replicate rest.length (.publish i)) = some t ∧
      t.standing i = .inside result [] ∧ t.world = s.world := by
  induction rest generalizing s with
  | nil => exact ⟨s, rfl, h, rfl⟩
  | cons op rest ih =>
      let next : Site ι η γ :=
        { s.put i (.inside result rest) with history := s.history ++ [(i, op)] }
      have hstep : s.step workers (.publish i) = some next := by
        simp only [step, h]
        rfl
      obtain ⟨t, hrun, hinside, hworld⟩ := ih next (Function.update_self i _ _)
      refine ⟨t, ?_, hinside, hworld⟩
      rw [List.length_cons, List.replicate_succ, run, hstep]
      exact hrun

/-- **A worker nobody interferes with answers as its runner does.** -/
theorem execute_alone (hr : ∀ i, (workers i).runner.Surroundings Error.NotReplay)
    (h : s.Sound workers) {i : ι} {product : γ} (hwaiting : s.standing i = .waiting)
    (hfree : s.holder = none) {response : Response} {w' : World η γ}
    (hexecute : (workers i).runner.execute (workers i).request
      { s.world with lock := .free, product := product } = (.ok response, w')) :
    ∃ n t, s.run workers (.enter i product :: (List.replicate n (.publish i) ++
        [.leave i, .answer i])) = some t ∧
      t.standing i = .answered response ∧ t.world = w' := by
  obtain ⟨hvalid, result, hattempt, rfl⟩ := Runner.execute_ok hexecute
  let rest := w'.published.drop s.world.published.length
  let entered : Site ι η γ :=
    { s.put i (.inside (some result) rest) with world := w', holder := some i }
  have henter : s.step workers (.enter i product) = some entered := by
    simp only [step, hwaiting, hfree, hvalid, hattempt]
    rfl
  obtain ⟨lit, hlit, hinside, hworld⟩ :=
    publish_all rest entered (Function.update_self i _ _)
  have hsound : lit.Sound workers := (h.step hr henter).run hr hlit
  let left : Site ι η γ :=
    { lit.put i (.back result lit.history.length) with
      holder := if lit.world.lock = .free then none else some i }
  have hleave : lit.step workers (.leave i) = some left := by
    simp only [step, hinside]
    rfl
  have hanswer : left.step workers (.answer i) =
      some (left.exit i (.answered (Runner.respond (workers i).request result left.shown))) := by
    have hback : left.standing i = .back result lit.history.length := Function.update_self i _ _
    simp only [step, hback]
  have hshown : left.shown = w'.disk.readOperation := by
    show lit.shown = _
    have hread := (hsound.inside i _ _ hinside).read
    rw [hworld] at hread
    exact hread.symm
  refine ⟨rest.length, left.exit i (.answered (Runner.respond (workers i).request result left.shown)),
    ?_, ?_, hworld⟩
  · rw [run, henter, Option.bind_some, run_append, hlit, Option.bind_some, run, hleave,
      Option.bind_some, run, hanswer]
    rfl
  · rw [← hshown]
    exact Function.update_self i _ _

end

end Site

namespace Service

/-! ## two workers -/

/-- An upgrade of `a` to "2" and one of `b` to "3". -/
def pair : Bool → Worker Service Unit
  | true => ⟨runner 7 Faults.clean, .upgrade 1 "a" "2" true⟩
  | false => ⟨runner 8 Faults.clean, .upgrade 1 "b" "3" true⟩

/-- Neither product replays a record itself. -/
theorem pair_surroundings (i : Bool) : (pair i).runner.Surroundings Error.NotReplay := by
  have hself : ∀ self, (runner self Faults.clean).Surroundings Error.NotReplay := fun self =>
    surroundings self (fun _ => pure [1]) Hooks.default (fun _ => Raises.pure _)
      (fun _ _ => Raises.pure _) (fun _ _ => Raises.pure _) fun _ _ => Raises.pure _
  cases i with
  | true => exact hself 7
  | false => exact hself 8

/-- The two workers have operations of their own. -/
theorem pair_distinct (i j : Bool) (id : String) (hi : Site.own pair i = some id)
    (hj : Site.own pair j = some id) : i = j := by
  cases i <;> cases j <;> first | rfl | (rw [← hi] at hj; exact absurd hj (by decide))

/-- The worker of `a`, from the lock to its return. -/
def promoteFirst : List (Site.Act Bool Unit) :=
  .enter true () :: (List.replicate 6 (.publish true) ++ [.leave true])

/-- What the worker of `a` answers after `acts`, and the last record of its run. -/
def answerAfter (acts : List (Site.Act Bool Unit)) :
    Option (Site Bool Service Unit × Site Bool Service Unit × Response) := do
  let s ← (Site.start (installed "1")).run pair acts
  let t ← s.step pair (.answer true)
  match t.standing true with
  | .answered response => some (s, t, response)
  | _ => none

/-- What the run of acts is, and the answer after it. -/
theorem answerAfter_some {acts : List (Site.Act Bool Unit)} {s t : Site Bool Service Unit}
    {response : Response} (h : answerAfter acts = some (s, t, response)) :
    (Site.start (installed "1")).run pair acts = some s ∧ s.step pair (.answer true) = some t ∧
      t.standing true = .answered response := by
  obtain ⟨s', hrun, h⟩ := Option.bind_eq_some_iff.mp h
  obtain ⟨t', hstep, h⟩ := Option.bind_eq_some_iff.mp h
  split at h
  · next response' hanswer =>
      cases h
      exact ⟨hrun, hstep, hanswer⟩
  · cases h

/-- `a` was promoted; `b` opens its record before `a` reads, and `a` is answered as failed. -/
theorem promotion_reported_failed :
    ∃ (acts : List (Site.Act Bool Unit)) (s t : Site Bool Service Unit) (response : Response),
      (Site.start (installed "1")).run pair acts = some s ∧ s.step pair (.answer true) = some t ∧
      t.standing true = .answered response ∧
      (∃ op, t.recorded pair true = some op ∧ op.outcome = some .promoted) ∧
      response.result = "failed" ∧ response.exitCode = 1 ∧
      ¬Site.ReportsOwn pair t true "a" response := by
  have hcheck : ((answerAfter (promoteFirst ++ [.enter false (), .publish false])).any fun run =>
      run.2.2.result == "failed" && run.2.2.exitCode == 1 &&
        (run.2.1.recorded pair true).any fun op => op.outcome == some .promoted) = true := by
    decide +kernel
  obtain ⟨⟨s, t, response⟩, hrun, hshown⟩ := (Option.any_eq_true _ _).mp hcheck
  obtain ⟨hs, ht, hanswer⟩ := answerAfter_some hrun
  simp only [Bool.and_eq_true, beq_iff_eq, Option.any_eq_true] at hshown
  obtain ⟨⟨hresult, hcode⟩, op, hop, ho⟩ := hshown
  exact ⟨_, s, t, response, hs, ht, hanswer, ⟨op, hop, ho⟩, hresult, hcode,
    fun hown => (hown.promoted op hop ho).1 hresult⟩

/-- The worker `who` has its result, and the record it will read is that of the operation `id`. -/
def showsOwn (s : Site Bool Service Unit) (who : Bool) (id : String) : Bool :=
  match s.standing who with
  | .back (.ok _) since =>
      since == s.history.length && (s.shownAt since).shows fun op => op.id == id
  | _ => false

/-- A worker whose operation is shown was not disturbed. -/
theorem undisturbed_of_showsOwn {s : Site Bool Service Unit} {who : Bool} {id : String}
    (h : showsOwn s who id = true) : s.Undisturbed pair who id := by
  unfold showsOwn at h
  split at h
  · next a since hback =>
      simp only [Bool.and_eq_true, beq_iff_eq] at h
      obtain ⟨hsince, hshown⟩ := h
      obtain ⟨op, hop, hid⟩ := OperationRead.shows_iff.mp hshown
      refine ⟨.ok a, since, hback, .inr ⟨⟨op, hop, beq_iff_eq.mp hid⟩, ?_, Site.agrees_ok⟩⟩
      rintro ⟨entry, hentry, -⟩
      rw [hsince, List.drop_length] at hentry
      cases hentry
  · cases h

/-- `b` takes the lock before `a` reads, and records its operation later. -/
theorem promotion_reported :
    ∃ (s t : Site Bool Service Unit) (response : Response),
      (Site.start (installed "1")).run pair (promoteFirst ++ [.enter false ()]) = some s ∧
      s.step pair (.answer true) = some t ∧ t.standing true = .answered response ∧
      Site.ReportsOwn pair t true "a" response := by
  have hcheck : ((answerAfter (promoteFirst ++ [.enter false ()])).any fun run =>
      run.2.2.result == "promoted" && showsOwn run.1 true "a") = true := by decide +kernel
  obtain ⟨⟨s, t, response⟩, hrun, hshown⟩ := (Option.any_eq_true _ _).mp hcheck
  obtain ⟨hs, ht, hanswer⟩ := answerAfter_some hrun
  simp only [Bool.and_eq_true, beq_iff_eq] at hshown
  obtain ⟨hresult, howned⟩ := hshown
  exact ⟨s, t, response, hs, ht, hanswer,
    (Site.workers_report_own pair pair_surroundings pair_distinct (installed "1") _ s hs true "a"
      rfl t ht response hanswer (by rw [hresult]; decide)).mpr (undisturbed_of_showsOwn howned)⟩

end Service

end KCarrier
