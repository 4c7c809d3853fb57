import KCarrier.Runner.Answer
import KCarrier.Runner.Attribution

/-!
# KCarrier.Runner.Records

What one request puts into `operation.json`, in order.

A request records its own operation; before that it may give the operation it finds open its
outcome, and nothing else (`Linked`).  `perform_adds` says so wherever the request is cut off.
For an upgrade `perform_comes` adds what its result says about the record that is there in the
end, and `perform_busy` what it comes to without the lock.
-/

namespace KCarrier

open Crash
open Running

/-! ## records that follow on -/

/-- The record a reader finds after `ops` were recorded over `shown`. -/
def latest (shown : OperationRead) (ops : List Operation) : OperationRead :=
  ops.foldl (fun _ op => .observed op) shown

@[simp] theorem latest_nil (shown : OperationRead) : latest shown [] = shown := rfl

@[simp] theorem latest_cons (shown : OperationRead) (op : Operation) (ops : List Operation) :
    latest shown (op :: ops) = latest (.observed op) ops := rfl

@[simp] theorem latest_concat (shown : OperationRead) (ops : List Operation) (op : Operation) :
    latest shown (ops ++ [op]) = .observed op := by
  simp [latest]

/-- The latest of two runs of records. -/
theorem latest_append (shown : OperationRead) (ops ops' : List Operation) :
    latest shown (ops ++ ops') = latest (latest shown ops) ops' := List.foldl_append

/-- A request that records the operation `own` may put `op` where `shown` was: a record of its
own, or one of the operation that was open. -/
def Linked (own : Option String) (shown : OperationRead) (op : Operation) : Prop :=
  own = some op.id ∨ ∃ found, shown = .observed found ∧ found.outcome = none ∧ op.id = found.id

/-- Each record is linked to the one before it, on behalf of the operation beside it. -/
def LinkedAll : OperationRead → List (Option String × Operation) → Prop
  | _, [] => True
  | shown, (own, op) :: rest => Linked own shown op ∧ LinkedAll (.observed op) rest

/-- A run of records that follows on goes on from its last. -/
theorem linkedAll_append {shown : OperationRead} {xs ys : List (Option String × Operation)} :
    LinkedAll shown (xs ++ ys) ↔
      LinkedAll shown xs ∧ LinkedAll (latest shown (xs.map Prod.snd)) ys := by
  induction xs generalizing shown with
  | nil => simp [LinkedAll]
  | cons x xs ih => simp [LinkedAll, ih, and_assoc]

/-- `operation.json` shows a record of the operation `id`. -/
def OperationRead.Shows (read : OperationRead) (id : String) : Prop :=
  ∃ op, read = .observed op ∧ op.id = id

/-- A record shows its own operation. -/
theorem shows_observed {op : Operation} {id : String} :
    (OperationRead.observed op).Shows id ↔ op.id = id := by
  constructor
  · rintro ⟨op', hop, hid⟩
    cases hop
    exact hid
  · exact fun hid => ⟨op, rfl, hid⟩

/-- A record on behalf of nobody else than `own` shows another operation than `id` if the one
before it does. -/
theorem Linked.shows {own : Option String} {shown : OperationRead} {op : Operation} {id : String}
    (h : Linked own shown op) (hown : own ≠ some id) (hid : op.id = id) : shown.Shows id := by
  obtain hself | ⟨found, hfound, -, hsame⟩ := h
  · exact absurd (hid ▸ hself) hown
  · exact ⟨found, hfound, hsame.symm.trans hid⟩

/-- An operation nobody records any more is shown in the end only if it is shown at first. -/
theorem LinkedAll.shows {shown : OperationRead} {ops : List (Option String × Operation)} {id : String}
    (h : LinkedAll shown ops) (hothers : ∀ entry ∈ ops, entry.1 ≠ some id)
    (hid : (latest shown (ops.map Prod.snd)).Shows id) : shown.Shows id := by
  induction ops generalizing shown with
  | nil => exact hid
  | cons entry ops ih =>
      have hnext := ih h.2 (fun e he => hothers e (List.mem_cons_of_mem _ he)) hid
      exact h.1.shows (hothers entry List.mem_cons_self) (shows_observed.mp hnext)

/-- Records that settle what is open stay with the operation that is shown. -/
theorem LinkedAll.settles {shown : OperationRead} {ops : List (Option String × Operation)}
    {id : String} (h : LinkedAll shown ops) (hsettles : ∀ entry ∈ ops, entry.1 ≠ some entry.2.id)
    (hid : shown.Shows id) : (latest shown (ops.map Prod.snd)).Shows id := by
  induction ops generalizing shown with
  | nil => exact hid
  | cons entry ops ih =>
      refine ih h.2 (fun e he => hsettles e (List.mem_cons_of_mem _ he)) ?_
      obtain hself | ⟨found, hfound, -, hsame⟩ := h.1
      · exact absurd hself (hsettles entry List.mem_cons_self)
      · rw [hfound, shows_observed] at hid
        exact shows_observed.mpr (hsame.trans hid)

/-- A settled record stays until another operation is recorded. -/
theorem LinkedAll.settled {op : Operation} {ops : List (Option String × Operation)}
    (h : LinkedAll (.observed op) ops) (hsettles : ∀ entry ∈ ops, entry.1 ≠ some entry.2.id)
    (ho : op.outcome ≠ none) : ops = [] := by
  cases ops with
  | nil => rfl
  | cons entry ops =>
      obtain hself | ⟨found, hfound, hopen, -⟩ := h.1
      · exact absurd hself (hsettles entry List.mem_cons_self)
      · cases hfound
        exact absurd hopen ho

/-- **An operation nobody records any more** is shown in the end if and only if it is shown at
first and no other operation was recorded. -/
theorem LinkedAll.shows_iff {shown : OperationRead} {ops : List (Option String × Operation)}
    {id : String} (h : LinkedAll shown ops) (hothers : ∀ entry ∈ ops, entry.1 ≠ some id) :
    (latest shown (ops.map Prod.snd)).Shows id ↔
      shown.Shows id ∧ ∀ entry ∈ ops, entry.1 ≠ some entry.2.id := by
  constructor
  · intro hid
    refine ⟨h.shows hothers hid, fun entry hentry hself => ?_⟩
    obtain ⟨before, after, rfl⟩ := List.append_of_mem hentry
    obtain ⟨-, -, hafter⟩ := linkedAll_append.mp h
    have hlast : (OperationRead.observed entry.2).Shows id := by
      refine hafter.shows (fun e he => hothers e ?_) ?_
      · exact List.mem_append_right _ (List.mem_cons_of_mem _ he)
      · simpa [latest, List.foldl_append] using hid
    rw [shows_observed] at hlast
    exact hothers entry hentry (hlast ▸ hself)
  · exact fun ⟨hid, hsettles⟩ => h.settles hsettles hid

/-! ## the records of a world -/

section

variable {η γ : Type}

/-- The records of a world, the oldest first. -/
def World.published (w : World η γ) : List Operation := (recordsOf w.log).map Prod.fst

/-- Since `w₀` the records `new` were put into `operation.json`, on behalf of `own`. -/
structure Adds (own : Option String) (w₀ : World η γ) (new : List Operation) (w : World η γ) :
    Prop where
  published : w.published = w₀.published ++ new
  read : w.disk.readOperation = latest w₀.disk.readOperation new
  linked : LinkedAll w₀.disk.readOperation (new.map fun op => (own, op))

/-- Whatever was recorded since `w₀` was recorded on behalf of `own`. -/
def Continues (own : Option String) (w₀ w : World η γ) : Prop := ∃ new, Adds own w₀ new w

variable {own : Option String} {w₀ w : World η γ} {new : List Operation}

theorem Adds.refl (own : Option String) (w : World η γ) : Adds own w [] w :=
  ⟨(List.append_nil _).symm, rfl, trivial⟩

/-- Adding records continues them. -/
theorem Adds.continues (h : Adds own w₀ new w) : Continues own w₀ w := ⟨new, h⟩

/-- Nothing was added where the history shows nothing. -/
theorem Adds.eq_nil (h : Adds own w₀ new w) (hsame : w.published = w₀.published) : new = [] :=
  List.append_cancel_left ((h.published.symm.trans hsame).trans (List.append_nil _).symm)

/-- What was added is about the record and the records. -/
theorem Adds.same {w' : World η γ} (h : Adds own w₀ new w)
    (hop : w'.disk.operation = w.disk.operation) (hrecords : recordsOf w'.log = recordsOf w.log) :
    Adds own w₀ new w' := by
  refine ⟨?_, ?_, h.linked⟩
  · rw [← h.published, World.published, World.published, hrecords]
  · rw [Disk.readOperation_congr hop]
    exact h.read

/-- Where the records are the same so is their list. -/
theorem records_eq {w w' : World η γ} (h : SameRecords w w') : recordsOf w'.log = recordsOf w.log := by
  rw [← recordsOf_filter, h.2, recordsOf_filter]

/-- What was added is about the records. -/
theorem adds_about (own : Option String) (w₀ : World η γ) (new : List Operation) :
    AboutRecords (Adds own w₀ new) :=
  fun _ _ hsame h => h.same hsame.1.1 (records_eq hsame)

/-- So is what continues them. -/
theorem continues_about (own : Option String) (w₀ : World η γ) :
    AboutRecords (Continues own w₀) :=
  fun _ _ hsame ⟨new, h⟩ => ⟨new, h.same hsame.1.1 (records_eq hsame)⟩

/-- It is about the history. -/
theorem continues_history (own : Option String) (w₀ : World η γ) :
    AboutHistory (Continues own w₀) :=
  fun _ _ hsame ⟨new, h⟩ => ⟨new, h.same hsame.operation hsame.records⟩

/-- **One more record.** -/
theorem Continues.record (h : Continues own w₀ w) {op : Operation} (hv : op.validate = .ok ())
    (hlinked : Linked own w.disk.readOperation op) : Continues own w₀ (w.record op) := by
  obtain ⟨new, h⟩ := h
  rw [h.read] at hlinked
  refine ⟨new ++ [op], ?_, ?_, ?_⟩
  · show (recordsOf (w.log ++ [.recorded op _])).map Prod.fst = _
    rw [recordsOf_recorded, List.map_append, ← List.append_assoc]
    exact congrArg (· ++ [op]) h.published
  · rw [latest_concat]
    exact Disk.readOperation_observed_iff.mpr ⟨rfl, hv⟩
  · rw [List.map_append, linkedAll_append]
    refine ⟨h.linked, ?_, trivial⟩
    simpa [Function.comp_def] using hlinked

end

namespace Runner

variable {η γ α : Type} {r : Runner η γ} {own : Option String} {w₀ : World η γ}

/-! ## the steps of a request -/

/-- What is recorded is linked, and a receipt that is replayed is the current record or was
there before anything was recorded. -/
def Halted (own : Option String) (w₀ : World η γ) (err : Option Error) (w : World η γ) : Prop :=
  Continues own w₀ w ∧ ∀ op, err = some (.replay op) →
    w.published = w₀.published ∨ w.disk.readOperation = .observed op

/-- An error that replays nothing halts the request where it is. -/
theorem halted_of_kind {err : Option Error} {w : World η γ} (hkind : Kind Error.NotReplay err)
    (h : Continues own w₀ w) : Halted own w₀ err w :=
  ⟨h, fun op he => absurd rfl (hkind _ he op)⟩

/-- Before anything was recorded. -/
theorem halted_of_fresh {err : Option Error} {w : World η γ} (h : Adds own w₀ [] w) :
    Halted own w₀ err w :=
  ⟨h.continues, fun _ _ => .inl (h.published.trans (List.append_nil _))⟩

/-- Where a request halts is about the records. -/
theorem halted_about (own : Option String) (w₀ : World η γ) (err : Option Error) :
    AboutRecords (Halted own w₀ err) := by
  intro w w' hsame h
  refine ⟨continues_about own w₀ w w' hsame h.1, fun op he => ?_⟩
  rw [World.published, records_eq hsame, Disk.readOperation_congr hsame.1.1]
  exact h.2 op he

/-- What a program leaves behind that raises no replay. -/
theorem continuing {P : World η γ → Prop} {m : Prog Error (World η γ) α}
    {Q : α → World η γ → Prop} (hm : Raises Error.NotReplay m)
    (h : Triple P m Q fun _ => Continues own w₀) : Triple P m Q (Halted own w₀) :=
  (hm.and h).conseq (fun _ hw => hw) (fun _ _ hw => hw) fun _ _ hw => halted_of_kind hw.1 hw.2

/-- The outcome of the operation that was found open. -/
theorem settle_continues (own : Option String) (w₀ : World η γ) :
    Keeps (Continues own w₀) r.settle := by
  have hoff : OffTick (Continues own w₀) := (continues_about own w₀).quiet.tick
  have hrecord : ∀ (w : World η γ) op now phase outcome reason, Continues own w₀ w →
      w.disk.readOperation = .observed op → op.outcome = none →
      Continues own w₀ (w.record (advance op now phase outcome reason)) := by
    intro w op now phase outcome reason hw hop ho
    have hv : op.validate = .ok () := (Disk.readOperation_observed_iff.mp hop).2
    exact hw.record hv (.inr ⟨op, hop, ho, rfl⟩)
  refine settling_within hoff hoff (fun _ hw => hw) (fun _ hw => hw) (fun _ hw _ => hw) ?_ ?_
    fun _ _ hw _ _ => hw
  · intro w op state now hw hop ho _ _ _
    exact hrecord w op now _ _ _ hw hop ho
  · intro w op state now reason hw hop ho _ _ _
    exact hrecord w op now _ _ _ hw hop ho

/-- The operation of the request is being recorded. -/
def Carries (own : Option String) (w₀ : World η γ) (op : Option Operation) (w : World η γ) : Prop :=
  (∀ o, op = some o → own = some o.id) ∧ Continues own w₀ w

/-- What a drive carries is about the records. -/
theorem carries_about (own : Option String) (w₀ : World η γ) (op : Option Operation) :
    AboutRecords (Carries own w₀ op) :=
  fun w w' hsame h => ⟨h.1, continues_about own w₀ w w' hsame h.2⟩

/-- A phase or the outcome of the operation of the request. -/
theorem transition_carries (op : Option Operation) (phase : OperationPhase)
    (outcome : Option Outcome) (reason : Option String) :
    Triple (Carries own w₀ op) (r.transition op phase outcome reason)
      (fun op' => Carries own w₀ op') (fun _ => Continues own w₀) := by
  refine (transition_triple (Q := fun op' => Carries own w₀ op') (fun _ => trivial : _ → True)
    (carries_about own w₀ op).quiet.tick (fun op' => (carries_about own w₀ op').quiet.tick)
    (fun _ _ => .inr trivial) ?_ ?_).crash fun w h => ?_
  · rintro rfl w hw
    exact hw
  · rintro o rfl w now hv ⟨hown, hw⟩
    have hid : own = some (advance o now phase outcome reason).id := hown o rfl
    refine ⟨fun o' ho' => ?_, hw.record hv (.inl hid)⟩
    cases ho'
    exact hid
  · exact h.1.elim (fun h => h.2) fun ⟨_, h⟩ => h.2

/-! ## requests -/

variable {target : Option String} {options : UpgradeOptions}

/-- **The outline of a drive**, by what it records. -/
theorem recordsOutline (hr : r.Surroundings Error.NotReplay) {c : Convergence (World η γ)}
    (hc : ReadsProduct c) (hown : ∀ desc, options.operation = some desc → own = some desc.id) :
    DriveOutline r c target options Error.NotReplay (Adds own w₀ []) (fun op _ => Carries own w₀ op)
      (fun op _ => Carries own w₀ op) (fun op err w => Carries own w₀ op w ∧ Kind Error.NotReplay err)
      (fun _ => Continues own w₀) (Halted own w₀) where
  outside := hr.toOutside
  quietActive op _ := (carries_about own w₀ op).quiet
  quietEnded op _ := (carries_about own w₀ op).quiet
  quiet _ := (continues_about own w₀).quiet
  active _ _ _ _ hkind h := halted_of_kind hkind h.2
  ended _ _ _ _ hkind h := halted_of_kind hkind h.2
  broken _ _ h := halted_of_kind kind_none h.1.2
  closed _ _ _ hkind h := halted_of_kind hkind h
  start := by
    have hrecover : Triple (OnWorld (Adds own w₀ [])) (r.recoverEngine c)
        (fun _ => OnWorld (Continues own w₀)) (fun err => OnWorld (Halted own w₀ err)) :=
      ((recoverEngine_raises hr c).and (recoverEngine_keeps (adds_about own w₀ []) hc)).conseq
        (fun _ hs => hs) (fun _ _ hs => hs.continues) fun _ _ hs => halted_of_fresh hs.2
    have hsettle : Triple (Continues own w₀) r.settle (fun _ => Continues own w₀) (Halted own w₀) :=
      continuing (settle_raises hr.faults hr.plain) (settle_continues own w₀)
    have hopened : Triple (Continues own w₀) (r.openOperation target options)
        (fun opened => Carries own w₀ opened.1) (fun _ => Continues own w₀) := by
      have habout := continues_about own w₀
      refine opening_triple habout.quiet.tick (fun op => (carries_about own w₀ op).quiet.tick)
        ((continues_history own w₀).offReceipts.retirePrevious r) (fun _ h => h) (fun _ _ h => h.2)
        (fun _ w hw => ⟨fun _ ho => (by cases ho), hw⟩) ?_
      intro desc state now w hdesc hw _ hv
      have hid := hown desc hdesc
      exact ⟨fun o ho => by cases ho; exact hid, hw.record hv (.inl hid)⟩
    have hcurrent : Triple (Continues own w₀) (r.openOperation target options) (fun _ _ => True)
        (fun err w => ∀ op, err = some (.replay op) → w.disk.readOperation = .observed op) := by
      refine openOperation_errors hr.faults hr.plain target options
        (fun _ _ hkind op he => absurd rfl (hkind _ he op)) ?_
      intro desc previous w _ _ hop _ _ op he
      cases he
      exact hop
    refine ⟨OnWorld (Continues own w₀), OnWorld (Continues own w₀), hrecover, ?_, ?_⟩
    · exact Triple.zoom fun s hs => hsettle s.world hs
    · refine Triple.zoom fun s hs => ((hopened.and hcurrent) s.world ⟨hs, hs⟩).mono
        (fun _ _ h => h.1) fun _ _ h => ⟨h.1, fun op he => .inr (h.2 op he)⟩
  progress op _ phase reason := continuing (transition_raises hr.faults hr.plain op phase none reason)
    (transition_carries op phase none reason)
  finish op _ outcome reason _ :=
    (continuing (transition_raises hr.faults hr.plain op _ _ reason)
      (transition_carries op outcome.phase (some outcome) reason)).post fun _ _ h => h.2
  upgrade op release _ := by
    have hkeeps := ((carries_about own w₀ op).frame (r := r) hc).upgrade release.version incomingPath
    exact (((engine_raises hr c).upgrade release.version incomingPath).and hkeeps).conseq
      (fun _ hs => hs) (fun _ _ hs => hs) fun _ _ h => ⟨h.2, h.1⟩
  abandon op err reason := by
    intro w hw
    have htransition : Triple (Carries own w₀ op) (r.transition op .recovering none reason)
        (fun op' => Carries own w₀ op') (Halted own w₀) :=
      continuing (transition_raises hr.faults hr.plain op .recovering none reason)
        (transition_carries op .recovering none reason)
    exact (htransition w hw.1).mono (fun _ _ h => halted_of_kind hw.2 h.2) fun _ _ h => h
  conclude op outcome reason :=
    (continuing (transition_raises hr.faults hr.plain op _ _ reason)
      (transition_carries op (recordedAs outcome).phase (some (recordedAs outcome)) reason)).post
        fun _ _ h => h.2

/-- A drive under the lock. -/
theorem driveLocked_adds (hr : r.Surroundings Error.NotReplay)
    (hown : ∀ desc, options.operation = some desc → own = some desc.id) :
    Triple (Adds own w₀ []) (r.driveLocked target options) (fun _ => Continues own w₀)
      (Halted own w₀) :=
  driveLocked_within target options (adds_about own w₀ []).quiet.observed
    (fun _ _ hw => halted_of_fresh hw) fun _ hc => (recordsOutline hr hc hown).driveEngine_triple

/-- A recovery under the lock. -/
theorem recoverLocked_adds (hr : r.Surroundings Error.NotReplay) (expected : Option Expected) :
    Triple (Adds own w₀ []) (r.recoverLocked expected) (fun _ => Continues own w₀)
      (Halted own w₀) := by
  refine recoverLocked_within expected (adds_about own w₀ []).quiet.observed
    (fun _ _ hw => halted_of_fresh hw) fun c hc => ?_
  have hrecover : Triple (OnWorld (Adds own w₀ [])) (r.recoverEngine c)
      (fun _ => OnWorld (Continues own w₀)) (fun err => OnWorld (Halted own w₀ err)) :=
    ((recoverEngine_raises hr c).and (recoverEngine_keeps (adds_about own w₀ []) hc)).conseq
      (fun _ hs => hs) (fun _ _ hs => hs.continues) fun _ _ hs => halted_of_fresh hs.2
  refine Triple.bind hrecover fun _ => Triple.zoom fun s hs => ?_
  exact continuing (settle_raises hr.faults hr.plain) (settle_continues own w₀) s.world hs

/-- The lock is not about the records. -/
theorem locked_adds (hr : r.Surroundings Error.NotReplay) {body : Prog Error (World η γ) α}
    (h : Triple (Adds own w₀ []) body (fun _ => Continues own w₀) (Halted own w₀)) :
    Triple (Adds own w₀ []) (r.locked body) (fun _ => Continues own w₀) (Halted own w₀) :=
  locked_kind_triple hr.lockErrors (adds_about own w₀ []).offLock
    (fun _ => (continues_about own w₀).offLock) (fun err => (halted_about own w₀ err).offLock)
    (fun _ _ _ hw => halted_of_fresh hw) (fun _ _ _ hkind hw => halted_of_kind hkind hw)
    (fun _ _ _ hkind hw => halted_of_kind hkind hw.1) h

/-- The operation a request records. -/
def recordedBy : Request → Option String
  | .upgrade _ id _ _ => some id
  | _ => none

/-- **A drive** adds its own records only. -/
theorem drive_adds (hr : r.Surroundings Error.NotReplay)
    (hown : ∀ desc, options.operation = some desc → own = some desc.id) :
    Triple (Adds own w₀ []) (r.drive target options) (fun _ => Continues own w₀)
      (Halted own w₀) := by
  unfold Runner.drive
  refine Triple.get_bind fun w hw => ?_
  refine Triple.pre (P := Adds own w₀ []) ?_ fun w' hw' => by rw [hw']; exact hw
  refine Triple.ite (fun _ => ?_) fun _ => locked_adds hr (driveLocked_adds hr hown)
  have hnotify : Triple (Adds own w₀ []) (product (r.hooks.notify "held" [("reason", "managed-elsewhere")]))
      (fun _ => Adds own w₀ []) (Halted own w₀) :=
    Triple.conseq ((adds_about own w₀ []).quiet.asked _) (fun _ h => h) (fun _ _ h => h)
      fun _ _ h => halted_of_fresh h
  exact Triple.bind hnotify fun _ => Triple.pure fun _ h => h.continues

/-- **What a request records**, wherever it is cut off. -/
theorem perform_adds (hr : r.Surroundings Error.NotReplay) (request : Request) (w₀ : World η γ) :
    Triple (· = w₀) (r.perform request) (fun _ => Continues (recordedBy request) w₀)
      (Halted (recordedBy request) w₀) := by
  have hstart : ∀ {own : Option String} (w : World η γ), w = w₀ → Adds own w₀ [] w := by
    intro own w hw
    rw [hw]
    exact Adds.refl own w₀
  cases request with
  | status version => exact Triple.pure fun w hw => (hstart w hw).continues
  | recover version expected =>
      have hrecover := (locked_adds hr (recoverLocked_adds hr expected) :
        Triple (Adds none w₀ []) (r.recover expected) (fun _ => Continues none w₀)
          (Halted none w₀))
      exact Triple.bind (hrecover.pre hstart) fun _ => Triple.pure fun _ hw => hw
  | upgrade version id targetVersion consented =>
      refine Triple.get_bind fun w hw => ?_
      refine Triple.bind ((drive_adds hr fun desc hdesc => ?_).pre fun w' hw' => hstart w' ?_)
        fun _ => Triple.pure fun _ hw => hw
      · cases hdesc
        rfl
      · rw [hw', hw]

/-- An install that is managed elsewhere records nothing. -/
theorem perform_managed (version : Nat) (id targetVersion : String) (consented : Bool)
    {w₀ : World η γ} (hself : r.hooks.managedElsewhere w₀.product = true) :
    Triple (· = w₀) (r.perform (.upgrade version id targetVersion consented))
      (fun _ w => w.published = w₀.published) (fun _ _ => True) := by
  unfold perform upgradeTo Runner.drive
  refine Triple.get_bind fun w hw => ?_
  subst hw
  refine Triple.bind (R := fun _ w' => w'.published = w.published) ?_ fun _ =>
    Triple.pure fun _ hw => hw
  refine Triple.get_bind fun w' hw' => ?_
  subst hw'
  rw [hself]
  have hnotify : Triple (· = w') (product (r.hooks.notify "held" [("reason", "managed-elsewhere")]))
      (fun _ w'' => w''.published = w'.published) (fun _ _ => True) :=
    (Triple.conseq (product_keeps (P := fun w'' : World η γ => w''.published = w'.published)
      (fun _ _ h => h) _) (fun _ hw => by rw [hw]) (fun _ _ h => h) fun _ _ _ => trivial)
  exact Triple.bind hnotify fun _ => Triple.pure fun _ hw => hw

/-! ## the result of an upgrade -/

/-- What an upgrade of `e` came to, when `last` is what `operation.json` shows at its end;
`silent` says that it recorded nothing. -/
inductive Comes (e : Expected) (silent : Prop) (last : OperationRead) :
    Except Error (String × Nat) → Prop
  | managed (h : silent) : Comes e silent last (.ok ("held", 2))
  | answered (outcome : UpgradeOutcome) (op : Operation) (hlast : last = .observed op)
      (hop : op.IsFor e) (ho : op.outcome = some (concludedAs outcome)) :
      Comes e silent last (.ok (answerOf outcome))
  | replayed (op : Operation) (hop : op.IsFor e) (ho : op.outcome ≠ none)
      (h : silent ∨ last = .observed op) : Comes e silent last (.error (.replay op))
  | refused (err : Error) (h : err.NotReplay) : Comes e silent last (.error err)

/-- A request may be silent on more. -/
theorem Comes.imp {e : Expected} {silent silent' : Prop} {last : OperationRead}
    {result : Except Error (String × Nat)} (h : Comes e silent last result)
    (hsilent : silent → silent') : Comes e silent' last result := by
  cases h with
  | managed h => exact .managed (hsilent h)
  | answered outcome op hlast hop ho => exact .answered outcome op hlast hop ho
  | replayed op hop ho h => exact .replayed op hop ho (h.imp_left hsilent)
  | refused err h => exact .refused err h

/-- **What an upgrade comes to**, with what it recorded. -/
theorem perform_comes (hr : r.Surroundings Error.NotReplay) (version : Nat) (id targetVersion : String)
    (consented : Bool) (w₀ : World η γ) :
    Triple (· = w₀) (Prog.attempt (r.perform (.upgrade version id targetVersion consented)))
      (fun result w => ∃ new, Adds (some id) w₀ new w ∧
        Comes ⟨id, targetVersion⟩ (new = []) w.disk.readOperation result)
      (fun _ => Continues (some id) w₀) := by
  have hadds : Triple (· = w₀) (Prog.attempt (r.perform (.upgrade version id targetVersion consented)))
      (fun result w => match result with
        | .ok _ => Continues (some id) w₀ w
        | .error err => Halted (some id) w₀ (some err) w)
      (fun _ => Continues (some id) w₀) :=
    Triple.attempt ((perform_adds hr _ w₀).conseq (fun _ h => h) (fun _ _ h => h) fun err w h => by
      cases err with
      | none => exact h.1
      | some err => exact h)
  have hsilent : r.hooks.managedElsewhere w₀.product = true →
      Triple (· = w₀) (Prog.attempt (r.perform (.upgrade version id targetVersion consented)))
        (fun result w => ∀ a, result = .ok a → w.published = w₀.published) (fun _ _ => True) :=
    fun hself => Triple.attempt ((perform_managed version id targetVersion consented hself).conseq
      (fun _ h => h) (fun _ _ h _ _ => h) fun err w _ => by
        cases err with
        | none => trivial
        | some err => exact fun a ha => by cases ha)
  intro w hw
  subst hw
  have hresult := (perform_upgrade hr version id targetVersion consented w).and hadds w ⟨rfl, rfl⟩
  have hmanaged := fun hself => hsilent hself w rfl
  generalize Prog.attempt (r.perform (.upgrade version id targetVersion consented)) w = o
    at hresult hmanaged ⊢
  obtain ⟨o, w'⟩ := o
  cases o with
  | crash => exact hresult.2
  | err err => exact hresult.2
  | ok result =>
      obtain ⟨hresult, hrecorded⟩ := hresult
      cases hresult with
      | managed hself hdisk =>
          obtain ⟨new, hnew⟩ := hrecorded
          exact ⟨new, hnew, .managed (hnew.eq_nil (hmanaged hself _ rfl))⟩
      | answered outcome hended hself =>
          obtain ⟨new, hnew⟩ := hrecorded
          obtain ⟨op, hfile, hop, ho⟩ := hended
          exact ⟨new, hnew, .answered outcome op
            (Disk.readOperation_observed_iff.mpr ⟨hfile, hop.valid⟩) hop ho⟩
      | replayed op hop ho hself =>
          obtain ⟨⟨new, hnew⟩, hcurrent⟩ := hrecorded
          exact ⟨new, hnew, .replayed op hop ho ((hcurrent op rfl).imp_left hnew.eq_nil)⟩
      | refused err hno =>
          obtain ⟨⟨new, hnew⟩, -⟩ := hrecorded
          exact ⟨new, hnew, .refused err hno⟩

/-- **An upgrade that finds the lock taken** is held elsewhere or refused. -/
theorem perform_busy (hr : r.Surroundings Error.NotReplay) (version : Nat) (id targetVersion : String)
    (consented : Bool) (last : OperationRead) {w₀ : World η γ} (hlock : w₀.lock ≠ .free) :
    Triple (· = w₀) (Prog.attempt (r.perform (.upgrade version id targetVersion consented)))
      (fun result _ => Comes ⟨id, targetVersion⟩ True last result) (fun _ _ => True) := by
  have htrue : Indifferent (fun _ : World η γ => True) :=
    ⟨fun _ _ _ => trivial, fun _ _ _ _ => trivial, fun _ _ _ => trivial, fun _ _ _ => trivial,
      fun _ _ _ _ _ _ _ => trivial⟩
  have hlocked : ∀ options, Triple (fun w : World η γ => w.lock ≠ .free ∧ True)
      (r.locked (r.driveLocked (some targetVersion) options)) (fun _ _ => False)
      (fun err _ => Kind Error.NotReplay err) := fun options =>
    Triple.bind (((acquire_raises hr.lockErrors).and (acquire_busy_triple htrue.tick)).conseq
      (fun _ hw => hw) (fun _ _ hw => hw) fun _ _ hw => hw.1) fun _ _ h => h.elim
  have hnotify : Raises Error.NotReplay (product (r.hooks.notify "held" [("reason", "managed-elsewhere")]) :
      Prog Error (World η γ) Unit) := Outside.asked (hr.notify _ _)
  have hdrive : ∀ options, Triple (· = w₀) (r.drive (some targetVersion) options)
      (fun outcome _ => ∃ reason, outcome = .held reason)
      (fun err _ => Kind Error.NotReplay err) := by
    intro options
    unfold Runner.drive
    refine Triple.get_bind fun w hw => ?_
    subst hw
    refine Triple.ite (fun _ => ?_) fun _ => ?_
    · exact Triple.bind (hnotify.conseq (fun _ _ => trivial) (fun _ _ h => h) fun _ _ h => h)
        fun _ => Triple.pure fun _ _ => ⟨_, rfl⟩
    · exact (hlocked options).conseq (fun w' hw' => by rw [hw']; exact ⟨hlock, trivial⟩)
        (fun _ _ h => h.elim) fun _ _ h => h
  refine Triple.attempt ?_
  unfold perform upgradeTo
  refine Triple.get_bind fun w hw => ?_
  subst hw
  refine Triple.bind ((hdrive _).conseq (fun _ h => h) (fun _ _ h => h) fun err w' h => ?_)
    fun outcome => Triple.pure ?_
  · cases err with
    | none => trivial
    | some err => exact .refused err (kind_some.mp h)
  · rintro w' ⟨reason, rfl⟩
    exact .managed trivial

end Runner

end KCarrier
