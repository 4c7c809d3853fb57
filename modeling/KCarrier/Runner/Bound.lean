import KCarrier.Runner.Binding

/-!
# KCarrier.Runner.Bound

A recovery bound to an operation touches nothing but that operation.

`recover_bound` is about every directory, every host and every fault plan: a recovery
that does anything found the operation it is bound to open in `operation.json`, one
that finds anything else refuses with the world as it was, and one that returns has
settled that operation.  The last part needs that every journal tail a recovery
accepts is at rest afterwards (`recover_atRest`).
-/

namespace KCarrier

open Crash
open Running

namespace Runner

variable {η γ : Type} {r : Runner η γ} {c : Convergence (World η γ)}

/-! ## recovery ends at rest -/

/-- The journal ends as `p` says and goes on at the engine's number. -/
def TailAt (p : Point) (s : Running (World η γ)) : Prop :=
  p = .entry ∨ ∃ t, p.Tail t ∧ s.world.disk.JournalAt t s.seq

/-- A call that leaves the journal alone moves between points of the same tail. -/
theorem tailAt_of_keeps {α : Type} {p q : Point} {m : Prog Error (Running (World η γ)) α}
    (hp : p ≠ .entry) (hpq : ∀ t, p.Tail t → q.Tail t)
    (hm : ∀ t n, Triple (fun s => s.seq = n ∧ Over (fun d => d.JournalAt t n) (fun _ => True) s.world)
      m (fun _ s => s.seq = n ∧ Over (fun d => d.JournalAt t n) (fun _ => True) s.world)
      (fun _ _ => True)) :
    Triple (TailAt p) m (fun _ => TailAt q) (fun _ _ => True) := by
  refine Triple.of_forall fun s hs => ?_
  obtain ⟨t, ht, hj⟩ := hs.resolve_left hp
  refine (hm t s.seq).conseq (fun s' h => ?_) (fun _ s' h => ?_) fun _ _ h => h
  · rw [h]
    exact ⟨rfl, hj, trivial⟩
  · obtain ⟨hseq, hj', -⟩ := h
    rw [← hseq] at hj'
    exact .inr ⟨t, hpq t ht, hj'⟩

theorem tailAt_host {α : Type} {p q : Point} {label name : String}
    {call : Host η → Prog Error η (Option α)} (hp : p ≠ .entry) (hpq : ∀ t, p.Tail t → q.Tail t) :
    Triple (TailAt p) (Engine.bounded label (r.hostCall name call)) (fun _ => TailAt q)
      (fun _ _ => True) :=
  tailAt_of_keeps hp hpq fun _ n => bounded_triple
    ((hostCall_keeps remote_true name call).conseq (fun _ h => h)
      (fun _ _ h => ⟨fun _ => trivial, h⟩) fun _ _ _ => trivial) n

theorem journalAt_offSlots (t : Option Phase) (n : Nat) :
    FileStore.OffSlots (fun d => d.JournalAt t n) := fun _ _ _ h => h

theorem tailAt_store {α : Type} {p q : Point} {m : Prog Error (World η γ) α} (hp : p ≠ .entry)
    (hpq : ∀ t, p.Tail t → q.Tail t)
    (hm : ∀ D, FileStore.OffSlots D → Keeps (Over D (fun _ => True)) m) :
    Triple (TailAt p) (lift m) (fun _ => TailAt q) (fun _ _ => True) :=
  tailAt_of_keeps hp hpq fun t n =>
    (lift_triple (hm _ (journalAt_offSlots t n)) n).crash fun _ _ => trivial

theorem tailAt_journal {p q : Point} {intent : Phase} {detail : Detail} (hp : p ≠ .entry)
    (hq : q.Tail (some intent)) :
    Triple (TailAt p) ((r.engine c).journal intent detail) (fun _ => TailAt q)
      (fun _ _ => True) := by
  refine Triple.of_forall fun s hs => ?_
  obtain ⟨t, -, hj⟩ := hs.resolve_left hp
  have hjournal := journal_triple (r := r) (D := fun _ => True) (fun _ => True.intro)
    remote_true.aside (fun _ _ h => h) c t intent detail
  refine hjournal.conseq (fun s' h => ?_) (fun _ s' h => ?_) fun _ _ _ => trivial
  · rw [h]
    exact ⟨⟨hj, trivial⟩, trivial⟩
  · exact .inr ⟨some intent, hq, h.1.1⟩

theorem atRest_of_eq {t : Option Phase} {phase : Phase} (ht : t = some phase)
    (hr : phase.atRest = true) : ∀ p, t = some p → p.atRest = true := by
  intro p hp
  rw [ht, Option.some.injEq] at hp
  rw [← hp]
  exact hr

/-- The outline of a recovery on any directory: only the journal's tail is followed. -/
theorem tail_outline : RecoverOutline (r.engine c) (fun p s => TailAt p s) (fun _ _ => True) where
  stop := tailAt_host (by simp) fun _ h => h
  start := tailAt_host (by simp) fun _ h => h
  resumed := tailAt_host (by simp) fun _ h => h
  clear := tailAt_store (by simp) (fun _ ht => atRest_of_eq ht rfl)
    fun D hD => FileStore.removeDir_keeps remote_true.aside hD .experiment
  promote := tailAt_store (by simp) (fun _ h => h) fun D hD =>
    FileStore.promote_keeps remote_true.aside hD
  resume := tailAt_host (by simp) fun _ ht => atRest_of_eq ht rfl
  read := by
    refine Triple.pre (P := OnWorld fun _ => True) ?_ fun _ _ => trivial
    exact readEntries_triple (fun es s _ h => .inr ⟨_, rfl, es, h, rfl, rfl⟩) fun _ _ _ _ => trivial
  fence _ := tailAt_host (by simp) fun _ h => h
  idle s hs := by
    rcases hs with hs | hs
    · obtain ⟨t, ht, hj⟩ := hs.resolve_left (by simp)
      have ht : t = none := ht
      exact .inr ⟨t, (fun p hp => by rw [ht] at hp; cases hp), hj⟩
    · obtain ⟨t, ht, hj⟩ := hs.resolve_left (by simp)
      exact .inr ⟨t, atRest_of_eq ht rfl, hj⟩
  commit s hs := by
    obtain ⟨t, ht, hj⟩ := hs.resolve_left (by simp)
    exact .inr ⟨t, ht, hj⟩
  redo s hs := by
    obtain ⟨t, ht, hj⟩ := hs.resolve_left (by simp)
    exact .inr ⟨t, ht, hj⟩
  withdraw _ := tailAt_journal (by simp) rfl
  abandon _ _ _ := tailAt_journal (by simp) rfl

/-- **Whatever the directory, a recovery that returns leaves the journal at rest.** -/
theorem recover_atRest :
    Triple (fun _ => True) (r.engine c).recover
      (fun _ s => ∃ t, (∀ p, t = some p → p.atRest = true) ∧ s.world.disk.JournalAt t s.seq)
      (fun _ _ => True) := by
  refine tail_outline.recover_triple.conseq (fun _ _ => .inl rfl) (fun _ s h => ?_) fun _ _ h => h
  obtain ⟨ended, h⟩ := h
  exact h.resolve_left (by simp)

/-! ## settling -/

/-- The record is of the named operation and has an outcome. -/
def SettledFor (expected : Expected) (w : World η γ) : Prop :=
  ∃ op, w.disk.readOperation = .observed op ∧ op.id = expected.id ∧
    op.targetVersion = expected.targetVersion ∧ op.outcome ≠ none

/-- A transition that gives an outcome settles the record for good. -/
theorem transition_settles {expected : Expected} {op : Operation} {phase : OperationPhase}
    {outcome : Outcome} {reason : Option String} (hid : op.id = expected.id)
    (ht : op.targetVersion = expected.targetVersion) :
    Triple (fun _ => True) (r.transition (some op) phase (some outcome) reason)
      (fun _ => SettledFor expected) (fun _ _ => True) := by
  have hsettled : ∀ o, some op = some o → ∀ (w : World η γ) now, o.validate = .ok () →
      SettledFor expected (w.record (advance o now phase (some outcome) reason)) := by
    intro o ho w now hv
    cases ho
    exact ⟨_, Disk.readOperation_observed_iff.mpr ⟨rfl, by rw [advance_validate]; exact hv⟩, hid, ht, by simp [advance]⟩
  refine (transition_triple (P := fun _ => True) (fun _ => True.intro) (fun _ _ h => h)
    (fun _ _ _ h => h) (fun _ _ => .inr trivial) (fun ho => by cases ho)
    fun o ho w now hv _ => hsettled o ho w now hv).crash fun _ _ => trivial

/-- At rest, `settle` gives the open record an outcome. -/
theorem settle_settles {expected : Expected} {op : Operation} (hid : op.id = expected.id)
    (ht : op.targetVersion = expected.targetVersion) (ho : op.outcome = none) :
    Triple (fun w => w.disk.readOperation = .observed op ∧
        ∃ t n, (∀ p, t = some p → p.atRest = true) ∧ w.disk.JournalAt t n)
      r.settle (fun _ => SettledFor expected) (fun _ _ => True) := by
  unfold settle
  refine Triple.bind (readRequired_triple.conseq (fun _ h => h) (fun _ _ h => h)
    fun _ _ _ => trivial) fun previous => ?_
  cases previous with
  | none =>
      intro w hw
      have hop := hw.1
      rw [hw.2.1] at hop
      cases hop
  | some op' =>
      refine Triple.pre (P := fun w => op' = op ∧
        ∃ t n, (∀ p, t = some p → p.atRest = true) ∧ w.disk.JournalAt t n)
        (Triple.assume fun heq => ?_) fun w hw => ?_
      · subst heq
        simp only [ho, ne_eq, not_true_eq_false, if_false]
        have hread : Triple (fun w : World η γ =>
            ∃ t n, (∀ p, t = some p → p.atRest = true) ∧ w.disk.JournalAt t n)
            transactionState (fun state _ => state.phase.atRest = true) (fun _ _ => True) := by
          refine FileStore.readDisk_triple (fun state w hw hstate => ?_) fun _ _ _ _ => trivial
          obtain ⟨t, n, hrest, es, hj, htail, -⟩ := hw
          refine (transactionState_atRest_iff hstate hj).mpr fun p hp => hrest p ?_
          rw [← htail, hp]
        have hdone : ∀ (phase : OperationPhase) (outcome : Outcome) (reason : Option String),
            Triple (fun _ => True) (do
              let _ ← r.transition (some op') phase (some outcome) reason
              pure ()) (fun _ => SettledFor expected) (fun _ _ => True) := fun _ _ _ =>
          Triple.bind (transition_settles hid ht) fun _ => Triple.pure fun _ h => h
        refine Triple.bind hread fun state => ?_
        split
        · exact (hdone _ _ _).pre fun _ _ => trivial
        · intro w hw
          rw [if_pos hw]
          exact hdone _ _ _ w trivial
      · have hop := hw.1
        rw [hw.2.1] at hop
        cases hop
        exact ⟨rfl, hw.2.2⟩

/-! ## bound recovery -/

/-- Why a bound recovery refuses: the lock, or the binding. -/
inductive Refused (r : Runner η γ) (w : World η γ) (expected : Expected) : Error → Prop
  | busy (pid : Nat) (h : w.lock = .held pid) : Refused r w expected (.locked pid)
  | lockUnreadable (h : w.lock = .unreadable) :
      Refused r w expected (.invalid "UPGRADE_LOCK_UNREADABLE")
  | binding (e : Error) (h : w.disk.Refuses r.store.digest expected e) : Refused r w expected e

theorem refuses_certain {digest : String → String} {d : Disk} {expected : Expected} {e : Error}
    (h : d.Refuses digest expected e) : e.isUncertain = false := by
  cases h <;> rfl

/-- What the binding refuses ends the body where it started. -/
theorem recoverLocked_run_refused {expected : Expected} {w : World η γ} {e : Error}
    (h : priorAnswer r.store.digest w.disk expected true = .error e) :
    r.recoverLocked (some expected) w = (.err e, w) := by
  have hprior : r.prior expected true w = (.err e, w) := by
    rw [prior_run, h]
    rfl
  unfold recoverLocked
  rw [Prog.bind_run, readRequired_run]
  cases hop : w.disk.readOperation with
  | unreadable reason =>
      unfold priorAnswer at h
      simp only [hop, Except.error.injEq] at h
      rw [← h]
      rfl
  | genesis => exact Prog.bind_run_err hprior
  | observed op => exact Prog.bind_run_err hprior

/-- A recovery that is not bound to the open current record refuses. -/
theorem priorAnswer_error_of_not_bound (digest : String → String) {d : Disk}
    {expected : Expected} (h : ¬ d.Bound expected) :
    ∃ e, priorAnswer digest d expected true = .error e ∧ d.Refuses digest expected e := by
  cases ha : priorAnswer digest d expected true with
  | ok u => exact absurd (priorAnswer_bound ha) h
  | error e => exact ⟨e, rfl, priorAnswer_refuses ha⟩

/-- A call on a lock that is not free ends at the lock. -/
theorem locked_run_busy {α : Type} {body : Prog Error (World η γ) α} {expected : Expected}
    {w : World η γ} (hlock : r.LockSteps w) (hfree : w.lock ≠ .free) :
    ∃ e, (r.locked body w).1 = .err e ∧ r.Refused w expected e := by
  have hrun : ∀ e, r.acquire w = (.err e, { w with tick := w.tick + 1 }) →
      (r.locked body w).1 = .err e := by
    intro e he
    unfold locked
    rw [Prog.bind_run_err he]
  have hacquire : r.acquire w = _ := Prog.bind_run_ok (acquireStep_run hlock)
  cases hl : w.lock with
  | free => exact absurd hl hfree
  | held pid =>
      refine ⟨.locked pid, hrun _ ?_, .busy pid hl⟩
      rw [hacquire, Prog.bind_run_ok (Prog.get_run _)]
      simp only [hl]
      rfl
  | unreadable =>
      refine ⟨_, hrun (.invalid "UPGRADE_LOCK_UNREADABLE") ?_, .lockUnreadable hl⟩
      rw [hacquire, Prog.bind_run_ok (Prog.get_run _)]
      simp only [hl]
      rfl

/-- Not bound: nothing but the lock is touched, and nothing is returned. -/
theorem recover_refused {expected : Expected} {w : World η γ} (h : ¬ w.disk.Bound expected) :
    Untouched w (r.recover (some expected) w).2 ∧ (r.recover (some expected) w).1 ≠ .ok () ∧
      (r.LockSteps w → ∃ e, (r.recover (some expected) w).1 = .err e ∧ r.Refused w expected e) := by
  obtain ⟨e, he, hrefuses⟩ := priorAnswer_error_of_not_bound r.store.digest h
  have hbody : Triple (Untouched w) (r.recoverLocked (some expected)) (fun _ _ => False)
      (fun _ => Untouched w) := by
    intro w' hw'
    rw [recoverLocked_run_refused (e := e) (by rw [hw'.disk]; exact he)]
    exact hw'
  have hlocked : Triple (Untouched w) (r.recover (some expected)) (fun _ _ => False)
      (fun _ => Untouched w) :=
    locked_triple (untouched_offLock w) (fun _ _ _ _ h => h) (untouched_offLock w)
      (fun _ h => h) (fun _ _ h => h.elim) hbody
  have hends := hlocked w (Untouched.refl w)
  refine ⟨?_, ?_, fun hlock => ?_⟩
  · generalize r.recover (some expected) w = o at hends
    obtain ⟨o, w'⟩ := o
    cases o with
    | ok u => exact hends.elim
    | err e => exact hends
    | crash => exact hends
  · generalize r.recover (some expected) w = o at hends
    obtain ⟨o, w'⟩ := o
    cases o with
    | ok u => exact hends.elim
    | err e => exact fun h => by cases h
    | crash => exact fun h => by cases h
  · by_cases hfree : w.lock = .free
    · refine ⟨e, ?_, .binding e hrefuses⟩
      have hrun := locked_run_err ⟨hlock, hfree⟩ (refuses_certain hrefuses)
        (recoverLocked_run_refused (w := r.holding w) he)
      unfold recover
      rw [hrun]
    · exact locked_run_busy hlock hfree

/-- With an open record the engine recovers, and keeps the record. -/
theorem recoverEngine_open {op : Operation} (ho : op.outcome = none) (hc : ReadsProduct c) :
    Triple (OnWorld fun w => w.disk.readOperation = .observed op) (r.recoverEngine c)
      (fun _ => OnWorld fun w => w.disk.readOperation = .observed op ∧
        ∃ t n, (∀ p, t = some p → p.atRest = true) ∧ w.disk.JournalAt t n)
      (fun _ _ => True) := by
  have hframe : Frame (r.engine c)
      (Over (fun d => d.readOperation = .observed op) fun _ => True) :=
    engine_frame remote_true (fun _ _ _ h => h) (fun _ _ h => h) hc
  have hrecover : Triple (OnWorld fun w => w.disk.readOperation = .observed op) (r.engine c).recover
      (fun _ => OnWorld fun w => w.disk.readOperation = .observed op ∧
        ∃ t n, (∀ p, t = some p → p.atRest = true) ∧ w.disk.JournalAt t n)
      (fun _ _ => True) := by
    refine (hframe.recover.and recover_atRest).conseq (fun _ h => ⟨⟨h, trivial⟩, trivial⟩)
      (fun _ s h => ⟨h.1.1, ?_⟩) fun _ _ _ => trivial
    obtain ⟨t, ht, hj⟩ := h.2
    exact ⟨t, _, ht, hj⟩
  unfold recoverEngine
  have hread := lift_triple (P := fun w : World η γ => w.disk.readOperation = .observed op)
    readRequired_triple
  refine Triple.of_forall fun s hs => ?_
  refine Triple.bind ((hread s.seq).conseq (fun s' h => by rw [h]; exact ⟨rfl, hs⟩)
    (fun _ _ h => h) fun _ _ _ => trivial) fun previous => ?_
  cases previous with
  | none =>
      intro s' h
      have hop := h.2.1
      rw [h.2.2] at hop
      cases hop
  | some op' =>
      intro s' h
      have hop := h.2.1
      rw [h.2.2] at hop
      cases hop
      simp only [Option.bind_some, ho, Option.map_none]
      exact hrecover s' h.2.2

/-- A bound recovery that returns has settled its operation. -/
theorem recoverLocked_settles {expected : Expected} {op : Operation} (hid : op.id = expected.id)
    (ht : op.targetVersion = expected.targetVersion) (ho : op.outcome = none) :
    Triple (fun w => w.disk.readOperation = .observed op) (r.recoverLocked (some expected))
      (fun _ => SettledFor expected) (fun _ _ => True) := by
  let Open : World η γ → Prop := fun w => w.disk.readOperation = .observed op
  have hread : Triple Open readRequired (fun _ => Open) (fun _ _ => True) :=
    readRequired_triple.conseq (fun _ h => h) (fun _ _ h => h.2) fun _ _ _ => trivial
  have hprior : Triple Open (r.prior expected true) (fun _ => Open) (fun _ _ => True) :=
    (prior_triple expected true).conseq (fun _ h => h) (fun _ _ h => h.2) fun _ _ _ => trivial
  have hconv : Triple Open r.convergence (fun c w => ReadsProduct c ∧ Open w) (fun _ _ => True) :=
    (convergence_triple fun _ _ h => h).conseq (fun _ h => h) (fun _ _ h => h) fun _ _ _ => trivial
  have hbudget : Triple Open (Prog.ofExcept (Engine.checkBudget r.hostBudgetMs))
      (fun _ => Open) (fun _ _ => True) :=
    Triple.ofExcept (fun _ _ _ h => h) fun _ _ _ _ => trivial
  unfold recoverLocked
  refine Triple.bind hread fun _ => Triple.bind hprior fun _ => Triple.bind hconv fun c => ?_
  refine Triple.assume fun hc => Triple.bind hbudget fun _ => withEngine_triple ?_
  refine Triple.bind (recoverEngine_open ho hc) fun _ => ?_
  exact Triple.zoom fun s hs => settle_settles hid ht ho s.world hs

/-- **Bound recovery touches only its own operation.**  A recovery that calls the host
or changes anything but the lock found its operation open in `operation.json`; finding
anything else it refuses with everything else as it was; and one that returns has
recorded an outcome for that same operation. -/
theorem recover_bound (r : Runner η γ) (expected : Expected) (w : World η γ) :
    (¬ Untouched w (r.recover (some expected) w).2 → w.disk.Bound expected) ∧
      (¬ w.disk.Bound expected ∨ Untouched w (r.recover (some expected) w).2 →
        (r.recover (some expected) w).1 ≠ .ok ()) ∧
      (¬ w.disk.Bound expected → r.LockSteps w →
        ∃ e, (r.recover (some expected) w).1 = .err e ∧ r.Refused w expected e) ∧
      ((r.recover (some expected) w).1 = .ok () →
        SettledFor expected (r.recover (some expected) w).2) := by
  have hsettled : (r.recover (some expected) w).1 = .ok () →
      SettledFor expected (r.recover (some expected) w).2 := by
    intro hok
    by_cases hbound : w.disk.Bound expected
    · obtain ⟨op, hop, ho, hid, ht⟩ := hbound
      have hlocked : Triple (fun w : World η γ => w.disk.readOperation = .observed op)
          (r.recover (some expected)) (fun _ => SettledFor expected) (fun _ _ => True) :=
        locked_post (fun _ _ _ h => h) (fun _ _ _ _ h => h) (recoverLocked_settles hid ht ho)
      exact hlocked.run_ok hop (Prod.ext hok rfl)
    · exact absurd hok (recover_refused hbound).2.1
  refine ⟨fun htouched => ?_, fun hother hok => ?_, fun hbound => (recover_refused hbound).2.2,
    hsettled⟩
  · by_cases hbound : w.disk.Bound expected
    · exact hbound
    · exact absurd (recover_refused hbound).1 htouched
  · by_cases hbound : w.disk.Bound expected
    · -- untouched, the record is still the open one; returned, it has an outcome
      have hsame := hother.resolve_left (not_not_intro hbound)
      obtain ⟨op, hop, ho, -⟩ := hbound
      obtain ⟨op', hop', -, -, ho'⟩ := hsettled hok
      rw [hsame.disk, hop] at hop'
      cases hop'
      exact ho' ho
    · exact (recover_refused hbound).2.1 hok

end Runner

end KCarrier
