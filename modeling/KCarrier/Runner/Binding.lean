import KCarrier.Runner.Steps

/-!
# KCarrier.Runner.Binding

Running under the upgrade lock, and the record a request is bound to.

`priorAnswer` is what `Runner.prior` answers as a function of the directory
(`prior_run`): it never changes the world, so a request it refuses leaves only the
lock behind (`locked_run_err`).
-/

namespace KCarrier

open Crash
open Running

/-- `I` is not about the lock, nor about how many boundaries were passed. -/
def OffLock {η γ : Type} (I : World η γ → Prop) : Prop :=
  ∀ w lock n, I w → I { w with lock := lock, tick := n }

/-- Nothing but the lock, the boundaries passed and the predicate's cell differs. -/
structure Untouched {η γ : Type} (w w' : World η γ) : Prop where
  disk : w'.disk = w.disk
  host : w'.host = w.host
  product : w'.product = w.product
  log : w'.log = w.log

theorem Untouched.refl {η γ : Type} (w : World η γ) : Untouched w w := ⟨rfl, rfl, rfl, rfl⟩

theorem untouched_offLock {η γ : Type} (w : World η γ) : OffLock (Untouched w) :=
  fun _ _ _ h => ⟨h.disk, h.host, h.product, h.log⟩

namespace Runner

variable {η γ α : Type} {r : Runner η γ}

/-! ## the lock -/

section Lock

variable {P I : World η γ → Prop} {Q : α → World η γ → Prop}

theorem lockStep_keeps (hI : OffLock I) (label : String) : Keeps I (r.store.boundary label) := by
  intro w hw
  have hw' : I { w with tick := w.tick + 1 } := hI w w.lock _ hw
  unfold FileStore.boundary
  cases r.store.faults.fault w.tick label with
  | none => exact hw'
  | some fault => cases fault <;> exact hw'

theorem acquire_keeps (hI : OffLock I) : Keeps I r.acquire := by
  unfold acquire
  refine Triple.bind (lockStep_keeps hI _) fun _ => Triple.get_bind fun w hw => ?_
  have hstart : ∀ w', w' = w → I w' := fun w' h => by rw [h]; exact hw
  cases w.lock with
  | free => exact Triple.modify fun w' h => by rw [h]; exact hI w _ w.tick hw
  | held pid => exact Triple.throw hstart
  | unreadable => exact Triple.throw hstart

theorem unlock_keeps (hI : OffLock I) : Keeps I r.unlock :=
  Triple.bind (lockStep_keeps hI _) fun _ => Triple.modify fun w hw => hI w _ w.tick hw

theorem release_keeps (hI : OffLock I) : Keeps I r.release := by
  have hattempt : Keeps I (Prog.attempt r.unlock) := (unlock_keeps hI).attempt
  unfold release
  refine Triple.bind hattempt fun reply => ?_
  cases reply with
  | ok u => exact Triple.pure fun _ h => h
  | error e => exact Triple.bind hattempt fun _ => Triple.throw fun _ h => h

/-- The errors of taking and releasing the lock are of the kind `p`. -/
structure LockErrors (r : Runner η γ) (p : Error → Prop) : Prop where
  faults : r.store.Fails p
  unreadable : p (.invalid "UPGRADE_LOCK_UNREADABLE")
  locked : ∀ pid, p (.locked pid)

theorem acquire_raises {p : Error → Prop} (hp : r.LockErrors p) :
    Raises p (r.acquire : Prog Error (World η γ) Unit) := by
  unfold acquire
  refine Raises.bind (FileStore.boundary_raises hp.faults _) fun _ => ?_
  refine Raises.bind Raises.get fun w => ?_
  cases w.lock with
  | free => exact Raises.modify _
  | held pid => exact Raises.throw (hp.locked pid)
  | unreadable => exact Raises.throw hp.unreadable

theorem release_raises {p : Error → Prop} (hp : r.LockErrors p) :
    Raises p (r.release : Prog Error (World η γ) Unit) := by
  have hunlock : Raises p (r.unlock : Prog Error (World η γ) Unit) :=
    Raises.bind (FileStore.boundary_raises hp.faults _) fun _ => Raises.modify _
  exact Raises.attempt_bind hunlock (fun _ => Raises.pure ()) fun e he =>
    Raises.bind (Raises.attempt _) fun _ => Raises.throw he

/-- What holds of the body from where the lock was taken holds of the call, as long as it is
not about the lock. -/
theorem locked_of_acquire {P₀ : World η γ → Prop} {p : Error → Prop}
    {F : Option Error → World η γ → Prop} (hp : r.LockErrors p) (hQ : ∀ a, OffLock (Q a))
    (hF : ∀ e, OffLock (F e)) (hQF : ∀ a e w, Kind p e → Q a w → F e w)
    (hFF : ∀ err e w, Kind p e → F (some err) w → F e w) {body : Prog Error (World η γ) α}
    (hacquire : Triple P₀ r.acquire (fun _ => P) F) (h : Triple P body Q F) :
    Triple P₀ (r.locked body) Q F := by
  have hrelease : ∀ {G : World η γ → Prop}, OffLock G →
      Triple G r.release (fun _ => G) (fun e w => Kind p e ∧ G w) := fun hG =>
    (release_raises hp).and (release_keeps hG)
  unfold locked
  refine Triple.bind hacquire fun _ => ?_
  have hbody : Triple P (Prog.attempt body) (Caught Q fun e => F (some e)) F :=
    Triple.attempt (h.conseq (fun _ h => h) (fun _ _ h => h) fun e _ h => by cases e <;> exact h)
  refine Triple.bind hbody fun reply => ?_
  cases reply with
  | ok a =>
      refine Triple.bind ((hrelease (hQ a)).conseq (fun _ hw => hw) (fun _ _ hw => hw)
        fun e w hw => hQF a e w hw.1 hw.2) fun _ => Triple.pure fun _ h => h
  | error e =>
      dsimp only
      split
      · exact Triple.throw fun _ h => h
      · refine Triple.bind ((hrelease (hF (some e))).conseq (fun _ hw => hw) (fun _ _ hw => hw)
          fun e' w hw => hFF e e' w hw.1 hw.2) fun _ => Triple.throw fun _ h => h

/-- **Under the lock**, by value and error: what holds of the body holds of the whole
call, as long as it is not about the lock. -/
theorem locked_kind_triple {p : Error → Prop} {F : Option Error → World η γ → Prop}
    (hp : r.LockErrors p) (hP : OffLock P) (hQ : ∀ a, OffLock (Q a)) (hF : ∀ e, OffLock (F e))
    (hPF : ∀ e w, Kind p e → P w → F e w) (hQF : ∀ a e w, Kind p e → Q a w → F e w)
    (hFF : ∀ err e w, Kind p e → F (some err) w → F e w) {body : Prog Error (World η γ) α}
    (h : Triple P body Q F) : Triple P (r.locked body) Q F := by
  have hacquire : Triple P r.acquire (fun _ => P) F :=
    ((acquire_raises hp).and (acquire_keeps hP)).conseq (fun _ hw => hw) (fun _ _ hw => hw)
      fun e w hw => hPF e w hw.1 hw.2
  exact locked_of_acquire hp hQ hF hQF hFF hacquire h

/-- **Under the lock**: what holds of the body holds of the whole call, as long as it
is not about the lock. -/
theorem locked_triple (hP : OffLock P) (hQ : ∀ a, OffLock (Q a)) (hI : OffLock I)
    (hPI : ∀ w, P w → I w) (hQI : ∀ a w, Q a w → I w) {body : Prog Error (World η γ) α}
    (h : Triple P body Q (fun _ => I)) : Triple P (r.locked body) Q (fun _ => I) := by
  have hany : r.LockErrors fun _ => True := ⟨fun _ _ _ _ => trivial, trivial, fun _ => trivial⟩
  exact locked_kind_triple hany hP hQ (fun _ => hI) (fun _ w _ hw => hPI w hw)
    (fun a _ w _ hw => hQI a w hw) (fun _ _ _ _ hw => hw) h

/-- What the body keeps, the call keeps. -/
theorem locked_keeps (hP : OffLock P) {body : Prog Error (World η γ) α} (h : Keeps P body) :
    Keeps P (r.locked body) :=
  locked_triple (Q := fun _ => P) hP (fun _ => hP) hP (fun _ hw => hw) (fun _ _ hw => hw) h

/-- Where nothing is said of a call that fails. -/
theorem locked_post (hP : OffLock P) (hQ : ∀ a, OffLock (Q a)) {body : Prog Error (World η γ) α}
    (h : Triple P body Q (fun _ _ => True)) : Triple P (r.locked body) Q (fun _ _ => True) :=
  locked_triple hP hQ (fun _ _ _ h => h) (fun _ _ => trivial) (fun _ _ _ => trivial) h

/-- A call whose body cannot fail, without faults and under a free lock. -/
theorem locked_clean_triple (hclean : r.store.faults = Faults.clean) (hP : OffLock P)
    (hQ : ∀ a, OffLock (Q a)) {body : Prog Error (World η γ) α}
    (h : Triple P body Q (fun _ _ => False)) :
    Triple (fun w => w.lock = .free ∧ P w) (r.locked body) Q (fun _ _ => False) := by
  have hblame : r.store.faults ≠ Faults.clean → False := fun hne => hne hclean
  have hacquire : Triple (fun w => w.lock = .free ∧ P w) r.acquire (fun _ => P)
      (fun _ _ => False) := by
    unfold acquire
    refine Triple.bind ((FileStore.boundary_triple hblame (P := fun w => w.lock = .free ∧ P w)
      (fun w n h => ⟨h.1, hP w w.lock n h.2⟩) "acquire").crash fun _ h => h.2) fun _ => ?_
    refine Triple.get_bind fun w hw => ?_
    rw [hw.1]
    exact Triple.modify fun w' h => by rw [h]; exact hP w _ w.tick hw.2
  have hunlock : ∀ a, Triple (Q a) r.unlock (fun _ => Q a) (fun _ _ => False) := fun a =>
    Triple.bind ((FileStore.boundary_triple hblame (fun w n => hQ a w w.lock n) "release").crash
      fun _ h => h.2) fun _ => Triple.modify fun w hw => hQ a w _ w.tick hw
  have hrelease : ∀ a, Triple (Q a) r.release (fun _ => Q a) (fun _ _ => False) := by
    intro a
    have hattempt : Triple (Q a) (Prog.attempt r.unlock) (Caught (fun _ => Q a) fun _ _ => False)
        (fun _ _ => False) :=
      Triple.attempt ((hunlock a).crash fun _ h => h.elim)
    unfold release
    refine Triple.bind hattempt fun reply => ?_
    cases reply with
    | ok u => exact Triple.pure fun _ h => h
    | error e => exact fun _ h => h.elim
  have hbody : Triple P (Prog.attempt body) (Caught Q fun _ _ => False) (fun _ _ => False) :=
    Triple.attempt (h.crash fun _ h => h.elim)
  unfold locked
  refine Triple.bind hacquire fun _ => Triple.bind hbody fun reply => ?_
  cases reply with
  | ok a => exact Triple.bind (hrelease a) fun _ => Triple.pure fun _ h => h
  | error e => exact fun _ h => h.elim

/-- A call that returned left the lock free. -/
theorem locked_frees (body : Prog Error (World η γ) α) :
    Triple (fun _ => True) (r.locked body) (fun _ w => w.lock = .free) (fun _ _ => True) := by
  have hunlock : Triple (fun _ : World η γ => True) r.unlock (fun _ w => w.lock = .free)
      (fun _ _ => True) :=
    Triple.bind Triple.any fun _ => Triple.modify fun _ _ => rfl
  have hrelease : Triple (fun _ : World η γ => True) r.release (fun _ w => w.lock = .free)
      (fun _ _ => True) := by
    have hattempt : Triple (fun _ : World η γ => True) (Prog.attempt r.unlock)
        (fun reply w => reply = .ok () → w.lock = .free) (fun _ _ => True) :=
      Triple.attempt (hunlock.conseq (fun _ h => h) (fun _ _ h _ => h) fun e w _ => by
        cases e with
        | none => exact True.intro
        | some e => exact fun h => by cases h)
    unfold release
    refine Triple.bind hattempt fun reply => ?_
    cases reply with
    | ok u => exact Triple.pure fun _ h => h rfl
    | error e => exact Triple.bind (Triple.any.pre fun _ _ => trivial) fun _ =>
        Triple.throw fun _ _ => trivial
  unfold locked
  refine Triple.bind Triple.any fun _ => Triple.bind Triple.any fun reply => ?_
  cases reply with
  | ok a => exact Triple.bind hrelease fun _ => Triple.pure fun _ h => h
  | error e =>
      refine Triple.ite (fun _ => Triple.throw fun _ _ => trivial) fun _ => ?_
      exact Triple.bind Triple.any fun _ => Triple.throw fun _ _ => trivial

end Lock

/-- Taking and releasing the lock meets no fault. -/
structure LockSteps (r : Runner η γ) (w : World η γ) : Prop where
  acquire : r.store.faults.fault w.tick "acquire" = none
  release : r.store.faults.fault (w.tick + 1) "release" = none

/-- The lock is free, too. -/
structure FindsLockFree (r : Runner η γ) (w : World η γ) : Prop extends r.LockSteps w where
  free : w.lock = .free

/-- The world a body starts in, after the lock was taken. -/
def holding (r : Runner η γ) (w : World η γ) : World η γ :=
  { w with lock := .held r.self, tick := w.tick + 1 }

/-- The world a call that only took and released the lock leaves. -/
def released (w : World η γ) : World η γ := { w with lock := .free, tick := w.tick + 2 }

theorem acquireStep_run {w : World η γ} (hlock : r.LockSteps w) :
    r.store.boundary "acquire" w = (.ok (), { w with tick := w.tick + 1 }) := by
  unfold FileStore.boundary
  rw [hlock.acquire]
  rfl

theorem acquire_run {w : World η γ} (hlock : r.FindsLockFree w) :
    r.acquire w = (.ok (), r.holding w) := by
  unfold acquire
  rw [Prog.bind_run_ok (acquireStep_run hlock.toLockSteps), Prog.bind_run_ok (Prog.get_run _)]
  simp only [hlock.free]
  rfl

theorem release_run {w : World η γ} (hlock : r.FindsLockFree w) :
    r.release (r.holding w) = (.ok (), released w) := by
  have hstep : r.store.boundary "release" (r.holding w) =
      (.ok (), { r.holding w with tick := w.tick + 2 }) := by
    unfold FileStore.boundary holding
    rw [hlock.release]
    rfl
  have hunlock : r.unlock (r.holding w) = (.ok (), released w) := by
    unfold unlock
    rw [Prog.bind_run_ok hstep]
    rfl
  unfold release
  rw [Prog.bind_run_ok (Prog.attempt_run_ok hunlock)]
  rfl

/-- A body that refuses, under a free lock: the call refuses and the lock is free. -/
theorem locked_run_err {w : World η γ} (hlock : r.FindsLockFree w)
    {body : Prog Error (World η γ) α} {e : Error} (he : e.isUncertain = false)
    (hbody : body (r.holding w) = (.err e, r.holding w)) :
    r.locked body w = (.err e, released w) := by
  unfold locked
  rw [Prog.bind_run_ok (acquire_run hlock), Prog.bind_run_ok (Prog.attempt_run_err hbody)]
  simp only [he, Bool.false_eq_true, if_false]
  rw [Prog.bind_run_ok (release_run hlock)]
  rfl

/-! ## the record a request is bound to -/

/-- What the record found for a request says. -/
def recordAnswer (expected : Expected) (missing : Except Error Unit) :
    Option Operation → Except Error Unit
  | some op =>
      if op.id = expected.id then
        if op.targetVersion ≠ expected.targetVersion then
          .error (.invalid "OPERATION_ID_CONFLICT")
        else if op.outcome ≠ none then
          .error (.replay op)
        else
          .ok ()
      else
        missing
  | none => missing

/-- Only a recovery needs the record to be there. -/
def missingAnswer (recover : Bool) : Except Error Unit :=
  if recover then .error (.invalid "RECOVERY_OPERATION_NOT_FOUND") else .ok ()

/-- What `prior` answers, as a function of the directory. -/
def priorAnswer (digest : String → String) (d : Disk) (expected : Expected) (recover : Bool) :
    Except Error Unit :=
  match d.readOperation, d.readArchive digest expected.id with
  | .unreadable reason, _ => .error (.invalid reason)
  | _, .unreadable reason => .error (.invalid reason)
  | _, .observed op => recordAnswer expected (missingAnswer recover) (some op)
  | .observed op, .genesis => recordAnswer expected (missingAnswer recover) (some op)
  | .genesis, .genesis => recordAnswer expected (missingAnswer recover) none

theorem readRequired_run (w : World η γ) :
    readRequired w = (Prog.ofExcept (match w.disk.readOperation with
      | .genesis => .ok none
      | .observed op => .ok (some op)
      | .unreadable reason => .error (.invalid reason)) :
        Prog Error (World η γ) (Option Operation)) w := by
  unfold readRequired
  rw [Prog.bind_run_ok (Prog.get_run w)]
  cases w.disk.readOperation <;> rfl

/-- `prior` only reads. -/
theorem prior_run (expected : Expected) (recover : Bool) (w : World η γ) :
    r.prior expected recover w =
      (Prog.ofExcept (priorAnswer r.store.digest w.disk expected recover) :
        Prog Error (World η γ) Unit) w := by
  have hrecord : ∀ record : Option Operation, (match record with
      | some op =>
          if op.id = expected.id then
            if op.targetVersion ≠ expected.targetVersion then
              Prog.throw (.invalid "OPERATION_ID_CONFLICT")
            else if op.outcome ≠ none then
              Prog.throw (.replay op)
            else
              pure ()
          else if recover then Prog.throw (.invalid "RECOVERY_OPERATION_NOT_FOUND") else pure ()
      | none =>
          if recover then Prog.throw (.invalid "RECOVERY_OPERATION_NOT_FOUND") else pure () :
        Prog Error (World η γ) Unit) w =
      (Prog.ofExcept (recordAnswer expected (missingAnswer recover) record) :
        Prog Error (World η γ) Unit) w := by
    intro record
    unfold recordAnswer missingAnswer
    cases record with
    | none => cases recover <;> rfl
    | some op =>
        by_cases hid : op.id = expected.id
        · by_cases ht : op.targetVersion = expected.targetVersion
          · by_cases ho : op.outcome = none
            · simp [hid, ht, ho]
            · simp [hid, ht, ho]
          · simp [hid, ht]
        · cases recover
          · simp [hid]
          · simp [hid]
  unfold prior
  rw [Prog.bind_run, readRequired_run]
  unfold priorAnswer
  cases hop : w.disk.readOperation with
  | unreadable reason => rfl
  | genesis =>
      simp only [Prog.ofExcept_ok_run, Prog.bind_run, Prog.get_run]
      cases ha : w.disk.readArchive r.store.digest expected.id with
      | unreadable reason => rfl
      | genesis => exact hrecord none
      | observed op => exact hrecord (some op)
  | observed current =>
      simp only [Prog.ofExcept_ok_run, Prog.bind_run, Prog.get_run]
      cases ha : w.disk.readArchive r.store.digest expected.id with
      | unreadable reason => rfl
      | genesis => exact hrecord (some current)
      | observed op => exact hrecord (some op)

/-- `prior` leaves the world alone, whatever it answers. -/
theorem prior_triple {P : World η γ → Prop} (expected : Expected) (recover : Bool) :
    Triple P (r.prior expected recover)
      (fun _ w => priorAnswer r.store.digest w.disk expected recover = .ok () ∧ P w)
      (fun e w => (∃ err, e = some err ∧
        priorAnswer r.store.digest w.disk expected recover = .error err) ∧ P w) := by
  intro w hw
  rw [prior_run]
  cases ha : priorAnswer r.store.digest w.disk expected recover with
  | ok u => exact ⟨ha, hw⟩
  | error e => exact ⟨⟨e, rfl, ha⟩, hw⟩

theorem readRequired_triple {P : World η γ → Prop} :
    Triple P readRequired
      (fun previous w => (match previous with
        | some op => w.disk.readOperation = .observed op
        | none => w.disk.readOperation = .genesis) ∧ P w)
      (fun _ w => (∃ reason, w.disk.readOperation = .unreadable reason) ∧ P w) := by
  intro w hw
  rw [readRequired_run]
  cases ho : w.disk.readOperation with
  | genesis => exact ⟨ho, hw⟩
  | observed op => exact ⟨ho, hw⟩
  | unreadable reason => exact ⟨⟨reason, ho⟩, hw⟩

end Runner

/-! ## what the answers mean -/

/-- An archived receipt carries its id and an outcome. -/
theorem readArchive_observed {digest : String → String} {d : Disk} {id : String} {op : Operation}
    (h : d.readArchive digest id = .observed op) :
    readOperationFile (d.receipts (digest id)) = .observed op ∧ op.id = id ∧ op.outcome ≠ none := by
  unfold Disk.readArchive at h
  cases hread : readOperationFile (d.receipts (digest id)) with
  | genesis =>
      rw [hread] at h
      cases h
  | unreadable reason =>
      rw [hread] at h
      cases h
  | observed record =>
      rw [hread] at h
      by_cases hbad : record.id ≠ id ∨ record.outcome = none
      · simp only [hbad, if_true] at h
        cases h
      · simp only [hbad, if_false, OperationRead.observed.injEq] at h
        rw [← h]
        exact ⟨rfl, Decidable.not_not.mp fun hid => hbad (.inl hid), fun ho => hbad (.inr ho)⟩

/-- `operation.json` holds the operation a recovery is bound to, without outcome. -/
def Disk.Bound (d : Disk) (expected : Expected) : Prop :=
  ∃ op, d.readOperation = .observed op ∧ op.outcome = none ∧ op.id = expected.id ∧
    op.targetVersion = expected.targetVersion

/-- The ways a binding is refused. -/
inductive Disk.Refuses (digest : String → String) (d : Disk) (expected : Expected) : Error → Prop
  | operation (reason : String) (h : d.readOperation = .unreadable reason) :
      Refuses digest d expected (.invalid reason)
  | archive (reason : String) (h : d.readArchive digest expected.id = .unreadable reason) :
      Refuses digest d expected (.invalid reason)
  | conflict (op : Operation) (hid : op.id = expected.id)
      (ht : op.targetVersion ≠ expected.targetVersion) :
      Refuses digest d expected (.invalid "OPERATION_ID_CONFLICT")
  | replay (op : Operation) (hid : op.id = expected.id)
      (ht : op.targetVersion = expected.targetVersion) (ho : op.outcome ≠ none) :
      Refuses digest d expected (.replay op)
  | notFound : Refuses digest d expected (.invalid "RECOVERY_OPERATION_NOT_FOUND")

namespace Runner

theorem recordAnswer_some {expected : Expected} {missing : Except Error Unit} {op : Operation}
    (hid : op.id = expected.id) (ht : op.targetVersion = expected.targetVersion)
    (ho : op.outcome ≠ none) : recordAnswer expected missing (some op) = .error (.replay op) := by
  simp [recordAnswer, hid, ht, ho]

theorem recordAnswer_conflict {expected : Expected} {missing : Except Error Unit} {op : Operation}
    (hid : op.id = expected.id) (ht : op.targetVersion ≠ expected.targetVersion) :
    recordAnswer expected missing (some op) = .error (.invalid "OPERATION_ID_CONFLICT") := by
  simp [recordAnswer, hid, ht]

/-- A record lets the call go on only if it is open, or another's. -/
theorem recordAnswer_ok {expected : Expected} {missing : Except Error Unit} {op : Operation}
    (h : recordAnswer expected missing (some op) = .ok ()) :
    (op.id = expected.id → op.targetVersion = expected.targetVersion ∧ op.outcome = none) ∧
      (op.id ≠ expected.id → missing = .ok ()) := by
  unfold recordAnswer at h
  by_cases hid : op.id = expected.id
  · simp only [hid, if_true] at h
    by_cases ht : op.targetVersion = expected.targetVersion
    · by_cases ho : op.outcome = none
      · exact ⟨fun _ => ⟨ht, ho⟩, fun hne => absurd hid hne⟩
      · simp [ht, ho] at h
    · simp [ht] at h
  · simp only [hid, if_false] at h
    exact ⟨fun hid' => absurd hid' hid, fun _ => h⟩

/-- A call that may go on has no archived receipt, and if the current record is its
own, that is open. -/
theorem priorAnswer_ok {digest : String → String} {d : Disk} {expected : Expected}
    {recover : Bool} (h : priorAnswer digest d expected recover = .ok ()) :
    d.readArchive digest expected.id = .genesis ∧
      ∀ op, d.readOperation = .observed op → op.id = expected.id →
        op.targetVersion = expected.targetVersion ∧ op.outcome = none := by
  unfold priorAnswer at h
  have harchived : ∀ op, d.readArchive digest expected.id = .observed op →
      recordAnswer expected (missingAnswer recover) (some op) = .ok () → False := by
    intro op ha hrecord
    obtain ⟨-, hid, ho⟩ := readArchive_observed ha
    exact ho ((recordAnswer_ok hrecord).1 hid).2
  cases hop : d.readOperation with
  | unreadable reason => simp [hop] at h
  | genesis =>
      cases ha : d.readArchive digest expected.id with
      | unreadable reason => simp [hop, ha] at h
      | observed op =>
          simp only [hop, ha] at h
          exact (harchived op ha h).elim
      | genesis => exact ⟨rfl, fun op ho => by cases ho⟩
  | observed current =>
      cases ha : d.readArchive digest expected.id with
      | unreadable reason => simp [hop, ha] at h
      | observed op =>
          simp only [hop, ha] at h
          exact (harchived op ha h).elim
      | genesis =>
          simp only [hop, ha] at h
          refine ⟨rfl, fun op ho => ?_⟩
          cases ho
          exact (recordAnswer_ok h).1

/-- A recovery that may go on is bound to the open current record. -/
theorem priorAnswer_bound {digest : String → String} {d : Disk} {expected : Expected}
    (h : priorAnswer digest d expected true = .ok ()) : d.Bound expected := by
  obtain ⟨ha, hown⟩ := priorAnswer_ok h
  unfold priorAnswer at h
  cases hop : d.readOperation with
  | unreadable reason => simp [hop] at h
  | genesis => simp [hop, ha, recordAnswer, missingAnswer] at h
  | observed op =>
      simp only [hop, ha] at h
      by_cases hid : op.id = expected.id
      · obtain ⟨ht, ho⟩ := hown op hop hid
        exact ⟨op, hop, ho, hid, ht⟩
      · have := (recordAnswer_ok h).2 hid
        cases this

/-- An answer that is no permission is one of the refusals. -/
theorem priorAnswer_refuses {digest : String → String} {d : Disk} {expected : Expected}
    {e : Error} (h : priorAnswer digest d expected true = .error e) :
    d.Refuses digest expected e := by
  have hrecord : ∀ record,
      recordAnswer expected (missingAnswer true) record = .error e → d.Refuses digest expected e := by
    intro record hr
    cases record with
    | none =>
        cases hr
        exact .notFound
    | some op =>
        by_cases hid : op.id = expected.id
        · by_cases ht : op.targetVersion = expected.targetVersion
          · by_cases ho : op.outcome = none
            · simp [recordAnswer, hid, ht, ho] at hr
            · rw [recordAnswer_some hid ht ho] at hr
              cases hr
              exact .replay op hid ht ho
          · rw [recordAnswer_conflict hid ht] at hr
            cases hr
            exact .conflict op hid ht
        · simp only [recordAnswer, hid, if_false] at hr
          cases hr
          exact .notFound
  unfold priorAnswer at h
  cases hop : d.readOperation with
  | unreadable reason =>
      simp only [hop, Except.error.injEq] at h
      rw [← h]
      exact .operation reason hop
  | genesis =>
      cases ha : d.readArchive digest expected.id with
      | unreadable reason =>
          simp only [hop, ha, Except.error.injEq] at h
          rw [← h]
          exact .archive reason ha
      | observed op =>
          simp only [hop, ha] at h
          exact hrecord _ h
      | genesis =>
          simp only [hop, ha] at h
          exact hrecord _ h
  | observed current =>
      cases ha : d.readArchive digest expected.id with
      | unreadable reason =>
          simp only [hop, ha, Except.error.injEq] at h
          rw [← h]
          exact .archive reason ha
      | observed op =>
          simp only [hop, ha] at h
          exact hrecord _ h
      | genesis =>
          simp only [hop, ha] at h
          exact hrecord _ h

end Runner

end KCarrier
