import KCarrier.Runner.Books
import KCarrier.Runner.Errors
import KCarrier.Runner.Service
import KCarrier.Runner.Audit

/-!
# KCarrier.Runner.Uncertain

An uncertain host call and the lock.

A host call that returned an uncertain error or exceeded its budget may still be running, so
its call of the runner has to issue no other one and has to keep its lock (`LockKept`).
`Clear` holds as long as nothing uncertain happened, and `Careful` is what every step of
the runner leaves when it is cut off: nothing uncertain, or one last uncertain call and an
error that says so.  The one step that loses the error is the record written after the
engine's upgrade failed (`Spoiled`).
-/

namespace KCarrier

open Crash
open Running

variable {η γ α : Type}

/-- A host call of the call ended uncertain. -/
def World.Uncertain (w : World (Audited η) γ) : Prop :=
  ∃ event ∈ w.host.events, event.uncertain = true

/-- The worker `pid` has the lock, and every host call so far told what it did. -/
structure Clear (pid : Nat) (w : World (Audited η) γ) : Prop where
  certain : ¬w.Uncertain
  lock : w.lock = .held pid

/-- The last host call is the only uncertain one, and `pid` still has the lock. -/
structure Sealed (pid : Nat) (w : World (Audited η) γ) : Prop where
  last : ∃ before event, w.host.events = before ++ [event] ∧ event.uncertain = true ∧
    ∀ earlier ∈ before, earlier.uncertain = false
  lock : w.lock = .held pid

/-- Where a careful step is cut off: an uncertain call was the last, and the error says so. -/
def Careful (pid : Nat) (e : Option Error) (w : World (Audited η) γ) : Prop :=
  Clear pid w ∨ Sealed pid w ∧ Kind (fun err => err.isUncertain = true) e

/-- Whatever the call returned: after an uncertain host call there was no other one, and the
lock is kept. -/
def LockKept (pid : Nat) (o : Res Error α × World (Audited η) γ) : Prop :=
  o.1 ≠ .crash → o.2.Uncertain → Sealed pid o.2

/-- A sealed world is uncertain. -/
theorem Sealed.uncertain {pid : Nat} {w : World (Audited η) γ} (h : Sealed pid w) :
    w.Uncertain := by
  obtain ⟨before, event, hevents, huncertain, -⟩ := h.last
  exact ⟨event, by simp [hevents], huncertain⟩

/-- `P` is about the lock and the host calls only. -/
def AboutCalls (P : World (Audited η) γ → Prop) : Prop :=
  ∀ w w' : World (Audited η) γ, w'.host = w.host → w'.lock = w.lock → P w → P w'

/-- That a world is clear is about the calls of the host and the lock. -/
theorem clear_about (pid : Nat) : AboutCalls (Clear pid : World (Audited η) γ → Prop) := by
  intro w w' hhost hlock h
  refine ⟨fun hu => h.certain ?_, hlock.trans h.lock⟩
  unfold World.Uncertain at hu
  rw [hhost] at hu
  exact hu

/-- So is that it is sealed. -/
theorem sealed_about (pid : Nat) : AboutCalls (Sealed pid : World (Audited η) γ → Prop) := by
  intro w w' hhost hlock h
  have hlast := h.last
  rw [← hhost] at hlast
  exact ⟨hlast, hlock.trans h.lock⟩

namespace AboutCalls

variable {P : World (Audited η) γ → Prop}

theorem offTick (hP : AboutCalls P) : OffTick P := fun w _ => hP w _ rfl rfl

theorem observed (hP : AboutCalls P) (w : World (Audited η) γ) (o : Observed) (h : P w) :
    P { w with observed := o } := hP w _ rfl rfl h

theorem offRecords (hP : AboutCalls P) : OffRecords P where
  quiet :=
    { tick := hP.offTick
      note := fun w _ _ => hP w _ rfl rfl
      product := fun w _ => hP w _ rfl rfl
      observed := hP.observed
      files := fun w _ _ _ _ _ => hP w _ rfl rfl }
  receipts := ⟨hP.offTick, fun w _ _ _ => hP w _ rfl rfl⟩
  record w _ := hP w _ rfl rfl

/-- What the store keeps of everything else. -/
theorem stored (hP : AboutCalls P) {m : Prog Error (World (Audited η) γ) α}
    (h : Aside P → Keeps (Over (fun _ => True) P) m) : Keeps P m :=
  Triple.conseq (h fun w _ _ => hP w _ rfl rfl) (fun _ hw => ⟨trivial, hw⟩) (fun _ _ hw => hw.2)
    fun _ _ hw => hw.2

end AboutCalls

/-! ## the steps of a call -/

/-- The names of the host calls. -/
def hostCalls : List String := ["fence", "quiesce", "stop", "start", "probe", "resume"]

/-- What goes wrong right after a host call is the death of the worker: an error of the call
is one the host returns. -/
def Runner.DiesAtHosts (r : Runner η γ) : Prop :=
  ∀ name ∈ hostCalls, ∀ n e, r.store.faults.fault n s!"after:{name}" ≠ some (.fail e)

/-- What keeps everything certain is careful. -/
theorem careful_of_keeps {pid : Nat} {m : Prog Error (World (Audited η) γ) α}
    (h : Keeps (Clear pid) m) : Triple (Clear pid) m (fun _ => Clear pid) (Careful pid) :=
  h.conseq (fun _ hw => hw) (fun _ _ hw => hw) fun _ _ hw => .inl hw

/-- A boundary where the worker only dies. -/
theorem FileStore.boundary_dies {s : FileStore} {P : World η γ → Prop} (hP : OffTick P)
    {label : String} (hdies : ∀ n e, s.faults.fault n label ≠ some (.fail e)) :
    Triple P (s.boundary label) (fun _ => P) (fun e w => e = none ∧ P w) := by
  intro w hw
  have hw' : P { w with tick := w.tick + 1 } := hP w _ hw
  unfold FileStore.boundary
  cases hf : s.faults.fault w.tick label with
  | none => exact hw'
  | some fault =>
      cases fault with
      | fail e => exact absurd hf (hdies w.tick e)
      | crash => exact ⟨rfl, hw'⟩

namespace Runner

variable {r : Runner η γ}

/-- What the host's own reply leaves behind. -/
theorem hostRun_careful {pid : Nat} {name : String}
    {audited : Host (Audited η) → HostCall (Audited η) α} {call : Host η → HostCall η α}
    (hcall : ∀ host disk, audited (Host.audited host disk) = (call host).audited name disk) :
    Triple (Clear pid : World (Audited η) γ → Prop) (r.audited.hostRun audited)
      (fun reply w => match reply with
        | some _ => Clear pid w
        | none => Sealed pid w)
      (fun e w => Careful pid e w) := by
  intro w hw
  have hcertain : ∀ event ∈ w.host.events, event.uncertain = false := fun event he =>
    Bool.eq_false_iff.mpr fun hu => hw.certain ⟨event, he, hu⟩
  rw [r.hostRun_audited hcall w]
  generalize (call (r.host w.disk)) w.host.state = o
  obtain ⟨o, h⟩ := o
  let w' (uncertain : Bool) : World (Audited η) γ :=
    { w with host := ⟨h, w.host.events ++ [⟨name, w.disk, uncertain⟩]⟩ }
  have hclear : Clear pid (w' false) := by
    refine ⟨?_, hw.lock⟩
    rintro ⟨event, he, hu⟩
    rcases List.mem_append.mp he with he | he
    · rw [hcertain event he] at hu
      cases hu
    · rw [List.mem_singleton.mp he] at hu
      cases hu
  have hsealed : Sealed pid (w' true) := ⟨⟨_, _, rfl, rfl, hcertain⟩, hw.lock⟩
  cases o with
  | crash => exact .inl hclear
  | err e =>
      cases hu : e.isUncertain with
      | true =>
          simp only [leavesOpen, hu]
          exact .inr ⟨hsealed, kind_some.mpr hu⟩
      | false =>
          simp only [leavesOpen, hu]
          exact .inl hclear
  | ok reply =>
      cases reply with
      | some a => exact hclear
      | none => exact hsealed

/-- **A host call**: with a reply everything is certain, and without one the engine has to
stop. -/
theorem hostCall_careful {pid : Nat} (hdies : r.DiesAtHosts) {name : String}
    (hname : name ∈ hostCalls) {audited : Host (Audited η) → HostCall (Audited η) α}
    {call : Host η → HostCall η α}
    (hcall : ∀ host disk, audited (Host.audited host disk) = (call host).audited name disk) :
    Triple (Clear pid : World (Audited η) γ → Prop) (r.audited.hostCall name audited)
      (Replied (Clear pid) (Careful pid)) (Careful pid) := by
  have hquiet := (clear_about (η := η) (γ := γ) pid).offRecords.quiet
  unfold Runner.hostCall
  refine Triple.bind (careful_of_keeps (hquiet.boundary _ _)) fun _ => ?_
  refine Triple.bind (careful_of_keeps (hquiet.noted rfl)) fun _ => ?_
  refine Triple.bind (hostRun_careful hcall) fun reply => ?_
  cases reply with
  | some a => exact Triple.bind (careful_of_keeps (hquiet.boundary _ _)) fun _ => Triple.pure fun _ h => h
  | none =>
      refine Triple.bind (R := fun _ => Sealed pid) ?_ fun _ => Triple.pure fun w h message => ?_
      · refine (FileStore.boundary_dies (sealed_about pid).offTick (hdies name hname)).conseq
          (fun _ h => h) (fun _ _ h => h) fun e w h => .inr ⟨h.2, ?_⟩
        rw [h.1]
        exact kind_none
      · exact .inr ⟨h, kind_some.mpr rfl⟩

/-- **No engine goes on after an uncertain host call.** -/
theorem engine_careful (hdies : r.DiesAtHosts) {pid : Nat} {c : Convergence (World (Audited η) γ)}
    (hc : ReadsProduct c) : Confined (r.audited.engine c) (Clear pid) (Careful pid) := by
  have hclear := clear_about (η := η) (γ := γ) pid
  have hslots : FileStore.OffSlots fun _ => True := fun _ _ _ _ => trivial
  have hstored : ∀ {β : Type} {m : Prog Error (World (Audited η) γ) β},
      (Aside (Clear pid) → Keeps (Over (fun _ => True) (Clear pid)) m) →
      Triple (Clear pid) m (fun _ => Clear pid) (Careful pid) := fun h =>
    careful_of_keeps (hclear.stored h)
  have hcalls : ∀ {name : String}, name ∈ hostCalls → ∀ {β : Type}
      {audited : Host (Audited η) → HostCall (Audited η) β} (call : Host η → HostCall η β),
      (∀ host disk, audited (Host.audited host disk) = (call host).audited name disk) →
      Triple (Clear pid : World (Audited η) γ → Prop) (r.audited.hostCall name audited)
        (Replied (Clear pid) (Careful pid)) (Careful pid) := fun hname _ _ _ hcall =>
    hostCall_careful hdies hname hcall
  exact {
    definite := fun err w hu h => h.elim id fun h => by
      rw [kind_some.mp h.2] at hu
      cases hu
    invalid := fun _ _ h => .inl h
    readJournal := careful_of_keeps FileStore.readDisk_keeps
    append := fun entry => hstored fun hI => FileStore.append_keeps hI (fun _ _ _ => trivial) entry
    versions := careful_of_keeps FileStore.readDisk_keeps
    stage := fun version bytes => hstored fun hI => FileStore.stage_keeps hI hslots version bytes
    promote := hstored fun hI => FileStore.promote_keeps hI hslots
    clear := hstored fun hI => FileStore.removeDir_keeps hI hslots .experiment
    fence := hcalls (by decide) (fun host => host.fence) fun _ _ => rfl
    quiesce := hcalls (by decide) (fun host => host.quiesce) fun _ _ => rfl
    stop := fun slot => hcalls (by decide) (fun host => host.stop slot) fun _ _ => rfl
    start := fun slot => hcalls (by decide) (fun host => host.start slot) fun _ _ => rfl
    probe := hcalls (by decide) (fun host => host.probe) fun _ _ => rfl
    resume := hcalls (by decide) (fun host => host.resume) fun _ _ => rfl
    evaluate := fun evidence target => (careful_of_keeps (evaluate_keeps
      hclear.offRecords.quiet.product hclear.observed hc evidence target)).post fun reply w h => by
        cases reply with
        | some verdict => exact h
        | none => exact fun _ => .inl h }

/-! ## the bodies under the lock -/

/-- The recovery of a call is careful. -/
theorem recoverEngine_careful (hdies : r.DiesAtHosts) {pid : Nat}
    {c : Convergence (World (Audited η) γ)} (hc : ReadsProduct c) :
    Triple (OnWorld (Clear pid)) (r.audited.recoverEngine c) (fun _ => OnWorld (Clear pid))
      (fun e => OnWorld (Careful pid e)) :=
  recoverEngine_confined (engine_careful hdies hc) fun _ _ h => .inl h

/-- So is settlement. -/
theorem settle_careful {pid : Nat} :
    Triple (OnWorld (Clear pid)) (lift (r.audited.settle)) (fun _ => OnWorld (Clear pid))
      (fun e => OnWorld (Careful pid e)) :=
  Confined.lift (careful_of_keeps (clear_about pid).offRecords.settle)

/-- **A recovery under the lock.** -/
theorem recoverLocked_careful (hdies : r.DiesAtHosts) (pid : Nat) (expected : Option Expected) :
    Triple (Clear pid) (r.audited.recoverLocked expected) (fun _ => Clear pid) (Careful pid) :=
  recoverLocked_within expected (clear_about pid).observed (fun _ _ h => .inl h) fun _ hc =>
    Triple.bind (recoverEngine_careful hdies hc) fun _ => settle_careful

/-- **A rollback under the lock.** -/
theorem rollbackLocked_careful (hdies : r.DiesAtHosts) (pid : Nat) (reason : String) :
    Triple (Clear pid) (r.audited.rollbackLocked reason) (fun _ => Clear pid) (Careful pid) := by
  have hclear := clear_about (η := η) (γ := γ) pid
  refine rollbackLocked_kind_triple (E := Clear pid) (R := Clear pid) reason
    (fun _ _ h _ => .inl h) (fun _ h => h) (fun _ _ h _ _ => h) hclear.observed
    (fun _ _ h => .inl h) (fun c hc => (engine_careful hdies hc).encloses.recover)
    (careful_of_keeps (hclear.stored fun hI => ?_)) fun kind detail =>
      careful_of_keeps (hclear.offRecords.quiet.asked _)
  exact FileStore.removeDir_keeps hI (fun _ _ _ _ => trivial) .experiment

/-- **A drive up to its engine's answer.** -/
theorem careful_approachOutline (hdies : r.DiesAtHosts) (pid : Nat)
    {c : Convergence (World (Audited η) γ)} (hc : ReadsProduct c) (target : Option String)
    (options : UpgradeOptions) :
    ApproachOutline r.audited c target options (fun _ => True) (Clear pid) (fun _ _ => Clear pid)
      (fun _ _ => Clear pid) (fun _ => Careful pid) (fun _ => Clear pid) (Careful pid) where
  outside := .any
  quietActive _ _ := (clear_about pid).offRecords.quiet
  quiet _ := (clear_about pid).offRecords.quiet
  active _ _ _ _ _ h := .inl h
  broken _ _ h := h
  closed _ _ _ _ h := .inl h
  start := ⟨OnWorld (Clear pid), OnWorld (Clear pid), recoverEngine_careful hdies hc,
    settle_careful, Confined.lift (careful_of_keeps ((clear_about pid).offRecords.openOperation target options))⟩
  progress op _ phase reason := careful_of_keeps ((clear_about pid).offRecords.transition op phase none reason)
  finish op _ outcome reason _ :=
    careful_of_keeps ((clear_about pid).offRecords.transition op outcome.phase (some outcome) reason)
  upgrade _ release _ := (engine_careful hdies hc).encloses.upgrade release.version incomingPath

/-- What a drive has come to at its engine's answer: everything is certain, unless the engine
failed and says so. -/
def CarefulAnswer (pid : Nat) : Approached → World (Audited η) γ → Prop
  | .inr (_, .error e) => Careful pid (some e)
  | _ => Clear pid

/-- A drive up to its engine's answer is careful. -/
theorem approachLocked_careful (hdies : r.DiesAtHosts) (pid : Nat) (target : Option String)
    (options : UpgradeOptions) :
    Triple (Clear pid) (r.audited.approachLocked target options)
      (fun answer => CarefulAnswer pid answer.2) (Careful pid) := by
  refine checked_triple (E := Clear pid) target options (fun _ _ h => .inl h)
    (fun _ _ _ _ h _ => .inl h) (fun _ h _ => h) (clear_about pid).observed (fun _ _ h => .inl h)
    fun c hc => ?_
  have hanswer := (careful_approachOutline hdies pid hc target options).approach_triple
  refine Triple.bind (withEngine_triple hanswer) fun answer => Triple.pure fun w h => ?_
  match answer with
  | .inl outcome => exact h
  | .inr (op, .ok outcome) => exact h
  | .inr (op, .error e) => exact h

/-! ## the lock -/

/-- Giving the lock back, or failing to. -/
theorem attempt_unlock_run (r : Runner η γ) (w : World η γ) :
    Prog.attempt r.unlock w = match r.store.faults.fault w.tick "release" with
      | none => (.ok (.ok ()), { w with tick := w.tick + 1, lock := .free })
      | some (.fail e) => (.ok (.error e), { w with tick := w.tick + 1 })
      | some .crash => (.crash, { w with tick := w.tick + 1 }) := by
  have hunlock : r.unlock w = match r.store.faults.fault w.tick "release" with
      | none => (.ok (), { w with tick := w.tick + 1, lock := .free })
      | some (.fail e) => (.err e, { w with tick := w.tick + 1 })
      | some .crash => (.crash, { w with tick := w.tick + 1 }) := by
    unfold unlock
    rw [Prog.bind_run]
    unfold FileStore.boundary
    cases r.store.faults.fault w.tick "release" with
    | none => rfl
    | some fault => cases fault <;> rfl
  unfold Prog.attempt
  rw [hunlock]
  cases r.store.faults.fault w.tick "release" with
  | none => rfl
  | some fault => cases fault <;> rfl

/-- Releasing the lock succeeds, at once or when the guard is dropped. -/
def FreesLock (r : Runner η γ) (w : World η γ) : Prop :=
  r.store.faults.fault w.tick "release" = none ∨
    (∃ e, r.store.faults.fault w.tick "release" = some (.fail e)) ∧
      r.store.faults.fault (w.tick + 1) "release" = none

/-- A worker that releases the lock frees it, keeps it because it cannot, or dies. -/
theorem release_lock (r : Runner (Audited η) γ) {pid : Nat} {w : World (Audited η) γ}
    (h : Sealed pid w) :
    (r.FreesLock w → (r.release w).1 ≠ .crash ∧ (r.release w).2.lock = .free ∧
      (r.release w).2.Uncertain) ∧
    (¬r.FreesLock w → (r.release w).1 ≠ .crash → Sealed pid (r.release w).2) := by
  unfold FreesLock release
  rw [Prog.bind_run, attempt_unlock_run]
  cases hfirst : r.store.faults.fault w.tick "release" with
  | none => exact ⟨fun _ => ⟨nofun, rfl, h.uncertain⟩, fun hno => absurd (.inl rfl) hno⟩
  | some fault =>
      cases fault with
      | crash => exact ⟨fun hfree => by simp at hfree, fun _ hdead => absurd rfl hdead⟩
      | fail e =>
          simp only []
          rw [Prog.bind_run, attempt_unlock_run]
          dsimp only
          cases hsecond : r.store.faults.fault (w.tick + 1) "release" with
          | none =>
              exact ⟨fun _ => ⟨nofun, rfl, h.uncertain⟩,
                fun hno => absurd (.inr ⟨⟨e, rfl⟩, rfl⟩) hno⟩
          | some fault =>
              cases fault with
              | crash => exact ⟨fun hfree => by simp at hfree, fun _ hdead => absurd rfl hdead⟩
              | fail e' => exact ⟨fun hfree => by simp at hfree, fun _ _ => ⟨h.last, h.lock⟩⟩

/-- What runs after the lock was taken. -/
theorem locked_run {r : Runner η γ} {body : Prog Error (World η γ) α} {w w₀ : World η γ}
    (hacquire : r.acquire w = (.ok (), w₀)) :
    r.locked body w = match body w₀ with
      | (.ok a, w₁) => (r.release >>= fun _ => pure a) w₁
      | (.err e, w₁) =>
          if e.isUncertain then (.err e, w₁) else (r.release >>= fun _ => Prog.throw e) w₁
      | (.crash, w₁) => (.crash, w₁) := by
  unfold locked
  rw [Prog.bind_run_ok hacquire, Prog.bind_run]
  unfold Prog.attempt
  cases body w₀ with
  | mk o w₁ =>
      cases o with
      | ok a => rfl
      | crash => rfl
      | err e => cases he : e.isUncertain <;> simp [he]

/-- A program that only ends otherwise than `m` leaves the lock as `m` does. -/
theorem lockKept_congr {β : Type} {pid : Nat} {o : Res Error α × World (Audited η) γ}
    {o' : Res Error β × World (Audited η) γ} (hstate : o'.2 = o.2)
    (hcrash : o.1 = .crash ↔ o'.1 = .crash) : LockKept pid o ↔ LockKept pid o' := by
  unfold LockKept
  rw [hstate, ne_eq, ne_eq, hcrash]

/-- What comes after a release does not matter for the lock. -/
theorem lockKept_release (r : Runner (Audited η) γ) {pid : Nat} (w : World (Audited η) γ)
    {after : Prog Error (World (Audited η) γ) α} (hafter : ∀ w, (after w).1 ≠ .crash ∧ (after w).2 = w) :
    LockKept pid ((r.release >>= fun _ => after) w) ↔ LockKept pid (r.release w) := by
  rw [Prog.bind_run]
  cases r.release w with
  | mk o w' =>
      cases o with
      | ok u => exact lockKept_congr (hafter w').2.symm ⟨fun h => absurd h (hafter w').1, nofun⟩
      | err e => exact lockKept_congr rfl ⟨nofun, nofun⟩
      | crash => exact lockKept_congr rfl ⟨fun _ => rfl, fun _ => rfl⟩

theorem certain_offLock : OffLock fun w : World (Audited η) γ => ¬w.Uncertain := fun _ _ _ h => h

/-- Taking the lock leaves the world clear. -/
theorem acquire_clear (r : Runner (Audited η) γ) :
    Triple (fun w => ¬w.Uncertain) r.acquire (fun _ => Clear r.self) (fun _ w => ¬w.Uncertain) := by
  unfold acquire
  refine Triple.bind (lockStep_keeps certain_offLock _) fun _ => ?_
  refine Triple.get_bind fun w hw => ?_
  have hstart : ∀ w', w' = w → ¬w'.Uncertain := fun w' h => by rw [h]; exact hw
  cases w.lock with
  | free => exact Triple.modify fun w' h => ⟨hstart w' h, rfl⟩
  | held pid => exact Triple.throw hstart
  | unreadable => exact Triple.throw hstart

/-- **Under the lock**: the lock is lost only where the body ends, after an uncertain host
call, with an error that is not. -/
theorem locked_lockKept (r : Runner (Audited η) γ) {body : Prog Error (World (Audited η) γ) α}
    {w : World (Audited η) γ} (hw : ¬w.Uncertain)
    (hbody : Triple (Clear r.self) body (fun _ => Clear r.self)
      (fun _ w => Clear r.self w ∨ Sealed r.self w)) :
    LockKept r.self (r.locked body w) ↔ ¬∃ w₀ e w₁, r.acquire w = (.ok (), w₀) ∧
      body w₀ = (.err e, w₁) ∧ e.isUncertain = false ∧ Sealed r.self w₁ ∧ r.FreesLock w₁ := by
  have hcertain : ∀ {β : Type} {o : Res Error β × World (Audited η) γ}, ¬o.2.Uncertain →
      LockKept r.self o := fun h _ hu => absurd hu h
  have hreleased : ∀ w₁ : World (Audited η) γ, ¬w₁.Uncertain → LockKept r.self (r.release w₁) :=
    fun _ h => hcertain ((release_keeps certain_offLock).run h)
  have hpure : ∀ (a : α) (w₁ : World (Audited η) γ), LockKept r.self
      ((r.release >>= fun _ => pure a) w₁) ↔ LockKept r.self (r.release w₁) := fun a w₁ =>
    lockKept_release r w₁ fun _ => ⟨nofun, rfl⟩
  have hthrow : ∀ (e : Error) (w₁ : World (Audited η) γ), LockKept r.self
      ((r.release >>= fun _ => (Prog.throw e : Prog Error (World (Audited η) γ) α)) w₁) ↔
        LockKept r.self (r.release w₁) := fun e w₁ =>
    lockKept_release r w₁ fun _ => ⟨nofun, rfl⟩
  have hstart := acquire_clear r w hw
  cases hacquire : r.acquire w with
  | mk o w₀ =>
      rw [hacquire] at hstart
      cases o with
      | err e =>
          have hrun : r.locked body w = (.err e, w₀) := Prog.bind_run_err hacquire
          rw [hrun]
          exact iff_of_true (hcertain hstart) fun ⟨_, _, _, h, _⟩ => by cases h
      | crash =>
          have hrun : r.locked body w = (.crash, w₀) := by
            unfold locked
            rw [Prog.bind_run, hacquire]
          rw [hrun]
          exact iff_of_true (hcertain hstart) fun ⟨_, _, _, h, _⟩ => by cases h
      | ok u =>
          have hend := hbody w₀ hstart
          rw [locked_run hacquire]
          cases hrun : body w₀ with
          | mk o w₁ =>
              rw [hrun] at hend
              have hbad : (∃ w₀' e w₁', ((Res.ok u, w₀) : Res Error Unit × World (Audited η) γ) = (.ok (), w₀') ∧
                  body w₀' = (.err e, w₁') ∧ e.isUncertain = false ∧ Sealed r.self w₁' ∧
                  r.FreesLock w₁') ↔ ∃ e, o = .err e ∧ e.isUncertain = false ∧ Sealed r.self w₁ ∧
                  r.FreesLock w₁ := by
                constructor
                · rintro ⟨w₀', e, w₁', hsame, hbody', h⟩
                  cases hsame
                  rw [hrun] at hbody'
                  cases hbody'
                  exact ⟨e, rfl, h⟩
                · rintro ⟨e, rfl, h⟩
                  exact ⟨w₀, e, w₁, rfl, hrun, h⟩
              rw [hbad]
              cases o with
              | crash => exact iff_of_true (fun h => absurd rfl h) fun ⟨_, h, _⟩ => by cases h
              | ok a =>
                  exact iff_of_true ((hpure a w₁).mpr (hreleased w₁ hend.certain))
                    fun ⟨_, h, _⟩ => by cases h
              | err e =>
                  simp only []
                  by_cases he : e.isUncertain = true
                  · rw [if_pos he]
                    refine iff_of_true (fun _ hu => ?_) fun ⟨e', h, hdefinite, _⟩ => ?_
                    · exact hend.elim (fun h => absurd hu h.certain) id
                    · cases h
                      rw [he] at hdefinite
                      cases hdefinite
                  · have he : e.isUncertain = false := by simpa using he
                    rw [if_neg (by simp [he]), hthrow]
                    rcases hend with hclear | hsealed
                    · refine iff_of_true (hreleased w₁ hclear.certain) fun ⟨_, _, _, h, _⟩ => ?_
                      exact hclear.certain h.uncertain
                    · obtain ⟨hfree, hkeep⟩ := release_lock r hsealed
                      constructor
                      · rintro hkept ⟨_, _, _, _, hf⟩
                        obtain ⟨hreturned, hlock, hu⟩ := hfree hf
                        have := (hkept hreturned hu).lock
                        rw [hlock] at this
                        cases this
                      · intro hno hreturned _
                        exact hkeep (fun hf => hno ⟨e, rfl, he, hsealed, hf⟩) hreturned

/-- **A call under the lock that says what happened** keeps the lock. -/
theorem locked_lockKept_of_careful (r : Runner (Audited η) γ)
    {body : Prog Error (World (Audited η) γ) α} {w : World (Audited η) γ} (hw : ¬w.Uncertain)
    (hbody : Triple (Clear r.self) body (fun _ => Clear r.self) (Careful r.self)) :
    LockKept r.self (r.locked body w) := by
  have hweak := hbody.conseq (fun _ h => h) (fun _ _ h => h) fun _ _ h => h.imp id fun h => h.1
  refine (locked_lockKept r hw hweak).mpr ?_
  rintro ⟨w₀, e, w₁, hacquire, hrun, he, hsealed, -⟩
  have hstart := (acquire_clear r).run_ok hw hacquire
  have hend := hbody w₀ hstart
  rw [hrun] at hend
  rcases hend with hclear | ⟨-, hkind⟩
  · exact hclear.certain hsealed.uncertain
  · rw [kind_some.mp hkind] at he
    cases he

/-- **The slip**: the engine's upgrade ended uncertain, writing that into the record failed
for certain, and the lock can be released. -/
def Spoiled (r : Runner (Audited η) γ) (target : Option String) (options : UpgradeOptions)
    (w : World (Audited η) γ) : Prop :=
  r.hooks.managedElsewhere w.product = false ∧
    ∃ w₀ c op err w₁ e w₂, r.acquire w = (.ok (), w₀) ∧
      r.approachLocked target options w₀ = (.ok (c, .inr (op, .error err)), w₁) ∧ w₁.Uncertain ∧
      r.transition op .recovering none (some err.message) w₁ = (.err e, w₂) ∧
      e.isUncertain = false ∧ r.FreesLock w₂

/-- What a drive makes of the answer leaves everything certain, or its last host call
uncertain. -/
theorem afterwards_clear {r : Runner (Audited η) γ} {pid : Nat}
    (c : Convergence (World (Audited η) γ)) (answer : Approached) :
    Triple (CarefulAnswer pid answer) (r.afterwards c answer) (fun _ => Clear pid)
      (fun _ w => Clear pid w ∨ Sealed pid w) := by
  have hclear := clear_about (η := η) (γ := γ) pid
  have hkeeps : ∀ {m : Prog Error (World (Audited η) γ) UpgradeOutcome}, Keeps (Clear pid) m →
      Triple (Clear pid) m (fun _ => Clear pid) (fun _ w => Clear pid w ∨ Sealed pid w) := fun hm =>
    hm.conseq (fun _ h => h) (fun _ _ h => h) fun _ _ h => .inl h
  match answer with
  | .inl outcome => exact Triple.pure fun _ h => h
  | .inr (op, .ok outcome) =>
      exact hkeeps (Triple.bind (hclear.offRecords.quiet.noted rfl) fun _ => hclear.offRecords.conclude c op outcome)
  | .inr (op, .error e) =>
      have habout : AboutCalls fun w : World (Audited η) γ => Clear pid w ∨ Sealed pid w :=
        fun w w' hhost hlock h =>
          h.imp (hclear w w' hhost hlock) (sealed_about pid w w' hhost hlock)
      exact Triple.bind ((habout.offRecords.transition op _ _ _).pre fun w h => h.imp id fun h => h.1) fun _ =>
        Triple.throw fun _ h => h

/-- A drive leaves the world clear, or sealed. -/
theorem driveLocked_clear (hdies : r.DiesAtHosts) (pid : Nat) (target : Option String)
    (options : UpgradeOptions) :
    Triple (Clear pid) (r.audited.driveLocked target options) (fun _ => Clear pid)
      (fun _ w => Clear pid w ∨ Sealed pid w) := by
  rw [driveLocked_eq]
  refine Triple.bind ((approachLocked_careful hdies pid target options).conseq (fun _ h => h)
    (fun _ _ h => h) fun _ _ h => h.imp id fun h => h.1) fun answer => ?_
  exact afterwards_clear answer.1 answer.2

/-- Where a drive under the lock ends, after an uncertain host call, with an error that is
not: at the write of the record after the engine's upgrade. -/
theorem driveLocked_spoils (hdies : r.DiesAtHosts) {pid : Nat} {target : Option String}
    {options : UpgradeOptions} {w₀ w₂ : World (Audited η) γ} {e : Error} (hw : Clear pid w₀)
    (he : e.isUncertain = false) :
    (r.audited.driveLocked target options w₀ = (.err e, w₂) ∧ Sealed pid w₂) ↔
      ∃ c op err w₁, r.audited.approachLocked target options w₀ =
        (.ok (c, .inr (op, .error err)), w₁) ∧ w₁.Uncertain ∧
        r.audited.transition op .recovering none (some err.message) w₁ = (.err e, w₂) := by
  have hcertain : ∀ {w : World (Audited η) γ}, Clear pid w → ¬Sealed pid w := fun hc hs =>
    hc.certain hs.uncertain
  have happroach := approachLocked_careful hdies pid target options w₀ hw
  rw [driveLocked_eq, Prog.bind_run]
  cases hrun : r.audited.approachLocked target options w₀ with
  | mk o w₁ =>
      rw [hrun] at happroach
      cases o with
      | crash => exact iff_of_false (fun h => by cases h.1) fun ⟨_, _, _, _, h, _⟩ => by cases h
      | err e' =>
          refine iff_of_false (fun ⟨h, hsealed⟩ => ?_) fun ⟨_, _, _, _, h, _⟩ => by cases h
          cases h
          rcases happroach with hclear | ⟨-, hkind⟩
          · exact hcertain hclear hsealed
          · rw [kind_some.mp hkind] at he
            cases he
      | ok answer =>
          obtain ⟨c, answer⟩ := answer
          match answer with
          | .inl outcome =>
              exact iff_of_false (fun h => by cases h.1) fun ⟨_, _, _, _, h, _⟩ => by cases h
          | .inr (op, .ok outcome) =>
              refine iff_of_false (fun ⟨h, hsealed⟩ => ?_) fun ⟨_, _, _, _, h, _⟩ => by cases h
              have hkeeps : Keeps (Clear pid) (r.audited.afterwards c (.inr (op, .ok outcome))) :=
                Triple.bind ((clear_about pid).offRecords.quiet.noted rfl) fun _ =>
                  (clear_about pid).offRecords.conclude c op outcome
              have hrun : r.audited.afterwards c (.inr (op, .ok outcome)) w₁ = (.err e, w₂) := h
              have hend := hkeeps.run happroach
              rw [hrun] at hend
              exact hcertain hend hsealed
          | .inr (op, .error err) =>
              have htransition : ∀ {P : World (Audited η) γ → Prop}, AboutCalls P → P w₁ →
                  P (r.audited.transition op .recovering none (some err.message) w₁).2 :=
                fun hP h => (hP.offRecords.transition op _ _ _).run h
              have hafter : r.audited.afterwards c (.inr (op, .error err)) w₁ =
                  (r.audited.transition op .recovering none (some err.message) >>= fun _ =>
                    Prog.throw err) w₁ := rfl
              simp only [hafter]
              constructor
              · rintro ⟨h, hsealed⟩
                refine ⟨c, op, err, w₁, rfl, ?_⟩
                rw [Prog.bind_run] at h
                cases hwrite : r.audited.transition op .recovering none (some err.message) w₁ with
                | mk o w₃ =>
                    rw [hwrite] at h
                    have hnot : Clear pid w₁ → ¬Sealed pid w₃ := fun hc => by
                      have hend := htransition (clear_about pid) hc
                      rw [hwrite] at hend
                      exact hcertain hend
                    cases o with
                    | crash => cases h
                    | ok op' =>
                        cases h
                        rcases happroach with hclear | ⟨-, hkind⟩
                        · exact absurd hsealed (hnot hclear)
                        · rw [kind_some.mp hkind] at he
                          cases he
                    | err e' =>
                        cases h
                        exact ⟨happroach.elim (fun hc => absurd hsealed (hnot hc)) fun h =>
                          h.1.uncertain, rfl⟩
              · rintro ⟨c', op', err', w₁', hsame, hu, hwrite⟩
                cases hsame
                refine ⟨Prog.bind_run_err hwrite, ?_⟩
                have hsealed : Sealed pid w₁ := happroach.elim (fun h => absurd hu h.certain) (·.1)
                have hend := htransition (sealed_about pid) hsealed
                rw [hwrite] at hend
                exact hend

/-- **A drive** keeps the lock unless the record spoils the error. -/
theorem drive_lockKept (hdies : r.DiesAtHosts) {w : World (Audited η) γ} (hw : ¬w.Uncertain)
    (target : Option String) (options : UpgradeOptions) :
    LockKept r.self (r.audited.drive target options w) ↔ ¬r.audited.Spoiled target options w := by
  unfold drive Spoiled
  rw [Prog.bind_run_ok (Prog.get_run w)]
  cases hmanaged : r.audited.hooks.managedElsewhere w.product with
  | true =>
      refine iff_of_true ?_ fun h => by cases h.1
      have habout : AboutCalls fun w : World (Audited η) γ => ¬w.Uncertain := by
        intro w w' hhost _ h
        unfold World.Uncertain at h ⊢
        rwa [hhost]
      have hkeeps : Keeps (fun w : World (Audited η) γ => ¬w.Uncertain) (do
          product (r.audited.hooks.notify "held" [("reason", "managed-elsewhere")])
          pure (.held "this install is managed by another manager") :
            Prog Error (World (Audited η) γ) UpgradeOutcome) :=
        Triple.bind (habout.offRecords.quiet.asked _) fun _ => Triple.pure fun _ h => h
      exact fun _ hu => absurd hu (hkeeps.run hw)
  | false =>
      refine (locked_lockKept r.audited hw (driveLocked_clear hdies r.self target options)).trans ?_
      refine not_congr ⟨?_, ?_⟩
      · rintro ⟨w₀, e, w₂, hacquire, hrun, he, hsealed, hfrees⟩
        have hclear := (acquire_clear r.audited).run_ok hw hacquire
        obtain ⟨c, op, err, w₁, hanswer, hu, hwrite⟩ :=
          (driveLocked_spoils hdies hclear he).mp ⟨hrun, hsealed⟩
        exact ⟨rfl, w₀, c, op, err, w₁, e, w₂, hacquire, hanswer, hu, hwrite, he, hfrees⟩
      · rintro ⟨-, w₀, c, op, err, w₁, e, w₂, hacquire, hanswer, hu, hwrite, he, hfrees⟩
        have hclear := (acquire_clear r.audited).run_ok hw hacquire
        obtain ⟨hrun, hsealed⟩ := (driveLocked_spoils hdies hclear he).mpr
          ⟨c, op, err, w₁, hanswer, hu, hwrite⟩
        exact ⟨w₀, e, w₂, hacquire, hrun, he, hsealed, hfrees⟩

/-- **Uncertainty and the lock**: a recovery and a rollback that had an uncertain host call
made no other one after it and keep the lock, and so does a drive, unless the write of its
record lost the error. -/
theorem uncertainty_keeps_lock (r : Runner η γ) (hdies : r.DiesAtHosts) (w : World η γ) :
    (∀ expected, LockKept r.self (r.audited.recover expected w.audited)) ∧
    (∀ reason, LockKept r.self (r.audited.rollback reason w.audited)) ∧
    ∀ target options, LockKept r.self (r.audited.drive target options w.audited) ↔
      ¬r.audited.Spoiled target options w.audited := by
  have hw : ¬w.audited.Uncertain := fun ⟨event, h, _⟩ => by cases h
  refine ⟨fun expected => ?_, fun reason => ?_, drive_lockKept hdies hw⟩
  · exact locked_lockKept_of_careful r.audited hw (recoverLocked_careful hdies r.self expected)
  · exact locked_lockKept_of_careful r.audited hw (rollbackLocked_careful hdies r.self reason)

end Runner

namespace Service

/-- The product's controller, whose stop command never answers. -/
def hungHost (d : Disk) : Host Service := { host d with stop := fun _ s => (.ok none, s) }

/-- A worker under it that cannot write the record at the boundary number 39. -/
def overrun : Runner Service Unit :=
  { runner 7 { Faults.clean with fault := fun n label =>
      if n = 39 ∧ label = "before:operation.json" then some (.fail (.invalid "disk full"))
      else none } with host := hungHost }

/-- The calls that overrun are the host's own. -/
theorem overrun_diesAtHosts : overrun.DiesAtHosts := by
  intro name hname n e hfault
  have hlabel : s!"after:{name}" ≠ "before:operation.json" := by
    clear hfault
    revert name
    decide
  change (if n = 39 ∧ s!"after:{name}" = "before:operation.json" then
    some (Fault.fail (Error.invalid "disk full")) else none) = some (.fail e) at hfault
  simp [hlabel] at hfault

/-- Its upgrade times out on the stop of the stable service, and gives the lock back. -/
theorem overrun_unlocked : ¬LockKept 7 (overrun.audited.drive (some "2")
    (Runner.requestOptions "op" true 0) (installed "1").audited) := by
  have hends : (match overrun.audited.drive (some "2") (Runner.requestOptions "op" true 0)
      (installed "1").audited with
    | (.err _, w) => w.lock == .free && w.host.events.any fun event => event.uncertain
    | _ => false) = true := by decide +kernel
  generalize overrun.audited.drive (some "2") (Runner.requestOptions "op" true 0)
    (installed "1").audited = o at hends ⊢
  obtain ⟨o, w⟩ := o
  cases o with
  | ok outcome => cases hends
  | crash => cases hends
  | err e =>
      obtain ⟨hlock, hevents⟩ := Bool.and_eq_true_iff.mp hends
      have huncertain : w.Uncertain := by
        obtain ⟨event, he, hu⟩ := List.any_eq_true.mp hevents
        exact ⟨event, he, hu⟩
      intro hkept
      have := (hkept nofun huncertain).lock
      rw [eq_of_beq hlock] at this
      cases this

/-- Not every drive keeps its lock after an uncertain host call. -/
theorem uncertainty_loses_lock : ¬∀ (r : Runner Service Unit) (w : World Service Unit) target
    options, r.DiesAtHosts → LockKept r.self (r.audited.drive target options w.audited) := fun h =>
  overrun_unlocked (h overrun (installed "1") (some "2") _ overrun_diesAtHosts)

/-- A stop that overruns its budget, in each of the three calls. -/
theorem uncertainty_keeps_lock_overrun :
    LockKept 7 (overrun.audited.recover none (installed "1").audited) ∧
    LockKept 7 (overrun.audited.rollback "operator" (installed "1").audited) ∧
    overrun.audited.Spoiled (some "2") (Runner.requestOptions "op" true 0)
      (installed "1").audited := by
  obtain ⟨hrecover, hrollback, hdrive⟩ :=
    Runner.uncertainty_keeps_lock overrun overrun_diesAtHosts (installed "1")
  refine ⟨hrecover none, hrollback "operator", Classical.byContradiction fun hno => ?_⟩
  exact overrun_unlocked ((hdrive _ _).mpr hno)

end Service

end KCarrier
