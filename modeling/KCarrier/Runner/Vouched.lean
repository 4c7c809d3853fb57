import KCarrier.Runner.Books

/-!
# KCarrier.Runner.Vouched

What a settled record stands for.

A call that finds a settled record of the version that is stable takes the directory as it is
(`Disk.Skippable`), so whatever recovery would have brought about has to hold there.
`Vouches` lists what the engine has to do for that; `Vouched` then goes through every call
that recovers or keeps a record of its own: that record is open while the engine works.
-/

namespace KCarrier

open Crash
open Running

/-- Recovery is skipped here: the record is settled, on a journal at rest and on the version
that is stable. -/
def Disk.Skippable (d : Disk) : Prop :=
  ∃ op outcome state, d.readOperation = .observed op ∧ op.outcome = some outcome ∧
    d.transactionState = .ok state ∧ state.phase.atRest = true ∧
    state.stable = Runner.settledVersion op outcome

namespace Runner

variable {η γ : Type}

/-- Recovery brings about `Q`, an upgrade starts and ends with it, and `B` holds wherever they
are cut off.  Where `X` holds, as it does when nothing is settled, recovery is not skipped. -/
structure Vouches (r : Runner η γ) (X B Q : World η γ → Prop) : Prop where
  exempt : ∀ w, Unsettled w → X w
  exemptQuiet : Indifferent X
  exemptLock : OffLock X
  recovers : ∀ w, X w → ¬w.disk.Skippable
  base : OffRecords B
  baseLock : OffLock B
  rests : OffRecords Q
  restsLock : OffLock Q
  weaken : ∀ w, Q w → B w
  recover : ∀ c, ReadsProduct c → Triple (OnWorld B) (r.engine c).recover (fun _ => OnWorld Q)
    (fun _ => OnWorld B)
  upgrade : ∀ c, ReadsProduct c → ∀ version bytes,
    Triple (OnWorld Q) ((r.engine c).upgrade version bytes) (fun _ => OnWorld Q)
      (fun _ => OnWorld B)
  clear : Keeps Q (r.store.clear : Prog Error (World η γ) Unit)

/-- `Q` holds unless `X` does. -/
def Vouched (X B Q : World η γ → Prop) (w : World η γ) : Prop := B w ∧ (X w ∨ Q w)

/-- `P` holds, and the record of the drive is open. -/
def Holding (P : World η γ → Prop) (target : Option String) (op : Option Operation)
    (w : World η γ) : Prop := P w ∧ ∃ o, op = some o ∧ Opened target o w

theorem unsettled_about : AboutRecords (Unsettled : World η γ → Prop) := by
  intro w w' hsame h op hop
  rw [Disk.readOperation_congr hsame.1.1] at hop
  exact h op hop

theorem Opened.unsettled {target : Option String} {o : Operation} {w : World η γ}
    (h : Opened target o w) : Unsettled w := by
  intro op hop
  rw [h.read] at hop
  cases hop
  exact h.open_

theorem holding_quiet {P : World η γ → Prop} (hP : OffRecords P) (target : Option String)
    (op : Option Operation) : Indifferent (Holding P target op) where
  tick w n h := ⟨hP.quiet.tick w n h.1, h.2.imp fun _ h => ⟨h.1, h.2.same rfl⟩⟩
  note w entry he h := ⟨hP.quiet.note w entry he h.1, h.2.imp fun _ h => ⟨h.1, h.2.same rfl⟩⟩
  product w p h := ⟨hP.quiet.product w p h.1, h.2.imp fun _ h => ⟨h.1, h.2.same rfl⟩⟩
  observed w o h := ⟨hP.quiet.observed w o h.1, h.2.imp fun _ h => ⟨h.1, h.2.same rfl⟩⟩
  files w d hj ho hr hs h :=
    ⟨hP.quiet.files w d hj ho hr hs h.1, h.2.imp fun _ h => ⟨h.1, h.2.same ho⟩⟩

section

variable {r : Runner η γ} {c : Convergence (World η γ)} {X B Q : World η γ → Prop}
  {target : Option String} {options : UpgradeOptions}

namespace Vouches

theorem vouched_of_rests (h : Vouches r X B Q) {w : World η γ} (hw : Q w) : Vouched X B Q w :=
  ⟨h.weaken w hw, .inr hw⟩

theorem quiet (h : Vouches r X B Q) : Indifferent (Vouched X B Q) where
  tick w n hw := ⟨h.base.quiet.tick w n hw.1,
    hw.2.imp (h.exemptQuiet.tick w n) (h.rests.quiet.tick w n)⟩
  note w entry he hw :=
    ⟨h.base.quiet.note w entry he hw.1, hw.2.imp (h.exemptQuiet.note w entry he)
      (h.rests.quiet.note w entry he)⟩
  product w p hw := ⟨h.base.quiet.product w p hw.1,
    hw.2.imp (h.exemptQuiet.product w p) (h.rests.quiet.product w p)⟩
  observed w o hw := ⟨h.base.quiet.observed w o hw.1,
    hw.2.imp (h.exemptQuiet.observed w o) (h.rests.quiet.observed w o)⟩
  files w d hj ho hr hs hw := ⟨h.base.quiet.files w d hj ho hr hs hw.1,
    hw.2.imp (h.exemptQuiet.files w d hj ho hr hs) (h.rests.quiet.files w d hj ho hr hs)⟩

theorem offLock (h : Vouches r X B Q) : OffLock (Vouched X B Q) := fun w lock n hw =>
  ⟨h.baseLock w lock n hw.1, hw.2.imp (h.exemptLock w lock n) (h.restsLock w lock n)⟩

/-- **The recovery of a call**, through the engine or past it. -/
theorem recoverEngine (h : Vouches r X B Q) (hc : ReadsProduct c) :
    Triple (OnWorld (Vouched X B Q)) (r.recoverEngine c) (fun _ => OnWorld Q)
      (fun _ => OnWorld (Vouched X B Q)) := by
  refine recovering_within (fun _ hw => hw) ?_ ?_
  · intro w op outcome state _ hw hop hout hstate hrest hv _
    exact hw.2.resolve_left fun hx =>
      h.recovers w hx ⟨op, outcome, state, hop, hout, hstate, hrest, hv⟩
  · refine ((h.recover c hc).and (unsettled_about.frame (r := r) hc).recover).conseq
      (fun _ hs => ⟨hs.1.1, hs.2.1⟩) (fun _ _ hs => hs.1)
      fun _ s hs => ⟨hs.1, .inl (h.exempt s.world hs.2)⟩

/-- Recording a phase of an open record. -/
theorem progress (h : Vouches r X B Q) {P : World η γ → Prop} (hP : OffRecords P)
    (hPB : ∀ w, P w → B w) (op : Option Operation) (phase : OperationPhase)
    (reason : Option String) :
    Triple (Holding P target op) (r.transition op phase none reason)
      (fun op' => Holding P target op') (fun _ => Vouched X B Q) := by
  have hopen : ∀ op w, Holding P target op w → Vouched X B Q w :=
    fun _ w ⟨hw, _, _, ho⟩ => ⟨hPB w hw, .inl (h.exempt w ho.unsettled)⟩
  refine (transition_triple (fun _ => trivial : _ → True) (holding_quiet hP target op).tick
    (fun op' => (holding_quiet hP target op').tick) (fun _ _ => .inr trivial)
    (fun hnone w hw => hnone ▸ hw) fun o ho w now _ hw => ?_).crash
    fun w hw => hw.1.elim (hopen op w) fun ⟨op', hw⟩ => hopen op' w hw
  obtain ⟨hw, o', ho', hopened⟩ := hw
  rw [ho, Option.some.injEq] at ho'
  subst ho'
  exact ⟨hP.record w _ hw, _, rfl, hopened.advance now phase reason⟩

/-- Recording anything where `Q` holds. -/
theorem transition (h : Vouches r X B Q) {P : World η γ → Prop} (hP : ∀ w, P w → Q w)
    (op : Option Operation) (phase : OperationPhase) (outcome : Option Outcome)
    (reason : Option String) :
    Triple P (r.transition op phase outcome reason) (fun _ => Q) (fun _ => Vouched X B Q) :=
  (h.rests.transition op phase outcome reason).conseq hP (fun _ _ hw => hw)
    fun _ _ hw => h.vouched_of_rests hw

/-- **The engine's upgrade** of a drive with a record. -/
theorem upgrade_holding (h : Vouches r X B Q) (hc : ReadsProduct c) (op : Option Operation)
    (version : String) :
    Triple (OnWorld (Holding Q target op)) ((r.engine c).upgrade version incomingPath)
      (fun _ => OnWorld Q) (fun _ => OnWorld (Holding B target op)) := by
  refine Triple.of_forall fun s ⟨hs, o, ho, hopened⟩ => ?_
  have hframe := ((aboutRecords_operation s.world.disk.operation).frame (r := r) hc).upgrade
    version incomingPath
  refine ((h.upgrade c hc version incomingPath).and hframe).conseq (fun s' hs' => ?_)
    (fun _ _ hs' => hs'.1) fun _ _ hs' => ⟨hs'.1, o, ho, hopened.same hs'.2⟩
  subst hs'
  exact ⟨hs, rfl⟩

/-- **The outline of a drive** that keeps a record. -/
theorem recordedOutline (h : Vouches r X B Q) (hc : ReadsProduct c)
    (hrecord : options.operation ≠ none) (htarget : target ≠ none) :
    DriveOutline r c target options (fun _ => True) (Vouched X B Q)
      (fun op _ => Holding Q target op) (fun _ _ => Q) (fun op _ => Holding B target op)
      (fun _ => Q) (fun _ => Vouched X B Q) where
  outside := .any
  quietActive op _ := holding_quiet h.rests target op
  quietEnded _ _ := h.rests.quiet
  quiet _ := h.rests.quiet
  active _ _ _ _ _ hw := h.vouched_of_rests hw.1
  ended _ _ _ _ _ hw := h.vouched_of_rests hw
  broken _ w := fun ⟨hw, _, _, ho⟩ => ⟨hw, .inl (h.exempt w ho.unsettled)⟩
  closed _ _ _ _ hw := h.vouched_of_rests hw
  start := by
    have hsettle : Triple (OnWorld Q) (lift r.settle) (fun _ => OnWorld Q)
        (fun _ => OnWorld (Vouched X B Q)) :=
      (Keeps.lift h.rests.settle).conseq (fun _ hs => hs) (fun _ _ hs => hs)
        fun _ _ hs => h.vouched_of_rests hs
    have hopens : Triple Q (r.openOperation target options)
        (fun opened => Holding Q target opened.1) (fun _ => Vouched X B Q) := by
      refine opening_triple h.rests.quiet.tick (fun op => (holding_quiet h.rests target op).tick)
        (h.rests.receipts.retirePrevious r) (fun _ => h.vouched_of_rests)
        (fun _ _ hw => h.vouched_of_rests hw.1) (fun hnone => absurd hnone hrecord)
        fun desc state now w _ hw _ hvalid => ?_
      obtain ⟨version, hversion⟩ := Option.ne_none_iff_exists'.mp htarget
      refine ⟨h.rests.record w _ hw, _, rfl, rfl, rfl, hvalid, ?_⟩
      rw [hversion]
      rfl
    exact ⟨_, _, h.recoverEngine hc, hsettle, Triple.zoom fun s hs => hopens s.world hs⟩
  progress op _ phase reason := h.progress h.rests h.weaken op phase reason
  finish op _ outcome reason _ := h.transition (fun _ hw => hw.1) op _ _ reason
  upgrade op release _ := h.upgrade_holding hc op release.version
  abandon op _ reason := (h.progress h.base (fun _ hw => hw) op .recovering reason).post
    fun _ w ⟨hw, _, _, ho⟩ => ⟨hw, .inl (h.exempt w ho.unsettled)⟩
  conclude op outcome reason := h.transition (fun _ hw => hw) op _ _ reason

theorem recoverLocked (h : Vouches r X B Q) (expected : Option Expected) :
    Triple (Vouched X B Q) (r.recoverLocked expected) (fun _ => Q) (fun _ => Vouched X B Q) := by
  refine recoverLocked_within expected h.quiet.observed (fun _ _ hw => hw) fun c hc => ?_
  refine Triple.bind (h.recoverEngine hc) fun _ => ?_
  exact (Keeps.lift h.rests.settle).conseq (fun _ hs => hs) (fun _ _ hs => hs)
    fun _ _ hs => h.vouched_of_rests hs

/-- **A call** that keeps a record or recovers, wherever it is cut off. -/
theorem recorded_call (h : Vouches r X B Q) (call : Call) (hrecorded : ¬call.unrecorded)
    (hrollback : ∀ reason, call = .rollback reason →
      Keeps (Vouched X B Q) (r.rollbackLocked reason)) :
    CallOutline r call (Vouched X B Q) (Vouched X B Q) := by
  refine ⟨h.quiet, h.offLock, h.offLock, fun _ hw => hw,
    fun _ => (h.recoverLocked _).post fun _ _ => h.vouched_of_rests,
    fun target options hdrives => ?_, hrollback⟩
  have hrecord : options.operation ≠ none := fun hnone => hrecorded (hdrives.unrecorded hnone)
  obtain ⟨desc, hdesc⟩ := Option.ne_none_iff_exists'.mp hrecord
  obtain ⟨version, htarget, -⟩ := hdrives.named desc hdesc
  refine Triple.pre (P := Vouched X B Q) ?_ fun _ hw => hw.1
  refine driveLocked_within target options h.quiet.observed (fun _ _ hw => hw) fun c hc => ?_
  exact (h.recordedOutline hc hrecord (by simp [htarget])).driveEngine_triple.post
    fun _ _ hw => h.vouched_of_rests hw

/-- **Any call** leaves `B`. -/
theorem any_call (h : Vouches r X B Q) (call : Call) : CallOutline r call (Vouched X B Q) B := by
  refine ⟨h.base.quiet, h.offLock, h.baseLock, fun _ hw => hw.1,
    fun _ => (h.recoverLocked _).conseq (fun _ hw => hw) (fun _ => h.weaken) fun _ _ hw => hw.1,
    fun target options _ => ?_, fun reason _ => ?_⟩
  · refine Triple.pre (P := Vouched X B Q) ?_ fun _ hw => hw.1
    refine driveLocked_within target options h.quiet.observed (fun _ _ hw => hw.1) fun c hc => ?_
    have houtline : DriveOutline r c target options (fun _ => True) (Vouched X B Q) (fun _ _ => Q)
        (fun _ _ => Q) (fun _ _ => B) (fun _ => Q) (fun _ => B) :=
      { outside := .any
        quietActive := fun _ _ => h.rests.quiet
        quietEnded := fun _ _ => h.rests.quiet
        quiet := fun _ => h.rests.quiet
        active := fun _ _ _ w _ hw => h.weaken w hw
        ended := fun _ _ _ w _ hw => h.weaken w hw
        broken := fun _ _ hw => hw
        closed := fun _ _ w _ hw => h.weaken w hw
        start := ⟨OnWorld Q, OnWorld Q, (h.recoverEngine hc).crash fun _ hs => hs.1,
          (Keeps.lift h.rests.settle).crash fun s hs => h.weaken s.world hs,
          (Keeps.lift (h.rests.openOperation target options)).crash fun s hs => h.weaken s.world hs⟩
        progress := fun op _ phase reason =>
          (h.rests.transition op phase none reason).crash h.weaken
        finish := fun op _ outcome reason _ =>
          (h.rests.transition op outcome.phase (some outcome) reason).crash h.weaken
        upgrade := fun _ release _ => h.upgrade c hc release.version incomingPath
        abandon := fun op _ reason => h.base.transition op .recovering none reason
        conclude := fun op outcome reason =>
          (h.rests.transition op (recordedAs outcome).phase (some (recordedAs outcome))
            reason).crash h.weaken }
    exact houtline.driveEngine_triple.post fun _ s hs => h.weaken s.world hs
  · exact rollbackLocked_triple (R := Q) reason h.quiet.observed (fun _ hw => hw.1)
      (fun c hc => (h.recover c hc).pre fun _ hs => hs.1)
      (h.clear.conseq (fun _ hw => hw) (fun _ w hw => h.weaken w hw) fun _ w hw => h.weaken w hw)
      h.base.quiet

end Vouches

end

end Runner

end KCarrier
