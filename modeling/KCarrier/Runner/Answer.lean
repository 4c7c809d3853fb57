import KCarrier.Runner.Errors
import KCarrier.Runner.Books
import KCarrier.Runner.Replay

/-!
# KCarrier.Runner.Answer

What an upgrade request comes to.

A drive that returns leaves the record of its own request with the outcome it reports
(`drive_answers`), and the only receipts it replays are that request's.  A drive held
as managed elsewhere takes no lock and leaves no record (`UpgradeResult.managed`).
-/

namespace KCarrier

open Crash
open Running

/-! ## records of one operation -/

/-- `op` is a record of the operation `e`. -/
structure Operation.IsFor (op : Operation) (e : Expected) : Prop where
  valid : op.validate = .ok ()
  id : op.id = e.id
  targetVersion : op.targetVersion = e.targetVersion

/-- The record of `e`'s id, if it is current, is a record of `e`. -/
def Disk.Paired (d : Disk) (e : Expected) : Prop :=
  ∀ op, d.readOperation = .observed op → op.id = e.id → op.targetVersion = e.targetVersion

/-- An error of the kind `p`, or the replay of a receipt of `e`. -/
def Replays (p : Error → Prop) (e : Expected) (err : Error) : Prop :=
  p err ∨ ∃ op, err = .replay op ∧ op.IsFor e ∧ op.outcome ≠ none

theorem readOperation_isFor {d : Disk} {op : Operation} {e : Expected}
    (h : d.readOperation = .observed op) (hid : op.id = e.id)
    (ht : op.targetVersion = e.targetVersion) : op.IsFor e :=
  ⟨(Disk.readOperation_observed_iff.mp h).2, hid, ht⟩

theorem readOperationFile_valid {file : File Operation} {op : Operation}
    (h : readOperationFile file = .observed op) : op.validate = .ok () := by
  cases file with
  | absent => cases h
  | unreadable message => cases h
  | content record =>
      cases hv : record.validate with
      | error err => simp [readOperationFile, hv] at h
      | ok u =>
          simp only [readOperationFile, hv, OperationRead.observed.injEq] at h
          rw [← h, hv]

namespace Runner

/-- What `prior` may refuse a request with, and where it has that from. -/
theorem priorAnswer_error {digest : String → String} {d : Disk} {e : Expected} {recover : Bool}
    {err : Error} (h : priorAnswer digest d e recover = .error err) :
    (∃ reason, (d.readOperation = .unreadable reason ∨
      d.readArchive digest e.id = .unreadable reason) ∧ err = .invalid reason) ∨
    (err = .invalid "OPERATION_ID_CONFLICT" ∨ err = .invalid "RECOVERY_OPERATION_NOT_FOUND") ∨
    ∃ op, (d.readOperation = .observed op ∨ d.readArchive digest e.id = .observed op) ∧
      err = .replay op ∧ op.IsFor e ∧ op.outcome ≠ none := by
  have hmissing : missingAnswer recover = .error err →
      err = .invalid "OPERATION_ID_CONFLICT" ∨ err = .invalid "RECOVERY_OPERATION_NOT_FOUND" := by
    intro hm
    cases recover with
    | false => cases hm
    | true =>
        cases hm
        exact .inr rfl
  have hvalid : ∀ op, d.readOperation = .observed op ∨ d.readArchive digest e.id = .observed op →
      op.validate = .ok () := by
    rintro op (hread | harchive)
    · exact (Disk.readOperation_observed_iff.mp hread).2
    · exact readOperationFile_valid (readArchive_observed harchive).1
  have hrecord : ∀ op, d.readOperation = .observed op ∨ d.readArchive digest e.id = .observed op →
      recordAnswer e (missingAnswer recover) (some op) = .error err →
      (err = .invalid "OPERATION_ID_CONFLICT" ∨ err = .invalid "RECOVERY_OPERATION_NOT_FOUND") ∨
      ∃ op, (d.readOperation = .observed op ∨ d.readArchive digest e.id = .observed op) ∧
        err = .replay op ∧ op.IsFor e ∧ op.outcome ≠ none := by
    intro op hfound hanswer
    by_cases hid : op.id = e.id
    · by_cases ht : op.targetVersion = e.targetVersion
      · by_cases ho : op.outcome = none
        · simp [recordAnswer, hid, ht, ho] at hanswer
        · rw [recordAnswer_some hid ht ho] at hanswer
          cases hanswer
          exact .inr ⟨op, hfound, rfl, ⟨hvalid op hfound, hid, ht⟩, ho⟩
      · rw [recordAnswer_conflict hid ht] at hanswer
        cases hanswer
        exact .inl (.inl rfl)
    · simp only [recordAnswer, hid, if_false] at hanswer
      exact .inl (hmissing hanswer)
  unfold priorAnswer at h
  cases hop : d.readOperation with
  | unreadable reason =>
      simp only [hop, Except.error.injEq] at h
      exact .inl ⟨reason, .inl rfl, h.symm⟩
  | genesis =>
      rw [hop] at hrecord
      cases ha : d.readArchive digest e.id with
      | unreadable reason =>
          simp only [hop, ha, Except.error.injEq] at h
          exact .inl ⟨reason, .inr rfl, h.symm⟩
      | observed op =>
          simp only [hop, ha] at h hrecord
          exact .inr (hrecord op (.inr rfl) h)
      | genesis =>
          simp only [hop, ha] at h
          exact .inr (.inl (hmissing h))
  | observed current =>
      rw [hop] at hrecord
      cases ha : d.readArchive digest e.id with
      | unreadable reason =>
          simp only [hop, ha, Except.error.injEq] at h
          exact .inl ⟨reason, .inr rfl, h.symm⟩
      | observed op =>
          simp only [hop, ha] at h hrecord
          exact .inr (hrecord op (.inr rfl) h)
      | genesis =>
          simp only [hop, ha] at h hrecord
          exact .inr (hrecord current (.inl rfl) h)

/-- A request is refused as text, or the record that answers it is replayed. -/
theorem priorAnswer_replays {p : Error → Prop} (hp : Plain p) {digest : String → String} {d : Disk}
    {e : Expected} {recover : Bool} {err : Error}
    (h : priorAnswer digest d e recover = .error err) : Replays p e err := by
  rcases priorAnswer_error h with ⟨reason, -, rfl⟩ | (rfl | rfl) | ⟨op, -, rfl, hop, ho⟩
  · exact .inl (hp.invalid _)
  · exact .inl (hp.invalid _)
  · exact .inl (hp.invalid _)
  · exact .inr ⟨op, rfl, hop, ho⟩

theorem priorAnswer_paired {digest : String → String} {d : Disk} {e : Expected} {recover : Bool}
    (h : priorAnswer digest d e recover = .ok ()) : d.Paired e :=
  fun op hop hid => ((priorAnswer_ok h).2 op hop hid).1

variable {η γ : Type} {r : Runner η γ} {p : Error → Prop} {e : Expected}

/-! ## the steps of a drive -/

/-- The open record of `e` is current. -/
def Owned (e : Expected) (op : Option Operation) (w : World η γ) : Prop :=
  ∃ o, op = some o ∧ w.disk.operation = .content o ∧ o.IsFor e ∧ o.outcome = none

/-- The record of `e` is current, with its outcome. -/
def Ended (e : Expected) (outcome : Outcome) (w : World η γ) : Prop :=
  ∃ o, w.disk.operation = .content o ∧ o.IsFor e ∧ o.outcome = some outcome

def Paired (e : Expected) (w : World η γ) : Prop := w.disk.Paired e

/-- `P` is about the current record only. -/
def OnOperation (P : World η γ → Prop) : Prop :=
  ∀ w w', w'.disk.operation = w.disk.operation → P w → P w'

theorem OnOperation.records {P : World η γ → Prop} (hP : OnOperation P) : AboutRecords P :=
  fun w w' hsame hw => hP w w' hsame.1.1 hw

theorem OnOperation.books {P : World η γ → Prop} (hP : OnOperation P) : AboutBooks P :=
  fun w w' hsame hw => hP w w' hsame.operation hw

theorem owned_on (e : Expected) (op : Option Operation) :
    OnOperation (Owned e op : World η γ → Prop) := by
  rintro w w' hsame ⟨o, hop, hfile, ho⟩
  exact ⟨o, hop, hsame.trans hfile, ho⟩

theorem ended_on (e : Expected) (outcome : Outcome) :
    OnOperation (Ended e outcome : World η γ → Prop) := by
  rintro w w' hsame ⟨o, hfile, ho⟩
  exact ⟨o, hsame.trans hfile, ho⟩

theorem paired_on (e : Expected) : OnOperation (Paired e : World η γ → Prop) := by
  intro w w' hsame h op hop
  rw [Disk.readOperation_congr hsame] at hop
  exact h op hop

/-- A phase of the open record. -/
theorem owned_progress (hs : r.store.Fails p) (hp : Plain p) (op : Option Operation)
    (phase : OperationPhase) (reason : Option String) :
    Triple (Owned e op) (r.transition op phase none reason) (fun op' => Owned e op')
      (fun err _ => Kind p err) := by
  refine (transition_raises hs hp op phase none reason).returns
    (transition_triple (fun _ => trivial : _ → True) (owned_on e op).books.offTick
      (fun op' => (owned_on e op').books.offTick) (fun _ _ => .inr trivial) ?_ ?_) fun _ h => h
  · rintro rfl w ⟨o, hop, -⟩
    cases hop
  · rintro o rfl w now hv ⟨o', hop, -, hfor, ho⟩
    cases hop
    exact ⟨_, rfl, rfl, ⟨hv, hfor.id, hfor.targetVersion⟩, by simp [advance, ho]⟩

/-- The outcome of the open record. -/
theorem owned_finish (hs : r.store.Fails p) (hp : Plain p) (op : Option Operation)
    (outcome : Outcome) (reason : Option String) :
    Triple (Owned e op) (r.transition op outcome.phase (some outcome) reason)
      (fun _ => Ended e outcome) (fun err _ => Kind p err) := by
  refine (transition_raises hs hp op _ _ reason).returns
    (transition_triple (Q := fun _ => Ended e outcome) (fun _ => trivial : _ → True)
      (owned_on e op).books.offTick (fun _ => (ended_on e outcome).books.offTick)
      (fun _ _ => .inr trivial) ?_ ?_) fun _ h => h
  · rintro rfl w ⟨o, hop, -⟩
    cases hop
  · rintro o rfl w now hv ⟨o', hop, -, hfor, -⟩
    cases hop
    exact ⟨_, rfl, ⟨hv, hfor.id, hfor.targetVersion⟩, by simp [advance]⟩

theorem settle_paired : Triple (Paired e) r.settle (fun _ => Paired e) (fun _ _ => True) := by
  have hrecord : ∀ (w : World η γ) op now phase outcome reason, Paired e w →
      w.disk.readOperation = .observed op →
      Paired e (w.record (advance op now phase outcome reason)) := by
    intro w op now phase outcome reason hw hop op' hop' hid
    rw [(observed_record hop').1] at hid ⊢
    exact hw op hop hid
  refine settling_within (paired_on e).books.offTick (paired_on e).books.offTick
    (fun _ _ => trivial) (fun _ _ => trivial) (fun _ hw _ => hw) ?_ ?_ fun _ _ hw _ _ => hw
  · intro w op state now hw hop _ _ _ _
    exact hrecord w op now _ _ _ hw hop
  · intro w op state now reason hw hop _ _ _ _
    exact hrecord w op now _ _ _ hw hop

/-- Where opening a record stops: at an error from outside, or at the current record, when that
is the receipt of the operation itself. -/
theorem openOperation_errors {P : World η γ → Prop} {F : Option Error → World η γ → Prop}
    (hs : r.store.Fails p) (hp : Plain p) (target : Option String) (options : UpgradeOptions)
    (hF : ∀ err w, Kind p err → F err w)
    (hreplay : ∀ desc previous w, options.operation = some desc → P w →
      w.disk.readOperation = .observed previous → previous.id = desc.id →
      previous.outcome ≠ none → F (some (.replay previous)) w) :
    Triple P (r.openOperation target options) (fun _ _ => True) F := by
  have hraise : ∀ {α : Type} {S : World η γ → Prop} {m : Prog Error (World η γ) α}, Raises p m →
      Triple S m (fun _ _ => True) F := fun hm =>
    hm.conseq (fun _ _ => trivial) (fun _ _ _ => trivial) fun err w h => hF err w h
  have hcurrent : Raises p (transactionState : Prog Error (World η γ) TxnState) :=
    FileStore.readDisk_raises fun d err he => transactionState_error hp he
  unfold openOperation
  refine Triple.bind (((readRequired_raises hp).and readRequired_triple).conseq (fun _ hw => hw)
    (fun _ _ hw => hw) fun err w h => hF err w h.1) fun previous => ?_
  cases hdesc : options.operation with
  | none => exact hraise (Raises.bind hcurrent fun _ => Raises.pure _)
  | some desc =>
      have hnew : Raises p (do
          let state ← transactionState
          let w ← Prog.get
          let op := newOperation desc options target state.stable (r.clock w.tick)
          r.store.persistOperation op
          pure (some op, state.stable) : Prog Error (World η γ) (Option Operation × String)) := by
        refine Raises.bind hcurrent fun state => Raises.bind Raises.get fun w => ?_
        exact Raises.bind (FileStore.persistOperation_raises hs hp _) fun _ => Raises.pure _
      cases previous with
      | none => exact hraise hnew
      | some previous =>
          refine Triple.bind (R := fun _ _ => True) ?_ fun _ => hraise hnew
          unfold retirePrevious
          refine Triple.ite (fun hown => Triple.throw fun w hw => ?_) fun _ => hraise ?_
          · exact hreplay desc previous w hdesc hw.2 hw.1 hown.1 hown.2
          · exact Raises.ite (Raises.ite (Raises.throw (hp.invalid _))
              (FileStore.archive_raises hs hp previous)) (Raises.pure ())

/-- Opening the record of the request. -/
theorem openOperation_answers (hs : r.store.Fails p) (hp : Plain p) {desc : OperationDescriptor}
    {target : String} {options : UpgradeOptions} (hdesc : options.operation = some desc)
    (hid : desc.id = e.id) (htarget : target = e.targetVersion) :
    Triple (Paired e) (r.openOperation (some target) options)
      (fun opened (w : World η γ) => Owned e opened.1 w)
      (fun err _ => Kind (Replays p e) err) := by
  have herrors : Triple (Paired e : World η γ → Prop) (r.openOperation (some target) options)
      (fun _ _ => True) (fun err _ => Kind (Replays p e) err) := by
    refine openOperation_errors hs hp (some target) options (fun _ _ h err he => .inl (h err he)) ?_
    intro desc' previous w hdesc' hw hop hsame ho
    rw [hdesc, Option.some.injEq] at hdesc'
    subst hdesc'
    have hsame : previous.id = e.id := hsame.trans hid
    rw [kind_some]
    exact .inr ⟨previous, rfl, readOperation_isFor hop hsame (hw previous hop hsame), ho⟩
  have hopened : Triple (Paired e : World η γ → Prop) (r.openOperation (some target) options)
      (fun opened => Owned e opened.1) (fun _ _ => True) := by
    refine opening_triple (paired_on e).books.offTick (fun op => (owned_on e op).books.offTick)
      ((paired_on e).books.offReceipts.retirePrevious r) (fun _ _ => trivial) (fun _ _ _ => trivial) (fun hnone => ?_) fun desc' state now w hdesc' _ _ hv => ?_
    · rw [hdesc] at hnone
      cases hnone
    · rw [hdesc, Option.some.injEq] at hdesc'
      subst hdesc'
      exact ⟨_, rfl, rfl, ⟨hv, hid, htarget⟩, rfl⟩
  exact (herrors.and hopened).conseq (fun _ hw => ⟨hw, hw⟩) (fun _ _ hw => hw.2) fun _ _ h => h.1

/-- **The outline of a drive** that keeps the record of `e`. -/
theorem answerOutline (hr : r.Surroundings p) {c : Convergence (World η γ)} (hc : ReadsProduct c)
    {desc : OperationDescriptor} {target : String} {options : UpgradeOptions}
    (hdesc : options.operation = some desc) (hid : desc.id = e.id)
    (htarget : target = e.targetVersion) :
    DriveOutline r c (some target) options p (Paired e) (fun op _ => Owned e op)
      (fun op _ => Owned e op) (fun op err w => Owned e op w ∧ Kind p err) (Ended e)
      (fun err _ => Kind (Replays p e) err) where
  outside := hr.toOutside
  quietActive op _ := (owned_on e op).books.indifferent
  quietEnded op _ := (owned_on e op).books.indifferent
  quiet outcome := (ended_on e outcome).books.indifferent
  active _ _ _ _ h _ err he := .inl (h err he)
  ended _ _ _ _ h _ err he := .inl (h err he)
  broken _ _ _ := kind_none
  closed _ _ _ h _ err he := .inl (h err he)
  start := by
    have hrecover : Triple (OnWorld (Paired e)) (r.recoverEngine c) (fun _ => OnWorld (Paired e))
        (fun err _ => Kind (Replays p e) err) :=
      (recoverEngine_raises hr c).returns (recoverEngine_keeps (paired_on e).records hc)
        fun _ h => .inl h
    have hsettle : Triple (Paired e) r.settle (fun _ => Paired e)
        (fun err _ => Kind (Replays p e) err) :=
      (settle_raises hr.faults hr.plain).returns settle_paired fun _ h => .inl h
    have hopen := openOperation_answers (r := r) (η := η) (γ := γ) hr.faults hr.plain hdesc hid htarget
    refine ⟨OnWorld (Paired e), OnWorld (Paired e), hrecover, ?_, ?_⟩
    · exact Triple.zoom fun s hs => hsettle s.world hs
    · exact Triple.zoom fun s hs => hopen s.world hs
  progress op n phase reason := (owned_progress hr.faults hr.plain op phase reason).conseq
    (fun _ hw => hw) (fun _ _ hw => hw) fun _ _ h err he => .inl (h err he)
  finish op n outcome reason _ := (owned_finish hr.faults hr.plain op outcome reason).conseq
    (fun _ hw => hw) (fun _ _ hw => hw) fun _ _ h err he => .inl (h err he)
  upgrade op release _ := by
    have hkeeps := ((owned_on e op).records.frame (r := r) hc).upgrade release.version incomingPath
    exact (((engine_raises hr c).upgrade release.version incomingPath).and hkeeps).conseq
      (fun _ hs => hs) (fun _ _ hs => hs) fun _ _ h => ⟨h.2, h.1⟩
  abandon op err reason := by
    intro w hw
    have hkind : Kind (Replays p e) (some err) := fun err' he => .inl (hw.2 err' he)
    exact ((owned_progress hr.faults hr.plain op .recovering reason) w hw.1).mono
      (fun _ _ _ => hkind) fun _ _ h err' he => .inl (h err' he)
  conclude op outcome reason :=
    (owned_finish hr.faults hr.plain op (recordedAs outcome) reason).conseq
      (fun _ hw => hw) (fun _ _ hw => hw) fun _ _ h err he => .inl (h err he)

/-! ## the result of an upgrade -/

/-- **A drive** that returns leaves the record of its request, with the outcome it
reports; one that does not replays no other receipt. -/
theorem drive_answers (hr : r.Surroundings p) {desc : OperationDescriptor} {target : String}
    {options : UpgradeOptions} (hdesc : options.operation = some desc) (hid : desc.id = e.id)
    (htarget : target = e.targetVersion) {w : World η γ}
    (hself : r.hooks.managedElsewhere w.product = false) :
    Triple (· = w) (r.drive (some target) options) (fun result => Ended e (concludedAs result))
      (fun err _ => Kind (Replays p e) err) := by
  have hinvalid : ∀ message, Kind (Replays p e) (some (.invalid message)) := fun message =>
    kind_some.mpr (.inl (hr.invalid message))
  have he : (⟨desc.id, (some target).getD ""⟩ : Expected) = e := by
    rw [hid, htarget]
    rfl
  have hbody : Triple (fun _ : World η γ => True) (r.driveLocked (some target) options)
      (fun result => Ended e (concludedAs result)) (fun err _ => Kind (Replays p e) err) := by
    refine driveLocked_triple (E := Paired e) (some target) options (fun message _ _ => hinvalid message)
      (fun desc' err w hdesc' _ herr => ?_) (fun w _ hthrough => ?_)
      (paired_on e).books.observed (fun message _ _ => hinvalid message)
      fun c hc => (answerOutline hr hc hdesc hid htarget).driveEngine_triple
    · rw [hdesc, Option.some.injEq] at hdesc'
      subst hdesc'
      rw [he] at herr
      exact kind_some.mpr (priorAnswer_replays hr.plain herr)
    · rw [hdesc, Option.map_some, he] at hthrough
      exact priorAnswer_paired (hthrough e rfl)
  have hlocked : Triple (fun _ : World η γ => True) (r.locked (r.driveLocked (some target) options))
      (fun result => Ended e (concludedAs result)) (fun err _ => Kind (Replays p e) err) :=
    locked_kind_triple hr.lockErrors (fun _ _ _ h => h) (fun result => (ended_on e _).books.offLock)
      (fun _ _ _ _ h => h) (fun _ _ h _ err he => .inl (h err he))
      (fun _ _ _ h _ err he => .inl (h err he)) (fun _ _ _ h _ err he => .inl (h err he)) hbody
  unfold Runner.drive
  refine Triple.get_bind fun w' hw' => ?_
  subst hw'
  rw [hself]
  exact hlocked.pre fun _ _ => trivial

/-- What an upgrade request comes to. -/
inductive UpgradeResult (r : Runner η γ) (p : Error → Prop) (e : Expected) (w w' : World η γ) :
    Except Error (String × Nat) → Prop
  | managed (hself : r.hooks.managedElsewhere w.product = true) (hdisk : w'.disk = w.disk) :
      UpgradeResult r p e w w' (.ok ("held", 2))
  | answered (outcome : UpgradeOutcome) (h : Ended e (concludedAs outcome) w')
      (hself : r.hooks.managedElsewhere w.product = false) :
      UpgradeResult r p e w w' (.ok (answerOf outcome))
  | replayed (op : Operation) (h : op.IsFor e) (ho : op.outcome ≠ none)
      (hself : r.hooks.managedElsewhere w.product = false) :
      UpgradeResult r p e w w' (.error (.replay op))
  | refused (err : Error) (h : p err) : UpgradeResult r p e w w' (.error err)

theorem perform_upgrade (hr : r.Surroundings p) (version : Nat) (id targetVersion : String)
    (consented : Bool) (w : World η γ) :
    Triple (· = w) (Prog.attempt (r.perform (.upgrade version id targetVersion consented)))
      (fun result w' => UpgradeResult r p ⟨id, targetVersion⟩ w w' result) (fun _ _ => True) := by
  have hattempt : ∀ {m : Prog Error (World η γ) (String × Nat)} {q : Error → Prop},
      (∀ err w', q err → UpgradeResult r p ⟨id, targetVersion⟩ w w' (.error err)) →
      Triple (· = w) m (fun a w' => UpgradeResult r p ⟨id, targetVersion⟩ w w' (.ok a))
        (fun err _ => Kind q err) →
      Triple (· = w) (Prog.attempt m)
        (fun result w' => UpgradeResult r p ⟨id, targetVersion⟩ w w' result) (fun _ _ => True) :=
    fun hq hm => Triple.attempt (hm.conseq (fun _ h => h) (fun _ _ h => h) fun err w' h => by
      cases err with
      | none => trivial
      | some err => exact hq err w' (kind_some.mp h))
  cases hself : r.hooks.managedElsewhere w.product with
  | false =>
      refine hattempt (q := Replays p ⟨id, targetVersion⟩) (fun err w' h => ?_) ?_
      · rcases h with h | ⟨op, rfl, hfor, ho⟩
        · exact .refused err h
        · exact .replayed op hfor ho hself
      · unfold perform upgradeTo
        refine Triple.get_bind fun w' hw' => ?_
        subst hw'
        exact Triple.bind (drive_answers hr (e := ⟨id, targetVersion⟩) rfl rfl rfl hself)
          fun outcome => Triple.pure fun _ hw => .answered outcome hw hself
  | true =>
      refine hattempt (q := p) (fun err w' h => .refused err h) ?_
      unfold perform upgradeTo Runner.drive
      refine Triple.get_bind fun w' hw' => ?_
      subst hw'
      have hnotify : Triple (· = w') (product (r.hooks.notify "held" [("reason", "managed-elsewhere")]))
          (fun _ w'' => w''.disk = w'.disk) (fun err _ => Kind p err) :=
        (Outside.asked (hr.notify _ _)).returns (Triple.pre
          (product_keeps (P := fun w'' : World η γ => w''.disk = w'.disk) (fun _ _ h => h) _)
          fun _ hw => by rw [hw]) fun _ h => h
      refine Triple.bind (R := fun outcome w'' => (∃ reason, outcome = .held reason) ∧
        w''.disk = w'.disk) ?_ fun outcome => Triple.pure ?_
      · refine Triple.get_bind fun w'' hw'' => ?_
        subst hw''
        rw [hself]
        exact Triple.bind hnotify fun _ => Triple.pure fun _ hw => ⟨⟨_, rfl⟩, hw⟩
      · rintro w'' ⟨⟨reason, rfl⟩, hdisk⟩
        exact .managed hself hdisk

end Runner

end KCarrier
