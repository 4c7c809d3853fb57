import KCarrier.Runner.Failures
import KCarrier.Runner.Legible
import KCarrier.Runner.Receipts

/-!
# KCarrier.Runner.Unbased

Calls on a directory before anything was installed.

There is no stable slot.  The state of the transaction reads that as version `0.0.0`, and
the engine refuses the upgrade before it journals anything, so neither a slot nor a journal
ever appears; but records do, and every one of them counts from `0.0.0` (`Disk.Unbased`).
The history of provenance can be read throughout (`Disk.Attested`).

* `runVisits_unbased`, `runVisits_attested` — that is so after every run of calls.
-/

namespace KCarrier

open Crash
open Running

variable {η γ : Type}

/-! ## no stable version -/

/-- The version that stands for no stable slot. -/
def unversioned : String := "0.0.0"

/-- The record of an operation that had no stable version to start from. -/
structure Operation.Baseless (op : Operation) : Prop where
  start : op.fromVersion = unversioned
  outcome : op.outcome ≠ some .promoted

/-- Nothing was installed and nothing journalled. -/
structure Disk.Unbased (d : Disk) : Prop where
  journal : d.journal = .absent
  slots : ∀ place, d.slots place = .absent
  record : ∀ op, d.operation = .content op → op.Baseless

/-- An empty state directory. -/
def Disk.empty : Disk where
  journal := .absent
  operation := .absent
  receipts _ := .absent
  report := .absent
  provenance := .absent
  slots _ := .absent
  incoming := .absent

namespace Disk

variable {d d' : Disk}

theorem empty_unbased : Disk.empty.Unbased := ⟨rfl, fun _ => rfl, fun _ h => by cases h⟩

theorem readJournal_absent (h : d.journal = .absent) : d.readJournal = .ok [] := by
  unfold readJournal
  rw [h]

theorem Unbased.versions (h : d.Unbased) :
    d.versions = .ok [("stable", none), ("experiment", none)] := by
  unfold Disk.versions
  rw [version_of_absent (h.slots .stable), version_of_absent (h.slots .experiment)]

/-- The state that is read counts from no version. -/
theorem Unbased.transactionState (h : d.Unbased) :
    d.transactionState = .ok (.idle unversioned) := by
  unfold Disk.transactionState
  rw [readJournal_absent h.journal, version_of_absent (h.slots .stable)]
  rfl

theorem Unbased.congr (h : d.Unbased) (hjournal : d'.journal = d.journal)
    (hslots : d'.slots = d.slots) (hoperation : d'.operation = d.operation) : d'.Unbased := by
  refine ⟨hjournal.trans h.journal, fun place => ?_, fun op hop => ?_⟩
  · rw [hslots]
    exact h.slots place
  · rw [hoperation] at hop
    exact h.record op hop

/-- Another record without a start. -/
theorem Unbased.record_of_baseless {w : World η γ} {op : Operation} (h : w.disk.Unbased)
    (hop : op.Baseless) : (w.record op).disk.Unbased :=
  ⟨h.journal, h.slots, fun op' hop' => by cases hop'; exact hop⟩

end Disk

theorem unbased_about : AboutBooks (fun w : World η γ => w.disk.Unbased) :=
  fun _ _ hsame h => h.congr hsame.journal hsame.slots hsame.operation

namespace Runner

variable {r : Runner η γ} {c : Convergence (World η γ)}

/-- A record stays without a start unless it is promoted. -/
theorem baseless_advance {op : Operation} (h : op.Baseless) (now : Nat) (phase : OperationPhase)
    {outcome : Option Outcome} (reason : Option String) (houtcome : outcome ≠ some .promoted) :
    (advance op now phase outcome reason).Baseless := by
  refine ⟨h.start, ?_⟩
  show (if outcome ≠ none then outcome else op.outcome) ≠ some .promoted
  by_cases hnone : outcome = none
  · rw [if_neg (not_not_intro hnone)]
    exact h.outcome
  · rw [if_pos hnone]
    exact houtcome

/-- A journal that can be read is what the engine reads. -/
theorem readEntries_run {s : Running (World η γ)} {es : List JournalEntry}
    (h : s.world.disk.readJournal = .ok es) : (r.engine c).readEntries s = (.ok es, s) := by
  have hread : (FileStore.readJournal : Prog Error (World η γ) _) s.world = (.ok es, s.world) :=
    FileStore.readDisk_run h
  have hlift : lift (r.engine c).effects.readJournal s = (.ok es, s) := by
    show (_, { s with world := _ }) = _
    rw [show (r.engine c).effects.readJournal s.world = (.ok es, s.world) from hread]
  unfold Engine.readEntries
  rw [Prog.bind_run_ok hlift, validateAll_of_readJournal h]
  rfl

/-- **Recovery** without a journal only fences. -/
theorem recover_fences {P S Q : Running (World η γ) → Prop}
    {F : Option Error → Running (World η γ) → Prop}
    (hjournal : ∀ s, P s → s.world.disk.journal = .absent) (hseq : ∀ s, P s → S { s with seq := 0 })
    (hfence : Triple S (Engine.bounded "fence" (r.engine c).host.fence) (fun _ => Q) F) :
    Triple P (r.engine c).recover (fun _ => Q) F := by
  intro s hs
  have hread := readEntries_run (r := r) (c := c) (Disk.readJournal_absent (hjournal s hs))
  unfold Engine.recover
  rw [Prog.bind_run_ok hread]
  refine (Triple.bind (R := fun _ => S) (Triple.modify fun s h => hseq s h) fun _ => ?_) s hs
  exact Triple.bind hfence fun _ => Triple.pure fun _ h => h

theorem recover_unbased : Keeps (OnWorld fun w : World η γ => w.disk.Unbased)
    (r.engine c).recover := by
  have hcall : Keeps (Over Disk.Unbased fun _ : World η γ => True)
      (r.hostCall "fence" fun h => h.fence) := hostCall_keeps remote_true _ _
  exact recover_fences (fun _ h => h.journal) (fun _ h => h) <|
    (Keeps.bounded hcall).conseq (fun _ h => ⟨h, trivial⟩) (fun _ _ h => h.1) fun _ _ h => h.1

theorem recoverEngine_unbased : Keeps (OnWorld fun w : World η γ => w.disk.Unbased)
    (r.recoverEngine c) :=
  recoverEngine_of_recover (fun _ h => h) (recover_unbased.pre fun _ h => h.1)

/-- What is found open is rolled back. -/
theorem settle_unbased : Keeps (fun w : World η γ => w.disk.Unbased) r.settle := by
  refine settling_within unbased_about.offTick unbased_about.offTick (fun _ h => h) (fun _ h => h)
    (fun _ h _ => h) ?_ ?_ fun _ _ h _ _ => h
  · intro w op state now h _ _ hstate hphase _
    rw [h.transactionState, Except.ok.injEq] at hstate
    rw [← hstate] at hphase
    cases hphase
  · intro w op state now reason h hop _ _ _ _
    have hbase : op.Baseless := h.record op (Disk.readOperation_observed_iff.mp hop).1
    exact h.record_of_baseless (baseless_advance hbase now _ _ (by simp))

/-- The record of a drive, if it has one, counts from no version. -/
def UnbasedWith (op : Option Operation) (w : World η γ) : Prop :=
  w.disk.Unbased ∧ ∀ o, op = some o → o.Baseless

theorem unbasedWith_about (op : Option Operation) :
    AboutBooks (UnbasedWith op : World η γ → Prop) :=
  fun w w' hsame h => ⟨unbased_about w w' hsame h.1, h.2⟩

theorem openOperation_unbased (target : Option String) (options : UpgradeOptions) :
    Triple (fun w : World η γ => w.disk.Unbased) (r.openOperation target options)
      (fun opened => UnbasedWith opened.1) (fun _ w => w.disk.Unbased) := by
  refine opening_triple unbased_about.offTick (fun op => (unbasedWith_about op).offTick)
    (unbased_about.offReceipts.retirePrevious r) (fun _ h => h) (fun _ _ h => h.1)
    (fun _ w h => ⟨h, fun o ho => by cases ho⟩) fun desc state now w _ h hstate _ => ?_
  rw [h.transactionState, Except.ok.injEq] at hstate
  subst hstate
  have hbase : (newOperation desc options target unversioned now).Baseless :=
    ⟨rfl, by simp [newOperation]⟩
  exact ⟨h.record_of_baseless hbase, fun o ho => by cases ho; exact hbase⟩

theorem transition_unbased (op : Option Operation) (phase : OperationPhase)
    {outcome : Option Outcome} (reason : Option String) (houtcome : outcome ≠ some .promoted) :
    Triple (UnbasedWith op : World η γ → Prop) (r.transition op phase outcome reason)
      (fun op' => UnbasedWith op') (fun _ w => w.disk.Unbased) := by
  refine (transition_triple (fun _ => trivial : _ → True) (unbasedWith_about op).offTick
    (fun op' => (unbasedWith_about op').offTick) (fun _ _ => .inr trivial)
    (fun hnone w h => ⟨h.1, fun o ho => by cases ho⟩) fun o ho w now _ h => ?_).crash
    fun w h => h.1.elim And.left fun ⟨_, h⟩ => h.1
  have hbase := baseless_advance (h.2 o ho) now phase reason houtcome
  exact ⟨h.1.record_of_baseless hbase, fun o' ho' => by cases ho'; exact hbase⟩

/-- **The engine refuses** to upgrade from nothing. -/
theorem upgrade_unbased (op : Option Operation) (version : String) (bytes : Path) :
    Triple (OnWorld (UnbasedWith op : World η γ → Prop)) ((r.engine c).upgrade version bytes)
      (fun _ _ => False) (fun _ => OnWorld (UnbasedWith op)) := by
  have hversions : Triple (OnWorld (UnbasedWith op : World η γ → Prop))
      (lift (r.engine c).effects.versions)
      (fun versions s => stableOf versions = none ∧ UnbasedWith op s.world)
      (fun _ => OnWorld (UnbasedWith op)) := by
    refine Triple.zoom fun s hs => ?_
    have hread : Triple (UnbasedWith op : World η γ → Prop) (FileStore.readDisk Disk.versions)
        (fun versions w => stableOf versions = none ∧ UnbasedWith op w)
        (fun _ => UnbasedWith op) := by
      refine FileStore.readDisk_triple (fun versions w h hv => ⟨?_, h⟩) fun _ _ h _ => h
      rw [h.1.versions, Except.ok.injEq] at hv
      rw [← hv]
      rfl
    exact (hread s.world hs).mono (fun _ _ h => h) fun _ _ h => h
  unfold Engine.upgrade
  refine Triple.bind hversions fun versions => Triple.assume fun hnone => ?_
  rw [show (versions.lookup "stable").join = none from hnone]
  exact Triple.throw fun _ h => h

theorem unbasedOutline (target : Option String) (options : UpgradeOptions) :
    DriveOutline r c target options (fun _ => True) (fun w => w.disk.Unbased)
      (fun op _ => UnbasedWith op) (fun _ _ _ => False) (fun op _ => UnbasedWith op)
      (fun _ w => w.disk.Unbased) (fun _ w => w.disk.Unbased) where
  outside := .any
  quietActive op _ := (unbasedWith_about op).indifferent
  quietEnded _ _ := ⟨fun _ _ h => h, fun _ _ _ h => h, fun _ _ h => h, fun _ _ h => h,
    fun _ _ _ _ _ _ h => h⟩
  quiet _ := unbased_about.indifferent
  active _ _ _ _ _ h := h.1
  ended _ _ _ _ _ h := h.elim
  broken _ _ h := h.1
  closed _ _ _ _ h := h
  start := ⟨OnWorld fun w => w.disk.Unbased, OnWorld fun w => w.disk.Unbased,
    recoverEngine_unbased, Keeps.lift settle_unbased,
    Triple.zoom fun s hs => openOperation_unbased target options s.world hs⟩
  progress op _ phase reason := transition_unbased op phase reason (by simp)
  finish op _ outcome reason houtcome := by
    refine (transition_unbased op outcome.phase reason ?_).post fun _ _ h => h.1
    rcases houtcome with rfl | rfl | rfl <;> simp
  upgrade op release _ := upgrade_unbased op release.version incomingPath
  abandon op _ reason := (transition_unbased op .recovering reason (by simp)).post fun _ _ h => h.1
  conclude _ _ _ := fun _ h => h.elim

/-- **Every call** on a directory without a stable version leaves it so. -/
theorem unbased_call (call : Call) :
    CallOutline r call (fun w : World η γ => w.disk.Unbased) (fun w => w.disk.Unbased) := by
  refine ⟨unbased_about.indifferent, unbased_about.offLock, unbased_about.offLock, fun _ h => h,
    fun _ => ?_, fun target options _ => ?_, fun reason _ => ?_⟩
  · exact recoverLocked_within call.expected (fun _ _ h => h) (fun _ _ h => h) fun c _ =>
      Triple.bind recoverEngine_unbased fun _ => Keeps.lift settle_unbased
  · have hdrive := driveLocked_within (r := r) target options (E := fun w => w.disk.Unbased)
      (fun _ _ h => h) (fun _ _ h => h) fun c _ =>
        (unbasedOutline target options).driveEngine_triple
    exact hdrive.pre fun _ h => h.1
  · refine rollbackLocked_triple (R := fun w => w.disk.Unbased) reason (fun _ _ h => h)
      (fun _ h => h) (fun c _ => recover_unbased) ?_ unbased_about.indifferent
    have hclear := FileStore.clear_empty (s := r.store) (I := fun _ : World η γ => True)
      (D := Disk.Unbased) fun _ h => h.slots .experiment
    exact hclear.conseq (fun _ h => ⟨h, trivial⟩) (fun _ _ h => h.1) fun _ _ h => h.elim

end Runner

/-! ## the history of provenance -/

/-- The history of provenance can be read. -/
def Disk.Attested (d : Disk) : Prop := ∃ history, d.readProvenance = .ok history

/-- Its complete lines are `es`. -/
structure Disk.Attests (es : List ProvenanceEntry) (d : Disk) : Prop where
  readable : ∀ message, d.provenance ≠ .unreadable message
  lines : readLines checkProvenance none (FileStore.Disk.provenanceLines d) = .ok es

namespace Disk

variable {d : Disk} {es : List ProvenanceEntry}

theorem Attests.attested (h : d.Attests es) : d.Attested := by
  unfold Attested readProvenance
  have hlines := h.lines
  unfold FileStore.Disk.provenanceLines at hlines
  cases hp : d.provenance with
  | absent => exact ⟨_, rfl⟩
  | unreadable message => exact absurd hp (h.readable message)
  | content file =>
      rw [hp] at hlines
      dsimp only at hlines ⊢
      rw [hlines]
      exact ⟨_, rfl⟩

/-- What a reader makes of a history that can be read. -/
theorem attests_of_read {history : Option (List ProvenanceEntry)}
    (h : d.readProvenance = .ok history) : d.Attests (history.getD []) := by
  unfold readProvenance at h
  refine ⟨fun message hp => ?_, ?_⟩
  · rw [hp] at h
    cases h
  · unfold FileStore.Disk.provenanceLines
    cases hp : d.provenance with
    | absent =>
        rw [hp] at h
        cases h
        rfl
    | unreadable message =>
        rw [hp] at h
        cases h
    | content file =>
        rw [hp] at h
        dsimp only at h ⊢
        cases hread : readLines checkProvenance none file.lines with
        | error e =>
            rw [hread] at h
            cases h
        | ok es =>
            rw [hread] at h
            cases h
            rfl

end Disk

namespace FileStore

variable {s : FileStore} {Blame : Prop} {I : World η γ → Prop}

/-- A history with other lines. -/
theorem attests_content {es : List ProvenanceEntry} (d : Disk) {lines : List (Line ProvenanceEntry)}
    (torn : Bool) (h : readLines checkProvenance none lines = .ok es) :
    Disk.Attests es { d with provenance := .content ⟨lines, torn⟩ } :=
  ⟨fun _ hp => (by cases hp), h⟩

/-- **An entry of the history** is one more line.  A number that is not given is one more than
the last, and never refused. -/
theorem appendProvenance_attested (hblame : s.faults ≠ Faults.clean → Blame) (hI : Aside I)
    (identity : Provenance) (version : String) (explicit : Option Nat) (now : Nat)
    {J : Disk → Prop} (hJ : ∀ d file, J d → J { d with provenance := file }) :
    Triple (Over (fun d => J d ∧ d.Attested) I)
      (s.appendProvenanceAt identity version explicit now)
      (fun _ => Over (fun d => J d ∧ d.Attested) I)
      (fun _ w => Over (fun d => J d ∧ d.Attested) I w ∧ (explicit = none → Blame)) := by
  unfold appendProvenanceAt
  refine Triple.get_bind fun w hw => ?_
  obtain ⟨⟨hj, history, hread⟩, hi⟩ := hw
  have hattests := Disk.attests_of_read hread
  rw [hread]
  dsimp only
  have hlast : history.bind List.getLast? = (history.getD []).getLast? := by cases history <;> rfl
  rw [hlast]
  generalize history.getD [] = es at hattests
  let D : Disk → Prop := fun d => J d ∧ d.Attests es
  have hstart : ∀ w', w' = w → Over D I w' := fun w' h => by rw [h]; exact ⟨⟨hj, hattests⟩, hi⟩
  have hbefore : ∀ w', Over D I w' → Over (fun d => J d ∧ d.Attested) I w' :=
    fun w' h => ⟨⟨h.1.1, h.1.2.attested⟩, h.2⟩
  generalize hnumber : explicit.getD _ = seq
  refine Triple.ite (fun hrefused => Triple.throw fun w' h =>
    ⟨hbefore w' (hstart w' h), fun hnone => ?_⟩) fun hfree => ?_
  · -- the number that follows the last is greater
    subst hnone
    cases hl : es.getLast? with
    | none => simp [hl] at hrefused
    | some last =>
        simp only [hl, Option.map_some, Option.getD_none] at hnumber
        simp only [hl, Option.map_some, Option.any_some, decide_eq_true_eq] at hrefused
        omega
  · have hkeep : ∀ {label : String} {f : Disk → Disk}, (∀ d, D d → D (f d)) →
        Triple (Over D I) (s.write label f) (fun _ => Over D I)
          (fun _ w => Over (fun d => J d ∧ d.Attested) I w ∧ (explicit = none → Blame)) :=
      fun hf => (write_keeps hblame hI hf).crash fun w' h => ⟨hbefore w' h.1, fun _ => h.2⟩
    refine Triple.pre ?_ hstart
    refine Triple.bind (hkeep fun d hd => ?_) fun _ =>
      Triple.bind (hkeep fun d hd => ?_) fun _ => ?_
    · cases hp : d.provenance with
      | absent => exact hd
      | unreadable message => exact hd
      | content file =>
          have hlines : readLines checkProvenance none file.lines = .ok es := by
            have hlines := hd.2.lines
            unfold Disk.provenanceLines at hlines
            rw [hp] at hlines
            exact hlines
          exact ⟨hJ d _ hd.1, attests_content d false hlines⟩
    · exact ⟨hJ d _ hd.1, attests_content d true hd.2.lines⟩
    · let entry : ProvenanceEntry := ⟨seq, identity.who, identity.carrier, now, version⟩
      let next : Disk → Disk := fun d =>
        { d with provenance := .content ⟨Disk.provenanceLines d ++ [.entry entry], false⟩ }
      have hnext : ∀ d, D d → J (next d) ∧ (next d).Attested := by
        intro d hd
        refine ⟨hJ d _ hd.1, (attests_content d false (readLines_concat hd.2.lines ?_)).attested⟩
        unfold checkProvenance
        rw [Option.or_none, if_neg]
        cases hl : es.getLast? with
        | none => simp
        | some last => simpa [hl] using hfree
      refine (write_triple hblame hI hnext).crash fun w' h => ⟨⟨?_, h.1.2⟩, fun _ => h.2⟩
      exact h.1.1.elim (fun h => ⟨h.1, h.2.attested⟩) id

end FileStore

namespace Runner

variable {r : Runner η γ}

/-- It is read alike whatever a call does beside it. -/
theorem attested_offFetch : OffFetch (Over Disk.Attested fun _ : World η γ => True) where
  receipts := ⟨fun _ _ h => h, fun _ _ _ _ h => h⟩
  record _ _ h := h
  note _ _ _ h := h
  product _ _ h := h
  incoming _ _ h := h
  provenance s identity version explicit now := by
    have hentry := FileStore.appendProvenance_attested (s := s) (J := fun _ => True)
      (I := fun _ : World η γ => True) (fun _ => trivial : _ → True) remote_true.aside identity
      version explicit now fun _ _ h => h
    exact hentry.conseq (fun _ h => ⟨⟨trivial, h.1⟩, trivial⟩) (fun _ _ h => ⟨h.1.2, trivial⟩)
      fun _ _ h => ⟨h.1.1.2, trivial⟩

theorem attested_drive {c : Convergence (World η γ)} (hc : ReadsProduct c)
    (target : Option String) (options : UpgradeOptions) :
    Keeps (OnWorld (Over Disk.Attested fun _ : World η γ => True))
      (r.driveEngine c target options) := by
  have hframe : Frame (r.engine c) (Over Disk.Attested fun _ : World η γ => True) :=
    engine_frame remote_true (fun _ _ _ h => h) (fun _ _ h => h) hc
  have hP := attested_offFetch (η := η) (γ := γ)
  have hconclude : ∀ op outcome, Keeps (Over Disk.Attested fun _ : World η γ => True)
      (r.conclude c op outcome) := by
    intro op outcome
    cases outcome with
    | promoted version =>
        unfold conclude
        refine Triple.get_bind fun w hw => ?_
        refine Triple.pre (P := Over Disk.Attested fun _ => True) ?_ fun w' h => by
          rw [h]
          exact hw
        refine Triple.bind (hP.asked _) fun _ => ?_
        refine Triple.bind (FileStore.write_clean_keeps remote_true.aside fun _ h => h) fun _ => ?_
        exact Triple.bind (hP.transition op _ _ _) fun _ => Triple.pure fun _ h => h
    | rolledBack reason =>
        unfold conclude
        refine Triple.bind (hP.asked _) fun _ => ?_
        exact Triple.bind (hP.transition op _ _ _) fun _ => Triple.pure fun _ h => h
    | upToDate => exact Triple.bind (hP.transition op _ _ _) fun _ => Triple.pure fun _ h => h
  rw [driveEngine_eq_fetched]
  refine Triple.bind (fetched_offFetch hP hframe target options) fun fetched => ?_
  cases fetched with
  | inl outcome => exact Triple.pure fun _ h => h
  | inr found =>
      unfold install carryOut
      refine Triple.bind (Keeps.attempt (hframe.upgrade _ _)) fun reply => ?_
      cases reply with
      | ok outcome =>
          exact Triple.bind (Keeps.lift (hP.noted rfl)) fun _ => Keeps.lift (hconclude _ outcome)
      | error e =>
          exact Triple.bind (Keeps.lift (hP.transition _ _ _ _)) fun _ => Triple.throw fun _ h => h

/-- **Every call** leaves a history that can be read. -/
theorem attested_call (call : Call) :
    Keeps (Over Disk.Attested fun _ : World η γ => True) (r.call call) := by
  have hP := attested_offFetch (η := η) (γ := γ)
  have hframe : ∀ {c : Convergence (World η γ)}, ReadsProduct c →
      Frame (r.engine c) (Over Disk.Attested fun _ : World η γ => True) := fun hc =>
    engine_frame remote_true (fun _ _ _ h => h) (fun _ _ h => h) hc
  have hoff : OffLock (Over Disk.Attested fun _ : World η γ => True) := fun _ _ _ h => h
  refine Triple.of_forall fun w hw => call_exact hw (fun _ => ?_) (fun target options _ => ?_)
    fun reason _ => ?_
  · refine (locked_keeps hoff ?_).pre fun w' h => by rw [h]; exact hw
    exact recoverLocked_within call.expected (fun _ _ h => h) (fun _ _ h => h) fun c hc =>
      Triple.bind (recoverEngine_confined (hframe hc).confined fun _ _ h => h) fun _ =>
        Keeps.lift hP.settle
  · unfold drive
    refine Triple.get_bind fun w' hw' => ?_
    subst hw'
    cases r.hooks.managedElsewhere w'.product with
    | true =>
        refine Triple.pre (P := Over Disk.Attested fun _ => True) ?_ fun w'' h => by
          rw [h]
          exact hw
        exact Triple.bind (hP.asked _) fun _ => Triple.pure fun _ h => h
    | false =>
        refine (locked_keeps hoff ?_).pre fun w'' h => by rw [h]; exact hw
        exact driveLocked_within target options (fun _ _ h => h) (fun _ _ h => h) fun c hc =>
          attested_drive hc target options
  · refine (locked_keeps hoff ?_).pre fun w' h => by rw [h]; exact hw
    exact rollbackLocked_keeps reason (fun _ _ h => h) (fun c hc => (hframe hc).recover)
      (FileStore.removeDir_elsewhere remote_true.aside fun _ _ h => h) fun _ _ => hP.asked _

end Runner

/-! ## runs -/

/-- A directory without a stable version has none after any run of calls. -/
theorem runVisits_unbased {visits : List (Visit η γ)} {w : World η γ} (h : w.disk.Unbased) :
    (runVisits visits w).disk.Unbased :=
  run_invariant (I := fun w => w.disk.Unbased) (M := fun _ _ => True)
    (fun visit w h _ => Visit.run_of_triple (w := w)
      (Runner.unbased_call (r := visit.runner) visit.call).call_triple h) visits w h
    (eachVisit_of_forall (fun _ _ _ => trivial) w)

/-- The history of provenance can be read after any run of calls. -/
theorem runVisits_attested {visits : List (Visit η γ)} {w : World η γ} (h : w.disk.Attested) :
    (runVisits visits w).disk.Attested := by
  refine (run_invariant (I := Over Disk.Attested fun _ : World η γ => True) (M := fun _ _ => True)
    (fun visit w h _ => ?_) visits w ⟨h, trivial⟩ (eachVisit_of_forall (fun _ _ _ => trivial) w)).1
  exact Visit.run_of_triple (w := w) (Runner.attested_call (r := visit.runner) visit.call) h

end KCarrier
