import KCarrier.Runner.Records

/-!
# KCarrier.Runner.Lifecycle

The life of an operation, as `operation.json` shows it.

`OperationPhase.next` is the graph a drive takes its record through; settlement cuts it short,
from any open record to `promoted` or `rolledBack`.  A record is put in the place of another in
two ways: it opens a new operation where none is open (`Operation.Opens`), or it moves the open
one along (`Operation.Moves`).  `Lifecycle` says that nothing else happens, and the rest is read
off it: what identifies an operation stays, its phases climb, and it is recorded at most seven
times.
-/

namespace KCarrier

open Crash
open Running

/-! ## the phases of a record -/

namespace OperationPhase

/-- The outcome of a record in this phase. -/
def outcome : OperationPhase → Option Outcome
  | .promoted => some .promoted
  | .rolledBack => some .rolledBack
  | .held => some .held
  | .upToDate => some .upToDate
  | .failed => some .failed
  | .checking | .downloading | .verifying | .staging | .handingOver | .probing | .recovering => none

/-- Where a drive takes a record from this phase.  No drive records `probing`. -/
def next : OperationPhase → List OperationPhase
  | .checking => [.downloading, .held, .upToDate, .failed]
  | .downloading => [.verifying]
  | .verifying => [.staging]
  | .staging => [.handingOver, .failed]
  | .handingOver => [.promoted, .rolledBack, .upToDate, .recovering]
  | _ => []

/-- How far along a phase is. -/
def rank : OperationPhase → Nat
  | .checking => 0
  | .downloading => 1
  | .verifying => 2
  | .staging => 3
  | .handingOver => 4
  | .probing | .recovering => 5
  | .promoted | .rolledBack | .held | .upToDate | .failed => 6

/-- A drive's record may go on in `phase`, or be settled there. -/
def MovesTo (now phase : OperationPhase) : Prop :=
  phase ∈ now.next ∨ phase = .promoted ∨ phase = .rolledBack

/-- There are seven ranks. -/
theorem rank_le (phase : OperationPhase) : phase.rank ≤ 6 := by
  cases phase <;> simp [rank]

/-- **An open record only climbs.** -/
theorem MovesTo.rank_lt {now phase : OperationPhase} (h : now.MovesTo phase)
    (hopen : now.outcome = none) : now.rank < phase.rank := by
  obtain h | rfl | rfl := h
  · cases now <;> cases phase <;> simp [next] at h <;> simp [rank]
  all_goals cases now <;> simp [outcome] at hopen <;> simp [rank]

end OperationPhase

/-- The phase of an outcome stands for it. -/
@[simp] theorem Outcome.phase_outcome (outcome : Outcome) : outcome.phase.outcome = some outcome := by
  cases outcome <;> rfl

/-! ## the life of an operation -/

/-- What identifies an operation, and what it was opened with. -/
structure Operation.SameAs (op op' : Operation) : Prop where
  formatVersion : op'.formatVersion = op.formatVersion
  id : op'.id = op.id
  startedAtMs : op'.startedAtMs = op.startedAtMs
  fromVersion : op'.fromVersion = op.fromVersion
  targetVersion : op'.targetVersion = op.targetVersion
  previousStableVersion : op'.previousStableVersion = op.previousStableVersion
  provenance : op'.provenance = op.provenance
  metadata : op'.metadata = op.metadata

namespace Operation

variable {shown : OperationRead} {op op' : Operation} {disk : Disk}

theorem SameAs.refl (op : Operation) : op.SameAs op := ⟨rfl, rfl, rfl, rfl, rfl, rfl, rfl, rfl⟩

/-- Sameness of operations is transitive. -/
theorem SameAs.trans {op₁ op₂ op₃ : Operation} (h : op₁.SameAs op₂) (h' : op₂.SameAs op₃) :
    op₁.SameAs op₃ where
  formatVersion := h'.formatVersion.trans h.formatVersion
  id := h'.id.trans h.id
  startedAtMs := h'.startedAtMs.trans h.startedAtMs
  fromVersion := h'.fromVersion.trans h.fromVersion
  targetVersion := h'.targetVersion.trans h.targetVersion
  previousStableVersion := h'.previousStableVersion.trans h.previousStableVersion
  provenance := h'.provenance.trans h.provenance
  metadata := h'.metadata.trans h.metadata

/-- `op` opens an operation on `disk`, where `shown` was: nothing is open, the journal is at
rest, and the operation starts from the stable version. -/
structure Opens (shown : OperationRead) (op : Operation) (disk : Disk) : Prop where
  room : shown = .genesis ∨
    ∃ found, shown = .observed found ∧ found.outcome ≠ none ∧ found.id ≠ op.id
  phase : op.phase = .checking
  outcome : op.outcome = none
  reason : op.reason = none
  base : ∃ state, disk.transactionState = .ok state ∧ state.phase.atRest = true ∧
    op.fromVersion = state.stable ∧ op.previousStableVersion = state.stable

/-- `op` is the open record `shown`, moved along. -/
def Moves (shown : OperationRead) (op : Operation) : Prop :=
  ∃ found phase now reason, shown = .observed found ∧ found.outcome = none ∧
    found.phase.MovesTo phase ∧ op = Runner.advance found now phase phase.outcome reason

/-- The outcome is that of the phase. -/
def Coherent (op : Operation) : Prop := op.outcome = op.phase.outcome

/-- A record that opens an operation is coherent. -/
theorem Opens.coherent (h : op.Opens shown disk) : op.Coherent := by
  rw [Coherent, h.outcome, h.phase]
  rfl

/-- So is one that moves it. -/
theorem Moves.coherent (h : op.Moves shown) : op.Coherent := by
  obtain ⟨found, phase, now, reason, -, hopen, -, rfl⟩ := h
  show (if phase.outcome ≠ none then phase.outcome else found.outcome) = phase.outcome
  rw [hopen]
  split
  · rfl
  · next hnone => simp_all

/-- A move is one of the same operation. -/
theorem Moves.sameAs (h : op'.Moves (.observed op)) : op.SameAs op' := by
  obtain ⟨found, phase, now, reason, hfound, -, -, rfl⟩ := h
  cases hfound
  exact ⟨rfl, rfl, rfl, rfl, rfl, rfl, rfl, rfl⟩

/-- A move goes to a later phase. -/
theorem Moves.rank_lt (h : op'.Moves (.observed op)) (hop : op.Coherent) :
    op.phase.rank < op'.phase.rank := by
  obtain ⟨found, phase, now, reason, hfound, hopen, hmoves, rfl⟩ := h
  cases hfound
  exact hmoves.rank_lt (hop.symm.trans hopen)

end Operation

/-- Each record, on the directory beside it, opens an operation or moves the one before it. -/
def Lifecycle : OperationRead → List (Operation × Disk) → Prop
  | _, [] => True
  | shown, (op, disk) :: rest =>
      (op.Opens shown disk ∨ op.Moves shown) ∧ Lifecycle (.observed op) rest

/-- The records stay with the operation the first one is about. -/
def Stays : OperationRead → List (Operation × Disk) → Prop
  | _, [] => True
  | shown, (op, _) :: rest => op.Moves shown ∧ Stays (.observed op) rest

section

variable {shown : OperationRead} {xs ys zs : List (Operation × Disk)} {op : Operation}

/-- A life goes on from the last record. -/
theorem lifecycle_append : Lifecycle shown (xs ++ ys) ↔
    Lifecycle shown xs ∧ Lifecycle (latest shown (xs.map Prod.fst)) ys := by
  induction xs generalizing shown with
  | nil => simp [Lifecycle]
  | cons x xs ih => simp [Lifecycle, ih, and_assoc]

/-- Records among which no operation is opened stay with the one they start from. -/
theorem Lifecycle.stays (h : Lifecycle shown xs) (hnone : ∀ x ∈ xs, x.1.phase ≠ .checking) :
    Stays shown xs := by
  induction xs generalizing shown with
  | nil => exact True.intro
  | cons x xs ih =>
      obtain ⟨hx, hrest⟩ := h
      refine ⟨hx.resolve_left fun hopens => ?_, ih hrest fun y hy => ?_⟩
      · exact hnone x List.mem_cons_self hopens.phase
      · exact hnone y (List.mem_cons_of_mem _ hy)

/-- They are about the same operation. -/
theorem Stays.sameAs (h : Stays (.observed op) xs) : ∀ x ∈ xs, op.SameAs x.1 := by
  induction xs generalizing op with
  | nil => simp
  | cons x xs ih =>
      intro y hy
      have hfirst := h.1.sameAs
      rw [List.mem_cons] at hy
      obtain rfl | hy := hy
      · exact hfirst
      · exact hfirst.trans (ih h.2 y hy)

/-- Each takes a rank of its own. -/
theorem Stays.length_le (h : Stays (.observed op) xs) (hop : op.Coherent) :
    op.phase.rank + xs.length ≤ 6 := by
  induction xs generalizing op with
  | nil => simpa using op.phase.rank_le
  | cons x xs ih =>
      have hfirst := h.1.rank_lt hop
      have hrest := ih h.2 h.1.coherent
      rw [List.length_cons]
      omega

/-- A record that is moved along has no outcome. -/
theorem Stays.isOpen {x y : Operation × Disk} (h : Stays shown (xs ++ x :: y :: ys)) :
    x.1.outcome = none := by
  induction xs generalizing shown with
  | nil =>
      obtain ⟨-, ⟨found, phase, now, reason, hfound, hopen, -⟩, -⟩ := h
      cases hfound
      exact hopen
  | cons x xs ih => exact ih h.2

/-- The records of one operation, which `first` opens or goes on with. -/
structure OneOperation (first : Operation × Disk) (rest : List (Operation × Disk)) : Prop where
  same : ∀ x ∈ rest, first.1.SameAs x.1
  length : rest.length ≤ 6
  isOpen : ∀ before x y after, first :: rest = before ++ x :: y :: after → x.1.outcome = none

/-- **What lies between two openings** is one operation. -/
theorem Lifecycle.oneOperation {first : Operation × Disk}
    (h : Lifecycle shown (xs ++ first :: (ys ++ zs))) (hnone : ∀ x ∈ ys, x.1.phase ≠ .checking) :
    OneOperation first ys := by
  obtain ⟨hfirst, hrest⟩ := (lifecycle_append.mp h).2
  have hstays : Stays (.observed first.1) ys := (lifecycle_append.mp hrest).1.stays hnone
  have hcoherent : first.1.Coherent := hfirst.elim Operation.Opens.coherent Operation.Moves.coherent
  refine ⟨hstays.sameAs, ?_, fun before x y after heq => ?_⟩
  · have hlength := hstays.length_le hcoherent
    omega
  · cases before with
    | nil =>
        rw [List.nil_append, List.cons.injEq] at heq
        obtain ⟨rfl, rfl⟩ := heq
        obtain ⟨⟨found, phase, now, reason, hfound, hopen, -⟩, -⟩ := hstays
        cases hfound
        exact hopen
    | cons z before =>
        rw [List.cons_append, List.cons.injEq] at heq
        rw [heq.2] at hstays
        exact hstays.isOpen

end

/-! ## the records of a world -/

variable {η γ : Type}

/-- Since `w₀` the records led the life of operations. -/
def Lived (w₀ w : World η γ) : Prop :=
  ∃ new, recordsOf w.log = recordsOf w₀.log ++ new ∧
    w.disk.readOperation = latest w₀.disk.readOperation (new.map Prod.fst) ∧
    Lifecycle w₀.disk.readOperation new

section

variable {w₀ w w' : World η γ} {op : Operation}

theorem Lived.refl (w : World η γ) : Lived w w := ⟨[], by simp, rfl, True.intro⟩

/-- What was lived is about the record and the records. -/
theorem Lived.same (h : Lived w₀ w) (hop : w'.disk.operation = w.disk.operation)
    (hrecords : recordsOf w'.log = recordsOf w.log) : Lived w₀ w' := by
  obtain ⟨new, hlog, hread, hlife⟩ := h
  refine ⟨new, hrecords.trans hlog, ?_, hlife⟩
  rw [Disk.readOperation_congr hop]
  exact hread

/-- **One more record.** -/
theorem Lived.record (h : Lived w₀ w) (hv : op.validate = .ok ())
    (hop : op.Opens w.disk.readOperation (w.record op).disk ∨ op.Moves w.disk.readOperation) :
    Lived w₀ (w.record op) := by
  obtain ⟨new, hlog, hread, hlife⟩ := h
  rw [hread] at hop
  refine ⟨new ++ [(op, (w.record op).disk)], ?_, ?_, ?_⟩
  · rw [← List.append_assoc, ← hlog]
    exact recordsOf_recorded _ _ _
  · rw [List.map_append, List.map_singleton, latest_concat]
    exact Disk.readOperation_observed_iff.mpr ⟨rfl, hv⟩
  · rw [lifecycle_append]
    exact ⟨hlife, hop, True.intro⟩

/-- It is about the history. -/
theorem lived_about (w₀ : World η γ) : AboutHistory (Lived w₀) :=
  fun _ _ hsame h => h.same hsame.operation hsame.records

end

namespace Runner

variable {α : Type} {r : Runner η γ} {c : Convergence (World η γ)} {w₀ : World η γ}

/-! ## recovery and settlement -/

/-- What recovery leaves. -/
def Calmed (w₀ w : World η γ) : Prop := Lived w₀ w ∧ Journaled AtRest w.disk

/-- What settlement leaves: nothing is open. -/
def Vacant (w₀ w : World η γ) : Prop := Calmed w₀ w ∧ Closed w

/-- What recovery leaves is about the history. -/
theorem calmed_about (w₀ : World η γ) : AboutHistory (Calmed w₀) :=
  fun w w' hsame h => ⟨lived_about w₀ w w' hsame h.1, h.2.congr hsame.journal⟩

/-- So is what settlement leaves. -/
theorem vacant_about (w₀ : World η γ) : AboutHistory (Vacant w₀) := by
  refine fun w w' hsame h => ⟨calmed_about w₀ w w' hsame h.1, fun op hop => ?_⟩
  rw [Disk.readOperation_congr hsame.operation] at hop
  exact h.2 op hop

/-- The engine's recovery records nothing, and leaves the journal at rest. -/
theorem recover_calmed (hc : ReadsProduct c) :
    Triple (OnWorld (Lived w₀)) (r.engine c).recover (fun _ => OnWorld (Calmed w₀))
      (fun _ => OnWorld (Lived w₀)) :=
  Triple.of_forall fun s hs => (recover_advances hc "" s.world).conseq (fun s' h => by rw [h])
    (fun _ _ h => ⟨hs.same h.1.operation h.1.records, h.2⟩)
    fun _ _ h => hs.same h.operation h.records

/-- **The recovery of a call.** -/
theorem recoverEngine_calmed (hc : ReadsProduct c) :
    Triple (OnWorld (Lived w₀)) (r.recoverEngine c) (fun _ => OnWorld (Calmed w₀))
      (fun _ => OnWorld (Lived w₀)) := by
  refine recovering_within (fun _ h => h) ?_ ((recover_calmed hc).pre fun _ h => h.1)
  intro w op outcome state es hw _ _ hstate hrest _ hread
  exact ⟨hw, es, hread, (transactionState_atRest_iff hstate hread).mp hrest⟩

/-- **Settlement** moves an open record to its end. -/
theorem settle_vacant :
    Triple (Calmed w₀) r.settle (fun _ => Vacant w₀) (fun _ => Lived w₀) := by
  have hrecord : ∀ (w : World η γ) op now phase outcome reason, Calmed w₀ w →
      w.disk.readOperation = .observed op → op.outcome = none → op.phase.MovesTo phase →
      phase.outcome = some outcome →
      Vacant w₀ (w.record (advance op now phase (some outcome) reason)) := by
    intro w op now phase outcome reason hw hop hopen hmoves houtcome
    have hv : op.validate = .ok () := (Disk.readOperation_observed_iff.mp hop).2
    refine ⟨⟨hw.1.record hv (.inr ?_), hw.2⟩, fun op' hop' => ?_⟩
    · exact ⟨op, phase, now, reason, hop, hopen, hmoves, by rw [houtcome]⟩
    · obtain ⟨rfl, -⟩ := observed_record hop'
      simp [advance]
  have hclosed : ∀ w, Calmed w₀ w → Closed w → Vacant w₀ w := fun w h hclosed => ⟨h, hclosed⟩
  -- recovery has left nothing that settlement would wait for
  have hbusy : ∀ w state, Calmed w₀ w → w.disk.transactionState = .ok state →
      state.phase.atRest = false → Vacant w₀ w := by
    intro w state h hstate hbusy
    obtain ⟨es, hread, hrest⟩ := h.2
    rw [(transactionState_atRest_iff hstate hread).mpr hrest] at hbusy
    cases hbusy
  refine settling_within (calmed_about w₀).indifferent.tick (vacant_about w₀).indifferent.tick
    (fun _ h => h.1) (fun _ h => h.1.1) hclosed ?_ ?_ hbusy
  · intro w op state now h hop hopen _ _ _
    exact hrecord w op now _ _ _ h hop hopen (.inr (.inl rfl)) rfl
  · intro w op state now reason h hop hopen _ _ _
    exact hrecord w op now _ _ _ h hop hopen (.inr (.inr rfl)) rfl

/-! ## the record of a drive -/

/-- The record `op` of a drive, if it keeps one, is open in `phase`. -/
def Stands (w₀ : World η γ) (phase : OperationPhase) (op : Option Operation) (w : World η γ) : Prop :=
  Lived w₀ w ∧ ∀ o, op = some o →
    w.disk.readOperation = .observed o ∧ o.outcome = none ∧ o.phase = phase

/-- Where the record of a drive stands is about the records. -/
theorem stands_about (w₀ : World η γ) (phase : OperationPhase) (op : Option Operation) :
    AboutRecords (Stands w₀ phase op) := by
  refine fun w w' hsame h => ⟨h.1.same hsame.1.1 (records_eq hsame), fun o ho => ?_⟩
  rw [Disk.readOperation_congr hsame.1.1]
  exact h.2 o ho

/-- A phase that follows. -/
theorem progress_stands {now : OperationPhase} (phase : OperationPhase) (op : Option Operation)
    (reason : Option String) (hnext : phase ∈ now.next) (hopen : phase.outcome = none) :
    Triple (Stands w₀ now op) (r.transition op phase none reason)
      (fun op' => Stands w₀ phase op') (fun _ => Lived w₀) := by
  refine (transition_triple (Q := fun op' => Stands w₀ phase op') (fun _ => trivial : _ → True)
    (stands_about w₀ now op).quiet.tick (fun op' => (stands_about w₀ phase op').quiet.tick)
    (fun _ _ => .inr trivial) ?_ ?_).crash fun w h => h.1.elim (fun h => h.1) fun ⟨_, h⟩ => h.1
  · rintro rfl w hw
    exact ⟨hw.1, fun o ho => by cases ho⟩
  · rintro o rfl w at_ hv ⟨hw, hstands⟩
    obtain ⟨hread, ho, rfl⟩ := hstands o rfl
    refine ⟨hw.record hv (.inr ⟨o, phase, at_, reason, hread, ho, .inl hnext, by rw [hopen]⟩), ?_⟩
    intro o' ho'
    cases ho'
    exact ⟨Disk.readOperation_observed_iff.mpr ⟨rfl, hv⟩, by simpa [advance] using ho, rfl⟩

/-- The outcome. -/
theorem finish_stands {now : OperationPhase} (outcome : Outcome) (op : Option Operation)
    (reason : Option String) (hnext : outcome.phase ∈ now.next) :
    Triple (Stands w₀ now op) (r.transition op outcome.phase (some outcome) reason)
      (fun _ => Lived w₀) (fun _ => Lived w₀) := by
  refine (transition_triple (Q := fun _ => Lived w₀) (fun _ => trivial : _ → True)
    (stands_about w₀ now op).quiet.tick (fun _ => (lived_about w₀).indifferent.tick)
    (fun _ _ => .inr trivial) (fun _ w hw => hw.1) ?_).crash
    fun w h => h.1.elim (fun h => h.1) fun ⟨_, h⟩ => h
  rintro o rfl w at_ hv ⟨hw, hstands⟩
  obtain ⟨hread, ho, rfl⟩ := hstands o rfl
  exact hw.record hv (.inr ⟨o, outcome.phase, at_, reason, hread, ho, .inl hnext,
    by rw [Outcome.phase_outcome]⟩)

/-- There is no record, or one of another operation than `desc` names. -/
def Apart (desc : OperationDescriptor) (w : World η γ) : Prop :=
  w.disk.readOperation = .genesis ∨
    ∃ found, w.disk.readOperation = .observed found ∧ found.id ≠ desc.id

/-- Making room: the record that was found is settled, and of another operation. -/
theorem retirePrevious_apart (desc : OperationDescriptor) (previous : Operation) :
    Triple (fun w => Vacant w₀ w ∧ w.disk.readOperation = .observed previous)
      (r.retirePrevious desc previous) (fun _ w => Vacant w₀ w ∧ Apart desc w)
      (fun _ => Lived w₀) := by
  have habout : AboutHistory fun w : World η γ =>
      Vacant w₀ w ∧ w.disk.readOperation = .observed previous := fun w w' hsame h =>
    ⟨vacant_about w₀ w w' hsame h.1, (Disk.readOperation_congr hsame.operation).trans h.2⟩
  unfold retirePrevious
  refine Triple.ite (fun _ => Triple.throw fun _ h => h.1.1.1) fun hsame => ?_
  refine Triple.ite (fun hid => ?_) fun hid => ?_
  · refine Triple.ite (fun _ => Triple.throw fun _ h => h.1.1.1) fun _ => ?_
    exact (habout.offReceipts.archive r.store previous).conseq (fun _ h => h)
      (fun _ w h => ⟨h.1, .inr ⟨previous, h.2, hid⟩⟩) fun _ _ h => h.1.1.1
  · -- a settled record of this very operation was refused, and an open one is not left
    refine Triple.pure fun w h => absurd (h.1.2 _ h.2) fun hset => hsame ⟨?_, hset⟩
    exact Decidable.not_not.mp hid

/-- **A record is opened** where none is open. -/
theorem openOperation_stands (target : Option String) (options : UpgradeOptions) :
    Triple (Vacant w₀) (r.openOperation target options)
      (fun opened => Stands w₀ .checking opened.1) (fun _ => Lived w₀) := by
  unfold openOperation
  refine Triple.bind (readRecord_triple fun w _ hw _ => hw.1.1) fun previous => ?_
  have hstate : ∀ P : World η γ → Prop, (∀ w, P w → Lived w₀ w) → Triple P transactionState
      (fun state w => P w ∧ w.disk.transactionState = .ok state) (fun _ => Lived w₀) := fun P hP =>
    FileStore.readDisk_triple (fun _ _ hw hs => ⟨hw, hs⟩) fun _ w hw _ => hP w hw
  cases hdesc : options.operation with
  | none =>
      refine Triple.pre (P := Vacant w₀) ?_ fun w h => h.1
      refine Triple.bind (hstate _ fun _ h => h.1.1) fun state => Triple.pure fun w h => ?_
      exact ⟨h.1.1.1, fun o ho => by cases ho⟩
  | some desc =>
      have hnew : Triple (fun w => Vacant w₀ w ∧ Apart desc w) (do
          let state ← transactionState
          let w ← Prog.get
          let op := newOperation desc options target state.stable (r.clock w.tick)
          r.store.persistOperation op
          pure (some op, state.stable)) (fun opened => Stands w₀ .checking opened.1)
          (fun _ => Lived w₀) := by
        refine Triple.bind (hstate _ fun _ h => h.1.1.1) fun state => Triple.get_bind fun w hw => ?_
        let op := newOperation desc options target state.stable (r.clock w.tick)
        have hready : OffTick fun w : World η γ =>
            (Vacant w₀ w ∧ Apart desc w) ∧ w.disk.transactionState = .ok state := fun w n h =>
          ⟨⟨(vacant_about w₀).indifferent.tick w n h.1.1, h.1.2⟩, h.2⟩
        have hpersist : Triple (fun w => (Vacant w₀ w ∧ Apart desc w) ∧
            w.disk.transactionState = .ok state) (r.store.persistOperation op)
            (fun _ => Stands w₀ .checking (some op)) (fun _ => Lived w₀) := by
          refine (FileStore.persistOperation_triple (fun _ => trivial : _ → True) hready
            (stands_about w₀ .checking (some op)).quiet.tick (.inr trivial)
            fun w' hv ⟨⟨hvacant, hother⟩, hstable⟩ => ?_).crash fun w' h =>
              h.1.elim (fun h => h.1.1.1.1) fun h => h.1
          refine ⟨hvacant.1.1.record hv (.inl ⟨?_, rfl, rfl, rfl, state, ?_, ?_, rfl, rfl⟩), ?_⟩
          · exact hother.imp id fun ⟨found, hread, hid⟩ => ⟨found, hread, hvacant.2 found hread, hid⟩
          · exact (transactionState_congr rfl rfl).trans hstable
          · obtain ⟨es, hread, hrest⟩ := hvacant.1.2
            exact (transactionState_atRest_iff hstable hread).mpr hrest
          · intro o ho
            cases ho
            exact ⟨Disk.readOperation_observed_iff.mpr ⟨rfl, hv⟩, rfl, rfl⟩
        have hopened : Triple (fun w => (Vacant w₀ w ∧ Apart desc w) ∧
            w.disk.transactionState = .ok state) (do
            r.store.persistOperation op
            pure (some op, state.stable)) (fun opened => Stands w₀ .checking opened.1)
            (fun _ => Lived w₀) :=
          Triple.bind hpersist fun _ => Triple.pure fun _ h => h
        exact hopened.pre fun w' h => by rw [h]; exact hw
      cases previous with
      | none => exact hnew.pre fun w h => ⟨h.1, .inl h.2⟩
      | some previous =>
          exact Triple.bind (retirePrevious_apart desc previous) fun _ => hnew

/-! ## a drive -/

/-- A hold ends the operation as held. -/
theorem hold_stands (op : Option Operation) (reason kind : String) :
    Triple (Stands w₀ .checking op) (r.hold op reason kind) (fun _ => Lived w₀)
      (fun _ => Lived w₀) := by
  unfold hold
  refine Triple.bind (finish_stands .held op _ (by simp [OperationPhase.next, Outcome.phase]))
    fun op' => ?_
  exact Triple.bind ((lived_about w₀).indifferent.asked _) fun _ => Triple.pure fun _ h => h

/-- What the lookup leaves: a record with its outcome, or one that is being checked. -/
def AfterCheck (w₀ : World η γ) (op : Option Operation) : Picked → World η γ → Prop
  | .finished _ => Lived w₀
  | .release _ => Stands w₀ .checking op

/-- A step of a drive that records nothing. -/
theorem keeps_stands {phase : OperationPhase} {op : Option Operation} {m : Prog Error (World η γ) α}
    (hm : Keeps (Stands w₀ phase op) m) :
    Triple (Stands w₀ phase op) m (fun _ => Stands w₀ phase op) (fun _ => Lived w₀) :=
  Triple.crash hm fun _ h => h.1

/-- The gates leave the record being checked, or end it. -/
theorem gates_stands (options : UpgradeOptions) (op : Option Operation) (current : String)
    (release : Release) :
    Triple (Stands w₀ .checking op) (r.gates options op current release) (AfterCheck w₀ op)
      (fun _ => Lived w₀) := by
  have hheld : ∀ reason kind, Triple (Stands w₀ .checking op) (do
      let outcome ← r.hold op reason kind
      pure (.finished outcome)) (AfterCheck w₀ op) (fun _ => Lived w₀) := fun reason kind =>
    Triple.bind (hold_stands op reason kind) fun _ => Triple.pure fun _ h => h
  unfold gates
  refine Triple.ite (fun _ => hheld _ _) fun _ => Triple.ite (fun _ => hheld _ _) fun _ => ?_
  refine Triple.bind (keeps_stands ((stands_about w₀ _ op).quiet.asked _)) fun refusal => ?_
  cases refusal with
  | some reason => exact hheld _ _
  | none => exact Triple.pure fun _ h => h

/-- The lookup leaves the record being checked, or ends it. -/
theorem pick_stands (target : Option String) (options : UpgradeOptions) (op : Option Operation)
    (current : String) :
    Triple (Stands w₀ .checking op) (r.pick target options op current) (AfterCheck w₀ op)
      (fun _ => Lived w₀) := by
  have hquiet := (stands_about w₀ .checking op).quiet
  have hlookup : Keeps (Stands w₀ .checking op) (r.lookup target ⟨current, r.platformKey⟩) := by
    unfold lookup
    cases target with
    | none => exact hquiet.ask _ _
    | some version => exact Triple.bind (hquiet.ask _ _) fun _ => Triple.pure fun _ h => h
  have hfail : ∀ reason e, Triple (Stands w₀ .checking op) (do
      let _ ← r.transition op .failed (some .failed) reason
      Prog.throw e) (AfterCheck w₀ op) (fun _ => Lived w₀) := fun reason e =>
    Triple.bind (finish_stands .failed op reason (by simp [OperationPhase.next, Outcome.phase]))
      fun _ => Triple.throw fun _ h => h
  unfold pick
  refine Triple.bind (keeps_stands hlookup.attempt) fun reply => ?_
  match reply with
  | .error e =>
      refine Triple.ite (fun _ => ?_) fun _ => hfail _ _
      exact Triple.bind (hold_stands op _ _) fun _ => Triple.pure fun _ h => h
  | .ok none =>
      exact Triple.bind (finish_stands .upToDate op none
        (by simp [OperationPhase.next, Outcome.phase])) fun _ => Triple.pure fun _ h => h
  | .ok (some release) =>
      exact Triple.ite (fun _ => hfail _ _) fun _ => gates_stands options op current release

/-- **Bringing the artifact in** takes the record from `checking` to `handingOver`. -/
theorem bringIn_stands (options : UpgradeOptions) (op : Option Operation) (release : Release) :
    Triple (Stands w₀ .checking op) (r.bringIn options op release)
      (fun op' => Stands w₀ .handingOver op') (fun _ => Lived w₀) := by
  have hquiet := fun phase op => (stands_about w₀ phase op).quiet
  unfold bringIn
  refine Triple.bind (progress_stands .downloading op none (by simp [OperationPhase.next]) rfl)
    fun op₁ => ?_
  refine Triple.bind (keeps_stands ((hquiet _ op₁).ask _ _)) fun bytes => ?_
  refine Triple.bind (progress_stands .verifying op₁ none (by simp [OperationPhase.next]) rfl)
    fun op₂ => ?_
  refine Triple.bind (progress_stands .staging op₂ none (by simp [OperationPhase.next]) rfl)
    fun op₃ => ?_
  refine Triple.bind (keeps_stands ((hquiet _ op₃).write r.store fun _ => ⟨rfl, rfl, rfl, rfl⟩))
    fun _ => ?_
  have hprepare : Keeps (Stands w₀ .staging op₃) (r.prepare release) := by
    unfold prepare
    refine Triple.bind ((hquiet _ op₃).asked _) fun reply => ?_
    cases reply with
    | none => exact Triple.throw fun _ h => h
    | some u => exact Triple.pure fun _ h => h
  have hhandOver : Triple (Stands w₀ .staging op₃) (r.transition op₃ .handingOver none none)
      (fun op' => Stands w₀ .handingOver op') (fun _ => Lived w₀) :=
    progress_stands .handingOver op₃ none (by simp [OperationPhase.next]) rfl
  refine Triple.bind (keeps_stands hprepare.attempt) fun reply => ?_
  cases reply with
  | error e =>
      exact Triple.bind (finish_stands .failed op₃ _
        (by simp [OperationPhase.next, Outcome.phase])) fun _ => Triple.throw fun _ h => h
  | ok u =>
      refine Triple.ite (fun _ => ?_) fun _ => hhandOver
      refine Triple.get_bind fun w hw => Triple.pre (P := Stands w₀ .staging op₃) ?_ fun w' hw' => by
        rw [hw']; exact hw
      exact Triple.bind (keeps_stands ((hquiet _ op₃).appendProvenance _ _ _ _ _)) fun _ => hhandOver

/-- The engine's outcome ends the operation. -/
theorem conclude_stands (op : Option Operation) (outcome : EngineOutcome) :
    Triple (Stands w₀ .handingOver op) (r.conclude c op outcome) (fun _ => Lived w₀)
      (fun _ => Lived w₀) := by
  have hquiet := (stands_about w₀ .handingOver op).quiet
  have hfinish : ∀ outcome reason, outcome.phase ∈ OperationPhase.next .handingOver →
      ∀ result : UpgradeOutcome, Triple (Stands w₀ .handingOver op) (do
        let _ ← r.transition op outcome.phase (some outcome) reason
        pure result) (fun _ => Lived w₀) (fun _ => Lived w₀) := fun outcome reason hnext result =>
    Triple.bind (finish_stands outcome op reason hnext) fun _ => Triple.pure fun _ h => h
  cases outcome with
  | promoted version =>
      unfold conclude
      refine Triple.get_bind fun w hw => Triple.pre (P := Stands w₀ .handingOver op) ?_
        fun w' h => by rw [h]; exact hw
      refine Triple.bind (keeps_stands (hquiet.asked _)) fun _ => ?_
      refine Triple.bind (keeps_stands (hquiet.write r.store fun _ => ⟨rfl, rfl, rfl, rfl⟩))
        fun _ => ?_
      exact hfinish .promoted none (by simp [OperationPhase.next, Outcome.phase]) _
  | rolledBack reason =>
      refine Triple.bind (keeps_stands (hquiet.asked _)) fun _ => ?_
      exact hfinish .rolledBack _ (by simp [OperationPhase.next, Outcome.phase]) _
  | upToDate => exact hfinish .upToDate none (by simp [OperationPhase.next, Outcome.phase]) _

/-- The engine's upgrade, and its outcome. -/
theorem carryOut_stands (hc : ReadsProduct c) (op : Option Operation) (release : Release) :
    Triple (OnWorld (Stands w₀ .handingOver op)) (r.carryOut c op release)
      (fun _ => OnWorld (Lived w₀)) (fun _ => OnWorld (Lived w₀)) := by
  have hquiet := (stands_about w₀ .handingOver op).quiet
  have hengine : Keeps (OnWorld (Stands w₀ .handingOver op))
      ((r.engine c).upgrade release.version incomingPath) :=
    ((stands_about w₀ .handingOver op).frame hc).upgrade release.version incomingPath
  unfold carryOut
  refine Triple.bind (Triple.crash hengine.attempt fun _ h => h.1) fun reply => ?_
  cases reply with
  | ok outcome =>
      refine Triple.bind (Triple.crash (Keeps.lift (hquiet.noted rfl)) fun _ h => h.1) fun _ => ?_
      exact Confined.lift (conclude_stands op outcome)
  | error e =>
      exact Triple.bind (Confined.lift (progress_stands .recovering op _
        (by simp [OperationPhase.next]) rfl)) fun _ => Triple.throw fun _ h => h.1

/-- **A drive**, from recovery to the outcome. -/
theorem driveEngine_lived (hc : ReadsProduct c) (target : Option String) (options : UpgradeOptions) :
    Triple (OnWorld (Lived w₀)) (r.driveEngine c target options) (fun _ => OnWorld (Lived w₀))
      (fun _ => OnWorld (Lived w₀)) := by
  unfold driveEngine
  refine Triple.bind (recoverEngine_calmed hc) fun _ => ?_
  refine Triple.bind (Confined.lift settle_vacant) fun _ => ?_
  refine Triple.bind (Confined.lift (openOperation_stands target options)) fun opened => ?_
  refine Triple.bind (Confined.lift (pick_stands target options opened.1 opened.2)) fun picked => ?_
  cases picked with
  | finished outcome => exact Triple.pure fun _ h => h
  | release release =>
      exact Triple.bind (Confined.lift (bringIn_stands options opened.1 release)) fun op =>
        carryOut_stands hc op release

/-! ## calls and runs -/

/-- **Every call** lives the records' lives on. -/
theorem lived_call (call : Call) : CallOutline r call (Lived w₀) (Lived w₀) where
  quiet := (lived_about w₀).indifferent
  startOff := (lived_about w₀).offLock
  off := (lived_about w₀).offLock
  safe _ h := h
  recover _ := by
    refine recoverLocked_within call.expected (lived_about w₀).indifferent.observed
      (fun _ _ h => h) fun c hc => ?_
    have hsettle : Triple (OnWorld (Calmed w₀)) (lift r.settle) (fun _ => OnWorld (Lived w₀))
        (fun _ => OnWorld (Lived w₀)) :=
      (Confined.lift settle_vacant).post fun _ _ h => h.1.1
    exact Triple.bind (recoverEngine_calmed hc) fun _ => hsettle
  drive target options _ := by
    have hdrive : Keeps (Lived w₀) (r.driveLocked target options) :=
      driveLocked_within target options (lived_about w₀).indifferent.observed (fun _ _ h => h)
        fun c hc => driveEngine_lived hc target options
    exact hdrive.pre fun _ h => h.1
  rollback reason _ := by
    have hclear : Triple (Calmed w₀) r.store.clear (fun _ => Lived w₀) (fun _ => Lived w₀) :=
      ((lived_about w₀).removeDir r.store .experiment).pre fun _ h => h.1
    exact rollbackLocked_triple reason (lived_about w₀).indifferent.observed (fun _ h => h)
      (fun c hc => recover_calmed hc) hclear (lived_about w₀).indifferent

end Runner

/-- **The life of an operation**: in any run of calls, each cut off anywhere, the records put
into `operation.json` open operations where none is open, on the version that is stable then,
and move the open one along the graph of its phases; the last of them is the one on file.
Between two openings they are about one operation: what identifies it stays, only the last of
them has an outcome, and there are at most seven. -/
theorem operations_live (w : World η γ) (visits : List (Visit η γ)) :
    ∃ new, recordsOf (runVisits visits w).log = recordsOf w.log ++ new ∧
      (runVisits visits w).disk.readOperation = latest w.disk.readOperation (new.map Prod.fst) ∧
      Lifecycle w.disk.readOperation new ∧
      ∀ before first rest after, new = before ++ first :: (rest ++ after) →
        (∀ x ∈ rest, x.1.phase ≠ .checking) → OneOperation first rest := by
  have hrun : Lived w (runVisits visits w) :=
    run_invariant (M := fun _ _ => True)
      (fun v w' h _ => Visit.run_of_triple (Runner.lived_call v.call).call_triple
        (lived_about w _ _ ⟨rfl, rfl, rfl⟩ h)) visits w (Lived.refl w)
      (eachVisit_of_forall (fun _ _ _ => trivial) w)
  obtain ⟨new, hlog, hread, hlife⟩ := hrun
  refine ⟨new, hlog, hread, hlife, fun before first rest after heq hnone => ?_⟩
  rw [heq] at hlife
  exact hlife.oneOperation hnone

end KCarrier
