import KCarrier.Runner.Flow
import KCarrier.Runner.Course

/-!
# KCarrier.Runner.Books

The record of an operation beside the transaction it stands for.

`AboutBooks P` says that `P` is about journal, record, slots, service and what was
recorded, which is all that a property of the two together is about.  For such
assertions the steps of the runner are specified here by what they make of the record:
`settling_triple`, `recovering_triple` and `opening_triple`.
-/

namespace KCarrier

open Crash
open Running

variable {η γ : Type}

/-- Journal, record, slots and service are the same, and so is what was recorded. -/
structure SameBooks (w w' : World η γ) : Prop where
  journal : w'.disk.journal = w.disk.journal
  operation : w'.disk.operation = w.disk.operation
  slots : w'.disk.slots = w.disk.slots
  host : w'.host = w.host
  recorded : ∀ op disk, .recorded op disk ∈ w'.log → .recorded op disk ∈ w.log

/-- `P` is about these alone. -/
def AboutBooks (P : World η γ → Prop) : Prop := ∀ w w', SameBooks w w' → P w → P w'

theorem SameBooks.refl (w : World η γ) : SameBooks w w :=
  ⟨rfl, rfl, rfl, rfl, fun _ _ h => h⟩

/-- A note that records nothing. -/
theorem SameBooks.note {w : World η γ} {entry : Note} (h : ∀ op disk, entry ≠ .recorded op disk) :
    SameBooks w { w with log := w.log ++ [entry] } := by
  refine ⟨rfl, rfl, rfl, rfl, fun op disk hm => ?_⟩
  rcases List.mem_append.mp hm with hm | hm
  · exact hm
  · exact absurd (List.mem_singleton.mp hm).symm (h op disk)

/-- `P` is not about the receipts, nor about the notes on them. -/
structure OffReceipts (P : World η γ → Prop) : Prop where
  tick : OffTick P
  filed : ∀ w receipts entry, (∀ op disk, entry ≠ .recorded op disk) → P w →
    P { w with disk := { w.disk with receipts }, log := w.log ++ [entry] }

namespace OffReceipts

variable {P : World η γ → Prop}

/-- Archiving is about the receipts alone. -/
theorem archive (hP : OffReceipts P) (s : FileStore) (op : Operation) : Keeps P (s.archive op) := by
  have hboundary : ∀ label, Keeps P (s.boundary label) := fun label =>
    (FileStore.boundary_triple (fun _ => True.intro) hP.tick label).crash fun _ h => h.1
  have hwrite : Keeps P (s.writeReceipt op) := by
    refine Triple.bind (hboundary _) fun _ => ?_
    exact Triple.bind (R := fun _ => P)
      (Triple.modify fun w hw => hP.filed w _ _ (fun _ _ h => by cases h) hw) fun _ => hboundary _
  have hnote : Keeps P (FileStore.note (.archiveConflict op) : Prog Error (World η γ) Unit) :=
    Triple.modify fun w hw => hP.filed w w.disk.receipts _ (fun _ _ h => by cases h) hw
  unfold FileStore.archive
  refine Triple.bind (Triple.ofExcept (fun _ _ _ h => h) fun _ _ _ h => h) fun _ => ?_
  refine Triple.ite (fun _ => Triple.throw fun _ h => h) fun _ => Triple.get_bind fun w hw => ?_
  have hstart : ∀ w', w' = w → P w' := fun w' h => by rw [h]; exact hw
  cases w.disk.readArchive s.digest op.id with
  | genesis => exact hwrite.pre hstart
  | unreadable reason => exact Triple.throw hstart
  | observed existing =>
      refine Triple.ite (fun _ => ?_) fun _ => Triple.pure hstart
      have hconflict : Triple P (do
          FileStore.note (.archiveConflict op)
          Prog.throw (.invalid "OPERATION_ARCHIVE_CONFLICT") : Prog Error (World η γ) Unit)
          (fun _ => P) (fun _ => P) := Triple.bind hnote fun _ => Triple.throw fun _ h => h
      exact hconflict.pre hstart

/-- Making room for a record archives the previous one and changes nothing else. -/
theorem retirePrevious (hP : OffReceipts P) (r : Runner η γ) (desc : OperationDescriptor)
    (previous : Operation) : Keeps P (r.retirePrevious desc previous) := by
  unfold Runner.retirePrevious
  refine Triple.ite (fun _ => Triple.throw fun _ h => h) fun _ => ?_
  refine Triple.ite (fun _ => ?_) fun _ => Triple.pure fun _ h => h
  exact Triple.ite (fun _ => Triple.throw fun _ h => h) fun _ => hP.archive r.store previous

end OffReceipts

namespace Disk

variable {d d' : Disk}

/-- What is read of the journal is about the journal. -/
theorem readJournal_congr (h : d'.journal = d.journal) : d'.readJournal = d.readJournal := by
  unfold Disk.readJournal
  rw [h]

/-- What is read of the record is about the record. -/
theorem readOperation_congr (h : d'.operation = d.operation) :
    d'.readOperation = d.readOperation := by
  unfold Disk.readOperation
  rw [h]

end Disk

namespace AboutBooks

variable {P : World η γ → Prop}

/-- An assertion about the books is not about the boundaries passed. -/
theorem offTick (hP : AboutBooks P) : OffTick P := fun w _ =>
  hP w _ ⟨rfl, rfl, rfl, rfl, fun _ _ h => h⟩

/-- It is not about the lock. -/
theorem offLock (hP : AboutBooks P) : OffLock P := fun w _ _ =>
  hP w _ ⟨rfl, rfl, rfl, rfl, fun _ _ h => h⟩

/-- It is not about what the predicate observed. -/
theorem observed (hP : AboutBooks P) (w : World η γ) (o : Observed) (h : P w) :
    P { w with observed := o } :=
  hP w _ ⟨rfl, rfl, rfl, rfl, fun _ _ h => h⟩ h

/-- It is indifferent to everything else. -/
theorem indifferent (hP : AboutBooks P) : Indifferent P where
  tick := hP.offTick
  note w entry h := hP w _ (SameBooks.note fun op disk he => by rw [he] at h; cases h)
  product w _ := hP w _ ⟨rfl, rfl, rfl, rfl, fun _ _ h => h⟩
  observed w _ := hP w _ ⟨rfl, rfl, rfl, rfl, fun _ _ h => h⟩
  files w _ hj ho _ hs := hP w _ ⟨hj, ho, hs, rfl, fun _ _ h => h⟩

theorem offReceipts (hP : AboutBooks P) : OffReceipts P where
  tick := hP.offTick
  filed w _ _ h := hP w _ ⟨rfl, rfl, rfl, rfl, (SameBooks.note (w := w) h).recorded⟩

end AboutBooks

/-- `op` may end with `v`, which recovery leaves stable after the last intent `tail`. -/
def Operation.Covers (op : Operation) (tail : Option Phase) (v : String) : Prop :=
  v = op.fromVersion ∨ tail = some .promoted ∧ v = op.targetVersion

/-! ## the transaction state -/

/-- The transaction state is about the journal and the slots. -/
theorem transactionState_congr {d d' : Disk} (hj : d'.journal = d.journal)
    (hs : d'.slots = d.slots) : d'.transactionState = d.transactionState := by
  have hver : ∀ place, d'.version place = d.version place := fun place =>
    Disk.version_congr (by rw [hs])
  unfold Disk.transactionState
  rw [Disk.readJournal_congr hj, hver]
  unfold Disk.stateAfter inFlight
  simp only [hver]

/-- The state of a directory whose journal and stable slot can be read. -/
theorem transactionState_eq {d : Disk} {es : List JournalEntry} {v : String} {state : TxnState}
    (h : d.transactionState = .ok state) (hj : d.readJournal = .ok es)
    (hv : d.version .stable = .ok (some v)) :
    state.stable = v ∧ state.phase = (lastIntent es).getD .idle := by
  obtain ⟨es', version, hj', hv', hstable, hphase⟩ := transactionState_ok h
  rw [hj, Except.ok.injEq] at hj'
  rw [hv, Except.ok.injEq] at hv'
  subst hj' hv'
  exact ⟨hstable, hphase⟩

/-- What is stable, as far as it can be read. -/
def stableNow (d : Disk) : String :=
  match d.version .stable with
  | .ok (some v) => v
  | _ => ""

/-- It is what the stable slot reads as. -/
theorem stableNow_eq {d : Disk} {v : String} (h : d.version .stable = .ok (some v)) :
    stableNow d = v := by
  simp [stableNow, h]

/-! ## the record -/

namespace Runner

variable {r : Runner η γ} {P Q G : World η γ → Prop}

/-- No operation is open. -/
def Closed (w : World η γ) : Prop :=
  ∀ op, w.disk.readOperation = .observed op → op.outcome ≠ none

/-- No operation is settled. -/
def Unsettled (w : World η γ) : Prop :=
  ∀ op, w.disk.readOperation = .observed op → op.outcome = none

/-- The record can be read, or there is none. -/
def Readable (w : World η γ) : Prop := ∀ reason, w.disk.readOperation ≠ .unreadable reason

/-- The record just written is the one that is read. -/
theorem observed_record {w : World η γ} {op op' : Operation}
    (h : (w.record op).disk.readOperation = .observed op') : op' = op ∧ op.validate = .ok () := by
  obtain ⟨hfile, hv⟩ := Disk.readOperation_observed_iff.mp h
  cases hfile
  exact ⟨rfl, hv⟩

/-- The record `o` of a drive to `target` is open. -/
structure Opened (target : Option String) (o : Operation) (w : World η γ) : Prop where
  file : w.disk.operation = .content o
  open_ : o.outcome = none
  valid : o.validate = .ok ()
  target : target = some o.targetVersion

theorem Opened.same {target : Option String} {o : Operation} {w w' : World η γ}
    (h : Opened target o w) (ho : w'.disk.operation = w.disk.operation) : Opened target o w' :=
  ⟨ho.trans h.file, h.open_, h.valid, h.target⟩

/-- It is the one that is read. -/
theorem Opened.read {target : Option String} {o : Operation} {w : World η γ}
    (h : Opened target o w) : w.disk.readOperation = .observed o :=
  Disk.readOperation_observed_iff.mpr ⟨h.file, h.valid⟩

/-- Recording a phase of an open record. -/
theorem Opened.advance {target : Option String} {o : Operation} {w : World η γ}
    (h : Opened target o w) (now : Nat) (phase : OperationPhase) (reason : Option String) :
    Opened target (Runner.advance o now phase none reason)
      (w.record (Runner.advance o now phase none reason)) :=
  ⟨rfl, by simp [Runner.advance, h.open_], h.valid, h.target⟩

/-- That no record is open is about the books. -/
theorem closed_about : AboutBooks (Closed : World η γ → Prop) := by
  intro w w' hsame h op hop
  rw [Disk.readOperation_congr hsame.operation] at hop
  exact h op hop

/-- Reading the record. -/
theorem readRecord_triple (hread : ∀ w reason, P w → w.disk.readOperation = .unreadable reason → G w) :
    Triple P readRequired (fun previous w => P w ∧ match previous with
      | none => w.disk.readOperation = .genesis
      | some op => w.disk.readOperation = .observed op) (fun _ => G) := by
  refine Triple.get_bind fun w hw => ?_
  cases hop : w.disk.readOperation with
  | genesis => exact Triple.pure fun w' h => by rw [h]; exact ⟨hw, hop⟩
  | observed op => exact Triple.pure fun w' h => by rw [h]; exact ⟨hw, hop⟩
  | unreadable reason => exact Triple.throw fun w' h => by rw [h]; exact hread w reason hw hop

/-- **Settle**: an open record gets the outcome that journal and stable slot show. -/
theorem settling_triple {Blame : Prop} (hblame : r.store.faults ≠ Faults.clean → Blame)
    (hP : OffTick P) (hQ : OffTick Q)
    (hread : ∀ w reason, P w → w.disk.readOperation = .unreadable reason → G w)
    (hstate : ∀ w e, P w → w.disk.transactionState = .error e → G w)
    (hcut : ∀ w, P w ∨ Q w → Blame → G w)
    (hclosed : ∀ w, P w → Closed w → Q w)
    (hpromoted : ∀ w op state now, P w → w.disk.readOperation = .observed op →
      op.outcome = none → w.disk.transactionState = .ok state → state.phase = .promoted →
      state.stable = op.targetVersion →
      Q (w.record (advance op now .promoted (some .promoted) none)))
    (hrolledBack : ∀ w op state now reason, P w → w.disk.readOperation = .observed op →
      op.outcome = none → w.disk.transactionState = .ok state → state.phase.atRest = true →
      ¬(state.phase = .promoted ∧ state.stable = op.targetVersion) →
      Q (w.record (advance op now .rolledBack (some .rolledBack) reason)))
    (hbusy : ∀ w state, P w → w.disk.transactionState = .ok state → state.phase.atRest = false →
      Q w) :
    Triple P r.settle (fun _ => Q) (fun _ => G) := by
  unfold settle
  refine Triple.bind (readRecord_triple hread) fun previous => ?_
  cases previous with
  | none =>
      refine Triple.pure fun w ⟨hw, hgenesis⟩ => hclosed w hw fun op hop => ?_
      have hgenesis : w.disk.readOperation = .genesis := hgenesis
      rw [hgenesis] at hop
      cases hop
  | some op =>
      refine Triple.ite (fun ho => Triple.pure fun w ⟨hw, hop⟩ => hclosed w hw fun op' hop' => ?_)
        fun ho => ?_
      · have hop : w.disk.readOperation = .observed op := hop
        rw [hop] at hop'
        cases hop'
        exact ho
      have ho : op.outcome = none := Decidable.not_not.mp ho
      -- the state, with what it was read from
      let Seen : TxnState → World η γ → Prop := fun state w =>
        P w ∧ w.disk.readOperation = .observed op ∧ w.disk.transactionState = .ok state
      have hseen : ∀ state, OffTick (Seen state) := fun state w n h =>
        ⟨hP w n h.1, h.2.1, h.2.2⟩
      have hstated : Triple (fun w => P w ∧ w.disk.readOperation = .observed op) transactionState Seen
          (fun _ => G) :=
        FileStore.readDisk_triple (fun state w hw hs => ⟨hw.1, hw.2, hs⟩)
          fun e w hw hs => hstate w e hw.1 hs
      have hdone : ∀ (state : TxnState) (phase : OperationPhase) (outcome : Outcome)
          (reason : Option String), (∀ w now, Seen state w →
            Q (w.record (advance op now phase (some outcome) reason))) →
          Triple (Seen state) (do
            let _ ← r.transition (some op) phase (some outcome) reason
            pure ()) (fun _ => Q) (fun _ => G) := by
        intro state phase outcome reason hrecord
        refine Triple.bind (R := fun _ => Q) ?_ fun _ => Triple.pure fun _ h => h
        by_cases hv : op.validate = .ok ()
        · refine (transition_triple (Q := fun _ => Q) hblame (hseen state) (fun _ => hQ)
            (fun o he => .inl (by cases he; exact hv)) (fun he => by cases he)
            fun o he w now _ hw => by cases he; exact hrecord w now hw).crash fun w h => ?_
          exact hcut w (h.1.imp (fun h => h.1) fun ⟨_, h⟩ => h) h.2
        · exact fun w hw => absurd (Disk.readOperation_observed_iff.mp hw.2.1).2 hv
      refine Triple.bind hstated fun state => ?_
      refine Triple.ite (fun hp => ?_) fun hp => Triple.ite (fun hrest => ?_) fun hrest => ?_
      · exact hdone state _ _ _ fun w now h =>
          hpromoted w op state now h.1 h.2.1 ho h.2.2 hp.1 hp.2
      · exact hdone state _ _ _ fun w now h =>
          hrolledBack w op state now _ h.1 h.2.1 ho h.2.2 hrest hp
      · exact Triple.pure fun w h => hbusy w state h.1 h.2.2 (by simpa using hrest)

/-- A settlement whose errors leave what it started from, or its end. -/
theorem settling_within (hP : OffTick P) (hQ : OffTick Q) (hPG : ∀ w, P w → G w)
    (hQG : ∀ w, Q w → G w) (hclosed : ∀ w, P w → Closed w → Q w)
    (hpromoted : ∀ w op state now, P w → w.disk.readOperation = .observed op →
      op.outcome = none → w.disk.transactionState = .ok state → state.phase = .promoted →
      state.stable = op.targetVersion →
      Q (w.record (advance op now .promoted (some .promoted) none)))
    (hrolledBack : ∀ w op state now reason, P w → w.disk.readOperation = .observed op →
      op.outcome = none → w.disk.transactionState = .ok state → state.phase.atRest = true →
      ¬(state.phase = .promoted ∧ state.stable = op.targetVersion) →
      Q (w.record (advance op now .rolledBack (some .rolledBack) reason)))
    (hbusy : ∀ w state, P w → w.disk.transactionState = .ok state → state.phase.atRest = false →
      Q w) :
    Triple P r.settle (fun _ => Q) (fun _ => G) := by
  have hblame : r.store.faults ≠ Faults.clean → True := fun _ => trivial
  have hcut : ∀ w, P w ∨ Q w → True → G w := fun w h _ => h.elim (hPG w) (hQG w)
  exact settling_triple hblame hP hQ (fun w _ hw _ => hPG w hw) (fun w _ hw _ => hPG w hw) hcut
    hclosed hpromoted hrolledBack hbusy

/-- **The recovery of a call**: the shortcut where a settled record agrees with journal and
stable slot, and the engine's recovery where nothing is settled. -/
theorem recovering_triple {c : Convergence (World η γ)} {R : Running (World η γ) → Prop}
    (hread : ∀ w reason, P w → w.disk.readOperation = .unreadable reason → G w)
    (hstate : ∀ w e, P w → w.disk.transactionState = .error e → ¬Unsettled w → G w)
    (hmismatch : ∀ w op outcome state, P w → w.disk.readOperation = .observed op →
      op.outcome = some outcome → w.disk.transactionState = .ok state →
      ¬(state.phase.atRest = true ∧ state.stable = settledVersion op outcome) → G w)
    (hshort : ∀ w op outcome state es, P w → w.disk.readOperation = .observed op →
      op.outcome = some outcome → w.disk.transactionState = .ok state →
      state.phase.atRest = true → state.stable = settledVersion op outcome →
      w.disk.readJournal = .ok es → R ⟨w, nextSeq es⟩)
    (hrecover : Triple (fun s => P s.world ∧ Unsettled s.world ∧ Readable s.world)
      (r.engine c).recover (fun _ => R) (fun _ => OnWorld G)) :
    Triple (OnWorld P) (r.recoverEngine c) (fun _ => R) (fun _ => OnWorld G) := by
  unfold recoverEngine
  have hrecord : Triple (OnWorld P) (lift readRequired) (fun previous s => P s.world ∧
      match previous with
      | none => s.world.disk.readOperation = .genesis
      | some op => s.world.disk.readOperation = .observed op) (fun _ => OnWorld G) :=
    Triple.zoom fun s hs => (readRecord_triple hread s.world hs).mono (fun _ _ h => h)
      fun _ _ h => h
  refine Triple.bind hrecord fun previous => ?_
  have hnothing : ∀ s : Running (World η γ), (P s.world ∧ match previous with
      | none => s.world.disk.readOperation = .genesis
      | some op => s.world.disk.readOperation = .observed op) →
      (previous.bind fun op => op.outcome.map fun outcome => (op, outcome)) = none →
      P s.world ∧ Unsettled s.world ∧ Readable s.world := by
    intro s hs hnone
    have hsome := hs.2
    cases previous with
    | none => exact ⟨hs.1, fun op hop => by simp [hop] at hsome, fun reason hop => by
        simp [hop] at hsome⟩
    | some op' =>
        refine ⟨hs.1, fun op hop => ?_, fun reason hop => by simp [hop] at hsome⟩
        simp only [hop, OperationRead.observed.injEq] at hsome
        subst hsome
        simpa using hnone
  cases hsettled : previous.bind fun op => op.outcome.map fun outcome => (op, outcome) with
  | none => exact hrecover.pre fun s hs => hnothing s hs hsettled
  | some found =>
      obtain ⟨op, outcome⟩ := found
      cases previous with
      | none => cases hsettled
      | some op' =>
          obtain ⟨o, ho, hfound⟩ : ∃ o, op'.outcome = some o ∧ (op', o) = (op, outcome) := by
            simpa using hsettled
          cases hfound
          let Seen : TxnState → World η γ → Prop := fun state w => P w ∧
            w.disk.readOperation = .observed op ∧ w.disk.transactionState = .ok state
          have hseen : Triple (fun s => P s.world ∧ s.world.disk.readOperation = .observed op)
              (lift transactionState) (fun state => OnWorld (Seen state)) (fun _ => OnWorld G) := by
            refine Triple.zoom fun s hs => ?_
            have hread : Triple (· = s.world)
                (FileStore.readDisk Disk.transactionState : Prog Error (World η γ) TxnState)
                Seen (fun _ => G) := by
              refine FileStore.readDisk_triple (fun state w hw hs' => ?_) fun e w hw hs' => ?_
              · rw [hw] at hs' ⊢
                exact ⟨hs.1, hs.2, hs'⟩
              · rw [hw] at hs' ⊢
                refine hstate _ e hs.1 hs' fun hun => ?_
                rw [hun _ hs.2] at ho
                cases ho
            exact (hread s.world rfl).mono (fun _ _ h => h) fun _ _ h => h
          refine Triple.bind hseen fun state => ?_
          refine Triple.ite (fun hbad => Triple.throw fun s hs => ?_) fun hgood => ?_
          · exact hmismatch _ op outcome state hs.1 hs.2.1 ho hs.2.2 fun h => by
              simp [h.1, h.2] at hbad
          · have hgood : state.phase.atRest = true ∧ state.stable = settledVersion op outcome := by
              simpa using hgood
            unfold Engine.observeSettled
            refine Triple.bind (readEntries_triple (Q := fun es s => Seen state s.world ∧
              s.world.disk.readJournal = .ok es) (fun es s hs hj => ⟨hs, hj⟩) fun e s hs hj => ?_)
              fun es => ?_
            · obtain ⟨es, version, hj', -⟩ := transactionState_ok hs.2.2
              rw [hj] at hj'
              cases hj'
            · have hset : Triple (fun s : Running (World η γ) => Seen state s.world ∧
                  s.world.disk.readJournal = .ok es) (setSeq (nextSeq es) : Prog Error _ Unit)
                  (fun _ => R) (fun _ => OnWorld G) := Triple.modify fun s hs =>
                hshort s.world op outcome state es hs.1.1 hs.1.2.1 ho hs.1.2.2 hgood.1 hgood.2 hs.2
              cases hlast : es.getLast? with
              | none => exact hset
              | some last =>
                  dsimp only
                  refine Triple.ite (fun _ => hset) fun hbusy => Triple.throw fun s hs => ?_
                  have hlast' : lastIntent es = some last.intent := by
                    unfold lastIntent
                    rw [hlast]
                    rfl
                  have hrest := (transactionState_atRest_iff hs.1.2.2 hs.2).mp hgood.1
                  exact absurd (hrest _ hlast') hbusy

/-- A recovery whose errors leave what it started from. -/
theorem recovering_within {c : Convergence (World η γ)} {R : Running (World η γ) → Prop}
    (hPG : ∀ w, P w → G w)
    (hshort : ∀ w op outcome state es, P w → w.disk.readOperation = .observed op →
      op.outcome = some outcome → w.disk.transactionState = .ok state →
      state.phase.atRest = true → state.stable = settledVersion op outcome →
      w.disk.readJournal = .ok es → R ⟨w, nextSeq es⟩)
    (hrecover : Triple (fun s => P s.world ∧ Unsettled s.world ∧ Readable s.world)
      (r.engine c).recover (fun _ => R) (fun _ => OnWorld G)) :
    Triple (OnWorld P) (r.recoverEngine c) (fun _ => R) (fun _ => OnWorld G) :=
  recovering_triple (fun w _ hw _ => hPG w hw) (fun w _ hw _ _ => hPG w hw)
    (fun w _ _ _ hw _ _ _ _ => hPG w hw) hshort hrecover

/-- The recovery of a call does what the engine's does, or only looks. -/
theorem recoverEngine_of_recover {c : Convergence (World η γ)} (hPG : ∀ w, P w → G w)
    (hrecover : Triple (fun s => P s.world ∧ Unsettled s.world ∧ Readable s.world)
      (r.engine c).recover (fun _ => OnWorld G) (fun _ => OnWorld G)) :
    Triple (OnWorld P) (r.recoverEngine c) (fun _ => OnWorld G) (fun _ => OnWorld G) :=
  recovering_within hPG (fun w _ _ _ _ hw _ _ _ _ _ _ => hPG w hw) hrecover

/-- **Opening the record** of an upgrade, on the stable version the directory shows. -/
theorem opening_triple {S I : World η γ → Prop} {A : Option Operation → World η γ → Prop}
    {target : Option String} {options : UpgradeOptions} (hS : OffTick S)
    (hA : ∀ op, OffTick (A op))
    (hretire : ∀ desc previous, Keeps S (r.retirePrevious desc previous)) (hSI : ∀ w, S w → I w) (hAI : ∀ op w, A op w → I w)
    (hnone : options.operation = none → ∀ w, S w → A none w)
    (hsome : ∀ desc state now w, options.operation = some desc → S w →
      w.disk.transactionState = .ok state →
      (newOperation desc options target state.stable now).validate = .ok () →
      A (some (newOperation desc options target state.stable now))
        (w.record (newOperation desc options target state.stable now))) :
    Triple S (r.openOperation target options) (fun opened => A opened.1) (fun _ => I) := by
  unfold openOperation
  refine Triple.bind (readRecord_triple fun w _ hw _ => hSI w hw) fun previous => ?_
  let Seen : TxnState → World η γ → Prop := fun state w => S w ∧ w.disk.transactionState = .ok state
  have hstate : Triple S transactionState Seen (fun _ => I) :=
    FileStore.readDisk_triple (fun state w hw hs => ⟨hw, hs⟩) fun e w hw _ => hSI w hw
  cases hdesc : options.operation with
  | none =>
      refine Triple.pre (P := S) ?_ fun w h => h.1
      exact Triple.bind hstate fun state => Triple.pure fun w h => hnone hdesc w h.1
  | some desc =>
      have hnew : Triple S (do
          let state ← transactionState
          let w ← Prog.get
          let op := newOperation desc options target state.stable (r.clock w.tick)
          r.store.persistOperation op
          pure (some op, state.stable)) (fun opened => A opened.1) (fun _ => I) := by
        refine Triple.bind hstate fun state => Triple.get_bind fun w hw => ?_
        let op := newOperation desc options target state.stable (r.clock w.tick)
        have hpersist : Triple (Seen state) (r.store.persistOperation op) (fun _ => A (some op))
            (fun _ => I) := by
          refine (FileStore.persistOperation_triple (fun _ => trivial : _ → True)
            (fun w n h => ⟨hS w n h.1, h.2⟩) (hA _) (.inr trivial)
            fun w' hv hw' => hsome desc state _ w' hdesc hw'.1 hw'.2 hv).crash fun w' h => ?_
          exact h.1.elim (fun h => hSI _ h.1) fun h => hAI _ _ h
        have hopened : Triple (Seen state) (do
            r.store.persistOperation op
            pure (some op, state.stable)) (fun opened => A opened.1) (fun _ => I) :=
          Triple.bind hpersist fun _ => Triple.pure fun _ h => h
        exact hopened.pre fun w' h => by rw [h]; exact hw
      cases previous with
      | none => exact hnew.pre fun w h => h.1
      | some previous =>
          refine Triple.bind (R := fun _ => S) ?_ fun _ => hnew
          exact (Triple.crash (hretire desc previous) hSI).pre fun w h => h.1

/-! ## what is not about the record -/

/-- A transition keeps what a record does. -/
theorem transition_keeps (hP : OffTick P) (hrecord : ∀ w op, P w → P (w.record op))
    (op : Option Operation) (phase : OperationPhase) (outcome : Option Outcome)
    (reason : Option String) : Keeps P (r.transition op phase outcome reason) :=
  (transition_triple (Q := fun _ => P) (fun _ => trivial : _ → True) hP (fun _ => hP)
    (fun _ _ => .inr trivial) (fun _ _ h => h)
    fun o _ w now _ h => hrecord w (advance o now phase outcome reason) h).crash
    fun _ h => h.1.elim id fun ⟨_, h⟩ => h

/-- Settlement keeps what a record does. -/
theorem settle_keeps (hP : OffTick P) (hrecord : ∀ w op, P w → P (w.record op)) :
    Keeps P r.settle :=
  settling_within hP hP (fun _ h => h) (fun _ h => h) (fun _ h _ => h)
    (fun w _ _ _ h _ _ _ _ _ => hrecord w _ h) (fun w _ _ _ _ h _ _ _ _ _ => hrecord w _ h)
    fun _ _ h _ _ => h

/-- Opening a record keeps what a record does. -/
theorem openOperation_keeps (hP : OffReceipts P) (hrecord : ∀ w op, P w → P (w.record op))
    (target : Option String) (options : UpgradeOptions) :
    Keeps P (r.openOperation target options) :=
  opening_triple hP.tick (fun _ => hP.tick) (hP.retirePrevious r) (fun _ h => h) (fun _ _ h => h)
    (fun _ _ h => h) fun _ _ _ w _ h _ _ => hrecord w _ h

end Runner

/-! ## assertions that are not about the records -/

/-- `P` is not about the records, nor about what a call asks the product. -/
structure OffRecords (P : World η γ → Prop) : Prop where
  quiet : Indifferent P
  receipts : OffReceipts P
  record : ∀ w op, P w → P (w.record op)

namespace OffRecords

variable {r : Runner η γ} {P E : World η γ → Prop}

/-- A transition keeps what is not about the records. -/
theorem transition (hP : OffRecords P) (op : Option Operation) (phase : OperationPhase)
    (outcome : Option Outcome) (reason : Option String) :
    Keeps P (r.transition op phase outcome reason) :=
  Runner.transition_keeps hP.quiet.tick hP.record op phase outcome reason

/-- So does settlement. -/
theorem settle (hP : OffRecords P) : Keeps P r.settle :=
  Runner.settle_keeps hP.quiet.tick hP.record

/-- So does opening a record. -/
theorem openOperation (hP : OffRecords P) (target : Option String) (options : UpgradeOptions) :
    Keeps P (r.openOperation target options) :=
  Runner.openOperation_keeps hP.receipts hP.record target options

/-- So does the end of an upgrade. -/
theorem conclude (hP : OffRecords P) (c : Convergence (World η γ)) (op : Option Operation)
    (outcome : EngineOutcome) : Keeps P (r.conclude c op outcome) := by
  cases outcome with
  | promoted version =>
      unfold Runner.conclude
      refine Triple.get_bind fun w hw => Triple.pre (P := P) ?_ fun w' h => by rw [h]; exact hw
      refine Triple.bind (hP.quiet.asked _) fun _ => ?_
      refine Triple.bind (hP.quiet.write r.store fun _ => ⟨rfl, rfl, rfl, rfl⟩) fun _ => ?_
      exact Triple.bind (hP.transition op _ _ _) fun _ => Triple.pure fun _ h => h
  | rolledBack reason =>
      unfold Runner.conclude
      refine Triple.bind (hP.quiet.asked _) fun _ => ?_
      exact Triple.bind (hP.transition op _ _ _) fun _ => Triple.pure fun _ h => h
  | upToDate => exact Triple.bind (hP.transition op _ _ _) fun _ => Triple.pure fun _ h => h

/-- The steps between the record and the engine are about the records and the product. -/
theorem fetchOutline (hP : OffRecords P) :
    Runner.FetchOutline r (fun _ => True) (fun _ _ => P) (fun _ => P) (fun _ => P) where
  outside := .any
  quietActive _ _ := hP.quiet
  quiet _ := hP.quiet
  active _ _ _ _ _ h := h
  closed _ _ _ _ h := h
  progress op _ phase reason := hP.transition op phase none reason
  finish op _ outcome reason _ := hP.transition op outcome.phase (some outcome) reason

/-- **A drive** is about the records but for its engine. -/
theorem driveOutline (hP : OffRecords P) {c : Convergence (World η γ)} {target : Option String}
    {options : UpgradeOptions}
    (hrecover : Triple (OnWorld E) (r.recoverEngine c) (fun _ => OnWorld P) (fun _ => OnWorld P))
    (hupgrade : ∀ version bytes, Keeps (OnWorld P) ((r.engine c).upgrade version bytes)) :
    Runner.DriveOutline r c target options (fun _ => True) E (fun _ _ => P) (fun _ _ => P) (fun _ _ => P)
      (fun _ => P) (fun _ => P) where
  toFetchOutline := hP.fetchOutline
  quietEnded _ _ := hP.quiet
  ended _ _ _ _ _ h := h
  broken _ _ h := h
  start := ⟨OnWorld P, OnWorld P, hrecover, Keeps.lift hP.settle,
    Keeps.lift (hP.openOperation target options)⟩
  upgrade _ release _ := hupgrade release.version incomingPath
  abandon op _ reason := hP.transition op .recovering none reason
  conclude op outcome reason :=
    hP.transition op (Runner.recordedAs outcome).phase (some (Runner.recordedAs outcome)) reason

end OffRecords

/-! ## assertions that a drive leaves alone until its engine's upgrade -/

/-- `P` is not about the records, the product and its calls, nor about what a drive brings in
for its engine. -/
structure OffFetch (P : World η γ → Prop) : Prop where
  receipts : OffReceipts P
  record : ∀ w op, P w → P (w.record op)
  note : ∀ w entry, entry.isRecord = false → P w → P { w with log := w.log ++ [entry] }
  product : ∀ w p, P w → P { w with product := p }
  incoming : ∀ w file, P w → P { w with disk := { w.disk with incoming := file } }
  provenance : ∀ (s : FileStore) identity version explicit now,
    Keeps P (s.appendProvenanceAt identity version explicit now)

namespace OffFetch

variable {α : Type} {r : Runner η γ} {P : World η γ → Prop}

/-- A note that is no record. -/
theorem noted (hP : OffFetch P) {entry : Note} (h : entry.isRecord = false) :
    Keeps P (FileStore.note entry : Prog Error (World η γ) Unit) :=
  Triple.modify fun w hw => hP.note w entry h hw

/-- A call of the product. -/
theorem asked (hP : OffFetch P) (m : Prog Error γ α) :
    Keeps P (Runner.product m : Prog Error (World η γ) α) :=
  Runner.product_keeps hP.product m

/-- A call of the product that is noted. -/
theorem ask (hP : OffFetch P) (name : String) (m : Prog Error γ α) :
    Keeps P (Runner.ask name m : Prog Error (World η γ) α) :=
  Triple.bind (hP.noted rfl) fun _ => hP.asked m

/-- A transition keeps what a drive leaves alone. -/
theorem transition (hP : OffFetch P) (op : Option Operation) (phase : OperationPhase)
    (outcome : Option Outcome) (reason : Option String) :
    Keeps P (r.transition op phase outcome reason) :=
  Runner.transition_keeps hP.receipts.tick hP.record op phase outcome reason

/-- A hold. -/
theorem hold (hP : OffFetch P) (op : Option Operation) (reason kind : String) :
    Keeps P (r.hold op reason kind) := by
  unfold Runner.hold
  refine Triple.bind (hP.transition op _ _ _) fun _ => ?_
  exact Triple.bind (hP.asked _) fun _ => Triple.pure fun _ h => h

/-- The gates. -/
theorem gates (hP : OffFetch P) (options : UpgradeOptions) (op : Option Operation)
    (current : String) (release : Release) : Keeps P (r.gates options op current release) := by
  have hheld : ∀ reason kind, Keeps P (do
      let outcome ← r.hold op reason kind
      pure (Runner.Picked.finished outcome)) := fun reason kind =>
    Triple.bind (hP.hold op reason kind) fun _ => Triple.pure fun _ h => h
  unfold Runner.gates
  refine Triple.ite (fun _ => hheld _ _) fun _ => Triple.ite (fun _ => hheld _ _) fun _ => ?_
  refine Triple.bind (hP.asked _) fun refusal => ?_
  cases refusal with
  | some reason => exact hheld _ _
  | none => exact Triple.pure fun _ h => h

/-- The lookup of a release, and the gates. -/
theorem pick (hP : OffFetch P) (target : Option String) (options : UpgradeOptions)
    (op : Option Operation) (current : String) : Keeps P (r.pick target options op current) := by
  have hlookup : Keeps P (r.lookup target ⟨current, r.platformKey⟩) := by
    unfold Runner.lookup
    cases target with
    | none => exact hP.ask _ _
    | some version => exact Triple.bind (hP.ask _ _) fun _ => Triple.pure fun _ h => h
  have hfail : ∀ reason e, Keeps P (do
      let _ ← r.transition op .failed (some .failed) reason
      Prog.throw e : Prog Error (World η γ) Runner.Picked) := fun reason e =>
    Triple.bind (hP.transition op _ _ _) fun _ => Triple.throw fun _ h => h
  unfold Runner.pick
  refine Triple.bind hlookup.attempt fun reply => ?_
  match reply with
  | .error e =>
      refine Triple.ite (fun _ => ?_) fun _ => hfail _ _
      exact Triple.bind (hP.hold op _ _) fun _ => Triple.pure fun _ h => h
  | .ok none => exact Triple.bind (hP.transition op _ _ _) fun _ => Triple.pure fun _ h => h
  | .ok (some release) =>
      exact Triple.ite (fun _ => hfail _ _) fun _ => hP.gates options op current release

/-- Bringing the artifact in. -/
theorem bringIn (hP : OffFetch P) (options : UpgradeOptions) (op : Option Operation)
    (release : Release) : Keeps P (r.bringIn options op release) := by
  have hboundary : ∀ label, Keeps P (r.store.boundary label) := fun label =>
    (FileStore.boundary_triple (fun _ => trivial : _ → True) hP.receipts.tick label).crash
      fun _ h => h.1
  have hincoming : ∀ bytes, Keeps P (r.store.write "incoming" fun disk =>
      { disk with incoming := .content bytes }) := fun bytes =>
    Triple.bind (hboundary _) fun _ => Triple.bind (R := fun _ => P)
      (Triple.modify fun w hw => hP.incoming w _ hw) fun _ => hboundary _
  have hprepare : Keeps P (r.prepare release) := by
    unfold Runner.prepare
    refine Triple.bind (hP.asked _) fun reply => ?_
    cases reply with
    | none => exact Triple.throw fun _ h => h
    | some u => exact Triple.pure fun _ h => h
  unfold Runner.bringIn
  refine Triple.bind (hP.transition op _ _ _) fun op₁ => Triple.bind (hP.ask _ _) fun bytes => ?_
  refine Triple.bind (hP.transition op₁ _ _ _) fun op₂ => ?_
  refine Triple.bind (hP.transition op₂ _ _ _) fun op₃ => ?_
  refine Triple.bind (hincoming bytes) fun _ => Triple.bind hprepare.attempt fun reply => ?_
  cases reply with
  | error e => exact Triple.bind (hP.transition op₃ _ _ _) fun _ => Triple.throw fun _ h => h
  | ok u =>
      refine Triple.ite (fun _ => ?_) fun _ => hP.transition op₃ _ _ _
      refine Triple.get_bind fun w hw => Triple.pre (P := P) ?_ fun w' h => by rw [h]; exact hw
      exact Triple.bind (hP.provenance _ _ _ _ _) fun _ => hP.transition op₃ _ _ _

/-- Opening the record. -/
theorem openOperation (hP : OffFetch P) (target : Option String) (options : UpgradeOptions) :
    Keeps P (r.openOperation target options) :=
  Runner.openOperation_keeps hP.receipts hP.record target options

/-- Settlement. -/
theorem settle (hP : OffFetch P) : Keeps P r.settle :=
  Runner.settle_keeps hP.receipts.tick hP.record

end OffFetch

/-! ## calls that get to recovery -/

/-- A request that is read at all. -/
def Call.Valid : Call → Prop
  | .execute request => request.validate = .ok ()
  | _ => True

namespace Runner

/-- The call, once it has the lock, gets to the recovery of the engine. -/
def GetsToRecovery (r : Runner η γ) (c : Call) (w : World η γ) : Prop :=
  match c with
  | .rollback _ => r.hooks.managedElsewhere w.product = false
  | .execute (.status _) => False
  | c => Unsettled w ∧ Readable w ∧ r.LetThrough c.expected c.recovers w ∧
      (c.recovers = true ∨ r.hooks.managedElsewhere w.product = false)

/-- A recovery that is let through gets to the engine's, where nothing is settled. -/
theorem getsToRecovery_of_recovers {r : Runner η γ} {c : Call} {w : World η γ}
    (hc : c.recovers = true) (hun : Unsettled w) (hread : Readable w)
    (hthrough : r.LetThrough c.expected true w) : r.GetsToRecovery c w := by
  cases c with
  | recover expected => exact ⟨hun, hread, hthrough, .inl rfl⟩
  | execute request =>
      cases request with
      | recover version expected => exact ⟨hun, hread, hthrough, .inl rfl⟩
      | _ => cases hc
  | _ => cases hc

/-- So does a drive, unless the service is managed elsewhere. -/
theorem getsToRecovery_of_drives {r : Runner η γ} {c : Call} {w : World η γ}
    {target : Option String} {options : UpgradeOptions} (hdrives : c.Drives target options)
    (hmanaged : r.hooks.managedElsewhere w.product = false) (hun : Unsettled w) (hread : Readable w)
    (hthrough : r.LetThrough (options.operation.map fun desc => ⟨desc.id, target.getD ""⟩) false w) :
    r.GetsToRecovery c w := by
  rw [hdrives.expected] at hthrough
  have hkind := hdrives.drives
  cases c with
  | upgrade => exact ⟨hun, hread, hthrough, .inr hmanaged⟩
  | upgradeTo version options => exact ⟨hun, hread, hthrough, .inr hmanaged⟩
  | recover expected => cases hkind
  | rollback reason => exact hmanaged
  | execute request =>
      cases request with
      | upgrade => exact ⟨hun, hread, hthrough, .inr hmanaged⟩
      | recover => cases hkind
      | status version =>
          cases hop : options.operation with
          | none => exact (hdrives.unrecorded hop).elim
          | some desc =>
              obtain ⟨_, -, hnamed⟩ := hdrives.named desc hop
              cases hnamed

end Runner

/-- A request that is refused before anything is looked at changes nothing. -/
theorem Runner.call_invalid {r : Runner η γ} {request : Request} {w : World η γ}
    (h : ¬(Call.execute request).Valid) : (r.call (.execute request) w).2 = w := by
  cases hrequest : request.validate with
  | ok u => exact absurd hrequest h
  | error e =>
      have hexecute : r.execute request w = (.err e, w) := by
        unfold Runner.execute
        refine Prog.bind_run_err ?_
        rw [hrequest]
        rfl
      have hcall : r.call (.execute request) w = (.err e, w) := Prog.bind_run_err hexecute
      rw [hcall]

/-- A request that is not read leaves the world as it was found. -/
theorem Visit.run_of_valid {I : World η γ → Prop} {v : Visit η γ} {w : World η γ}
    (hw : I (v.finds w)) (h : v.call.Valid → I (v.run w)) : I (v.run w) := by
  by_cases hvalid : v.call.Valid
  · exact h hvalid
  · have hrefused : v.run w = v.finds w := by
      show (v.runner.call v.call (v.finds w)).2 = _
      cases hcall : v.call with
      | execute request =>
          rw [hcall] at hvalid
          rw [Runner.call_invalid hvalid]
      | _ => exact absurd (by rw [hcall]; trivial) hvalid
    rw [hrefused]
    exact hw

/-- A visit that has the lock and makes a request that is read comes to the body of its call;
any other leaves the directory alone. -/
theorem Visit.run_of_body {I : World η γ → Prop} (hI : Indifferent I) {v : Visit η γ}
    {w : World η γ} (hw : I (v.finds w))
    (h : v.lock = .free → v.call.Valid → ∃ P : World η γ → Prop,
      Triple P (v.runner.call v.call) (fun _ => I) (fun _ => I) ∧ P (v.finds w)) : I (v.run w) := by
  refine Visit.run_of_valid hw fun hvalid => ?_
  by_cases hfree : v.lock = .free
  · obtain ⟨P, hcall, hP⟩ := h hfree hvalid
    exact Visit.run_of_triple hcall hP
  · exact Visit.run_of_triple (Runner.busyOutline hI v.call).call_triple ⟨hfree, hw⟩

end KCarrier
