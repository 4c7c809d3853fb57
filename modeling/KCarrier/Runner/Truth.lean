import KCarrier.Runner.Books
import KCarrier.Runner.Service

/-!
# KCarrier.Runner.Truth

Receipts say what is so.

`Disk.Confirms` is what a terminal record promises about journal and stable slot, and
`Accountable` the invariant that carries it through a run: recovery has a version to end
in, and an open record accounts for it (`Operation.Covers`).

One kind of call breaks it.  A settled record lets a call skip recovery where the journal
is at rest and the stable version is its own, and both may be so while a promotion of an
upgrade without a record waits to be carried out (`Disk.Unfinished`).  An upgrade with a
descriptor then opens its record on the old version, and the next recovery publishes the
candidate that is not its own.
-/

namespace KCarrier

open Crash
open Running

/-- What a record with `outcome` promises: the journal is at rest, and the stable slot
holds the target after a promotion and the version before otherwise. -/
structure Disk.Confirms (d : Disk) (op : Operation) (outcome : Outcome) : Prop where
  rest : ∃ entries, d.readJournal = .ok entries ∧
    ∀ p, lastIntent entries = some p → p.atRest = true
  phase : op.phase = outcome.phase
  stable : d.version .stable = .ok (some (Runner.settledVersion op outcome))

/-- A settled record agrees with journal and stable slot while the promotion the journal
ends in is still to be carried out. -/
def Disk.Unfinished (d : Disk) : Prop :=
  ∃ op outcome state entries, d.readOperation = .observed op ∧ op.outcome = some outcome ∧
    d.readJournal = .ok entries ∧ lastIntent entries = some .promoted ∧
    d.slots .experiment ≠ .absent ∧ d.transactionState = .ok state ∧
    state.stable = Runner.settledVersion op outcome

/-- Every outcome in the history was true when it was recorded. -/
def ReceiptsTrue (log : List Note) : Prop :=
  ∀ op disk outcome, .recorded op disk ∈ log → op.outcome = some outcome →
    disk.Confirms op outcome

variable {η γ : Type}

/-- Recovery has a version to end in that an open record accounts for. -/
structure Accountable (w : World η γ) : Prop where
  truthful : ReceiptsTrue w.log
  sound : ∃ es v, w.disk.readJournal = .ok es ∧ w.disk.Sound (lastIntent es) v ∧
    ∀ op, w.disk.readOperation = .observed op → op.outcome = none → op.Covers (lastIntent es) v

/-! ## what the assertions are about -/

/-- Fewer records are as true. -/
theorem ReceiptsTrue.of_recorded {log log' : List Note} (h : ReceiptsTrue log)
    (hsub : ∀ op disk, Note.recorded op disk ∈ log' → Note.recorded op disk ∈ log) :
    ReceiptsTrue log' :=
  fun op disk outcome hm ho => h op disk outcome (hsub op disk hm) ho

/-- That a world is accountable is about the books. -/
theorem accountable_about : AboutBooks (Accountable : World η γ → Prop) := by
  rintro w w' hsame ⟨htrue, es, v, hj, hs, hop⟩
  refine ⟨htrue.of_recorded hsame.recorded, es, v, ?_, hs.congr hsame.slots, fun op h => ?_⟩
  · rw [Disk.readJournal_congr hsame.journal]
    exact hj
  · rw [Disk.readOperation_congr hsame.operation] at h
    exact hop op h

/-- What is unfinished is about the journal, the record and the slots. -/
theorem Disk.Unfinished.congr {d d' : Disk} (h : d'.Unfinished)
    (hj : d'.journal = d.journal) (ho : d'.operation = d.operation) (hs : d'.slots = d.slots) :
    d.Unfinished := by
  obtain ⟨op, outcome, state, es, hop, hout, hread, htail, hexp, hstate, hstable⟩ := h
  rw [Disk.readOperation_congr ho] at hop
  rw [Disk.readJournal_congr hj] at hread
  rw [hs] at hexp
  rw [transactionState_congr hj hs] at hstate
  exact ⟨op, outcome, state, es, hop, hout, hread, htail, hexp, hstate, hstable⟩

/-- **A new record** keeps the history true if it is itself. -/
theorem ReceiptsTrue.record {w : World η γ} (h : ReceiptsTrue w.log) {op : Operation}
    (hop : ∀ outcome, op.outcome = some outcome → (w.record op).disk.Confirms op outcome) :
    ReceiptsTrue (w.record op).log := by
  intro op' disk outcome hm ho
  rcases List.mem_append.mp hm with hm | hm
  · exact h op' disk outcome hm ho
  · cases List.mem_singleton.mp hm
    exact hop outcome ho

/-! ## recovery -/

namespace Runner

variable {r : Runner η γ} {c : Convergence (World η γ)}

/-- What recovery leaves: a journal at rest that goes on at `n`, and a version that an
open record accounts for. -/
structure Recovered (named : Prop) (n : Nat) (w : World η γ) : Prop where
  truthful : ReceiptsTrue w.log
  sound : ∃ es v, n = nextSeq es ∧ w.disk.readJournal = .ok es ∧
    (∀ p, lastIntent es = some p → p.atRest = true) ∧ w.disk.Sound (lastIntent es) v ∧
    (named → w.disk.version .stable = .ok (some v)) ∧
    ∀ op, w.disk.readOperation = .observed op → op.outcome = none →
      w.disk.Rests v ∧ op.Covers (lastIntent es) v

/-- A world that was recovered is accountable. -/
theorem Recovered.accountable {named : Prop} {n : Nat} {w : World η γ} (h : Recovered named n w) :
    Accountable w := by
  obtain ⟨htrue, es, v, -, hj, -, hs, -, hop⟩ := h
  exact ⟨htrue, es, v, hj, hs, fun op h ho => (hop op h ho).2⟩

/-- That it was recovered is about the books. -/
theorem recovered_about (named : Prop) (n : Nat) :
    AboutBooks (Recovered named n : World η γ → Prop) := by
  rintro w w' hsame ⟨htrue, es, v, hn, hj, hrest, hs, hstable, hop⟩
  refine ⟨htrue.of_recorded hsame.recorded, es, v, hn, ?_, hrest, hs.congr hsame.slots,
    fun hnamed => ?_, fun op h ho => ?_⟩
  · rw [Disk.readJournal_congr hsame.journal]
    exact hj
  · rw [Disk.version_congr (congrFun hsame.slots .stable)]
    exact hstable hnamed
  · rw [Disk.readOperation_congr hsame.operation] at h
    exact ⟨(hop op h ho).1.congr hsame.slots, (hop op h ho).2⟩

/-- The record and the history of a world, which no call of the engine changes. -/
theorem aboutRecords_history (file : File Operation) :
    AboutRecords (fun w : World η γ => w.disk.operation = file ∧ ReceiptsTrue w.log) := by
  rintro w w' ⟨⟨ho, -⟩, hlog⟩ ⟨hfile, htrue⟩
  refine ⟨ho.trans hfile, htrue.of_recorded fun op disk hm => ?_⟩
  have hf : Note.recorded op disk ∈ w'.log.filter Note.isRecord := List.mem_filter.mpr ⟨hm, rfl⟩
  rw [hlog] at hf
  exact (List.mem_filter.mp hf).1

/-- **The engine's recovery** ends with nothing on trial, and never in another version. -/
theorem recover_accountable (hc : ReadsProduct c) (named : Prop) :
    Triple (OnWorld (Accountable : World η γ → Prop)) (r.engine c).recover
      (fun _ s => Recovered named s.seq s.world ∧ ∃ v, s.world.disk.Rests v)
      (fun _ => OnWorld Accountable) := by
  refine Triple.of_forall fun s hs => ?_
  obtain ⟨htrue, es, v, hj, hsound, hop⟩ := hs
  have hrun := (Course.recoverOutline (r := r) (V := .blind) (fun _ => trivial : _ → True)
    (ServiceView.blind_controlled r.host) c v False (lastIntent es = some .promoted)
    (opensOf es) (commitsOf es)).recover_triple
  have hframe := ((aboutRecords_history s.world.disk.operation).frame (r := r) hc).recover
  -- an open record covers the version wherever the tail moves
  have hcovers : ∀ (w : World η γ) (es' : List JournalEntry),
      w.disk.operation = s.world.disk.operation →
      (lastIntent es = some .promoted → lastIntent es' = some .promoted) →
      ∀ op, w.disk.readOperation = .observed op → op.outcome = none →
        op.Covers (lastIntent es') v := by
    intro w es' ho hsealed op h hnone
    rw [Disk.readOperation_congr ho] at h
    exact (hop op h hnone).imp id fun ⟨ht, hv⟩ => ⟨hsealed ht, hv⟩
  refine (hrun.and hframe).conseq (fun s' h => ?_) (fun _ s' h => ?_) fun _ s' h => ?_
  · subst h
    exact ⟨⟨es, fun hne => absurd rfl hne, ⟨trivial, rfl, rfl, id, fun h => h.elim⟩, hj,
      ⟨hsound, trivial, fun h => h.elim⟩, ServiceView.sound_of_serving trivial trivial,
      fun h => h.elim⟩, rfl, htrue⟩
  · obtain ⟨⟨ended, es', hseq, ⟨htail, -, -, hsealed, -⟩, hread, hslots, -⟩, hfile, htrue'⟩ := h
    have hrests : s'.world.disk.Rests v := by
      cases ended with
      | none => exact hslots.1.rests (hslots.2.1 trivial)
      | some phase =>
          cases phase with
          | promoted => exact hslots.2
          | _ => exact hslots.2
    refine ⟨⟨htrue', es', v, hseq (by simp), hread, htail, hrests.sound _,
      fun _ => hrests.stable, fun op h hnone => ?_⟩, v, hrests⟩
    exact ⟨hrests, hcovers s'.world es' hfile hsealed op h hnone⟩
  · obtain ⟨⟨⟨p, es', hat⟩, -⟩, hfile, htrue'⟩ := h
    obtain ⟨v', hs, -, hv'⟩ := hat.sound
    have hv : v' = v := hv'.elim id fun h => h.elim id fun h => h.2.2
    subst hv
    exact ⟨htrue', es', v', hat.2.1, hs, hcovers s'.world es' hfile hat.1.2.2.2.1⟩

/-- A call that may skip recovery: unless its record is to be opened, it does not matter
that something is unfinished. -/
def MaySkip (named : Prop) (w : World η γ) : Prop :=
  Accountable w ∧ (named → ¬w.disk.Unfinished)

/-- What recovery may skip is about the books. -/
theorem maySkip_about (named : Prop) : AboutBooks (MaySkip named : World η γ → Prop) := by
  rintro w w' hsame ⟨h, hun⟩
  exact ⟨accountable_about w w' hsame h, fun hn hu =>
    hun hn (hu.congr hsame.journal hsame.operation hsame.slots)⟩

/-- **The recovery of a call**, through the engine or past it. -/
theorem recoverEngine_accountable (hc : ReadsProduct c) (named : Prop) :
    Triple (OnWorld (MaySkip named)) (r.recoverEngine c)
      (fun _ s => Recovered named s.seq s.world) (fun _ => OnWorld Accountable) := by
  refine recovering_within (fun _ h => h.1) ?_ ?_
  · intro w op outcome state es ⟨hw, hun⟩ hop ho hstate hrest hstable hj
    obtain ⟨htrue, es', v, hj', hs, hcov⟩ := hw
    rw [hj, Except.ok.injEq] at hj'
    subst hj'
    have hrest := (transactionState_atRest_iff hstate hj).mp hrest
    refine ⟨htrue, es, v, rfl, hj, hrest, hs, fun hnamed => ?_, fun op' hop' hnone => ?_⟩
    · -- a pending promotion would be the unfinished one
      refine hs.stable (Classical.or_iff_not_imp_left.mpr fun htail => ?_)
      refine Classical.not_not.mp fun hexp => hun hnamed ?_
      exact ⟨op, outcome, state, es, hop, ho, hj, Classical.not_not.mp htail, hexp, hstate, hstable⟩
    · rw [hop] at hop'
      cases hop'
      rw [ho] at hnone
      cases hnone
  · exact ((recover_accountable hc named).pre fun s hs => hs.1.1).post fun _ s h => h.1

/-- What is recorded when the version recovery left is the one the outcome promises. -/
theorem confirms_record {w : World η γ} {es : List JournalEntry} {op : Operation}
    {outcome : Outcome} (hj : w.disk.readJournal = .ok es)
    (hrest : ∀ p, lastIntent es = some p → p.atRest = true) (hphase : op.phase = outcome.phase)
    (hstable : w.disk.version .stable = .ok (some (settledVersion op outcome))) :
    (w.record op).disk.Confirms op outcome :=
  ⟨⟨es, hj, hrest⟩, hphase, hstable⟩

/-- **Settling** after recovery records what is so. -/
theorem settle_recovered (named : Prop) (n : Nat) :
    Triple (Recovered named n) r.settle (fun _ w => Recovered named n w ∧ Closed w)
      (fun _ => Accountable) := by
  have hclosed : AboutBooks (fun w : World η γ => Recovered named n w ∧ Closed w) := by
    rintro w w' hsame ⟨h, hcl⟩
    refine ⟨recovered_about named n w w' hsame h, fun op hop => hcl op ?_⟩
    rw [Disk.readOperation_congr hsame.operation] at hop
    exact hop
  -- an outcome that journal and stable slot bear out
  have hrecord : ∀ (w : World η γ) (op : Operation) (phase : OperationPhase) (outcome : Outcome)
      (now : Nat) (reason : Option String), Recovered named n w →
      w.disk.readOperation = .observed op → phase = outcome.phase →
      w.disk.version .stable = .ok (some (settledVersion op outcome)) →
      Recovered named n (w.record (advance op now phase (some outcome) reason)) ∧
        Closed (w.record (advance op now phase (some outcome) reason)) := by
    intro w op phase outcome now reason h hop hphase hstable
    obtain ⟨htrue, es, v, hn, hj, hrest, hs, hv, -⟩ := h
    have hshut : Closed (w.record (advance op now phase (some outcome) reason)) := by
      intro op' hop'
      obtain ⟨rfl, -⟩ := observed_record hop'
      simp [advance]
    refine ⟨⟨htrue.record fun outcome' ho => ?_, es, v, hn, hj, hrest, hs.congr rfl, hv,
      fun op' hop' hnone => absurd hnone (hshut op' hop')⟩, hshut⟩
    have ho : outcome' = outcome := by simpa [advance, eq_comm] using ho
    subst ho
    exact confirms_record hj hrest hphase hstable
  refine settling_within (recovered_about named n).offTick hclosed.offTick
    (fun _ h => h.accountable) (fun _ h => h.1.accountable) (fun w h hcl => ⟨h, hcl⟩) ?_ ?_ ?_
  · intro w op state now h hop hnone hstate hphase hstable
    obtain ⟨es, v, -, hj, -, -, -, hcov⟩ := h.sound
    have hrests := (hcov op hop hnone).1
    have hv := (transactionState_eq hstate hj hrests.stable).1
    refine hrecord w op _ _ now _ h hop rfl ?_
    rw [hrests.stable, ← hv, hstable]
    rfl
  · intro w op state now reason h hop hnone hstate _ hnot
    obtain ⟨es, v, -, hj, -, -, -, hcov⟩ := h.sound
    obtain ⟨hrests, hcovers⟩ := hcov op hop hnone
    obtain ⟨hv, hphase⟩ := transactionState_eq hstate hj hrests.stable
    refine hrecord w op _ _ now _ h hop rfl ?_
    rw [hrests.stable]
    rcases hcovers with hfrom | ⟨htail, htarget⟩
    · rw [hfrom]
      rfl
    · exact absurd ⟨by rw [hphase, htail]; rfl, hv.trans htarget⟩ hnot
  · intro w state h hstate hbusy
    obtain ⟨-, es, v, -, hj, hrest, -⟩ := h
    rw [(transactionState_atRest_iff hstate hj).mpr hrest] at hbusy
    cases hbusy

/-! ## a drive -/

/-- The record `o` of a drive to `target`, which is its own trim, is open. -/
structure Trimmed (target : Option String) (o : Operation) (w : World η γ) : Prop
    extends Opened target o w where
  trimmed : trim o.targetVersion = o.targetVersion

/-- The record of a trimmed target is about the record. -/
theorem Trimmed.same {target : Option String} {o : Operation} {w w' : World η γ}
    (h : Trimmed target o w) (ho : w'.disk.operation = w.disk.operation) : Trimmed target o w' :=
  ⟨h.toOpened.same ho, h.trimmed⟩

/-- A phase of it. -/
theorem Trimmed.advance {target : Option String} {o : Operation} {w : World η γ}
    (h : Trimmed target o w) (now : Nat) (phase : OperationPhase) (reason : Option String) :
    Trimmed target (Runner.advance o now phase none reason)
      (w.record (Runner.advance o now phase none reason)) :=
  ⟨h.toOpened.advance now phase reason, h.trimmed⟩

/-- Between recovery and the engine's upgrade: the record, if there is one, is open on the
stable version. -/
structure Poised (target : Option String) (op : Option Operation) (n : Nat) (w : World η γ) :
    Prop where
  truthful : ReceiptsTrue w.log
  sound : ∃ es v, n = nextSeq es ∧ w.disk.readJournal = .ok es ∧
    (∀ p, lastIntent es = some p → p.atRest = true) ∧ w.disk.Sound (lastIntent es) v ∧
    ∀ o, op = some o → v = o.fromVersion ∧ w.disk.version .stable = .ok (some v)
  closed : op = none → Closed w
  opened : ∀ o, op = some o → Trimmed target o w

/-- After the engine's upgrade came to `outcome`. -/
structure Concluding (target : Option String) (op : Option Operation) (outcome : Outcome)
    (w : World η γ) : Prop where
  truthful : ReceiptsTrue w.log
  sound : ∃ es v, w.disk.readJournal = .ok es ∧
    (∀ p, lastIntent es = some p → p.atRest = true) ∧ w.disk.Sound (lastIntent es) v ∧
    ∀ o, op = some o → o.Covers (lastIntent es) v ∧
      w.disk.version .stable = .ok (some (settledVersion o outcome))
  closed : op = none → Closed w
  opened : ∀ o, op = some o → Trimmed target o w

/-- After the engine's upgrade did not return. -/
def Abandoned (target : Option String) (op : Option Operation) (w : World η γ) : Prop :=
  Accountable w ∧ ∀ o, op = some o → Trimmed target o w

/-- A drive that is poised is so by the books. -/
theorem poised_about (target : Option String) (op : Option Operation) (n : Nat) :
    AboutBooks (Poised target op n : World η γ → Prop) := by
  rintro w w' hsame ⟨htrue, ⟨es, v, hn, hj, hrest, hs, hstable⟩, hclosed, hopened⟩
  refine ⟨htrue.of_recorded hsame.recorded, ⟨es, v, hn, ?_, hrest, hs.congr hsame.slots,
    fun o ho => ⟨(hstable o ho).1, ?_⟩⟩, fun hnone => closed_about w w' hsame (hclosed hnone),
    fun o ho => (hopened o ho).same hsame.operation⟩
  · rw [Disk.readJournal_congr hsame.journal]
    exact hj
  · rw [Disk.version_congr (congrFun hsame.slots .stable)]
    exact (hstable o ho).2

/-- So is one that concludes. -/
theorem concluding_about (target : Option String) (op : Option Operation) (outcome : Outcome) :
    AboutBooks (Concluding target op outcome : World η γ → Prop) := by
  rintro w w' hsame ⟨htrue, ⟨es, v, hj, hrest, hs, hstable⟩, hclosed, hopened⟩
  refine ⟨htrue.of_recorded hsame.recorded, ⟨es, v, ?_, hrest, hs.congr hsame.slots,
    fun o ho => ⟨(hstable o ho).1, ?_⟩⟩, fun hnone => closed_about w w' hsame (hclosed hnone),
    fun o ho => (hopened o ho).same hsame.operation⟩
  · rw [Disk.readJournal_congr hsame.journal]
    exact hj
  · rw [Disk.version_congr (congrFun hsame.slots .stable)]
    exact (hstable o ho).2

/-- So is one that was abandoned. -/
theorem abandoned_about (target : Option String) (op : Option Operation) :
    AboutBooks (Abandoned target op : World η γ → Prop) := fun w w' hsame h =>
  ⟨accountable_about w w' hsame h.1, fun o ho => (h.2 o ho).same hsame.operation⟩

/-- The record that is read in a drive is its own, and open. -/
theorem covers_of_opened {target : Option String} {op : Option Operation} {w : World η γ}
    {tail : Option Phase} {v : String} (hclosed : op = none → Closed w)
    (hopened : ∀ o, op = some o → Trimmed target o w) (hv : ∀ o, op = some o → o.Covers tail v)
    (record : Operation) (hread : w.disk.readOperation = .observed record)
    (hnone : record.outcome = none) : record.Covers tail v := by
  cases op with
  | none => exact absurd hnone (hclosed rfl record hread)
  | some o =>
      have hfile := (hopened o rfl).file
      rw [(Disk.readOperation_observed_iff.mp hread).1] at hfile
      cases hfile
      exact hv record rfl

/-- A drive that is poised is accountable. -/
theorem Poised.accountable {target : Option String} {op : Option Operation} {n : Nat}
    {w : World η γ} (h : Poised target op n w) : Accountable w := by
  obtain ⟨htrue, ⟨es, v, -, hj, -, hs, hstable⟩, hclosed, hopened⟩ := h
  exact ⟨htrue, es, v, hj, hs,
    covers_of_opened hclosed hopened fun o ho => .inl (hstable o ho).1⟩

/-- So is one that concludes. -/
theorem Concluding.accountable {target : Option String} {op : Option Operation}
    {outcome : Outcome} {w : World η γ} (h : Concluding target op outcome w) : Accountable w := by
  obtain ⟨htrue, ⟨es, v, hj, -, hs, hstable⟩, hclosed, hopened⟩ := h
  exact ⟨htrue, es, v, hj, hs, covers_of_opened hclosed hopened fun o ho => (hstable o ho).1⟩

/-- A phase is no receipt. -/
theorem receiptsTrue_advance {w : World η γ} (h : ReceiptsTrue w.log) {o : Operation}
    (ho : o.outcome = none) (now : Nat) (phase : OperationPhase) (reason : Option String) :
    ReceiptsTrue (w.record (Runner.advance o now phase none reason)).log :=
  h.record fun outcome hout => by simp [Runner.advance, ho] at hout

/-- A terminal record that is so leaves nothing to account for. -/
theorem accountable_record {w : World η γ} {es : List JournalEntry} {v : String} {o : Operation}
    {outcome : Outcome} (now : Nat) (reason : Option String) (htrue : ReceiptsTrue w.log)
    (hj : w.disk.readJournal = .ok es) (hrest : ∀ p, lastIntent es = some p → p.atRest = true)
    (hs : w.disk.Sound (lastIntent es) v)
    (hstable : w.disk.version .stable = .ok (some (settledVersion o outcome))) :
    Accountable (w.record (advance o now outcome.phase (some outcome) reason)) := by
  refine ⟨htrue.record fun outcome' ho => ?_, es, v, hj, hs.congr rfl, fun op hop hnone => ?_⟩
  · have ho : outcome' = outcome := by simpa [advance, eq_comm] using ho
    subst ho
    exact confirms_record hj hrest rfl hstable
  · obtain ⟨rfl, -⟩ := observed_record hop
    simp [advance] at hnone

variable {target : Option String} {options : UpgradeOptions}

/-- A phase is recorded. -/
theorem poised_progress (op : Option Operation) (n : Nat) (phase : OperationPhase)
    (reason : Option String) :
    Triple (Poised target op n) (r.transition op phase none reason)
      (fun op' => Poised target op' n) (fun _ => Accountable) := by
  refine (transition_triple (fun _ => trivial : _ → True) (poised_about target op n).offTick
    (fun op' => (poised_about target op' n).offTick) (fun _ _ => .inr trivial)
    (fun hnone w hw => hnone ▸ hw) fun o ho w now _ hw => ?_).crash
    fun w h => h.1.elim Poised.accountable fun ⟨_, h⟩ => h.accountable
  subst ho
  obtain ⟨htrue, ⟨es, v, hn, hj, hrest, hs, hstable⟩, -, hopened⟩ := hw
  have ho := hopened o rfl
  refine ⟨receiptsTrue_advance htrue ho.open_ now phase reason, ⟨es, v, hn, hj, hrest, hs.congr rfl,
    fun o' ho' => ?_⟩, (fun h => by cases h), fun o' ho' => ?_⟩
  · cases ho'
    exact hstable o rfl
  · cases ho'
    exact ho.advance now phase reason

/-- An outcome that leaves the stable version as it was. -/
theorem poised_finish (op : Option Operation) (n : Nat) (outcome : Outcome)
    (reason : Option String) (houtcome : outcome ≠ .promoted) :
    Triple (Poised target op n) (r.transition op outcome.phase (some outcome) reason)
      (fun _ => Accountable) (fun _ => Accountable) := by
  refine (transition_triple (Q := fun _ => Accountable) (fun _ => trivial : _ → True)
    (poised_about target op n).offTick (fun _ => accountable_about.offTick)
    (fun _ _ => .inr trivial) (fun _ w hw => hw.accountable) fun o ho w now _ hw => ?_).crash
    fun w h => h.1.elim Poised.accountable fun ⟨_, h⟩ => h
  subst ho
  obtain ⟨htrue, ⟨es, v, -, hj, hrest, hs, hstable⟩, -, -⟩ := hw
  refine accountable_record now reason htrue hj hrest hs ?_
  rw [(hstable o rfl).2, (hstable o rfl).1, settledVersion, if_neg houtcome]

/-- The outcome of the engine's upgrade. -/
theorem concluding_finish (op : Option Operation) (outcome : Outcome) (reason : Option String) :
    Triple (Concluding target op outcome) (r.transition op outcome.phase (some outcome) reason)
      (fun _ => Accountable) (fun _ => Accountable) := by
  refine (transition_triple (Q := fun _ => Accountable) (fun _ => trivial : _ → True)
    (concluding_about target op outcome).offTick (fun _ => accountable_about.offTick)
    (fun _ _ => .inr trivial) (fun _ w hw => hw.accountable) fun o ho w now _ hw => ?_).crash
    fun w h => h.1.elim Concluding.accountable fun ⟨_, h⟩ => h
  subst ho
  obtain ⟨htrue, ⟨es, v, hj, hrest, hs, hstable⟩, -, -⟩ := hw
  exact accountable_record now reason htrue hj hrest hs (hstable o rfl).2

/-- The error of the engine's upgrade leaves the record open. -/
theorem abandoned_progress (op : Option Operation) (reason : Option String) :
    Triple (Abandoned target op) (r.transition op .recovering none reason) (fun _ => Accountable)
      (fun _ => Accountable) := by
  refine (transition_triple (Q := fun _ => Accountable) (fun _ => trivial : _ → True)
    (abandoned_about target op).offTick (fun _ => accountable_about.offTick)
    (fun _ _ => .inr trivial) (fun _ w hw => hw.1) fun o ho w now hv hw => ?_).crash
    fun w h => h.1.elim And.left fun ⟨_, h⟩ => h
  subst ho
  obtain ⟨⟨htrue, es, v, hj, hs, hcov⟩, hopened⟩ := hw
  have ho := hopened o rfl
  refine ⟨receiptsTrue_advance htrue ho.open_ now _ reason, es, v, hj, hs.congr rfl,
    fun op hop _ => ?_⟩
  obtain ⟨rfl, -⟩ := observed_record hop
  exact hcov o ho.read ho.open_

/-- **The engine's upgrade** of a drive. -/
theorem upgrade_poised (hc : ReadsProduct c) (op : Option Operation) (release : Release)
    (hrelease : (target.any fun v => release.version != v) = false) :
    Triple (fun s : Running (World η γ) => Poised target op s.seq s.world)
      ((r.engine c).upgrade release.version incomingPath)
      (fun outcome => OnWorld (Concluding target op (recordedAs outcome)))
      (fun _ => OnWorld (Abandoned target op)) := by
  refine Triple.of_forall fun s hs => ?_
  obtain ⟨htrue, ⟨es, v, hn, hj, hrest, hsound, hstable⟩, hclosed, hopened⟩ := hs
  let before := stableNow s.world.disk
  have hbefore : ∀ o, op = some o → before = o.fromVersion := fun o ho => by
    rw [← (hstable o ho).1]
    exact stableNow_eq (hstable o ho).2
  have htarget : ∀ o, op = some o → trim release.version = o.targetVersion := by
    intro o ho
    have hopen := hopened o ho
    rw [hopen.target] at hrelease
    have hv : release.version = o.targetVersion := by simpa using hrelease
    rw [hv, hopen.trimmed]
  have hrun := (Course.upgradeOutline (r := r) (V := .blind)
    (ServiceView.blind_controlled r.host) v before release.version False (opensOf es)
    (commitsOf es) incomingPath hc fun _ _ => trivial).upgrade_triple
  have hframe := ((aboutRecords_history s.world.disk.operation).frame (r := r) hc).upgrade
    release.version incomingPath
  -- the record stays what it is
  have hkeep : ∀ w : World η γ, w.disk.operation = s.world.disk.operation →
      (op = none → Closed w) ∧ ∀ o, op = some o → Trimmed target o w := fun w ho =>
    ⟨fun hnone record hread => hclosed hnone record (by rwa [Disk.readOperation_congr ho] at hread),
      fun o hop => (hopened o hop).same ho⟩
  refine (hrun.and hframe).conseq (fun s' h => ?_) (fun outcome s' h => ?_) fun _ s' h => ?_
  · subst h
    refine ⟨⟨es, fun _ => hn, ⟨hrest, rfl, rfl, fun h => h.elim, fun h => h.elim⟩, hj,
      ⟨hsound, fun h => h.elim, fun v' hv' => (stableNow_eq hv').symm⟩, trivial, trivial⟩, rfl, htrue⟩
  · obtain ⟨hends, hfile, htrue'⟩ := h
    obtain ⟨hclosed', hopened'⟩ := hkeep s'.world hfile
    cases outcome with
    | promoted v' =>
        obtain ⟨-, es', -, ⟨htail, -⟩, hread, ⟨hlast, hrests⟩, -⟩ := hends
        refine ⟨htrue', ⟨es', _, hread, htail, hrests.sound _, fun o ho => ⟨?_, ?_⟩⟩, hclosed', hopened'⟩
        · exact .inr ⟨hlast, htarget o ho⟩
        · rw [hrests.stable]
          have hv : settledVersion o .promoted = o.targetVersion := rfl
          rw [recordedAs, hv, ← htarget o ho]
          rfl
    | rolledBack reason =>
        obtain ⟨es', -, ⟨htail, -⟩, hread, ⟨-, hrests⟩, -⟩ := hends
        refine ⟨htrue', ⟨es', _, hread, htail, hrests.sound _, fun o ho => ⟨?_, ?_⟩⟩, hclosed', hopened'⟩
        · exact .inl (hbefore o ho)
        · rw [hrests.stable]
          have hv : settledVersion o .rolledBack = o.fromVersion := rfl
          rw [recordedAs, hv, ← hbefore o ho]
          rfl
    | upToDate =>
        obtain ⟨es', -, ⟨htail, -⟩, hread, ⟨hs', -, hv', hsame⟩, -⟩ := hends
        refine ⟨htrue', ⟨es', _, hread, htail, hs', fun o ho => ⟨?_, ?_⟩⟩, hclosed', hopened'⟩
        · exact .inl (hstable o ho).1
        · rw [hv', hsame]
          have hv : settledVersion o .upToDate = o.fromVersion := rfl
          rw [recordedAs, hv, ← hbefore o ho]
          rfl
  · obtain ⟨⟨⟨p, es', hat⟩, -⟩, hfile, htrue'⟩ := h
    obtain ⟨hclosed', hopened'⟩ := hkeep s'.world hfile
    obtain ⟨v', hs', -, hv'⟩ := hat.sound
    refine ⟨⟨htrue', es', v', hat.2.1, hs', covers_of_opened hclosed' hopened' fun o ho => ?_⟩, hopened'⟩
    rcases hv' with hv' | hv' | ⟨-, hlast, hv'⟩
    · exact .inl (hv'.trans (hstable o ho).1)
    · exact .inl (hv'.trans (hbefore o ho))
    · exact .inr ⟨hlast, hv'.trans (htarget o ho)⟩

/-- The record of a drive is opened on the stable version. -/
theorem openOperation_poised (n : Nat) (htarget : ∀ desc, options.operation = some desc →
      ∃ version, target = some version ∧ trim version = version) :
    Triple (fun w : World η γ => Recovered (options.operation ≠ none) n w ∧ Closed w)
      (r.openOperation target options) (fun opened => Poised target opened.1 n)
      (fun _ => Accountable) := by
  have hS : AboutBooks fun w : World η γ => Recovered (options.operation ≠ none) n w ∧ Closed w :=
    fun w w' hsame h => ⟨recovered_about _ n w w' hsame h.1, closed_about w w' hsame h.2⟩
  refine opening_triple hS.offTick (fun op => (poised_about target op n).offTick)
    (hS.offReceipts.retirePrevious r) (fun w h => h.1.accountable)
    (fun op w h => h.accountable) (fun _ w h => ?_) fun desc state now w hdesc h hstate hvalid => ?_
  · obtain ⟨⟨htrue, es, v, hn, hj, hrest, hs, -⟩, hclosed⟩ := h
    exact ⟨htrue, ⟨es, v, hn, hj, hrest, hs, fun o ho => by cases ho⟩, fun _ => hclosed,
      fun o ho => by cases ho⟩
  · obtain ⟨⟨htrue, es, v, hn, hj, hrest, hs, hstable, -⟩, -⟩ := h
    have hv := hstable (by simp [hdesc])
    obtain ⟨version, rfl, htrim⟩ := htarget desc hdesc
    refine ⟨htrue.record fun outcome ho => by simp [newOperation] at ho,
      ⟨es, v, hn, hj, hrest, hs.congr rfl, fun o ho => ?_⟩, (fun h => by cases h), fun o ho => ?_⟩
    · cases ho
      exact ⟨(transactionState_eq hstate hj hv).1.symm, hv⟩
    · cases ho
      exact ⟨⟨rfl, rfl, hvalid, rfl⟩, htrim⟩

/-- **The outline of a drive.** -/
theorem truthOutline (hc : ReadsProduct c) (htarget : ∀ desc, options.operation = some desc →
      ∃ version, target = some version ∧ trim version = version) :
    DriveOutline r c target options (fun _ => True) (MaySkip (options.operation ≠ none))
      (Poised target) (fun op outcome => Concluding target op (recordedAs outcome))
      (fun op _ => Abandoned target op) (fun _ => Accountable) (fun _ => Accountable) where
  outside := .any
  quietActive op n := (poised_about target op n).indifferent
  quietEnded op outcome := (concluding_about target op (recordedAs outcome)).indifferent
  quiet _ := accountable_about.indifferent
  active _ _ _ _ _ h := h.accountable
  ended _ _ _ _ _ h := h.accountable
  broken _ _ h := h.1
  closed _ _ _ _ h := h
  start := by
    refine ⟨fun s => Recovered (options.operation ≠ none) s.seq s.world,
      fun s => Recovered (options.operation ≠ none) s.seq s.world ∧ Closed s.world,
      recoverEngine_accountable hc _, ?_, ?_⟩
    · exact Triple.zoom fun s hs => settle_recovered _ s.seq s.world hs
    · exact Triple.zoom fun s hs => openOperation_poised s.seq htarget s.world hs
  progress op n phase reason := poised_progress op n phase reason
  finish op n outcome reason houtcome := poised_finish op n outcome reason (by
    rcases houtcome with rfl | rfl | rfl <;> simp)
  upgrade op release hrelease := upgrade_poised hc op release hrelease
  abandon op _ reason := abandoned_progress op reason
  conclude op outcome reason := concluding_finish op (recordedAs outcome) reason

/-- **Every call keeps the receipts true**, wherever it is cut off. -/
theorem truth_call (call : Call) (htrim : ∀ version, call.named = some version →
      trim version = version) :
    CallOutline r call (MaySkip (call.named ≠ none) : World η γ → Prop) Accountable := by
  refine ⟨accountable_about.indifferent, (maySkip_about _).offLock, accountable_about.offLock,
    fun _ h => h.1, fun _ => ?_, fun target options hdrives => ?_, fun reason _ => ?_⟩
  · refine recoverLocked_letThrough call.expected (fun _ h => h.1) (fun _ h _ => h)
      (maySkip_about _).observed (fun _ h => h.1) fun c hc => ?_
    refine Triple.bind (recoverEngine_accountable hc _) fun _ => ?_
    exact Triple.zoom fun s hs => (settle_recovered _ s.seq s.world hs).mono
      (fun _ _ h => h.1.accountable) fun _ _ h => h
  · refine driveLocked_letThrough target options (fun _ h => h.1.1) (fun w h _ => ?_)
      (maySkip_about _).observed (fun _ h => h.1) fun c hc =>
        (truthOutline hc fun desc hdesc => ?_).driveEngine_triple
    · refine ⟨h.1.1, fun hop => h.1.2 ?_⟩
      obtain ⟨desc, hdesc⟩ := Option.ne_none_iff_exists'.mp hop
      obtain ⟨version, -, hv⟩ := hdrives.named desc hdesc
      simp [hv]
    · obtain ⟨version, ht, hv⟩ := hdrives.named desc hdesc
      exact ⟨version, ht, htrim version hv⟩
  · refine rollbackLocked_triple (R := fun w => Accountable w ∧ ∃ v, w.disk.Rests v) reason
      (maySkip_about _).observed (fun _ h => h.1) (fun c hc => ?_) ?_ accountable_about.indifferent
    · exact (recover_accountable hc True).conseq (fun _ h => h.1)
        (fun _ s h => ⟨h.1.accountable, h.2⟩) fun _ _ h => h
    · have hclear := FileStore.clear_empty (s := r.store) (I := (Accountable : World η γ → Prop))
        (D := fun d => d.slots .experiment = .absent) fun _ h => h
      exact hclear.conseq (fun w ⟨h, v, hr⟩ => ⟨hr.empty, h⟩) (fun _ _ h => h.2) fun _ _ h => h.elim

end Runner

/-! ## runs -/

/-- A directory that was bootstrapped with `v`: nothing was journalled or recorded. -/
structure World.Bootstrapped (w : World η γ) (v : String) : Prop where
  journal : w.disk.journal = .absent
  operation : w.disk.operation = .absent
  slots : w.disk.Rests v
  log : w.log = []

/-- A directory that was bootstrapped is accountable. -/
theorem World.Bootstrapped.accountable {w : World η γ} {v : String} (h : w.Bootstrapped v) :
    Accountable w := by
  refine ⟨fun op disk outcome hm => ?_, [], v, ?_, h.slots.sound _, fun op hop => ?_⟩
  · rw [h.log] at hm
    cases hm
  · simp only [Disk.readJournal, h.journal]
  · have := (Disk.readOperation_observed_iff.mp hop).1
    rw [h.operation] at this
    cases this

/-- **Receipt truth.**  In any run of calls on a bootstrapped directory, each cut off
anywhere and every target its own trim: as long as no upgrade with a descriptor comes to a
directory with an unfinished promotion that a settled record hides, every outcome was true
of the directory when it was recorded. -/
theorem receipts_true (w : World η γ) (v : String) (hw : w.Bootstrapped v)
    (visits : List (Visit η γ))
    (htrim : ∀ visit ∈ visits, ∀ version, visit.call.named = some version →
      trim version = version)
    (hmeets : EachVisit (fun visit w => visit.call.named ≠ none → ¬w.disk.Unfinished) visits w) :
    ∀ op disk outcome, .recorded op disk ∈ (runVisits visits w).log →
      op.outcome = some outcome → disk.Confirms op outcome := by
  have hstep : ∀ (visit : Visit η γ) (w : World η γ), Accountable w →
      ((∀ version, visit.call.named = some version → trim version = version) ∧
        (visit.call.named ≠ none → ¬w.disk.Unfinished)) → Accountable (visit.run w) := by
    intro visit w h ⟨ht, hun⟩
    refine Visit.run_of_triple (Runner.truth_call visit.call ht).call_triple ?_
    exact Runner.maySkip_about _ w _ ⟨rfl, rfl, rfl, rfl, fun _ _ h => h⟩ ⟨h, hun⟩
  exact (run_invariant hstep visits w hw.accountable (eachVisit_and htrim hmeets)).truthful

namespace Service

/-- The product starts from a bootstrapped directory. -/
theorem installed_bootstrapped {version : String} (hne : version ≠ "")
    (htrim : trim version = version) : (installed version).Bootstrapped version := by
  refine ⟨rfl, rfl, ⟨fun place => ?_, ?_, rfl⟩, rfl⟩
  · cases place <;> simp [installed]
  · simp [installed, Disk.version, File.read, htrim, hne]

/-- An upgrade for `a` is held back; one without a record dies before its promotion is
carried out; one for `b` dies once its record is open; and a recovery follows. -/
def hiddenPromotion : List (Visit Service Unit) :=
  [⟨{ runner 7 Faults.clean with policy := .notifyOnly }, .free, (),
      .execute (.upgrade 1 "a" "2" false)⟩,
    ⟨runner 8 (diesAt 50), .free, (), .upgradeTo "2" .none⟩,
    ⟨runner 9 (diesAt 55), .free, (), .execute (.upgrade 1 "b" "3" true)⟩,
    ⟨runner 10 Faults.clean, .free, (), .recover none⟩]

/-- A terminal record with another version in the stable slot than it promises. -/
def belied : Note → Bool
  | .recorded op disk =>
      match op.outcome, disk.version .stable with
      | some outcome, .ok (some v) => v != Runner.settledVersion op outcome
      | _, _ => false
  | _ => false

/-- The recovery records that `b` was rolled back to its version, with the candidate of the
other upgrade in the stable slot. -/
theorem receipts_belied : (installed "1").Bootstrapped "1" ∧
    (∀ visit ∈ hiddenPromotion, ∀ version, visit.call.named = some version →
      version ≠ "" ∧ trim version = version) ∧
    ∃ op disk outcome, .recorded op disk ∈ (runVisits hiddenPromotion (installed "1")).log ∧
      op.outcome = some outcome ∧ ¬disk.Confirms op outcome := by
  have hversions : ∀ version ∈ ["1", "2", "3"], version ≠ "" ∧ trim version = version := by
    decide +kernel
  refine ⟨installed_bootstrapped (hversions "1" (by simp)).1 (hversions "1" (by simp)).2,
    fun visit hvisit version hv => hversions version ?_, ?_⟩
  · simp only [hiddenPromotion, List.mem_cons, List.not_mem_nil, or_false] at hvisit
    rcases hvisit with rfl | rfl | rfl | rfl <;> simp_all [Call.named, UpgradeOptions.none]
  · have hany : (runVisits hiddenPromotion (installed "1")).log.any belied = true := by
      decide +kernel
    obtain ⟨entry, hm, hbelied⟩ := List.any_eq_true.mp hany
    cases entry with
    | recorded op disk =>
        cases ho : op.outcome with
        | none => simp [belied, ho] at hbelied
        | some outcome =>
            refine ⟨op, disk, outcome, hm, ho, fun hconfirms => ?_⟩
            simp [belied, ho, hconfirms.stable] at hbelied
    | _ => cases hbelied

/-- An upgrade that dies, and the recovery after it, which records that it was rolled back. -/
theorem receipts_true_recovered : ∃ op disk, .recorded op disk ∈ (runVisits
      [⟨runner 7 (diesAt 45), .free, (), .execute (.upgrade 1 "a" "2" true)⟩,
        ⟨runner 8 Faults.clean, .free, (), .recover none⟩] (installed "1")).log ∧
      op.outcome = some .rolledBack ∧ disk.Confirms op .rolledBack := by
  have hversions : ∀ version ∈ ["1", "2"], version ≠ "" ∧ trim version = version := by
    decide +kernel
  have htrue := receipts_true (installed "1") "1" (installed_bootstrapped (hversions "1" (by simp)).1
    (hversions "1" (by simp)).2)
    [⟨runner 7 (diesAt 45), .free, (), .execute (.upgrade 1 "a" "2" true)⟩,
      ⟨runner 8 Faults.clean, .free, (), .recover none⟩]
    (fun visit hvisit version hv => (hversions version ?_).2)
    ⟨fun _ hun => ?_, fun hnone => absurd rfl hnone, True.intro⟩
  · have hrecorded : ((runVisits
        [⟨runner 7 (diesAt 45), .free, (), .execute (.upgrade 1 "a" "2" true)⟩,
          ⟨runner 8 Faults.clean, .free, (), .recover none⟩] (installed "1")).log.find? fun note =>
        match note with
        | .recorded op _ => decide (op.outcome = some .rolledBack)
        | _ => false).isSome = true := by decide +kernel
    obtain ⟨note, hfind⟩ := Option.isSome_iff_exists.mp hrecorded
    have hnote := List.find?_some hfind
    cases note with
    | recorded op disk =>
        have hmem := List.mem_of_find?_eq_some hfind
        have ho : op.outcome = some .rolledBack := of_decide_eq_true hnote
        exact ⟨op, disk, hmem, ho, htrue op disk .rolledBack hmem ho⟩
    | _ => cases hnote
  · simp only [List.mem_cons, List.not_mem_nil, or_false] at hvisit
    rcases hvisit with rfl | rfl <;> simp_all [Call.named]
  · obtain ⟨op, outcome, state, es, hop, -⟩ := hun
    cases (Disk.readOperation_observed_iff.mp hop).1

end Service

end KCarrier
