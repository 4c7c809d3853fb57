import KCarrier.Runner.Truth

/-!
# KCarrier.Runner.Converge

Recovery converges, whichever calls came before it and wherever they were cut off.

`Consistent` is the invariant between two calls: recovery has a version to end in, the
service is as the last intent needs it, an open record accounts for that version, and a
settled record says that nothing is outstanding (`Finished`), so that a call which trusts
it may skip recovery.

Three kinds of calls leave a record behind that says otherwise (`Lapsed`): an upgrade
without a record beside the record of an earlier one, a rollback under a settled record
that dies while the service is down, and the promotion of a target that is not its own
trim.  A run without such calls is consistent throughout.
-/

namespace KCarrier

open Crash
open Running

variable {η γ : Type}

/-! ## what recovery has to reach -/

/-- Nothing is outstanding: the journal is at rest, nothing is on trial, and a live process
of the stable version `v` has its work taken up. -/
structure Finished (V : ServiceView η) (entries : List JournalEntry) (v : String)
    (w : World η γ) : Prop where
  rest : ∀ p, lastIntent entries = some p → p.atRest = true
  slots : w.disk.Rests v
  serves : V.serves v w.host
  unparked : V.unparked w.host

/-- What a recovery is to leave. -/
def Converged (V : ServiceView η) (w : World η γ) : Prop :=
  ∃ entries v, w.disk.readJournal = .ok entries ∧ Finished V entries v w

/-- The record, where recovery from `entries` ends in `v`. -/
structure Recorded (V : ServiceView η) (entries : List JournalEntry) (v : String)
    (w : World η γ) : Prop where
  readable : ∀ reason, w.disk.readOperation ≠ .unreadable reason
  covers : ∀ op, w.disk.readOperation = .observed op → op.outcome = none →
    op.Covers (lastIntent entries) v
  settled : ∀ op outcome, w.disk.readOperation = .observed op → op.outcome = some outcome →
    Finished V entries v w ∧ v = Runner.settledVersion op outcome

/-- **The invariant between two calls.** -/
def Consistent (V : ServiceView η) (w : World η γ) : Prop :=
  ∃ entries v, w.disk.readJournal = .ok entries ∧ w.disk.Sound (lastIntent entries) v ∧
    V.Sound (lastIntent entries) v w.host ∧ Recorded V entries v w

section Invariant

variable {V : ServiceView η} {es : List JournalEntry} {v : String} {w w' : World η γ}

/-- What recovery has to reach is about the journal, the slots and the service. -/
theorem Finished.same (h : Finished V es v w) (hslots : w'.disk.slots = w.disk.slots)
    (hhost : w'.host = w.host) : Finished V es v w' :=
  ⟨h.rest, h.slots.congr hslots, by rw [hhost]; exact h.serves, by rw [hhost]; exact h.unparked⟩

/-- What is on record is about the books. -/
theorem Recorded.same (h : Recorded V es v w) (hsame : SameBooks w w') : Recorded V es v w' := by
  have hop : w'.disk.readOperation = w.disk.readOperation :=
    Disk.readOperation_congr hsame.operation
  refine ⟨fun reason => ?_, fun op hread => ?_, fun op outcome hread ho => ?_⟩
  · rw [hop]
    exact h.readable reason
  · rw [hop] at hread
    exact h.covers op hread
  · rw [hop] at hread
    have hs := h.settled op outcome hread ho
    exact ⟨hs.1.same hsame.slots hsame.host, hs.2⟩

/-- So is consistency. -/
theorem consistent_about (V : ServiceView η) : AboutBooks (Consistent V : World η γ → Prop) := by
  rintro w w' hsame ⟨es, v, hj, hs, hv, hr⟩
  refine ⟨es, v, ?_, hs.congr hsame.slots, ?_, hr.same hsame⟩
  · rw [Disk.readJournal_congr hsame.journal]
    exact hj
  · rw [hsame.host]
    exact hv

/-- Where nothing is outstanding there is nothing to recover. -/
theorem Finished.consistent (h : Finished V es v w) (hj : w.disk.readJournal = .ok es)
    (hr : Recorded V es v w) : Consistent V w :=
  ⟨es, v, hj, h.slots.sound _, ServiceView.sound_of_serving h.serves h.unparked, hr⟩

/-- The transaction state can be read, and shows that. -/
theorem Finished.state (h : Finished V es v w) (hj : w.disk.readJournal = .ok es) :
    ∃ state, w.disk.transactionState = .ok state ∧ state.phase = (lastIntent es).getD .idle ∧
      state.phase.atRest = true ∧ state.stable = v := by
  obtain ⟨state, hstate⟩ := transactionState_of_atRest hj h.slots.stable h.rest
  obtain ⟨hstable, hphase⟩ := transactionState_eq hstate hj h.slots.stable
  refine ⟨state, hstate, hphase, ?_, hstable⟩
  rw [hphase]
  cases htail : lastIntent es with
  | none => rfl
  | some p => exact h.rest p htail

/-- Without a record there is nothing it could belie. -/
theorem recorded_of_genesis (h : w.disk.readOperation = .genesis) : Recorded V es v w := by
  refine ⟨fun reason => ?_, fun op hread => ?_, fun op outcome hread => ?_⟩
  · simp [h]
  · simp [h] at hread
  · simp [h] at hread

/-- A new record: open on a version it accounts for, or settled with nothing outstanding. -/
theorem recorded_record {op : Operation} (hvalid : op.validate = .ok ())
    (hcovers : op.outcome = none → op.Covers (lastIntent es) v)
    (hsettled : ∀ outcome, op.outcome = some outcome →
      Finished V es v w ∧ v = Runner.settledVersion op outcome) :
    Recorded V es v (w.record op) := by
  have hread : (w.record op).disk.readOperation = .observed op :=
    Disk.readOperation_observed_iff.mpr ⟨rfl, hvalid⟩
  refine ⟨fun reason => ?_, fun op' hop => ?_, fun op' outcome hop ho => ?_⟩
  · simp [hread]
  · rw [hread, OperationRead.observed.injEq] at hop
    subst hop
    exact hcovers
  · rw [hread, OperationRead.observed.injEq] at hop
    subst hop
    have hs := hsettled outcome ho
    exact ⟨hs.1.same rfl rfl, hs.2⟩

end Invariant

/-! ## the calls that break it -/

/-- The journal as far as it can be read. -/
def Disk.entries (d : Disk) : List JournalEntry :=
  match d.readJournal with
  | .ok entries => entries
  | .error _ => []

/-- The entries of a journal that can be read. -/
theorem Disk.entries_eq {d : Disk} {es : List JournalEntry} (h : d.readJournal = .ok es) :
    d.entries = es := by
  simp [Disk.entries, h]

theorem Disk.entries_congr {d d' : Disk} (h : d'.journal = d.journal) : d'.entries = d.entries := by
  unfold Disk.entries
  rw [Disk.readJournal_congr h]

/-- What the call `c`, which came to `w₀` and left `w`, did beside a record that now says
otherwise. -/
inductive Lapsed (V : ServiceView η) (c : Call) (w₀ w : World η γ) : Prop where
  /-- a transaction that no record stands for was opened beside a record, and not undone -/
  | outdated : c.unrecorded → w₀.disk.readOperation ≠ .genesis →
      opensOf w₀.disk.entries < opensOf w.disk.entries →
      ¬(lastIntent w.disk.entries = some .rolledBack ∧ w.disk.slots .experiment = .absent) →
      Lapsed V c w₀ w
  /-- a rollback under a settled record left the service down -/
  | stranded : (∃ reason, c = .rollback reason) → ¬Runner.Unsettled w₀ → V.stopped w.host →
      Lapsed V c w₀ w
  /-- a target was promoted under another version than its record names -/
  | untrimmed (version : String) : c.named = some version → trim version ≠ version →
      commitsOf w₀.disk.entries < commitsOf w.disk.entries → Lapsed V c w₀ w

/-- Where the call `c` on `w₀` may be cut off. -/
def Left (V : ServiceView η) (c : Call) (w₀ w : World η γ) : Prop :=
  Consistent V w ∨ Lapsed V c w₀ w

/-- A lapse is about the journal, the slots and the service. -/
theorem Lapsed.congr {V : ServiceView η} {c : Call} {w₀ w w' : World η γ}
    (h : Lapsed V c w₀ w) (hjournal : w'.disk.journal = w.disk.journal)
    (hslots : w'.disk.slots = w.disk.slots) (hhost : w'.host = w.host) : Lapsed V c w₀ w' := by
  have hentries := Disk.entries_congr hjournal
  cases h with
  | outdated hc hrecord hopens hnot =>
      refine .outdated hc hrecord (by rwa [hentries]) ?_
      rwa [hentries, hslots]
  | stranded hc hsettled hstopped => exact .stranded hc hsettled (by rwa [hhost])
  | untrimmed version hc htrim hcommits => exact .untrimmed version hc htrim (by rwa [hentries])

theorem left_about (V : ServiceView η) (c : Call) (w₀ : World η γ) :
    AboutBooks (Left V c w₀) := fun w w' hsame h =>
  h.imp (consistent_about V w w' hsame) fun h => h.congr hsame.journal hsame.slots hsame.host

/-- No transaction was opened or committed since `w₀`, and no first record written. -/
structure Unopened (w₀ w : World η γ) : Prop where
  opens : opensOf w.disk.entries = opensOf w₀.disk.entries
  commits : commitsOf w.disk.entries = commitsOf w₀.disk.entries
  genesis : w₀.disk.readOperation = .genesis → w.disk.readOperation = .genesis

theorem unopened_about (w₀ : World η γ) : AboutBooks (Unopened w₀) := by
  intro w w' hsame h
  have hentries := Disk.entries_congr hsame.journal
  refine ⟨by rw [hentries, h.opens], by rw [hentries, h.commits], fun hg => ?_⟩
  rw [Disk.readOperation_congr hsame.operation]
  exact h.genesis hg

/-- A call that starts on `w₀`. -/
structure Starting (V : ServiceView η) (w₀ w : World η γ) : Prop where
  consistent : Consistent V w
  unopened : Unopened w₀ w
  operation : w.disk.operation = w₀.disk.operation

theorem starting_about (V : ServiceView η) (w₀ : World η γ) : AboutBooks (Starting V w₀) :=
  fun w w' hsame h => ⟨consistent_about V w w' hsame h.consistent, unopened_about w₀ w w' hsame h.unopened,
    hsame.operation.trans h.operation⟩

/-! ## recovery -/

namespace Course

variable {V : ServiceView η} {k : Course} {p : Point} {es : List JournalEntry} {w : World η γ}

/-- The version a call ends in, `ended` being the intent that closed its transaction. -/
def ending (k : Course) : Option Phase → String
  | none => k.pending
  | some .promoted => k.after
  | some _ => k.before

/-- A call that came to rest left nothing outstanding. -/
theorem At.finished {ended : Option Phase} (h : k.At V (.rest ended) es w) (hvacant : k.vacant) :
    Finished V es (k.ending ended) w := by
  obtain ⟨⟨htail, -⟩, -, hs, hh⟩ := h
  cases ended with
  | none => exact ⟨htail, hs.1.rests (hs.2.1 hvacant), hh.1, hh.2⟩
  | some phase => cases phase <;> exact ⟨htail, hs.2, hh.1, hh.2⟩

/-- **Repeating a recovery that was finished**: it disturbs nothing, but for the service
between its stop and its start. -/
theorem At.steady {v : String} {steady sealed : Prop} {n m : Nat}
    (h : (recovery v steady sealed n m).At V p es w) (hsteady : steady) :
    Finished V es v w ∨ V.stopped w.host := by
  have hfinished : ∀ {ended}, p = .rest ended → Finished V es v w := by
    rintro ended rfl
    have hv : (recovery v steady sealed n m).ending ended = v := by
      unfold ending
      split <;> rfl
    rw [← hv]
    exact h.finished trivial
  obtain ⟨⟨htail, -, -, -, hrest⟩, -, hs, hh⟩ := h
  have hrest := hrest hsteady
  -- an open transaction is not at rest
  have hopen : ∀ {phase : Phase}, phase.atRest = false → lastIntent es ≠ some phase := by
    intro phase hphase ht
    have := hrest phase ht
    rw [hphase] at this
    cases this
  cases p with
  | entry | opened tail | fenced tail =>
      have hst := hh.2 hsteady
      exact .inl ⟨hrest, hs.1.rests (hs.2.2 hsteady).1, hst.1, hst.2⟩
  | rest ended => exact .inl (hfinished rfl)
  | surveyed stable | probed stable prior =>
      exact .inl ⟨hrest, hs.1.rests (hs.2.1 trivial), hh.1, hh.2⟩
  | staged prior | prepared prior => exact absurd htail (hopen rfl)
  | handing prior | quiesced prior | stopped prior | started prior =>
      exact absurd htail (hopen rfl)
  | running prior | live prior evidence => exact absurd htail (hopen rfl)
  | readback prior evidence | fresh prior evidence | accepted prior evidence =>
      exact absurd htail (hopen rfl)
  | committed => exact .inl ⟨hrest, hs.1.rests (hs.2 hsteady), hh.1, hh.2 hsteady⟩
  | published => exact .inl ⟨hrest, hs, hh.1, hh.2 hsteady⟩
  | rolling =>
      have hst := hh hsteady
      exact .inl ⟨hrest, ⟨hs.1.1, hs.1.2, hs.2.1 hsteady⟩, hst.1, hst.2⟩
  | rollStopped => exact .inr hh.1
  | rollStarted => exact .inl ⟨hrest, ⟨hs.1.1, hs.1.2, hs.2.1 hsteady⟩, hh.1, hh.2 hsteady⟩
  | restored => exact .inl ⟨hrest, ⟨hs.1.1, hs.1.2, hs.2 hsteady⟩, hh.1, hh.2⟩

/-- An upgrade of a finished directory that opened nothing, or took back what it opened. -/
theorem At.undone {v version : String} {n m : Nat}
    (h : (upgrade v v version True n m).At V p es w)
    (hundone : p.early = true ∨
      lastIntent es = some .rolledBack ∧ w.disk.slots .experiment = .absent) :
    Finished V es v w := by
  have hfinished := fun ended (h : (upgrade v v version True n m).At V (.rest ended) es w) =>
    h.finished trivial
  obtain ⟨⟨htail, hcounts⟩, hread, hs, hh⟩ := h
  -- past the early points the last intent is the rolled-back one
  have hback : ∀ {phase : Phase}, p.early = false → lastIntent es = some phase →
      phase = .rolledBack := by
    intro phase hearly ht
    have := (hundone.resolve_left (by simp [hearly])).1
    rw [ht] at this
    exact Option.some.inj this
  have hempty : p.early = false → w.disk.slots .experiment = .absent := fun hearly =>
    (hundone.resolve_left (by simp [hearly])).2
  cases p with
  | entry | opened tail | fenced tail => exact hs.2.1.elim
  | rest ended =>
      cases ended with
      | none => exact hfinished none ⟨⟨htail, hcounts⟩, hread, hs, hh⟩
      | some phase =>
          cases phase with
          | promoted => cases hback rfl hs.1
          | _ => exact hfinished (some _) ⟨⟨htail, hcounts⟩, hread, hs, hh⟩
  | surveyed stable | probed stable prior =>
      exact ⟨htail, hs.1.rests (hs.2.1 trivial), hh.1, hh.2⟩
  | staged prior | prepared prior => cases hback rfl htail
  | handing prior | quiesced prior | stopped prior | started prior => cases hback rfl htail
  | running prior | live prior evidence => cases hback rfl htail
  | readback prior evidence | fresh prior evidence | accepted prior evidence =>
      cases hback rfl htail
  | committed | published => cases hback rfl htail
  | rolling | rollStopped | rollStarted => exact absurd (hempty rfl) (hs.2.2 not_false)
  | restored =>
      refine ⟨fun p hp => ?_, ⟨hs.1.1, hs.1.2, hempty rfl⟩, hh.1, hh.2⟩
      have htail : lastIntent es = some .rolledBack := htail
      rw [htail] at hp
      cases hp
      rfl

end Course

namespace Runner

variable {r : Runner η γ} {c : Convergence (World η γ)} {V : ServiceView η} {w₀ : World η γ}
  {Blame : Prop}

/-- Nothing is outstanding, and the engine goes on at `n`. -/
def Rested (V : ServiceView η) (n : Nat) (w : World η γ) : Prop :=
  ∃ entries v, n = nextSeq entries ∧ w.disk.readJournal = .ok entries ∧
    Finished V entries v w ∧ Recorded V entries v w

/-- A world at rest is consistent. -/
theorem Rested.consistent {n : Nat} {w : World η γ} (h : Rested V n w) : Consistent V w := by
  obtain ⟨es, v, -, hj, hf, hr⟩ := h
  exact hf.consistent hj hr

theorem rested_about (V : ServiceView η) (n : Nat) : AboutBooks (Rested V n : World η γ → Prop) := by
  rintro w w' hsame ⟨es, v, hn, hj, hf, hr⟩
  refine ⟨es, v, hn, ?_, hf.same hsame.slots hsame.host, hr.same hsame⟩
  rw [Disk.readJournal_congr hsame.journal]
  exact hj

/-- Where something is settled there is a record with an outcome. -/
theorem exists_settled {w : World η γ} (h : ¬Unsettled w) :
    ∃ op outcome, w.disk.readOperation = .observed op ∧ op.outcome = some outcome := by
  refine Classical.byContradiction fun hno => h fun op hop => ?_
  cases ho : op.outcome with
  | none => rfl
  | some outcome => exact absurd ⟨op, outcome, hop, ho⟩ hno

/-- Whether anything is settled is about the record. -/
theorem unsettled_congr {w w' : World η γ} (h : w'.disk.operation = w.disk.operation) :
    Unsettled w' ↔ Unsettled w := by
  unfold Unsettled
  rw [Disk.readOperation_congr h]

/-- **The engine's recovery.**  Cut off under a settled record it may leave the service
down; otherwise another recovery ends where it would have ended. -/
theorem recover_rested (hblame : r.store.faults ≠ Faults.clean → Blame)
    (hhost : V.Controlled r.host Blame) (hc : ReadsProduct c) :
    Triple (OnWorld (Starting V w₀)) (r.engine c).recover
      (fun _ s => Rested V s.seq s.world ∧ Unopened w₀ s.world)
      (fun _ s => (Consistent V s.world ∨ ¬Unsettled w₀ ∧ V.stopped s.world.host) ∧ Blame) := by
  refine Triple.of_forall fun s ⟨⟨es, v, hj, hsound, hserved, hrec⟩, hun, hfile⟩ => ?_
  let steady := ¬Unsettled w₀
  have hsteady : steady → Finished V es v s.world := by
    intro hst
    obtain ⟨op, outcome, hop, ho⟩ := exists_settled ((not_congr (unsettled_congr hfile)).mpr hst)
    exact (hrec.settled op outcome hop ho).1
  have hrun := (Course.recoverOutline (V := V) hblame hhost c v steady
    (lastIntent es = some .promoted) (opensOf es) (commitsOf es)).recover_triple
  have hframe := ((aboutRecords_operation s.world.disk.operation).frame (r := r) hc).recover
  -- the record goes on to say what it said
  have hrecord : ∀ (w : World η γ) (es' : List JournalEntry),
      w.disk.operation = s.world.disk.operation →
      (lastIntent es = some .promoted → lastIntent es' = some .promoted) →
      (steady → Finished V es' v w) → Recorded V es' v w := by
    intro w es' ho hsealed hf
    have hread := Disk.readOperation_congr ho
    refine ⟨fun reason => ?_, fun op hop hnone => ?_, fun op outcome hop hout => ?_⟩
    · rw [hread]
      exact hrec.readable reason
    · rw [hread] at hop
      exact (hrec.covers op hop hnone).imp id fun ⟨ht, hv⟩ => ⟨hsealed ht, hv⟩
    · have hst : steady := by
        intro hall
        rw [← unsettled_congr (ho.trans hfile)] at hall
        rw [hall op hop] at hout
        cases hout
      rw [hread] at hop
      exact ⟨hf hst, (hrec.settled op outcome hop hout).2⟩
  have hcounts : ∀ (w : World η γ) (es' : List JournalEntry),
      w.disk.operation = s.world.disk.operation → w.disk.readJournal = .ok es' →
      opensOf es' = opensOf es → commitsOf es' = commitsOf es → Unopened w₀ w := by
    intro w es' ho hj' hopens hcommits
    refine ⟨?_, ?_, fun hg => ?_⟩
    · rw [Disk.entries_eq hj', hopens, ← hun.opens, Disk.entries_eq hj]
    · rw [Disk.entries_eq hj', hcommits, ← hun.commits, Disk.entries_eq hj]
    · rw [Disk.readOperation_congr (ho.trans hfile)]
      exact hg
  refine (hrun.and hframe).conseq (fun s' h => ?_) (fun _ s' h => ?_) fun _ s' h => ?_
  · subst h
    refine ⟨⟨es, fun hne => absurd rfl hne, ⟨trivial, ?_, ?_, id, fun hst => (hsteady hst).rest⟩, hj,
      ⟨hsound, trivial, fun hst => ⟨(hsteady hst).slots.empty, (hsteady hst).rest⟩⟩, hserved,
      fun hst => ⟨(hsteady hst).serves, (hsteady hst).unparked⟩⟩, rfl⟩
    · rw [Course.recovery_opens]
    · rw [Course.recovery_commits]
  · obtain ⟨⟨ended, es', hseq, hat⟩, ho⟩ := h
    obtain ⟨-, hopens, hcommits, hsealed, -⟩ := hat.1
    have hv : (Course.recovery v steady (lastIntent es = some .promoted) (opensOf es)
        (commitsOf es)).ending ended = v := by
      unfold Course.ending
      split <;> rfl
    have hf : Finished V es' v s'.world := by
      rw [← hv]
      exact hat.finished trivial
    rw [Course.recovery_opens] at hopens
    rw [Course.recovery_commits] at hcommits
    exact ⟨⟨es', v, hseq (by simp), hat.2.1, hf, hrecord s'.world es' ho hsealed fun _ => hf⟩,
      hcounts s'.world es' ho hat.2.1 hopens hcommits⟩
  · obtain ⟨⟨⟨p, es', hat⟩, hb⟩, ho⟩ := h
    refine ⟨?_, hb⟩
    obtain ⟨v', hs, hh, hv'⟩ := hat.sound
    have hv : v' = v := hv'.elim id fun h => h.elim id fun h => h.2.2
    subst hv
    by_cases hstopped : steady ∧ V.stopped s'.world.host
    · exact .inr hstopped
    · refine .inl ⟨es', v', hat.2.1, hs, hh, hrecord s'.world es' ho hat.1.2.2.2.1 fun hst => ?_⟩
      exact (hat.steady hst).resolve_right fun h => hstopped ⟨hst, h⟩

/-- **The recovery of a call**, through the engine or past it. -/
theorem recoverEngine_rested (hblame : r.store.faults ≠ Faults.clean → Blame)
    (hhost : V.Controlled r.host Blame) (hc : ReadsProduct c) :
    Triple (OnWorld (Starting V w₀)) (r.recoverEngine c)
      (fun _ s => Rested V s.seq s.world ∧ Unopened w₀ s.world)
      (fun _ => OnWorld fun w => Consistent V w ∧ Blame) := by
  -- a settled record is never at odds with journal and slots
  have hsettled : ∀ (w : World η γ) op outcome, Consistent V w →
      w.disk.readOperation = .observed op → op.outcome = some outcome →
      ∃ es state, w.disk.readJournal = .ok es ∧ Finished V es state.stable w ∧
        Recorded V es state.stable w ∧ w.disk.transactionState = .ok state ∧
        state.phase.atRest = true ∧ state.stable = settledVersion op outcome := by
    rintro w op outcome ⟨es, v, hj, -, -, hrec⟩ hop ho
    obtain ⟨hf, hv⟩ := hrec.settled op outcome hop ho
    obtain ⟨state, hstate, -, hrest, hstable⟩ := hf.state hj
    subst hstable
    exact ⟨es, state, hj, hf, hrec, hstate, hrest, hv⟩
  refine recovering_triple (fun w reason h hop => ?_) (fun w e h hstate hun => ?_)
    (fun w op outcome state h hop ho hstate hbad => ?_)
    (fun w op outcome state es h hop ho hstate _ _ hj => ?_) ?_
  · obtain ⟨es, v, -, -, -, hrec⟩ := h.consistent
    exact absurd hop (hrec.readable reason)
  · obtain ⟨op, outcome, hop, ho⟩ := exists_settled hun
    obtain ⟨es, state, -, -, -, hstate', -⟩ := hsettled w op outcome h.consistent hop ho
    rw [hstate] at hstate'
    cases hstate'
  · obtain ⟨es, state', -, -, -, hstate', hgood⟩ := hsettled w op outcome h.consistent hop ho
    rw [hstate, Except.ok.injEq] at hstate'
    subst hstate'
    exact absurd hgood hbad
  · obtain ⟨es', state', hj', hf, hrec, -⟩ := hsettled w op outcome h.consistent hop ho
    rw [hj, Except.ok.injEq] at hj'
    subst hj'
    exact ⟨⟨es, state'.stable, rfl, hj, hf, hrec⟩, h.unopened⟩
  · refine Triple.of_forall fun s hs => ?_
    refine ((recover_rested hblame hhost hc).pre fun s' h => ?_).conseq (fun _ h => h)
      (fun _ _ h => h) fun _ s' h => ⟨h.1.resolve_right fun hst => hst.1 ?_, h.2⟩
    · rw [h]
      exact hs.1
    · exact (unsettled_congr hs.1.operation).mp hs.2.1

/-- Settled, too. -/
structure Quieted (V : ServiceView η) (w₀ : World η γ) (n : Nat) (w : World η γ) : Prop where
  rested : Rested V n w
  unopened : Unopened w₀ w
  closed : Closed w

theorem quieted_about (V : ServiceView η) (w₀ : World η γ) (n : Nat) :
    AboutBooks (Quieted V w₀ n) := fun w w' hsame h =>
  ⟨rested_about V n w w' hsame h.rested, unopened_about w₀ w w' hsame h.unopened,
    closed_about w w' hsame h.closed⟩

/-- The outcome of an open record, where nothing is outstanding. -/
theorem rested_record {n : Nat} {w : World η γ} {es : List JournalEntry} {v : String}
    {op : Operation} (phase : OperationPhase) (outcome : Outcome) (now : Nat)
    (reason : Option String) (hn : n = nextSeq es) (hj : w.disk.readJournal = .ok es)
    (hf : Finished V es v w) (hvalid : op.validate = .ok ()) (hv : v = settledVersion op outcome) :
    Rested V n (w.record (advance op now phase (some outcome) reason)) := by
  refine ⟨es, v, hn, hj, hf.same rfl rfl, recorded_record hvalid (fun ho => ?_) fun outcome' ho => ?_⟩
  · simp [advance] at ho
  · have ho : outcome' = outcome := by simpa [advance, eq_comm] using ho
    subst ho
    exact ⟨hf, hv⟩

/-- **Settling** gives an open record the outcome that is so. -/
theorem settle_rested (hblame : r.store.faults ≠ Faults.clean → Blame) (n : Nat) :
    Triple (fun w => Rested V n w ∧ Unopened w₀ w) r.settle (fun _ => Quieted V w₀ n)
      (fun _ w => Consistent V w ∧ Blame) := by
  have hP : AboutBooks (fun w => Rested V n w ∧ Unopened w₀ w) := fun w w' hsame h =>
    ⟨rested_about V n w w' hsame h.1, unopened_about w₀ w w' hsame h.2⟩
  have hrecord : ∀ (w : World η γ) (op : Operation) (phase : OperationPhase) (outcome : Outcome)
      (now : Nat) (reason : Option String) (state : TxnState), Rested V n w ∧ Unopened w₀ w →
      w.disk.readOperation = .observed op → op.outcome = none →
      w.disk.transactionState = .ok state →
      (∀ es, w.disk.readJournal = .ok es → state.phase = (lastIntent es).getD .idle →
        op.Covers (lastIntent es) state.stable → state.stable = settledVersion op outcome) →
      Quieted V w₀ n (w.record (advance op now phase (some outcome) reason)) := by
    intro w op phase outcome now reason state ⟨⟨es, v, hn, hj, hf, hrec⟩, hun⟩ hop hnone hstate hv
    obtain ⟨state', hstate', hphase, -, hstable⟩ := hf.state hj
    rw [hstate, Except.ok.injEq] at hstate'
    subst hstate' hstable
    have hvalid := (Disk.readOperation_observed_iff.mp hop).2
    refine ⟨rested_record phase outcome now reason hn hj hf hvalid
      (hv es hj hphase (hrec.covers op hop hnone)), ⟨hun.opens, hun.commits, fun hg => ?_⟩,
      fun op' hop' => ?_⟩
    · have := hun.genesis hg
      rw [hop] at this
      cases this
    · obtain ⟨rfl, -⟩ := observed_record hop'
      simp [advance]
  refine settling_triple hblame hP.offTick (quieted_about V w₀ n).offTick (fun w reason h hop => ?_)
    (fun w e h hstate => ?_) (fun w h hb => ⟨?_, hb⟩) (fun w h hcl => ⟨h.1, h.2, hcl⟩) ?_ ?_ ?_
  · obtain ⟨es, v, -, -, -, hrec⟩ := h.1
    exact absurd hop (hrec.readable reason)
  · obtain ⟨es, v, -, hj, hf, -⟩ := h.1
    obtain ⟨state, hstate', -⟩ := hf.state hj
    rw [hstate] at hstate'
    cases hstate'
  · exact h.elim (fun h => h.1.consistent) fun h => h.rested.consistent
  · intro w op state now h hop hnone hstate _ hstable
    exact hrecord w op _ .promoted now none state h hop hnone hstate fun _ _ _ _ => hstable
  · intro w op state now reason h hop hnone hstate _ hnot
    refine hrecord w op _ .rolledBack now reason state h hop hnone hstate fun es _ hphase hcov => ?_
    rcases hcov with hfrom | ⟨htail, htarget⟩
    · exact hfrom
    · rw [htail] at hphase
      exact absurd ⟨hphase, htarget⟩ hnot
  · intro w state h hstate hbusy
    obtain ⟨es, v, -, hj, hf, -⟩ := h.1
    obtain ⟨state', hstate', -, hrest, -⟩ := hf.state hj
    rw [hstate, Except.ok.injEq] at hstate'
    subst hstate'
    rw [hbusy] at hrest
    cases hrest

/-! ## a drive -/

/-- From the opened record to the engine's upgrade, for the call `call`. -/
def Ready (V : ServiceView η) (call : Call) (w₀ : World η γ) (target : Option String)
    (op : Option Operation) (n : Nat) (w : World η γ) : Prop :=
  match op with
  | none => call.unrecorded ∧ Quieted V w₀ n w
  | some o => Opened target o w ∧ call.named = some o.targetVersion ∧
      commitsOf w.disk.entries = commitsOf w₀.disk.entries ∧
      ∃ entries, n = nextSeq entries ∧ w.disk.readJournal = .ok entries ∧
        Finished V entries o.fromVersion w

/-- After the engine's upgrade came to `outcome`. -/
def Judged (V : ServiceView η) (call : Call) (w₀ : World η γ) (target : Option String)
    (op : Option Operation) (outcome : Outcome) (w : World η γ) : Prop :=
  match op with
  | none => Left V call w₀ w
  | some o => Lapsed V call w₀ w ∨ Opened target o w ∧
      ∃ entries, w.disk.readJournal = .ok entries ∧
        Finished V entries (settledVersion o outcome) w ∧
        o.Covers (lastIntent entries) (settledVersion o outcome)

/-- After the engine's upgrade did not return. -/
def Broken (V : ServiceView η) (call : Call) (w₀ : World η γ) (target : Option String)
    (op : Option Operation) (w : World η γ) : Prop :=
  match op with
  | none => Left V call w₀ w
  | some o => Lapsed V call w₀ w ∨ Opened target o w ∧ Consistent V w

variable {call : Call} {target : Option String} {options : UpgradeOptions}

/-- The record a drive opened, where recovery ends in `v`. -/
theorem Opened.recorded {o : Operation} {es : List JournalEntry} {v : String} {w : World η γ}
    (h : Opened target o w) (hcovers : o.Covers (lastIntent es) v) : Recorded V es v w := by
  refine ⟨fun reason => ?_, fun op hop _ => ?_, fun op outcome hop ho => ?_⟩
  · simp [h.read]
  · rw [h.read, OperationRead.observed.injEq] at hop
    subst hop
    exact hcovers
  · rw [h.read, OperationRead.observed.injEq] at hop
    subst hop
    rw [h.open_] at ho
    cases ho

theorem ready_about (V : ServiceView η) (call : Call) (w₀ : World η γ) (target : Option String)
    (op : Option Operation) (n : Nat) : AboutBooks (Ready V call w₀ target op n) := by
  intro w w' hsame h
  cases op with
  | none => exact ⟨h.1, quieted_about V w₀ n w w' hsame h.2⟩
  | some o =>
      obtain ⟨hopen, hnamed, hcommits, es, hn, hj, hf⟩ := h
      refine ⟨hopen.same hsame.operation, hnamed, ?_, es, hn, ?_, hf.same hsame.slots hsame.host⟩
      · rw [Disk.entries_congr hsame.journal, hcommits]
      · rw [Disk.readJournal_congr hsame.journal]
        exact hj

theorem judged_about (V : ServiceView η) (call : Call) (w₀ : World η γ) (target : Option String)
    (op : Option Operation) (outcome : Outcome) :
    AboutBooks (Judged V call w₀ target op outcome) := by
  intro w w' hsame h
  cases op with
  | none => exact left_about V call w₀ w w' hsame h
  | some o =>
      refine h.imp (fun h => h.congr hsame.journal hsame.slots hsame.host) fun h => ?_
      obtain ⟨hopen, es, hj, hf, hcov⟩ := h
      refine ⟨hopen.same hsame.operation, es, ?_, hf.same hsame.slots hsame.host, hcov⟩
      rw [Disk.readJournal_congr hsame.journal]
      exact hj

theorem broken_about (V : ServiceView η) (call : Call) (w₀ : World η γ) (target : Option String)
    (op : Option Operation) : AboutBooks (Broken V call w₀ target op) := by
  intro w w' hsame h
  cases op with
  | none => exact left_about V call w₀ w w' hsame h
  | some o =>
      exact h.imp (fun h => h.congr hsame.journal hsame.slots hsame.host) fun h =>
        ⟨h.1.same hsame.operation, consistent_about V w w' hsame h.2⟩

/-- A drive that is ready has left a consistent world, or lapsed. -/
theorem Ready.left {op : Option Operation} {n : Nat} {w : World η γ}
    (h : Ready V call w₀ target op n w) : Left V call w₀ w := by
  cases op with
  | none => exact .inl h.2.rested.consistent
  | some o =>
      obtain ⟨hopen, -, -, es, -, hj, hf⟩ := h
      exact .inl (hf.consistent hj (hopen.recorded (.inl rfl)))

/-- So has one with a verdict. -/
theorem Judged.left {op : Option Operation} {outcome : Outcome} {w : World η γ}
    (h : Judged V call w₀ target op outcome w) : Left V call w₀ w := by
  cases op with
  | none => exact h
  | some o =>
      refine h.symm.imp (fun h => ?_) id
      obtain ⟨hopen, es, hj, hf, hcov⟩ := h
      exact hf.consistent hj (hopen.recorded hcov)

/-- So has one that broke off. -/
theorem Broken.left {op : Option Operation} {w : World η γ}
    (h : Broken V call w₀ target op w) : Left V call w₀ w := by
  cases op with
  | none => exact h
  | some o => exact h.symm.imp (fun h => h.2) id

/-- **Recording** the outcome of a drive, or that its engine failed. -/
theorem recording_left {P : World η γ → Prop} (hP : AboutBooks P) (op : Option Operation)
    (phase : OperationPhase) (outcome : Option Outcome) (reason : Option String)
    (hleft : ∀ w, P w → Left V call w₀ w)
    (hrecord : ∀ o w now, op = some o → P w → Lapsed V call w₀ w ∨
      Consistent V (w.record (advance o now phase outcome reason))) :
    Triple P (r.transition op phase outcome reason) (fun _ => Left V call w₀)
      (fun _ => Left V call w₀) := by
  refine (transition_triple (fun _ => trivial : _ → True) hP.offTick
    (fun _ => (left_about V call w₀).offTick) (fun _ _ => .inr trivial) (fun _ w hw => hleft w hw)
    fun o ho w now _ hw => ?_).crash fun w h => h.1.elim (hleft w) fun ⟨_, h⟩ => h
  rcases hrecord o w now ho hw with hlapsed | hconsistent
  · exact .inr (hlapsed.congr rfl rfl rfl)
  · exact .inl hconsistent

/-- An outcome that leaves the stable version as it was. -/
theorem ready_finish (op : Option Operation) (n : Nat) (outcome : Outcome)
    (reason : Option String) (houtcome : outcome ≠ .promoted) :
    Triple (Ready V call w₀ target op n) (r.transition op outcome.phase (some outcome) reason)
      (fun _ => Left V call w₀) (fun _ => Left V call w₀) := by
  refine recording_left (ready_about V call w₀ target op n) op _ _ reason (fun _ h => h.left)
    fun o w now ho h => .inr ?_
  subst ho
  obtain ⟨hopen, -, -, es, -, hj, hf⟩ := h
  refine (rested_record _ outcome now reason rfl hj hf hopen.valid ?_).consistent
  rw [settledVersion, if_neg houtcome]

/-- The outcome of the engine's upgrade. -/
theorem judged_finish (op : Option Operation) (outcome : Outcome) (reason : Option String) :
    Triple (Judged V call w₀ target op outcome)
      (r.transition op outcome.phase (some outcome) reason)
      (fun _ => Left V call w₀) (fun _ => Left V call w₀) := by
  refine recording_left (judged_about V call w₀ target op outcome) op _ _ reason
    (fun _ h => h.left) fun o w now ho h => ?_
  subst ho
  refine h.imp id fun ⟨hopen, es, hj, hf, _⟩ => ?_
  exact (rested_record _ outcome now reason rfl hj hf hopen.valid rfl).consistent

/-- The error of the engine's upgrade leaves the record open. -/
theorem broken_progress (op : Option Operation) (reason : Option String) :
    Triple (Broken V call w₀ target op) (r.transition op .recovering none reason)
      (fun _ => Left V call w₀) (fun _ => Left V call w₀) := by
  refine recording_left (broken_about V call w₀ target op) op _ _ reason (fun _ h => h.left)
    fun o w now ho h => ?_
  subst ho
  refine h.imp id fun ⟨hopen, es, v, hj, hs, hh, hrec⟩ => ?_
  have hopen' := hopen.advance now .recovering reason
  exact ⟨es, v, hj, hs.congr rfl, hh, hopen'.recorded (hrec.covers o hopen.read hopen.open_)⟩

/-- A phase is recorded. -/
theorem ready_progress (op : Option Operation) (n : Nat) (phase : OperationPhase)
    (reason : Option String) :
    Triple (Ready V call w₀ target op n) (r.transition op phase none reason)
      (fun op' => Ready V call w₀ target op' n) (fun _ => Left V call w₀) := by
  refine (transition_triple (fun _ => trivial : _ → True) (ready_about V call w₀ target op n).offTick
    (fun op' => (ready_about V call w₀ target op' n).offTick) (fun _ _ => .inr trivial)
    (fun hnone w hw => hnone ▸ hw) fun o ho w now _ hw => ?_).crash
    fun w h => h.1.elim Ready.left fun ⟨_, h⟩ => h.left
  subst ho
  obtain ⟨hopen, hnamed, hcommits, es, hn, hj, hf⟩ := hw
  exact ⟨hopen.advance now phase reason, hnamed, hcommits, es, hn, hj, hf.same rfl rfl⟩

/-- The record of a drive is opened on the version nothing is outstanding for. -/
theorem openOperation_ready (n : Nat) (hdrives : call.Drives target options) :
    Triple (Quieted V w₀ n) (r.openOperation target options)
      (fun opened => Ready V call w₀ target opened.1 n) (fun _ => Left V call w₀) := by
  refine opening_triple (quieted_about V w₀ n).offTick
    (fun op => (ready_about V call w₀ target op n).offTick) ((quieted_about V w₀ n).offReceipts.retirePrevious r)
    (fun w h => .inl h.rested.consistent) (fun op w h => h.left)
    (fun hnone w h => ⟨hdrives.unrecorded hnone, h⟩) fun desc state now w hdesc h hstate hvalid => ?_
  obtain ⟨es, v, hn, hj, hf, -⟩ := h.rested
  obtain ⟨version, rfl, hnamed⟩ := hdrives.named desc hdesc
  have hv : v = state.stable := (transactionState_eq hstate hj hf.slots.stable).1.symm
  subst hv
  exact ⟨⟨rfl, rfl, hvalid, rfl⟩, hnamed, h.unopened.commits, es, hn, hj, hf.same rfl rfl⟩

section Upgrade

variable {v version : String} {es es' : List JournalEntry} {p : Point} {w w' : World η γ}

/-- The engine's upgrade without a record, wherever it is. -/
theorem left_of_unrecorded {n : Nat} (hcall : call.unrecorded) (h : Quieted V w₀ n w)
    (hj : w.disk.readJournal = .ok es) (hf : Finished V es v w)
    (hat : (Course.upgrade v v version True (opensOf es) (commitsOf es)).At V p es' w')
    (ho : w'.disk.operation = w.disk.operation) : Left V call w₀ w' := by
  have hread := Disk.readOperation_congr ho
  by_cases hundone : p.early = true ∨
      lastIntent es' = some .rolledBack ∧ w'.disk.slots .experiment = .absent
  · -- a settled record is as good as before
    have hf' := hat.undone hundone
    refine .inl (hf'.consistent hat.2.1 ⟨fun reason => ?_, fun op hop hnone => ?_,
      fun op outcome hop hout => ⟨hf', ?_⟩⟩)
    · obtain ⟨es₁, v₁, -, -, -, hrec⟩ := h.rested
      rw [hread]
      exact hrec.readable reason
    · rw [hread] at hop
      exact absurd hnone (h.closed op hop)
    · obtain ⟨es₁, v₁, -, hj₁, hf₁, hrec⟩ := h.rested
      rw [hread] at hop
      have hv : v = v₁ := by
        have hstable := hf.slots.stable
        rw [hf₁.slots.stable] at hstable
        simpa using hstable.symm
      rw [hv]
      exact (hrec.settled op outcome hop hout).2
  · by_cases hgenesis : w₀.disk.readOperation = .genesis
    · obtain ⟨v', hs, hh, -⟩ := hat.sound
      refine .inl ⟨es', v', hat.2.1, hs, hh, recorded_of_genesis ?_⟩
      rw [hread]
      exact h.unopened.genesis hgenesis
    · -- the transaction was opened, and is not undone
      have hopens : opensOf es' = opensOf es + 1 := by
        have hearly : p.early = false := by
          simpa using fun he => hundone (.inl he)
        have := hat.1.2.1
        rw [this, Course.opens, hearly]
        rfl
      refine .inr (.outdated hcall hgenesis ?_ ?_)
      · rw [← h.unopened.opens, Disk.entries_eq hat.2.1, Disk.entries_eq hj, hopens]
        omega
      · rw [Disk.entries_eq hat.2.1]
        exact fun hback => hundone (.inr hback)

/-- The stable slot never holds a version that is not its own trim. -/
theorem lapsed_of_promoting {o : Operation} (hnamed : call.named = some version)
    (htrim : trim version ≠ version) (hcommits : commitsOf es = commitsOf w₀.disk.entries)
    (hat : (Course.upgrade o.fromVersion o.fromVersion version True (opensOf es)
      (commitsOf es)).At V p es' w') (hp : p.promoting = true) : Lapsed V call w₀ w' := by
  refine .untrimmed version hnamed htrim ?_
  have hc : commitsOf es' = commitsOf es + 1 := by
    rw [hat.1.2.2.1, Course.commits, hp]
    rfl
  rw [Disk.entries_eq hat.2.1, hc, hcommits]
  omega

/-- The engine's upgrade under an open record, cut off. -/
theorem broken_of_recorded {o : Operation} (hopen : Opened target o w')
    (hnamed : call.named = some o.targetVersion)
    (hcommits : commitsOf es = commitsOf w₀.disk.entries)
    (hat : (Course.upgrade o.fromVersion o.fromVersion o.targetVersion True (opensOf es)
      (commitsOf es)).At V p es' w') : Broken V call w₀ target (some o) w' := by
  obtain ⟨v', hs, hh, hv⟩ := hat.sound
  have hback : o.Covers (lastIntent es') v' → Broken V call w₀ target (some o) w' := fun hcov =>
    .inr ⟨hopen, es', v', hat.2.1, hs, hh, hopen.recorded hcov⟩
  rcases hv with hv | hv | ⟨hp, hlast, hv⟩
  · exact hback (.inl hv)
  · exact hback (.inl hv)
  · by_cases htrim : trim o.targetVersion = o.targetVersion
    · exact hback (.inr ⟨hlast, hv.trans htrim⟩)
    · exact .inl (lapsed_of_promoting hnamed htrim hcommits hat hp)

/-- It ended as it began. -/
theorem judged_of_finished {o : Operation} {outcome : Outcome} (hopen : Opened target o w')
    (houtcome : outcome ≠ .promoted) (hj : w'.disk.readJournal = .ok es')
    (hf : Finished V es' o.fromVersion w') : Judged V call w₀ target (some o) outcome w' := by
  have hv : settledVersion o outcome = o.fromVersion := by rw [settledVersion, if_neg houtcome]
  refine .inr ⟨hopen, es', hj, ?_, .inl hv⟩
  rw [hv]
  exact hf

/-- It was promoted. -/
theorem judged_of_promoted {o : Operation} (hopen : Opened target o w')
    (hnamed : call.named = some o.targetVersion)
    (hcommits : commitsOf es = commitsOf w₀.disk.entries)
    (hat : (Course.upgrade o.fromVersion o.fromVersion o.targetVersion True (opensOf es)
      (commitsOf es)).At V (.rest (some .promoted)) es' w') :
    Judged V call w₀ target (some o) .promoted w' := by
  by_cases htrim : trim o.targetVersion = o.targetVersion
  · have hf : Finished V es' (trim o.targetVersion) w' := hat.finished trivial
    rw [htrim] at hf
    exact .inr ⟨hopen, es', hat.2.1, hf, .inr ⟨hat.2.2.1.1, rfl⟩⟩
  · exact .inl (lapsed_of_promoting hnamed htrim hcommits hat rfl)

end Upgrade

/-- Where an outcome leaves the engine. -/
def endPoint (version : String) : EngineOutcome → Point
  | .promoted _ => .rest (some .promoted)
  | .rolledBack _ => .rest (some .rolledBack)
  | .upToDate => .surveyed version

/-- From a directory where nothing is outstanding, the engine is on the course of its upgrade
and leaves the record alone. -/
theorem upgrade_course (hhost : V.Controlled r.host True) (hc : ReadsProduct c)
    {s : Running (World η γ)} {es : List JournalEntry} {v : String} (version : String)
    (hn : s.seq = nextSeq es) (hj : s.world.disk.readJournal = .ok es)
    (hf : Finished V es v s.world) :
    Triple (· = s) ((r.engine c).upgrade version incomingPath)
      (fun outcome s' => s'.world.disk.operation = s.world.disk.operation ∧
        ∃ es', (Course.upgrade v v version True (opensOf es) (commitsOf es)).At V
          (endPoint version outcome) es' s'.world)
      (fun _ s' => s'.world.disk.operation = s.world.disk.operation ∧
        ∃ p es', (Course.upgrade v v version True (opensOf es) (commitsOf es)).At V
          p es' s'.world) := by
  have hframe := ((aboutRecords_operation s.world.disk.operation).frame (r := r) hc).upgrade
    version incomingPath
  have hrun := (Course.upgradeOutline (r := r) hhost v v version True (opensOf es)
    (commitsOf es) incomingPath hc fun _ h => h).upgrade_triple
  refine (hrun.and hframe).conseq (fun s' h => ?_) (fun outcome s' h => ⟨h.2, ?_⟩)
    fun _ s' h => ⟨h.2, h.1.1⟩
  · subst h
    refine ⟨⟨es, fun _ => hn, ⟨hf.rest, rfl, rfl, fun h => h.elim, fun h => h.elim⟩, hj,
      ⟨hf.slots.sound _, fun _ => hf.slots.empty, fun v' hv' => ?_⟩, hf.serves, hf.unparked⟩, rfl⟩
    rw [hf.slots.stable] at hv'
    cases hv'
    rfl
  · cases outcome with
    | promoted v' =>
        obtain ⟨-, es', -, hat⟩ := h.1
        exact ⟨es', hat⟩
    | rolledBack reason =>
        obtain ⟨es', -, hat⟩ := h.1
        exact ⟨es', hat⟩
    | upToDate =>
        obtain ⟨es', -, hat⟩ := h.1
        exact ⟨es', hat⟩

/-- **The engine's upgrade** of a drive. -/
theorem upgrade_ready (hhost : V.Controlled r.host True) (hc : ReadsProduct c)
    (op : Option Operation) (release : Release)
    (hrelease : (target.any fun v => release.version != v) = false) :
    Triple (fun s : Running (World η γ) => Ready V call w₀ target op s.seq s.world)
      ((r.engine c).upgrade release.version incomingPath)
      (fun outcome => OnWorld (Judged V call w₀ target op (recordedAs outcome)))
      (fun _ => OnWorld (Broken V call w₀ target op)) := by
  refine Triple.of_forall fun s hs => ?_
  cases op with
  | none =>
      obtain ⟨hcall, hq⟩ := hs
      obtain ⟨es, v, hn, hj, hf, -⟩ := hq.rested
      refine (upgrade_course hhost hc release.version hn hj hf).conseq (fun _ h => h)
        (fun outcome s' h => ?_) fun _ s' h => ?_
      · obtain ⟨ho, es', hat⟩ := h
        exact left_of_unrecorded hcall hq hj hf hat ho
      · obtain ⟨ho, p, es', hat⟩ := h
        exact left_of_unrecorded hcall hq hj hf hat ho
  | some o =>
      obtain ⟨hopen, hnamed, hcommits, es, hn, hj, hf⟩ := hs
      have hversion : release.version = o.targetVersion := by
        rw [hopen.target] at hrelease
        simpa using hrelease
      rw [Disk.entries_eq hj] at hcommits
      rw [hversion]
      refine (upgrade_course hhost hc o.targetVersion hn hj hf).conseq (fun _ h => h)
        (fun outcome s' h => ?_) fun _ s' h => ?_
      · obtain ⟨ho, es', hat⟩ := h
        have hopen' := hopen.same ho
        cases outcome with
        | promoted v' => exact judged_of_promoted hopen' hnamed hcommits hat
        | rolledBack reason =>
            exact judged_of_finished hopen' (by simp [recordedAs]) hat.2.1 (hat.finished trivial)
        | upToDate =>
            exact judged_of_finished hopen' (by simp [recordedAs]) hat.2.1 (hat.undone (.inl rfl))
      · obtain ⟨ho, p, es', hat⟩ := h
        exact broken_of_recorded (hopen.same ho) hnamed hcommits hat

/-- **The outline of a drive.** -/
theorem convergeOutline (hhost : V.Controlled r.host True) (hc : ReadsProduct c)
    (hdrives : call.Drives target options) :
    DriveOutline r c target options (fun _ => True) (Starting V w₀) (Ready V call w₀ target)
      (fun op outcome => Judged V call w₀ target op (recordedAs outcome))
      (fun op _ => Broken V call w₀ target op) (fun _ => Left V call w₀)
      (fun _ => Left V call w₀) where
  outside := .any
  quietActive op n := (ready_about V call w₀ target op n).indifferent
  quietEnded op outcome := (judged_about V call w₀ target op (recordedAs outcome)).indifferent
  quiet _ := (left_about V call w₀).indifferent
  active _ _ _ _ _ h := h.left
  ended _ _ _ _ _ h := h.left
  broken _ _ h := h.left
  closed _ _ _ _ h := h
  start := by
    refine ⟨fun s => Rested V s.seq s.world ∧ Unopened w₀ s.world,
      fun s => Quieted V w₀ s.seq s.world, ?_, ?_, ?_⟩
    · exact (recoverEngine_rested (fun _ => trivial) hhost hc).crash fun s h => .inl h.1
    · exact Triple.zoom fun s hs => (settle_rested (fun _ => trivial : _ → True) s.seq s.world
        hs).mono (fun _ _ h => h) fun _ _ h => .inl h.1
    · exact Triple.zoom fun s hs => openOperation_ready s.seq hdrives s.world hs
  progress op n phase reason := ready_progress op n phase reason
  finish op n outcome reason houtcome := ready_finish op n outcome reason (by
    rcases houtcome with rfl | rfl | rfl <;> simp)
  upgrade op release hrelease := upgrade_ready hhost hc op release hrelease
  abandon op _ reason := broken_progress op reason
  conclude op outcome reason := judged_finish op (recordedAs outcome) reason

/-- **Every call**, wherever it is cut off, leaves recovery a version to end in, or lapses. -/
theorem converge_call (hhost : V.Controlled r.host True) (call : Call) (w₀ : World η γ) :
    CallOutline r call (Starting V w₀) (Left V call w₀) := by
  refine ⟨(left_about V call w₀).indifferent, (starting_about V w₀).offLock,
    (left_about V call w₀).offLock, fun _ h => .inl h.consistent, fun _ => ?_,
    fun target options hdrives => ?_, fun reason hreason => ?_⟩
  · refine recoverLocked_within call.expected (starting_about V w₀).observed
      (fun _ _ h => .inl h.consistent) fun c hc => ?_
    refine Triple.bind ((recoverEngine_rested (fun _ => trivial) hhost hc).crash
      fun s h => .inl h.1) fun _ => ?_
    exact Triple.zoom fun s hs => (settle_rested (fun _ => trivial : _ → True) s.seq s.world
      hs).mono (fun _ _ h => .inl h.rested.consistent) fun _ _ h => .inl h.1
  · refine Triple.pre (P := Starting V w₀) ?_ fun _ h => h.1
    exact driveLocked_within target options (starting_about V w₀).observed
      (fun _ _ h => .inl h.consistent) fun c hc =>
        (convergeOutline hhost hc hdrives).driveEngine_triple
  · refine rollbackLocked_triple (R := fun w => ∃ n, Rested V n w) reason
      (starting_about V w₀).observed (fun _ h => .inl h.consistent) (fun c hc => ?_) ?_
      (left_about V call w₀).indifferent
    · refine (recover_rested (fun _ => trivial : _ → True) hhost hc).conseq (fun _ h => h)
        (fun _ s h => ⟨s.seq, h.1⟩) fun _ s h => h.1.imp id fun hst => ?_
      exact .stranded ⟨reason, hreason⟩ hst.1 hst.2
    · have hclear := FileStore.clear_empty (s := r.store) (I := (Left V call w₀))
        (D := fun d => d.slots .experiment = .absent) fun _ h => h
      refine hclear.conseq (fun w ⟨n, h⟩ => ?_) (fun _ _ h => h.2) fun _ _ h => h.elim
      obtain ⟨es, v, -, -, hf, -⟩ := id h
      exact ⟨hf.slots.empty, .inl h.consistent⟩

/-! ## a recovery without faults -/

/-- What `Convergence::new` and `Engine::new` ask of a runner. -/
structure Configured (r : Runner η γ) : Prop where
  surfaces : Convergence.checkSurfaces [] r.surfaces = .ok ()
  budget : Engine.checkBudget r.hostBudgetMs = .ok ()

/-- A predicate that is configured is made. -/
theorem convergence_configured (h : r.Configured) {P : World η γ → Prop}
    (hP : ∀ w o, P w → P { w with observed := o }) :
    Triple P r.convergence (fun c w => ReadsProduct c ∧ P w) (fun _ _ => False) := by
  have hids := Convergence.checkSurfaces_map (f := fun s =>
    ({ id := s.id, read := product s.read } : ReadbackSurface (World η γ))) (fun _ => rfl) []
    r.surfaces
  have hnew : Triple P r.convergence (fun _ _ => True) (fun _ _ => False) := by
    unfold convergence
    refine Triple.bind (R := fun _ _ => True) (Triple.ofExcept (fun _ _ _ _ => trivial)
      fun e w he _ => ?_) fun c => Triple.bind (R := fun _ _ => True)
        (Triple.modify fun _ _ => trivial) fun _ => Triple.pure fun _ _ => trivial
    unfold Convergence.new at he
    rw [hids, h.surfaces] at he
    cases he
  exact ((convergence_triple hP).and hnew).conseq (fun _ h => ⟨h, h⟩) (fun _ _ h => h.1)
    fun _ _ h => h.2

/-- **A recovery without faults** returns, and leaves nothing outstanding. -/
theorem recoverLocked_converges (hclean : r.store.faults = Faults.clean)
    (hhost : V.Controlled r.host False) (h : r.Configured) :
    Triple (Consistent V) (r.recoverLocked none) (fun _ => Converged V) (fun _ _ => False) := by
  have hblame : r.store.faults ≠ Faults.clean → False := fun hne => hne hclean
  have hread : Triple (Consistent V : World η γ → Prop) readRequired (fun _ => Consistent V)
      (fun _ _ => False) := by
    refine (readRecord_triple (G := fun _ => False) fun w reason hw hop => ?_).post
      fun _ w h => h.1
    obtain ⟨es, v, -, -, -, hrec⟩ := hw
    exact hrec.readable reason hop
  have hbudget : Triple (Consistent V : World η γ → Prop)
      (Prog.ofExcept (Engine.checkBudget r.hostBudgetMs)) (fun _ => Consistent V)
      (fun _ _ => False) :=
    Triple.ofExcept (fun _ _ _ hw => hw) fun e w he _ => by
      rw [h.budget] at he
      cases he
  have hengine : ∀ c, ReadsProduct c → Triple (OnWorld (Consistent V : World η γ → Prop)) (do
      r.recoverEngine c
      lift r.settle) (fun _ => OnWorld (Converged V)) (fun _ _ => False) := by
    intro c hc
    refine Triple.of_forall fun s hs => ?_
    have hrecover : Triple (· = s) (r.recoverEngine c)
        (fun _ s' => Rested V s'.seq s'.world ∧ Unopened s.world s'.world) (fun _ _ => False) := by
      refine ((recoverEngine_rested hblame hhost hc).pre fun s' h => ?_).crash
        fun s' h => h.2
      rw [h]
      exact ⟨hs, ⟨rfl, rfl, id⟩, rfl⟩
    refine Triple.bind hrecover fun _ => ?_
    refine Triple.zoom fun s' hs' => (settle_rested hblame s'.seq s'.world hs').mono
      (fun _ w h => ?_) fun _ w h => h.2
    obtain ⟨es, v, -, hj, hf, -⟩ := h.rested
    exact ⟨es, v, hj, hf⟩
  unfold recoverLocked
  refine Triple.bind hread fun _ => ?_
  refine Triple.bind (convergence_configured h (consistent_about V).observed) fun c => ?_
  refine Triple.assume fun hc => Triple.bind hbudget fun _ => ?_
  exact withEngine_triple (hengine c hc)

end Runner

/-! ## runs -/

/-- The visit lapses on the world it comes to. -/
def Visit.Lapses (V : ServiceView η) (visit : Visit η γ) (w : World η γ) : Prop :=
  Lapsed V visit.call w (visit.run w)

/-- **One visit** leaves a consistent world, unless it lapses. -/
theorem Visit.consistent {V : ServiceView η} {visit : Visit η γ} {w : World η γ}
    (hhost : V.Controlled visit.runner.host True) (h : Consistent V w)
    (hno : ¬visit.Lapses V w) : Consistent V (visit.run w) := by
  have hstart : Starting V w (visit.finds w) :=
    starting_about V w w _ ⟨rfl, rfl, rfl, rfl, fun _ _ h => h⟩ ⟨h, ⟨rfl, rfl, id⟩, rfl⟩
  exact (Visit.run_of_triple (Runner.converge_call hhost visit.call w).call_triple
    hstart).resolve_right hno

/-- A directory that was bootstrapped is consistent. -/
theorem World.Bootstrapped.consistent {V : ServiceView η} {w : World η γ} {v : String}
    (h : w.Bootstrapped v) (hserves : V.serves v w.host) (hunparked : V.unparked w.host) :
    Consistent V w := by
  refine ⟨[], v, ?_, h.slots.sound _, ⟨hserves, hunparked⟩, recorded_of_genesis ?_⟩
  · simp only [Disk.readJournal, h.journal]
  · simp only [Disk.readOperation, readOperationFile, h.operation]

/-- **Recovery convergence over every entry point.**  After any run of calls on a bootstrapped
directory whose service runs, each cut off anywhere and none lapsing, a recovery without
faults returns and leaves nothing outstanding; and a settled record is found only where
nothing was outstanding before, with the version it stands for in the stable slot. -/
theorem runs_converge (V : ServiceView η) (w : World η γ) (v : String) (hw : w.Bootstrapped v)
    (hserves : V.serves v w.host) (hunparked : V.unparked w.host) (visits : List (Visit η γ))
    (hhosts : ∀ visit ∈ visits, V.Controlled visit.runner.host True)
    (hmeets : EachVisit (fun visit w => ¬visit.Lapses V w) visits w) (r : Runner η γ)
    (hclean : r.store.faults = Faults.clean) (hhost : V.Controlled r.host False)
    (hconfigured : r.Configured) (product : γ) :
    let found := { runVisits visits w with lock := .free, product := product }
    ((r.recover none found).1 = .ok () ∧ Converged V (r.recover none found).2) ∧
      ∀ op outcome, found.disk.readOperation = .observed op → op.outcome = some outcome →
        Converged V found ∧
          found.disk.version .stable = .ok (some (Runner.settledVersion op outcome)) := by
  intro found
  have hrun : Consistent V (runVisits visits w) := by
    refine run_invariant (M := fun visit w => V.Controlled visit.runner.host True ∧
      ¬visit.Lapses V w) (fun visit w h hm => Visit.consistent hm.1 h hm.2) visits w
      (hw.consistent hserves hunparked) (eachVisit_and hhosts hmeets)
  have hfound : Consistent V found :=
    consistent_about V (runVisits visits w) found ⟨rfl, rfl, rfl, rfl, fun _ _ h => h⟩ hrun
  have hconverged : AboutBooks (Converged V : World η γ → Prop) := by
    rintro w w' hsame ⟨es, v, hj, hf⟩
    refine ⟨es, v, ?_, hf.same hsame.slots hsame.host⟩
    rw [Disk.readJournal_congr hsame.journal]
    exact hj
  refine ⟨?_, fun op outcome hop ho => ?_⟩
  · have hrecover := Runner.locked_clean_triple hclean (consistent_about V).offLock
      (fun _ => hconverged.offLock) (Runner.recoverLocked_converges hclean hhost hconfigured)
    obtain ⟨u, w', hr, hc⟩ := hrecover.run_of_not_fault ⟨rfl, hfound⟩
    have hr : r.recover none found = (.ok u, w') := hr
    rw [hr]
    exact ⟨rfl, hc⟩
  · obtain ⟨es, v, hj, -, -, hrec⟩ := hfound
    obtain ⟨hf, hv⟩ := hrec.settled op outcome hop ho
    subst hv
    exact ⟨⟨es, _, hj, hf⟩, hf.slots.stable⟩

namespace Service

/-- What is seen of the service. -/
def view : ServiceView Service where
  serves version s := s.Runs version
  stopped s := s.running = none
  unparked s := s.parked = false

/-- The product's host controls its service. -/
theorem controlled (Blame : Prop) : view.Controlled host Blame where
  fence _ _ := ⟨fun h => (by cases h), fun _ h => h, id⟩
  stop _ _ _ := ⟨fun h => (by cases h), rfl, id⟩
  start d slot version s hversion hstopped := by
    have hrun : (host d).start slot s = (.ok (some ()), s.launch version) := by
      have hstopped : s.running = none := hstopped
      simp [host, start, hstopped, hversion]
    rw [hrun]
    exact ⟨fun h => (by cases h), ⟨_, rfl, rfl⟩, id⟩
  probe d s := by
    have hsame : ((host d).probe s).2 = s := by
      show (probe s).2 = s
      unfold probe
      split <;> rfl
    rw [hsame]
    exact ⟨fun _ h => h, id⟩
  resume _ _ := ⟨fun h => (by cases h), rfl, fun _ h => h⟩

/-- The runner of the service is configured. -/
theorem configured (self : Nat) (faults : Faults) : (runner self faults).Configured :=
  ⟨rfl, rfl⟩

/-- The recovery of a worker without faults after a run of the product. -/
def recovered (visits : List (Visit Service Unit)) : Res Error Unit × World Service Unit :=
  (runner 10 Faults.clean).recover none
    { runVisits visits (installed "1") with lock := .free, product := () }

/-- An upgrade with a record, then one without; both return. -/
def outdatedRecord : List (Visit Service Unit) :=
  [⟨runner 7 Faults.clean, .free, (), .execute (.upgrade 1 "a" "2" true)⟩,
    ⟨runner 8 Faults.clean, .free, (), .upgradeTo "3" .none⟩]

/-- An upgrade that dies and is recovered, then a rollback that dies once the service is
stopped. -/
def strandedService : List (Visit Service Unit) :=
  [⟨runner 7 (diesAt 45), .free, (), .execute (.upgrade 1 "a" "2" true)⟩,
    ⟨runner 8 Faults.clean, .free, (), .recover none⟩,
    ⟨runner 9 (diesAt 70), .free, (), .rollback "manual"⟩]

/-- After the one recovery is refused, after the other it returns and nothing runs. -/
theorem converge_belied : (installed "1").Bootstrapped "1" ∧
    view.serves "1" (installed "1").host ∧ view.unparked (installed "1").host ∧
    (∀ visit ∈ outdatedRecord ++ strandedService, visit.runner.host = host) ∧
    (recovered outdatedRecord).1 = .err (.invalid "SETTLED_OPERATION_STATE_MISMATCH") ∧
    (recovered strandedService).1 = .ok () ∧
    ¬Converged view (recovered strandedService).2 := by
  have hversion : "1" ≠ "" ∧ trim "1" = "1" := by decide +kernel
  refine ⟨installed_bootstrapped hversion.1 hversion.2, ⟨_, rfl, rfl⟩, rfl, fun visit hvisit => ?_,
    by decide +kernel, by decide +kernel, fun hconverged => ?_⟩
  · simp only [outdatedRecord, strandedService, List.cons_append, List.nil_append, List.mem_cons,
      List.not_mem_nil, or_false] at hvisit
    rcases hvisit with rfl | rfl | rfl | rfl | rfl <;> rfl
  · obtain ⟨entries, v, -, hf⟩ := hconverged
    obtain ⟨e, hrunning, -⟩ := hf.serves
    have hnone : (recovered strandedService).2.host.running = none := by decide +kernel
    rw [hnone] at hrunning
    cases hrunning

/-- An upgrade without a record that dies, one with a record that dies, and a rollback. -/
def mixedCalls : List (Visit Service Unit) :=
  [⟨runner 7 (diesAt 45), .free, (), .upgradeTo "2" .none⟩,
    ⟨runner 8 (diesAt 60), .free, (), .execute (.upgrade 1 "a" "3" true)⟩,
    ⟨runner 9 Faults.clean, .free, (), .rollback "manual"⟩]

/-- A run of an upgrade, a recovery and a rollback, each cut off, and a recovery. -/
theorem runs_converge_mixed : (recovered mixedCalls).1 = .ok () ∧
    Converged view (recovered mixedCalls).2 := by
  have hversion : "1" ≠ "" ∧ trim "1" = "1" := by decide +kernel
  have htrim : trim "3" = "3" := by decide +kernel
  have hrunning : (runVisits mixedCalls (installed "1")).host.running ≠ none := by decide +kernel
  have hboot := installed_bootstrapped hversion.1 hversion.2
  refine (runs_converge view (installed "1") "1" hboot ⟨_, rfl, rfl⟩ rfl mixedCalls
    (fun visit hvisit => ?_) ⟨fun h => ?_, fun h => ?_, fun h => ?_, trivial⟩
    (runner 10 Faults.clean) rfl (controlled False) (configured 10 Faults.clean) ()).1
  · simp only [mixedCalls, List.mem_cons, List.not_mem_nil, or_false] at hvisit
    rcases hvisit with rfl | rfl | rfl <;> exact controlled True
  · cases h with
    | outdated _ hrecord => exact hrecord rfl
    | stranded hrollback => obtain ⟨reason, hr⟩ := hrollback; cases hr
    | untrimmed version hnamed => cases hnamed
  · cases h with
    | outdated hcall => exact hcall
    | stranded hrollback => obtain ⟨reason, hr⟩ := hrollback; cases hr
    | untrimmed version hnamed hne => cases hnamed; exact hne htrim
  · cases h with
    | outdated hcall => exact hcall
    | stranded _ _ hstopped => exact hrunning hstopped
    | untrimmed version hnamed => cases hnamed

end Service

end KCarrier
