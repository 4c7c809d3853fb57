import KCarrier.Runner.Audit
import KCarrier.Runner.Journaled
import KCarrier.Runner.Service

/-!
# KCarrier.Runner.Completed

A completed transaction and the service.

Once a call came back from a completed rollback or promotion, later calls leave the service
alone until a new transaction is staged: whatever is quiesced, stopped or started is so on a
journal with another staged intent (`Late`).  Recovery does not keep to that by itself: it
replays a journal that ends in a rollback whether that was carried out or not.  Only a
settled record holds it back, so a call that gets to recovery without one does what was done
already (`Runner.Replays`).
-/

namespace KCarrier

open Crash
open Running

variable {η γ : Type}

/-- A call that parks, stops or starts the service was issued with more than `n`
transactions opened. -/
def Late (n : Nat) (event : HostEvent) : Prop :=
  event.call ∈ ["quiesce", "stop", "start"] → Journaled (fun es => n < opensOf es) event.disk

/-- Every call of the host so far was late. -/
def AllLate (n : Nat) (w : World (Audited η) γ) : Prop := ∀ event ∈ w.host.events, Late n event

/-- A transaction was opened after the first `n`, or those are over. -/
def Resting (n : Nat) (es : List JournalEntry) : Prop :=
  n < opensOf es ∨ opensOf es = n ∧ AtRest es

/-- Recovery has no rollback of the first `n` transactions to repeat. -/
def Quits (n : Nat) (es : List JournalEntry) : Prop :=
  n < opensOf es ∨ opensOf es = n ∧ AtRest es ∧ lastIntent es ≠ some .rolledBack

/-- The journal at each point of the engine. -/
def laterAt (n : Nat) : Point → List JournalEntry → Prop
  | .entry, es => Quits n es
  | .opened tail, es | .fenced tail, es => Quits n es ∧ lastIntent es = tail
  | .rest _, es | .surveyed _, es | .probed _ _, es | .committed, es | .published, es => Resting n es
  | _, es => n < opensOf es

theorem opensOf_le_concat (es : List JournalEntry) (e : JournalEntry) :
    opensOf es ≤ opensOf (es ++ [e]) := by
  rw [opensOf_concat]
  omega

theorem Quits.resting {n : Nat} {es : List JournalEntry} (h : Quits n es) : Resting n es :=
  h.imp id fun h => ⟨h.1, h.2.1⟩

/-- A journal that ends in an open transaction has one more of them. -/
theorem Quits.opened {n : Nat} {es : List JournalEntry} {tail : Phase} (h : Quits n es)
    (htail : lastIntent es = some tail) (hopen : tail.atRest = false ∨ tail = .rolledBack) :
    n < opensOf es := by
  rcases h with h | ⟨-, hrest, hne⟩
  · exact h
  · rcases hopen with hopen | hopen
    · rw [hrest tail htail] at hopen
      cases hopen
    · rw [htail, hopen] at hne
      exact absurd rfl hne

/-! ## the engine -/

theorem laterAt_quiet {n : Nat} {version : String} {p q : Point} {es : List JournalEntry}
    (hquiet : Point.Quiet version p q) (h : laterAt n p es) : laterAt n q es := by
  cases hquiet with
  | empty | idle => exact h.1.resting
  | commit => exact h.1.resting
  | redo => exact h.1.opened h.2 (.inr rfl)
  | clear => exact .inl h
  | accept | refuse | replaced | probeLive | startExperiment | stopStable | quiesce | stage => exact h
  | probe | survey | resume | start | stop | settle | promote | fence => exact h

theorem laterAt_writes {n : Nat} {version : String} {p q : Point} {intent : Phase} {detail : Detail}
    {es : List JournalEntry} (seq now : Nat) (hwrites : Point.Writes version p intent detail q)
    (h : laterAt n p es) : laterAt n q (es ++ [Engine.entryOf seq now intent detail]) := by
  have hmore : n < opensOf es → ∀ e, n < opensOf (es ++ [e]) := fun h e =>
    Nat.lt_of_lt_of_le h (opensOf_le_concat es e)
  cases hwrites with
  | staged stable prior =>
      have hresting : Resting n es := h
      show n < opensOf (es ++ [_])
      rw [opensOf_concat]
      rcases hresting with h | ⟨h, -⟩
      · simp [Engine.entryOf]
        omega
      · simp [Engine.entryOf, h]
  | withdraw reason => exact hmore (h.1.opened h.2 (.inl rfl)) _
  | abandon tail reason htail =>
      refine hmore (h.1.opened h.2 (.inl ?_)) _
      rcases htail with rfl | rfl | rfl <;> rfl
  | promoted => exact .inl (hmore h _)
  | handingOver | running | readback | silent | refused => exact hmore h _

/-- The engine parks, stops and starts the service in an open transaction only. -/
theorem laterAt_open {n : Nat} {p : Point} {name : String} {es : List JournalEntry}
    (hissues : p.issues = some name) (hname : name ∈ ["quiesce", "stop", "start"])
    (h : laterAt n p es) : n < opensOf es := by
  cases p with
  | handing | quiesced | stopped | rolling | rollStopped => exact h
  | opened | surveyed | running | published | rollStarted =>
      simp only [Point.issues, Option.some.injEq] at hissues
      rw [← hissues] at hname
      simp at hname
  | _ => cases hissues

theorem allLate_aside (n : Nat) : Aside (AllLate n : World (Audited η) γ → Prop) := fun _ _ _ h => h

/-- Another call is late when its name or its journal says so. -/
theorem AllLate.event {n : Nat} {w : World (Audited η) γ} (h : AllLate n w) {event : HostEvent}
    (hevent : Late n event) (state : η) :
    AllLate n { w with host := ⟨state, w.host.events ++ [event]⟩ } := by
  intro event' he
  rcases List.mem_append.mp he with he | he
  · exact h event' he
  · rw [List.mem_singleton.mp he]
    exact hevent

/-- **The engine leaves the service alone** until it opens another transaction. -/
theorem laterJournaling (r : Runner η γ) (n : Nat) (version : String) :
    Journaling r.audited version (fun _ => True) (laterAt n) (AllLate n) := by
  have hquiet : ∀ p, Indifferent (Over (Journaled (laterAt n p)) (AllLate n) :
      World (Audited η) γ → Prop) := fun p =>
    ⟨fun _ _ h => h, fun _ _ _ h => h, fun _ _ h => h, fun _ _ h => h,
      fun _ _ hj _ _ _ h => ⟨h.1.congr hj, h.2⟩⟩
  have hcall : ∀ {p name}, p.issues = some name → ∀ {β : Type}
      {audited : Host (Audited η) → HostCall (Audited η) β} (call : Host η → HostCall η β),
      (∀ host disk, audited (Host.audited host disk) = (call host).audited name disk) →
      Keeps (Over (Journaled (laterAt n p)) (AllLate n)) (r.audited.hostCall name audited) := by
    intro p name hissues β audited call hcall
    refine r.hostCall_audited_keeps (hquiet p) hcall fun w state uncertain h => ⟨h.1, ?_⟩
    exact h.2.event (fun hname => h.1.imp fun _ => laterAt_open hissues hname) state
  exact {
    aside := allLate_aside n
    product := fun _ _ h => h
    observed := fun _ _ h => h
    fence := fun _ hp => hcall hp (fun host => host.fence) fun _ _ => rfl
    quiesce := fun _ hp => hcall hp (fun host => host.quiesce) fun _ _ => rfl
    stop := fun _ slot hp => hcall hp (fun host => host.stop slot) fun _ _ => rfl
    start := fun _ slot hp => hcall hp (fun host => host.start slot) fun _ _ => rfl
    probe := fun _ hp => hcall hp (fun host => host.probe) fun _ _ => rfl
    resume := fun _ hp => hcall hp (fun host => host.resume) fun _ _ => rfl
    opened := fun es h => ⟨h, rfl⟩
    quiet := fun _ _ _ hquiet h => laterAt_quiet hquiet h
    writes := fun _ _ _ _ _ seq now _ hwrites h => laterAt_writes seq now hwrites h }

/-! ## a call -/

/-- Every transaction opened since the first `n` were over, and the service was left alone
before. -/
def Calm (n : Nat) : World (Audited η) γ → Prop := Over (Journaled (Resting n)) (AllLate n)

theorem laterAt_resting {n : Nat} {p : Point} {es : List JournalEntry} (h : laterAt n p es) :
    Resting n es := by
  cases p with
  | entry => exact Quits.resting h
  | opened | fenced => exact h.1.resting
  | rest | surveyed | probed | committed | published => exact h
  | _ => exact .inl h

theorem calm_of_within {n : Nat} {w : World (Audited η) γ}
    (h : Journaling.Within (laterAt n) (AllLate n) w) : Calm n w :=
  ⟨h.1.imp fun _ ⟨_, hes⟩ => laterAt_resting hes, h.2⟩

theorem calm_offRecords (n : Nat) : OffRecords (Calm n : World (Audited η) γ → Prop) where
  quiet := ⟨fun _ _ h => h, fun _ _ _ h => h, fun _ _ h => h, fun _ _ h => h,
    fun _ _ hj _ _ _ h => ⟨h.1.congr hj, h.2⟩⟩
  receipts := ⟨fun _ _ h => h, fun _ _ _ _ h => h⟩
  record _ _ h := h

theorem recover_calm (r : Runner η γ) (n : Nat) (c : Convergence (World (Audited η) γ)) :
    Triple (OnWorld (Over (Journaled (Quits n)) (AllLate n))) (r.audited.engine c).recover
      (fun _ => OnWorld (Calm n)) (fun _ => OnWorld (Calm n)) :=
  ((laterJournaling r n "").recoverOutline trivial).recover_triple.conseq (fun _ h => h)
    (fun _ _ ⟨_, h⟩ => h) fun _ _ h => calm_of_within h

theorem upgrade_calm (r : Runner η γ) (n : Nat) {c : Convergence (World (Audited η) γ)}
    (hc : Runner.ReadsProduct c) (version : String) (bytes : Path) :
    Keeps (OnWorld (Calm n)) ((r.audited.engine c).upgrade version bytes) := by
  refine ((laterJournaling r n version).upgradeOutline (fun _ => trivial) hc bytes).upgrade_triple.conseq
    (fun _ h => h) (fun outcome s h => ?_) fun _ _ h => calm_of_within h
  cases outcome with
  | promoted v => exact h.2
  | rolledBack reason => exact h
  | upToDate => exact h

namespace Runner

/-- The journal ends in a rollback, and no transaction was opened after the first `n`. -/
def RolledBackAt (n : Nat) (es : List JournalEntry) : Prop :=
  opensOf es = n ∧ lastIntent es = some .rolledBack

theorem quits_of_not {n : Nat} {es : List JournalEntry} (h : Resting n es)
    (hnot : ¬RolledBackAt n es) : Quits n es :=
  h.imp id fun ⟨hn, hrest⟩ => ⟨hn, hrest, fun htail => hnot ⟨hn, htail⟩⟩

/-- The start of a call that does not repeat a rollback. -/
def Spares (r : Runner (Audited η) γ) (c : Call) (n : Nat) (w : World (Audited η) γ) : Prop :=
  Calm n w ∧ (Journaled (RolledBackAt n) w.disk → ¬r.GetsToRecovery c w)

/-- The recovery of a call, where it is not skipped, has nothing to repeat. -/
def MayRecover (n : Nat) (w : World (Audited η) γ) : Prop :=
  Calm n w ∧ (Unsettled w → Readable w → Journaled (Quits n) w.disk)

theorem Spares.quits {r : Runner (Audited η) γ} {c : Call} {n : Nat} {w : World (Audited η) γ}
    (h : r.Spares c n w) (hgets : r.GetsToRecovery c w) : Journaled (Quits n) w.disk := by
  obtain ⟨es, hread, hes⟩ := h.1.1
  exact ⟨es, hread, quits_of_not hes fun hback => h.2 ⟨es, hread, hback⟩ hgets⟩

theorem mayRecover_about (n : Nat) : AboutBooks (MayRecover n : World (Audited η) γ → Prop) := by
  rintro w w' hsame ⟨⟨hj, hlate⟩, hquits⟩
  have hop := Disk.readOperation_congr hsame.operation
  refine ⟨⟨hj.congr hsame.journal, fun event he => hlate event (by rwa [← hsame.host])⟩, ?_⟩
  intro hun hread
  refine (hquits (fun op h => hun op (hop.trans h)) fun reason h => hread reason (hop.trans h)).congr
    hsame.journal

/-- **The recovery of a call** leaves the service alone. -/
theorem recoverEngine_calm (r : Runner η γ) (n : Nat) (c : Convergence (World (Audited η) γ)) :
    Triple (OnWorld (MayRecover n)) (r.audited.recoverEngine c) (fun _ => OnWorld (Calm n))
      (fun _ => OnWorld (Calm n)) :=
  recoverEngine_of_recover (fun _ h => h.1)
    ((recover_calm r n c).pre fun _ h => ⟨h.1.2 h.2.1 h.2.2, h.1.1.2⟩)

/-- **A call that does not repeat a rollback** leaves the service alone until it opens a
transaction. -/
theorem calmOutline (r : Runner η γ) (c : Call) (n : Nat) :
    CallOutline r.audited c (r.audited.Spares c n) (Calm n) where
  quiet := (calm_offRecords n).quiet
  startOff _ _ _ h := h
  off _ _ _ h := h
  safe _ h := h.1
  recover hrecovers :=
    recoverLocked_letThrough c.expected (fun _ h => h.1)
      (fun _ h hthrough => ⟨h.1, fun hun hread =>
        h.quits (getsToRecovery_of_recovers hrecovers hun hread hthrough)⟩)
      (mayRecover_about n).observed (fun _ h => h.1) fun _ _ =>
        Triple.bind (recoverEngine_calm r n _) fun _ => Keeps.lift (calm_offRecords n).settle
  drive target options hdrives :=
    driveLocked_letThrough target options (fun _ h => h.1.1)
      (fun _ h hthrough => ⟨h.1.1, fun hun hread =>
        h.1.quits (getsToRecovery_of_drives hdrives h.2 hun hread hthrough)⟩)
      (mayRecover_about n).observed (fun _ h => h.1) fun _ hc =>
        ((calm_offRecords n).driveOutline (recoverEngine_calm r n _)
          (upgrade_calm r n hc)).driveEngine_triple
  rollback reason hreason := by
    subst hreason
    refine rollbackLocked_kind_triple (E := Over (Journaled (Quits n)) (AllLate n)) (R := Calm n) reason
      (fun _ _ h _ => h.1) (fun _ h => h.1) (fun w es h hread hgo => ⟨?_, h.1.2⟩)
      (fun _ _ h => h) (fun _ _ h => ⟨h.1.imp fun _ => Quits.resting, h.2⟩)
      (fun c _ => recover_calm r n c) ?_ fun _ _ => (calm_offRecords n).quiet.asked _
    · rcases hgo with hbusy | hmanaged
      · obtain ⟨es', hread', hes⟩ := h.1.1
        rw [hread, Except.ok.injEq] at hread'
        subst hread'
        refine ⟨es, hread, quits_of_not hes fun hback => ?_⟩
        rw [hback.2] at hbusy
        cases hbusy
      · exact h.quits hmanaged
    · exact FileStore.removeDir_keeps (allLate_aside n) (journaled_offSlots _) .experiment

end Runner

/-! ## runs -/

namespace Visit

/-- The visit repeats the rollback its journal ends in. -/
def Replays (v : Visit η γ) (w : World η γ) : Prop :=
  v.lock = .free ∧ v.call.Valid ∧ v.runner.GetsToRecovery v.call (v.finds w) ∧
    Journaled (fun es => lastIntent es = some .rolledBack) w.disk

/-- The visit had the lock and returned Ok. -/
def Returned (v : Visit η γ) (w : World η γ) : Prop :=
  match v.call with
  | .recover expected => (v.runner.recover expected (v.finds w)).1 = .ok ()
  | .rollback reason => ∃ reason' report,
      (v.runner.rollback reason (v.finds w)).1 = .ok (.rolledBack reason' report)
  | .upgrade => v.runner.hooks.managedElsewhere v.product = false ∧
      ∃ outcome, (v.runner.upgrade (v.finds w)).1 = .ok outcome
  | .upgradeTo version options => v.runner.hooks.managedElsewhere v.product = false ∧
      ∃ outcome, (v.runner.upgradeTo version options (v.finds w)).1 = .ok outcome
  | .execute request => request.isStatus = false ∧
      (request.isUpgrade = true → v.runner.hooks.managedElsewhere v.product = false) ∧
      ∃ answer, (v.runner.perform request (v.finds w)).1 = .ok answer

/-- The visit returned Ok from a completed rollback or promotion, and left the journal `es`. -/
structure Completes (v : Visit η γ) (w : World η γ) (es : List JournalEntry) : Prop where
  returned : v.Returned w
  journal : (v.run w).disk.readJournal = .ok es
  tail : lastIntent es = some .promoted ∨ lastIntent es = some .rolledBack

/-- What a visit that does not repeat a rollback leaves. -/
theorem run_calm {v : Visit η γ} {n : Nat} {w : World (Audited η) γ} (hw : Calm n w)
    (hspares : Journaled (fun es => opensOf es = n) w.disk → ¬v.audited.Replays w) :
    Calm n (v.audited.run w) := by
  refine Visit.run_of_body (calm_offRecords n).quiet hw fun hfree hvalid =>
    ⟨_, (Runner.calmOutline v.runner v.call n).call_triple, hw, fun hback hgets => ?_⟩
  have hopens : Journaled (fun es => opensOf es = n) w.disk := hback.imp fun _ h => h.1
  exact hspares hopens ⟨hfree, hvalid, hgets, hback.imp fun _ h => h.2⟩

end Visit

/-- **A completed transaction is not replayed**: after a call that returned Ok from a completed
rollback or promotion, no later call parks, stops or starts the service before a new
transaction is staged, unless a call repeats the rollback. -/
theorem completed_not_replayed {v : Visit η γ} {w : World η γ} {es : List JournalEntry}
    (hcompletes : v.Completes w es) (later : List (Visit η γ))
    (hspares : EachVisit (fun v w => Journaled (fun es' => opensOf es' = opensOf es) w.disk →
      ¬v.Replays w) (later.map Visit.audited) (v.run w).audited) :
    AllLate (opensOf es) (runVisits (later.map Visit.audited) (v.run w).audited) := by
  have hstart : Calm (opensOf es) (v.run w).audited := by
    refine ⟨⟨es, hcompletes.journal, .inr ⟨rfl, fun p hp => ?_⟩⟩, fun event he => by cases he⟩
    rcases hcompletes.tail with h | h
    · rw [h, Option.some.injEq] at hp
      rw [← hp]
      rfl
    · rw [h, Option.some.injEq] at hp
      rw [← hp]
      rfl
  have hrun : Calm (opensOf es) (runVisits (later.map Visit.audited) (v.run w).audited) := by
    generalize (v.run w).audited = w' at hstart hspares ⊢
    induction later generalizing w' with
    | nil => exact hstart
    | cons v later ih => exact ih _ (Visit.run_calm hstart hspares.1) hspares.2
  exact hrun.2

namespace Service

/-- An upgrade to "2" that a surface refuses, so that it is rolled back. -/
def refusedVisit : Visit Service Unit where
  runner := { runner 7 Faults.clean with surfaces := [⟨"live", HostCall.reply ("other", "x")⟩] }
  lock := .free
  product := ()
  call := .execute (.upgrade 1 "a" "2" true)

/-- An upgrade that is not downloaded. -/
def offlineVisit : Visit Service Unit where
  runner := { runner 8 Faults.clean with downloader := fun _ => Prog.throw (.invalid "offline") }
  lock := .free
  product := ()
  call := .execute (.upgrade 1 "b" "2" true)

def recoverVisit : Visit Service Unit where
  runner := runner 9 Faults.clean
  lock := .free
  product := ()
  call := .recover none

/-- The journal a world shows. -/
def journalOf {η : Type} (w : World η Unit) : List JournalEntry :=
  match w.disk.readJournal with
  | .ok es => es
  | .error _ => []

theorem refusedVisit_completes :
    refusedVisit.Completes (installed "1") (journalOf (refusedVisit.run (installed "1"))) where
  returned := by
    refine ⟨rfl, fun _ => rfl, ?_⟩
    have hok : (refusedVisit.runner.perform (.upgrade 1 "a" "2" true)
        (refusedVisit.finds (installed "1"))).1.returns (fun _ => true) = true := by decide +kernel
    obtain ⟨answer, hanswer, -⟩ := Res.returns_iff.mp hok
    exact ⟨answer, hanswer⟩
  journal := by
    have hok : (refusedVisit.run (installed "1")).disk.readJournal.isOk = true := by decide +kernel
    unfold journalOf
    generalize (refusedVisit.run (installed "1")).disk.readJournal = o at hok ⊢
    cases o with
    | ok es => rfl
    | error e => cases hok
  tail := .inr (by decide +kernel)

/-- The recovery of an upgrade that was not even downloaded restarts the service. -/
theorem completed_replayed : ∃ (v : Visit Service Unit) (w : World Service Unit) (es : List JournalEntry)
    (later : List (Visit Service Unit)), v.Completes w es ∧
      ¬AllLate (opensOf es) (runVisits (later.map Visit.audited) (v.run w).audited) := by
  refine ⟨refusedVisit, installed "1", _, [offlineVisit, recoverVisit], refusedVisit_completes, ?_⟩
  intro hlate
  have hevents : ((runVisits ([offlineVisit, recoverVisit].map Visit.audited)
      (refusedVisit.run (installed "1")).audited).host.events.any fun event =>
        event.call == "start" && (match event.disk.readJournal with
          | .ok es => opensOf es == opensOf (journalOf (refusedVisit.run (installed "1")))
          | .error _ => false)) = true := by decide +kernel
  obtain ⟨event, he, hevent⟩ := List.any_eq_true.mp hevents
  obtain ⟨hcall, hjournal⟩ := Bool.and_eq_true_iff.mp hevent
  obtain ⟨es, hread, hmore⟩ := hlate event he (by rw [eq_of_beq hcall]; simp)
  rw [hread] at hjournal
  have hsame := eq_of_beq hjournal
  omega

/-- Two recoveries after the rollback leave the service alone. -/
theorem completed_not_replayed_settled :
    AllLate (opensOf (journalOf (refusedVisit.run (installed "1"))))
      (runVisits ([recoverVisit, recoverVisit].map Visit.audited)
        (refusedVisit.run (installed "1")).audited) := by
  have hsettled : ∀ {w : World (Audited Service) Unit},
      w.disk.readOperation.shows (fun op => op.outcome.isSome) = true →
        ¬recoverVisit.audited.Replays w := by
    rintro w h ⟨-, -, hgets, -⟩
    have hun : Runner.Unsettled w := hgets.1
    obtain ⟨op, hop, ho⟩ := OperationRead.shows_iff.mp h
    simp [hun op hop] at ho
  refine completed_not_replayed refusedVisit_completes [recoverVisit, recoverVisit]
    ⟨fun _ => hsettled ?_, fun _ => hsettled ?_, trivial⟩
  · decide +kernel
  · decide +kernel

end Service

end KCarrier
