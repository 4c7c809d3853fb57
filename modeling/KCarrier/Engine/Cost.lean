import KCarrier.Engine
import KCarrier.Crash.Cost

/-!
# KCarrier.Engine.Cost

What a call on an engine costs at most, in any measure of the world.

`Rates` puts a price on every effect of the engine.  Its control flow is followed here once,
for every environment: `Priced.recover_spends` and `Priced.upgrade_spends` add the prices up
along the dearest way through a recovery and through an upgrade.
-/

namespace KCarrier

open Crash
open Running

/-- What each effect of an engine costs at most. -/
structure Rates where
  append : Nat
  stage : Nat
  promote : Nat
  clear : Nat
  quiesce : Nat
  stop : Nat
  start : Nat
  probe : Nat
  resume : Nat
deriving DecidableEq, Repr

namespace Rates

/-- A rollback that restarts the stable service. -/
def rollback (r : Rates) : Nat := r.append + (r.stop + (r.start + (r.resume + r.clear)))

def commit (r : Rates) : Nat := r.promote + r.resume

def recover (r : Rates) : Nat := max r.rollback r.commit

def handOver (r : Rates) : Nat :=
  r.append + (r.stage + (r.append + (r.quiesce + (r.stop + (r.start + r.append)))))

def judge (r : Rates) : Nat := r.append + max r.rollback (r.append + r.commit)

def upgrade (r : Rates) : Nat := r.probe + (r.handOver + (r.probe + max r.rollback r.judge))

end Rates

variable {σ : Type}

/-- The effects of the engine cost no more than their rates; what only reads costs
nothing. -/
structure Priced (e : Engine σ) (μ : σ → Nat) (r : Rates) : Prop where
  readJournal : Spends μ 0 e.effects.readJournal
  append : ∀ entry, Spends μ r.append (e.effects.append entry)
  versions : Spends μ 0 e.effects.versions
  stage : ∀ version bytes, Spends μ r.stage (e.effects.stage version bytes)
  promote : Spends μ r.promote e.effects.promote
  clear : Spends μ r.clear e.effects.clear
  fence : Spends μ 0 e.host.fence
  quiesce : Spends μ r.quiesce e.host.quiesce
  stop : ∀ slot, Spends μ r.stop (e.host.stop slot)
  start : ∀ slot, Spends μ r.start (e.host.start slot)
  probe : Spends μ r.probe e.host.probe
  resume : Spends μ r.resume e.host.resume
  evaluate : ∀ evidence target, Spends μ 0 (e.predicates.evaluate evidence target)

namespace Priced

variable {e : Engine σ} {μ : σ → Nat} {r : Rates}

/-- The measure of the world of a running engine. -/
abbrev OfWorld (μ : σ → Nat) (s : Running σ) : Nat := μ s.world

theorem lift {α : Type} {m : Prog Error σ α} {n : Nat} (h : Spends μ n m) :
    Spends (OfWorld μ) n (Running.lift m) :=
  Spends.zoom h (fun _ => rfl) fun _ _ => rfl

theorem setSeq (n : Nat) : Spends (OfWorld μ) 0 (Running.setSeq n : Prog Error (Running σ) Unit) :=
  Spends.modify fun _ => Nat.le_refl _

theorem bounded {α : Type} {call : HostCall σ α} {n : Nat} (label : String)
    (h : Spends μ n call) : Spends (OfWorld μ) n (Engine.bounded label call) := by
  unfold Engine.bounded
  refine Spends.bind (k := 0) (lift h) fun reply => ?_
  cases reply with
  | some a => exact Spends.pure a
  | none => exact Spends.throw _

theorem journal (h : Priced e μ r) (intent : Phase) (detail : Detail) :
    Spends (OfWorld μ) r.append (e.journal intent detail) := by
  unfold Engine.journal
  have hget : Spends (OfWorld μ) 0 (Prog.get : Prog Error (Running σ) (Running σ)) := Spends.get
  have hbody := hget.bind fun s => (lift (h.append (Engine.entryOf s.seq (e.now s.world) intent
    detail))).bind fun _ => setSeq (s.seq + 1)
  exact hbody.mono (by omega)

theorem readEntries (h : Priced e μ r) : Spends (OfWorld μ) 0 e.readEntries := by
  unfold Engine.readEntries
  exact Spends.bind (k := 0) (lift h.readJournal) fun entries =>
    (Spends.ofExcept (n := 0) (validateAll entries)).bind (k := 0) fun _ => Spends.pure entries

/-- Putting the stable service back. -/
theorem restart_spends (h : Priced e μ r) :
    Spends (OfWorld μ) (r.stop + (r.start + (r.resume + r.clear))) (do
      Engine.bounded "stop" (e.host.stop .experiment)
      Engine.bounded "start" (e.host.start .stable)
      Engine.bounded "resume" e.host.resume
      Running.lift e.effects.clear) :=
  (bounded "stop" (h.stop .experiment)).bind fun _ =>
    (bounded "start" (h.start .stable)).bind fun _ =>
      (bounded "resume" h.resume).bind fun _ => lift h.clear

theorem commit_spends (h : Priced e μ r) :
    Spends (OfWorld μ) r.commit (do
      Running.lift e.effects.promote
      Engine.bounded "resume" e.host.resume) :=
  (lift h.promote).bind fun _ => bounded "resume" h.resume

theorem rollback_spends (h : Priced e μ r) (reason : String) (skipRestart : Bool) :
    Spends (OfWorld μ) r.rollback (e.rollback reason skipRestart) := by
  unfold Engine.rollback
  cases skipRestart with
  | true =>
      have hclear : Spends (OfWorld μ) (r.append + r.clear) (do
          e.journal .rolledBack [("reason", reason)]
          Running.lift e.effects.clear) :=
        (h.journal _ _).bind fun _ => lift h.clear
      apply hclear.mono
      unfold Rates.rollback
      omega
  | false => exact (h.journal _ _).bind fun _ => h.restart_spends

theorem rollbackOutcome_spends (h : Priced e μ r) (reason : String) :
    Spends (OfWorld μ) r.rollback (e.rollbackOutcome reason) := by
  unfold Engine.rollbackOutcome
  exact (h.rollback_spends reason false).bind (k := 0) fun _ => Spends.pure _

/-- What follows a step that costs nothing is all there is to pay for. -/
theorem after_free {α β : Type} {m : Prog Error (Running σ) α}
    {f : α → Prog Error (Running σ) β} {n : Nat} (hm : Spends (OfWorld μ) 0 m)
    (hf : ∀ a, Spends (OfWorld μ) n (f a)) : Spends (OfWorld μ) n (m >>= f) := by
  have hall := hm.bind hf
  rwa [Nat.zero_add] at hall

/-- **A recovery** costs at most a rollback or a commit. -/
theorem recover_spends (h : Priced e μ r) : Spends (OfWorld μ) r.recover e.recover := by
  unfold Engine.recover
  refine after_free h.readEntries fun entries => ?_
  refine after_free (setSeq _) fun _ => ?_
  refine after_free (bounded "fence" h.fence) fun _ => ?_
  have hrollback : ∀ reason skipRestart, Spends (OfWorld μ) r.recover
      (e.rollback reason skipRestart) := fun reason skipRestart =>
    (h.rollback_spends reason skipRestart).mono (Nat.le_max_left _ _)
  cases lastIntent entries with
  | none => exact Spends.pure ()
  | some tail =>
      cases tail with
      | idle => exact Spends.pure ()
      | staged => exact hrollback _ _
      | handingOver => exact hrollback _ _
      | runningExperiment => exact hrollback _ _
      | readback => exact hrollback _ _
      | promoted => exact h.commit_spends.mono (Nat.le_max_right _ _)
      | rolledBack =>
          apply h.restart_spends.mono
          unfold Rates.recover Rates.rollback
          omega

theorem handOver_spends (h : Priced e μ r) (version : String) (bytes : Path)
    (prior : Option Evidence) :
    Spends (OfWorld μ) r.handOver (e.handOver version bytes prior) := by
  unfold Engine.handOver
  exact (h.journal _ _).bind fun _ => (lift (h.stage version bytes)).bind fun _ =>
    (h.journal _ _).bind fun _ => (bounded "quiesce" h.quiesce).bind fun _ =>
      (bounded "stop" (h.stop .stable)).bind fun _ =>
        (bounded "start" (h.start .experiment)).bind fun _ => h.journal _ _

theorem judge_spends (h : Priced e μ r) (version : String) (prior : Option Evidence)
    (evidence : Evidence) : Spends (OfWorld μ) r.judge (e.judge version prior evidence) := by
  unfold Engine.judge
  refine (h.journal _ _).bind fun _ => ?_
  have hrollback : ∀ reason, Spends (OfWorld μ) (max r.rollback (r.append + r.commit))
      (e.rollbackOutcome reason) := fun reason =>
    (h.rollbackOutcome_spends reason).mono (Nat.le_max_left _ _)
  split
  · exact hrollback _
  · refine after_free (bounded "readback" (h.evaluate evidence version)) fun verdict => ?_
    cases verdict with
    | some reason => exact hrollback _
    | none =>
        have hpublish := (h.journal .promoted (Engine.upgradeDetail version)).bind fun _ =>
          (lift h.promote).bind fun _ => (bounded "resume" h.resume).bind (k := 0) fun _ =>
            Spends.pure (EngineOutcome.promoted version)
        exact hpublish.mono (Nat.le_max_right _ _)

/-- The probe before the handover, and the one after it. -/
theorem attempt_probe (h : Priced e μ r) :
    Spends (OfWorld μ) r.probe (Prog.attempt (Engine.bounded "probe" e.host.probe)) :=
  (bounded "probe" h.probe).attempt

theorem probePrior_spends (h : Priced e μ r) : Spends (OfWorld μ) r.probe e.probePrior := by
  unfold Engine.probePrior
  refine Spends.bind (k := 0) h.attempt_probe fun reply => ?_
  cases reply with
  | ok evidence => exact Spends.pure _
  | error err =>
      simp only
      split
      · exact Spends.throw err
      · exact Spends.pure none

/-- **An upgrade** costs at most its handover and the dearer of a rollback and a verdict. -/
theorem upgrade_spends (h : Priced e μ r) (version : String) (bytes : Path) :
    Spends (OfWorld μ) r.upgrade (e.upgrade version bytes) := by
  unfold Engine.upgrade
  refine after_free (lift h.versions) fun versions => ?_
  cases (versions.lookup "stable").join with
  | none => exact Spends.throw _
  | some stable =>
      simp only
      split
      · exact Spends.pure _
      · refine h.probePrior_spends.bind fun prior => ?_
        refine (h.handOver_spends version bytes prior).bind fun _ => ?_
        refine h.attempt_probe.bind fun reply => ?_
        cases reply with
        | ok evidence => exact (h.judge_spends version prior evidence).mono (Nat.le_max_right _ _)
        | error err =>
            simp only
            split
            · exact Spends.throw err
            · exact (h.rollbackOutcome_spends _).mono (Nat.le_max_left _ _)

end Priced

end KCarrier
