import KCarrier.Engine.Outline
import KCarrier.Protocol.Reply

/-!
# KCarrier.Engine.Words

What an engine says, and where it has the words from.

The texts of its own are short (`Error.Brief`); the others are errors of the calls it
makes, the evidence and the verdict it is given, and it quotes them in the reasons it
journals and reports (`Speaks`, `Quotes`).
-/

namespace KCarrier

open Crash
open Running

/-- An error with a short text, and no replay. -/
structure Error.Brief (err : Error) : Prop where
  own : err.NotReplay
  short : quoted err.message ≤ 64

theorem Error.brief_invalid {message : String} (h : quoted message ≤ 64) :
    (Error.invalid message).Brief := ⟨nofun, h⟩

theorem Error.brief_uncertain {message : String} (h : quoted message ≤ 64) :
    (Error.uncertain message).Brief := ⟨nofun, h⟩

/-- A journal out of order is refused in fixed words. -/
theorem validateAll_brief {es : List JournalEntry} {err : Error} (h : validateAll es = .error err) :
    err.Brief := by
  induction es with
  | nil => cases h
  | cons entry es ih =>
      unfold validateAll JournalEntry.validate at h
      split at h
      · exact ih h
      · next err' hv =>
          split at hv
          · cases hv
            cases h
            exact Error.brief_invalid (by decide)
          · cases hv

variable {σ : Type}

/-- The calls of an engine keep `I`, fail with errors of the kind `p`, and take a journal
whose reasons are in `R`; so do the errors and reasons of its own. -/
structure Speaks (e : Engine σ) (I : σ → Prop) (p : Error → Prop) (R : String → Prop) : Prop where
  brief : ∀ err : Error, err.Brief → p err
  reason : ∀ text, quoted text ≤ 64 → R text
  readJournal : Obeys p I (fun _ => True) e.effects.readJournal
  append : ∀ entry : JournalEntry, (∀ text, entry.detail.get "reason" = some text → R text) →
    Obeys p I (fun _ => True) (e.effects.append entry)
  versions : Obeys p I (fun _ => True) e.effects.versions
  promote : Obeys p I (fun _ => True) e.effects.promote
  clear : Obeys p I (fun _ => True) e.effects.clear
  fence : Obeys p I (fun _ => True) e.host.fence
  quiesce : Obeys p I (fun _ => True) e.host.quiesce
  stop : ∀ slot, Obeys p I (fun _ => True) (e.host.stop slot)
  start : ∀ slot, Obeys p I (fun _ => True) (e.host.start slot)
  resume : Obeys p I (fun _ => True) e.host.resume

/-- What an upgrade to `version` quotes: the error of a probe, and the verdict on evidence
`E`. -/
structure Quotes (e : Engine σ) (I : σ → Prop) (p : Error → Prop) (R : String → Prop)
    (E : Evidence → Prop) (version : String) (bytes : Path) : Prop extends Speaks e I p R where
  failed : ∀ err : Error, p err → R s!"experiment probe failed: {err.message}"
  stage : Obeys p I (fun _ => True) (e.effects.stage version bytes)
  probe : Obeys p I (fun reply => ∀ evidence, reply = some evidence → E evidence) e.host.probe
  evaluate : ∀ evidence, E evidence → Obeys p I
    (fun reply => ∀ text, reply = some (some text) → R s!"predicates refused: {text}")
    (e.predicates.evaluate evidence version)

theorem lift_obeys {α : Type} {I : σ → Prop} {p : Error → Prop} {q : α → Prop}
    {m : Prog Error σ α} (h : Obeys p I q m) : Obeys p (OnWorld I) q (lift m) :=
  h.zoom (fun _ hs => hs) fun _ _ _ hw => hw

namespace Speaks

variable {e : Engine σ} {I : σ → Prop} {p : Error → Prop} {R : String → Prop}

/-- A call without a reply is an error of the engine's own. -/
theorem bounded (h : Speaks e I p R) {α : Type} {q : α → Prop} {label : String}
    {call : HostCall σ α} (hcall : Obeys p I (fun reply => ∀ a, reply = some a → q a) call)
    (hlabel : quoted s!"HOST_CALL_TIMEOUT: {label}" ≤ 64) :
    Obeys p (OnWorld I) q (Engine.bounded label call) := by
  unfold Engine.bounded
  refine (lift_obeys hcall).bind fun reply hreply => ?_
  cases reply with
  | some a => exact Obeys.pure (hreply a rfl)
  | none => exact Obeys.throw (h.brief _ (Error.brief_uncertain hlabel))

/-- A call of the host that returns nothing. -/
theorem command (h : Speaks e I p R) {label : String} {call : HostCall σ Unit}
    (hcall : Obeys p I (fun _ => True) call)
    (hlabel : quoted s!"HOST_CALL_TIMEOUT: {label}" ≤ 64) :
    Obeys p (OnWorld I) (fun _ => True) (Engine.bounded label call) :=
  h.bounded (hcall.mono (fun _ he => he) fun _ _ _ _ => trivial) hlabel

theorem setSeq (n : Nat) : Obeys p (OnWorld I) (fun _ => True) (Running.setSeq n) :=
  Obeys.modify fun _ hs => hs

/-- An intent takes its reason into the journal. -/
theorem journal (h : Speaks e I p R) (intent : Phase) (detail : Detail)
    (hdetail : ∀ text, detail.get "reason" = some text → R text) :
    Obeys p (OnWorld I) (fun _ => True) (e.journal intent detail) := by
  unfold Engine.journal
  refine Obeys.get_bind fun s _ => ?_
  have hentry : ∀ text, (Engine.entryOf s.seq (e.now s.world) intent detail).detail.get "reason" =
      some text → R text := by
    intro text htext
    rw [Engine.entryOf, Detail.get_insert_of_ne detail "1" (by decide)] at htext
    exact hdetail text htext
  exact (lift_obeys (h.append _ hentry)).bind fun _ _ => setSeq _

/-- An entry that names the version. -/
theorem journal_version (h : Speaks e I p R) (intent : Phase) (version : String) :
    Obeys p (OnWorld I) (fun _ => True) (e.journal intent (Engine.upgradeDetail version)) := by
  refine h.journal intent _ fun text htext => ?_
  have hnone : (Engine.upgradeDetail version).get "reason" = none := rfl
  rw [hnone] at htext
  cases htext

/-- An entry that gives a reason. -/
theorem journal_reason (h : Speaks e I p R) {text : String} (htext : R text) :
    Obeys p (OnWorld I) (fun _ => True) (e.journal .rolledBack [("reason", text)]) := by
  refine h.journal _ _ fun text' heq => ?_
  have hget : Detail.get [("reason", text)] "reason" = some text := rfl
  rw [hget] at heq
  cases heq
  exact htext

/-- **Reading** the journal. -/
theorem readEntries (h : Speaks e I p R) :
    Obeys p (OnWorld I) (fun _ => True) e.readEntries := by
  unfold Engine.readEntries
  refine (lift_obeys h.readJournal).bind fun entries _ => ?_
  have hvalid : Obeys p (OnWorld I) (fun _ => True)
      (Prog.ofExcept (validateAll entries) : Prog Error (Running σ) Unit) :=
    Obeys.ofExcept (fun _ _ => trivial) fun err he => h.brief err (validateAll_brief he)
  exact hvalid.bind fun _ _ => Obeys.pure trivial

/-- **Observing** a journal at rest. -/
theorem observeSettled (h : Speaks e I p R) :
    Obeys p (OnWorld I) (fun _ => True) e.observeSettled := by
  unfold Engine.observeSettled
  refine h.readEntries.bind fun entries _ => ?_
  cases entries.getLast? with
  | none => exact setSeq _
  | some last =>
      refine Obeys.ite (fun _ => setSeq _) fun _ => Obeys.throw (h.brief _ ?_)
      exact Error.brief_invalid (by decide)

/-- Putting the stable service back. -/
theorem restart (h : Speaks e I p R) : Obeys p (OnWorld I) (fun _ => True) (do
    Engine.bounded "stop" (e.host.stop .experiment)
    Engine.bounded "start" (e.host.start .stable)
    Engine.bounded "resume" e.host.resume
    lift e.effects.clear) := by
  refine (h.command (h.stop _) (by decide)).bind fun _ _ => ?_
  refine (h.command (h.start _) (by decide)).bind fun _ _ => ?_
  refine (h.command h.resume (by decide)).bind fun _ _ => ?_
  exact lift_obeys h.clear

/-- **Rolling back** with a reason. -/
theorem rollback (h : Speaks e I p R) {text : String} (htext : R text) (skipRestart : Bool) :
    Obeys p (OnWorld I) (fun _ => True) (e.rollback text skipRestart) := by
  unfold Engine.rollback
  refine (h.journal_reason htext).bind fun _ _ => ?_
  exact Obeys.ite (fun _ => lift_obeys h.clear) fun _ => h.restart

/-- **Recovery** says nothing but short texts and the errors of its calls. -/
theorem recover (h : Speaks e I p R) : Obeys p (OnWorld I) (fun _ => True) e.recover := by
  unfold Engine.recover
  refine h.readEntries.bind fun entries _ => ?_
  refine (setSeq _).bind fun _ _ => ?_
  refine (h.command h.fence (by decide)).bind fun _ _ => ?_
  cases lastIntent entries with
  | none => exact Obeys.pure trivial
  | some tail =>
      cases tail with
      | idle => exact Obeys.pure trivial
      | promoted =>
          refine (lift_obeys h.promote).bind fun _ _ => ?_
          exact h.command h.resume (by decide)
      | rolledBack => exact h.restart
      | staged => exact h.rollback (h.reason _ (by decide)) true
      | handingOver => exact h.rollback (h.reason _ (by decide)) false
      | runningExperiment => exact h.rollback (h.reason _ (by decide)) false
      | readback => exact h.rollback (h.reason _ (by decide)) false

/-- What an upgrade that was rolled back gives as its reason. -/
def Reasoned (R : String → Prop) (outcome : EngineOutcome) : Prop :=
  ∀ text, outcome = .rolledBack text → R text

/-- The outcome carries the reason it was given. -/
theorem rollbackOutcome (h : Speaks e I p R) {text : String} (htext : R text) :
    Obeys p (OnWorld I) (Reasoned R) (e.rollbackOutcome text) := by
  unfold Engine.rollbackOutcome
  refine (h.rollback htext false).bind fun _ _ => Obeys.pure fun text' heq => ?_
  cases heq
  exact htext

end Speaks

namespace Quotes

variable {e : Engine σ} {I : σ → Prop} {p : Error → Prop} {R : String → Prop}
variable {E : Evidence → Prop} {version : String} {bytes : Path}

/-- Evidence that was probed is evidence the host may give. -/
theorem probed (h : Quotes e I p R E version bytes) :
    Obeys p (OnWorld I) E (Engine.bounded "probe" e.host.probe) :=
  h.bounded h.probe (by decide)

/-- The evidence from before the handover is not quoted. -/
theorem probePrior (h : Quotes e I p R E version bytes) :
    Obeys p (OnWorld I) (fun _ => True) e.probePrior := by
  unfold Engine.probePrior
  refine (Obeys.attempt h.probed).bind fun reply hreply => ?_
  cases reply with
  | ok evidence => exact Obeys.pure trivial
  | error err => exact Obeys.ite (fun _ => Obeys.throw (hreply.2 err rfl)) fun _ => Obeys.pure trivial

/-- **The handover** quotes what the host answers. -/
theorem handOver (h : Quotes e I p R E version bytes) (prior : Option Evidence) :
    Obeys p (OnWorld I) (fun _ => True) (e.handOver version bytes prior) := by
  have hdetail : ∀ text, (Engine.handoverDetail version prior).get "reason" = some text →
      R text := by
    intro text htext
    have hnone : (Engine.handoverDetail version prior).get "reason" = none := by
      cases prior <;> rfl
    rw [hnone] at htext
    cases htext
  unfold Engine.handOver
  refine (h.journal_version _ _).bind fun _ _ => ?_
  refine (lift_obeys h.stage).bind fun _ _ => ?_
  refine (h.journal _ _ hdetail).bind fun _ _ => ?_
  refine (h.command h.quiesce (by decide)).bind fun _ _ => ?_
  refine (h.command (h.stop _) (by decide)).bind fun _ _ => ?_
  refine (h.command (h.start _) (by decide)).bind fun _ _ => ?_
  exact h.journal_version _ _

/-- A refusal is quoted. -/
theorem judge (h : Quotes e I p R E version bytes) (prior : Option Evidence) {evidence : Evidence}
    (hevidence : E evidence) :
    Obeys p (OnWorld I) (Speaks.Reasoned R) (e.judge version prior evidence) := by
  unfold Engine.judge
  refine (h.journal_version _ _).bind fun _ _ => ?_
  refine Obeys.ite (fun _ => h.rollbackOutcome (h.reason _ (by decide))) fun _ => ?_
  refine (h.bounded (q := fun verdict => ∀ text, verdict = some text →
    R s!"predicates refused: {text}") ?_ (by decide)).bind fun verdict hverdict => ?_
  · refine (h.evaluate evidence hevidence).mono (fun _ he => he) fun reply hreply => ?_
    intro verdict heq text htext
    exact hreply text (by rw [heq, htext])
  · cases verdict with
    | some text => exact h.rollbackOutcome (hverdict text rfl)
    | none =>
        refine (h.journal_version _ _).bind fun _ _ => ?_
        refine (lift_obeys h.promote).bind fun _ _ => ?_
        refine (h.command h.resume (by decide)).bind fun _ _ => ?_
        exact Obeys.pure nofun

/-- **An upgrade** gives a reason of its own, or one that quotes a probe or the verdict. -/
theorem upgrade (h : Quotes e I p R E version bytes) :
    Obeys p (OnWorld I) (Speaks.Reasoned R) (e.upgrade version bytes) := by
  unfold Engine.upgrade
  refine (lift_obeys h.versions).bind fun versions _ => ?_
  cases (versions.lookup "stable").join with
  | none => exact Obeys.throw (h.brief _ (Error.brief_invalid (by decide)))
  | some stable =>
      refine Obeys.ite (fun _ => Obeys.pure nofun) fun _ => ?_
      refine h.probePrior.bind fun prior _ => ?_
      refine (h.handOver prior).bind fun _ _ => ?_
      refine (Obeys.attempt h.probed).bind fun reply hreply => ?_
      cases reply with
      | ok evidence => exact h.judge prior (hreply.1 evidence rfl)
      | error err =>
          have herr : p err := hreply.2 err rfl
          exact Obeys.ite (fun _ => Obeys.throw herr) fun _ =>
            h.rollbackOutcome (h.failed err herr)

end Quotes

end KCarrier
