import KCarrier.Engine.Outline

/-!
# KCarrier.Engine.Delivery

What an upgrade needs to keep an assertion that staging puts at risk.

A recovery stages nothing, so it keeps whatever its own calls keep (`Restores`).  An upgrade
stages one candidate, once: it surveys and probes, journals the staged intent, and stages.  The
intent may ask for more than staging does, and staging for more than is kept afterwards
(`Installs`).
-/

namespace KCarrier

open Crash
open Running

variable {σ : Type}

/-- Every call a recovery makes keeps `J`. -/
structure Restores (e : Engine σ) (J : σ → Prop) : Prop where
  readJournal : Keeps J e.effects.readJournal
  append : ∀ entry, entry.intent ≠ .staged → Keeps J (e.effects.append entry)
  promote : Keeps J e.effects.promote
  clear : Keeps J e.effects.clear
  fence : Keeps J e.host.fence
  stop : ∀ slot, Keeps J (e.host.stop slot)
  start : ∀ slot, Keeps J (e.host.start slot)
  resume : Keeps J e.host.resume

/-- `I` holds until the staged intent is durable, `M` until the candidate is staged, `J` from
then on. -/
structure Installs (e : Engine σ) (version : String) (bytes : Path) (I M J : σ → Prop) : Prop
    extends Restores e J where
  below : ∀ s, I s → J s
  versions : Keeps I e.effects.versions
  surveyed : Keeps I e.host.probe
  journaled : ∀ seq now, Triple I
    (e.effects.append (Engine.entryOf seq now .staged (Engine.upgradeDetail version)))
    (fun _ => M) (fun _ => J)
  stage : Triple M (e.effects.stage version bytes) (fun _ => J) (fun _ => J)
  quiesce : Keeps J e.host.quiesce
  probe : Keeps J e.host.probe
  evaluate : ∀ evidence target, Keeps J (e.predicates.evaluate evidence target)

/-- An intent does what its append does. -/
theorem Engine.journal_triple {e : Engine σ} {P Q F : σ → Prop} {intent : Phase} {detail : Detail}
    (h : ∀ seq now, Triple P (e.effects.append (Engine.entryOf seq now intent detail))
      (fun _ => Q) (fun _ => F)) :
    Triple (OnWorld P) (e.journal intent detail) (fun _ => OnWorld Q) (fun _ => OnWorld F) := by
  unfold Engine.journal
  refine Triple.bind (R := fun _ => OnWorld P) (Triple.get fun _ hs => hs) fun _ => ?_
  exact Triple.bind (Confined.lift (h _ _)) fun _ => Triple.modify fun _ hs => hs

namespace Restores

variable {e : Engine σ} {J : σ → Prop}

theorem journal (h : Restores e J) {intent : Phase} (hintent : intent ≠ .staged) (detail : Detail) :
    Keeps (OnWorld J) (e.journal intent detail) :=
  Engine.journal_triple fun _ _ => h.append _ hintent

theorem readEntries (h : Restores e J) : Keeps (OnWorld J) e.readEntries := by
  unfold Engine.readEntries
  refine Triple.bind (Keeps.lift h.readJournal) fun entries => ?_
  refine Triple.bind (R := fun _ => OnWorld J) ?_ fun _ => Triple.pure fun _ hs => hs
  exact Triple.ofExcept (fun _ _ _ hs => hs) fun _ _ _ hs => hs

theorem recoverOutline (h : Restores e J) :
    RecoverOutline e (fun _ => OnWorld J) (fun _ => OnWorld J) where
  stop := Keeps.bounded (h.stop _)
  start := Keeps.bounded (h.start _)
  resumed := Keeps.bounded h.resume
  clear := Keeps.lift h.clear
  promote := Keeps.lift h.promote
  resume := Keeps.bounded h.resume
  read := h.readEntries
  fence _ := Keeps.bounded h.fence
  idle _ hs := hs.elim id id
  commit _ hs := hs
  redo _ hs := hs
  withdraw _ := h.journal (by decide) _
  abandon _ _ _ := h.journal (by decide) _

/-- **Recovery** keeps what its calls keep. -/
theorem recover (h : Restores e J) : Keeps (OnWorld J) e.recover :=
  h.recoverOutline.recover_triple.post fun _ _ ⟨_, hs⟩ => hs

end Restores

namespace Installs

variable {e : Engine σ} {version : String} {bytes : Path} {I M J : σ → Prop}

/-- Which of the assertions holds at a point. -/
def At (I M J : σ → Prop) : Point → Running σ → Prop
  | .rest none | .surveyed _ | .probed _ _ => OnWorld I
  | .staged _ => OnWorld M
  | _ => OnWorld J

theorem upgradeOutline (h : Installs e version bytes I M J) :
    UpgradeOutline e version bytes (At I M J) (fun _ => OnWorld J) := by
  have hbelow : ∀ s, OnWorld I s → OnWorld J s := fun s => h.below s.world
  have hprobe : ∀ {K : σ → Prop} {Q : Evidence → Running σ → Prop} {failed : Running σ → Prop},
      Keeps K e.host.probe → (∀ s, OnWorld K s → OnWorld J s) →
      (∀ evidence s, OnWorld K s → Q evidence s) → (∀ s, OnWorld K s → failed s) →
      Triple (OnWorld K) (Engine.bounded "probe" e.host.probe) Q
        (probeFailed failed (fun _ => OnWorld J)) := by
    intro K Q failed hkeeps hK hQ hfailed
    refine (Keeps.bounded hkeeps).conseq (fun _ hs => hs) hQ fun err s hs => ?_
    cases err with
    | none => exact hK s hs
    | some err =>
        cases hu : err.isUncertain with
        | true =>
            simp only [probeFailed, hu, if_true]
            exact hK s hs
        | false =>
            simp only [probeFailed, hu]
            exact hfailed s hs
  exact {
    stop := Keeps.bounded (h.stop _)
    start := Keeps.bounded (h.start _)
    resumed := Keeps.bounded h.resume
    clear := Keeps.lift h.clear
    promote := Keeps.lift h.promote
    resume := Keeps.bounded h.resume
    survey := by
      refine (Keeps.lift h.versions).conseq (fun _ hs => hs) (fun versions s hs => ?_) fun _ => hbelow
      cases stableOf versions with
      | none => exact hbelow s hs
      | some stable => exact hs
    probe := fun _ _ => hprobe h.surveyed hbelow (fun _ _ hs => hs) fun _ hs => hs
    journalStaged := fun _ _ _ => Engine.journal_triple h.journaled
    stage := fun _ => Confined.lift h.stage
    journalHandingOver := fun _ => h.journal (by decide) _
    quiesce := fun _ => Keeps.bounded h.quiesce
    stopStable := fun _ => Keeps.bounded (h.stop _)
    startExperiment := fun _ => Keeps.bounded (h.start _)
    journalRunning := fun _ => h.journal (by decide) _
    probeLive := fun _ => hprobe h.probe (fun _ hs => hs) (fun _ _ hs => hs) fun _ hs => hs
    journalReadback := fun _ _ => h.journal (by decide) _
    replaced := fun _ _ _ _ hs => hs
    evaluate := fun _ _ => Triple.post (Keeps.bounded (h.evaluate _ _)) fun verdict _ hs => by
      cases verdict <;> exact hs
    journalPromoted := fun _ _ => h.journal (by decide) _
    silent := fun _ _ => h.journal (by decide) _
    refused := fun _ _ _ => h.journal (by decide) _ }

/-- **An upgrade** from `I` leaves `J`, wherever it is cut off. -/
theorem upgrade (h : Installs e version bytes I M J) :
    Triple (OnWorld I) (e.upgrade version bytes) (fun _ => OnWorld J) (fun _ => OnWorld J) :=
  h.upgradeOutline.upgrade_triple.post fun outcome s hs => by
    cases outcome with
    | promoted v => exact hs.2
    | rolledBack reason => exact hs
    | upToDate => exact h.below _ hs

end Installs

end KCarrier
