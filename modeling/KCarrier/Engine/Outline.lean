import KCarrier.Engine

/-!
# KCarrier.Engine.Outline

The proof outline of the engine.

`Point` names the points between two effects of `Engine.recover` and
`Engine.upgrade`; an outline puts one assertion at each (`A : Point → ...`) and
one crash condition `F` on every state the engine can be cut off in.  What has to
be shown about an environment is then one triple for each effect at the point
where the engine issues it (`Outline`), and the engine's control flow is followed
here once and for all:

* `recover_triple` — recovery, from any journal tail;
* `upgrade_triple` — an upgrade, through promotion, refusal and rollback;
* `Encloses` — what every single call keeps, recovery and upgrade keep, up to the errors
  an engine stops at; `Frame` and `Calls` are its two ends;
* `SessionOutline` — the whole life of an engine, dropped at its first error.

Every property of the engine over a particular environment is an instance.
-/

namespace KCarrier

open Crash
open Running

/-- The points between two effects.  `prior` is the evidence of the probe before
the handover, `evidence` that of the started candidate. -/
inductive Point where
  /-- an engine was created; nothing was read -/
  | entry
  /-- the journal was read and ends in `tail` -/
  | opened (tail : Option Phase)
  /-- the host confirmed that nothing older is outstanding -/
  | fenced (tail : Option Phase)
  /-- no transaction is open; `ended` is the intent that closed one in this call -/
  | rest (ended : Option Phase)
  /-- the stable slot was read -/
  | surveyed (stable : String)
  | probed (stable : String) (prior : Option Evidence)
  | staged (prior : Option Evidence)
  | prepared (prior : Option Evidence)
  | handing (prior : Option Evidence)
  | quiesced (prior : Option Evidence)
  | stopped (prior : Option Evidence)
  | started (prior : Option Evidence)
  | running (prior : Option Evidence)
  | live (prior : Option Evidence) (evidence : Evidence)
  | readback (prior : Option Evidence) (evidence : Evidence)
  | fresh (prior : Option Evidence) (evidence : Evidence)
  | accepted (prior : Option Evidence) (evidence : Evidence)
  /-- the promoted intent is durable -/
  | committed
  /-- the candidate is in the stable slot -/
  | published
  /-- the rolled-back intent is durable -/
  | rolling
  | rollStopped
  | rollStarted
  /-- only the experiment slot is left to be emptied -/
  | restored

/-- What the last durable intent is at each point. -/
def Point.Tail : Point → Option Phase → Prop
  | .entry, _ => True
  | .opened tail, t | .fenced tail, t => t = tail
  | .rest _, t | .surveyed _, t | .probed _ _, t => ∀ p, t = some p → p.atRest = true
  | .staged _, t | .prepared _, t => t = some .staged
  | .handing _, t | .quiesced _, t | .stopped _, t | .started _, t => t = some .handingOver
  | .running _, t | .live _ _, t => t = some .runningExperiment
  | .readback _ _, t | .fresh _ _, t | .accepted _ _, t => t = some .readback
  | .committed, t | .published, t => t = some .promoted
  | .rolling, t | .rollStopped, t | .rollStarted, t | .restored, t => t = some .rolledBack

/-- The stable slot of a `versions` reply. -/
def stableOf (versions : List (String × Option String)) : Option String :=
  (versions.lookup "stable").join

variable {σ : Type}

/-- One triple for each effect of a rollback. -/
structure RollbackOutline (e : Engine σ) (A : Point → Running σ → Prop)
    (F : Option Error → Running σ → Prop) : Prop where
  stop : Triple (A .rolling) (Engine.bounded "stop" (e.host.stop .experiment))
    (fun _ => A .rollStopped) F
  start : Triple (A .rollStopped) (Engine.bounded "start" (e.host.start .stable))
    (fun _ => A .rollStarted) F
  resumed : Triple (A .rollStarted) (Engine.bounded "resume" e.host.resume)
    (fun _ => A .restored) F
  clear : Triple (A .restored) (lift e.effects.clear) (fun _ => A (.rest (some .rolledBack))) F

/-- One triple for each effect of a commit. -/
structure CommitOutline (e : Engine σ) (A : Point → Running σ → Prop)
    (F : Option Error → Running σ → Prop) : Prop where
  promote : Triple (A .committed) (lift e.effects.promote) (fun _ => A .published) F
  resume : Triple (A .published) (Engine.bounded "resume" e.host.resume)
    (fun _ => A (.rest (some .promoted))) F

/-- What recovery needs of an environment. -/
structure RecoverOutline (e : Engine σ) (A : Point → Running σ → Prop)
    (F : Option Error → Running σ → Prop) : Prop
    extends RollbackOutline e A F, CommitOutline e A F where
  read : Triple (A .entry) e.readEntries
    (fun entries s => A (.opened (lastIntent entries)) { s with seq := nextSeq entries }) F
  fence : ∀ tail, Triple (A (.opened tail)) (Engine.bounded "fence" e.host.fence)
    (fun _ => A (.fenced tail)) F
  idle : ∀ s, A (.fenced none) s ∨ A (.fenced (some .idle)) s → A (.rest none) s
  commit : ∀ s, A (.fenced (some .promoted)) s → A .committed s
  redo : ∀ s, A (.fenced (some .rolledBack)) s → A .rolling s
  withdraw : ∀ reason, Triple (A (.fenced (some .staged)))
    (e.journal .rolledBack [("reason", reason)]) (fun _ => A .restored) F
  abandon : ∀ tail reason, tail = .handingOver ∨ tail = .runningExperiment ∨ tail = .readback →
    Triple (A (.fenced (some tail))) (e.journal .rolledBack [("reason", reason)])
      (fun _ => A .rolling) F

/-- What the start of an upgrade does after a definite or an uncertain probe
failure. -/
def probeFailed (A : Running σ → Prop) (F : Option Error → Running σ → Prop)
    (err : Option Error) (s : Running σ) : Prop :=
  match err with
  | some e => if e.isUncertain then F (some e) s else A s
  | none => F none s

/-- What an upgrade to `version` needs of an environment. -/
structure UpgradeOutline (e : Engine σ) (version : String) (bytes : Path)
    (A : Point → Running σ → Prop) (F : Option Error → Running σ → Prop) : Prop
    extends RollbackOutline e A F, CommitOutline e A F where
  survey : Triple (A (.rest none)) (lift e.effects.versions)
    (fun versions s => match stableOf versions with
      | some stable => A (.surveyed stable) s
      | none => F (some (.invalid "stable slot required before upgrade")) s) F
  probe : ∀ stable, stable ≠ version → Triple (A (.surveyed stable))
    (Engine.bounded "probe" e.host.probe) (fun evidence => A (.probed stable (some evidence)))
    (probeFailed (A (.probed stable none)) F)
  journalStaged : ∀ stable prior, stable ≠ version → Triple (A (.probed stable prior))
    (e.journal .staged (Engine.upgradeDetail version)) (fun _ => A (.staged prior)) F
  stage : ∀ prior, Triple (A (.staged prior)) (lift (e.effects.stage version bytes))
    (fun _ => A (.prepared prior)) F
  journalHandingOver : ∀ prior, Triple (A (.prepared prior))
    (e.journal .handingOver (Engine.handoverDetail version prior)) (fun _ => A (.handing prior)) F
  quiesce : ∀ prior, Triple (A (.handing prior)) (Engine.bounded "quiesce" e.host.quiesce)
    (fun _ => A (.quiesced prior)) F
  stopStable : ∀ prior, Triple (A (.quiesced prior))
    (Engine.bounded "stop" (e.host.stop .stable)) (fun _ => A (.stopped prior)) F
  startExperiment : ∀ prior, Triple (A (.stopped prior))
    (Engine.bounded "start" (e.host.start .experiment)) (fun _ => A (.started prior)) F
  journalRunning : ∀ prior, Triple (A (.started prior))
    (e.journal .runningExperiment (Engine.upgradeDetail version)) (fun _ => A (.running prior)) F
  probeLive : ∀ prior, Triple (A (.running prior)) (Engine.bounded "probe" e.host.probe)
    (fun evidence => A (.live prior evidence)) (probeFailed (A (.running prior)) F)
  journalReadback : ∀ prior evidence, Triple (A (.live prior evidence))
    (e.journal .readback (Engine.upgradeDetail version))
    (fun _ => A (.readback prior evidence)) F
  replaced : ∀ prior evidence s, (∀ p, prior = some p → p.startId ≠ evidence.startId) →
    A (.readback prior evidence) s → A (.fresh prior evidence) s
  evaluate : ∀ prior evidence, Triple (A (.fresh prior evidence))
    (Engine.bounded "readback" (e.predicates.evaluate evidence version))
    (fun verdict => match verdict with
      | some _ => A (.readback prior evidence)
      | none => A (.accepted prior evidence)) F
  journalPromoted : ∀ prior evidence, Triple (A (.accepted prior evidence))
    (e.journal .promoted (Engine.upgradeDetail version)) (fun _ => A .committed) F
  silent : ∀ prior reason, Triple (A (.running prior))
    (e.journal .rolledBack [("reason", reason)]) (fun _ => A .rolling) F
  refused : ∀ prior evidence reason, Triple (A (.readback prior evidence))
    (e.journal .rolledBack [("reason", reason)]) (fun _ => A .rolling) F

/-- A budgeted call: what its reply leaves, and what running out of time leaves. -/
theorem bounded_of_lift {α : Type} {P : Running σ → Prop} {Q : α → Running σ → Prop}
    {F : Option Error → Running σ → Prop} {label : String} {call : HostCall σ α}
    (h : Triple P (lift call) (fun reply r => (∀ a, reply = some a → Q a r) ∧
      F (some (.uncertain s!"HOST_CALL_TIMEOUT: {label}")) r) F) :
    Triple P (Engine.bounded label call) Q F := by
  unfold Engine.bounded
  refine Triple.bind h fun reply => ?_
  cases reply with
  | some a => exact Triple.pure fun _ hr => hr.1 a rfl
  | none => exact Triple.throw fun _ hr => hr.2

/-! ## following the control flow -/

section Flow

variable {e : Engine σ} {A : Point → Running σ → Prop} {F : Option Error → Running σ → Prop}

/-- Putting the stable service back, once the rolled-back intent is durable. -/
theorem RollbackOutline.restart_triple (h : RollbackOutline e A F) :
    Triple (A .rolling) (do
      Engine.bounded "stop" (e.host.stop .experiment)
      Engine.bounded "start" (e.host.start .stable)
      Engine.bounded "resume" e.host.resume
      lift e.effects.clear) (fun _ => A (.rest (some .rolledBack))) F :=
  Triple.bind h.stop fun _ => Triple.bind h.start fun _ =>
    Triple.bind h.resumed fun _ => h.clear

/-- Publishing the candidate, once the promoted intent is durable. -/
theorem CommitOutline.commit_triple (h : CommitOutline e A F) :
    Triple (A .committed) (do
      lift e.effects.promote
      Engine.bounded "resume" e.host.resume) (fun _ => A (.rest (some .promoted))) F :=
  Triple.bind h.promote fun _ => h.resume

/-- A rollback that restarts the stable service. -/
theorem RollbackOutline.rollback_triple (h : RollbackOutline e A F) {P : Running σ → Prop}
    {reason : String}
    (hj : Triple P (e.journal .rolledBack [("reason", reason)]) (fun _ => A .rolling) F) :
    Triple P (e.rollback reason false) (fun _ => A (.rest (some .rolledBack))) F := by
  unfold Engine.rollback
  exact Triple.bind hj fun _ => h.restart_triple

/-- A rollback from before the handover only empties the experiment slot. -/
theorem RollbackOutline.withdraw_triple (h : RollbackOutline e A F) {P : Running σ → Prop}
    {reason : String}
    (hj : Triple P (e.journal .rolledBack [("reason", reason)]) (fun _ => A .restored) F) :
    Triple P (e.rollback reason true) (fun _ => A (.rest (some .rolledBack))) F := by
  unfold Engine.rollback
  exact Triple.bind hj fun _ => h.clear

/-- A rollback that is journaled first has its reason as the outcome. -/
theorem RollbackOutline.rollbackOutcome_triple (h : RollbackOutline e A F) {P : Running σ → Prop}
    {reason : String}
    (hj : Triple P (e.journal .rolledBack [("reason", reason)]) (fun _ => A .rolling) F) :
    Triple P (e.rollbackOutcome reason)
      (fun outcome s => outcome = .rolledBack reason ∧ A (.rest (some .rolledBack)) s) F := by
  unfold Engine.rollbackOutcome
  exact Triple.bind (h.rollback_triple hj) fun _ => Triple.pure fun _ hs => ⟨rfl, hs⟩

/-- **Recovery**: from any journal tail, a recovery that returns leaves no open
transaction. -/
theorem RecoverOutline.recover_triple (h : RecoverOutline e A F) :
    Triple (A .entry) e.recover (fun _ s => ∃ ended, A (.rest ended) s) F := by
  unfold Engine.recover
  refine Triple.bind h.read fun entries => ?_
  refine Triple.bind (R := fun _ => A (.opened (lastIntent entries)))
    (Triple.modify fun _ hs => hs) fun _ => ?_
  refine Triple.bind (h.fence _) fun _ => ?_
  have rest : ∀ {m : Prog Error (Running σ) Unit} {tail : Option Phase} {phase : Phase},
      Triple (A (.fenced tail)) m (fun _ => A (.rest (some phase))) F →
      Triple (A (.fenced tail)) m (fun _ s => ∃ ended, A (.rest ended) s) F :=
    fun ht => ht.post fun _ _ hs => ⟨_, hs⟩
  cases htail : lastIntent entries with
  | none => exact Triple.pure fun s hs => ⟨none, h.idle s (.inl hs)⟩
  | some tail =>
      cases tail with
      | idle => exact Triple.pure fun s hs => ⟨none, h.idle s (.inr hs)⟩
      | staged => exact rest (h.withdraw_triple (h.withdraw _))
      | handingOver => exact rest (h.rollback_triple (h.abandon _ _ (.inl rfl)))
      | runningExperiment => exact rest (h.rollback_triple (h.abandon _ _ (.inr (.inl rfl))))
      | readback => exact rest (h.rollback_triple (h.abandon _ _ (.inr (.inr rfl))))
      | promoted => exact rest (h.commit_triple.pre h.commit)
      | rolledBack => exact rest (h.restart_triple.pre h.redo)

/-- What an upgrade leaves for each of its outcomes. -/
def upgradeEnds (version : String) (A : Point → Running σ → Prop) :
    EngineOutcome → Running σ → Prop
  | .promoted v, s => v = version ∧ A (.rest (some .promoted)) s
  | .rolledBack _, s => A (.rest (some .rolledBack)) s
  | .upToDate, s => A (.surveyed version) s

variable {version : String} {bytes : Path}

/-- The first probe: an answer, a definite failure, or the end of the upgrade. -/
theorem UpgradeOutline.probePrior_triple (h : UpgradeOutline e version bytes A F)
    {stable : String} (hne : stable ≠ version) :
    Triple (A (.surveyed stable)) e.probePrior (fun prior => A (.probed stable prior)) F := by
  unfold Engine.probePrior
  refine Triple.bind (R := fun reply s => Caught (fun evidence => A (.probed stable (some evidence)))
    (fun err => probeFailed (A (.probed stable none)) F (some err)) reply s) ?_ ?_
  · exact Triple.attempt ((h.probe stable hne).conseq (fun _ hs => hs) (fun _ _ hs => hs)
      fun err s hs => by cases err <;> exact hs)
  · rintro (err | evidence)
    · by_cases hu : err.isUncertain
      · simp only [hu, if_true, Caught, probeFailed]
        exact Triple.throw fun _ hs => hs
      · simp only [hu, Caught, probeFailed]
        exact Triple.pure fun _ hs => hs
    · exact Triple.pure fun _ hs => hs

/-- From the staged intent to a started candidate. -/
theorem UpgradeOutline.handOver_triple (h : UpgradeOutline e version bytes A F)
    {stable : String} (hne : stable ≠ version) (prior : Option Evidence) :
    Triple (A (.probed stable prior)) (e.handOver version bytes prior)
      (fun _ => A (.running prior)) F := by
  unfold Engine.handOver
  refine Triple.bind (h.journalStaged stable prior hne) fun _ => ?_
  refine Triple.bind (h.stage prior) fun _ => ?_
  refine Triple.bind (h.journalHandingOver prior) fun _ => ?_
  refine Triple.bind (h.quiesce prior) fun _ => ?_
  refine Triple.bind (h.stopStable prior) fun _ => ?_
  refine Triple.bind (h.startExperiment prior) fun _ => ?_
  exact h.journalRunning prior

/-- A rolled-back outcome is one of the ends of an upgrade. -/
theorem RollbackOutline.upgradeEnds_rollback (h : RollbackOutline e A F) {P : Running σ → Prop}
    {reason : String}
    (hj : Triple P (e.journal .rolledBack [("reason", reason)]) (fun _ => A .rolling) F) :
    Triple P (e.rollbackOutcome reason) (upgradeEnds version A) F :=
  (h.rollbackOutcome_triple hj).post fun outcome s ⟨ho, hs⟩ => by
    subst ho
    exact hs

/-- From the candidate's evidence to the outcome. -/
theorem UpgradeOutline.judge_triple (h : UpgradeOutline e version bytes A F)
    (prior : Option Evidence) (evidence : Evidence) :
    Triple (A (.live prior evidence)) (e.judge version prior evidence)
      (upgradeEnds version A) F := by
  unfold Engine.judge
  refine Triple.bind (h.journalReadback prior evidence) fun _ => ?_
  split
  · exact h.upgradeEnds_rollback (h.refused prior evidence _)
  · next hstale =>
      have hfresh : ∀ p, prior = some p → p.startId ≠ evidence.startId := by
        intro p hp heq
        apply hstale
        simp [hp, heq]
      refine Triple.pre ?_ (fun s hs => h.replaced prior evidence s hfresh hs)
      refine Triple.bind (h.evaluate prior evidence) fun verdict => ?_
      cases verdict with
      | some reason => exact h.upgradeEnds_rollback (h.refused prior evidence _)
      | none =>
          refine Triple.bind (h.journalPromoted prior evidence) fun _ => ?_
          refine Triple.bind h.promote fun _ => ?_
          refine Triple.bind h.resume fun _ => ?_
          exact Triple.pure fun _ hs => ⟨rfl, hs⟩

/-- **Upgrade**: from a state without an open transaction, through every way an
upgrade can end. -/
theorem UpgradeOutline.upgrade_triple (h : UpgradeOutline e version bytes A F) :
    Triple (A (.rest none)) (e.upgrade version bytes) (upgradeEnds version A) F := by
  unfold Engine.upgrade
  refine Triple.bind h.survey fun versions => ?_
  rw [show (versions.lookup "stable").join = stableOf versions from rfl]
  cases hstable : stableOf versions with
  | none => exact Triple.throw fun _ hs => hs
  | some stable =>
      by_cases hv : stable = version
      · subst hv
        simp only [if_true]
        exact Triple.pure fun _ hs => hs
      · simp only [hv, if_false]
        refine Triple.bind (h.probePrior_triple hv) fun prior => ?_
        refine Triple.bind (h.handOver_triple hv prior) fun _ => ?_
        refine Triple.bind (R := fun reply s => Caught (fun evidence => A (.live prior evidence))
          (fun err => probeFailed (A (.running prior)) F (some err)) reply s) ?_ ?_
        · exact Triple.attempt ((h.probeLive prior).conseq (fun _ hs => hs) (fun _ _ hs => hs)
            fun err s hs => by cases err <;> exact hs)
        · rintro (err | evidence)
          · by_cases hu : err.isUncertain
            · simp only [hu, if_true, Caught, probeFailed]
              exact Triple.throw fun _ hs => hs
            · simp only [hu, Caught, probeFailed]
              exact h.upgradeEnds_rollback (h.silent prior _)
          · exact h.judge_triple prior evidence

end Flow

/-! ## what every call keeps -/

/-- A call keeps `I`, however it ends. -/
def Keeps {α : Type} (I : σ → Prop) (m : Prog Error σ α) : Prop :=
  Triple I m (fun _ => I) (fun _ => I)

/-- What a program keeps, it keeps when its error is caught. -/
theorem Keeps.attempt {α : Type} {I : σ → Prop} {m : Prog Error σ α} (h : Keeps I m) :
    Keeps I (Prog.attempt m) :=
  Triple.attempt (h.conseq (fun _ hs => hs) (fun _ _ hs => hs) fun e _ hs => by
    cases e <;> exact hs)

/-- `I` of the world of a running engine. -/
def OnWorld (I : σ → Prop) (r : Running σ) : Prop := I r.world

/-- What a journal is refused with says that it is invalid. -/
theorem validateAll_error {es : List JournalEntry} {e : Error} (h : validateAll es = .error e) :
    ∃ message, e = .invalid message := by
  induction es with
  | nil => cases h
  | cons entry es ih =>
      unfold validateAll JournalEntry.validate at h
      split at h
      · exact ih h
      · next err hv =>
          cases h
          split at hv
          · cases hv
            exact ⟨_, rfl⟩
          · cases hv

/-- What a budgeted call leaves: `I` with a reply, and the end of the engine without. -/
def Replied {α : Type} (I : σ → Prop) (F : Option Error → σ → Prop) (reply : Option α) (s : σ) :
    Prop :=
  match reply with
  | some _ => I s
  | none => ∀ message, F (some (.uncertain message)) s

/-- Every call an engine makes returns in `I` or is cut off in `F`, where the journal is
given the intents an engine has and no others.  An engine goes on after a definite failure,
so that has to leave `I`. -/
structure Encloses (e : Engine σ) (I : σ → Prop) (F : Option Error → σ → Prop) : Prop where
  definite : ∀ err s, err.isUncertain = false → F (some err) s → I s
  invalid : ∀ message s, I s → F (some (.invalid message)) s
  readJournal : Triple I e.effects.readJournal (fun _ => I) F
  journal : ∀ intent detail, intent ≠ .idle → Triple (OnWorld I) (e.journal intent detail)
    (fun _ => OnWorld I) (fun err => OnWorld (F err))
  versions : Triple I e.effects.versions (fun _ => I) F
  stage : ∀ version bytes, Triple I (e.effects.stage version bytes) (fun _ => I) F
  promote : Triple I e.effects.promote (fun _ => I) F
  clear : Triple I e.effects.clear (fun _ => I) F
  fence : Triple I e.host.fence (Replied I F) F
  quiesce : Triple I e.host.quiesce (Replied I F) F
  stop : ∀ slot, Triple I (e.host.stop slot) (Replied I F) F
  start : ∀ slot, Triple I (e.host.start slot) (Replied I F) F
  probe : Triple I e.host.probe (Replied I F) F
  resume : Triple I e.host.resume (Replied I F) F
  evaluate : ∀ evidence target, Triple I (e.predicates.evaluate evidence target) (Replied I F) F

/-- Every call an engine makes returns in `I` or is cut off in `F`, whatever entry the
journal is given. -/
structure Confined (e : Engine σ) (I : σ → Prop) (F : Option Error → σ → Prop) : Prop where
  definite : ∀ err s, err.isUncertain = false → F (some err) s → I s
  invalid : ∀ message s, I s → F (some (.invalid message)) s
  readJournal : Triple I e.effects.readJournal (fun _ => I) F
  append : ∀ entry, Triple I (e.effects.append entry) (fun _ => I) F
  versions : Triple I e.effects.versions (fun _ => I) F
  stage : ∀ version bytes, Triple I (e.effects.stage version bytes) (fun _ => I) F
  promote : Triple I e.effects.promote (fun _ => I) F
  clear : Triple I e.effects.clear (fun _ => I) F
  fence : Triple I e.host.fence (Replied I F) F
  quiesce : Triple I e.host.quiesce (Replied I F) F
  stop : ∀ slot, Triple I (e.host.stop slot) (Replied I F) F
  start : ∀ slot, Triple I (e.host.start slot) (Replied I F) F
  probe : Triple I e.host.probe (Replied I F) F
  resume : Triple I e.host.resume (Replied I F) F
  evaluate : ∀ evidence target, Triple I (e.predicates.evaluate evidence target) (Replied I F) F

namespace Confined

variable {α : Type} {e : Engine σ} {I : σ → Prop} {F : Option Error → σ → Prop}

/-- A program on the world, from inside the engine. -/
theorem lift {m : Prog Error σ α} {Q : α → σ → Prop} (h : Triple I m Q F) :
    Triple (OnWorld I) (Running.lift m) (fun a => OnWorld (Q a)) (fun err => OnWorld (F err)) :=
  Triple.zoom fun r hr => (h r.world hr).mono (fun _ _ hs => hs) fun _ _ hs => hs

/-- A call of the host that replies or is cut off. -/
theorem bounded {P : σ → Prop} {label : String} {call : HostCall σ α}
    (h : Triple P call (Replied I F) F) :
    Triple (OnWorld P) (Engine.bounded label call) (fun _ => OnWorld I) (fun err => OnWorld (F err)) := by
  unfold Engine.bounded
  refine Triple.bind (lift h) fun reply => ?_
  cases reply with
  | some a => exact Triple.pure fun _ hs => hs
  | none => exact Triple.throw fun _ hs => hs _

/-- Journaling an intent. -/
theorem journal (h : Confined e I F) (intent : Phase) (detail : Detail) :
    Triple (OnWorld I) (e.journal intent detail) (fun _ => OnWorld I) (fun err => OnWorld (F err)) := by
  unfold Engine.journal
  refine Triple.bind (R := fun _ => OnWorld I) (Triple.get fun _ hs => hs) fun r => ?_
  exact Triple.bind (lift (h.append _)) fun _ => Triple.modify fun _ hs => hs

/-- Calls that confine themselves to `I` enclose it. -/
theorem encloses (h : Confined e I F) : Encloses e I F where
  definite := h.definite
  invalid := h.invalid
  readJournal := h.readJournal
  journal intent detail _ := h.journal intent detail
  versions := h.versions
  stage := h.stage
  promote := h.promote
  clear := h.clear
  fence := h.fence
  quiesce := h.quiesce
  stop := h.stop
  start := h.start
  probe := h.probe
  resume := h.resume
  evaluate := h.evaluate

end Confined

namespace Encloses

variable {e : Engine σ} {I : σ → Prop} {F : Option Error → σ → Prop}

/-- Reading the journal. -/
theorem readEntries (h : Encloses e I F) :
    Triple (OnWorld I) e.readEntries (fun _ => OnWorld I) (fun err => OnWorld (F err)) := by
  unfold Engine.readEntries
  refine Triple.bind (Confined.lift h.readJournal) fun entries => ?_
  refine Triple.bind (R := fun _ => OnWorld I) (Triple.ofExcept (fun _ _ _ hs => hs) ?_) fun _ =>
    Triple.pure fun _ hs => hs
  intro err s herr hs
  obtain ⟨message, rfl⟩ := validateAll_error herr
  exact h.invalid message _ hs

/-- Looking at a settled journal. -/
theorem observeSettled (h : Encloses e I F) :
    Triple (OnWorld I) e.observeSettled (fun _ => OnWorld I) (fun err => OnWorld (F err)) := by
  unfold Engine.observeSettled
  refine Triple.bind h.readEntries fun entries => ?_
  have hset : ∀ n, Triple (OnWorld I) (setSeq n : Prog Error (Running σ) Unit)
      (fun _ => OnWorld I) (fun err => OnWorld (F err)) := fun n => Triple.modify fun _ hs => hs
  cases entries.getLast? with
  | none => exact hset _
  | some last =>
      exact Triple.ite (fun _ => hset _) fun _ => Triple.throw fun _ hs => h.invalid _ _ hs

/-- The outline of recovery, with one assertion at all its points. -/
theorem recoverOutline (h : Encloses e I F) :
    RecoverOutline e (fun _ => OnWorld I) (fun err => OnWorld (F err)) where
  stop := Confined.bounded (h.stop _)
  start := Confined.bounded (h.start _)
  resumed := Confined.bounded h.resume
  clear := Confined.lift h.clear
  promote := Confined.lift h.promote
  resume := Confined.bounded h.resume
  read := h.readEntries
  fence _ := Confined.bounded h.fence
  idle _ hs := hs.elim id id
  commit _ hs := hs
  redo _ hs := hs
  withdraw _ := h.journal _ _ (by decide)
  abandon _ _ _ := h.journal _ _ (by decide)

/-- **Recovery**, by what its calls keep and say. -/
theorem recover (h : Encloses e I F) :
    Triple (OnWorld I) e.recover (fun _ => OnWorld I) (fun err => OnWorld (F err)) :=
  h.recoverOutline.recover_triple.post fun _ _ ⟨_, hs⟩ => hs

/-- A probe that failed for certain goes on. -/
theorem probe_triple (h : Encloses e I F) :
    Triple (OnWorld I) (Engine.bounded "probe" e.host.probe) (fun _ => OnWorld I)
      (probeFailed (OnWorld I) (fun err => OnWorld (F err))) := by
  refine (Confined.bounded h.probe).conseq (fun _ hs => hs) (fun _ _ hs => hs) fun err s hs => ?_
  cases err with
  | none => exact hs
  | some err =>
      cases hu : err.isUncertain with
      | true =>
          simp only [probeFailed, hu, if_true]
          exact hs
      | false =>
          simp only [probeFailed, hu]
          exact h.definite err s.world hu hs

/-- The outline of an upgrade, with one assertion at all its points. -/
theorem upgradeOutline (h : Encloses e I F) (version : String) (bytes : Path) :
    UpgradeOutline e version bytes (fun _ => OnWorld I) (fun err => OnWorld (F err)) where
  toRollbackOutline := h.recoverOutline.toRollbackOutline
  toCommitOutline := h.recoverOutline.toCommitOutline
  survey := (Confined.lift h.versions).post fun versions s hs => by
    cases stableOf versions with
    | none => exact h.invalid _ _ hs
    | some stable => exact hs
  probe _ _ := h.probe_triple
  journalStaged _ _ _ := h.journal _ _ (by decide)
  stage _ := Confined.lift (h.stage _ _)
  journalHandingOver _ := h.journal _ _ (by decide)
  quiesce _ := Confined.bounded h.quiesce
  stopStable _ := Confined.bounded (h.stop _)
  startExperiment _ := Confined.bounded (h.start _)
  journalRunning _ := h.journal _ _ (by decide)
  probeLive _ := h.probe_triple
  journalReadback _ _ := h.journal _ _ (by decide)
  replaced _ _ _ _ hs := hs
  evaluate _ _ := (Confined.bounded (h.evaluate _ _)).post fun verdict s hs => by
    cases verdict <;> exact hs
  journalPromoted _ _ := h.journal _ _ (by decide)
  silent _ _ := h.journal _ _ (by decide)
  refused _ _ _ := h.journal _ _ (by decide)

/-- **An upgrade**, by what its calls keep and say. -/
theorem upgrade (h : Encloses e I F) (version : String) (bytes : Path) :
    Triple (OnWorld I) (e.upgrade version bytes) (fun _ => OnWorld I) (fun err => OnWorld (F err)) :=
  (h.upgradeOutline version bytes).upgrade_triple.post fun outcome s hs => by
    cases outcome with
    | promoted v => exact hs.2
    | rolledBack reason => exact hs
    | upToDate => exact hs

end Encloses

/-- Every call an engine makes keeps `I`. -/
structure Frame (e : Engine σ) (I : σ → Prop) : Prop where
  readJournal : Keeps I e.effects.readJournal
  append : ∀ entry, Keeps I (e.effects.append entry)
  versions : Keeps I e.effects.versions
  stage : ∀ version bytes, Keeps I (e.effects.stage version bytes)
  promote : Keeps I e.effects.promote
  clear : Keeps I e.effects.clear
  fence : Keeps I e.host.fence
  quiesce : Keeps I e.host.quiesce
  stop : ∀ slot, Keeps I (e.host.stop slot)
  start : ∀ slot, Keeps I (e.host.start slot)
  probe : Keeps I e.host.probe
  resume : Keeps I e.host.resume
  evaluate : ∀ evidence target, Keeps I (e.predicates.evaluate evidence target)

/-- A program that keeps `I`, from inside the engine. -/
theorem Keeps.lift {α : Type} {I : σ → Prop} {m : Prog Error σ α} (h : Keeps I m) :
    Keeps (OnWorld I) (Running.lift m) :=
  Triple.zoom fun r hr => (h r.world hr).mono (fun _ _ hs => hs) (fun _ _ hs => hs)

/-- A call of the host that keeps `I`, whatever it replies. -/
theorem Keeps.replied {α : Type} {I : σ → Prop} {call : HostCall σ α} (h : Keeps I call) :
    Triple I call (Replied I fun _ => I) (fun _ => I) :=
  h.post fun reply s hs => by
    cases reply with
    | some a => exact hs
    | none => exact fun _ => hs

/-- A call of the host within its budget. -/
theorem Keeps.bounded {α : Type} {I : σ → Prop} {label : String} {call : HostCall σ α}
    (h : Keeps I call) : Keeps (OnWorld I) (Engine.bounded label call) := Confined.bounded h.replied

/-- What no append is about, no intent is. -/
theorem Keeps.journal {e : Engine σ} {I : σ → Prop} (h : ∀ entry, Keeps I (e.effects.append entry))
    (intent : Phase) (detail : Detail) : Keeps (OnWorld I) (e.journal intent detail) := by
  unfold Engine.journal
  refine Triple.bind (R := fun _ => OnWorld I) (Triple.get fun _ hs => hs) fun _ => ?_
  exact Triple.bind (Keeps.lift (h _)) fun _ => Triple.modify fun _ hs => hs

/-- A call that moves along `R` keeps what `R` keeps. -/
theorem Keeps.of_moves {α : Type} {R : σ → σ → Prop} {I : σ → Prop} {m : Prog Error σ α}
    (hrefl : ∀ s, R s s) (hI : ∀ s s', R s s' → I s → I s') (h : ∀ s, Keeps (R s) m) :
    Keeps I m :=
  fun s hs => (h s s (hrefl s)).mono (fun _ s' hr => hI s s' hr hs) fun _ s' hr => hI s s' hr hs

namespace Frame

variable {e : Engine σ} {I : σ → Prop}

/-- An engine whose calls move along `R` keeps what `R` keeps. -/
theorem of_moves {R : σ → σ → Prop} (hrefl : ∀ s, R s s) (hI : ∀ s s', R s s' → I s → I s')
    (h : ∀ s, Frame e (R s)) : Frame e I where
  readJournal := Keeps.of_moves hrefl hI fun s => (h s).readJournal
  append entry := Keeps.of_moves hrefl hI fun s => (h s).append entry
  versions := Keeps.of_moves hrefl hI fun s => (h s).versions
  stage version bytes := Keeps.of_moves hrefl hI fun s => (h s).stage version bytes
  promote := Keeps.of_moves hrefl hI fun s => (h s).promote
  clear := Keeps.of_moves hrefl hI fun s => (h s).clear
  fence := Keeps.of_moves hrefl hI fun s => (h s).fence
  quiesce := Keeps.of_moves hrefl hI fun s => (h s).quiesce
  stop slot := Keeps.of_moves hrefl hI fun s => (h s).stop slot
  start slot := Keeps.of_moves hrefl hI fun s => (h s).start slot
  probe := Keeps.of_moves hrefl hI fun s => (h s).probe
  resume := Keeps.of_moves hrefl hI fun s => (h s).resume
  evaluate evidence target := Keeps.of_moves hrefl hI fun s => (h s).evaluate evidence target

/-- A frame confines the engine's calls. -/
theorem confined (h : Frame e I) : Confined e I (fun _ => I) where
  definite _ _ _ hs := hs
  invalid _ _ hs := hs
  readJournal := h.readJournal
  append := h.append
  versions := h.versions
  stage := h.stage
  promote := h.promote
  clear := h.clear
  fence := h.fence.replied
  quiesce := h.quiesce.replied
  stop slot := (h.stop slot).replied
  start slot := (h.start slot).replied
  probe := h.probe.replied
  resume := h.resume.replied
  evaluate evidence target := (h.evaluate evidence target).replied

/-- Looking at a settled journal keeps the frame. -/
theorem observeSettled (h : Frame e I) : Keeps (OnWorld I) e.observeSettled :=
  h.confined.encloses.observeSettled

/-- So does recovery. -/
theorem recover (h : Frame e I) : Keeps (OnWorld I) e.recover := h.confined.encloses.recover

/-- So does an upgrade. -/
theorem upgrade (h : Frame e I) (version : String) (bytes : Path) :
    Keeps (OnWorld I) (e.upgrade version bytes) := h.confined.encloses.upgrade version bytes

/-- So does the opening of an engine, either way. -/
theorem opened (h : Frame e I) (opening : Opening) : Keeps (OnWorld I) (e.opened opening) := by
  cases opening with
  | recover => exact h.recover
  | observeSettled => exact h.observeSettled

/-- So does any call. -/
theorem call (h : Frame e I) (c : EngineCall) : Keeps (OnWorld I) (e.call c) := by
  cases c with
  | recover => exact h.recover
  | upgrade version bytes =>
      exact Triple.bind (h.upgrade version bytes) fun _ => Triple.pure fun _ hs => hs

end Frame

/-- Whatever a call that keeps `I` ended with, `I` holds of what it left. -/
theorem Keeps.run {α : Type} {I : σ → Prop} {m : Prog Error σ α} (h : Keeps I m) {s : σ}
    (hs : I s) : I (m s).2 := by
  have hend := h s hs
  generalize m s = o at hend ⊢
  obtain ⟨o, t⟩ := o
  cases o with
  | ok a => exact hend
  | err e => exact hend
  | crash => exact hend

/-! ## what every call raises -/

/-- Every call an engine makes fails with errors of the kind `p` only, and so do its own
checks. -/
structure Calls (e : Engine σ) (p : Error → Prop) : Prop where
  invalid : ∀ message, p (.invalid message)
  uncertain : ∀ message, p (.uncertain message)
  readJournal : Raises p e.effects.readJournal
  append : ∀ entry, Raises p (e.effects.append entry)
  versions : Raises p e.effects.versions
  stage : ∀ version bytes, Raises p (e.effects.stage version bytes)
  promote : Raises p e.effects.promote
  clear : Raises p e.effects.clear
  fence : Raises p e.host.fence
  quiesce : Raises p e.host.quiesce
  stop : ∀ slot, Raises p (e.host.stop slot)
  start : ∀ slot, Raises p (e.host.start slot)
  probe : Raises p e.host.probe
  resume : Raises p e.host.resume
  evaluate : ∀ evidence target, Raises p (e.predicates.evaluate evidence target)

namespace Calls

variable {e : Engine σ} {p : Error → Prop} {α : Type}

/-- A program on the world raises what it does. -/
theorem lift {m : Prog Error σ α} (hm : Raises p m) : Raises p (Running.lift m) := Raises.zoom hm

/-- A call of the host raises what it does. -/
theorem replied (h : Calls e p) {call : HostCall σ α} (hcall : Raises p call) :
    Triple (fun _ => True) call (Replied (fun _ => True) fun err _ => Kind p err)
      (fun err _ => Kind p err) :=
  hcall.post fun reply s _ => by
    cases reply with
    | some a => trivial
    | none => exact fun message => kind_some.mpr (h.uncertain message)

/-- The engine's calls raise errors of the kind. -/
theorem confined (h : Calls e p) : Confined e (fun _ => True) (fun err _ => Kind p err) where
  definite _ _ _ _ := trivial
  invalid message _ _ := kind_some.mpr (h.invalid message)
  readJournal := h.readJournal
  append := h.append
  versions := h.versions
  stage := h.stage
  promote := h.promote
  clear := h.clear
  fence := h.replied h.fence
  quiesce := h.replied h.quiesce
  stop slot := h.replied (h.stop slot)
  start slot := h.replied (h.start slot)
  probe := h.replied h.probe
  resume := h.replied h.resume
  evaluate evidence target := h.replied (h.evaluate evidence target)

/-- Looking at a settled journal raises what its calls do. -/
theorem observeSettled (h : Calls e p) : Raises p e.observeSettled :=
  h.confined.encloses.observeSettled

/-- So does recovery. -/
theorem recover (h : Calls e p) : Raises p e.recover := h.confined.encloses.recover

/-- So does an upgrade. -/
theorem upgrade (h : Calls e p) (version : String) (bytes : Path) :
    Raises p (e.upgrade version bytes) := h.confined.encloses.upgrade version bytes

end Calls

/-! ## the life of an engine -/

/-- What is proved once about each call of an engine: `E` holds of an engine that
may be opened, `R` of one that was, and every state an engine can be dropped in
satisfies `I`, which a new engine may start from. -/
structure SessionOutline (e : Engine σ) (E R : Running σ → Prop) (I : σ → Prop) : Prop where
  create : ∀ w, I w → E ⟨w, 0⟩
  reopen : ∀ s, R s → E s
  drop : ∀ s, R s → I s.world
  recover : Triple E e.recover (fun _ => R) (fun _ s => I s.world)
  upgrade : ∀ version bytes, Triple R (e.upgrade version bytes) (fun _ => R)
    (fun _ s => I s.world)

namespace SessionOutline

variable {e : Engine σ} {E R : Running σ → Prop} {I : σ → Prop}

/-- The calls of an opened engine keep it open, or drop it in a state of `I`. -/
theorem calls_triple (h : SessionOutline e E R I) (cs : List EngineCall) :
    Triple R (e.calls cs) (fun _ => R) (fun _ s => I s.world) := by
  induction cs with
  | nil => exact Triple.pure fun _ hs => hs
  | cons c cs ih =>
      refine Triple.bind (R := fun _ => R) ?_ fun _ => ih
      cases c with
      | recover => exact h.recover.pre h.reopen
      | upgrade version bytes =>
          exact Triple.bind (h.upgrade version bytes) fun _ => Triple.pure fun _ hs => hs

/-- **Sessions**: whatever an opened engine is asked to do, and wherever it is cut
off, it leaves a world of `I`. -/
theorem session_of_opened (h : SessionOutline e E R I) {opening : Opening}
    (hopen : Triple E (e.opened opening) (fun _ => R) (fun _ s => I s.world))
    (cs : List EngineCall) (w : σ) (hw : I w) : I (e.session opening cs w) := by
  have ht : Triple E (e.opened opening >>= fun _ => e.calls cs) (fun _ => R)
      (fun _ s => I s.world) :=
    Triple.bind hopen fun _ => h.calls_triple cs
  have hend := ht ⟨w, 0⟩ (h.create w hw)
  unfold Engine.session
  generalize (e.opened opening >>= fun _ => e.calls cs) ⟨w, 0⟩ = r at hend ⊢
  obtain ⟨r, s⟩ := r
  cases r with
  | ok u => exact h.drop s hend
  | err err => exact hend
  | crash => exact hend

/-- **The life of an engine** keeps the invariant. -/
theorem session_invariant (h : SessionOutline e E R I) (cs : List EngineCall) (w : σ)
    (hw : I w) : I (e.session .recover cs w) := by
  have hopen : Triple E (e.opened .recover) (fun _ => R) (fun _ s => I s.world) := h.recover
  exact h.session_of_opened hopen cs w hw

end SessionOutline

/-- What every call keeps however it ends, the life of an engine keeps. -/
theorem Encloses.session {e : Engine σ} {I : σ → Prop} (h : Encloses e I fun _ => I)
    (opening : Opening) (cs : List EngineCall) {w : σ} (hw : I w) :
    I (e.session opening cs w) := by
  have hlife : SessionOutline e (OnWorld I) (OnWorld I) I :=
    { create := fun _ hw => hw
      reopen := fun _ hs => hs
      drop := fun _ hs => hs
      recover := h.recover
      upgrade := fun version bytes => h.upgrade version bytes }
  cases opening with
  | recover => exact hlife.session_invariant cs w hw
  | observeSettled =>
      have hopen : Triple (OnWorld I) (e.opened .observeSettled) (fun _ => OnWorld I)
          (fun _ s => I s.world) := h.observeSettled
      exact hlife.session_of_opened hopen cs w hw

end KCarrier
