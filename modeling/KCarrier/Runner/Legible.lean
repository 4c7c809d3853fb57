import KCarrier.Runner.Failures
import KCarrier.Runner.Journaled
import KCarrier.Runner.Slots
import KCarrier.Runner.Truth

/-!
# KCarrier.Runner.Legible

Whether the state of the transaction can be read.

The reader expects a complete candidate on trial while the last intent is in flight.  Every
intent but the first is written when the candidate is there, and the candidate is cleared
after the intent that closes its transaction; but the staged intent is written before the
candidate is put on trial.  `CutsStaging` is a call that is cut off in between, and
`transaction_legible` says that no other call leaves a directory that cannot be read.
-/

namespace KCarrier

open Crash
open Running

/-! ## what the reader expects -/

/-- The version the last intent in flight names is the one on trial. -/
def Disk.Names (d : Disk) (es : List JournalEntry) : Prop :=
  ∀ last, es.getLast? = some last → last.intent.atRest = false →
    ∃ version, last.detail.get "version" = some version ∧
      d.version .experiment = .ok (some (trim version))

/-- The stable slot is complete or not there. -/
def Disk.StableReads (d : Disk) : Prop := ∃ version, d.version .stable = .ok version

/-- The state of the transaction can be read, and what is on trial is what the journal says. -/
def Disk.Legible (d : Disk) : Prop :=
  d.StableReads ∧ ∃ es, d.readJournal = .ok es ∧ d.Names es

/-- A journal at rest names nothing. -/
theorem Disk.names_of_atRest {d : Disk} {es : List JournalEntry} (h : AtRest es) : d.Names es := by
  intro last hlast hbusy
  rw [h last.intent (by simp [lastIntent, hlast])] at hbusy
  cases hbusy

/-- At rest nothing is shown on trial. -/
theorem TxnState.experiment_of_atRest {state : TxnState} (h : state.phase.atRest = true) :
    state.experiment = none := by
  cases state with
  | idle | promoted | rolledBack => rfl
  | staged | handingOver | runningExperiment | readback => cases h

/-- An in-flight phase shows what is on trial. -/
theorem stateAfter_inFlight {d : Disk} {stable version : String} {last : JournalEntry}
    (hbusy : last.intent.atRest = false) (h : d.version .experiment = .ok (some version)) :
    ∃ state, d.stateAfter stable (some last) = .ok state ∧ state.experiment = some version := by
  have hflight : ∀ f : String → TxnState, inFlight d f = .ok (f version) := by
    intro f
    unfold inFlight
    rw [h]
  simp only [Disk.stateAfter]
  cases hintent : last.intent with
  | idle | promoted | rolledBack =>
      rw [hintent] at hbusy
      cases hbusy
  | staged => exact ⟨_, hflight _, rfl⟩
  | handingOver => exact ⟨_, hflight _, rfl⟩
  | runningExperiment => exact ⟨_, hflight _, rfl⟩
  | readback => exact ⟨_, hflight _, rfl⟩

/-- What the reader makes of a legible directory. -/
theorem Disk.Legible.transactionState {d : Disk} (h : d.Legible) :
    ∃ state, d.transactionState = .ok state ∧ ∀ shown, state.experiment = some shown →
      ∃ es last version, d.readJournal = .ok es ∧ es.getLast? = some last ∧
        last.detail.get "version" = some version ∧ shown = trim version := by
  obtain ⟨⟨stable, hstable⟩, es, hread, hnames⟩ := h
  have hstate : d.transactionState = d.stateAfter (stable.getD "0.0.0") es.getLast? := by
    unfold Disk.transactionState
    rw [hread, hstable]
  rw [hstate]
  let text := stable.getD "0.0.0"
  by_cases hrest : ∀ p, es.getLast?.map (·.intent) = some p → p.atRest = true
  · obtain ⟨state, hok⟩ : ∃ state, d.stateAfter text es.getLast? = .ok state :=
      stateAfter_atRest hrest
    refine ⟨state, hok, fun shown hshown => ?_⟩
    have hphase : state.phase.atRest = true := by
      rw [(stateAfter_ok hok).2]
      cases hlast : es.getLast?.map (·.intent) with
      | none => rfl
      | some p => exact hrest p hlast
    rw [TxnState.experiment_of_atRest hphase] at hshown
    cases hshown
  · cases hlast : es.getLast? with
    | none => exact absurd (fun p hp => by simp [hlast] at hp) hrest
    | some last =>
        have hbusy : last.intent.atRest = false := by
          cases hp : last.intent.atRest with
          | false => rfl
          | true => exact absurd (fun p h => by simp [hlast] at h; rw [← h]; exact hp) hrest
        obtain ⟨version, hdetail, hversion⟩ := hnames last hlast hbusy
        obtain ⟨state, hok, hexperiment⟩ : ∃ state, d.stateAfter text (some last) = .ok state ∧
            state.experiment = some (trim version) := stateAfter_inFlight hbusy hversion
        refine ⟨state, hok, fun shown hshown => ⟨es, last, version, hread, hlast, hdetail, ?_⟩⟩
        rw [hexperiment, Option.some.injEq] at hshown
        exact hshown.symm

/-! ## the slots -/

namespace FileStore

variable {η γ : Type} {s : FileStore} {I : World η γ → Prop} {J : Disk → Prop}

/-- The stable slot reads as it did when another slot is replaced. -/
theorem stableReads_setSlot {d : Disk} (h : d.StableReads) {place : Place} (node : Node)
    (hne : place ≠ .stable) : (d.setSlot place node).StableReads := by
  obtain ⟨version, hversion⟩ := h
  exact ⟨version, by rw [Disk.version_setSlot_of_ne d node hne.symm]; exact hversion⟩

/-- A promotion never leaves half a stable slot. -/
theorem promote_stableReads (hI : Aside I) (hJ : OffSlots J) :
    Keeps (Over (fun d => J d ∧ d.StableReads) I) s.promote := by
  have hbackup : ∀ {D : Disk → Prop}, (∀ d node, D d → D (d.setSlot .stableOld node)) →
      Keeps (Over D I) (s.removeDir .stableOld) := fun hD => removeDir_elsewhere hI hD
  have hkept : ∀ (d : Disk) node, J d ∧ d.StableReads →
      J (d.setSlot .stableOld node) ∧ (d.setSlot .stableOld node).StableReads :=
    fun d node h => ⟨hJ d _ node h.1, FileStore.stableReads_setSlot h.2 node (by simp)⟩
  let Waiting : String → Disk → Prop := fun v d =>
    (J d ∧ d.StableReads) ∧ d.version .experiment = .ok (some v)
  have hwaiting : ∀ v d node, Waiting v d → Waiting v (d.setSlot .stableOld node) :=
    fun v d node h => ⟨hkept d node h.1, by
      rw [Disk.version_setSlot_of_ne d node (by simp)]
      exact h.2⟩
  have hdrop : ∀ v (w : World η γ), Over (Waiting v) I w →
      Over (fun d => J d ∧ d.StableReads) I w := fun v w h => ⟨h.1.1, h.2⟩
  have hpark : ∀ v, Keeps (Over (Waiting v) I) (s.renameDurable .stable .stableOld) := by
    refine fun v => write_clean_keeps hI fun d h => ⟨⟨hJ _ _ _ (hJ _ _ _ h.1.1), none, ?_⟩, ?_⟩
    · exact Disk.version_of_absent (Disk.setSlot_self _ _ _)
    · rw [Disk.version_setSlot_of_ne _ _ (by simp), Disk.version_setSlot_of_ne _ _ (by simp)]
      exact h.2
  have hswap : ∀ v, Triple (Over (Waiting v) I) (s.renameDurable .experiment .stable)
      (fun _ => Over (fun d => J d ∧ d.StableReads) I)
      (fun _ => Over (fun d => J d ∧ d.StableReads) I) := by
    refine fun v => Triple.crash (renameDurable_triple (fun _ => trivial : _ → True) hI
      fun d h => ⟨hJ _ _ _ (hJ _ _ _ h.1.1), some v, ?_⟩)
      fun w h => ⟨h.1.1.elim And.left id, h.1.2⟩
    rw [Disk.version_setSlot_of_ne _ _ (by simp), ← h.2]
    unfold Disk.version
    rw [Disk.setSlot_self]
  unfold promote
  refine Triple.bind (R := fun found w => Over (fun d => J d ∧ d.StableReads) I w ∧
    w.disk.version .experiment = .ok found) (readDisk_triple (fun found w hw h => ⟨hw, h⟩)
      fun _ w hw _ => hw) fun found => ?_
  cases found with
  | none =>
      refine Triple.pre (P := Over (fun d => J d ∧ d.StableReads) I) ?_ fun w h => h.1
      refine Triple.bind (readDisk_keeps) fun stable => ?_
      cases stable with
      | none => exact Triple.throw fun _ h => h
      | some v => exact hbackup hkept
  | some v =>
      refine Triple.get_bind fun w hw => ?_
      refine Triple.pre (P := Over (Waiting v) I) ?_ fun w' h => by rw [h]; exact ⟨⟨hw.1.1, hw.2⟩, hw.1.2⟩
      have hfinish := Triple.bind (hswap v) fun _ => hbackup hkept
      refine Triple.ite (fun _ => ?_) fun _ => hfinish
      refine Triple.bind ((hbackup (hwaiting v)).crash (hdrop v)) fun _ => ?_
      exact Triple.bind ((hpark v).crash (hdrop v)) fun _ => hfinish

end FileStore

/-! ## the assertions -/

/-- The last intent is about `version`. -/
def NamesVersion (version : String) (es : List JournalEntry) : Prop :=
  ∀ last, es.getLast? = some last → last.detail.get "version" = some version

/-- What is on trial at each point of an upgrade to `version`. -/
def Tells (version : String) : Point → List JournalEntry → Disk → Prop
  | .entry, es, d | .opened _, es, d | .fenced _, es, d => d.Names es
  | .staged _, es, _ => NamesVersion version es
  | .prepared _, es, d | .handing _, es, d | .quiesced _, es, d | .stopped _, es, d
  | .started _, es, d | .running _, es, d | .live _ _, es, d | .readback _ _, es, d
  | .fresh _ _, es, d | .accepted _ _, es, d =>
      NamesVersion version es ∧ d.version .experiment = .ok (some (trim version))
  | _, es, _ => AtRest es

/-- The journal and the stable slot at each point, with what is on trial. -/
def Announced (version : String) (p : Point) (d : Disk) : Prop :=
  (∃ es, d.readJournal = .ok es ∧ p.Tail (lastIntent es) ∧ Tells version p es d) ∧ d.StableReads

section

variable {version : String} {p q : Point} {d : Disk} {es : List JournalEntry}

/-- A journal that names the version staged names the experiment. -/
theorem NamesVersion.names (h : NamesVersion version es)
    (hexperiment : d.version .experiment = .ok (some (trim version))) : d.Names es :=
  fun last hlast _ => ⟨version, h last hlast, hexperiment⟩

/-- So it does at every point past staging. -/
theorem Tells.names (h : Tells version p es d) (hp : ∀ prior, p ≠ .staged prior) : d.Names es := by
  cases p with
  | entry | opened | fenced => exact h
  | staged prior => exact absurd rfl (hp prior)
  | prepared | handing | quiesced | stopped | started | running | live | readback | fresh
  | accepted => exact h.1.names h.2
  | _ => exact Disk.names_of_atRest h

/-- But for the staged intent, every point is legible. -/
theorem Announced.legible (h : Announced version p d) (hp : ∀ prior, p ≠ .staged prior) :
    d.Legible := by
  obtain ⟨⟨es, hread, -, htells⟩, hstable⟩ := h
  exact ⟨hstable, es, hread, htells.names hp⟩

/-- A quiet step from anywhere but the staged intent tells the same. -/
theorem Announced.quiet (hquiet : Point.Quiet version p q) (hp : ∀ prior, p ≠ .staged prior)
    (h : Announced version p d) : Announced version q d := by
  obtain ⟨⟨es, hread, htail, htells⟩, hstable⟩ := h
  have hends : ∀ {t : Option Phase}, lastIntent es = t →
      (∀ p, t = some p → p.atRest = true) → AtRest es := fun ht hrest p hp => hrest p (ht ▸ hp)
  refine ⟨⟨es, hread, ?_⟩, hstable⟩
  cases hquiet with
  | fence tail => exact ⟨htail, htells⟩
  | empty =>
      have hrest := hends htail fun _ h => by cases h
      exact ⟨hrest, hrest⟩
  | idle =>
      have hrest := hends htail fun _ h => by cases h; rfl
      exact ⟨hrest, hrest⟩
  | commit => exact ⟨htail, hends htail fun _ h => by cases h; rfl⟩
  | redo => exact ⟨htail, hends htail fun _ h => by cases h; rfl⟩
  | stage prior => exact absurd rfl (hp prior)
  | settle | clear => exact ⟨htells, htells⟩
  | _ => exact ⟨htail, htells⟩

/-- The intents of an upgrade name its version. -/
theorem detail_version (seq now : Nat) (intent : Phase) (version : String) :
    (Engine.entryOf seq now intent (Engine.upgradeDetail version)).detail.get "version" =
      some version := by
  show (Detail.insert _ _ _).get "version" = _
  rw [Detail.get_insert_of_ne _ _ (by decide)]
  rfl

/-- So does the one that hands over. -/
theorem handoverDetail_version (seq now : Nat) (intent : Phase) (version : String)
    (prior : Option Evidence) :
    (Engine.entryOf seq now intent (Engine.handoverDetail version prior)).detail.get "version" =
      some version := by
  show (Detail.insert _ _ _).get "version" = _
  rw [Detail.get_insert_of_ne _ _ (by decide)]
  cases prior with
  | none => rfl
  | some e =>
      show (Detail.insert _ _ _).get "version" = _
      rw [Detail.get_insert_of_ne _ _ (by decide)]
      rfl

/-- An entry that names the version is the last. -/
theorem namesVersion_concat {entry : JournalEntry} (h : entry.detail.get "version" = some version) :
    NamesVersion version (es ++ [entry]) := by
  intro last hlast
  rw [List.getLast?_concat, Option.some.injEq] at hlast
  rw [← hlast]
  exact h

/-- What each intent tells. -/
theorem Tells.writes {intent : Phase} {detail : Detail}
    (hwrites : Point.Writes version p intent detail q) (h : Tells version p es d) (seq now : Nat) :
    Tells version q (es ++ [Engine.entryOf seq now intent detail]) d := by
  have hrest : intent.atRest = true →
      AtRest (es ++ [Engine.entryOf seq now intent detail]) := by
    intro hintent p hp
    rw [lastIntent_concat, Option.some.injEq] at hp
    rw [← hp]
    exact hintent
  cases hwrites with
  | withdraw reason => exact hrest rfl
  | abandon tail reason _ => exact hrest rfl
  | staged stable prior => exact namesVersion_concat (detail_version _ _ _ _)
  | handingOver prior => exact ⟨namesVersion_concat (handoverDetail_version _ _ _ _ _), h.2⟩
  | running prior => exact ⟨namesVersion_concat (detail_version _ _ _ _), h.2⟩
  | readback prior evidence => exact ⟨namesVersion_concat (detail_version _ _ _ _), h.2⟩
  | promoted prior evidence => exact hrest rfl
  | silent prior reason => exact hrest rfl
  | refused prior evidence reason => exact hrest rfl

/-- What is told depends on the slots alone, beside the journal. -/
theorem tells_journal (d : Disk) (j : File (Lines JournalEntry)) :
    Tells version p es { d with journal := j } ↔ Tells version p es d := by
  cases p <;> exact Iff.rfl

end

/-! ## the steps of the engine -/

section

variable {σ : Type} {e : Engine σ} {s s' : Running σ}

/-- A probe that was answered is the prior evidence. -/
theorem Engine.probePrior_ok {evidence : Evidence}
    (h : Engine.bounded "probe" e.host.probe s = (.ok evidence, s')) :
    e.probePrior s = (.ok (some evidence), s') := by
  unfold Engine.probePrior
  rw [Prog.bind_run_ok (Prog.attempt_run_ok h)]
  rfl

/-- A probe that failed for certain is no evidence. -/
theorem Engine.probePrior_definite {err : Error}
    (h : Engine.bounded "probe" e.host.probe s = (.err err, s')) (hu : err.isUncertain = false) :
    e.probePrior s = (.ok none, s') := by
  unfold Engine.probePrior
  rw [Prog.bind_run_ok (Prog.attempt_run_err h)]
  simp [hu]

end

namespace Runner

section

variable {η γ α : Type} {r : Runner η γ} {c : Convergence (World η γ)} {version : String}
  {p q : Point}

/-- The assertion at a point of the engine. -/
def Announcing (version : String) (p : Point) (s : Running (World η γ)) : Prop :=
  Over (Announced version p) (fun _ => True) s.world

/-- The directory of a running engine is legible. -/
def Legibly (s : Running (World η γ)) : Prop := s.world.disk.Legible

/-- What has been announced is legible. -/
theorem Announcing.legibly {s : Running (World η γ)} (h : Announcing version p s)
    (hp : ∀ prior, p ≠ .staged prior) : Legibly s := h.1.legible hp

/-- A step that journals nothing announces nothing new. -/
theorem Announcing.quiet {s : Running (World η γ)} (h : Announcing version p s)
    (hquiet : Point.Quiet version p q) (hp : ∀ prior, p ≠ .staged prior) :
    Announcing version q s := ⟨h.1.quiet hquiet hp, trivial⟩

/-- A step that journals nothing and keeps what is announced. -/
theorem announcing_step (hquiet : Point.Quiet version p q) (hp : ∀ prior, p ≠ .staged prior)
    {m : Prog Error (World η γ) α} (hm : Keeps (Over (Announced version p) fun _ => True) m) :
    Triple (Announcing version p) (lift m) (fun _ => Announcing version q) (fun _ => Legibly) :=
  (Keeps.lift hm).conseq (fun _ h => h) (fun _ _ h => Announcing.quiet h hquiet hp)
    fun _ _ h => Announcing.legibly h hp

/-- A host call between two points. -/
theorem announcing_call (hquiet : Point.Quiet version p q) (hp : ∀ prior, p ≠ .staged prior)
    (label name : String) (call : Host η → Prog Error η (Option α)) :
    Triple (Announcing version p) (Engine.bounded label (r.hostCall name call))
      (fun _ => Announcing version q) (fun _ => Legibly) :=
  (Keeps.bounded (hostCall_keeps remote_true name call)).conseq (fun _ h => h)
    (fun _ _ h => Announcing.quiet h hquiet hp) fun _ _ h => Announcing.legibly h hp

/-- An intent between two points: it is there or it is not. -/
theorem announcing_journal {intent : Phase} {detail : Detail}
    (hwrites : Point.Writes version p intent detail q) :
    Triple (Announcing version p) ((r.engine c).journal intent detail)
      (fun _ => Announcing version q)
      (fun _ s => Announcing version p s ∨ Announcing version q s) := by
  unfold Engine.journal
  refine Triple.get_bind fun s ⟨⟨⟨es, hread, htail, htells⟩, hstable⟩, _⟩ => ?_
  let entry := Engine.entryOf s.seq ((r.engine c).now s.world) intent detail
  let D : Disk → Prop := fun d => Tells version p es d ∧ d.StableReads
  have hD : FileStore.OffJournal D := fun d j h => ⟨(tells_journal d j).mpr h.1, h.2⟩
  have hbefore : ∀ w : World η γ, w.disk.readJournal = .ok es → D w.disk →
      Over (Announced version p) (fun _ => True) w :=
    fun w hj h => ⟨⟨⟨es, hj, htail, h.1⟩, h.2⟩, trivial⟩
  have hafter : ∀ w : World η γ, w.disk.readJournal = .ok (es ++ [entry]) → D w.disk →
      Over (Announced version q) (fun _ => True) w := by
    refine fun w hj h => ⟨⟨⟨_, hj, ?_, h.1.writes hwrites _ _⟩, h.2⟩, trivial⟩
    rw [lastIntent_concat]
    exact (Point.Ends.writes hwrites).1
  have happend : Triple (Over (fun d => d.readJournal = .ok es ∧ D d) fun _ => True)
      (r.store.append entry : Prog Error (World η γ) Unit)
      (fun _ => Over (Announced version q) fun _ => True)
      (fun _ w => Over (Announced version p) (fun _ => True) w ∨
        Over (Announced version q) (fun _ => True) w) := by
    refine (FileStore.append_triple (fun _ => trivial : _ → True) remote_true.aside hD
      (.inr trivial)).conseq (fun _ h => h) (fun _ w h => hafter w h.1.1 h.1.2) fun _ w h => ?_
    rcases h.1.1.1 with hj | hj
    · exact .inl (hbefore w hj h.1.1.2)
    · exact .inr (hafter w hj h.1.1.2)
  refine Triple.bind (R := fun _ => Announcing version q) ?_ fun _ => Triple.modify fun _ h => h
  refine Triple.zoom fun s' hs' => ?_
  rw [hs']
  exact (happend s.world ⟨⟨hread, htells, hstable⟩, trivial⟩).mono (fun _ _ h => h) fun _ _ h => h

/-- But for the staged intent, an intent leaves a legible directory wherever it is cut off. -/
theorem announcing_intent {intent : Phase} {detail : Detail}
    (hwrites : Point.Writes version p intent detail q) (hp : ∀ prior, p ≠ .staged prior)
    (hq : ∀ prior, q ≠ .staged prior) :
    Triple (Announcing version p) ((r.engine c).journal intent detail)
      (fun _ => Announcing version q) (fun _ => Legibly) :=
  (announcing_journal hwrites).crash fun _ h =>
    h.elim (Announcing.legibly · hp) (Announcing.legibly · hq)

/-- The candidate is cleared when no intent is about it. -/
theorem announced_setExperiment {d : Disk} (h : Announced version .restored d) (node : Node) :
    Announced version .restored (d.setSlot .experiment node) :=
  ⟨h.1, FileStore.stableReads_setSlot h.2 node (by simp)⟩

/-- A rollback leaves the transaction legible. -/
theorem announcing_rollback :
    RollbackOutline (r.engine c) (Announcing version) (fun _ => Legibly) where
  stop := announcing_call .stop (by simp) _ _ _
  start := announcing_call .start (by simp) _ _ _
  resumed := announcing_call .resume (by simp) _ _ _
  clear := announcing_step .clear (by simp)
    (FileStore.removeDir_elsewhere remote_true.aside fun _ node h => announced_setExperiment h node)

/-- So does a promotion. -/
theorem announcing_commit :
    CommitOutline (r.engine c) (Announcing version) (fun _ => Legibly) where
  promote := announcing_step .promote (by simp)
    (FileStore.promote_stableReads remote_true.aside fun _ _ _ h => h)
  resume := announcing_call .settle (by simp) _ _ _

/-- **Recovery** announces what the journal it finds announces. -/
theorem announcing_recover :
    RecoverOutline (r.engine c) (Announcing version) (fun _ => Legibly) where
  toRollbackOutline := announcing_rollback
  toCommitOutline := announcing_commit
  read := by
    refine readEntries_triple (P := Over (Announced version .entry) fun _ => True)
      (fun es s h hread => ?_) fun _ s h _ => Announcing.legibly h (by simp)
    obtain ⟨⟨⟨es', hread', -, htells⟩, hstable⟩, -⟩ := h
    rw [hread, Except.ok.injEq] at hread'
    subst hread'
    exact ⟨⟨⟨es, hread, rfl, htells⟩, hstable⟩, trivial⟩
  fence tail := announcing_call (.fence tail) (by simp) _ _ _
  idle s h := h.elim (Announcing.quiet · .empty (by simp)) (Announcing.quiet · .idle (by simp))
  commit s h := h.quiet .commit (by simp)
  redo s h := h.quiet .redo (by simp)
  withdraw reason := announcing_intent (.withdraw reason) (by simp) (by simp)
  abandon tail reason htail := announcing_intent (.abandon tail reason htail) (by simp) (by simp)

/-! ## from the first intent to the candidate -/

/-- An upgrade from its probe to the rename that puts the candidate on trial. -/
def probeToRename (r : Runner η γ) (c : Convergence (World η γ)) (version : String) (bytes : Path) :
    Prog Error (Running (World η γ)) Unit := do
  let _ ← (r.engine c).probePrior
  (r.engine c).journal .staged (Engine.upgradeDetail version)
  lift (r.store.toRename version bytes)

/-- An upgrade up to that rename. -/
def upgradeToRename (r : Runner η γ) (c : Convergence (World η γ)) (version : String)
    (bytes : Path) : Prog Error (Running (World η γ)) Unit := do
  let versions ← lift (r.engine c).effects.versions
  match stableOf versions with
  | none => Prog.throw (.invalid "stable slot required before upgrade")
  | some stable => if stable = version then pure () else r.probeToRename c version bytes

/-- The upgrade is cut off, or fails, after its first intent was journalled and before the
candidate was put on trial. -/
def CutShort (r : Runner η γ) (c : Convergence (World η γ)) (version : String) (bytes : Path)
    (s : Running (World η γ)) : Prop :=
  Ends (fun _ _ => False)
    (fun _ s' => Journaled (fun es => lastIntent es = some .staged) s'.world.disk)
    (r.upgradeToRename c version bytes s)

/-- What is left of the way to the rename, which began in `s₀`. -/
def OnTheWay (r : Runner η γ) (c : Convergence (World η γ)) (version : String) (bytes : Path)
    (s₀ : Running (World η γ)) : Point → Running (World η γ) → Prop
  | .rest none, s => s = s₀
  | .surveyed stable, s => stable ≠ version →
      r.upgradeToRename c version bytes s₀ = r.probeToRename c version bytes s
  | .probed _ _, s => r.upgradeToRename c version bytes s₀ =
      ((r.engine c).journal .staged (Engine.upgradeDetail version) >>= fun _ =>
        lift (r.store.toRename version bytes)) s
  | .staged _, s => r.upgradeToRename c version bytes s₀ =
      lift (r.store.toRename version bytes) s
  | _, _ => True

variable {bytes : Path} {s₀ : Running (World η γ)} {prior : Option Evidence}

/-- It ends with the staged intent. -/
theorem cutShort_of_early {e : Option Error} {s : Running (World η γ)}
    (hrun : r.upgradeToRename c version bytes s₀ = (.early e, s))
    (h : Announcing version (.staged prior) s) : r.CutShort c version bytes s₀ := by
  obtain ⟨⟨es, hread, htail, -⟩, -⟩ := h.1
  unfold CutShort
  rw [hrun]
  cases e with
  | none => exact ⟨es, hread, htail⟩
  | some e => exact ⟨es, hread, htail⟩

/-- The candidate is complete beside the slots, and the staged intent is about it. -/
def Copied (version : String) (bytes : Path) (prior : Option Evidence) (d : Disk) : Prop :=
  Announced version (.staged prior) d ∧ trim version ≠ "" ∧ ∃ b, d.file bytes = .content b ∧
    d.slots .experimentStaging = .dir ⟨.content version, .content b⟩

/-- The candidate is put on trial in one step. -/
theorem putOnTrial_announced :
    Triple (Over (Copied version bytes prior) fun _ => True)
      (r.store.putOnTrial : Prog Error (World η γ) Unit)
      (fun _ => Over (Announced version (.prepared prior)) fun _ => True)
      (fun _ => Over (Announced version (.prepared prior)) fun _ => True) := by
  unfold FileStore.putOnTrial
  refine Triple.bind (R := fun _ => Over (Announced version (.prepared prior)) fun _ => True)
    (Triple.modify fun w h => ?_) fun _ => ?_
  · obtain ⟨⟨⟨⟨es, hread, htail, hnames⟩, hstable⟩, hne, b, hfile, hslot⟩, -⟩ := h
    refine ⟨⟨⟨es, hread, htail, hnames, ?_⟩, ?_⟩, trivial⟩
    · refine Node.Holds.version (b := b) ⟨version, ?_, rfl, hne⟩
      rw [Disk.setSlot_of_ne _ _ (by simp), Disk.setSlot_self]
      exact hslot
    · exact FileStore.stableReads_setSlot (FileStore.stableReads_setSlot hstable _ (by simp)) _
        (by simp)
  · exact (FileStore.boundary_triple (fun _ => trivial : _ → True)
      (remote_true.aside.over _) _).crash fun _ h => h.1

/-- **Staging**: cut off before the rename the way is cut short, after it the candidate is on
trial. -/
theorem announcing_stage :
    Triple (fun s => Announcing version (.staged prior) s ∧
        r.OnTheWay c version bytes s₀ (.staged prior) s)
      (lift (r.store.stage version bytes)) (fun _ => Announcing version (.prepared prior))
      (fun _ s => Legibly s ∨ r.CutShort c version bytes s₀) := by
  refine Triple.of_forall fun s hs => ?_
  obtain ⟨hs, hway⟩ := hs
  have hway : r.upgradeToRename c version bytes s₀ = lift (r.store.toRename version bytes) s := hway
  rw [FileStore.stage_eq, lift_bind]
  have hrename : Triple (Announcing version (.staged prior))
      (lift (r.store.toRename version bytes) : Prog Error (Running (World η γ)) Unit)
      (fun _ => OnWorld (Over (Copied version bytes prior) fun _ => True))
      (fun _ => Announcing version (.staged prior)) :=
    Confined.lift (FileStore.toRename_complete remote_true.aside
      (fun d place node hplace (h : Announced version (.staged prior) d) => ⟨h.1,
        FileStore.stableReads_setSlot h.2 node (by rcases hplace with rfl | rfl <;> simp)⟩))
  refine Triple.bind ((hrename.exact hs).conseq (fun _ h => h) (fun _ _ h => h.2)
    fun e s' h => .inr (cutShort_of_early (hway.trans h.1) h.2)) fun _ => ?_
  exact (Confined.lift putOnTrial_announced).conseq (fun _ h => h) (fun _ _ h => h)
    fun _ s' h => .inl (Announcing.legibly h (by simp))

/-- The probe on the way: its answer, or that there is none, is where the way goes on. -/
theorem announcing_probe {stable : String} (hne : stable ≠ version) :
    Triple (fun s => Announcing version (.surveyed stable) s ∧
        r.OnTheWay c version bytes s₀ (.surveyed stable) s)
      (Engine.bounded "probe" r.hosts.probe)
      (fun evidence s => Announcing version (.probed stable (some evidence)) s ∧
        r.OnTheWay c version bytes s₀ (.probed stable (some evidence)) s)
      (probeFailed (fun s => Announcing version (.probed stable none) s ∧
          r.OnTheWay c version bytes s₀ (.probed stable none) s)
        fun _ s => Legibly s ∨ r.CutShort c version bytes s₀) := by
  refine Triple.of_forall fun s hs => ?_
  obtain ⟨hs, hway⟩ := hs
  have hway : r.upgradeToRename c version bytes s₀ = r.probeToRename c version bytes s := hway hne
  have hkeeps : Keeps (OnWorld (Over (Announced version (.surveyed stable)) fun _ => True))
      (Engine.bounded "probe" r.hosts.probe) := Keeps.bounded (hostCall_keeps remote_true _ _)
  refine (Triple.exact hkeeps hs).conseq (fun _ h => h) (fun evidence s' h => ?_) fun e s' h => ?_
  · obtain ⟨hrun, hs'⟩ := h
    have hprior : (r.engine c).probePrior s = (.ok (some evidence), s') :=
      Engine.probePrior_ok hrun
    refine ⟨Announcing.quiet hs' (.probe stable _) (by simp), ?_⟩
    exact hway.trans (Prog.bind_run_ok hprior)
  · obtain ⟨hrun, hs'⟩ := h
    have hlegible : Legibly s' := Announcing.legibly (p := .surveyed stable) hs' (by simp)
    cases e with
    | none => exact .inl hlegible
    | some e =>
        cases hu : e.isUncertain with
        | true =>
            simp only [probeFailed, hu, if_true]
            exact .inl hlegible
        | false =>
            have hprior : (r.engine c).probePrior s = (.ok none, s') :=
              Engine.probePrior_definite hrun hu
            simp only [probeFailed, hu]
            refine ⟨Announcing.quiet hs' (.probe stable _) (by simp), ?_⟩
            exact hway.trans (Prog.bind_run_ok hprior)

/-- **The staged intent**: cut off before it nothing has changed, cut off after it the way is
cut short. -/
theorem announcing_staged {stable : String} :
    Triple (fun s => Announcing version (.probed stable prior) s ∧
        r.OnTheWay c version bytes s₀ (.probed stable prior) s)
      ((r.engine c).journal .staged (Engine.upgradeDetail version))
      (fun _ s => Announcing version (.staged prior) s ∧
        r.OnTheWay c version bytes s₀ (.staged prior) s)
      (fun _ s => Legibly s ∨ r.CutShort c version bytes s₀) := by
  refine Triple.of_forall fun s hs => ?_
  obtain ⟨hs, hway⟩ := hs
  have hway : r.upgradeToRename c version bytes s₀ =
      ((r.engine c).journal .staged (Engine.upgradeDetail version) >>= fun _ =>
        lift (r.store.toRename version bytes)) s := hway
  refine ((announcing_journal (.staged stable prior)).exact hs).conseq (fun _ h => h)
    (fun _ s' h => ⟨h.2, hway.trans (Prog.bind_run_ok h.1)⟩) fun e s' h => ?_
  rcases h.2 with hbefore | hafter
  · exact .inl (hbefore.legibly (by simp))
  · exact .inr (cutShort_of_early (hway.trans (Prog.bind_run_early h.1)) hafter)

/-- What the upgrade finds in the slots. -/
theorem announcing_survey :
    Triple (fun s => Announcing version (.rest none) s ∧ s = s₀) (lift (r.engine c).effects.versions)
      (fun versions s => match stableOf versions with
        | some stable => Announcing version (.surveyed stable) s ∧
            r.OnTheWay c version bytes s₀ (.surveyed stable) s
        | none => Legibly s ∨ r.CutShort c version bytes s₀)
      (fun _ s => Legibly s ∨ r.CutShort c version bytes s₀) := by
  refine Triple.of_forall fun s hs => ?_
  obtain ⟨hs, rfl⟩ := hs
  have hkeeps : Keeps (OnWorld (Over (Announced version (.rest none)) fun _ => True))
      (lift (r.engine c).effects.versions) := Keeps.lift FileStore.readDisk_keeps
  refine (Triple.exact hkeeps hs).conseq (fun _ h => h) (fun versions s' h => ?_)
    fun _ s' h => .inl (Announcing.legibly (p := .rest none) h.2 (by simp))
  obtain ⟨hrun, hs'⟩ := h
  cases hstable : stableOf versions with
  | none => exact .inl (Announcing.legibly (p := .rest none) hs' (by simp))
  | some stable =>
      refine ⟨Announcing.quiet hs' (.survey stable) (by simp), fun hne => ?_⟩
      unfold upgradeToRename
      rw [Prog.bind_run_ok hrun]
      simp only [hstable, if_neg hne]

/-- The probe of the candidate. -/
theorem announcing_probeLive :
    Triple (fun s => Announcing version (.running prior) s ∧
        r.OnTheWay c version bytes s₀ (.running prior) s)
      (Engine.bounded "probe" r.hosts.probe)
      (fun evidence s => Announcing version (.live prior evidence) s ∧
        r.OnTheWay c version bytes s₀ (.live prior evidence) s)
      (probeFailed (fun s => Announcing version (.running prior) s ∧
          r.OnTheWay c version bytes s₀ (.running prior) s)
        fun _ s => Legibly s ∨ r.CutShort c version bytes s₀) := by
  have hkeeps : Keeps (OnWorld (Over (Announced version (.running prior)) fun _ => True))
      (Engine.bounded "probe" r.hosts.probe) := Keeps.bounded (hostCall_keeps remote_true _ _)
  refine Triple.conseq hkeeps (fun _ h => h.1) (fun evidence s h =>
    ⟨Announcing.quiet h (.probeLive prior evidence) (by simp), trivial⟩) fun e s h => ?_
  have hlegible : Legibly s := Announcing.legibly (p := .running prior) h (by simp)
  cases e with
  | none => exact .inl hlegible
  | some e =>
      cases hu : e.isUncertain with
      | true =>
          simp only [probeFailed, hu, if_true]
          exact .inl hlegible
      | false =>
          simp only [probeFailed, hu]
          exact ⟨h, trivial⟩

/-- The verdict on the candidate. -/
theorem announcing_evaluate (hc : ReadsProduct c) {evidence : Evidence} :
    Triple (fun s => Announcing version (.fresh prior evidence) s ∧
        r.OnTheWay c version bytes s₀ (.fresh prior evidence) s)
      (Engine.bounded "readback" ((r.engine c).predicates.evaluate evidence version))
      (fun verdict => match verdict with
        | some _ => fun s => Announcing version (.readback prior evidence) s ∧
            r.OnTheWay c version bytes s₀ (.readback prior evidence) s
        | none => fun s => Announcing version (.accepted prior evidence) s ∧
            r.OnTheWay c version bytes s₀ (.accepted prior evidence) s)
      (fun _ s => Legibly s ∨ r.CutShort c version bytes s₀) := by
  have hkeeps : Keeps (Over (Announced version (.fresh prior evidence)) fun _ => True)
      ((r.engine c).predicates.evaluate evidence version) :=
    evaluate_keeps (fun _ _ h => h) (fun _ _ h => h) hc evidence version
  refine (Keeps.bounded hkeeps).conseq (fun _ h => h.1) (fun verdict s h => ?_) fun _ _ h =>
    .inl (Announcing.legibly (p := .fresh prior evidence) h (by simp))
  cases verdict with
  | some reason => exact ⟨Announcing.quiet h (.refuse prior evidence) (by simp), trivial⟩
  | none => exact ⟨Announcing.quiet h (.accept prior evidence) (by simp), trivial⟩

/-- **An upgrade** announces its version from the staged intent on. -/
theorem announcing_upgrade (hc : ReadsProduct c) :
    UpgradeOutline (r.engine c) version bytes
      (fun p s => Announcing version p s ∧ r.OnTheWay c version bytes s₀ p s)
      (fun _ s => Legibly s ∨ r.CutShort c version bytes s₀) := by
  have up : ∀ {α : Type} {p q : Point} {m : Prog Error (Running (World η γ)) α},
      (∀ s, r.OnTheWay c version bytes s₀ q s) →
      Triple (Announcing version p) m (fun _ => Announcing version q) (fun _ => Legibly) →
      Triple (fun s => Announcing version p s ∧ r.OnTheWay c version bytes s₀ p s) m
        (fun _ s => Announcing version q s ∧ r.OnTheWay c version bytes s₀ q s)
        (fun _ s => Legibly s ∨ r.CutShort c version bytes s₀) :=
    fun hq hm => hm.conseq (fun _ h => h.1) (fun _ s h => ⟨h, hq s⟩) fun _ _ h => .inl h
  have hrollback : RollbackOutline (r.engine c) (Announcing version) (fun _ => Legibly) :=
    announcing_rollback
  have hcommit : CommitOutline (r.engine c) (Announcing version) (fun _ => Legibly) :=
    announcing_commit
  exact
    { stop := up (fun _ => trivial) hrollback.stop
      start := up (fun _ => trivial) hrollback.start
      resumed := up (fun _ => trivial) hrollback.resumed
      clear := up (fun _ => trivial) hrollback.clear
      promote := up (fun _ => trivial) hcommit.promote
      resume := up (fun _ => trivial) hcommit.resume
      survey := announcing_survey
      probe := fun stable hne => announcing_probe hne
      journalStaged := fun stable prior _ => announcing_staged
      stage := fun prior => announcing_stage.post fun _ _ h => ⟨h, trivial⟩
      journalHandingOver := fun prior => up (fun _ => trivial)
        (announcing_intent (.handingOver prior) (by simp) (by simp))
      quiesce := fun prior => up (fun _ => trivial)
        (announcing_call (.quiesce prior) (by simp) _ _ _)
      stopStable := fun prior => up (fun _ => trivial)
        (announcing_call (.stopStable prior) (by simp) _ _ _)
      startExperiment := fun prior => up (fun _ => trivial)
        (announcing_call (.startExperiment prior) (by simp) _ _ _)
      journalRunning := fun prior => up (fun _ => trivial)
        (announcing_intent (.running prior) (by simp) (by simp))
      probeLive := fun prior => announcing_probeLive
      journalReadback := fun prior evidence => up (fun _ => trivial)
        (announcing_intent (.readback prior evidence) (by simp) (by simp))
      replaced := fun prior evidence s _ h =>
        ⟨h.1.quiet (.replaced prior evidence) (by simp), trivial⟩
      evaluate := fun prior evidence => announcing_evaluate hc
      journalPromoted := fun prior evidence => up (fun _ => trivial)
        (announcing_intent (.promoted prior evidence) (by simp) (by simp))
      silent := fun prior reason => up (fun _ => trivial)
        (announcing_intent (.silent prior reason) (by simp) (by simp))
      refused := fun prior evidence reason => up (fun _ => trivial)
        (announcing_intent (.refused prior evidence reason) (by simp) (by simp)) }

/-! ## the drive -/

/-- An upgrade from its lock to its engine. -/
def toUpgrade (r : Runner η γ) (target : Option String) (options : UpgradeOptions) :
    Prog Error (World η γ) (Convergence (World η γ) × Fetched × Running (World η γ)) := do
  r.acquire
  let c ← r.checked target options pure
  withEngine (do
    let fetched ← r.fetched c target options
    let s ← Prog.get
    pure (c, fetched, s))

/-- A drive that is cut off, or fails, after its engine journalled the staged intent and before
the candidate was put on trial. -/
def CutsStaging (r : Runner η γ) (target : Option String) (options : UpgradeOptions)
    (w : World η γ) : Prop :=
  r.hooks.managedElsewhere w.product = false ∧ ∃ c operation release s w',
    r.toUpgrade target options w = (.ok (c, .inr (operation, release), s), w') ∧
      r.CutShort c release.version incomingPath s

/-- A drive up to its engine's upgrade, from its parts. -/
theorem toUpgrade_run {target : Option String} {options : UpgradeOptions} {w w₁ w₂ : World η γ}
    {fetched : Fetched} {s : Running (World η γ)} (hacquire : r.acquire w = (.ok (), w₁))
    (hchecked : r.checked target options pure w₁ = (.ok c, w₂))
    (hfetched : r.fetched c target options ⟨w₂, 0⟩ = (.ok fetched, s)) :
    r.toUpgrade target options w = (.ok (c, fetched, s), s.world) := by
  unfold toUpgrade
  rw [Prog.bind_run_ok hacquire, Prog.bind_run_ok hchecked]
  unfold withEngine Prog.zoom
  rw [Prog.bind_run_ok hfetched]
  rfl

/-- A lock around a body that is known from the world it starts in. -/
theorem locked_exact {w : World η γ} {P I : World η γ → Prop} (hP : OffLock P) (hI : OffLock I)
    (hPI : ∀ w, P w → I w) (hw : P w) {β : Type} {body : Prog Error (World η γ) β}
    (h : ∀ w₁, r.acquire w = (.ok (), w₁) → P w₁ →
      Triple (· = w₁) body (fun _ => I) (fun _ => I)) :
    Triple (· = w) (r.locked body) (fun _ => I) (fun _ => I) := by
  have hrelease : Keeps I r.release := release_keeps hI
  unfold locked
  refine Triple.bind (((acquire_keeps hP).exact hw).conseq (fun _ h => h) (fun _ _ h => h)
    fun _ w' h => hPI w' h.2) fun _ => ?_
  refine Triple.bind (R := fun _ => I) ?_ fun reply => ?_
  · refine Triple.of_forall fun w₁ h₁ => Triple.attempt ?_
    exact (h w₁ h₁.1 h₁.2).conseq (fun _ h => h) (fun _ _ h => h) fun e _ h => by cases e <;> exact h
  cases reply with
  | ok a => exact Triple.bind hrelease fun _ => Triple.pure fun _ h => h
  | error e =>
      refine Triple.ite (fun _ => Triple.throw fun _ h => h) fun _ => ?_
      exact Triple.bind hrelease fun _ => Triple.throw fun _ h => h

end

end Runner

/-- Nothing is in flight, and the stable slot can be read. -/
def Disk.Rested (d : Disk) : Prop := Journaled AtRest d ∧ d.StableReads

/-- A directory at rest is legible. -/
theorem Disk.Rested.legible {d : Disk} (h : d.Rested) : d.Legible := by
  obtain ⟨⟨es, hread, hrest⟩, hstable⟩ := h
  exact ⟨hstable, es, hread, Disk.names_of_atRest hrest⟩

/-- An assertion about the journal and the slots is not about the records. -/
theorem offRecords_of_transaction {η γ : Type} {D : Disk → Prop}
    (hD : ∀ d d', d'.journal = d.journal → d'.slots = d.slots → D d → D d') :
    OffRecords (fun w : World η γ => D w.disk) where
  quiet := ⟨fun _ _ h => h, fun _ _ _ h => h, fun _ _ h => h, fun _ _ h => h,
    fun w d hj _ _ hs h => hD w.disk d hj hs h⟩
  receipts := ⟨fun _ _ h => h, fun w _ _ _ h => hD w.disk _ rfl rfl h⟩
  record w _ h := hD w.disk _ rfl rfl h

namespace Runner

variable {η γ : Type} {r : Runner η γ} {c : Convergence (World η γ)}

/-- That it rests is not about the records. -/
theorem rested_offRecords : OffRecords (fun w : World η γ => w.disk.Rested) :=
  offRecords_of_transaction fun d d' hj hs ⟨hjournal, version, hversion⟩ =>
    ⟨hjournal.congr hj, version, (Disk.version_congr (by rw [hs])).trans hversion⟩

/-- That it is legible is not about the records. -/
theorem legible_offRecords : OffRecords (fun w : World η γ => w.disk.Legible) := by
  refine offRecords_of_transaction fun d d' hj hs h => ?_
  obtain ⟨⟨version, hversion⟩, es, hread, hnames⟩ := h
  refine ⟨⟨version, (Disk.version_congr (by rw [hs])).trans hversion⟩, es,
    (Disk.readJournal_congr hj).trans hread, fun last hlast hbusy => ?_⟩
  obtain ⟨named, hdetail, hexperiment⟩ := hnames last hlast hbusy
  exact ⟨named, hdetail, (Disk.version_congr (by rw [hs])).trans hexperiment⟩

/-- An engine at its end leaves the directory at rest. -/
theorem Announcing.rested {version : String} {ended : Option Phase} {s : Running (World η γ)}
    (h : Announcing version (.rest ended) s) : s.world.disk.Rested := by
  obtain ⟨⟨⟨es, hread, -, hrest⟩, hstable⟩, -⟩ := h
  exact ⟨⟨es, hread, hrest⟩, hstable⟩

/-- An engine starts on a directory at rest. -/
theorem announcing_rest (version : String) {s : Running (World η γ)} (h : s.world.disk.Rested) :
    Announcing version (.rest none) s := by
  obtain ⟨⟨es, hread, hrest⟩, hstable⟩ := h
  exact ⟨⟨⟨es, hread, hrest, hrest⟩, hstable⟩, trivial⟩

/-- **Recovery** brings a legible directory to rest. -/
theorem recover_restsAgain :
    Triple (OnWorld fun w => w.disk.Legible) (r.engine c).recover
      (fun _ => OnWorld fun w => w.disk.Rested) (fun _ => OnWorld fun w => w.disk.Legible) := by
  have houtline : RecoverOutline (r.engine c) (Announcing "") (fun _ => Legibly) :=
    announcing_recover
  refine houtline.recover_triple.conseq (fun s h => ?_) (fun _ s ⟨_, h⟩ => h.rested)
    fun _ _ h => h
  obtain ⟨hstable, es, hread, hnames⟩ := h
  exact ⟨⟨⟨es, hread, trivial, hnames⟩, hstable⟩, trivial⟩

/-- The recovery of a call, by the engine or on the evidence of a settled record. -/
theorem recoverEngine_restsAgain :
    Triple (OnWorld fun w => w.disk.Legible) (r.recoverEngine c)
      (fun _ => OnWorld fun w => w.disk.Rested) (fun _ => OnWorld fun w => w.disk.Legible) := by
  refine recovering_within (fun _ h => h) ?_ ?_
  · intro w op outcome state es h _ _ hstate hrest _ hread
    obtain ⟨-, version, -, hstable, -⟩ := transactionState_ok hstate
    exact ⟨⟨es, hread, (transactionState_atRest_iff hstate hread).mp hrest⟩, version, hstable⟩
  · exact recover_restsAgain.pre fun _ h => h.1

/-- What `recover` does under the lock. -/
theorem recoverLocked_legible (expected : Option Expected) :
    Keeps (fun w : World η γ => w.disk.Legible) (r.recoverLocked expected) := by
  refine recoverLocked_within expected (fun _ _ h => h) (fun _ _ h => h) fun c _ => ?_
  refine Triple.bind recoverEngine_restsAgain fun _ => ?_
  exact (Keeps.lift rested_offRecords.settle).conseq (fun _ h => h)
    (fun _ _ h => Disk.Rested.legible h) fun _ _ h => Disk.Rested.legible h

/-- What `rollback` does under the lock. -/
theorem rollbackLocked_legible (reason : String) :
    Keeps (fun w : World η γ => w.disk.Legible) (r.rollbackLocked reason) := by
  have hclear : Keeps (Over Disk.Rested fun _ => True)
      (r.store.clear : Prog Error (World η γ) Unit) :=
    FileStore.removeDir_elsewhere remote_true.aside fun _ node h =>
      ⟨h.1, FileStore.stableReads_setSlot h.2 node (by simp)⟩
  refine rollbackLocked_triple (R := fun w => w.disk.Rested) reason (fun _ _ h => h)
    (fun _ h => h) (fun c _ => recover_restsAgain) ?_ legible_offRecords.quiet
  exact hclear.conseq (fun _ h => ⟨h, trivial⟩) (fun _ _ h => h.1.legible) fun _ _ h => h.1.legible

/-- From the recovery of a drive to its engine's upgrade, with what is not about the records. -/
theorem fetched_triple {P E F : World η γ → Prop} (hP : OffRecords P) (hPF : ∀ w, P w → F w)
    (hrecover : Triple (OnWorld E) (r.recoverEngine c) (fun _ => OnWorld P) (fun _ => OnWorld F))
    (target : Option String) (options : UpgradeOptions) :
    Triple (OnWorld E) (r.fetched c target options) (fun _ => OnWorld P) (fun _ => OnWorld F) := by
  have hkept : ∀ {α : Type} {m : Prog Error (World η γ) α}, Keeps P m →
      Triple (OnWorld P) (lift m) (fun _ => OnWorld P) (fun _ => OnWorld F) := fun hm =>
    (Keeps.lift hm).conseq (fun _ h => h) (fun _ _ h => h) fun _ s h => hPF s.world h
  have hfetch : FetchOutline r (fun _ => True) (fun _ _ => P) (fun _ => P) (fun _ => P) :=
    hP.fetchOutline
  unfold fetched
  refine Triple.bind (R := fun _ => OnWorld P) ?_ fun opened => hkept ?_
  · refine Triple.bind hrecover fun _ => ?_
    exact Triple.bind (hkept hP.settle) fun _ => hkept (hP.openOperation target options)
  · have hpick : Keeps P (r.pick target options opened.1 opened.2) :=
      (hfetch.pick_triple opened.1 0 opened.2).post fun picked w h => by
        cases picked with
        | finished outcome => exact h
        | release release => exact h.2
    refine Triple.bind hpick fun picked => ?_
    cases picked with
    | finished outcome => exact Triple.pure fun _ h => h
    | release release =>
        exact Triple.bind (hfetch.bringIn_triple opened.1 0 release) fun _ =>
          Triple.pure fun _ h => h

/-- The engine's upgrade and its record, from a directory at rest. -/
theorem install_legible (hc : ReadsProduct c) {operation : Option Operation} {release : Release}
    {s : Running (World η γ)} (hs : s.world.disk.Rested)
    (hcut : ¬r.CutShort c release.version incomingPath s) :
    Triple (· = s) (r.install c (.inr (operation, release)))
      (fun _ => OnWorld fun w => w.disk.Legible) (fun _ => OnWorld fun w => w.disk.Legible) := by
  have hupgrade : Triple (· = s) ((r.engine c).upgrade release.version incomingPath)
      (fun _ => OnWorld fun w => w.disk.Legible) (fun _ => OnWorld fun w => w.disk.Legible) := by
    have houtline : UpgradeOutline (r.engine c) release.version incomingPath
        (fun p s' => Announcing release.version p s' ∧
          r.OnTheWay c release.version incomingPath s p s')
        (fun _ s' => Legibly s' ∨ r.CutShort c release.version incomingPath s) :=
      announcing_upgrade hc
    refine houtline.upgrade_triple.conseq (fun s' h => ?_)
      (fun outcome s' h => ?_) fun _ _ h => h.resolve_right hcut
    · subst h
      exact ⟨announcing_rest _ hs, rfl⟩
    · cases outcome with
      | promoted v => exact (h.2.1.rested).legible
      | rolledBack reason => exact (h.1.rested).legible
      | upToDate => exact Announcing.legibly h.1 (by simp)
  have hattempt : Triple (· = s)
      (Prog.attempt ((r.engine c).upgrade release.version incomingPath))
      (fun _ => OnWorld fun w => w.disk.Legible) (fun _ => OnWorld fun w => w.disk.Legible) :=
    Triple.attempt (hupgrade.conseq (fun _ h => h) (fun _ _ h => h) fun e _ h => by
      cases e <;> exact h)
  unfold install carryOut
  refine Triple.bind hattempt fun reply => ?_
  cases reply with
  | ok outcome =>
      refine Triple.bind (Keeps.lift (legible_offRecords.quiet.noted rfl)) fun _ => ?_
      exact Keeps.lift (legible_offRecords.conclude c operation outcome)
  | error e =>
      refine Triple.bind (Keeps.lift (legible_offRecords.transition operation _ _ _)) fun _ => ?_
      exact Triple.throw fun _ h => h

/-- **A drive** that does not cut the staging of its candidate off. -/
theorem drive_legible {target : Option String} {options : UpgradeOptions} {w : World η γ}
    (hw : w.disk.Legible) (hcut : ¬r.CutsStaging target options w) :
    Triple (· = w) (r.drive target options) (fun _ w' => w'.disk.Legible)
      (fun _ w' => w'.disk.Legible) := by
  unfold drive
  refine Triple.get_bind fun w₀ h₀ => ?_
  subst h₀
  cases hmanaged : r.hooks.managedElsewhere w₀.product with
  | true =>
      refine Triple.pre (P := fun w' => w'.disk.Legible) ?_ fun w' h => by rw [h]; exact hw
      exact Triple.bind (legible_offRecords.quiet.asked _) fun _ => Triple.pure fun _ h => h
  | false =>
      refine locked_exact (fun _ _ _ h => h) (fun _ _ _ h => h) (fun _ h => h) hw
        fun w₁ hacquire h₁ => ?_
      show Triple _ (r.checked target options
        fun c => withEngine (r.driveEngine c target options)) _ _
      rw [checked_bind]
      have hchecked : Triple (fun w : World η γ => w.disk.Legible)
          (r.checked target options pure) (fun c w => ReadsProduct c ∧ w.disk.Legible)
          (fun _ w => w.disk.Legible) := checked_keeps target options fun _ _ h => h
      refine Triple.bind ((hchecked.exact h₁).conseq (fun _ h => h) (fun _ _ h => h)
        fun _ _ h => h.2) fun c => Triple.of_forall fun w₂ h₂ => ?_
      obtain ⟨hrun, hc, h₂⟩ := h₂
      refine Triple.zoom fun w' hw' => ?_
      subst hw'
      rw [driveEngine_eq_fetched]
      have hinstall : Triple (· = ⟨w', 0⟩) (r.fetched c target options >>= r.install c)
          (fun _ => OnWorld fun w => w.disk.Legible) (fun _ => OnWorld fun w => w.disk.Legible) := by
        have hstart : OnWorld (fun w : World η γ => w.disk.Legible) ⟨w', 0⟩ := h₂
        have hfetch := fetched_triple (r := r) (c := c) rested_offRecords
          (fun _ => Disk.Rested.legible) recoverEngine_restsAgain target options
        refine Triple.bind ((hfetch.exact hstart).conseq (fun _ h => h) (fun _ _ h => h)
          fun _ _ h => h.2) fun fetched => Triple.of_forall fun s hs => ?_
        obtain ⟨hfetched, hs⟩ := hs
        cases fetched with
        | inl outcome => exact Triple.pure fun s' h => by rw [h]; exact Disk.Rested.legible hs
        | inr found =>
            obtain ⟨operation, release⟩ := found
            refine install_legible hc hs fun hshort => hcut ⟨hmanaged, ?_⟩
            exact ⟨c, operation, release, s, s.world, toUpgrade_run hacquire hrun hfetched, hshort⟩
      exact hinstall _ rfl

end Runner

/-! ## runs -/

/-- A visit that stages a candidate and is cut off before it is on trial. -/
def Visit.CutsStaging {η γ : Type} (v : Visit η γ) (w : World η γ) : Prop :=
  ∃ target options, v.runner.driven (v.finds w) v.call = some (target, options) ∧
    v.runner.CutsStaging target options (v.finds w)

/-- **One visit** leaves the transaction legible, unless it cuts its staging off. -/
theorem Visit.run_legible {η γ : Type} {v : Visit η γ} {w : World η γ} (hw : w.disk.Legible)
    (hcut : ¬v.CutsStaging w) : (v.run w).disk.Legible := by
  have hfinds : (v.finds w).disk.Legible := hw
  have hstart : ∀ w', w' = v.finds w → w'.disk.Legible := fun w' h => by rw [h]; exact hfinds
  have hlocked : ∀ {α : Type} {body : Prog Error (World η γ) α},
      Keeps (fun w : World η γ => w.disk.Legible) body →
      Triple (· = v.finds w) (v.runner.locked body) (fun _ w' => w'.disk.Legible)
        (fun _ w' => w'.disk.Legible) := fun hbody =>
    (Runner.locked_keeps (fun _ _ _ h => h) hbody).pre hstart
  exact Visit.run_of_triple (Runner.call_exact hfinds
    (fun _ => hlocked (Runner.recoverLocked_legible _))
    (fun target options hd => Runner.drive_legible hfinds fun h => hcut ⟨target, options, hd, h⟩)
    fun reason _ => hlocked (Runner.rollbackLocked_legible reason)) rfl

/-- A directory that was bootstrapped is legible. -/
theorem World.Bootstrapped.legible {η γ : Type} {w : World η γ} {v : String}
    (h : w.Bootstrapped v) : w.disk.Legible := by
  refine ⟨⟨some v, h.slots.stable⟩, [], ?_, fun last hlast => by cases hlast⟩
  simp only [Disk.readJournal, h.journal]

/-- **The state of the transaction can be read** after every run in which no call is cut off
between the staged intent and its candidate: `status` and the first step of `check` succeed, and
what is shown on trial is the version the journal names. -/
theorem transaction_legible {η γ : Type} (visits : List (Visit η γ)) (w : World η γ) (v : String)
    (hw : w.Bootstrapped v) (hcuts : EachVisit (fun v w => ¬v.CutsStaging w) visits w) :
    ∃ state, (runVisits visits w).disk.transactionState = .ok state ∧
      (∀ (r : Runner η γ), ∃ shown,
        r.status (runVisits visits w) = (.ok shown, runVisits visits w) ∧
        shown.phase = state.phase ∧ shown.experiment = state.experiment) ∧
      Runner.transactionState (runVisits visits w) = (.ok state, runVisits visits w) ∧
      ∀ shown, state.experiment = some shown → ∃ es last version,
        (runVisits visits w).disk.readJournal = .ok es ∧ es.getLast? = some last ∧
        last.detail.get "version" = some version ∧ shown = trim version := by
  have hlegible : (runVisits visits w).disk.Legible :=
    run_invariant (I := fun w => w.disk.Legible) (fun v w h hcut => Visit.run_legible h hcut)
      visits w hw.legible hcuts
  obtain ⟨state, hstate, hshown⟩ := hlegible.transactionState
  have hrun : Runner.transactionState (runVisits visits w) = (.ok state, runVisits visits w) :=
    FileStore.readDisk_run hstate
  refine ⟨state, hstate, fun r => ?_, hrun, hshown⟩
  unfold Runner.status
  rw [Prog.bind_run_ok hrun]
  exact ⟨_, rfl, rfl, rfl⟩

namespace Service

/-- An upgrade that dies while it fills the staging directory of its candidate. -/
def stagingCutOff : List (Visit Service Unit) :=
  [⟨runner 7 (diesAt 14), .free, (), .upgradeTo "2" .none⟩]

/-- The state of the transaction is said to be inconsistent. -/
def saidInconsistent : Except Error TxnState → Bool
  | .error (.invalid message) => contains message "TXN_STATE_INCONSISTENT"
  | _ => false

/-- The journal says that a candidate was staged, and there is none yet. -/
theorem transaction_cut_off : (installed "1").Bootstrapped "1" ∧
    saidInconsistent (runVisits stagingCutOff (installed "1")).disk.transactionState = true ∧
    ∀ (r : Runner Service Unit) shown,
      r.status (runVisits stagingCutOff (installed "1")) ≠
        (.ok shown, runVisits stagingCutOff (installed "1")) := by
  have hversion : "1" ≠ "" ∧ trim "1" = "1" := by decide +kernel
  have hstate : saidInconsistent
      (runVisits stagingCutOff (installed "1")).disk.transactionState = true := by
    decide +kernel
  refine ⟨installed_bootstrapped hversion.1 hversion.2, hstate, fun r shown hrun => ?_⟩
  obtain ⟨state, w, hstatus, -⟩ := Prog.bind_eq_ok hrun
  cases hread : (runVisits stagingCutOff (installed "1")).disk.transactionState with
  | ok state =>
      rw [hread] at hstate
      cases hstate
  | error e =>
      unfold Runner.transactionState FileStore.readDisk at hstatus
      rw [Prog.bind_run_ok (Prog.get_run _), hread] at hstatus
      cases hstatus

/-- The drive comes to the rename of its candidate, if it comes to its engine's upgrade. -/
def comesToRename (r : Runner Service Unit) (target : Option String) (options : UpgradeOptions)
    (w : World Service Unit) : Bool :=
  match r.toUpgrade target options w with
  | (.ok (c, .inr (_, release), s), _) =>
      match r.upgradeToRename c release.version incomingPath s with
      | (.ok (), _) => true
      | _ => false
  | _ => true

/-- A drive that comes to the rename of its staging is not cut off before it. -/
theorem not_cutsStaging {r : Runner Service Unit} {target : Option String}
    {options : UpgradeOptions} {w : World Service Unit}
    (h : comesToRename r target options w = true) : ¬r.CutsStaging target options w := by
  rintro ⟨-, c, operation, release, s, w', hrun, hshort⟩
  unfold comesToRename at h
  unfold Runner.CutShort at hshort
  rw [hrun] at h
  revert h hshort
  dsimp only
  generalize r.upgradeToRename c release.version incomingPath s = o
  obtain ⟨o, s'⟩ := o
  cases o with
  | ok u => exact fun _ hshort => hshort
  | err e => exact fun h => by cases h
  | crash => exact fun h => by cases h

/-- An upgrade that dies once its service was handed over, and a recovery that dies, too. -/
def handoverCutOff : List (Visit Service Unit) :=
  [⟨runner 7 (diesAt 30), .free, (), .upgradeTo "2" .none⟩,
    ⟨runner 8 (diesAt 40), .free, (), .recover none⟩]

/-- An upgrade cut off in its handover is legible. -/
theorem transaction_legible_handover :
    ∃ state, (runVisits handoverCutOff (installed "1")).disk.transactionState = .ok state ∧
      (∀ (r : Runner Service Unit), ∃ shown, r.status (runVisits handoverCutOff (installed "1")) =
        (.ok shown, runVisits handoverCutOff (installed "1")) ∧
        shown.phase = state.phase ∧ shown.experiment = state.experiment) ∧
      Runner.transactionState (runVisits handoverCutOff (installed "1")) =
        (.ok state, runVisits handoverCutOff (installed "1")) ∧
      ∀ shown, state.experiment = some shown → ∃ es last version,
        (runVisits handoverCutOff (installed "1")).disk.readJournal = .ok es ∧
        es.getLast? = some last ∧ last.detail.get "version" = some version ∧
        shown = trim version := by
  have hversion : "1" ≠ "" ∧ trim "1" = "1" := by decide +kernel
  refine transaction_legible handoverCutOff (installed "1") "1"
    (installed_bootstrapped hversion.1 hversion.2) ⟨?_, ?_, True.intro⟩
  · rintro ⟨target, options, hdriven, hcut⟩
    cases hdriven
    exact not_cutsStaging (by decide +kernel) hcut
  · rintro ⟨target, options, hdriven, -⟩
    cases hdriven

end Service

end KCarrier
