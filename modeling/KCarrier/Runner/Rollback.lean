import KCarrier.Runner.Slots
import KCarrier.Runner.Truth

/-!
# KCarrier.Runner.Rollback

What a rollback that reports a rollback has done.

A rollback leaves the journal to the recovery of the engine, which undoes what is in flight,
and finishes a promotion whose intent is durable.  `LeftBy` is what the slots and the journal
are at each point of that recovery, against the directory it found; `rollback_truthful` is when
the report is true.
-/

namespace KCarrier

open Crash
open Running

/-- The bytes of a slot. -/
def Disk.artifact (d : Disk) (place : Place) : File Bytes :=
  match d.slots place with
  | .dir slot => slot.artifact
  | _ => .absent

/-- The last intent of the journal. -/
def Disk.EndsIn (d : Disk) (tail : Option Phase) : Prop :=
  ∃ es, d.readJournal = .ok es ∧ lastIntent es = tail

/-- Under a promoted intent, the candidate of `d` has become the stable version of `d'`. -/
def Disk.Commits (d d' : Disk) : Prop :=
  d'.EndsIn (some .promoted) ∧ ∃ v, d.version .experiment = .ok (some v) ∧
    d'.slots .stable = d.slots .experiment

/-- No candidate was committed from `d` to `d'`. -/
structure Disk.Uncommitted (d d' : Disk) : Prop where
  version : d'.version .stable = d.version .stable
  bytes : d'.artifact .stable = d.artifact .stable
  pending : ¬d.Commits d'

/-- A promotion is pending: its intent is durable and its candidate is still on trial. -/
def Disk.Pending (d : Disk) : Prop :=
  d.EndsIn (some .promoted) ∧ ∃ v, d.version .experiment = .ok (some v)

theorem Disk.EndsIn.unique {d : Disk} {t t' : Option Phase} (h : d.EndsIn t) (h' : d.EndsIn t') :
    t = t' := by
  obtain ⟨es, hread, rfl⟩ := h
  obtain ⟨es', hread', rfl⟩ := h'
  rw [hread, Except.ok.injEq] at hread'
  rw [hread']

theorem Disk.uncommitted_of_stable {d d' : Disk} (hstable : d'.slots .stable = d.slots .stable)
    (hpending : ¬d.Commits d') : d.Uncommitted d' where
  version := Disk.version_congr hstable
  bytes := by
    unfold Disk.artifact
    rw [hstable]
  pending := hpending

/-! ## a promotion from a known directory -/

/-- A promotion of what `d₀` has on trial is over. -/
structure PromotedFrom (d₀ d : Disk) : Prop where
  journal : d.journal = d₀.journal
  seen : ∃ found, d₀.version .experiment = .ok found
  candidate : ∀ v, d₀.version .experiment = .ok (some v) → d.slots .stable = d₀.slots .experiment
  nothing : d₀.version .experiment = .ok none → d.slots .stable = d₀.slots .stable

namespace FileStore

variable {η γ : Type} {s : FileStore} {I : World η γ → Prop}

/-- **A promotion** moves the candidate to the stable slot, when there is one. -/
theorem promote_from (hI : Aside I) (d₀ : Disk) :
    Triple (Over (· = d₀) I) s.promote (fun _ => Over (PromotedFrom d₀) I) (fun _ _ => True) := by
  have hfinish : Triple (Over (PromotedFrom d₀) I) (s.removeDir .stableOld)
      (fun _ => Over (PromotedFrom d₀) I) (fun _ _ => True) := by
    refine (removeDir_elsewhere hI fun d node h => ⟨h.journal, h.seen, fun v hv => ?_, fun hv => ?_⟩).crash
      fun _ _ => trivial
    · rw [Disk.setSlot_of_ne d node (by simp)]
      exact h.candidate v hv
    · rw [Disk.setSlot_of_ne d node (by simp)]
      exact h.nothing hv
  let Waiting : Disk → Prop := fun d =>
    d.journal = d₀.journal ∧ d.slots .experiment = d₀.slots .experiment
  have hbackup : ∀ {D : Disk → Prop}, (∀ d node, D d → D (d.setSlot .stableOld node)) →
      Triple (Over D I) (s.removeDir .stableOld) (fun _ => Over D I) (fun _ _ => True) :=
    fun hD => (removeDir_elsewhere hI hD).crash fun _ _ => trivial
  have hpark : Triple (Over Waiting I) (s.renameDurable .stable .stableOld)
      (fun _ => Over Waiting I) (fun _ _ => True) := by
    refine (write_clean_keeps hI fun d h => ⟨h.1, ?_⟩).crash fun _ _ => trivial
    rw [Disk.setSlot_of_ne _ _ (by simp), Disk.setSlot_of_ne _ _ (by simp)]
    exact h.2
  have hpublish : ∀ v, d₀.version .experiment = .ok (some v) →
      Triple (Over Waiting I) (do
        s.renameDurable .experiment .stable
        s.removeDir .stableOld) (fun _ => Over (PromotedFrom d₀) I) (fun _ _ => True) := by
    intro v hv
    have hswap : Triple (Over Waiting I) (s.renameDurable .experiment .stable)
        (fun _ => Over (PromotedFrom d₀) I) (fun _ _ => True) := by
      refine (renameDurable_triple (fun _ => trivial : _ → True) hI fun d h =>
        ⟨h.1, ⟨_, hv⟩, fun _ _ => ?_, fun hnone => ?_⟩).crash fun _ _ => trivial
      · rw [Disk.setSlot_of_ne _ _ (by simp), Disk.setSlot_self]
        exact h.2
      · rw [hv] at hnone
        cases hnone
    exact Triple.bind hswap fun _ => hfinish
  unfold promote
  refine Triple.bind (R := fun found w => Over (· = d₀) I w ∧ d₀.version .experiment = .ok found)
    (readDisk_triple (fun found w h hread => ⟨h, by rw [← h.1]; exact hread⟩)
      fun _ _ _ _ => trivial) fun found => ?_
  cases found with
  | none =>
      refine Triple.bind (R := fun _ => Over (PromotedFrom d₀) I)
        (readDisk_triple (fun _ w h _ => ⟨?_, h.1.2⟩) fun _ _ _ _ => trivial) fun stable => ?_
      · obtain ⟨⟨hd, hi⟩, hnone⟩ := h
        rw [hd]
        refine ⟨rfl, ⟨_, hnone⟩, fun v hv => ?_, fun _ => rfl⟩
        rw [hnone] at hv
        cases hv
      · cases stable with
        | none => exact Triple.throw fun _ _ => trivial
        | some v => exact hfinish
  | some v =>
      refine Triple.get_bind fun w hw => ?_
      have hstart : ∀ w', w' = w → Over Waiting I w' := fun w' h => by
        rw [h]
        exact ⟨by rw [hw.1.1]; exact ⟨rfl, rfl⟩, hw.1.2⟩
      refine Triple.pre (P := Over Waiting I) ?_ hstart
      refine Triple.ite (fun _ => ?_) fun _ => hpublish v hw.2
      refine Triple.bind (hbackup fun d node h => ⟨h.1, ?_⟩) fun _ => ?_
      · rw [Disk.setSlot_of_ne d node (by simp)]
        exact h.2
      · exact Triple.bind hpark fun _ => hpublish v hw.2

end FileStore

/-! ## recovery from a known directory -/

/-- What `d₀` had in flight was undone, beside its stable slot. -/
def Undone (d₀ d : Disk) : Prop :=
  d.EndsIn (some .rolledBack) ∧ d.slots .stable = d₀.slots .stable ∧
    ¬d₀.EndsIn (some .promoted)

/-- What a recovery that found `d₀` has made of it. -/
def LeftBy (d₀ : Disk) : Point → Disk → Prop
  | .entry, d => d = d₀
  | .opened tail, d | .fenced tail, d => d = d₀ ∧ d₀.EndsIn tail
  | .rest none, d => d = d₀ ∧ ¬d₀.EndsIn (some .promoted)
  | .committed, d => d = d₀ ∧ d₀.EndsIn (some .promoted)
  | .published, d | .rest (some .promoted), d =>
      PromotedFrom d₀ d ∧ d₀.EndsIn (some .promoted)
  | .rolling, d | .rollStopped, d | .rollStarted, d | .restored, d
  | .rest (some .rolledBack), d => Undone d₀ d
  | _, _ => False

/-- What a recovery that found `d₀` and returned has made of it. -/
def RecoveredFrom (d₀ d : Disk) : Prop :=
  d = d₀ ∧ ¬d₀.EndsIn (some .promoted) ∨ PromotedFrom d₀ d ∧ d₀.EndsIn (some .promoted) ∨
    Undone d₀ d

section

variable {d₀ d : Disk}

/-- The experiment slot is not about what has become of the stable one. -/
theorem Undone.setExperiment (h : Undone d₀ d) (node : Node) :
    Undone d₀ (d.setSlot .experiment node) := by
  refine ⟨h.1, ?_, h.2.2⟩
  rw [Disk.setSlot_of_ne d node (by simp)]
  exact h.2.1

/-- The experiment slot was emptied after it. -/
def ReportedBack (d₀ d' : Disk) : Prop :=
  ∃ d, RecoveredFrom d₀ d ∧ d'.journal = d.journal ∧ d'.slots .stable = d.slots .stable

/-- **What is left** is what the report says when nothing was pending, and only then. -/
theorem ReportedBack.uncommitted_iff {d' : Disk} (h : ReportedBack d₀ d') :
    d₀.Uncommitted d' ↔ ¬d₀.Pending := by
  obtain ⟨d, h, hjournal, hstable⟩ := h
  have hends : ∀ tail, d'.EndsIn tail ↔ d.EndsIn tail := fun tail => by
    unfold Disk.EndsIn
    rw [Disk.readJournal_congr hjournal]
  constructor
  · intro huncommitted hpending
    obtain ⟨hpromoted, v, hv⟩ := hpending
    rcases h with ⟨-, hnot⟩ | ⟨hfrom, -⟩ | ⟨-, -, hnot⟩
    · exact hnot hpromoted
    · refine huncommitted.pending ⟨(hends _).mpr ?_, v, hv, hstable.trans (hfrom.candidate v hv)⟩
      obtain ⟨es, hread, hlast⟩ := hpromoted
      exact ⟨es, (Disk.readJournal_congr hfrom.journal).trans hread, hlast⟩
    · exact hnot hpromoted
  · intro hpending
    rcases h with ⟨rfl, hnot⟩ | ⟨hfrom, hpromoted⟩ | ⟨hback, hsame, -⟩
    · exact Disk.uncommitted_of_stable hstable fun hcommits => hnot ((hends _).mp hcommits.1)
    · obtain ⟨found, hfound⟩ := hfrom.seen
      cases found with
      | some v => exact absurd ⟨hpromoted, v, hfound⟩ hpending
      | none =>
          refine Disk.uncommitted_of_stable (hstable.trans (hfrom.nothing hfound)) ?_
          rintro ⟨-, v, hv, -⟩
          rw [hfound] at hv
          cases hv
    · refine Disk.uncommitted_of_stable (hstable.trans hsame) fun hcommits => ?_
      cases ((hends _).mp hcommits.1).unique hback

end

namespace Runner

variable {η γ : Type} {r : Runner η γ} {c : Convergence (World η γ)} {d₀ : Disk} {p q : Point}

/-- A host call between two points that say the same. -/
theorem leftBy_call {α : Type} (hpq : ∀ d, LeftBy d₀ p d → LeftBy d₀ q d) (label name : String)
    (call : Host η → Prog Error η (Option α)) :
    Triple (OnWorld (Over (LeftBy d₀ p) fun _ => True))
      (Engine.bounded label (r.hostCall name call))
      (fun _ => OnWorld (Over (LeftBy d₀ q) fun _ => True)) (fun _ _ => True) :=
  (Keeps.bounded (hostCall_keeps remote_true name call)).conseq (fun _ h => h)
    (fun _ s h => ⟨hpq s.world.disk h.1, trivial⟩) fun _ _ _ => trivial

/-- The rolled-back intent. -/
theorem leftBy_rolledBack {tail : Phase} (htail : tail ≠ .promoted) {detail : Detail}
    (hq : ∀ d, Undone d₀ d → LeftBy d₀ q d) :
    Triple (OnWorld (Over (LeftBy d₀ (.fenced (some tail))) fun _ => True))
      ((r.engine c).journal .rolledBack detail)
      (fun _ => OnWorld (Over (LeftBy d₀ q) fun _ => True)) (fun _ _ => True) := by
  unfold Engine.journal
  refine Triple.get_bind fun s ⟨⟨hd, es, hread, hlast⟩, _⟩ => ?_
  let entry := Engine.entryOf s.seq ((r.engine c).now s.world) .rolledBack detail
  have hnot : ¬d₀.EndsIn (some .promoted) := by
    intro hpromoted
    cases hpromoted.unique ⟨es, hread, hlast⟩
    exact htail rfl
  have happend : Triple (Over (fun d => d.readJournal = .ok es ∧
      d.slots .stable = d₀.slots .stable) fun _ => True)
      (r.store.append entry : Prog Error (World η γ) Unit)
      (fun _ => Over (LeftBy d₀ q) fun _ => True) (fun _ _ => True) := by
    refine (FileStore.append_triple (fun _ => trivial : _ → True) remote_true.aside
      (fun _ _ h => h) (.inr trivial)).conseq (fun _ h => h) (fun _ w h => ⟨hq _ ?_, trivial⟩)
      fun _ _ _ => trivial
    exact ⟨⟨_, h.1.1, lastIntent_concat es entry⟩, h.1.2, hnot⟩
  refine Triple.bind (R := fun _ => OnWorld (Over (LeftBy d₀ q) fun _ => True)) ?_ fun _ =>
    Triple.modify fun _ h => h
  refine Triple.zoom fun s' hs' => ?_
  rw [hs']
  refine (happend s.world ⟨⟨?_, ?_⟩, trivial⟩).mono (fun _ _ h => h) fun _ _ h => h
  · rw [hd]
    exact hread
  · rw [hd]

/-- **Recovery** from a known directory. -/
theorem leftBy_recover : RecoverOutline (r.engine c)
    (fun p => OnWorld (Over (LeftBy d₀ p) fun _ => True)) (fun _ _ => True) where
  stop := leftBy_call (fun _ h => h) _ _ _
  start := leftBy_call (fun _ h => h) _ _ _
  resumed := leftBy_call (fun _ h => h) _ _ _
  clear := by
    have hclear : Keeps (Over (Undone d₀) fun _ => True)
        (r.store.clear : Prog Error (World η γ) Unit) :=
      FileStore.removeDir_elsewhere remote_true.aside fun _ node h => h.setExperiment node
    exact (Keeps.lift hclear).conseq (fun _ h => h) (fun _ _ h => h) fun _ _ _ => trivial
  promote := by
    refine Triple.of_forall fun s hs => Triple.pre (P := OnWorld (Over (· = d₀) fun _ => True)) ?_
      fun s' h => by rw [h]; exact ⟨hs.1.1, trivial⟩
    have hpromote : Triple (Over (· = d₀) fun _ => True)
        (r.store.promote : Prog Error (World η γ) Unit)
        (fun _ => Over (PromotedFrom d₀) fun _ => True) (fun _ _ => True) :=
      FileStore.promote_from remote_true.aside d₀
    exact (Confined.lift hpromote).conseq (fun _ h => h)
      (fun _ _ h => ⟨⟨h.1, hs.1.2⟩, trivial⟩) fun _ _ _ => trivial
  resume := leftBy_call (fun _ h => h) _ _ _
  read := readEntries_triple (P := Over (· = d₀) fun _ => True)
    (fun es s h hread => ⟨⟨h.1, es, by rw [← h.1]; exact hread, rfl⟩, trivial⟩)
    fun _ _ _ _ => trivial
  fence tail := leftBy_call (fun _ h => h) _ _ _
  idle s h := by
    rcases h with ⟨⟨hd, hends⟩, -⟩ | ⟨⟨hd, hends⟩, -⟩
    · exact ⟨⟨hd, fun h => by cases h.unique hends⟩, trivial⟩
    · exact ⟨⟨hd, fun h => by cases h.unique hends⟩, trivial⟩
  commit s h := h
  redo s h := by
    obtain ⟨⟨hd, hends⟩, -⟩ := h
    exact ⟨⟨by rw [hd]; exact hends, by rw [hd], fun h => by cases h.unique hends⟩, trivial⟩
  withdraw reason := leftBy_rolledBack (by simp) fun _ h => h
  abandon tail reason htail := leftBy_rolledBack (by rcases htail with rfl | rfl | rfl <;> simp)
    fun _ h => h

/-- What a rollback under the lock leaves when it reports a rollback. -/
theorem rollbackLocked_reported (d₀ : Disk) (reason : String) :
    Triple (fun w : World η γ => w.disk = d₀) (r.rollbackLocked reason)
      (fun outcome w => (∃ reason report, outcome = .rolledBack reason report) →
        ReportedBack d₀ w.disk) (fun _ _ => True) := by
  have hclear : Keeps (Over (ReportedBack d₀) fun _ => True)
      (r.store.clear : Prog Error (World η γ) Unit) := by
    refine FileStore.removeDir_elsewhere remote_true.aside fun d' node h => ?_
    obtain ⟨d, h, hjournal, hstable⟩ := h
    refine ⟨d, h, hjournal, ?_⟩
    rw [Disk.setSlot_of_ne d' node (by simp)]
    exact hstable
  have hrecover : ∀ c, Triple (OnWorld fun w : World η γ => w.disk = d₀) (r.engine c).recover
      (fun _ => OnWorld fun w => RecoveredFrom d₀ w.disk) (fun _ => OnWorld fun _ => True) := by
    intro c
    have houtline : RecoverOutline (r.engine c)
        (fun p => OnWorld (Over (LeftBy d₀ p) fun _ => True)) (fun _ _ => True) := leftBy_recover
    refine houtline.recover_triple.conseq (fun s h => ⟨h, trivial⟩)
      (fun _ s h => ?_) fun _ _ _ => trivial
    obtain ⟨ended, h, -⟩ := h
    cases ended with
    | none => exact .inl h
    | some phase =>
        cases phase with
        | promoted => exact .inr (.inl h)
        | rolledBack => exact .inr (.inr h)
        | _ => exact h.elim
  have hcleared : Triple (fun w : World η γ => RecoveredFrom d₀ w.disk) r.store.clear
      (fun _ w => ReportedBack d₀ w.disk) (fun _ _ => True) :=
    hclear.conseq (fun w h => ⟨⟨w.disk, h, rfl, rfl⟩, trivial⟩) (fun _ _ h => h.1)
      fun _ _ _ => trivial
  have hnotify : ∀ kind detail, Triple (fun w : World η γ => ReportedBack d₀ w.disk)
      (product (r.hooks.notify kind detail)) (fun _ w => ReportedBack d₀ w.disk)
      (fun _ _ => True) := fun _ _ => (product_keeps (fun _ _ h => h) _).crash fun _ _ => trivial
  have hlocked := rollbackLocked_value_triple (H := fun _ => True) (E := fun w => w.disk = d₀)
    reason (fun _ _ _ _ => trivial) (fun _ _ => trivial) (fun _ _ h _ _ => h) (fun _ _ h => h)
    (fun _ _ _ => trivial) (fun c _ => hrecover c) hcleared hnotify
  refine hlocked.post fun outcome w h hrolled => ?_
  rcases h with ⟨rfl, -⟩ | ⟨-, h⟩
  · obtain ⟨_, _, hheld⟩ := hrolled
    cases hheld
  · exact h

/-- **A rollback reports truthfully**, when no promotion was pending and only then. -/
theorem rollback_truthful {w w' : World η γ} {reason said : String}
    {report : Option ConvergenceReport}
    (h : r.rollback reason w = (.ok (.rolledBack said report), w')) :
    w.disk.Uncommitted w'.disk ↔ ¬w.disk.Pending := by
  have hlocked : Triple (fun w₁ : World η γ => w₁.disk = w.disk) (r.rollback reason)
      (fun outcome w₁ => (∃ reason report, outcome = .rolledBack reason report) →
        ReportedBack w.disk w₁.disk) (fun _ _ => True) :=
    locked_post (fun _ _ _ h => h) (fun _ _ _ _ h => h) (rollbackLocked_reported w.disk reason)
  exact (hlocked.run_ok rfl h ⟨said, report, rfl⟩).uncommitted_iff

end Runner

namespace Service

/-- An upgrade that dies once its promoted intent is durable. -/
def promotionCutOff : List (Visit Service Unit) :=
  [⟨runner 7 (diesAt 45), .free, (), .upgradeTo "2" .none⟩]

/-- An upgrade that dies once its service was handed over. -/
def handoverBroken : List (Visit Service Unit) :=
  [⟨runner 7 (diesAt 30), .free, (), .upgradeTo "2" .none⟩]

/-- An operator's rollback after `visits`: the world it comes to, and what it comes to. -/
def comesAfter (visits : List (Visit Service Unit)) : World Service Unit :=
  { runVisits visits (installed "1") with lock := .free }

def rolledBackAfter (visits : List (Visit Service Unit)) :
    Res Error UpgradeOutcome × World Service Unit :=
  (runner 8 Faults.clean).rollback "operator" (comesAfter visits)

/-- The operator is told that the upgrade was rolled back, and the candidate is stable. -/
theorem rollback_promotes : (installed "1").Bootstrapped "1" ∧
    (rolledBackAfter promotionCutOff).1 = .ok (.rolledBack "operator" none) ∧
    ¬(comesAfter promotionCutOff).disk.Uncommitted (rolledBackAfter promotionCutOff).2.disk := by
  have hversion : "1" ≠ "" ∧ trim "1" = "1" := by decide +kernel
  have hbefore : ((comesAfter promotionCutOff).disk.version .stable).toOption =
      some (some "1") := by decide +kernel
  have hafter : ((rolledBackAfter promotionCutOff).2.disk.version .stable).toOption =
      some (some "2") := by decide +kernel
  refine ⟨installed_bootstrapped hversion.1 hversion.2, by decide +kernel, fun huncommitted => ?_⟩
  rw [huncommitted.version, hbefore, Option.some.injEq, Option.some.injEq] at hafter
  exact absurd hafter (by decide)

/-- A rollback of an upgrade in flight. -/
theorem rollback_truthful_handover :
    (comesAfter handoverBroken).disk.Uncommitted (rolledBackAfter handoverBroken).2.disk ↔
      ¬(comesAfter handoverBroken).disk.Pending := by
  have hanswer : (rolledBackAfter handoverBroken).1 = .ok (.rolledBack "operator" none) := by
    decide +kernel
  exact Runner.rollback_truthful (Prod.ext hanswer rfl)

end Service

end KCarrier
