import KCarrier.Runner.Legible
import KCarrier.Runner.Retire
import KCarrier.Runner.Rollback

/-!
# KCarrier.Runner.Freshness

Whether the report on file is about the stable version.

The report is written last, and by the upgrade that promoted alone; a promotion that is
finished by recovery, or whose upgrade fails on its way to the report, leaves the one of an
earlier version.  `Visit.Outdates` is a call that does so, and `reports_fresh` says that
without one the report, if there is one, is about what is stable, and what it vouches for was
seen by the call that promoted it.
-/

namespace KCarrier

open Crash
open Running

/-- There is a report that can be read. -/
def Disk.Reported (d : Disk) : Prop := ∃ report, d.readReport = .observed report

/-- The stable slot is the one of `d₀`, if a report is about it. -/
def Disk.Held (d₀ d : Disk) : Prop := d₀.Reported → d.slots .stable = d₀.slots .stable

/-- The report is the one of `d₀`, and so is the stable slot if the report is about it. -/
structure Disk.Unmoved (d₀ d : Disk) : Prop where
  report : d.report = d₀.report
  held : d₀.Held d

theorem Disk.Unmoved.refl (d : Disk) : d.Unmoved d := ⟨rfl, fun _ => rfl⟩

/-! ## recovery -/

/-- The stable slot is `node`. -/
def StableIs (node : Node) (d : Disk) : Prop := d.slots .stable = node

/-- The stable slot is `node`, and there is no candidate. -/
def NoCandidate (node : Node) (d : Disk) : Prop :=
  StableIs node d ∧ ∀ v, d.version .experiment ≠ .ok (some v)

section

variable {node : Node}

/-- Another slot is replaced. -/
theorem StableIs.setSlot {d : Disk} (h : StableIs node d) {place : Place} (new : Node)
    (hne : place ≠ .stable) : StableIs node (d.setSlot place new) := by
  unfold StableIs
  rw [Disk.setSlot_of_ne d new hne.symm]
  exact h

theorem stableIs_offJournal : FileStore.OffJournal (StableIs node) := fun _ _ h => h

/-- Without a candidate a promotion only looks for its backup. -/
theorem FileStore.promote_idle {η γ : Type} {s : FileStore} {I : World η γ → Prop}
    {D : Disk → Prop} (hI : Aside I) (hbackup : ∀ d new, D d → D (d.setSlot .stableOld new)) :
    Triple (Over (fun d => D d ∧ ∀ v, d.version .experiment ≠ .ok (some v)) I) s.promote
      (fun _ => Over D I) (fun _ => Over D I) := by
  have hremove : Keeps (Over D I) (s.removeDir .stableOld) :=
    FileStore.removeDir_elsewhere hI hbackup
  unfold FileStore.promote
  refine Triple.bind (R := fun found w => found = none ∧ Over D I w)
    (readDisk_triple (fun found w h hread => ?_) fun _ w h _ => ⟨h.1.1, h.2⟩) fun found => ?_
  · cases found with
    | none => exact ⟨rfl, h.1.1, h.2⟩
    | some v => exact absurd hread (h.1.2 v)
  · refine Triple.assume fun hnone => ?_
    subst hnone
    refine Triple.bind readDisk_keeps fun stable => ?_
    cases stable with
    | none => exact Triple.throw fun _ h => h
    | some v => exact hremove

end

namespace Runner

variable {η γ : Type} {r : Runner η γ} {c : Convergence (World η γ)} {node : Node} {d₀ : Disk}

/-- What a recovery that has no promotion to finish knows at each point. -/
def Settling (node : Node) : Point → Disk → Prop
  | .entry, d => StableIs node d ∧ ¬d.Pending
  | .opened tail, d | .fenced tail, d => StableIs node d ∧
      (tail = some .promoted → ∀ v, d.version .experiment ≠ .ok (some v))
  | .committed, d => NoCandidate node d
  | _, d => StableIs node d

/-- While a transaction settles the stable slot is as it was. -/
theorem Settling.stable {p : Point} {d : Disk} (h : Settling node p d) : StableIs node d := by
  cases p with
  | entry | opened | fenced | committed => exact h.1
  | _ => exact h

/-- **Recovery** leaves the stable slot alone when no promotion is pending. -/
theorem recover_settling : RecoverOutline (r.engine c)
    (fun p => OnWorld (Over (Settling node p) fun _ => True))
    (fun _ => OnWorld (Over (StableIs node) fun _ => True)) := by
  have hcall : ∀ {α : Type} {p q : Point} {label name : String} {call : Host η → HostCall η α},
      (∀ d, Settling node p d → Settling node q d) →
      Triple (OnWorld (Over (Settling node p) fun _ => True))
        (Engine.bounded label (r.hostCall name call))
        (fun _ => OnWorld (Over (Settling node q) fun _ => True))
        (fun _ => OnWorld (Over (StableIs node) fun _ => True)) := fun hpq =>
    (Keeps.bounded (hostCall_keeps remote_true _ _)).conseq (fun _ h => h)
      (fun _ _ h => ⟨hpq _ h.1, trivial⟩) fun _ _ h => ⟨h.1.stable, trivial⟩
  have hjournal : ∀ {p q : Point} {intent : Phase} {detail : Detail},
      (∀ d, StableIs node d → Settling node q d) →
      Triple (OnWorld (Over (Settling node p) fun _ => True)) ((r.engine c).journal intent detail)
        (fun _ => OnWorld (Over (Settling node q) fun _ => True))
        (fun _ => OnWorld (Over (StableIs node) fun _ => True)) := by
    intro p q intent detail hq
    have hkeeps : Keeps (OnWorld (Over (StableIs node) fun _ => True))
        ((r.engine c).journal intent detail) :=
      Keeps.journal (fun entry => FileStore.append_keeps remote_true.aside stableIs_offJournal entry)
        intent detail
    exact hkeeps.conseq (fun _ h => ⟨h.1.stable, trivial⟩) (fun _ _ h => ⟨hq _ h.1, trivial⟩)
      fun _ _ h => h
  have hclear : Keeps (Over (StableIs node) fun _ => True)
      (r.store.clear : Prog Error (World η γ) Unit) :=
    FileStore.removeDir_elsewhere remote_true.aside fun _ new h => h.setSlot new (by simp)
  have hpromote : Triple (Over (NoCandidate node) fun _ => True)
      (r.store.promote : Prog Error (World η γ) Unit) (fun _ => Over (StableIs node) fun _ => True)
      (fun _ => Over (StableIs node) fun _ => True) :=
    FileStore.promote_idle remote_true.aside fun _ new h => h.setSlot new (by simp)
  exact {
    stop := hcall fun _ h => h
    start := hcall fun _ h => h
    resumed := hcall fun _ h => h
    clear := Keeps.lift hclear
    promote := Confined.lift hpromote
    resume := hcall fun _ h => h
    read := by
      refine readEntries_triple (P := Over (Settling node .entry) fun _ => True)
        (fun es s h hread => ⟨⟨h.1.1, fun htail v hv => ?_⟩, trivial⟩)
        fun _ _ h _ => ⟨h.1.1, trivial⟩
      exact h.1.2 ⟨⟨es, hread, htail⟩, v, hv⟩
    fence := fun tail => hcall fun _ h => h
    idle := fun s h => h.elim (fun h => ⟨h.1.1, trivial⟩) fun h => ⟨h.1.1, trivial⟩
    commit := fun s h => ⟨⟨h.1.1, h.1.2 rfl⟩, trivial⟩
    redo := fun s h => ⟨h.1.1, trivial⟩
    withdraw := fun reason => hjournal fun _ h => h
    abandon := fun tail reason _ => hjournal fun _ h => h }

/-- The engine's recovery, by what a report is about. -/
theorem recover_held : Triple
    (OnWorld fun w : World η γ => d₀.Held w.disk ∧ (d₀.Reported → ¬w.disk.Pending))
    (r.engine c).recover (fun _ => OnWorld fun w => d₀.Held w.disk)
    (fun _ => OnWorld fun w => d₀.Held w.disk) := by
  by_cases hreport : d₀.Reported
  · exact recover_settling.recover_triple.conseq
      (fun _ h => ⟨⟨h.1 hreport, h.2 hreport⟩, trivial⟩) (fun _ _ ⟨_, h⟩ _ => h.1.stable)
      fun _ _ h _ => h.1
  · exact Triple.any.conseq (fun _ _ => trivial) (fun _ _ _ h => absurd h hreport)
      fun _ _ _ h => absurd h hreport

/-- That the slots are held is not about the records. -/
theorem held_offRecords : OffRecords (fun w : World η γ => d₀.Held w.disk) :=
  offRecords_of_transaction fun _ _ _ hs h hreport => by rw [hs]; exact h hreport

/-- The recovery of a call has no promotion to finish that a report is not about. -/
def Awaits (d₀ : Disk) (w : World η γ) : Prop :=
  d₀.Held w.disk ∧ (d₀.Reported → Unsettled w → Readable w → ¬w.disk.Pending)

/-- What a report awaits is about the books. -/
theorem awaits_about : AboutBooks (Awaits d₀ : World η γ → Prop) := by
  rintro w w' hsame ⟨hheld, hpending⟩
  have hop := Disk.readOperation_congr hsame.operation
  refine ⟨fun hreport => by rw [hsame.slots]; exact hheld hreport, fun hreport hun hread h => ?_⟩
  refine hpending hreport (fun op h => hun op (hop.trans h)) (fun reason h => hread reason (hop.trans h)) ?_
  obtain ⟨⟨es, hes, htail⟩, v, hv⟩ := h
  rw [Disk.readJournal_congr hsame.journal] at hes
  rw [Disk.version_congr (congrFun hsame.slots .experiment)] at hv
  exact ⟨⟨es, hes, htail⟩, v, hv⟩

/-- **The recovery of a call**, by what a report is about. -/
theorem recoverEngine_held : Triple (OnWorld (Awaits d₀)) (r.recoverEngine c)
    (fun _ => OnWorld fun w => d₀.Held w.disk) (fun _ => OnWorld fun w => d₀.Held w.disk) :=
  recoverEngine_of_recover (fun _ h => h.1)
    (recover_held.pre fun _ h => ⟨h.1.1, fun hreport => h.1.2 hreport h.2.1 h.2.2⟩)

/-! ## the calls that promote nothing themselves -/

/-- What the report file holds is about the report. -/
theorem file_aboutReport (file : File ConvergenceReport) :
    AboutReport (fun w : World η γ => w.disk.report = file) := fun _ _ hsame h => hsame.1.trans h

/-- The engine leaves the report alone. -/
theorem file_frame (hc : ReadsProduct c) (file : File ConvergenceReport) :
    Frame (r.engine c) (fun w => w.disk.report = file) :=
  (file_aboutReport file).frame (evaluate_keeps (fun _ _ h => h) (fun _ _ h => h) hc)

/-- The call does not finish a promotion under the report of another. -/
def Refrains (r : Runner η γ) (call : Call) (d₀ : Disk) (w : World η γ) : Prop :=
  d₀.Held w.disk ∧ (d₀.Reported → r.GetsToRecovery call w → ¬w.disk.Pending)

/-- What `recover` does under the lock. -/
theorem recoverLocked_unmoved {call : Call} (hcall : call.recovers = true) :
    Triple (fun w => w.disk.report = d₀.report ∧ r.Refrains call d₀ w)
      (r.recoverLocked call.expected) (fun _ w => d₀.Unmoved w.disk)
      (fun _ w => d₀.Unmoved w.disk) := by
  have hreport : Keeps (fun w : World η γ => w.disk.report = d₀.report)
      (r.recoverLocked call.expected) := by
    have hfile := file_aboutReport (η := η) (γ := γ) d₀.report
    refine recoverLocked_within (E := fun w => w.disk.report = d₀.report) call.expected
      (fun _ _ h => h) (fun _ _ h => h) fun c hc => ?_
    refine Triple.bind (recoverEngine_confined (file_frame hc _).confined fun _ _ h => h) fun _ => ?_
    exact Keeps.lift hfile.offFetch.settle
  have hheld : Triple (r.Refrains call d₀) (r.recoverLocked call.expected)
      (fun _ w => d₀.Held w.disk) (fun _ w => d₀.Held w.disk) := by
    have hawaits : ∀ w, r.Refrains call d₀ w → r.LetThrough call.expected true w → Awaits d₀ w :=
      fun w h hthrough => ⟨h.1, fun hrep hun hread =>
        h.2 hrep (getsToRecovery_of_recovers hcall hun hread hthrough)⟩
    refine recoverLocked_letThrough call.expected (fun _ h => h.1) hawaits awaits_about.observed
      (fun _ h => h.1) fun c _ => ?_
    exact Triple.bind recoverEngine_held fun _ => Keeps.lift held_offRecords.settle
  exact (hreport.and hheld).conseq (fun _ h => h) (fun _ _ h => ⟨h.1, h.2⟩) fun _ _ h => ⟨h.1, h.2⟩

/-- What `rollback` does under the lock. -/
theorem rollbackLocked_unmoved (reason : String) :
    Triple (fun w => w.disk.report = d₀.report ∧ r.Refrains (.rollback reason) d₀ w)
      (r.rollbackLocked reason) (fun _ w => d₀.Unmoved w.disk) (fun _ w => d₀.Unmoved w.disk) := by
  have hreport : Keeps (fun w : World η γ => w.disk.report = d₀.report)
      (r.rollbackLocked reason) := by
    have hfile := file_aboutReport (η := η) (γ := γ) d₀.report
    have hclear : Keeps (Over (fun d => d.report = d₀.report) fun _ => True)
        (r.store.clear : Prog Error (World η γ) Unit) :=
      FileStore.removeDir_elsewhere remote_true.aside fun _ _ h => h
    refine rollbackLocked_keeps reason (fun _ _ h => h) (fun c hc => (file_frame hc _).recover) ?_
      fun _ _ => hfile.offFetch.asked _
    exact hclear.conseq (fun _ h => ⟨h, trivial⟩) (fun _ _ h => h.1) fun _ _ h => h.1
  have hheld : Triple (r.Refrains (.rollback reason) d₀) (r.rollbackLocked reason)
      (fun _ w => d₀.Held w.disk) (fun _ w => d₀.Held w.disk) := by
    have hclear : Keeps (Over d₀.Held fun _ => True) (r.store.clear : Prog Error (World η γ) Unit) :=
      FileStore.removeDir_elsewhere remote_true.aside fun _ node h hrep =>
        (Disk.setSlot_of_ne _ node (by simp)).trans (h hrep)
    refine rollbackLocked_kind_triple
      (E := fun w => d₀.Held w.disk ∧ (d₀.Reported → ¬w.disk.Pending))
      (R := fun w => d₀.Held w.disk) reason (fun _ _ h _ => h.1) (fun _ h => h.1)
      (fun w es h hread hgo => ⟨h.1, fun hrep hpending => ?_⟩) (fun _ _ h => h) (fun _ _ h => h.1)
      (fun c _ => recover_held) ?_ fun _ _ => held_offRecords.quiet.asked _
    · rcases hgo with hbusy | hmanaged
      · obtain ⟨es', hread', htail⟩ := hpending.1
        rw [hread, Except.ok.injEq] at hread'
        rw [hread', htail] at hbusy
        cases hbusy
      · exact h.2 hrep hmanaged hpending
    · exact hclear.conseq (fun _ h => ⟨h, trivial⟩) (fun _ _ h => h.1) fun _ _ h => h.1
  exact (hreport.and hheld).conseq (fun _ h => h) (fun _ _ h => ⟨h.1, h.2⟩) fun _ _ h => ⟨h.1, h.2⟩

/-! ## an upgrade and its report -/

/-- From a promotion to the write of its report. -/
def toReport (r : Runner η γ) (version : String) : Prog Error (World η γ) Unit := do
  product (r.hooks.notify "promoted" [("version", version)])
  let label := "report.json"
  r.store.boundary s!"before:{label}"

/-- An upgrade up to the write of its report: what it is about, if it is about to be written. -/
def upgradeToReport (r : Runner η γ) (c : Convergence (World η γ)) (release : Release) :
    Prog Error (Running (World η γ)) (Option String) := do
  match ← (r.engine c).upgrade release.version incomingPath with
  | .promoted version => do
      lift (FileStore.note (.upgraded (.promoted version)))
      lift (r.toReport version)
      pure (some version)
  | _ => pure none

/-- The upgrade from `s` comes to the write of its report. -/
def ComesToReport (r : Runner η γ) (c : Convergence (World η γ)) (release : Release)
    (s : Running (World η γ)) : Prop :=
  ∃ version s', r.upgradeToReport c release s = (.ok (some version), s')

/-- The upgrade from `s` touches the stable slot before it comes to the write of its report. -/
def TouchesStable (r : Runner η γ) (c : Convergence (World η γ)) (release : Release)
    (s : Running (World η γ)) : Prop :=
  (r.upgradeToReport c release s).2.world.disk.slots .stable ≠ s.world.disk.slots .stable

/-- The report on file is about what is stable, and was vouched for by the surfaces of `r`. -/
structure Attests (r : Runner η γ) (report : ConvergenceReport) (d : Disk) : Prop where
  file : d.readReport = .observed report
  stable : d.version .stable = .ok (some report.version)
  shown : ∀ p, report.hostLifecycleConverged = some p → p.passed = true →
    r.surfaces ≠ [] ∧ ∀ s ∈ r.surfaces, p.Shows r.experimentArtifact s

/-- What a report attests is about the report and the stable slot. -/
theorem Attests.congr {report : ConvergenceReport} {d d' : Disk} (h : r.Attests report d)
    (hreport : d'.report = d.report) (hstable : d'.slots .stable = d.slots .stable) :
    r.Attests report d' where
  file := by
    rw [← h.file]
    unfold Disk.readReport
    rw [hreport]
  stable := (Disk.version_congr hstable).trans h.stable
  shown := h.shown

/-- The report is that of a promotion that `Q` is about, or nothing became stable since `d₀` that
the report is not about. -/
def Reports (r : Runner η γ) (d₀ : Disk) (Q : String → Prop) (d : Disk) : Prop :=
  d₀.Unmoved d ∨ ∃ report, r.Attests report d ∧ Q report.version

section

variable {Q : String → Prop}

/-- So is what a drive reports. -/
theorem Reports.congr {d d' : Disk} (h : r.Reports d₀ Q d) (hreport : d'.report = d.report)
    (hstable : d'.slots .stable = d.slots .stable) : r.Reports d₀ Q d' := by
  rcases h with h | ⟨report, h, hq⟩
  · exact .inl ⟨hreport.trans h.report, fun hrep => hstable.trans (h.held hrep)⟩
  · exact .inr ⟨report, h.congr hreport hstable, hq⟩

/-- It is not about the record. -/
theorem reports_transition (op : Option Operation) (phase : OperationPhase)
    (outcome : Option Outcome) (reason : Option String) :
    Keeps (fun w : World η γ => r.Reports d₀ Q w.disk) (r.transition op phase outcome reason) :=
  transition_keeps (fun _ _ h => h) (fun _ _ h => h.congr rfl rfl) op phase outcome reason

/-- What a report made after the promotion attests once it is written. -/
theorem attests_written (hdeclares : r.Declares c) {version : String} {d : Disk} {w : World η γ}
    (hstable : d.version .stable = .ok (some version)) (hvetted : c.Vetted w.observed) :
    r.Attests (c.report version (w, w.observed))
      { d with report := .content (c.report version (w, w.observed)) } where
  file := rfl
  stable := hstable
  shown := by
    intro p hp hpassed
    cases hlife : w.observed.lifecycle with
    | some lifecycle =>
        simp only [Convergence.report, hlife, Option.some.injEq] at hp
        subst hp
        exact hdeclares.shows hvetted hlife hpassed
    | none =>
        simp only [Convergence.report, hlife] at hp
        split at hp
        · cases hp
        · cases hp
          cases hpassed

/-- **The end of a promotion**, by the way to its report. -/
theorem conclude_reports (hdeclares : r.Declares c) {op : Option Operation} {version : String}
    {w : World η γ} (hvetted : c.Vetted w.observed)
    (hcut : ∀ e w', r.toReport version w = (.early e, w') → w'.disk = w.disk → d₀.Unmoved w'.disk)
    (hstable : ∀ w', r.toReport version w = (.ok (), w') →
      w.disk.version .stable = .ok (some version)) (hQ : Q version) :
    Triple (· = w) (r.conclude c op (.promoted version)) (fun _ w' => r.Reports d₀ Q w'.disk)
      (fun _ w' => r.Reports d₀ Q w'.disk) := by
  have hsame : Keeps (fun w' : World η γ => w'.disk = w.disk) (r.toReport version) :=
    Triple.bind (product_keeps (fun _ _ h => h) _) fun _ =>
      (FileStore.boundary_triple (fun _ => trivial : _ → True) (fun _ _ h => h) _).crash fun _ h => h.1
  let report := c.report version (w, w.observed)
  have hconclude : Triple (· = w) (r.toReport version >>= fun _ => do
      Prog.modify fun w => { w with disk := { w.disk with report := .content report } }
      let label := "report.json"
      r.store.boundary s!"after:{label}"
      let _ ← r.transition op .promoted (some .promoted) none
      pure (.promoted report) : Prog Error (World η γ) UpgradeOutcome)
      (fun _ w' => r.Reports d₀ Q w'.disk) (fun _ w' => r.Reports d₀ Q w'.disk) := by
    refine Triple.bind ((hsame.exact rfl).conseq (fun _ h => h) (fun _ _ h => h)
      fun e w' h => .inl (hcut e w' h.1 h.2)) fun _ => ?_
    refine Triple.bind (R := fun _ w' => r.Reports d₀ Q w'.disk) (Triple.modify fun w' h => ?_)
      fun _ => ?_
    · refine .inr ⟨report, attests_written hdeclares (d := w'.disk) ?_ hvetted, hQ⟩
      rw [h.2]
      exact hstable w' h.1
    · refine Triple.bind (R := fun _ w' => r.Reports d₀ Q w'.disk) ?_ fun _ => ?_
      · exact (FileStore.boundary_triple (fun _ => trivial : _ → True) (fun _ _ h => h) _).crash
          fun _ h => h.1
      · exact Triple.bind (reports_transition op _ _ _) fun _ => Triple.pure fun _ h => h
  unfold conclude
  refine Triple.get_bind fun w' hw' => ?_
  subst hw'
  simpa only [FileStore.persistReport, FileStore.write, toReport, Prog.bind_assoc] using hconclude

/-- What comes after an upgrade that did not promote is not about the report. -/
theorem conclude_other {op : Option Operation} {outcome : EngineOutcome}
    (hother : ∀ v, outcome ≠ .promoted v) :
    Keeps (fun w : World η γ => r.Reports d₀ Q w.disk) (r.conclude c op outcome) := by
  cases outcome with
  | promoted version => exact absurd rfl (hother version)
  | rolledBack reason =>
      unfold conclude
      refine Triple.bind (product_keeps (fun _ _ h => h) _) fun _ => ?_
      exact Triple.bind (reports_transition op _ _ _) fun _ => Triple.pure fun _ h => h
  | upToDate => exact Triple.bind (reports_transition op _ _ _) fun _ => Triple.pure fun _ h => h

/-- The report is the one of `file`, and the cell was filled by `c`. -/
def Vetting (c : Convergence (World η γ)) (file : File ConvergenceReport) (w : World η γ) : Prop :=
  w.disk.report = file ∧ c.Vetted w.observed

/-- A verdict is no report yet. -/
theorem vetting_aboutReport (file : File ConvergenceReport) : AboutReport (Vetting c file) := by
  rintro w w' hsame ⟨hfile, hvetted⟩
  refine ⟨hsame.1.trans hfile, ?_⟩
  rw [hsame.2]
  exact hvetted

/-- The engine's calls are about neither, but for its verdict on the candidate. -/
theorem vetting_frame (hdeclares : r.Declares c) (file : File ConvergenceReport) :
    Frame (r.engine c) (Vetting c file) := by
  refine (vetting_aboutReport file).frame fun evidence target => ?_
  have hreport : Keeps (fun w : World η γ => w.disk.report = file)
      ((r.engine c).predicates.evaluate evidence target) :=
    evaluate_keeps (fun _ _ h => h) (fun _ _ h => h) hdeclares.readsProduct evidence target
  have hcell : Keeps (fun w : World η γ => c.Vetted w.observed)
      (Prog.zoom (fun w : World η γ => (w, w.observed)) (fun s _ => { s.1 with observed := s.2 })
        (c.evaluate r.self evidence target)) :=
    Triple.zoom fun w hw => (Convergence.evaluate_vetted hdeclares.distinct r.self evidence target
      (w, w.observed) hw).mono (fun _ _ h => h) fun _ _ h => h
  exact hreport.and hcell

/-- **The engine's upgrade and its record**, by the way to the report. -/
theorem carryOut_reports (hdeclares : r.Declares c) {op : Option Operation} {release : Release}
    {s : Running (World η γ)} (hs : d₀.Unmoved s.world.disk) (hvetted : c.Vetted s.world.observed)
    (hkept : d₀.Reported → ¬r.ComesToReport c release s → ¬r.TouchesStable c release s)
    (htrim : r.ComesToReport c release s → trim release.version = release.version)
    (hQ : ∀ version s', (r.engine c).upgrade release.version incomingPath s =
      (.ok (.promoted version), s') → Q version) :
    Triple (· = s) (r.carryOut c op release) (fun _ => OnWorld fun w => r.Reports d₀ Q w.disk)
      (fun _ => OnWorld fun w => r.Reports d₀ Q w.disk) := by
  -- cut off on the way the stable slot is as it was
  have hstay : ∀ res s', r.upgradeToReport c release s = (res, s') → (∀ v, res ≠ .ok (some v)) →
      s'.world.disk.report = s.world.disk.report → d₀.Unmoved s'.world.disk := by
    intro res s' hrun hnot hreport
    refine ⟨hreport.trans hs.report, fun hrep => ?_⟩
    have hnone : ¬r.ComesToReport c release s := by
      rintro ⟨v, s'', h⟩
      rw [hrun, Prod.mk.injEq] at h
      exact hnot v h.1
    have hsame := hkept hrep hnone
    unfold TouchesStable at hsame
    rw [hrun] at hsame
    exact (Classical.not_not.mp hsame).trans (hs.held hrep)
  let After : Except Error EngineOutcome → Running (World η γ) → Prop := fun reply s' =>
    Vetting c s.world.disk.report s'.world ∧ Caught
      (fun outcome s' => (r.engine c).upgrade release.version incomingPath s = (.ok outcome, s') ∧
        ∀ v, outcome = .promoted v → v = release.version ∧
          s'.world.disk.version .stable = .ok (some (trim release.version)))
      (fun e s' => (r.engine c).upgrade release.version incomingPath s = (.err e, s')) reply s'
  have hupgrade : Triple (· = s) (Prog.attempt ((r.engine c).upgrade release.version incomingPath))
      After (fun _ => OnWorld fun w => r.Reports d₀ Q w.disk) := by
    have hrun := (((vetting_frame hdeclares s.world.disk.report).upgrade release.version
      incomingPath).and (upgrade_publishes hdeclares.readsProduct incomingPath)).exact
      (s := s) ⟨⟨rfl, hvetted⟩, trivial⟩
    refine Triple.attempt (hrun.conseq (fun _ h => h) (fun outcome s' h => ?_) fun e s' h => ?_)
    · exact ⟨h.2.1, h.1, h.2.2⟩
    · cases e with
      | none => exact .inl (hstay _ s' (Prog.bind_run_early h.1) (fun v h => by cases h) h.2.1.1)
      | some e => exact ⟨h.2.1, h.1⟩
  unfold carryOut
  refine Triple.bind hupgrade fun reply => ?_
  cases reply with
  | error e =>
      refine Triple.pre (P := OnWorld fun w => r.Reports d₀ Q w.disk) ?_ fun s' h =>
        .inl (hstay _ s' (Prog.bind_run_err h.2) (fun v h => by cases h) h.1.1)
      exact Triple.bind (Keeps.lift (reports_transition op _ _ _)) fun _ => Triple.throw fun _ h => h
  | ok outcome =>
      have hother : (∀ v, outcome ≠ .promoted v) → Triple (After (.ok outcome)) (do
          lift (FileStore.note (.upgraded outcome))
          lift (r.conclude c op outcome)) (fun _ => OnWorld fun w => r.Reports d₀ Q w.disk)
          (fun _ => OnWorld fun w => r.Reports d₀ Q w.disk) := by
        intro hne
        refine Triple.pre (P := OnWorld fun w => r.Reports d₀ Q w.disk) ?_ fun s' h =>
          .inl (hstay (.ok none) s' ?_ (fun v h => by cases h) h.1.1)
        · refine Triple.bind (Keeps.lift (Triple.modify fun _ h => h)) fun _ => ?_
          exact Keeps.lift (conclude_other hne)
        · unfold upgradeToReport
          rw [Prog.bind_run_ok h.2.1]
          cases outcome with
          | promoted v => exact absurd rfl (hne v)
          | rolledBack reason => rfl
          | upToDate => rfl
      cases outcome with
      | rolledBack reason => exact hother fun v h => by cases h
      | upToDate => exact hother fun v h => by cases h
      | promoted v =>
          refine Triple.of_forall fun s' hs' => ?_
          obtain ⟨⟨hreport, hvetted'⟩, hrun, hpublished⟩ := hs'
          obtain ⟨rfl, hstable⟩ := hpublished v rfl
          let w₁ : World η γ :=
            { s'.world with log := s'.world.log ++ [.upgraded (.promoted release.version)] }
          have hway : ∀ res w', r.toReport release.version w₁ = (res, w') →
              r.upgradeToReport c release s =
                (res.map fun _ => some release.version, ⟨w', s'.seq⟩) := by
            intro res w' h
            have hlift : lift (r.toReport release.version) ⟨w₁, s'.seq⟩ = (res, ⟨w', s'.seq⟩) := by
              unfold Running.lift Prog.zoom
              rw [h]
            unfold upgradeToReport
            rw [Prog.bind_run_ok hrun]
            show (lift (r.toReport release.version) >>= _) ⟨w₁, s'.seq⟩ = _
            rw [Prog.bind_run, hlift]
            cases res <;> rfl
          have hconclude : Triple (· = w₁) (r.conclude c op (.promoted release.version))
              (fun _ w' => r.Reports d₀ Q w'.disk) (fun _ w' => r.Reports d₀ Q w'.disk) := by
            refine conclude_reports hdeclares hvetted' (fun e w' h hsame => ?_) (fun w' h => ?_)
              (hQ _ s' hrun)
            · refine hstay _ ⟨w', s'.seq⟩ (hway _ w' h) (fun v hv => ?_) ?_
              · cases e <;> cases hv
              · show w'.disk.report = _
                rw [hsame]
                exact hreport
            · rw [← htrim ⟨_, _, hway _ w' h⟩]
              exact hstable
          refine Triple.bind (R := fun _ s₁ => s₁.world = w₁) (Triple.zoom fun t ht => ?_) fun _ => ?_
          · rw [ht]
            rfl
          · exact Triple.zoom fun t ht => (hconclude t.world ht).mono (fun _ _ h => h) fun _ _ h => h

end

/-! ## the drive -/

/-- An upgrade that is cut off, or fails, with the stable slot touched and its report not
written. -/
def CutsReport (r : Runner η γ) (target : Option String) (options : UpgradeOptions)
    (w : World η γ) : Prop :=
  r.hooks.managedElsewhere w.product = false ∧ ∃ c operation release s w',
    r.toUpgrade target options w = (.ok (c, .inr (operation, release), s), w') ∧
      r.TouchesStable c release s ∧ ¬r.ComesToReport c release s

/-- An upgrade that reports a version which is not its own trim, as the slots have it. -/
def MisnamesReport (r : Runner η γ) (target : Option String) (options : UpgradeOptions)
    (w : World η γ) : Prop :=
  r.hooks.managedElsewhere w.product = false ∧ ∃ c operation release s w',
    r.toUpgrade target options w = (.ok (c, .inr (operation, release), s), w') ∧
      r.ComesToReport c release s ∧ trim release.version ≠ release.version

/-- An upgrade that promotes `version`. -/
def Promotes (r : Runner η γ) (target : Option String) (options : UpgradeOptions) (w : World η γ)
    (version : String) : Prop :=
  ∃ c operation release s w' s',
    r.toUpgrade target options w = (.ok (c, .inr (operation, release), s), w') ∧
      (r.engine c).upgrade release.version incomingPath s = (.ok (.promoted version), s')

/-- What a drive comes to its engine with. -/
theorem checked_awaits {call : Call} {target : Option String} {options : UpgradeOptions}
    (hdrives : call.Drives target options) :
    Triple (fun w => w.disk.report = d₀.report ∧ r.Refrains call d₀ w ∧
        r.hooks.managedElsewhere w.product = false)
      (r.checked target options pure)
      (fun c w => (r.Declares c ∧ w.observed = Observed.new) ∧ w.disk.report = d₀.report ∧
        Awaits d₀ w) (fun _ w => d₀.Unmoved w.disk) := by
  have hawaits : Triple (fun w => w.disk.report = d₀.report ∧ r.Refrains call d₀ w ∧
      r.hooks.managedElsewhere w.product = false) (r.checked target options pure)
      (fun _ w => w.disk.report = d₀.report ∧ Awaits d₀ w) (fun _ w => d₀.Unmoved w.disk) := by
    refine checked_triple (E := fun w => w.disk.report = d₀.report ∧ Awaits d₀ w) target options
      (fun _ _ h => ⟨h.1, h.2.1.1⟩) (fun _ _ _ _ h _ => ⟨h.1, h.2.1.1⟩) (fun w h hthrough => ?_)
      (fun w o h => ⟨h.1, awaits_about.observed w o h.2⟩) (fun _ _ h => ⟨h.1, h.2.1⟩)
      fun c _ => Triple.pure fun _ h => h
    exact ⟨h.1, h.2.1.1, fun hrep hun hread =>
      h.2.1.2 hrep (getsToRecovery_of_drives hdrives h.2.2 hun hread hthrough)⟩
  exact ((checked_declares target options).and hawaits).conseq (fun _ h => ⟨trivial, h⟩)
    (fun _ _ h => h) fun _ _ h => h.2

/-- **A drive** that writes the report of what it promotes. -/
theorem drive_reports {call : Call} {target : Option String} {options : UpgradeOptions}
    {w : World η γ} (hdriven : r.driven w call = some (target, options))
    (hw : d₀.Unmoved w.disk) (hrefrains : r.Refrains call d₀ w)
    (hcuts : d₀.Reported → ¬r.CutsReport target options w)
    (hmisnames : ¬r.MisnamesReport target options w) :
    Triple (· = w) (r.drive target options)
      (fun _ w' => r.Reports d₀ (r.Promotes target options w) w'.disk)
      (fun _ w' => r.Reports d₀ (r.Promotes target options w) w'.disk) := by
  let I : World η γ → Prop := fun w' => r.Reports d₀ (r.Promotes target options w) w'.disk
  have hunmoved : ∀ w' : World η γ, d₀.Unmoved w'.disk → I w' := fun _ h => .inl h
  unfold drive
  refine Triple.get_bind fun w₀ h₀ => ?_
  subst h₀
  cases hmanaged : r.hooks.managedElsewhere w₀.product with
  | true =>
      refine Triple.pre (P := I) ?_ fun w' h => by rw [h]; exact hunmoved w₀ hw
      exact Triple.bind (product_keeps (fun _ _ h => h) _) fun _ => Triple.pure fun _ h => h
  | false =>
      refine locked_exact (P := fun w => w.disk.report = d₀.report ∧ r.Refrains call d₀ w ∧
        r.hooks.managedElsewhere w.product = false) (fun _ _ _ h => h) (fun _ _ _ h => h)
        (fun w' h => hunmoved w' ⟨h.1, h.2.1.1⟩) ⟨hw.report, hrefrains, hmanaged⟩
        fun w₁ hacquire h₁ => ?_
      show Triple _ (r.checked target options
        fun c => withEngine (r.driveEngine c target options)) _ _
      rw [checked_bind]
      refine Triple.bind (((checked_awaits (drives_of_driven hdriven)).exact h₁).conseq
        (fun _ h => h) (fun _ _ h => h) fun _ w' h => hunmoved w' h.2) fun c =>
          Triple.of_forall fun w₂ h₂ => ?_
      obtain ⟨hrun, ⟨hdeclares, hnew⟩, hreport, hawaits⟩ := h₂
      have hinstall : Triple (· = ⟨w₂, 0⟩) (r.fetched c target options >>= r.install c)
          (fun _ => OnWorld I) (fun _ => OnWorld I) := by
        have hheld : Triple (OnWorld (Awaits d₀)) (r.fetched c target options)
            (fun _ => OnWorld fun w => d₀.Held w.disk) (fun _ => OnWorld fun w => d₀.Held w.disk) :=
          fetched_triple held_offRecords (fun _ h => h) recoverEngine_held target options
        have hfetch := (fetched_offFetch (vetting_aboutReport d₀.report).offFetch
          (vetting_frame hdeclares d₀.report) target options).and hheld
        have hvetted : c.Vetted w₂.observed := by
          rw [hnew]
          exact Convergence.vetted_new
        have hstart : OnWorld (Vetting c d₀.report) ⟨w₂, 0⟩ ∧ OnWorld (Awaits d₀) ⟨w₂, 0⟩ :=
          ⟨⟨hreport, hvetted⟩, hawaits⟩
        refine Triple.bind ((hfetch.exact hstart).conseq (fun _ h => h) (fun _ _ h => h)
          fun _ s h => hunmoved s.world ⟨h.2.1.1, h.2.2⟩) fun fetched => Triple.of_forall fun s hs => ?_
        obtain ⟨hfetched, ⟨hreport', hvetted⟩, hheld⟩ := hs
        have hs : d₀.Unmoved s.world.disk := ⟨hreport', hheld⟩
        cases fetched with
        | inl outcome => exact Triple.pure fun s' h => by rw [h]; exact hunmoved _ hs
        | inr found =>
            obtain ⟨operation, release⟩ := found
            have hway : r.toUpgrade target options w₀ =
                (.ok (c, .inr (operation, release), s), s.world) := toUpgrade_run hacquire hrun hfetched
            refine carryOut_reports hdeclares hs hvetted (fun hrep hnone htouches => ?_)
              (fun hcomes => ?_) fun version s' hupgrade => ?_
            · exact hcuts hrep ⟨hmanaged, c, operation, release, s, _, hway, htouches, hnone⟩
            · exact Classical.not_not.mp fun hne =>
                hmisnames ⟨hmanaged, c, operation, release, s, _, hway, hcomes, hne⟩
            · exact ⟨c, operation, release, s, _, s', hway, hupgrade⟩
      refine Triple.zoom fun w' hw' => ?_
      subst hw'
      rw [driveEngine_eq_fetched]
      exact hinstall _ rfl

end Runner

/-! ## runs -/

namespace Visit

variable {η γ : Type}

/-- The visit may leave a report that is not about what is stable. -/
inductive Outdates (v : Visit η γ) (w : World η γ) : Prop
  /-- it recovers a promotion that another call committed -/
  | finishes (hreport : w.disk.Reported) (hfree : v.lock = .free) (hvalid : v.call.Valid)
      (hgets : v.runner.GetsToRecovery v.call (v.finds w)) (hpending : w.disk.Pending)
  /-- its upgrade does not come to its report -/
  | cuts (hreport : w.disk.Reported) (target : Option String) (options : UpgradeOptions)
      (hdriven : v.runner.driven (v.finds w) v.call = some (target, options))
      (hcuts : v.runner.CutsReport target options (v.finds w))
  /-- its report is about another text than its slot -/
  | misnames (target : Option String) (options : UpgradeOptions)
      (hdriven : v.runner.driven (v.finds w) v.call = some (target, options))
      (hmisnames : v.runner.MisnamesReport target options (v.finds w))

/-- The visit promotes `version`. -/
def Promotes (v : Visit η γ) (w : World η γ) (version : String) : Prop :=
  ∃ target options, v.runner.driven (v.finds w) v.call = some (target, options) ∧
    v.runner.Promotes target options (v.finds w) version

/-- **A visit** keeps the report and what is stable, or writes the report of what it promoted. -/
theorem run_reports {v : Visit η γ} {w : World η γ} (hmeets : ¬v.Outdates w) :
    v.runner.Reports w.disk (v.Promotes w) (v.run w).disk := by
  let I : World η γ → Prop := fun w' => v.runner.Reports w.disk (v.Promotes w) w'.disk
  have hunmoved : ∀ w' : World η γ, w.disk.Unmoved w'.disk → I w' := fun _ h => .inl h
  have hfinds : w.disk.Unmoved (v.finds w).disk := Disk.Unmoved.refl w.disk
  refine Visit.run_of_valid (I := I) (hunmoved _ hfinds) fun hvalid => ?_
  by_cases hfree : v.lock = .free
  · have hrefrains : v.runner.Refrains v.call w.disk (v.finds w) :=
      ⟨fun _ => rfl, fun hrep hgets hpending => hmeets (.finishes hrep hfree hvalid hgets hpending)⟩
    have hlocked : ∀ {α : Type} {body : Prog Error (World η γ) α},
        Triple (fun w' => w'.disk.report = w.disk.report ∧ v.runner.Refrains v.call w.disk w') body
          (fun _ w' => w.disk.Unmoved w'.disk) (fun _ w' => w.disk.Unmoved w'.disk) →
        Triple (· = v.finds w) (v.runner.locked body) (fun _ => I) (fun _ => I) := by
      intro α body hbody
      have hoff : OffLock fun w' : World η γ => w.disk.Unmoved w'.disk := fun _ _ _ h => h
      have hcall := Runner.locked_triple (r := v.runner) (fun _ _ _ h => h) (fun _ => hoff) hoff
        (fun _ h => ⟨h.1, h.2.1⟩) (fun _ _ h => h) hbody
      refine hcall.conseq (fun w' h => ?_) (fun _ w' h => hunmoved w' h) fun _ w' h => hunmoved w' h
      rw [h]
      exact ⟨rfl, hrefrains⟩
    refine Visit.run_of_triple (Runner.call_exact (hunmoved _ hfinds) (fun hc => ?_)
      (fun target options hd => ?_) fun reason hc => ?_) rfl
    · exact hlocked (Runner.recoverLocked_unmoved hc)
    · refine (Runner.drive_reports hd hfinds hrefrains (fun hrep h => ?_) fun h => ?_).conseq
        (fun _ h => h) (fun _ w' h => ?_) fun _ w' h => ?_
      · exact hmeets (.cuts hrep target options hd h)
      · exact hmeets (.misnames target options hd h)
      · exact h.imp id fun ⟨report, hattests, hpromotes⟩ =>
          ⟨report, hattests, target, options, hd, hpromotes⟩
      · exact h.imp id fun ⟨report, hattests, hpromotes⟩ =>
          ⟨report, hattests, target, options, hd, hpromotes⟩
    · rw [hc] at hlocked
      exact hlocked (Runner.rollbackLocked_unmoved reason)
  · -- without the lock nothing is written
    have hbusy : ∀ {α : Type} {body : Prog Error (World η γ) α},
        Triple (· = v.finds w) (v.runner.locked body) (fun _ => I) (fun _ => I) := fun {_ body} =>
      (Runner.locked_busy_triple (I := I) (fun _ _ h => h) body).pre fun w' h => by
        rw [h]
        exact ⟨hfree, hunmoved _ hfinds⟩
    refine Visit.run_of_triple (Runner.call_exact (hunmoved _ hfinds) (fun _ => hbusy)
      (fun target options _ => ?_) fun _ _ => hbusy) rfl
    unfold Runner.drive
    refine Triple.get_bind fun w₀ h₀ => ?_
    subst h₀
    refine Triple.ite (fun _ => ?_) fun _ => hbusy
    refine Triple.pre (P := I) ?_ fun w' h => by rw [h]; exact hunmoved _ hfinds
    exact Triple.bind (Runner.product_keeps (fun _ _ h => h) _) fun _ => Triple.pure fun _ h => h

end Visit

/-- The report on file is the one of the visit that promoted what is stable. -/
def Backed {η γ : Type} (w : World η γ) (visits : List (Visit η γ)) : Prop :=
  ∀ report, (runVisits visits w).disk.readReport = .observed report →
    ∃ before v after, visits = before ++ v :: after ∧
      v.Promotes (runVisits before w) report.version ∧
      v.runner.Attests report (runVisits (before ++ [v]) w).disk ∧
      (runVisits visits w).disk.slots .stable = (runVisits (before ++ [v]) w).disk.slots .stable

/-- One more visit. -/
theorem Backed.concat {η γ : Type} {w : World η γ} {visits : List (Visit η γ)} {v : Visit η γ}
    (h : Backed w visits) (hmeets : ¬v.Outdates (runVisits visits w)) : Backed w (visits ++ [v]) := by
  intro report hreport
  have hrun : runVisits (visits ++ [v]) w = v.run (runVisits visits w) := by
    rw [runVisits_append]
    rfl
  rcases Visit.run_reports hmeets with hkept | ⟨report', hattests, hpromotes⟩
  · rw [← hrun] at hkept
    have hbefore : (runVisits visits w).disk.readReport = .observed report := by
      rw [← hreport]
      unfold Disk.readReport
      rw [hkept.report]
    obtain ⟨before, v', after, rfl, hpromotes, hattests, hstable⟩ := h report hbefore
    refine ⟨before, v', after ++ [v], by simp, hpromotes, hattests, ?_⟩
    exact (hkept.held ⟨report, hbefore⟩).trans hstable
  · rw [← hrun] at hattests
    have hsame : report' = report := by
      have hfile := hattests.file
      rw [hreport, ReportRead.observed.injEq] at hfile
      exact hfile.symm
    subst hsame
    exact ⟨visits, v, [], rfl, hpromotes, hattests, rfl⟩

/-- A whole run. -/
theorem Backed.append {η γ : Type} {w : World η γ} (later : List (Visit η γ))
    {visits : List (Visit η γ)} (h : Backed w visits)
    (hmeets : EachVisit (fun v w => ¬v.Outdates w) later (runVisits visits w)) :
    Backed w (visits ++ later) := by
  induction later generalizing visits with
  | nil =>
      rw [List.append_nil]
      exact h
  | cons v later ih =>
      rw [List.append_cons]
      refine ih (h.concat hmeets.1) ?_
      rw [runVisits_append]
      exact hmeets.2

/-- **Reports are fresh** after every run, from a directory without one, in which no call finishes
the promotion of another, is cut off between a promotion and its report, or reports an untrimmed
version: a report that can be read is about what is stable; and the old manager may be retired
only when the visit that promoted this read its target back from every surface it declares, of
which there is one. -/
theorem reports_fresh {η γ : Type} (visits : List (Visit η γ)) (w : World η γ)
    (hgenesis : w.disk.readReport = .genesis)
    (hmeets : EachVisit (fun v w => ¬v.Outdates w) visits w) :
    (∀ report, (runVisits visits w).disk.readReport = .observed report →
      (runVisits visits w).disk.version .stable = .ok (some report.version)) ∧
    ∀ r : Runner η γ, r.retireLegacyManager (runVisits visits w) = .ok () →
      ∃ before v after report p, visits = before ++ v :: after ∧
        (runVisits visits w).disk.readReport = .observed report ∧
        v.Promotes (runVisits before w) report.version ∧
        (runVisits visits w).disk.slots .stable =
          (runVisits (before ++ [v]) w).disk.slots .stable ∧
        report.hostLifecycleConverged = some p ∧ p.passed = true ∧ v.runner.surfaces ≠ [] ∧
        ∀ s ∈ v.runner.surfaces, p.Shows v.runner.experimentArtifact s := by
  have hbacked : Backed w ([] ++ visits) := by
    refine Backed.append visits (fun report hreport => ?_) hmeets
    have hreport : w.disk.readReport = .observed report := hreport
    rw [hgenesis] at hreport
    cases hreport
  rw [List.nil_append] at hbacked
  refine ⟨fun report hreport => ?_, fun r hretire => ?_⟩
  · obtain ⟨before, v, after, -, -, hattests, hstable⟩ := hbacked report hreport
    exact (Disk.version_congr hstable).trans hattests.stable
  · obtain ⟨report, p, hreport, hlife, hpassed⟩ := retireReason_ok.mp hretire
    obtain ⟨before, v, after, hvisits, hpromotes, hattests, hstable⟩ := hbacked report hreport
    obtain ⟨hsome, hshown⟩ := hattests.shown p hlife hpassed
    exact ⟨before, v, after, report, p, hvisits, hreport, hpromotes, hstable, hlife, hpassed, hsome,
      hshown⟩

namespace Service

/-- A worker of a product with one surface, which shows the new version; its hook may fail. -/
def surfaced (self : Nat) (fails : Bool) : Runner Service Unit :=
  { runner self Faults.clean with
    surfaces := [⟨"live", HostCall.reply ("/root/slots/experiment/artifact.bin", "2")⟩]
    hooks := { Hooks.default with
      notify := fun _ _ => if fails then Prog.throw (.invalid "unreachable") else pure () } }

/-- An upgrade that reports its promotion, one that promotes and cannot be announced, and the
recovery that settles its record. -/
def unannounced : List (Visit Service Unit) :=
  [⟨surfaced 7 false, .free, (), .execute (.upgrade 1 "a" "2" true)⟩,
    ⟨surfaced 8 true, .free, (), .execute (.upgrade 1 "b" "3" true)⟩,
    ⟨surfaced 9 false, .free, (), .recover none⟩]

/-- Nothing is in flight and the record is settled, and the report is not about what is stable. -/
def showsStale (d : Disk) : Bool :=
  match d.readOperation, d.readJournal, d.readReport, d.version .stable with
  | .observed op, .ok es, .observed report, .ok (some v) =>
      op.outcome.isSome && (lastIntent es).all Phase.atRest && report.version != v
  | _, _, _, _ => false

/-- The old manager may be retired on the report of the first promotion, after the second. -/
theorem reports_outdated : (installed "1").Bootstrapped "1" ∧
    (installed "1").disk.readReport = .genesis ∧
    let d := (runVisits unannounced (installed "1")).disk
    (∃ op outcome es report, d.readOperation = .observed op ∧ op.outcome = some outcome ∧
      d.readJournal = .ok es ∧ AtRest es ∧ d.readReport = .observed report ∧
      d.version .stable ≠ .ok (some report.version)) ∧
    ∀ r : Runner Service Unit,
      r.retireLegacyManager (runVisits unannounced (installed "1")) = .ok () := by
  have hversion : "1" ≠ "" ∧ trim "1" = "1" := by decide +kernel
  have hstale : showsStale (runVisits unannounced (installed "1")).disk = true := by
    decide +kernel
  have hretire : (match retireReason (runVisits unannounced (installed "1")).disk.readReport with
      | .ok () => true
      | .error _ => false) = true := by decide +kernel
  refine ⟨installed_bootstrapped hversion.1 hversion.2, rfl, ?_, fun r => ?_⟩
  · generalize (runVisits unannounced (installed "1")).disk = d at hstale
    unfold showsStale at hstale
    split at hstale
    · next op es report v hop hes hreport hv =>
        simp only [Bool.and_eq_true, bne_iff_ne, ne_eq] at hstale
        obtain ⟨outcome, ho⟩ := Option.isSome_iff_exists.mp hstale.1.1
        refine ⟨op, outcome, es, report, hop, ho, hes, fun p hp => ?_, hreport, fun hsame => ?_⟩
        · have hall := hstale.1.2
          rw [hp] at hall
          simpa using hall
        · rw [hv, Except.ok.injEq, Option.some.injEq] at hsame
          exact hstale.2 hsame.symm
    · cases hstale
  · unfold Runner.retireLegacyManager
    revert hretire
    generalize retireReason (runVisits unannounced (installed "1")).disk.readReport = o
    cases o with
    | ok u => exact fun _ => rfl
    | error e => exact fun h => by cases h

/-- The upgrade, if there is one, comes to its report, under its own trim. -/
def comesToReport (r : Runner Service Unit) (target : Option String) (options : UpgradeOptions)
    (w : World Service Unit) : Bool :=
  match r.toUpgrade target options w with
  | (.ok (c, .inr (_, release), s), _) =>
      match r.upgradeToReport c release s with
      | (.ok (some _), _) => trim release.version == release.version
      | _ => false
  | _ => true

/-- A drive that comes to its report is not cut off before it. -/
theorem not_cutsReport {r : Runner Service Unit} {target : Option String} {options : UpgradeOptions}
    {w : World Service Unit} (h : comesToReport r target options w = true) :
    ¬r.CutsReport target options w := by
  rintro ⟨-, c, operation, release, s, w', hrun, -, hnone⟩
  unfold comesToReport at h
  rw [hrun] at h
  dsimp only at h
  split at h
  · next version s' hcomes => exact hnone ⟨version, s', hcomes⟩
  · cases h

/-- It does not misname it either. -/
theorem not_misnamesReport {r : Runner Service Unit} {target : Option String}
    {options : UpgradeOptions} {w : World Service Unit}
    (h : comesToReport r target options w = true) : ¬r.MisnamesReport target options w := by
  rintro ⟨-, c, operation, release, s, w', hrun, -, hne⟩
  unfold comesToReport at h
  rw [hrun] at h
  dsimp only at h
  split at h
  · exact hne (eq_of_beq h)
  · cases h

/-- No candidate is on trial. -/
def nothingOnTrial (d : Disk) : Bool :=
  match d.version .experiment with
  | .ok (some _) => false
  | _ => true

/-- With nothing on trial nothing is pending. -/
theorem not_pending {d : Disk} (h : nothingOnTrial d = true) : ¬d.Pending := by
  rintro ⟨-, v, hv⟩
  unfold nothingOnTrial at h
  rw [hv] at h
  cases h

/-- Two upgrades that report their promotions, with a recovery between them. -/
def announced : List (Visit Service Unit) :=
  [⟨surfaced 7 false, .free, (), .execute (.upgrade 1 "a" "2" true)⟩,
    ⟨surfaced 8 false, .free, (), .recover none⟩,
    ⟨surfaced 9 false, .free, (), .execute (.upgrade 1 "b" "3" true)⟩]

/-- An upgrade that was announced, and the service that may retire after it. -/
theorem reports_fresh_announced :
    (∀ report, (runVisits announced (installed "1")).disk.readReport = .observed report →
      (runVisits announced (installed "1")).disk.version .stable = .ok (some report.version)) ∧
    ∀ r : Runner Service Unit,
      r.retireLegacyManager (runVisits announced (installed "1")) = .ok () →
      ∃ before v after report p, announced = before ++ v :: after ∧
        (runVisits announced (installed "1")).disk.readReport = .observed report ∧
        v.Promotes (runVisits before (installed "1")) report.version ∧
        (runVisits announced (installed "1")).disk.slots .stable =
          (runVisits (before ++ [v]) (installed "1")).disk.slots .stable ∧
        report.hostLifecycleConverged = some p ∧ p.passed = true ∧ v.runner.surfaces ≠ [] ∧
        ∀ s ∈ v.runner.surfaces, p.Shows v.runner.experimentArtifact s := by
  have hunreported : ¬(installed "1").disk.Reported := fun ⟨report, h⟩ => by cases h
  refine reports_fresh announced (installed "1") rfl ⟨fun h => ?_, fun h => ?_, fun h => ?_, trivial⟩
  · cases h with
    | finishes hreport => exact hunreported hreport
    | cuts hreport => exact hunreported hreport
    | misnames target options hdriven hmisnames =>
        cases hdriven
        exact not_misnamesReport (by decide +kernel) hmisnames
  · cases h with
    | finishes _ _ _ _ hpending => exact not_pending (by decide +kernel) hpending
    | cuts _ target options hdriven => cases hdriven
    | misnames target options hdriven => cases hdriven
  · cases h with
    | finishes _ _ _ _ hpending => exact not_pending (by decide +kernel) hpending
    | cuts _ target options hdriven hcuts =>
        cases hdriven
        exact not_cutsReport (by decide +kernel) hcuts
    | misnames target options hdriven hmisnames =>
        cases hdriven
        exact not_misnamesReport (by decide +kernel) hmisnames

end Service

end KCarrier
