import KCarrier.Runner.Attribution
import KCarrier.Runner.Books
import KCarrier.Runner.Failures
import KCarrier.Runner.Slots

/-!
# KCarrier.Runner.Retire

What the retirement of the old manager rests on.

`retireReason` looks at nothing but the report on file.  What a report vouches for is settled
while it is made: a lifecycle that passed was read back from every surface of its call
(`Convergence.Vetted`), and an upgrade that returned promoted left its own version stable
(`upgrade_publishes`).  Nothing but the end of such an upgrade writes the report
(`AboutReport`).
-/

namespace KCarrier

open Crash
open Running

/-- Whether the old manager may be retired, by the report on file. -/
def retireReason : ReportRead → Except String Unit
  | .genesis => .error "cannot retire: no upgrade has converged yet"
  | .unreadable reason =>
      .error s!"cannot retire: last convergence report cannot be read ({reason})"
  | .observed report =>
      match report.hostLifecycleConverged with
      | none => .error "cannot retire: no OS-lifecycle surface was observed"
      | some p =>
          if p.passed then
            .ok ()
          else
            .error "cannot retire: host_lifecycle_converged did not pass"

/-- `Runner::retire_legacy_manager`, which only looks. -/
def Runner.retireLegacyManager {η γ : Type} (_ : Runner η γ) (w : World η γ) : Except String Unit :=
  retireReason w.disk.readReport

/-- It may be on a report whose lifecycle passed, and on no other. -/
theorem retireReason_ok {read : ReportRead} : retireReason read = .ok () ↔
    ∃ report p, read = .observed report ∧ report.hostLifecycleConverged = some p ∧
      p.passed = true := by
  constructor
  · intro h
    cases read with
    | genesis => cases h
    | unreadable reason => cases h
    | observed report =>
        simp only [retireReason] at h
        cases hlife : report.hostLifecycleConverged with
        | none =>
            rw [hlife] at h
            cases h
        | some p =>
            cases hp : p.passed with
            | true => exact ⟨report, p, rfl, hlife, hp⟩
            | false =>
                simp only [hlife, hp] at h
                cases h
  · rintro ⟨report, p, rfl, hlife, hp⟩
    simp only [retireReason, hlife, hp, if_true]

/-! ## the surfaces -/

/-- The surface was read and showed what was expected, and the verdict says so. -/
def PredicateResult.Shows {σ : Type} (p : PredicateResult) (expected : String)
    (s : ReadbackSurface σ) : Prop :=
  ∃ value, p.detail.get s.id = some value ∧ contains value expected = true ∧
    ∃ note t t', s.read t = (.ok (some (value, note)), t')

namespace Convergence

variable {σ : Type} {c : Convergence σ}

/-- A lifecycle that passed was shown by every surface, and there is one. -/
def Vetted (c : Convergence σ) (o : Observed) : Prop :=
  ∀ p, o.lifecycle = some p → p.passed = true →
    c.surfaces ≠ [] ∧ ∀ s ∈ c.surfaces, p.Shows c.expectedTarget s

theorem vetted_new : c.Vetted Observed.new := fun _ h => by cases h

/-- **Reading the surfaces**: a verdict that passed is about every one of them, beside what was
seen before. -/
theorem readSurfaces_shows (surfaces : List (ReadbackSurface σ)) (seen : List String)
    (result : PredicateResult) (sources : List String)
    (hdistinct : checkSurfaces seen surfaces = .ok ()) :
    Triple (fun _ => True) (c.readSurfaces result sources surfaces)
      (fun reply _ => ∀ p, reply = some p → p.passed = true →
        (∀ id ∈ seen, p.detail.get id = result.detail.get id) ∧
          ∀ s ∈ surfaces, p.Shows c.expectedTarget s)
      (fun _ _ => True) := by
  induction surfaces generalizing seen result sources with
  | nil =>
      refine Triple.pure fun _ _ p hp _ => ?_
      cases hp
      exact ⟨fun _ _ => rfl, fun _ hs => by cases hs⟩
  | cons surface rest ih =>
      rw [checkSurfaces] at hdistinct
      split at hdistinct
      · cases hdistinct
      next hnew =>
      have hfailed : ∀ {source : String} {detail : Detail}, Triple (fun _ : σ => True)
          (pure (some { result with passed := false, source := source, detail := detail }) :
            Prog Error σ (Option PredicateResult))
          (fun reply _ => ∀ p, reply = some p → p.passed = true →
            (∀ id ∈ seen, p.detail.get id = result.detail.get id) ∧
              ∀ s ∈ surface :: rest, p.Shows c.expectedTarget s) (fun _ _ => True) :=
        Triple.pure fun _ _ p hp hpassed => by
          cases hp
          cases hpassed
      unfold readSurfaces
      have hread : Triple (fun _ => True) (Prog.attempt surface.read)
          (fun reply _ => ∀ value note, reply = .ok (some (value, note)) →
            ∃ t t', surface.read t = (.ok (some (value, note)), t')) (fun _ _ => True) := by
        refine Triple.of_forall fun t _ => Triple.attempt ?_
        have hany : Triple (fun _ => True) surface.read (fun _ _ => True) (fun _ _ => True) :=
          fun s _ => by
            generalize surface.read s = o
            obtain ⟨o, s'⟩ := o
            cases o <;> trivial
        refine (hany.exact (s := t) trivial).conseq (fun _ h => h) (fun reply t' h value note he => ?_)
          fun e t' _ => ?_
        · cases he
          exact ⟨t, t', h.1⟩
        · cases e with
          | none => trivial
          | some e => exact fun _ _ he => by cases he
      refine Triple.bind hread fun reply => ?_
      rcases reply with e | _ | ⟨value, note⟩
      · exact hfailed.pre fun _ _ => trivial
      · exact Triple.pure fun _ _ p hp => by cases hp
      · refine Triple.ite (fun hvalue => ?_) fun _ => hfailed.pre fun _ _ => trivial
        refine Triple.of_forall fun t ht => ?_
        refine ((ih (surface.id :: seen) _ (sources ++ [surface.id]) hdistinct).pre
          fun _ _ => trivial).post fun reply t' h p hp hpassed => ?_
        obtain ⟨hkept, hshows⟩ := h p hp hpassed
        refine ⟨fun id hid => ?_, fun s hs => ?_⟩
        · rw [hkept id (List.mem_cons_of_mem _ hid)]
          refine Detail.get_insert_of_ne _ _ fun he => hnew (.inr ?_)
          rw [← he]
          exact hid
        · rcases List.mem_cons.mp hs with rfl | hs
          · refine ⟨value, ?_, hvalue, note, ht value note rfl⟩
            rw [hkept _ (by simp)]
            exact Detail.get_insert _ _ _
          · exact hshows s hs

/-- The verdict on live evidence fills the cell with what was read. -/
theorem evaluate_vetted (hdistinct : checkSurfaces [] c.surfaces = .ok ()) (self : Nat)
    (evidence : Evidence) (target : String) :
    Keeps (fun s : σ × Observed => c.Vetted s.2) (c.evaluate self evidence target) := by
  have hsettle : c.surfaces ≠ [] → Keeps (fun s : σ × Observed => c.Vetted s.2) c.settle := by
    intro hsome
    unfold settle
    refine Triple.get_bind fun s hs => ?_
    have hworld : Triple (· = s)
        (Convergence.world (c.readSurfaces ⟨true, "", c.clock s.1, []⟩ [] c.surfaces))
        (fun reply s' => s'.2 = s.2 ∧ ∀ p, reply = some p → p.passed = true →
          ∀ surface ∈ c.surfaces, p.Shows c.expectedTarget surface)
        (fun _ s' => c.Vetted s'.2) := by
      refine Triple.zoom fun s' hs' => ?_
      subst hs'
      exact (readSurfaces_shows c.surfaces [] _ [] hdistinct s'.1 trivial).mono
        (fun _ _ h => ⟨rfl, fun p hp hpassed => (h p hp hpassed).2⟩) fun _ _ _ => hs
    refine Triple.bind hworld fun reply => ?_
    cases reply with
    | none => exact Triple.pure fun s' h => by rw [h.1]; exact hs
    | some result =>
        refine Triple.bind (R := fun _ s' => c.Vetted s'.2) (Triple.modify fun s' h p hp => ?_)
          fun _ => Triple.pure fun _ h => h
        cases hp
        exact fun hpassed => ⟨hsome, h.2 result rfl hpassed⟩
  unfold evaluate
  refine Triple.bind (Triple.ofExcept (fun _ _ _ h => h) fun _ _ _ h => h) fun _ => ?_
  refine Triple.bind (R := fun _ s => c.Vetted s.2) (Triple.modify fun _ h => h) fun _ => ?_
  refine Triple.ite (fun _ => Triple.pure fun _ h => h) fun _ => ?_
  refine Triple.ite (fun _ => Triple.pure fun _ h => h) fun hsome => hsettle fun hnone => ?_
  rw [hnone] at hsome
  exact hsome rfl

end Convergence

/-! ## what a call declares -/

namespace Runner

variable {η γ α : Type} {r : Runner η γ} {c : Convergence (World η γ)}

/-- The predicate of a call: the surfaces of its runner, each with an id of its own. -/
structure Declares (r : Runner η γ) (c : Convergence (World η γ)) : Prop where
  surfaces : c.surfaces = r.surfaces.map fun s =>
    ({ id := s.id, read := product s.read } : ReadbackSurface (World η γ))
  expected : c.expectedTarget = r.experimentArtifact
  distinct : Convergence.checkSurfaces [] c.surfaces = .ok ()

/-- It is made when the call has its lock, with an empty cell. -/
theorem convergence_declares : Triple (fun _ => True) r.convergence
    (fun c w => r.Declares c ∧ w.observed = Observed.new) (fun _ _ => True) := by
  unfold convergence
  refine Triple.bind (R := fun c _ => r.Declares c) ?_ fun c => ?_
  · refine Triple.ofExcept (fun c w hc _ => ?_) fun _ _ _ _ => trivial
    unfold Convergence.new at hc
    split at hc
    · next hdistinct =>
        cases hc
        exact ⟨rfl, rfl, hdistinct⟩
    · cases hc
  · refine Triple.bind (R := fun _ w => r.Declares c ∧ w.observed = Observed.new)
      (Triple.modify fun _ h => ⟨h, rfl⟩) fun _ => Triple.pure fun _ h => h

/-- The predicate a drive comes to its engine with. -/
theorem checked_declares (target : Option String) (options : UpgradeOptions) :
    Triple (fun _ => True) (r.checked target options pure)
      (fun c w => r.Declares c ∧ w.observed = Observed.new) (fun _ _ => True) := by
  have hcall : Triple (fun _ => True) (do
      let c ← r.convergence
      Prog.ofExcept (Engine.checkBudget r.hostBudgetMs)
      pure c) (fun c w => r.Declares c ∧ w.observed = Observed.new) (fun _ _ => True) := by
    refine Triple.bind convergence_declares fun c => ?_
    exact Triple.bind (Triple.ofExcept (fun _ _ _ h => h) fun _ _ _ _ => trivial) fun _ =>
      Triple.pure fun _ h => h
  unfold checked
  refine Triple.bind Triple.any fun _ => ?_
  cases options.operation with
  | none => exact hcall
  | some desc => exact Triple.bind Triple.any fun _ => hcall

namespace Declares

theorem readsProduct (h : r.Declares c) : ReadsProduct c := by
  intro surface hsurface
  rw [h.surfaces] at hsurface
  obtain ⟨s, -, rfl⟩ := List.mem_map.mp hsurface
  exact ⟨s.read, rfl⟩

/-- What passed was shown by every surface the runner declares, and it declares one. -/
theorem shows (h : r.Declares c) {o : Observed} (hvetted : c.Vetted o) {p : PredicateResult}
    (hp : o.lifecycle = some p) (hpassed : p.passed = true) :
    r.surfaces ≠ [] ∧ ∀ s ∈ r.surfaces, p.Shows r.experimentArtifact s := by
  obtain ⟨hsome, hshows⟩ := hvetted p hp hpassed
  rw [h.surfaces] at hsome hshows
  refine ⟨fun hnone => hsome (by rw [hnone]; rfl), fun s hs => ?_⟩
  obtain ⟨value, hdetail, hvalue, note, w, w', hread⟩ := hshows _ (List.mem_map_of_mem hs)
  rw [h.expected] at hvalue
  have hread : product s.read w = (.ok (some (value, note)), w') := hread
  have hreply : (s.read w.product).1 = .ok (some (value, note)) := congrArg Prod.fst hread
  exact ⟨value, hdetail, hvalue, note, w.product, (s.read w.product).2, Prod.ext hreply rfl⟩

end Declares

end Runner

/-! ## what the report is not about -/

/-- The report and the predicate's cell are the same. -/
def SameReport {η γ : Type} (w w' : World η γ) : Prop :=
  w'.disk.report = w.disk.report ∧ w'.observed = w.observed

/-- `P` is about these alone. -/
def AboutReport {η γ : Type} (P : World η γ → Prop) : Prop := ∀ w w', SameReport w w' → P w → P w'

namespace AboutReport

variable {η γ α : Type} {r : Runner η γ} {c : Convergence (World η γ)} {P : World η γ → Prop}

theorem offTick (hP : AboutReport P) : OffTick P := fun w _ => hP w _ ⟨rfl, rfl⟩

theorem offLock (hP : AboutReport P) : OffLock P := fun w _ _ => hP w _ ⟨rfl, rfl⟩

/-- A durable step on another file. -/
theorem write (hP : AboutReport P) (s : FileStore) {label : String} {f : Disk → Disk}
    (hf : ∀ d, (f d).report = d.report) : Keeps P (s.write label f) := by
  have hboundary : ∀ label, Keeps P (s.boundary label) := fun label =>
    (FileStore.boundary_triple (fun _ => trivial : _ → True) hP.offTick label).crash fun _ h => h.1
  refine Triple.bind (hboundary _) fun _ => Triple.bind (R := fun _ => P) ?_ fun _ => hboundary _
  exact Triple.modify fun w hw => hP w _ ⟨hf w.disk, rfl⟩ hw

theorem offFetch (hP : AboutReport P) : OffFetch P where
  receipts := ⟨hP.offTick, fun w _ _ _ => hP w _ ⟨rfl, rfl⟩⟩
  record w _ := hP w _ ⟨rfl, rfl⟩
  note w _ _ := hP w _ ⟨rfl, rfl⟩
  product w _ := hP w _ ⟨rfl, rfl⟩
  incoming w _ := hP w _ ⟨rfl, rfl⟩
  provenance s _ _ _ _ := FileStore.appendProvenance_keeps fun label f hf => hP.write s fun d => by
    obtain ⟨file, h⟩ := hf d
    rw [h]

/-- **No engine call is about the report**, but for its verdict on the candidate. -/
theorem frame (hP : AboutReport P)
    (hevaluate : ∀ evidence target, Keeps P ((r.engine c).predicates.evaluate evidence target)) :
    Frame (r.engine c) P := by
  have haside : ∀ w : World η γ, Aside fun w' : World η γ => w'.observed = w.observed :=
    fun _ _ _ _ h => h
  have hslots : ∀ w : World η γ, FileStore.OffSlots fun d => d.report = w.disk.report :=
    fun _ _ _ _ h => h
  have hjournal : ∀ w : World η γ, FileStore.OffJournal fun d => d.report = w.disk.report :=
    fun _ _ _ h => h
  have hmoves : ∀ {β : Type} {m : Prog Error (World η γ) β},
      (∀ w : World η γ, Keeps (Over (fun d => d.report = w.disk.report)
        fun w' => w'.observed = w.observed) m) → Keeps P m := fun hm => Keeps.of_moves (R := SameReport) (fun _ => ⟨rfl, rfl⟩) hP hm
  have hcall : ∀ {β : Type} {name : String} {call : Host η → Prog Error η (Option β)},
      Keeps P (r.hostCall name call) := fun {_ _ _} => hmoves fun w =>
    Runner.hostCall_about (haside w) (fun _ _ h => h) (fun _ _ h => h) _ _
  exact {
    readJournal := FileStore.readDisk_keeps
    append := fun entry => hmoves fun w => FileStore.append_keeps (haside w) (hjournal w) entry
    versions := FileStore.readDisk_keeps
    stage := fun version bytes => hmoves fun w =>
      FileStore.stage_keeps (haside w) (hslots w) version bytes
    promote := hmoves fun w => FileStore.promote_keeps (haside w) (hslots w)
    clear := hmoves fun w => FileStore.removeDir_keeps (haside w) (hslots w) .experiment
    fence := hcall
    quiesce := hcall
    stop := fun _ => hcall
    start := fun _ => hcall
    probe := hcall
    resume := hcall
    evaluate := hevaluate }

end AboutReport

/-! ## what a promotion leaves stable -/

namespace Runner

variable {η γ : Type} {r : Runner η γ} {c : Convergence (World η γ)} {version : String}

/-- The candidate is the version's, on trial and once it is stable. -/
def OnTrial (version : String) : Point → Disk → Prop
  | .prepared _, d | .handing _, d | .quiesced _, d | .stopped _, d | .started _, d
  | .running _, d | .live _ _, d | .readback _ _, d | .fresh _ _, d | .accepted _ _, d
  | .committed, d => d.version .experiment = .ok (some (trim version))
  | .published, d | .rest (some .promoted), d => d.version .stable = .ok (some (trim version))
  | _, _ => True

theorem onTrial_offJournal (p : Point) : FileStore.OffJournal (OnTrial version p) := by
  intro d j h
  cases p with
  | rest ended =>
      cases ended with
      | none => trivial
      | some phase => cases phase <;> exact h
  | _ => exact h

/-- **An upgrade that returns promoted** left its own version stable. -/
theorem upgrade_publishes (hc : ReadsProduct c) (bytes : Path) :
    Triple (fun _ => True) ((r.engine c).upgrade version bytes)
      (fun outcome s => ∀ v, outcome = .promoted v →
        v = version ∧ s.world.disk.version .stable = .ok (some (trim version)))
      (fun _ _ => True) := by
  let At : Point → Running (World η γ) → Prop := fun p =>
    OnWorld (Over (OnTrial version p) fun _ => True)
  have haside : Aside (fun _ : World η γ => True) := remote_true.aside
  have hcall : ∀ {α : Type} {p q : Point} {label name : String} {call : Host η → HostCall η α},
      (∀ d, OnTrial version p d → OnTrial version q d) →
      Triple (At p) (Engine.bounded label (r.hostCall name call)) (fun _ => At q)
        (fun _ _ => True) := fun hpq =>
    (Keeps.bounded (hostCall_keeps remote_true _ _)).conseq (fun _ h => h)
      (fun _ _ h => ⟨hpq _ h.1, trivial⟩) fun _ _ _ => trivial
  have hjournal : ∀ {p q : Point} {intent : Phase} {detail : Detail},
      (∀ d, OnTrial version p d → OnTrial version q d) →
      Triple (At p) ((r.engine c).journal intent detail) (fun _ => At q) (fun _ _ => True) :=
    fun hpq => (Keeps.journal (fun _ => FileStore.append_keeps haside (onTrial_offJournal _) _) _
      _).conseq (fun _ h => h) (fun _ _ h => ⟨hpq _ h.1, trivial⟩) fun _ _ _ => trivial
  have hfailed : ∀ {p : Point} {e : Option Error} {s : Running (World η γ)}, At p s →
      probeFailed (At p) (fun _ _ => True) e s := by
    intro p e s h
    cases e with
    | none => trivial
    | some e =>
        unfold probeFailed
        dsimp only
        split
        · trivial
        · exact h
  have hprobe : ∀ {p q : Point}, (∀ d, OnTrial version p d → OnTrial version q d) →
      Triple (At p) (Engine.bounded "probe" r.hosts.probe) (fun _ => At q)
        (probeFailed (At p) fun _ _ => True) := fun hpq =>
    (Keeps.bounded (hostCall_keeps remote_true _ _)).conseq (fun _ h => h)
      (fun _ _ h => ⟨hpq _ h.1, trivial⟩) fun _ _ h => hfailed h
  have hfree : ∀ {p : Point} {s : Running (World η γ)}, (∀ d, OnTrial version p d) → At p s :=
    fun h => ⟨h _, trivial⟩
  have houtline : UpgradeOutline (r.engine c) version bytes At (fun _ _ => True) :=
    { stop := hcall fun _ h => h
      start := hcall fun _ h => h
      resumed := hcall fun _ h => h
      clear := Triple.any.post fun _ _ _ => hfree fun _ => trivial
      promote := Triple.zoom fun s hs => (FileStore.promote_published s.world.disk s.world rfl).mono
        (fun _ w h => by
          obtain ⟨v, hpublished, hstable⟩ := h
          have hexperiment : s.world.disk.version .experiment = .ok (some (trim version)) := hs.1
          simp only [Disk.published, hexperiment, Except.ok.injEq, Option.some.injEq] at hpublished
          rw [← hpublished] at hstable
          exact ⟨hstable, trivial⟩) fun _ _ _ => trivial
      resume := hcall fun _ h => h
      survey := Triple.any.post fun versions s _ => by
        cases stableOf versions with
        | none => trivial
        | some stable => exact hfree fun _ => trivial
      probe := fun stable _ => hprobe fun _ h => h
      journalStaged := fun _ _ _ => hjournal fun _ h => h
      stage := fun prior => by
        have hstage : Triple (Over (fun _ => True) fun _ => True)
            (r.store.stage version bytes : Prog Error (World η γ) Unit)
            (fun _ => Over (OnTrial version (.prepared prior)) fun _ => True) (fun _ _ => True) :=
          (FileStore.stage_complete haside fun _ _ _ _ h => h).conseq (fun _ h => h)
            (fun _ w h => by
              obtain ⟨⟨-, hne, b, -, hslot⟩, -⟩ := h
              exact ⟨Node.Holds.version (b := b) ⟨version, hslot, rfl, hne⟩, trivial⟩)
            fun _ _ _ => trivial
        exact (Confined.lift hstage).conseq (fun _ h => h) (fun _ _ h => h) fun _ _ _ => trivial
      journalHandingOver := fun _ => hjournal fun _ h => h
      quiesce := fun _ => hcall fun _ h => h
      stopStable := fun _ => hcall fun _ h => h
      startExperiment := fun _ => hcall fun _ h => h
      journalRunning := fun _ => hjournal fun _ h => h
      probeLive := fun _ => hprobe fun _ h => h
      journalReadback := fun _ _ => hjournal fun _ h => h
      replaced := fun _ _ _ _ h => h
      evaluate := fun prior evidence => by
        have hkeeps : Keeps (Over (OnTrial version (.fresh prior evidence)) fun _ : World η γ => True)
            ((r.engine c).predicates.evaluate evidence version) :=
          evaluate_keeps (fun _ _ h => h) (fun _ _ h => h) hc evidence version
        refine (Keeps.bounded hkeeps).conseq (fun _ h => h) (fun verdict s h => ?_) fun _ _ _ => trivial
        cases verdict <;> exact h
      journalPromoted := fun _ _ => hjournal fun _ h => h
      silent := fun _ _ => hjournal fun _ _ => trivial
      refused := fun _ _ _ => hjournal fun _ _ => trivial }
  refine houtline.upgrade_triple.conseq (fun _ _ => hfree fun _ => trivial) (fun outcome s h v hv => ?_)
    fun _ _ h => h
  subst hv
  exact ⟨h.1, h.2.1⟩

end Runner

end KCarrier
