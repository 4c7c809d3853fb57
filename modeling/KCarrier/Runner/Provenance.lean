import KCarrier.Engine.Delivery
import KCarrier.Runner.Custody

/-!
# KCarrier.Runner.Provenance

Every handover has its provenance.

With the provenance history enabled, a runner records whose release it is about to install
before its engine journals the first intent of the transaction.  The history and the journal
are two files, each appended to one line at a time, and a worker may be cut off between any two
lines; what is left of that order is a count (`Sourced`): no version was staged more often
than its provenance was recorded.
-/

namespace KCarrier

open Crash
open Running

variable {η γ : Type}

/-! ## what the two files hold -/

/-- The entry of a line, if it has one, passes `p`. -/
def Line.holds {α : Type} (p : α → Bool) : Line α → Bool
  | .entry a => p a
  | _ => false

/-- The intent to stage `version`. -/
def JournalEntry.stages (version : String) (e : JournalEntry) : Bool :=
  e.intent == .staged && e.detail.get "version" == some version

/-- How often the journal has the intent to stage `version`. -/
def Disk.stagings (d : Disk) (version : String) : Nat :=
  (FileStore.Disk.linesOf d).lines.countP (Line.holds (JournalEntry.stages version))

/-- How often the history has `version`. -/
def Disk.provenances (d : Disk) (version : String) : Nat :=
  (FileStore.Disk.provenanceLines d).countP (Line.holds fun e => e.version == version)

/-- Since `d₀` the intents to stage a version were as many as its provenance entries, less at
least `spare`. -/
def Sourced (d₀ : Disk) (spare : String → Nat) (d : Disk) : Prop :=
  ∀ v, d.stagings v + d₀.provenances v + spare v ≤ d.provenances v + d₀.stagings v

/-- One entry is left for `version`. -/
def oneFor (version : String) (v : String) : Nat := if version = v then 1 else 0

section

variable {d d₀ : Disk} {spare : String → Nat}

theorem Sourced.refl (d : Disk) : Sourced d (fun _ => 0) d := by
  intro v
  simp only
  omega

theorem Sourced.all_spent (h : Sourced d₀ spare d) : Sourced d₀ (fun _ => 0) d := by
  intro v
  have := h v
  simp only
  omega

/-- Nothing was staged, and nothing was taken out of the history. -/
theorem Sourced.congr {d' : Disk} (h : Sourced d₀ spare d)
    (hjournal : ∀ v, d'.stagings v = d.stagings v)
    (hhistory : ∀ v, d.provenances v ≤ d'.provenances v) : Sourced d₀ spare d' := by
  intro v
  have := h v
  have := hhistory v
  rw [hjournal v]
  omega

theorem stagings_entry (d : Disk) (entry : JournalEntry) (torn : Bool) (v : String) :
    Disk.stagings { d with
      journal := .content ⟨(FileStore.Disk.linesOf d).lines ++ [.entry entry], torn⟩ } v =
        d.stagings v + (entry.stages v).toNat := by
  cases h : entry.stages v <;>
    simp [Disk.stagings, FileStore.Disk.linesOf, List.countP_append, Line.holds, h]

theorem provenances_entry (d : Disk) (entry : ProvenanceEntry) (torn : Bool) (v : String) :
    Disk.provenances { d with
      provenance := .content ⟨FileStore.Disk.provenanceLines d ++ [.entry entry], torn⟩ } v =
        d.provenances v + oneFor entry.version v := by
  unfold oneFor
  by_cases h : entry.version = v <;>
    simp [Disk.provenances, FileStore.Disk.provenanceLines, List.countP_append, Line.holds, h]

theorem stages_staged (seq now : Nat) (version v : String) :
    ((Engine.entryOf seq now .staged (Engine.upgradeDetail version)).stages v).toNat =
      oneFor version v := by
  have hget : (Engine.entryOf seq now .staged (Engine.upgradeDetail version)).detail.get "version" =
      some version := by
    unfold Engine.entryOf
    rw [Detail.get_insert_of_ne _ _ (by decide)]
    rfl
  unfold JournalEntry.stages oneFor
  rw [hget]
  by_cases h : version = v <;> simp [Engine.entryOf, h]

theorem stages_of_ne {entry : JournalEntry} (h : entry.intent ≠ .staged) (v : String) :
    entry.stages v = false := by
  simp [JournalEntry.stages, h]

end

/-! ## the steps -/

namespace Runner

variable {r : Runner η γ} {c : Convergence (World η γ)} {d₀ : Disk} {spare : String → Nat}

/-- The journal and the history of a world, with nothing else. -/
abbrev SourcedIn (d₀ : Disk) (spare : String → Nat) : World η γ → Prop :=
  Over (Sourced d₀ spare) fun _ => True

theorem append_sourced {s : FileStore} {entry : JournalEntry} (h : entry.intent ≠ .staged) :
    Keeps (SourcedIn d₀ spare : World η γ → Prop) (s.append entry) := by
  have happend : Triple (SourcedIn d₀ spare : World η γ → Prop) (s.append entry)
      (fun _ => SourcedIn d₀ spare) _ :=
    FileStore.append_lines_triple remote_true.aside (fun _ _ hd => hd) fun d _ _ _ _ hd =>
      hd.congr (fun v => by simp [stagings_entry, stages_of_ne h]) fun _ => Nat.le_refl _
  exact happend.crash fun _ hw => ⟨hw.1.elim id id, hw.2⟩

/-- The staged intent uses up the entry that was left for its version. -/
theorem append_staged (s : FileStore) (version : String) (seq now : Nat) :
    Triple (SourcedIn d₀ (oneFor version) : World η γ → Prop)
      (s.append (Engine.entryOf seq now .staged (Engine.upgradeDetail version)))
      (fun _ => SourcedIn d₀ fun _ => 0) (fun _ => SourcedIn d₀ fun _ => 0) := by
  have happend : Triple (SourcedIn d₀ (oneFor version) : World η γ → Prop)
      (s.append (Engine.entryOf seq now .staged (Engine.upgradeDetail version)))
      (fun _ => SourcedIn d₀ fun _ => 0)
      (fun _ => Over (fun d => Sourced d₀ (oneFor version) d ∨ Sourced d₀ (fun _ => 0) d)
        fun _ => True) := by
    refine FileStore.append_lines_triple remote_true.aside (fun _ _ hd => hd)
      fun d _ _ _ _ hd v => ?_
    have hone := hd v
    rw [stagings_entry, stages_staged]
    show d.stagings v + oneFor version v + d₀.provenances v + 0 ≤ d.provenances v + d₀.stagings v
    omega
  exact happend.crash fun _ hw => ⟨hw.1.elim Sourced.all_spent id, hw.2⟩

/-- One more entry of the history is left for its version. -/
theorem write_provenance (s : FileStore) (entry : ProvenanceEntry) :
    Triple (SourcedIn d₀ (fun _ => 0) : World η γ → Prop) (s.write "provenance" fun disk =>
      { disk with
        provenance := .content ⟨FileStore.Disk.provenanceLines disk ++ [.entry entry], false⟩ })
      (fun _ => SourcedIn d₀ (oneFor entry.version)) (fun _ => SourcedIn d₀ fun _ => 0) := by
  have hadd : ∀ d, Sourced d₀ (fun _ => 0) d → Sourced d₀ (oneFor entry.version) { d with
      provenance := .content ⟨FileStore.Disk.provenanceLines d ++ [.entry entry], false⟩ } := by
    intro d hd v
    have hzero : d.stagings v + d₀.provenances v + 0 ≤ d.provenances v + d₀.stagings v := hd v
    rw [provenances_entry]
    show d.stagings v + d₀.provenances v + oneFor entry.version v ≤
      d.provenances v + oneFor entry.version v + d₀.stagings v
    omega
  exact (FileStore.write_triple (fun _ => True.intro) remote_true.aside hadd).crash fun _ hw =>
    ⟨hw.1.1.elim id Sourced.all_spent, hw.1.2⟩

/-- **The history grows first**: once its provenance was appended, one entry is left for the
version. -/
theorem appendProvenance_sourced (s : FileStore) (identity : Provenance) (version : String)
    (explicit : Option Nat) (now : Nat) :
    Triple (SourcedIn d₀ (fun _ => 0) : World η γ → Prop)
      (s.appendProvenanceAt identity version explicit now)
      (fun _ => SourcedIn d₀ (oneFor version)) (fun _ => SourcedIn d₀ fun _ => 0) := by
  have hsame : ∀ {label : String} {f : Disk → Disk}, (∀ d, f d = d ∨ ∃ torn,
      f d = { d with provenance := .content ⟨FileStore.Disk.provenanceLines d, torn⟩ }) →
      Keeps (SourcedIn d₀ (fun _ => 0) : World η γ → Prop) (s.write label f) := by
    intro label f hf
    refine FileStore.write_clean_keeps remote_true.aside fun d hd => ?_
    obtain h | ⟨torn, h⟩ := hf d
    · rw [h]
      exact hd
    · rw [h]
      exact hd.congr (fun _ => rfl) fun _ => Nat.le_refl _
  unfold FileStore.appendProvenanceAt
  refine Triple.get_bind fun w hw => Triple.pre (P := SourcedIn d₀ fun _ => 0) ?_
    fun w' h => by rw [h]; exact hw
  cases w.disk.readProvenance with
  | error reason => exact Triple.throw fun _ h => h
  | ok entries =>
      refine Triple.ite (fun _ => Triple.throw fun _ h => h) fun _ => ?_
      refine Triple.bind (hsame fun d => ?_) fun _ => Triple.bind (hsame fun d => .inr ⟨true, rfl⟩)
        fun _ => ?_
      · cases hp : d.provenance with
        | content file => exact .inr ⟨false, by simp [FileStore.Disk.provenanceLines, hp]⟩
        | _ => exact .inl rfl
      · exact write_provenance s _

/-! ## the calls -/

theorem restores_sourced : Restores (r.engine c) (SourcedIn d₀ fun _ => 0) where
  readJournal := FileStore.readDisk_keeps
  append _ h := append_sourced h
  promote := FileStore.promote_keeps remote_true.aside fun _ _ _ h => h
  clear := FileStore.removeDir_keeps remote_true.aside (fun _ _ _ h => h) .experiment
  fence := hostCall_keeps remote_true _ _
  stop _ := hostCall_keeps remote_true _ _
  start _ := hostCall_keeps remote_true _ _
  resume := hostCall_keeps remote_true _ _

theorem installs_sourced (hc : ReadsProduct c) (version : String) :
    Installs (r.engine c) version incomingPath (SourcedIn d₀ (oneFor version))
      (SourcedIn d₀ fun _ => 0) (SourcedIn d₀ fun _ => 0) where
  toRestores := restores_sourced
  below _ h := ⟨h.1.all_spent, trivial⟩
  versions := FileStore.readDisk_keeps
  surveyed := hostCall_keeps remote_true _ _
  journaled := append_staged r.store version
  stage := FileStore.stage_keeps remote_true.aside (fun _ _ _ h => h) version incomingPath
  quiesce := hostCall_keeps remote_true _ _
  probe := hostCall_keeps remote_true _ _
  evaluate := evaluate_keeps (fun _ _ h => h) (fun _ _ h => h) hc

theorem sourced_offFetch : OffFetch (SourcedIn d₀ fun _ => 0 : World η γ → Prop) where
  receipts := ⟨fun _ _ h => h, fun _ _ _ _ h => h⟩
  record _ _ h := h
  note _ _ _ h := h
  product _ _ h := h
  incoming _ _ h := h
  provenance s identity version explicit now :=
    (appendProvenance_sourced s identity version explicit now).post fun _ _ h =>
      ⟨h.1.all_spent, trivial⟩

end Runner

/-- **A call** journals no staged intent whose provenance it did not record. -/
theorem Visit.custody_sourced {v : Visit η γ} (henabled : v.runner.provenanceEnabled = true)
    (d₀ : Disk) (w : World η γ) :
    Runner.Custody v.runner v.call w (Runner.SourcedIn d₀ fun _ => 0)
      (fun release => Runner.SourcedIn d₀ (oneFor release.version)) where
  off _ _ _ h := h
  fetch := Runner.sourced_offFetch
  observed _ _ h := h
  report _ _ h := h
  recover c _ := Runner.restores_sourced.recover
  clear := FileStore.removeDir_keeps Runner.remote_true.aside (fun _ _ _ h => h) .experiment
  install c release hc := (Runner.installs_sourced hc release.version).upgrade
  candidate target options _ _ operation current :=
    Runner.candidate_triple (Q := fun _ => Runner.SourcedIn d₀ fun _ => 0) Runner.offers_any
      Runner.sourced_offFetch
      (fun release _ _ => {
        fetch := Runner.sourced_offFetch
        download := ⟨fun _ => True, Triple.any, fun _ _ _ h => h⟩
        tick := fun _ _ h => h
        product := fun _ _ h => h
        record := fun _ _ h => h
        back := fun _ h => h
        provenance := fun _ identity now =>
          Runner.appendProvenance_sourced v.runner.store identity release.version none now
        unproven := fun hdisabled => by
          rw [henabled] at hdisabled
          cases hdisabled
        readyTick := fun _ _ h => h
        readyRecord := fun _ _ h => h
        readyBack := fun _ h => ⟨h.1.all_spent, trivial⟩ })
      operation

/-- **Every handover has its provenance**: over every run of visits by runners that keep the
history, no version is staged more often than its provenance is recorded. -/
theorem handovers_sourced (visits : List (Visit η γ))
    (henabled : ∀ visit ∈ visits, visit.runner.provenanceEnabled = true) (w : World η γ)
    (v : String) :
    (runVisits visits w).disk.stagings v + w.disk.provenances v ≤
      (runVisits visits w).disk.provenances v + w.disk.stagings v := by
  have hrun : Runner.SourcedIn w.disk (fun _ => 0) (runVisits visits w) := by
    refine run_invariant (M := fun visit _ => visit.runner.provenanceEnabled = true)
      (fun visit w' hw henabled => ?_) visits w ⟨Sourced.refl _, trivial⟩
      (eachVisit_of_forall (fun visit hvisit _ => henabled visit hvisit) w)
    exact Visit.run_of_triple (visit.custody_sourced henabled w.disk (visit.finds w')).call_keeps
      ⟨rfl, hw⟩
  exact hrun.1 v

namespace Service

/-- A runner of the known product that keeps the provenance history. -/
def historian (faults : Faults) : Runner Service Unit :=
  { runner 1 faults with provenanceEnabled := true }

theorem handovers_sourced_upgraded :
    (runVisits [⟨historian .clean, .free, (), .upgradeTo "2" .none⟩]
        (installed "1")).disk.stagings "2" + (installed "1").disk.provenances "2" ≤
      (runVisits [⟨historian .clean, .free, (), .upgradeTo "2" .none⟩]
        (installed "1")).disk.provenances "2" + (installed "1").disk.stagings "2" :=
  handovers_sourced [⟨historian .clean, .free, (), .upgradeTo "2" .none⟩]
    (fun visit hvisit => by
      rw [List.mem_singleton] at hvisit
      subst hvisit
      rfl) (installed "1") "2"

/-- The run of the witness stages "2" once. -/
example : (runVisits [⟨historian .clean, .free, (), .upgradeTo "2" .none⟩]
    (installed "1")).disk.stagings "2" = 1 := by decide +kernel

end Service

end KCarrier
