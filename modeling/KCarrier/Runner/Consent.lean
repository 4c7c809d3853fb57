import KCarrier.Runner.Freshness
import KCarrier.Runner.Pedigree

/-!
# KCarrier.Runner.Consent

What runs without consent leave alone.

A call that carries no consent, under a policy that asks for it, opens no transaction.  It may
still find one that an earlier call left open, and undo it.  So where no promotion is pending,
the stable slot stays, and the journal gets a line only where a transaction was open, the one
that closes it (`Undisturbed`).
-/

namespace KCarrier

open Crash
open Running

variable {η γ : Type}

/-- The lines of a journal end in a transaction that is open. -/
def InFlight (lines : List (Line JournalEntry)) : Prop :=
  ∃ es tail, readLines checkEntry none lines = .ok es ∧ lastIntent es = some tail ∧
    tail.atRest = false

/-- The transaction that `lines` left open was closed by one line more. -/
def ClosedOff (lines : List (Line JournalEntry)) (d : Disk) : Prop :=
  InFlight lines ∧ (∃ e : JournalEntry, e.intent = .rolledBack ∧
    (FileStore.Disk.linesOf d).lines = lines ++ [.entry e]) ∧ d.EndsIn (some .rolledBack)

/-- The journal has the lines `lines`, and no promotion is pending. -/
def Unwritten (lines : List (Line JournalEntry)) (d : Disk) : Prop :=
  (FileStore.Disk.linesOf d).lines = lines ∧ ¬d.Pending

/-- The stable slot is `node`, and the journal is as it was, or what it left open was closed. -/
def Undisturbed (node : Node) (lines : List (Line JournalEntry)) (d : Disk) : Prop :=
  StableIs node d ∧ (Unwritten lines d ∨ ClosedOff lines d)

section

variable {node : Node} {lines : List (Line JournalEntry)} {d d' : Disk}

theorem Disk.EndsIn.congr {tail : Option Phase} (h : d.EndsIn tail)
    (hjournal : d'.journal = d.journal) : d'.EndsIn tail := by
  obtain ⟨es, hread, hlast⟩ := h
  exact ⟨es, (Disk.readJournal_congr hjournal).trans hread, hlast⟩

/-- A journal with an intent in it is read from its lines. -/
theorem Disk.endsIn_some_iff {tail : Phase} : d.EndsIn (some tail) ↔
    ∃ es, readLines checkEntry none (FileStore.Disk.linesOf d).lines = .ok es ∧
      lastIntent es = some tail := by
  unfold Disk.EndsIn Disk.readJournal FileStore.Disk.linesOf
  cases d.journal with
  | content file => rfl
  | absent => simp [readLines]
  | unreadable message => simp [readLines]

theorem ClosedOff.not_pending (h : ClosedOff lines d) : ¬d.Pending := by
  intro hpending
  cases h.2.2.unique hpending.1

theorem Undisturbed.not_pending (h : Undisturbed node lines d) : ¬d.Pending := by
  obtain ⟨-, h | h⟩ := h
  · exact h.2
  · exact h.not_pending

/-- What is neither in the journal nor in the stable slot matters only where a promotion may
become pending. -/
theorem Undisturbed.congr (h : Undisturbed node lines d) (hjournal : d'.journal = d.journal)
    (hstable : d'.slots .stable = d.slots .stable) (hpending : d'.Pending → d.Pending) :
    Undisturbed node lines d' := by
  have hlines : FileStore.Disk.linesOf d' = FileStore.Disk.linesOf d := by
    unfold FileStore.Disk.linesOf
    rw [hjournal]
  obtain ⟨hnode, h⟩ := h
  refine ⟨hstable.trans hnode, ?_⟩
  obtain ⟨heq, hidle⟩ | ⟨hopen, hline, hends⟩ := h
  · exact .inl ⟨by rw [hlines]; exact heq, fun hp => hidle (hpending hp)⟩
  · exact .inr ⟨hopen, by rw [hlines]; exact hline, hends.congr hjournal⟩

/-- A candidate that an unfinished removal leaves was there before. -/
theorem version_debris {slot : SlotDir} {keep : Bool × Bool} {v : String} {place : Place}
    (hslot : d.slots place = .dir slot)
    (h : (d.setSlot place (.dir (FileStore.SlotDir.debris slot keep))).version place =
      .ok (some v)) : d.version place = .ok (some v) := by
  obtain ⟨version, artifact⟩ := keep
  cases version with
  | false => simp [Disk.version, FileStore.SlotDir.debris, File.read] at h
  | true =>
      cases artifact with
      | true =>
          have hsame : (d.setSlot place (.dir (FileStore.SlotDir.debris slot (true, true)))).slots
              place = d.slots place := by
            rw [Disk.setSlot_self, hslot]
            rfl
          rwa [Disk.version_congr hsame] at h
      | false =>
          simp only [Disk.version, Disk.setSlot_self, FileStore.SlotDir.debris, if_true] at h
          split at h
          · cases h
          · split at h <;> cases h

/-- Nothing that is left of a candidate makes a promotion pending. -/
theorem pending_of_debris {slot : SlotDir} {keep : Bool × Bool}
    (hslot : d.slots .experiment = .dir slot)
    (h : (d.setSlot .experiment (.dir (FileStore.SlotDir.debris slot keep))).Pending) :
    d.Pending := by
  obtain ⟨hends, v, hv⟩ := h
  exact ⟨hends.congr rfl, v, version_debris hslot hv⟩

/-- A tail that was not finished is no intent. -/
theorem pending_of_torn {torn : Bool}
    (h : Disk.Pending { d with journal := .content ⟨(FileStore.Disk.linesOf d).lines, torn⟩ }) :
    d.Pending := by
  obtain ⟨hends, hcandidate⟩ := h
  have hlines := Disk.endsIn_some_iff.mp hends
  exact ⟨Disk.endsIn_some_iff.mpr hlines, hcandidate⟩

/-- No promotion is pending without a candidate. -/
theorem not_pending_absent : ¬(d.setSlot .experiment .absent).Pending := by
  rintro ⟨-, v, hv⟩
  simp [Disk.version] at hv

end

/-! ## the store -/

namespace FileStore

variable {s : FileStore} {I : World η γ → Prop} {D : Disk → Prop} {node : Node}
  {lines : List (Line JournalEntry)}

/-- Removing a directory takes from it, and then takes it away. -/
theorem removeDir_shrinks (hI : Aside I) {place : Place}
    (hdebris : ∀ d slot keep, D d → d.slots place = .dir slot →
      D (d.setSlot place (.dir (SlotDir.debris slot keep))))
    (hgone : ∀ d, D d → D (d.setSlot place .absent)) : Keeps (Over D I) (s.removeDir place) := by
  unfold removeDir
  refine Triple.get_bind fun w hw => ?_
  have hstart : ∀ w', w' = w → Over D I w' := fun w' h => by rw [h]; exact hw
  cases hslot : w.disk.slots place with
  | absent => exact Triple.pure hstart
  | other => exact Triple.throw hstart
  | dir slot =>
      have hentries : Triple (Over (· = w.disk) I) (s.write "remove_dir_all:entries" fun disk =>
          disk.setSlot place (.dir (SlotDir.debris slot (s.faults.debris w.tick))))
          (fun _ => Over D I) (fun _ => Over D I) := by
        have hwrite : Triple (Over (· = w.disk) I) (s.write "remove_dir_all:entries" fun disk =>
            disk.setSlot place (.dir (SlotDir.debris slot (s.faults.debris w.tick))))
            (fun _ => Over D I) _ :=
          write_triple (fun _ => True.intro) hI fun d hd => by
            rw [hd]
            exact hdebris _ _ _ hw.1 hslot
        exact hwrite.crash fun w' h =>
          ⟨h.1.1.elim (fun hd => by rw [hd]; exact hw.1) id, h.1.2⟩
      have hlast : Keeps (Over D I) (s.write "remove_dir_all" fun disk =>
          disk.setSlot place .absent) := write_clean_keeps hI hgone
      exact (Triple.bind hentries fun _ => hlast).pre fun w' h => by rw [h]; exact ⟨rfl, hw.2⟩

theorem clear_undisturbed (hI : Aside I) : Keeps (Over (Undisturbed node lines) I) s.clear :=
  removeDir_shrinks hI
    (fun d _ _ hd hslot => hd.congr rfl (Disk.setSlot_of_ne d _ (by simp))
      fun h => pending_of_debris hslot h)
    fun d hd => hd.congr rfl (Disk.setSlot_of_ne d _ (by simp)) fun h => absurd h not_pending_absent

/-- The rolled-back intent closes the transaction off. -/
theorem append_undisturbed (hI : Aside I) (hopen : InFlight lines) {entry : JournalEntry}
    (hentry : entry.intent = .rolledBack) :
    Triple (Over (fun d => StableIs node d ∧ Unwritten lines d) I) (s.append entry)
      (fun _ => Over (Undisturbed node lines) I) (fun _ => Over (Undisturbed node lines) I) := by
  let Open : Disk → Prop := fun d => StableIs node d ∧ Unwritten lines d
  have happend : Triple (Over Open I) (s.append entry) (fun _ => Over (Undisturbed node lines) I)
      (fun _ => Over (fun d => Open d ∨ Undisturbed node lines d) I) := by
    refine append_lines_triple hI (fun d torn hd => ?_) fun d es hread hvalid hseq hd => ?_
    · exact ⟨hd.1, hd.2.1, fun hpending => hd.2.2 (pending_of_torn hpending)⟩
    · refine ⟨hd.1, .inr ⟨hopen, ⟨entry, hentry, ?_⟩, _, readJournal_concat hread hvalid hseq, ?_⟩⟩
      · rw [hd.2.1]
        rfl
      · rw [lastIntent_concat, hentry]
  exact happend.crash fun w h => ⟨h.1.elim (fun hd => ⟨hd.1, .inl hd.2⟩) id, h.2⟩

end FileStore

/-! ## the calls -/

namespace Runner

variable {r : Runner η γ} {c : Convergence (World η γ)} {node : Node}
  {lines : List (Line JournalEntry)}

/-- The directory of a world, with nothing else. -/
abbrev UndisturbedIn (node : Node) (lines : List (Line JournalEntry)) : World η γ → Prop :=
  Over (Undisturbed node lines) fun _ => True

/-- What a recovery knows at each point where no promotion is pending. -/
def UndisturbedAt (node : Node) (lines : List (Line JournalEntry)) : Point → Disk → Prop
  | .opened tail, d | .fenced tail, d => Undisturbed node lines d ∧ d.EndsIn tail
  | .committed, d => Undisturbed node lines d ∧ ∀ v, d.version .experiment ≠ .ok (some v)
  | _, d => Undisturbed node lines d

theorem UndisturbedAt.undisturbed {p : Point} {d : Disk} (h : UndisturbedAt node lines p d) :
    Undisturbed node lines d := by
  cases p with
  | opened | fenced | committed => exact h.1
  | _ => exact h

/-- A host call between two points that say the same. -/
theorem undisturbed_call {α : Type} {p q : Point} (hpq : ∀ d, UndisturbedAt node lines p d →
    UndisturbedAt node lines q d) (label name : String) (call : Host η → Prog Error η (Option α)) :
    Triple (OnWorld (Over (UndisturbedAt node lines p) fun _ => True))
      (Engine.bounded label (r.hostCall name call))
      (fun _ => OnWorld (Over (UndisturbedAt node lines q) fun _ => True))
      (fun _ => OnWorld (UndisturbedIn node lines)) :=
  (Keeps.bounded (hostCall_keeps remote_true name call)).conseq (fun _ h => h)
    (fun _ s h => ⟨hpq s.world.disk h.1, trivial⟩) fun _ _ h => ⟨h.1.undisturbed, trivial⟩

/-- The rolled-back intent is written over an intent in flight. -/
theorem undisturbed_rolledBack {tail : Phase} (htail : tail.atRest = false) {detail : Detail}
    {q : Point} (hq : ∀ d, Undisturbed node lines d → UndisturbedAt node lines q d) :
    Triple (OnWorld (Over (UndisturbedAt node lines (.fenced (some tail))) fun _ => True))
      ((r.engine c).journal .rolledBack detail)
      (fun _ => OnWorld (Over (UndisturbedAt node lines q) fun _ => True))
      (fun _ => OnWorld (UndisturbedIn node lines)) := by
  have hjournal : Triple (fun s => InFlight lines ∧
      OnWorld (Over (fun d => StableIs node d ∧ Unwritten lines d) fun _ => True) s)
      ((r.engine c).journal .rolledBack detail) (fun _ => OnWorld (UndisturbedIn node lines))
      (fun _ => OnWorld (UndisturbedIn node lines)) :=
    Triple.assume fun hopen => Engine.journal_triple fun seq now =>
      FileStore.append_undisturbed remote_true.aside hopen rfl
  refine hjournal.conseq (fun s h => ?_) (fun _ s h => ⟨hq _ h.1, trivial⟩) fun _ _ h => h
  obtain ⟨⟨⟨hnode, hunwritten | hclosed⟩, hends⟩, -⟩ := h
  · obtain ⟨es, hread, hlast⟩ := Disk.endsIn_some_iff.mp hends
    rw [hunwritten.1] at hread
    exact ⟨⟨es, tail, hread, hlast, htail⟩, ⟨hnode, hunwritten⟩, trivial⟩
  · cases hends.unique hclosed.2.2
    cases htail

/-- **Recovery** undoes what is open, and nothing else. -/
theorem recover_undisturbed : RecoverOutline (r.engine c)
    (fun p => OnWorld (Over (UndisturbedAt node lines p) fun _ => True))
    (fun _ => OnWorld (UndisturbedIn node lines)) where
  stop := undisturbed_call (fun _ h => h) _ _ _
  start := undisturbed_call (fun _ h => h) _ _ _
  resumed := undisturbed_call (fun _ h => h) _ _ _
  clear := Keeps.lift (FileStore.clear_undisturbed remote_true.aside)
  promote := Confined.lift (FileStore.promote_idle remote_true.aside fun d new h =>
    h.congr rfl (Disk.setSlot_of_ne d new (by simp)) fun hp => hp)
  resume := undisturbed_call (fun _ h => h) _ _ _
  read := readEntries_triple (P := UndisturbedIn node lines)
    (fun es s h hread => ⟨⟨h.1, es, hread, rfl⟩, trivial⟩) fun _ _ h _ => h
  fence _ := undisturbed_call (fun _ h => h) _ _ _
  idle s h := h.elim (fun h => ⟨h.1.1, trivial⟩) fun h => ⟨h.1.1, trivial⟩
  commit s h := ⟨⟨h.1.1, fun v hv => h.1.1.not_pending ⟨h.1.2, v, hv⟩⟩, trivial⟩
  redo s h := ⟨h.1.1, trivial⟩
  withdraw _ := undisturbed_rolledBack rfl fun _ h => h
  abandon tail _ htail := undisturbed_rolledBack (by rcases htail with rfl | rfl | rfl <;> rfl)
    fun _ h => h

theorem undisturbed_offFetch : OffFetch (UndisturbedIn node lines : World η γ → Prop) where
  receipts := ⟨fun _ _ h => h, fun _ _ _ _ h => h⟩
  record _ _ h := h
  note _ _ _ h := h
  product _ _ h := h
  incoming _ _ h := h
  provenance s _ _ _ _ := FileStore.appendProvenance_keeps fun _ f hf =>
    FileStore.write_clean_keeps remote_true.aside fun d hd => by
      obtain ⟨file, h⟩ := hf d
      rw [h]
      exact hd

end Runner

/-- **A call without consent** leaves the installation as it is. -/
theorem Visit.custody_undisturbed {v : Visit η γ} (hconsent : ¬v.Admitted) (node : Node)
    (lines : List (Line JournalEntry)) (w : World η γ) :
    Runner.Custody v.runner v.call w (Runner.UndisturbedIn node lines) (fun _ _ => False) where
  off _ _ _ h := h
  fetch := Runner.undisturbed_offFetch
  observed _ _ h := h
  report _ _ h := h
  recover c _ := Runner.recover_undisturbed.recover_triple.conseq (fun _ h => h)
    (fun _ s h => by
      obtain ⟨ended, h, -⟩ := h
      exact ⟨h.undisturbed, trivial⟩) fun _ _ h => h
  clear := FileStore.clear_undisturbed Runner.remote_true.aside
  install _ _ _ _ h := h.elim
  candidate target options hdriven _ operation current :=
    Runner.candidate_triple (Q := fun _ _ => False) Runner.offers_any Runner.undisturbed_offFetch
      (fun release _ hadmitted => by
        rw [Runner.consented_of_driven hdriven] at hadmitted
        exact absurd hadmitted hconsent)
      operation

/-- **Nothing is installed without consent**: over every run of visits that have none, under
policies that ask for it, the stable slot stays as it is where no promotion is pending, and the
journal stays as it is, or an earlier call had left a transaction open and the journal gets the
one line that closes it. -/
theorem unconsented_undisturbed (visits : List (Visit η γ))
    (hconsent : ∀ visit ∈ visits, ¬visit.Admitted) (w : World η γ) (hpending : ¬w.disk.Pending) :
    (runVisits visits w).disk.slots .stable = w.disk.slots .stable ∧
      ((FileStore.Disk.linesOf (runVisits visits w).disk).lines =
          (FileStore.Disk.linesOf w.disk).lines ∨
        (∃ tail, w.disk.EndsIn (some tail) ∧ tail.atRest = false) ∧
          ∃ e : JournalEntry, e.intent = .rolledBack ∧
            (FileStore.Disk.linesOf (runVisits visits w).disk).lines =
              (FileStore.Disk.linesOf w.disk).lines ++ [.entry e]) := by
  have hrun : Runner.UndisturbedIn (w.disk.slots .stable) (FileStore.Disk.linesOf w.disk).lines
      (runVisits visits w) := by
    refine run_invariant (M := fun visit _ => ¬visit.Admitted) (fun visit w' hw hconsent => ?_)
      visits w ⟨⟨rfl, .inl ⟨rfl, hpending⟩⟩, trivial⟩
      (eachVisit_of_forall (fun visit hvisit _ => hconsent visit hvisit) w)
    exact Visit.run_of_triple
      (visit.custody_undisturbed hconsent _ _ (visit.finds w')).call_keeps ⟨rfl, hw⟩
  obtain ⟨⟨hstable, hunwritten | hclosed⟩, -⟩ := hrun
  · exact ⟨hstable, .inl hunwritten.1⟩
  · obtain ⟨⟨es, tail, hread, hlast, htail⟩, hline, -⟩ := hclosed
    have hopen : w.disk.EndsIn (some tail) := Disk.endsIn_some_iff.mpr ⟨es, hread, hlast⟩
    exact ⟨hstable, .inr ⟨⟨tail, hopen, htail⟩, hline⟩⟩

namespace Service

/-- A runner of the known product that asks before it installs. -/
def asking : Runner Service Unit := { runner 1 .clean with policy := .confirm }

theorem unconsented_undisturbed_asking :
    (runVisits [⟨asking, .free, (), .upgradeTo "2" .none⟩] (installed "1")).disk.slots .stable =
        (installed "1").disk.slots .stable ∧
      ((FileStore.Disk.linesOf (runVisits [⟨asking, .free, (), .upgradeTo "2" .none⟩]
          (installed "1")).disk).lines = (FileStore.Disk.linesOf (installed "1").disk).lines ∨
        (∃ tail, (installed "1").disk.EndsIn (some tail) ∧ tail.atRest = false) ∧
          ∃ e : JournalEntry, e.intent = .rolledBack ∧
            (FileStore.Disk.linesOf (runVisits [⟨asking, .free, (), .upgradeTo "2" .none⟩]
              (installed "1")).disk).lines =
                (FileStore.Disk.linesOf (installed "1").disk).lines ++ [.entry e]) := by
  refine unconsented_undisturbed _ (fun visit hvisit hadmitted => ?_) (installed "1")
    fun hpending => ?_
  · rw [List.mem_singleton] at hvisit
    subst hvisit
    obtain h | h := hadmitted <;> cases h
  · obtain ⟨⟨es, hread, hlast⟩, -⟩ := hpending
    cases hread
    cases hlast

end Service

end KCarrier
