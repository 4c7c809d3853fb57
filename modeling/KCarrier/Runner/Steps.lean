import KCarrier.Engine.Outline
import KCarrier.Runner

/-!
# KCarrier.Runner.Steps

What one step of a runner does to the world.

Assertions come in two parts (`Over D I`): `D` about the state directory, `I` about
everything else.  A store program is specified on the directory alone and leaves `I`
alone; a host call leaves the directory alone.  A program is cut off only where the
fault plan says so, and `Blame` stands for whatever a cut-off is blamed on.

* `write_triple`, `removeDir_triple`, `append_triple`: the durable steps;
* `engine_frame`: what no engine call touches;
* `locked_triple`, `locked_run_err`: running under the upgrade lock;
* `prior_run`: the binding of a request to its receipt as a function of the directory.
-/

namespace KCarrier

open Crash
open Running

/-- `D` of the directory and `I` of the rest of the world. -/
def Over {η γ : Type} (D : Disk → Prop) (I : World η γ → Prop) (w : World η γ) : Prop :=
  D w.disk ∧ I w

/-- `I` is not about the directory, nor about how many boundaries were passed. -/
def Aside {η γ : Type} (I : World η γ → Prop) : Prop :=
  ∀ w d n, I w → I { w with disk := d, tick := n }

/-- `P` is not about how many boundaries were passed. -/
def OffTick {η γ : Type} (P : World η γ → Prop) : Prop := ∀ w n, P w → P { w with tick := n }

theorem Aside.over {η γ : Type} {I : World η γ → Prop} (hI : Aside I) (D : Disk → Prop) :
    OffTick (Over D I) :=
  fun w n h => ⟨h.1, hI w w.disk n h.2⟩

/-- The world after `op` was recorded. -/
def World.record {η γ : Type} (w : World η γ) (op : Operation) : World η γ :=
  { w with
    disk := { w.disk with operation := .content op }
    log := w.log ++ [.recorded op { w.disk with operation := .content op }] }

namespace FileStore

variable {η γ α : Type} {s : FileStore} {D D' : Disk → Prop} {I : World η γ → Prop} {Blame : Prop}

/-- `D` is not about the slots. -/
def OffSlots (D : Disk → Prop) : Prop := ∀ d place node, D d → D (d.setSlot place node)

/-- `D` is not about the journal. -/
def OffJournal (D : Disk → Prop) : Prop := ∀ d j, D d → D { d with journal := j }

/-! ## durable steps -/

/-- A boundary changes nothing, and ends the program only when the plan says so. -/
theorem boundary_triple {P : World η γ → Prop} (hblame : s.faults ≠ Faults.clean → Blame)
    (hP : OffTick P) (label : String) :
    Triple P (s.boundary label) (fun _ => P) (fun _ w => P w ∧ Blame) := by
  intro w hw
  have hw' : P { w with tick := w.tick + 1 } := hP w _ hw
  unfold boundary
  cases hf : s.faults.fault w.tick label with
  | none => exact hw'
  | some fault =>
      have hb : Blame := hblame fun hclean => by
        rw [hclean] at hf
        cases hf
      cases fault with
      | fail e => exact ⟨hw', hb⟩
      | crash => exact ⟨hw', hb⟩

/-- The errors of the store's own operations are of the kind `p`. -/
def Fails (s : FileStore) (p : Error → Prop) : Prop :=
  ∀ n label e, s.faults.fault n label = some (.fail e) → p e

/-- A boundary raises what the store may fail with. -/
theorem boundary_raises {p : Error → Prop} (hp : s.Fails p) (label : String) :
    Raises p (s.boundary label : Prog Error (World η γ) Unit) := by
  intro w _
  unfold boundary
  cases hf : s.faults.fault w.tick label with
  | none => exact trivial
  | some fault =>
      cases fault with
      | fail e => exact kind_some.mpr (hp _ _ e hf)
      | crash => exact kind_none

/-- So does a write. -/
theorem write_raises {p : Error → Prop} (hp : s.Fails p) (label : String) (f : Disk → Disk) :
    Raises p (s.write label f : Prog Error (World η γ) Unit) :=
  Raises.bind (boundary_raises hp _) fun _ => Raises.bind (Raises.modify _) fun _ =>
    boundary_raises hp _

/-- One durable step is cut off before or after its effect. -/
theorem write_triple (hblame : s.faults ≠ Faults.clean → Blame) (hI : Aside I) {label : String}
    {f : Disk → Disk} (hf : ∀ d, D d → D' (f d)) :
    Triple (Over D I) (s.write label f) (fun _ => Over D' I)
      (fun _ w => Over (fun d => D d ∨ D' d) I w ∧ Blame) := by
  unfold write
  refine Triple.bind (R := fun _ => Over D I) ?_ fun _ => ?_
  · exact (boundary_triple hblame (hI.over _) _).conseq (fun _ hw => hw) (fun _ _ hw => hw)
      fun _ _ hw => ⟨⟨.inl hw.1.1, hw.1.2⟩, hw.2⟩
  refine Triple.bind (R := fun _ => Over D' I) ?_ fun _ => ?_
  · exact Triple.modify fun w hw => ⟨hf _ hw.1, hI w _ w.tick hw.2⟩
  · exact (boundary_triple hblame (hI.over _) _).conseq (fun _ hw => hw) (fun _ _ hw => hw)
      fun _ _ hw => ⟨⟨.inr hw.1.1, hw.1.2⟩, hw.2⟩

/-- A step that keeps `D` keeps it wherever it is cut off. -/
theorem write_keeps (hblame : s.faults ≠ Faults.clean → Blame) (hI : Aside I) {label : String}
    {f : Disk → Disk} (hf : ∀ d, D d → D (f d)) :
    Triple (Over D I) (s.write label f) (fun _ => Over D I)
      (fun _ w => Over D I w ∧ Blame) :=
  (write_triple hblame hI hf).conseq (fun _ hw => hw) (fun _ _ hw => hw)
    fun _ _ hw => ⟨⟨hw.1.1.elim id id, hw.1.2⟩, hw.2⟩

/-- A read of the directory. -/
theorem readDisk_triple {read : Disk → Except Error α} {P : World η γ → Prop}
    {Q : α → World η γ → Prop} {F : Option Error → World η γ → Prop}
    (hok : ∀ a w, P w → read w.disk = .ok a → Q a w)
    (herr : ∀ e w, P w → read w.disk = .error e → F (some e) w) :
    Triple P (readDisk read) Q F := by
  intro w hw
  cases hr : read w.disk with
  | ok a =>
      have hrun : (readDisk read : Prog Error (World η γ) α) w = (.ok a, w) := by
        unfold readDisk
        rw [Prog.bind_run_ok (Prog.get_run w), hr]
        rfl
      rw [hrun]
      exact hok a w hw hr
  | error e =>
      have hrun : (readDisk read : Prog Error (World η γ) α) w = (.err e, w) := by
        unfold readDisk
        rw [Prog.bind_run_ok (Prog.get_run w), hr]
        rfl
      rw [hrun]
      exact herr e w hw hr

/-- Removing a directory: while it is being removed the directory is still there,
with less in it. -/
theorem removeDir_triple (hblame : s.faults ≠ Faults.clean → Blame) (hI : Aside I) {place : Place}
    (hother : ∀ d, D d → d.slots place ≠ .other)
    (hdebris : ∀ d slot, D d → D (d.setSlot place (.dir slot)))
    (hgone : ∀ d, D d → D' (d.setSlot place .absent))
    (habsent : ∀ d, D d → d.slots place = .absent → D' d) :
    Triple (Over D I) (s.removeDir place) (fun _ => Over D' I)
      (fun _ w => Over (fun d => D d ∨ D' d) I w ∧ Blame) := by
  unfold removeDir
  refine Triple.get_bind fun w hw => ?_
  cases hslot : w.disk.slots place with
  | absent =>
      refine Triple.pure fun w' h => ?_
      rw [h]
      exact ⟨habsent _ hw.1 hslot, hw.2⟩
  | other => exact absurd hslot (hother _ hw.1)
  | dir slot =>
      have hstart : ∀ w', w' = w → Over D I w' := fun w' h => by rw [h]; exact hw
      have hentries : Triple (Over D I) (s.write "remove_dir_all:entries" fun disk =>
          disk.setSlot place (.dir (SlotDir.debris slot (s.faults.debris w.tick))))
          (fun _ => Over D I) (fun _ w => Over D I w ∧ Blame) :=
        write_keeps hblame hI fun d hd => hdebris d _ hd
      have hlast : Triple (Over D I) (s.write "remove_dir_all" fun disk =>
          disk.setSlot place .absent) (fun _ => Over D' I)
          (fun _ w => Over (fun d => D d ∨ D' d) I w ∧ Blame) :=
        write_triple hblame hI hgone
      have hall := Triple.bind (hentries.crash fun _ h => ⟨⟨.inl h.1.1, h.1.2⟩, h.2⟩)
        fun _ => hlast
      exact hall.pre fun w' h => by rw [h]; exact hw

/-- A rename is one step. -/
theorem renameDurable_triple (hblame : s.faults ≠ Faults.clean → Blame) (hI : Aside I)
    {source target : Place}
    (h : ∀ d, D d → D' ((d.setSlot target (d.slots source)).setSlot source .absent)) :
    Triple (Over D I) (s.renameDurable source target) (fun _ => Over D' I)
      (fun _ w => Over (fun d => D d ∨ D' d) I w ∧ Blame) :=
  write_triple hblame hI h

/-! ## the journal -/

/-- A journal that can be read is read from its complete lines. -/
theorem readLines_linesOf {d : Disk} {es : List JournalEntry} (h : d.readJournal = .ok es) :
    readLines checkEntry none (Disk.linesOf d).lines = .ok es := by
  unfold Disk.readJournal at h
  unfold Disk.linesOf
  cases hj : d.journal with
  | absent =>
      rw [hj] at h
      exact h
  | unreadable message =>
      rw [hj] at h
      cases h
  | content file =>
      rw [hj] at h
      exact h

/-- An unterminated tail does not count. -/
theorem readJournal_torn {d : Disk} {es : List JournalEntry} (torn : Bool)
    (h : d.readJournal = .ok es) :
    Disk.readJournal { d with journal := .content ⟨(Disk.linesOf d).lines, torn⟩ } = .ok es :=
  readLines_linesOf h

/-- The number after the last entry. -/
theorem seqAfter_getLast? (es : List JournalEntry) : seqAfter es.getLast? = nextSeq es := by
  unfold nextSeq
  cases es.getLast? with
  | none => rfl
  | some last => rfl

/-- One more line that validates and carries the next number is one more entry. -/
theorem readJournal_concat {d : Disk} {es : List JournalEntry} {entry : JournalEntry}
    (h : d.readJournal = .ok es) (hvalid : entry.validate = .ok ())
    (hseq : entry.seq = nextSeq es) :
    Disk.readJournal { d with
      journal := .content ⟨(Disk.linesOf d).lines ++ [.entry entry], false⟩ } =
        .ok (es ++ [entry]) := by
  have hcheck : checkEntry (es.getLast?.or none) entry = .ok () := by
    rw [Option.or_none]
    simp [checkEntry, hvalid, hseq, seqAfter_getLast?]
  exact readLines_concat (readLines_linesOf h) hcheck

/-- Dropping the unterminated tail changes nothing that is read. -/
theorem repairTail_triple (hblame : s.faults ≠ Faults.clean → Blame) (hI : Aside I)
    (hD : OffJournal D) {es : List JournalEntry} :
    Triple (Over (fun d => d.readJournal = .ok es ∧ D d) I) s.repairTail
      (fun _ => Over (fun d => d.readJournal = .ok es ∧ D d) I)
      (fun _ w => Over (fun d => d.readJournal = .ok es ∧ D d) I w ∧ Blame) := by
  unfold repairTail
  refine Triple.get_bind fun w hw => ?_
  have hstart : ∀ w', w' = w → Over (fun d => d.readJournal = .ok es ∧ D d) I w' :=
    fun w' h => by rw [h]; exact hw
  split
  · next file hfile =>
      have hread : Disk.readJournal { w.disk with journal := .content ⟨file.lines, false⟩ } =
          .ok es := by
        rw [← hw.1.1]
        simp only [Disk.readJournal, hfile]
      have hwrite : Triple (Over (fun d => d = w.disk) I) (s.write "set_len" fun disk =>
          { disk with journal := .content ⟨file.lines, false⟩ })
          (fun _ => Over (fun d => d.readJournal = .ok es ∧ D d) I)
          (fun _ w' => Over (fun d => d = w.disk ∨ d.readJournal = .ok es ∧ D d) I w' ∧ Blame) :=
        write_triple hblame hI fun d hd => by
          rw [hd]
          exact ⟨hread, hD _ _ hw.1.2⟩
      split
      · refine (hwrite.crash fun w' h => ?_).pre fun w' h => by rw [h]; exact ⟨rfl, hw.2⟩
        exact ⟨⟨h.1.1.elim (fun hd => by rw [hd]; exact hw.1) id, h.1.2⟩, h.2⟩
      · exact Triple.pure hstart
  · exact Triple.pure hstart

/-- **Append**: cut off anywhere, the journal has the new entry or has it not; an
append that returns has it. -/
theorem append_triple (hblame : s.faults ≠ Faults.clean → Blame) (hI : Aside I)
    (hD : OffJournal D) {es : List JournalEntry} {entry : JournalEntry}
    (hgood : entry.validate = .ok () ∧ entry.seq = nextSeq es ∨ Blame) :
    Triple (Over (fun d => d.readJournal = .ok es ∧ D d) I) (s.append entry)
      (fun _ => Over (fun d => d.readJournal = .ok (es ++ [entry]) ∧ D d) I)
      (fun _ w => Over (fun d =>
        (d.readJournal = .ok es ∨ d.readJournal = .ok (es ++ [entry])) ∧ D d) I w ∧ Blame) := by
  have hbefore : ∀ w : World η γ, Over (fun d => d.readJournal = .ok es ∧ D d) I w ∧ Blame →
      Over (fun d => (d.readJournal = .ok es ∨ d.readJournal = .ok (es ++ [entry])) ∧ D d) I w ∧
        Blame :=
    fun w h => ⟨⟨⟨.inl h.1.1.1, h.1.1.2⟩, h.1.2⟩, h.2⟩
  unfold append
  have hcheck : Triple (Over (fun d => d.readJournal = .ok es ∧ D d) I)
      (Prog.ofExcept entry.validate : Prog Error (World η γ) Unit)
      (fun _ w => entry.validate = .ok () ∧ Over (fun d => d.readJournal = .ok es ∧ D d) I w)
      (fun _ w => Over (fun d => d.readJournal = .ok es ∧ D d) I w ∧ Blame) := by
    refine Triple.ofExcept (fun _ w h hw => ⟨h, hw⟩) fun e w h hw => ?_
    refine ⟨hw, hgood.resolve_left fun hg => ?_⟩
    rw [hg.1] at h
    cases h
  refine Triple.bind (hcheck.crash hbefore) fun _ => Triple.assume fun hvalid => ?_
  have hread : Triple (Over (fun d => d.readJournal = .ok es ∧ D d) I) readJournal
      (fun prior w => prior = es ∧ Over (fun d => d.readJournal = .ok es ∧ D d) I w)
      (fun _ w => Over (fun d => d.readJournal = .ok es ∧ D d) I w ∧ Blame) := by
    refine readDisk_triple (fun prior w hw h => ?_) fun e w hw h => ?_
    · rw [hw.1.1, Except.ok.injEq] at h
      exact ⟨h.symm, hw⟩
    · rw [hw.1.1] at h
      cases h
  refine Triple.bind (hread.crash hbefore) fun prior => Triple.assume fun hprior => ?_
  subst hprior
  by_cases hseq : entry.seq = nextSeq prior
  · rw [if_neg (not_not_intro hseq)]
    have htail : Triple (Over (fun d => d.readJournal = .ok prior ∧ D d) I)
        (s.write "write_all:tail" fun disk =>
          { disk with journal := .content ⟨(Disk.linesOf disk).lines, true⟩ })
        (fun _ => Over (fun d => d.readJournal = .ok prior ∧ D d) I)
        (fun _ w => Over (fun d => d.readJournal = .ok prior ∧ D d) I w ∧ Blame) :=
      write_keeps hblame hI fun d hd => ⟨readJournal_torn true hd.1, hD d _ hd.2⟩
    have hline : Triple (Over (fun d => d.readJournal = .ok prior ∧ D d) I)
        (s.write "write_all" fun disk =>
          { disk with journal := .content ⟨(Disk.linesOf disk).lines ++ [.entry entry], false⟩ })
        (fun _ => Over (fun d => d.readJournal = .ok (prior ++ [entry]) ∧ D d) I) _ :=
      write_triple hblame hI fun d hd => ⟨readJournal_concat hd.1 hvalid hseq, hD d _ hd.2⟩
    refine Triple.bind ((repairTail_triple hblame hI hD).crash hbefore) fun _ => ?_
    refine Triple.bind (htail.crash hbefore) fun _ => hline.crash fun w hw => ?_
    exact ⟨⟨hw.1.1.elim (fun h => ⟨.inl h.1, h.2⟩) fun h => ⟨.inr h.1, h.2⟩, hw.1.2⟩, hw.2⟩
  · rw [if_pos hseq]
    exact Triple.throw fun w hw =>
      hbefore w ⟨hw, hgood.resolve_left fun hg => hseq hg.2⟩

/-- **Append**, by the lines: they stay as they are until the last step, which adds one that
validates and carries the next number. -/
theorem append_lines_triple (hI : Aside I) {entry : JournalEntry}
    (hsame : ∀ d torn, D d → D { d with journal := .content ⟨(Disk.linesOf d).lines, torn⟩ })
    (hadd : ∀ d es, d.readJournal = .ok es → entry.validate = .ok () → entry.seq = nextSeq es →
      D d → D' { d with journal := .content ⟨(Disk.linesOf d).lines ++ [.entry entry], false⟩ }) :
    Triple (Over D I) (s.append entry) (fun _ => Over D' I)
      (fun _ => Over (fun d => D d ∨ D' d) I) := by
  have hbefore : ∀ w : World η γ, Over D I w → Over (fun d => D d ∨ D' d) I w :=
    fun _ h => ⟨.inl h.1, h.2⟩
  unfold append
  refine Triple.bind (R := fun _ w => entry.validate = .ok () ∧ Over D I w)
    (Triple.ofExcept (fun _ w hv h => ⟨hv, h⟩) fun _ w _ h => hbefore w h) fun _ =>
      Triple.assume fun hvalid => ?_
  refine Triple.bind (R := fun prior => Over (fun d => d.readJournal = .ok prior ∧ D d) I)
    (readDisk_triple (fun prior w h hread => ⟨⟨hread, h.1⟩, h.2⟩) fun _ w h _ => hbefore w h)
    fun prior => ?_
  let Read : Disk → Prop := fun d => d.readJournal = .ok prior ∧ D d
  have hread : ∀ w : World η γ, Over Read I w → Over (fun d => D d ∨ D' d) I w :=
    fun _ h => ⟨.inl h.1.2, h.2⟩
  have htorn : ∀ label torn, Keeps (Over Read I) (s.write label fun disk =>
      { disk with journal := .content ⟨(Disk.linesOf disk).lines, torn⟩ }) := fun label torn =>
    (write_keeps (fun _ => True.intro) hI fun d hd =>
      ⟨readJournal_torn torn hd.1, hsame d torn hd.2⟩).crash fun _ h => h.1
  have hrepair : Keeps (Over Read I) s.repairTail := by
    unfold repairTail
    refine Triple.get_bind fun w hw => ?_
    have hstart : ∀ w', w' = w → Over Read I w' := fun w' h => by rw [h]; exact hw
    split
    · next file hfile =>
        refine Triple.ite (fun _ => ?_) fun _ => Triple.pure hstart
        have hlines : Disk.linesOf w.disk = file := by simp [Disk.linesOf, hfile]
        have hwrite : Triple (Over (· = w.disk) I) (s.write "set_len" fun disk =>
            { disk with journal := .content ⟨file.lines, false⟩ }) (fun _ => Over Read I) _ :=
          write_triple (fun _ => True.intro) hI fun d hd => by
            rw [hd, ← hlines]
            exact ⟨readJournal_torn false hw.1.1, hsame _ _ hw.1.2⟩
        refine hwrite.conseq (fun w' h => by rw [h]; exact ⟨rfl, hw.2⟩) (fun _ _ h => h) ?_
        exact fun _ w' h => ⟨h.1.1.elim (fun hd => by rw [hd]; exact hw.1) id, h.1.2⟩
    · exact Triple.pure hstart
  by_cases hseq : entry.seq = nextSeq prior
  · rw [if_neg (not_not_intro hseq)]
    refine Triple.bind (hrepair.crash hread) fun _ => ?_
    refine Triple.bind ((htorn _ true).crash hread) fun _ => ?_
    refine (write_triple (fun _ => True.intro) hI fun d hd =>
      hadd d prior hd.1 hvalid hseq hd.2).crash fun w h => ?_
    exact ⟨h.1.1.elim (fun hd => .inl hd.2) .inr, h.1.2⟩
  · rw [if_pos hseq]
    exact Triple.throw hread

/-! ## the records -/

/-- A record is replaced in one step. -/
theorem persistOperation_triple {P Q : World η γ → Prop} {op : Operation}
    (hblame : s.faults ≠ Faults.clean → Blame) (hP : OffTick P) (hQ : OffTick Q)
    (hvalid : op.validate = .ok () ∨ Blame)
    (h : ∀ w, op.validate = .ok () → P w → Q (w.record op)) :
    Triple P (s.persistOperation op) (fun _ => Q) (fun _ w => (P w ∨ Q w) ∧ Blame) := by
  have hcheck : Triple P (Prog.ofExcept op.validate : Prog Error (World η γ) Unit)
      (fun _ w => op.validate = .ok () ∧ P w) (fun _ w => (P w ∨ Q w) ∧ Blame) := by
    refine Triple.ofExcept (fun _ w ho hw => ⟨ho, hw⟩) fun e w he hw => ?_
    refine ⟨.inl hw, hvalid.resolve_left fun hv => ?_⟩
    rw [hv] at he
    cases he
  have hbefore := (boundary_triple hblame hP "before:operation.json").crash
    fun w (hw : P w ∧ Blame) => (⟨.inl hw.1, hw.2⟩ : (P w ∨ Q w) ∧ Blame)
  have hafter := (boundary_triple hblame hQ "after:operation.json").crash
    fun w (hw : Q w ∧ Blame) => (⟨.inr hw.1, hw.2⟩ : (P w ∨ Q w) ∧ Blame)
  unfold persistOperation
  refine Triple.bind hcheck fun _ => Triple.assume fun hv => Triple.bind hbefore fun _ => ?_
  exact Triple.bind (Triple.modify fun w hw => h w hv hw) fun _ => hafter

/-! ## what an engine call does not touch -/

/-- A write that keeps what is said of the directory. -/
theorem write_clean_keeps (hI : Aside I) {label : String} {f : Disk → Disk}
    (hf : ∀ d, D d → D (f d)) : Keeps (Over D I) (s.write label f) :=
  (write_keeps (fun _ => True.intro) hI hf).crash fun _ h => h.1

/-- A read keeps anything. -/
theorem readDisk_keeps {P : World η γ → Prop} {read : Disk → Except Error α} :
    Keeps P (readDisk read) :=
  readDisk_triple (fun _ _ h _ => h) fun _ _ h _ => h

/-- Removing a directory is about its own place. -/
theorem removeDir_elsewhere (hI : Aside I) {place : Place}
    (hD : ∀ d node, D d → D (d.setSlot place node)) : Keeps (Over D I) (s.removeDir place) := by
  unfold removeDir
  refine Triple.get_bind fun w hw => ?_
  have hstart : ∀ w', w' = w → Over D I w' := fun w' h => by rw [h]; exact hw
  have hset : ∀ {label : String} {node : Node}, Keeps (Over D I) (s.write label fun disk =>
      disk.setSlot place node) := write_clean_keeps hI fun d hd => hD d _ hd
  cases w.disk.slots place with
  | absent => exact Triple.pure hstart
  | other => exact Triple.throw hstart
  | dir slot => exact (Triple.bind hset fun _ => hset).pre hstart

/-- `remove_dir` keeps what is not about the slots. -/
theorem removeDir_keeps (hI : Aside I) (hD : OffSlots D) (place : Place) :
    Keeps (Over D I) (s.removeDir place) :=
  removeDir_elsewhere hI fun d node hd => hD d place node hd

/-- So does a durable rename. -/
theorem renameDurable_keeps (hI : Aside I) (hD : OffSlots D) (source target : Place) :
    Keeps (Over D I) (s.renameDurable source target) :=
  write_clean_keeps hI fun d hd => hD _ source _ (hD d target _ hd)

/-- Repairing the tail keeps what is not about the journal. -/
theorem repairTail_keeps (hI : Aside I) (hD : OffJournal D) :
    Keeps (Over D I) s.repairTail := by
  unfold repairTail
  refine Triple.get_bind fun w hw => ?_
  have hstart : ∀ w', w' = w → Over D I w' := fun w' h => by rw [h]; exact hw
  split
  · split
    · exact Triple.pre (write_clean_keeps hI fun d hd => hD d _ hd) hstart
    · exact Triple.pure hstart
  · exact Triple.pure hstart

/-- So does `append`. -/
theorem append_keeps (hI : Aside I) (hD : OffJournal D) (entry : JournalEntry) :
    Keeps (Over D I) (s.append entry) := by
  have hjournal : ∀ {label : String} {f : Disk → File (Lines JournalEntry)},
      Keeps (Over D I) (s.write label fun disk => { disk with journal := f disk }) :=
    write_clean_keeps hI fun d hd => hD d _ hd
  unfold append
  refine Triple.bind (Triple.ofExcept (fun _ _ _ h => h) fun _ _ _ h => h) fun _ => ?_
  refine Triple.bind readDisk_keeps fun prior => ?_
  split
  · exact Triple.throw fun _ h => h
  · exact Triple.bind (repairTail_keeps hI hD) fun _ => Triple.bind hjournal fun _ => hjournal

/-- Populating a slot keeps what is not about the slots. -/
theorem populate_keeps (hI : Aside I) (hD : OffSlots D) (staging : Place)
    (version : String) (bytes : Path) :
    Keeps (Over D I) (s.populate staging version bytes) := by
  have hset : ∀ {label : String} {node : Node}, Keeps (Over D I) (s.write label fun disk =>
      disk.setSlot staging node) := write_clean_keeps hI fun d hd => hD d staging _ hd
  unfold populate
  split
  · exact Triple.throw fun _ h => h
  · refine Triple.bind (removeDir_keeps hI hD staging) fun _ => Triple.bind hset fun _ => ?_
    refine Triple.get_bind fun w hw => ?_
    have hsource : Triple (· = w) (Prog.ofExcept (w.disk.file bytes).read)
        (fun _ => Over D I) (fun _ => Over D I) :=
      Triple.ofExcept (fun _ w' _ h => by rw [h]; exact hw) fun _ w' _ h => by rw [h]; exact hw
    exact Triple.bind hsource fun source => Triple.bind hset fun _ => Triple.bind hset fun _ => hset

/-- So does `stage`. -/
theorem stage_keeps (hI : Aside I) (hD : OffSlots D) (version : String) (bytes : Path) :
    Keeps (Over D I) (s.stage version bytes) :=
  Triple.bind (populate_keeps hI hD _ version bytes) fun _ =>
    Triple.bind (removeDir_keeps hI hD _) fun _ => renameDurable_keeps hI hD _ _

/-- So does `promote`. -/
theorem promote_keeps (hI : Aside I) (hD : OffSlots D) : Keeps (Over D I) s.promote := by
  unfold promote
  refine Triple.bind readDisk_keeps fun experiment => ?_
  cases experiment with
  | none =>
      refine Triple.bind readDisk_keeps fun stable => ?_
      cases stable with
      | none => exact Triple.throw fun _ h => h
      | some version => exact removeDir_keeps hI hD _
  | some version =>
      refine Triple.get_bind fun w hw => Triple.pre (P := Over D I) ?_ fun w' h => by
        rw [h]; exact hw
      have hrename := renameDurable_keeps (s := s) hI hD
      have hremove := removeDir_keeps (s := s) hI hD
      split
      · exact Triple.bind (hremove _) fun _ => Triple.bind (hrename _ _) fun _ =>
          Triple.bind (hrename _ _) fun _ => hremove _
      · exact Triple.bind (hrename _ _) fun _ => hremove _

end FileStore

/-! ## calls on the outside -/

/-- `I` is not about what a call on the outside changes. -/
structure Remote {η γ : Type} (I : World η γ → Prop) : Prop where
  aside : Aside I
  call : ∀ w name, I w → I { w with log := w.log ++ [.call name] }
  host : ∀ w h, I w → I { w with host := h }
  product : ∀ w p, I w → I { w with product := p }
  observed : ∀ w o, I w → I { w with observed := o }

namespace Runner

variable {η γ α : Type} {r : Runner η γ} {D : Disk → Prop} {I P : World η γ → Prop}

/-- Nothing of the world matters. -/
theorem remote_true : Remote (fun _ : World η γ => True) :=
  ⟨fun _ _ _ h => h, fun _ _ h => h, fun _ _ h => h, fun _ _ h => h, fun _ _ h => h⟩

/-- A call of the product. -/
theorem product_keeps (hproduct : ∀ w p, P w → P { w with product := p }) (m : Prog Error γ α) :
    Keeps P (product m : Prog Error (World η γ) α) := by
  refine Triple.zoom fun w hw => ?_
  generalize m w.product = o
  obtain ⟨o, p⟩ := o
  cases o <;> exact hproduct w p hw

/-- A host call with its boundaries: `hrun` is about the call itself, which may leave
`I` for `J`; only the blamed one stays without a reply. -/
theorem hostCall_triple {J : World η γ → Prop} {Blame : Prop} {name : String}
    {call : Host η → Prog Error η (Option α)}
    (hblame : r.store.faults ≠ Faults.clean → Blame) (hI : Aside I) (hJ : Aside J)
    (hcall : ∀ w, I w → I { w with log := w.log ++ [.call name] })
    (hrun : Triple (Over D I) (r.hostRun call)
      (fun reply w => (reply = none → Blame) ∧ Over D J w)
      (fun _ w => (Over D I w ∨ Over D J w) ∧ Blame)) :
    Triple (Over D I) (r.hostCall name call)
      (fun reply w => (reply = none → Blame) ∧ Over D J w)
      (fun _ w => (Over D I w ∨ Over D J w) ∧ Blame) := by
  have hbefore : Triple (Over D I) (r.store.boundary s!"before:{name}") (fun _ => Over D I)
      (fun _ w => (Over D I w ∨ Over D J w) ∧ Blame) :=
    (FileStore.boundary_triple hblame (hI.over _) _).crash fun _ h => ⟨.inl h.1, h.2⟩
  have hnote : Triple (Over D I) (FileStore.note (.call name) : Prog Error (World η γ) Unit)
      (fun _ => Over D I) (fun _ w => (Over D I w ∨ Over D J w) ∧ Blame) :=
    Triple.modify fun w hw => ⟨hw.1, hcall w hw.2⟩
  have hafter : Triple (Over D J) (r.store.boundary s!"after:{name}") (fun _ => Over D J)
      (fun _ w => (Over D I w ∨ Over D J w) ∧ Blame) :=
    (FileStore.boundary_triple hblame (hJ.over _) _).crash fun _ h => ⟨.inr h.1, h.2⟩
  unfold hostCall
  refine Triple.bind hbefore fun _ => Triple.bind hnote fun _ => Triple.bind hrun fun reply => ?_
  exact Triple.assume fun hnone => Triple.bind hafter fun _ => Triple.pure fun _ h => ⟨hnone, h⟩

/-- The host changes its own state only. -/
theorem hostRun_about (hhost : ∀ w h, I w → I { w with host := h })
    (call : Host η → Prog Error η α) : Keeps (Over D I) (r.hostRun call) := by
  intro w hw
  have hset : ∀ h, Over D I { w with host := h } := fun h => ⟨hw.1, hhost w h hw.2⟩
  unfold hostRun
  generalize call (r.host w.disk) w.host = o
  obtain ⟨o, h⟩ := o
  cases o <;> exact hset h

/-- A host call is about the host and its own note. -/
theorem hostCall_about (hI : Aside I)
    (hcall : ∀ w name, I w → I { w with log := w.log ++ [.call name] })
    (hhost : ∀ w h, I w → I { w with host := h }) (name : String)
    (call : Host η → Prog Error η (Option α)) : Keeps (Over D I) (r.hostCall name call) := by
  have hrun : Triple (Over D I) (r.hostRun call) (fun reply w => (reply = none → True) ∧ Over D I w)
      (fun _ w => (Over D I w ∨ Over D I w) ∧ True) :=
    (hostRun_about hhost call).conseq (fun _ h => h) (fun _ _ h => ⟨fun _ => trivial, h⟩)
      fun _ _ h => ⟨.inl h, trivial⟩
  exact (hostCall_triple (fun _ => trivial) hI hI (fun w => hcall w name) hrun).conseq
    (fun _ h => h) (fun _ _ h => h.2) fun _ _ h => h.1.elim id id

/-- A call of the host keeps what is remote from it. -/
theorem hostCall_keeps (hI : Remote I) (name : String)
    (call : Host η → Prog Error η (Option α)) : Keeps (Over D I) (r.hostCall name call) :=
  hostCall_about hI.aside hI.call hI.host name call

/-! ## the predicate -/

/-- The surfaces of `c` read the product. -/
def ReadsProduct (c : Convergence (World η γ)) : Prop :=
  ∀ surface ∈ c.surfaces, ∃ m : Prog Error γ (Option (String × String)), surface.read = product m

/-- `P` is not about the predicate's cell. -/
theorem convergence_triple (hP : ∀ w o, P w → P { w with observed := o }) :
    Triple P r.convergence (fun c w => ReadsProduct c ∧ P w)
      (fun e w => (∃ message, e = some (.invalid message)) ∧ P w) := by
  unfold convergence
  refine Triple.bind (R := fun c w => ReadsProduct c ∧ P w) ?_ fun c => ?_
  · refine Triple.ofExcept (fun c w hc hw => ⟨?_, hw⟩) fun e w he hw => ⟨?_, hw⟩
    · intro surface hsurface
      have hsurfaces : c.surfaces = r.surfaces.map fun s =>
          ({ id := s.id, read := product s.read } : ReadbackSurface (World η γ)) := by
        unfold Convergence.new at hc
        split at hc
        · cases hc
          rfl
        · cases hc
      rw [hsurfaces] at hsurface
      obtain ⟨s, -, rfl⟩ := List.mem_map.mp hsurface
      exact ⟨s.read, rfl⟩
    · obtain ⟨message, rfl⟩ := Convergence.new_error he
      exact ⟨message, rfl⟩
  · refine Triple.bind (R := fun _ w => ReadsProduct c ∧ P w) ?_ fun _ => Triple.pure fun _ h => h
    exact Triple.modify fun w hw => ⟨hw.1, hP w _ hw.2⟩

/-- Reading the surfaces keeps what each of them does. -/
theorem readSurfaces_keeps {σ : Type} {J : σ → Prop} {c : Convergence σ}
    (surfaces : List (ReadbackSurface σ)) (hread : ∀ s ∈ surfaces, Keeps J s.read)
    (result : PredicateResult) (sources : List String) :
    Keeps J (c.readSurfaces result sources surfaces) := by
  induction surfaces generalizing result sources with
  | nil => exact Triple.pure fun _ h => h
  | cons surface rest ih =>
      unfold Convergence.readSurfaces
      refine Triple.bind (hread surface (by simp)).attempt fun reply => ?_
      match reply with
      | .ok none => exact Triple.pure fun _ h => h
      | .error e => exact Triple.pure fun _ h => h
      | .ok (some (value, _)) =>
          simp only
          split
          · exact ih (fun s hs => hread s (List.mem_cons_of_mem _ hs)) _ _
          · exact Triple.pure fun _ h => h

/-- The verdict looks at the product and fills the cell. -/
theorem evaluate_keeps (hproduct : ∀ w p, P w → P { w with product := p })
    (hobserved : ∀ w o, P w → P { w with observed := o }) {c : Convergence (World η γ)}
    (hc : ReadsProduct c) (evidence : Evidence) (target : String) :
    Keeps P ((r.engine c).predicates.evaluate evidence target) := by
  have hread : ∀ s ∈ c.surfaces, Keeps P s.read := by
    intro s hs
    obtain ⟨m, hm⟩ := hc s hs
    rw [hm]
    exact product_keeps hproduct m
  have hobserve : ∀ f, Keeps (fun s : World η γ × Observed => P s.1)
      (Convergence.observe f) := fun f => Triple.modify fun _ h => h
  have hsettle : Keeps (fun s : World η γ × Observed => P s.1) c.settle := by
    unfold Convergence.settle
    refine Triple.bind (R := fun _ s => P s.1) (Triple.get fun _ h => h) fun s => ?_
    have hworld : Keeps (fun s : World η γ × Observed => P s.1)
        (Convergence.world (c.readSurfaces ⟨true, "", c.clock s.1, []⟩ [] c.surfaces)) :=
      Triple.zoom fun s hs => (readSurfaces_keeps c.surfaces hread _ _ s.1 hs).mono
        (fun _ _ h => h) fun _ _ h => h
    refine Triple.bind hworld fun reply => ?_
    cases reply with
    | none => exact Triple.pure fun _ h => h
    | some result => exact Triple.bind (hobserve _) fun _ => Triple.pure fun _ h => h
  have heval : Keeps (fun s : World η γ × Observed => P s.1)
      (c.evaluate r.self evidence target) := by
    unfold Convergence.evaluate
    refine Triple.bind (Triple.ofExcept (fun _ _ _ h => h) fun _ _ _ h => h) fun _ => ?_
    refine Triple.bind (hobserve _) fun _ => ?_
    split
    · exact Triple.pure fun _ h => h
    · split
      · exact Triple.pure fun _ h => h
      · exact hsettle
  have hzoom : Keeps P (Prog.zoom (fun w : World η γ => (w, w.observed))
      (fun s _ => { s.1 with observed := s.2 }) (c.evaluate r.self evidence target)) :=
    Triple.zoom fun w hw => (heval (w, w.observed) hw).mono
      (fun _ s h => hobserved s.1 s.2 h) fun _ s h => hobserved s.1 s.2 h
  exact hzoom

/-- **No engine call touches anything but the transaction, the host and the product.** -/
theorem engine_frame (hI : Remote I) (hS : FileStore.OffSlots D) (hJ : FileStore.OffJournal D)
    {c : Convergence (World η γ)} (hc : ReadsProduct c) : Frame (r.engine c) (Over D I) where
  readJournal := FileStore.readDisk_keeps
  append := FileStore.append_keeps hI.aside hJ
  versions := FileStore.readDisk_keeps
  stage := FileStore.stage_keeps hI.aside hS
  promote := FileStore.promote_keeps hI.aside hS
  clear := FileStore.removeDir_keeps hI.aside hS .experiment
  fence := hostCall_keeps hI _ _
  quiesce := hostCall_keeps hI _ _
  stop _ := hostCall_keeps hI _ _
  start _ := hostCall_keeps hI _ _
  probe := hostCall_keeps hI _ _
  resume := hostCall_keeps hI _ _
  evaluate := evaluate_keeps (fun w p h => ⟨h.1, hI.product w p h.2⟩)
    (fun w o h => ⟨h.1, hI.observed w o h.2⟩) hc

/-! ## transitions -/

/-- A record that is advanced is as valid as it was. -/
theorem advance_validate (op : Operation) (now : Nat) (phase : OperationPhase)
    (outcome : Option Outcome) (reason : Option String) :
    (advance op now phase outcome reason).validate = op.validate := rfl

/-- A transition records the advanced operation, when there is one. -/
theorem transition_triple {Blame : Prop} {Q : Option Operation → World η γ → Prop}
    {op : Option Operation} {phase : OperationPhase} {outcome : Option Outcome}
    {reason : Option String} (hblame : r.store.faults ≠ Faults.clean → Blame) (hP : OffTick P)
    (hQ : ∀ op, OffTick (Q op)) (hvalid : ∀ o, op = some o → o.validate = .ok () ∨ Blame)
    (hnone : op = none → ∀ w, P w → Q none w)
    (hsome : ∀ o, op = some o → ∀ w now, o.validate = .ok () → P w →
      Q (some (advance o now phase outcome reason)) (w.record (advance o now phase outcome reason))) :
    Triple P (r.transition op phase outcome reason) Q
      (fun _ w => (P w ∨ ∃ op', Q op' w) ∧ Blame) := by
  unfold transition
  cases op with
  | none => exact Triple.pure fun w hw => hnone rfl w hw
  | some o =>
      refine Triple.get_bind fun w hw => ?_
      let o' := advance o (r.clock w.tick) phase outcome reason
      have hpersist : Triple P (r.store.persistOperation o') (fun _ => Q (some o'))
          (fun _ w => (P w ∨ Q (some o') w) ∧ Blame) :=
        FileStore.persistOperation_triple hblame hP (hQ _) (hvalid o rfl) fun w' hv hw' =>
          hsome o rfl w' _ hv hw'
      have hstart : ∀ w', w' = w → P w' := fun w' h => by rw [h]; exact hw
      refine Triple.bind (hpersist.conseq hstart (fun _ _ h => h) fun _ w' h => ?_) fun _ =>
        Triple.pure fun _ h => h
      exact ⟨h.1.imp id fun hq => ⟨_, hq⟩, h.2⟩

/-! ## the journal of a running engine -/

/-- A call on the world leaves the sequence number alone. -/
theorem lift_triple {m : Prog Error (World η γ) α} {Q : α → World η γ → Prop}
    {F : Option Error → World η γ → Prop} (h : Triple P m Q F) (n : Nat) :
    Triple (fun s => s.seq = n ∧ P s.world) (lift m) (fun a s => s.seq = n ∧ Q a s.world)
      (fun e s => F e s.world) :=
  Triple.zoom fun s hs => (h s.world hs.2).mono (fun _ _ hq => ⟨hs.1, hq⟩) fun _ _ hf => hf

/-- A budgeted call of a running engine; without a reply it ends in `F`. -/
theorem bounded_triple {call : HostCall (World η γ) α} {label : String}
    {Q F : World η γ → Prop}
    (h : Triple P call (fun reply w => (reply = none → F w) ∧ Q w) (fun _ => F)) (n : Nat) :
    Triple (fun s => s.seq = n ∧ P s.world) (Engine.bounded label call)
      (fun _ s => s.seq = n ∧ Q s.world) (fun _ s => F s.world) := by
  unfold Engine.bounded
  refine Triple.bind (lift_triple h n) fun reply => ?_
  cases reply with
  | some a => exact Triple.pure fun s hs => ⟨hs.1, hs.2.2⟩
  | none => exact Triple.throw fun s hs => hs.2.1 rfl

/-- A budgeted call that changes nothing, however it ends. -/
theorem bounded_keeps {call : HostCall (World η γ) α} {label : String} (h : Keeps P call)
    (n : Nat) : Keeps (fun s => s.seq = n ∧ P s.world) (Engine.bounded label call) := by
  unfold Engine.bounded
  refine Triple.bind (R := fun _ s => s.seq = n ∧ P s.world) ?_ fun reply => ?_
  · exact Triple.zoom fun s hs => (h s.world hs.2).mono (fun _ _ hw => ⟨hs.1, hw⟩)
      fun _ _ hw => ⟨hs.1, hw⟩
  · cases reply with
    | some a => exact Triple.pure fun _ hs => hs
    | none => exact Triple.throw fun _ hs => hs

/-- A new engine for the rest of a call. -/
theorem withEngine_triple {m : Prog Error (Running (World η γ)) α} {Q : α → World η γ → Prop}
    {F : Option Error → World η γ → Prop}
    (h : Triple (OnWorld P) m (fun a => OnWorld (Q a)) (fun e => OnWorld (F e))) :
    Triple P (withEngine m) Q F :=
  Triple.zoom fun w hw => h ⟨w, 0⟩ hw

end Runner

/-- The journal can be read, ends in `tail`, and goes on at `seq`. -/
def Disk.JournalAt (d : Disk) (tail : Option Phase) (seq : Nat) : Prop :=
  ∃ es, d.readJournal = .ok es ∧ lastIntent es = tail ∧ nextSeq es = seq

/-- The engine's own entries are valid. -/
theorem entryOf_validate (seq now : Nat) (intent : Phase) (detail : Detail) :
    (Engine.entryOf seq now intent detail).validate = .ok () := by
  have hget : (Engine.entryOf seq now intent detail).detail.get "formatVersion" = some "1" :=
    Detail.get_insert _ _ _
  unfold JournalEntry.validate
  rw [hget]
  rfl

namespace Runner

variable {η γ : Type} {r : Runner η γ} {D : Disk → Prop} {I : World η γ → Prop} {Blame : Prop}

/-- **An intent**: cut off, the journal is as before or has one more entry. -/
theorem journal_entries_triple (hblame : r.store.faults ≠ Faults.clean → Blame) (hI : Aside I)
    (hD : FileStore.OffJournal D) (c : Convergence (World η γ)) (es : List JournalEntry)
    (intent : Phase) (detail : Detail) :
    Triple (fun s => s.seq = nextSeq es ∧ Over (fun d => d.readJournal = .ok es ∧ D d) I s.world)
      ((r.engine c).journal intent detail)
      (fun _ s => ∃ entry, entry.intent = intent ∧ s.seq = nextSeq (es ++ [entry]) ∧
        Over (fun d => d.readJournal = .ok (es ++ [entry]) ∧ D d) I s.world)
      (fun _ s => (∃ entry, entry.intent = intent ∧ Over (fun d =>
        (d.readJournal = .ok es ∨ d.readJournal = .ok (es ++ [entry])) ∧ D d) I s.world) ∧
          Blame) := by
  unfold Engine.journal
  refine Triple.get_bind fun s hs => ?_
  obtain ⟨hseq, hw⟩ := hs
  let entry := Engine.entryOf s.seq ((r.engine c).now s.world) intent detail
  have hgood : entry.validate = .ok () ∧ entry.seq = nextSeq es ∨ Blame :=
    .inl ⟨entryOf_validate _ _ _ _, hseq⟩
  have happend := lift_triple (FileStore.append_triple hblame hI hD hgood) s.seq
  refine Triple.bind (happend.conseq (fun s' h => ?_) (fun _ _ h => h) fun _ s' h => ?_) fun _ => ?_
  · rw [h]
    exact ⟨rfl, hw⟩
  · exact ⟨⟨entry, rfl, h.1⟩, h.2⟩
  · refine Triple.modify fun s' h => ⟨entry, rfl, ?_, h.2⟩
    rw [nextSeq_concat]
    rfl

/-- An intent, by where it leaves the journal. -/
theorem journal_triple (hblame : r.store.faults ≠ Faults.clean → Blame) (hI : Aside I)
    (hD : FileStore.OffJournal D) (c : Convergence (World η γ)) (tail : Option Phase)
    (intent : Phase) (detail : Detail) :
    Triple (fun s => Over (fun d => d.JournalAt tail s.seq ∧ D d) I s.world)
      ((r.engine c).journal intent detail)
      (fun _ s => Over (fun d => d.JournalAt (some intent) s.seq ∧ D d) I s.world)
      (fun _ s => (∃ t n, (t = tail ∨ t = some intent) ∧
        Over (fun d => d.JournalAt t n ∧ D d) I s.world) ∧ Blame) := by
  refine Triple.pre (P := fun s => ∃ es, lastIntent es = tail ∧ s.seq = nextSeq es ∧
    Over (fun d => d.readJournal = .ok es ∧ D d) I s.world) ?_ ?_
  · refine Triple.exists_pre fun es => Triple.assume fun htail => ?_
    refine (journal_entries_triple hblame hI hD c es intent detail).conseq (fun _ h => h)
      (fun _ s h => ?_) fun _ s h => ?_
    · obtain ⟨entry, rfl, hseq, ⟨hj, hd⟩, hi⟩ := h
      exact ⟨⟨⟨_, hj, lastIntent_concat es _, hseq.symm⟩, hd⟩, hi⟩
    · obtain ⟨⟨entry, rfl, ⟨hj, hd⟩, hi⟩, hb⟩ := h
      refine ⟨?_, hb⟩
      rcases hj with hj | hj
      · exact ⟨tail, _, .inl rfl, ⟨⟨es, hj, htail, rfl⟩, hd⟩, hi⟩
      · exact ⟨_, _, .inr rfl, ⟨⟨_, hj, lastIntent_concat es _, rfl⟩, hd⟩, hi⟩
  · rintro s ⟨⟨⟨es, hread, htail, hseq⟩, hd⟩, hi⟩
    exact ⟨es, htail, hseq.symm, ⟨hread, hd⟩, hi⟩

/-- What a journal that can be read consists of validates. -/
theorem validateAll_of_readLines {last : Option JournalEntry} {lines : List (Line JournalEntry)}
    {es : List JournalEntry} (h : readLines checkEntry last lines = .ok es) :
    validateAll es = .ok () :=
  (validateAll_eq_ok_iff es).mpr (checked_checkEntry_iff.mp (readLines_ok_iff.mp h).2).1

/-- A journal that can be read is valid. -/
theorem validateAll_of_readJournal {d : Disk} {es : List JournalEntry}
    (h : d.readJournal = .ok es) : validateAll es = .ok () := by
  unfold Disk.readJournal at h
  cases hj : d.journal with
  | absent =>
      simp only [hj, Except.ok.injEq] at h
      rw [← h]
      rfl
  | unreadable message => simp [hj] at h
  | content file =>
      rw [hj] at h
      exact validateAll_of_readLines h

/-- Reading the journal that can be read. -/
theorem readEntries_triple {c : Convergence (World η γ)} {P : World η γ → Prop}
    {Q : List JournalEntry → Running (World η γ) → Prop}
    {F : Option Error → Running (World η γ) → Prop}
    (hok : ∀ es s, P s.world → s.world.disk.readJournal = .ok es → Q es s)
    (herr : ∀ e s, P s.world → s.world.disk.readJournal = .error e → F (some e) s) :
    Triple (OnWorld P) (r.engine c).readEntries Q F := by
  unfold Engine.readEntries
  refine Triple.bind (R := fun es s => P s.world ∧ s.world.disk.readJournal = .ok es) ?_
    fun es => ?_
  · refine Triple.zoom fun s hs => ?_
    have hread : Triple (· = s.world) (FileStore.readJournal : Prog Error (World η γ) _)
        (fun es w => P w ∧ w.disk.readJournal = .ok es) (fun e w => F e { s with world := w }) :=
      FileStore.readDisk_triple (fun es w h hr => by rw [h] at hr ⊢; exact ⟨hs, hr⟩)
        fun e w h hr => by rw [h] at hr ⊢; exact herr e s hs hr
    exact hread s.world rfl
  · refine Triple.bind (R := fun _ s => P s.world ∧ s.world.disk.readJournal = .ok es) ?_
      fun _ => Triple.pure fun s h => hok es s h.1 h.2
    refine Triple.ofExcept (fun _ s _ h => h) fun e s he h => ?_
    rw [validateAll_of_readJournal h.2] at he
    cases he

end Runner

end KCarrier
