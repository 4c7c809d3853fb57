import KCarrier.Runner.Flow
import KCarrier.Runner.Service

/-!
# KCarrier.Runner.Receipts

Receipts are write-once and never lost.

`Safekept` is the invariant: every record is where its id says (`Filed`), and each
terminal record there ever was can still be read, current or archived, with its target
and outcome (`Retains`).  The one step that could lose a receipt replaces
`operation.json`; it needs room (`Room`): the record it replaces is open, or archived.
-/

namespace KCarrier

open Crash
open Running

/-! ## records and receipts -/

/-- The records are where their ids say: the current one is valid, an archived one is
valid, has an outcome and lies under the digest of its id, and the two agree. -/
structure Disk.Filed (digest : String → String) (d : Disk) : Prop where
  operation : d.operation = .absent ∨ ∃ op, d.operation = .content op ∧ op.validate = .ok ()
  receipts : ∀ name, d.receipts name = .absent ∨ ∃ op, d.receipts name = .content op ∧
    op.validate = .ok () ∧ op.outcome ≠ none ∧ digest op.id = name
  agree : ∀ op a, d.operation = .content op → d.receipts (digest op.id) = .content a →
    a.targetVersion = op.targetVersion ∧ a.outcome = op.outcome

/-- The directory still has a readable record of the operation of `op`, with the same
target and outcome. -/
def Disk.Retains (digest : String → String) (d : Disk) (op : Operation) : Prop :=
  ∃ record, (d.readOperation = .observed record ∨ d.readArchive digest op.id = .observed record) ∧
    record.id = op.id ∧ record.targetVersion = op.targetVersion ∧ record.outcome = op.outcome

/-- A record may be replaced by one of `id`: nothing is archived under `id`, and the
replaced record is open, or archived. -/
structure Disk.Room (digest : String → String) (d : Disk) (id : String) : Prop where
  fresh : d.receipts (digest id) = .absent
  spare : ∀ op, d.operation = .content op →
    op.outcome = none ∨ ∃ a, d.receipts (digest op.id) = .content a

/-- A terminal record that was current or archived at some time. -/
def HeldOnce (log : List Note) (op : Operation) : Prop :=
  op.outcome ≠ none ∧ ((∃ disk, .recorded op disk ∈ log) ∨ .archived op ∈ log)

/-- No receipt is lost: `X` are those the directory had in the beginning. -/
structure Safekept {η γ : Type} (digest : String → String) (X : Operation → Prop)
    (w : World η γ) : Prop where
  filed : w.disk.Filed digest
  retained : ∀ op, X op ∨ HeldOnce w.log op → w.disk.Retains digest op
  noConflict : ∀ op, .archiveConflict op ∉ w.log

/-! ## reading them -/

section Read

variable {digest : String → String} {d : Disk}

theorem Disk.Filed.readOperation_genesis (h : d.Filed digest)
    (hop : d.readOperation = .genesis) : d.operation = .absent := by
  rcases h.operation with hf | ⟨record, hf, hv⟩
  · exact hf
  · rw [Disk.readOperation_observed_iff.mpr ⟨hf, hv⟩] at hop
    cases hop

/-- Where ids have different digests, an archived receipt is found under its id. -/
theorem Disk.Filed.readArchive_content (hinj : ∀ a b, digest a = digest b → a = b)
    (h : d.Filed digest) {id : String} {a : Operation}
    (ha : d.receipts (digest id) = .content a) : d.readArchive digest id = .observed a := by
  rcases h.receipts (digest id) with hf | ⟨record, hf, hv, ho, hid⟩
  · rw [hf] at ha
    cases ha
  · rw [ha] at hf
    cases hf
    have hid : a.id = id := hinj _ _ hid
    simp only [Disk.readArchive, readOperationFile, ha, hv]
    rw [if_neg (by simp [hid, ho])]

theorem Disk.Filed.receipts_of_genesis (h : d.Filed digest)
    {id : String} (hg : d.readArchive digest id = .genesis) : d.receipts (digest id) = .absent := by
  rcases h.receipts (digest id) with hf | ⟨record, hf, hv, -, -⟩
  · exact hf
  · simp only [Disk.readArchive, readOperationFile, hf, hv] at hg
    split at hg
    · cases hg
    · cases hg

/-- An open record is not archived. -/
theorem Disk.Filed.fresh_of_open (h : d.Filed digest) {op : Operation}
    (hop : d.operation = .content op) (ho : op.outcome = none) :
    d.receipts (digest op.id) = .absent := by
  rcases h.receipts (digest op.id) with hf | ⟨a, hf, -, hao, -⟩
  · exact hf
  · rw [(h.agree op a hop hf).2] at hao
    exact absurd ho hao

theorem Disk.Filed.room_of_open (h : d.Filed digest) {op : Operation}
    (hop : d.operation = .content op) (ho : op.outcome = none) : d.Room digest op.id where
  fresh := h.fresh_of_open hop ho
  spare op' hop' := by
    rw [hop] at hop'
    cases hop'
    exact .inl ho

end Read

/-! ## writing them -/

section Write

variable {η γ : Type} {digest : String → String} {X : Operation → Prop} {w : World η γ}

/-- The world after `op` was archived. -/
def World.file (digest : String → String) (w : World η γ) (op : Operation) : World η γ :=
  { w with
    disk := { w.disk with
      receipts := fun name => if name = digest op.id then .content op else w.disk.receipts name }
    log := w.log ++ [.archived op] }

theorem HeldOnce.of_append {log : List Note} {entry : Note} {op : Operation}
    (h : HeldOnce (log ++ [entry]) op) :
    HeldOnce log op ∨ op.outcome ≠ none ∧ ((∃ disk, entry = .recorded op disk) ∨ entry = .archived op) := by
  obtain ⟨ho, hlog⟩ := h
  rcases hlog with ⟨disk, hm⟩ | hm
  · rcases List.mem_append.mp hm with hm | hm
    · exact .inl ⟨ho, .inl ⟨disk, hm⟩⟩
    · exact .inr ⟨ho, .inl ⟨disk, (List.mem_singleton.mp hm).symm⟩⟩
  · rcases List.mem_append.mp hm with hm | hm
    · exact .inl ⟨ho, .inr hm⟩
    · exact .inr ⟨ho, .inr (List.mem_singleton.mp hm).symm⟩

/-- **Replacing the record** where there is room loses nothing. -/
theorem Safekept.record (hinj : ∀ a b, digest a = digest b → a = b)
    (hX : ∀ op, X op → op.outcome ≠ none) (h : Safekept digest X w) {op : Operation}
    (hv : op.validate = .ok ()) (hroom : w.disk.Room digest op.id) :
    Safekept digest X (w.record op) := by
  have hread : (w.record op).disk.readOperation = .observed op := Disk.readOperation_observed_iff.mpr ⟨rfl, hv⟩
  have hkept : ∀ x, x.outcome ≠ none → w.disk.Retains digest x →
      (w.record op).disk.Retains digest x := by
    intro x hx hret
    obtain ⟨record, hwhere, hid, ht, ho⟩ := hret
    rcases hwhere with hcur | harch
    · -- the replaced record was terminal, so it is archived
      obtain ⟨hfile, -⟩ := Disk.readOperation_observed_iff.mp hcur
      have hterminal : record.outcome ≠ none := by rw [ho]; exact hx
      obtain ⟨a, ha⟩ := (hroom.spare record hfile).resolve_left hterminal
      obtain ⟨hat, hao⟩ := h.filed.agree record a hfile ha
      have harch := h.filed.readArchive_content hinj ha
      rw [hid] at harch
      exact ⟨a, .inr harch, (readArchive_observed harch).2.1, hat.trans ht, hao.trans ho⟩
    · exact ⟨record, .inr harch, hid, ht, ho⟩
  refine ⟨⟨.inr ⟨op, rfl, hv⟩, h.filed.receipts, ?_⟩, fun x hx => ?_, fun x hx => ?_⟩
  · intro op' a hop' ha
    cases hop'
    rw [show (w.record op).disk.receipts = w.disk.receipts from rfl, hroom.fresh] at ha
    cases ha
  · rcases hx with hx | hx
    · exact hkept x (hX x hx) (h.retained x (.inl hx))
    · rcases hx.of_append with hx | ⟨-, ⟨disk, he⟩ | he⟩
      · exact hkept x hx.1 (h.retained x (.inr hx))
      · cases he
        exact ⟨op, .inl hread, rfl, rfl, rfl⟩
      · cases he
  · rcases List.mem_append.mp hx with hx | hx
    · exact h.noConflict x hx
    · cases List.mem_singleton.mp hx

/-- **Archiving the current record** keeps everything and makes room for another id. -/
theorem Safekept.file (h : Safekept digest X w) {op : Operation}
    (hop : w.disk.operation = .content op) (hv : op.validate = .ok ())
    (ho : op.outcome ≠ none) (hfresh : w.disk.receipts (digest op.id) = .absent) :
    Safekept digest X (w.file digest op) := by
  have hfiled : (w.file digest op).disk.Filed digest := by
    refine ⟨.inr ⟨op, hop, hv⟩, fun name => ?_, fun op' a hop' ha => ?_⟩
    · by_cases hn : name = digest op.id
      · exact .inr ⟨op, if_pos hn, hv, ho, hn.symm⟩
      · have hsame : (w.file digest op).disk.receipts name = w.disk.receipts name := if_neg hn
        rw [hsame]
        exact h.filed.receipts name
    · have hcur : op' = op := by
        have hop' : w.disk.operation = .content op' := hop'
        rw [hop] at hop'
        cases hop'
        rfl
      subst hcur
      have hself : (w.file digest op').disk.receipts (digest op'.id) = .content op' := if_pos rfl
      rw [hself] at ha
      cases ha
      exact ⟨rfl, rfl⟩
  have hkept : ∀ x, w.disk.Retains digest x → (w.file digest op).disk.Retains digest x := by
    rintro x ⟨record, hwhere, hid, ht, ho'⟩
    rcases hwhere with hcur | harch
    · exact ⟨record, .inl hcur, hid, ht, ho'⟩
    · by_cases hn : digest x.id = digest op.id
      · have hread : readOperationFile (w.disk.receipts (digest x.id)) = .observed record :=
          (readArchive_observed harch).1
        rw [hn, hfresh] at hread
        cases hread
      · refine ⟨record, .inr ?_, hid, ht, ho'⟩
        have hsame : (w.file digest op).disk.receipts (digest x.id) =
            w.disk.receipts (digest x.id) := if_neg hn
        rw [← harch]
        simp only [Disk.readArchive, hsame]
  refine ⟨hfiled, fun x hx => ?_, fun x hx => ?_⟩
  · rcases hx with hx | hx
    · exact hkept x (h.retained x (.inl hx))
    · rcases hx.of_append with hx | ⟨-, ⟨disk, he⟩ | he⟩
      · exact hkept x (h.retained x (.inr hx))
      · cases he
      · cases he
        exact ⟨op, .inl (Disk.readOperation_observed_iff.mpr ⟨hop, hv⟩), rfl, rfl, rfl⟩
  · rcases List.mem_append.mp hx with hx | hx
    · exact h.noConflict x hx
    · cases List.mem_singleton.mp hx

end Write

/-! ## assertions about records -/

section About

variable {η γ : Type}

theorem HeldOnce.of_same {log log' : List Note}
    (h : log'.filter Note.isRecord = log.filter Note.isRecord) {op : Operation}
    (hop : HeldOnce log' op) : HeldOnce log op := by
  have hmem : ∀ entry : Note, entry.isRecord = true → entry ∈ log' → entry ∈ log := by
    intro entry he hm
    have hf : entry ∈ log'.filter Note.isRecord := List.mem_filter.mpr ⟨hm, he⟩
    rw [h] at hf
    exact (List.mem_filter.mp hf).1
  obtain ⟨ho, hlog⟩ := hop
  exact ⟨ho, hlog.imp (fun ⟨disk, hm⟩ => ⟨disk, hmem _ rfl hm⟩) (hmem _ rfl)⟩

/-- The invariant is about the records only. -/
theorem safekept_about (digest : String → String) (X : Operation → Prop) :
    AboutRecords (Safekept digest X : World η γ → Prop) := by
  rintro w w' ⟨⟨ho, hr⟩, hlog⟩ h
  have hfiled : w'.disk.Filed digest := by
    have := h.filed
    exact ⟨by rw [ho]; exact this.operation, by rw [hr]; exact this.receipts,
      by rw [ho, hr]; exact this.agree⟩
  refine ⟨hfiled, fun op hop => ?_, fun op hm => ?_⟩
  · obtain ⟨record, hwhere, hrest⟩ := h.retained op (hop.imp id (HeldOnce.of_same hlog))
    refine ⟨record, ?_, hrest⟩
    simp only [Disk.readOperation, Disk.readArchive, ho, hr]
    exact hwhere
  · have hf : Note.archiveConflict op ∈ w'.log.filter Note.isRecord :=
      List.mem_filter.mpr ⟨hm, rfl⟩
    rw [hlog] at hf
    exact h.noConflict op (List.mem_filter.mp hf).1

end About

/-! ## the steps of a drive -/

namespace Runner

variable {η γ : Type} {r : Runner η γ} {X : Operation → Prop}

/-- The invariant, while `operation` is open and no receipt of `id` exists. -/
def Keeping (r : Runner η γ) (X : Operation → Prop) (E : (String → File Operation) → Prop)
    (w : World η γ) : Prop :=
  Safekept r.store.digest X w ∧ E w.disk.receipts

/-- The invariant, while the record of the drive is open. -/
def Drives (r : Runner η γ) (X : Operation → Prop) (operation : Option Operation)
    (w : World η γ) : Prop :=
  Safekept r.store.digest X w ∧ ∀ op, operation = some op →
    w.disk.operation = .content op ∧ op.validate = .ok () ∧ op.outcome = none

theorem keeping_about (E : (String → File Operation) → Prop) : AboutRecords (r.Keeping X E) := by
  rintro w w' hsame ⟨h, he⟩
  refine ⟨safekept_about _ X w w' hsame h, ?_⟩
  rw [hsame.1.2]
  exact he

theorem drives_about (operation : Option Operation) : AboutRecords (r.Drives X operation) := by
  rintro w w' hsame ⟨h, hop⟩
  refine ⟨safekept_about _ X w w' hsame h, fun op ho => ?_⟩
  rw [hsame.1.1]
  exact hop op ho

section Steps

variable (hinj : ∀ a b, r.store.digest a = r.store.digest b → a = b)
  (hX : ∀ op, X op → op.outcome ≠ none)

include hinj hX

/-- Recording the open operation once more, whatever becomes of it. -/
theorem Drives.record {o : Operation} {w : World η γ} (h : r.Drives X (some o) w) (now : Nat)
    (phase : OperationPhase) (outcome : Option Outcome) (reason : Option String) :
    Safekept r.store.digest X (w.record (advance o now phase outcome reason)) := by
  obtain ⟨hop, hv, ho⟩ := h.2 o rfl
  have hroom : w.disk.Room r.store.digest o.id := h.1.filed.room_of_open hop ho
  exact h.1.record hinj hX hv hroom

/-- A phase is recorded. -/
theorem progress_triple (operation : Option Operation) (phase : OperationPhase)
    (reason : Option String) :
    Triple (r.Drives X operation) (r.transition operation phase none reason)
      (fun operation' => r.Drives X operation') (fun _ => Safekept r.store.digest X) := by
  refine (transition_triple (fun _ => True.intro) (drives_about operation).quiet.tick
    (fun op => (drives_about op).quiet.tick) (fun _ _ => .inr True.intro)
    (fun hnone w hw => by rw [hnone] at hw; exact hw) fun o ho w now hv hw => ?_).crash
    fun w hw => hw.1.elim (fun h => h.1) fun ⟨_, h⟩ => h.1
  subst ho
  refine ⟨hw.record hinj hX now phase none reason, fun op hop => ?_⟩
  cases hop
  exact ⟨rfl, hv, (hw.2 o rfl).2.2⟩

/-- An outcome is recorded. -/
theorem finish_triple (operation : Option Operation) (phase : OperationPhase)
    (outcome : Option Outcome) (reason : Option String) :
    Triple (r.Drives X operation) (r.transition operation phase outcome reason)
      (fun _ => Safekept r.store.digest X) (fun _ => Safekept r.store.digest X) := by
  refine (transition_triple (Q := fun _ => Safekept r.store.digest X) (fun _ => True.intro)
    (drives_about operation).quiet.tick (fun _ => (safekept_about _ X).quiet.tick)
    (fun _ _ => .inr True.intro) (fun _ _ hw => hw.1) fun o ho w now _ hw => ?_).crash
    fun w hw => hw.1.elim (fun h => h.1) fun ⟨_, h⟩ => h
  subst ho
  exact hw.record hinj hX now phase outcome reason

/-- `settle` writes the open record only, and no receipt. -/
theorem settle_keeping (E : (String → File Operation) → Prop) :
    Keeps (r.Keeping X E) r.settle := by
  unfold settle
  refine Triple.bind (readRequired_triple.conseq (fun _ h => h) (fun _ _ h => h) fun _ _ h => h.2)
    fun previous => ?_
  cases previous with
  | none => exact Triple.pure fun _ h => h.2
  | some op =>
      refine Triple.ite (fun _ => Triple.pure fun _ h => h.2) fun ho => ?_
      have ho : op.outcome = none := Decidable.not_not.mp ho
      let Open : World η γ → Prop := fun w => r.Keeping X E w ∧ r.Drives X (some op) w
      have hopen : AboutRecords Open := fun w w' hs h =>
        ⟨keeping_about E w w' hs h.1, drives_about _ w w' hs h.2⟩
      have hdone : ∀ (phase : OperationPhase) (outcome : Outcome) (reason : Option String),
          Triple Open (do
            let _ ← r.transition (some op) phase (some outcome) reason
            pure ()) (fun _ => r.Keeping X E) (fun _ => r.Keeping X E) := by
        intro phase outcome reason
        refine Triple.bind (R := fun _ => r.Keeping X E) ?_ fun _ => Triple.pure fun _ h => h
        refine (transition_triple (fun _ => True.intro) hopen.quiet.tick
          (fun _ => (keeping_about E).quiet.tick) (fun _ _ => .inr True.intro)
          (fun hnone => by cases hnone) fun o ho w now _ hw => ?_).crash
          fun w hw => hw.1.elim (fun h => h.1) fun ⟨_, h⟩ => h
        cases ho
        exact ⟨hw.2.record hinj hX now phase (some outcome) reason, hw.1.2⟩
      have hread : Triple Open transactionState (fun _ => Open) (fun _ => r.Keeping X E) :=
        Triple.crash FileStore.readDisk_keeps fun _ h => h.1
      refine Triple.pre (P := Open) (Triple.bind hread fun state => ?_) fun w hw => ?_
      · refine Triple.ite (fun _ => hdone _ _ _) fun _ => ?_
        exact Triple.ite (fun _ => hdone _ _ _) fun _ => Triple.pure fun _ h => h.1
      · refine ⟨hw.2, hw.2.1, fun op' hop' => ?_⟩
        cases hop'
        obtain ⟨hfile, hv⟩ := Disk.readOperation_observed_iff.mp hw.1
        exact ⟨hfile, hv, ho⟩

/-- The record of an earlier operation, about to be archived for one of `id`. -/
def Retiring (r : Runner η γ) (X : Operation → Prop) (id : String) (previous : Operation)
    (w : World η γ) : Prop :=
  r.Keeping X (fun receipts => receipts (r.store.digest id) = .absent) w ∧
    w.disk.operation = .content previous ∧ previous.validate = .ok ()

/-- There is room for the record of `id`. -/
def Roomy (r : Runner η γ) (X : Operation → Prop) (id : String) (w : World η γ) : Prop :=
  Safekept r.store.digest X w ∧ w.disk.Room r.store.digest id

omit hinj hX in
theorem retiring_about (id : String) (previous : Operation) :
    AboutRecords (r.Retiring X id previous) := by
  rintro w w' hsame ⟨h, hop⟩
  exact ⟨keeping_about _ w w' hsame h, by rw [hsame.1.1]; exact hop⟩

omit hinj hX in
theorem roomy_about (id : String) : AboutRecords (r.Roomy X id) := by
  rintro w w' hsame ⟨h, hroom⟩
  refine ⟨safekept_about _ X w w' hsame h, ?_, ?_⟩
  · rw [hsame.1.2]
    exact hroom.fresh
  · rw [hsame.1.1, hsame.1.2]
    exact hroom.spare

omit hinj hX in
theorem writeReceipt_triple {P Q : World η γ → Prop} {op : Operation} (hP : OffTick P)
    (hQ : OffTick Q) (h : ∀ w, P w → Q (w.file r.store.digest op)) :
    Triple P (r.store.writeReceipt op) (fun _ => Q) (fun _ w => P w ∨ Q w) := by
  have hbefore : Triple P (r.store.boundary "before:receipt") (fun _ => P)
      (fun _ w => P w ∨ Q w) :=
    (FileStore.boundary_triple (fun _ => True.intro) hP _).crash fun _ hw => .inl hw.1
  have hafter : Triple Q (r.store.boundary "after:receipt") (fun _ => Q)
      (fun _ w => P w ∨ Q w) :=
    (FileStore.boundary_triple (fun _ => True.intro) hQ _).crash fun _ hw => .inr hw.1
  exact Triple.bind hbefore fun _ => Triple.bind (Triple.modify fun w hw => h w hw) fun _ => hafter

omit hX in
/-- **Archiving never conflicts**, and makes room. -/
theorem archive_triple {id : String} {previous : Operation} (hid : previous.id ≠ id)
    (ho : previous.outcome ≠ none) :
    Triple (r.Retiring X id previous) (r.store.archive previous) (fun _ => r.Roomy X id)
      (fun _ => Safekept r.store.digest X) := by
  have hdigest : r.store.digest id ≠ r.store.digest previous.id := fun h => hid (hinj _ _ h).symm
  unfold FileStore.archive
  refine Triple.bind (R := fun _ => r.Retiring X id previous)
    (Triple.ofExcept (fun _ _ _ h => h) fun _ _ _ h => h.1.1) fun _ => ?_
  rw [if_neg ho]
  refine Triple.get_bind fun w hw => ?_
  have hstart : ∀ w', w' = w → r.Retiring X id previous w' := fun w' h => by rw [h]; exact hw
  obtain ⟨⟨hkept, hfresh⟩, hop, hv⟩ := hw
  rcases hkept.filed.receipts (r.store.digest previous.id) with hfile | ⟨a, hfile, -, -, -⟩
  · have hread : w.disk.readArchive r.store.digest previous.id = .genesis := by
      simp only [Disk.readArchive, readOperationFile, hfile]
    rw [hread]
    let Unfiled : World η γ → Prop := fun w => r.Retiring X id previous w ∧
      w.disk.receipts (r.store.digest previous.id) = .absent
    have hunfiled : OffTick Unfiled := fun w n h =>
      ⟨(retiring_about id previous).quiet.tick w n h.1, h.2⟩
    have hwrite : Triple Unfiled (r.store.writeReceipt previous) (fun _ => r.Roomy X id)
        (fun _ w => Unfiled w ∨ r.Roomy X id w) := by
      refine writeReceipt_triple hunfiled (roomy_about id).quiet.tick fun w ⟨⟨h, hop, hv⟩, hf⟩ => ?_
      refine ⟨h.1.file hop hv ho hf, ?_, fun op hop' => ?_⟩
      · have hsame : (w.file r.store.digest previous).disk.receipts (r.store.digest id) =
            w.disk.receipts (r.store.digest id) := if_neg hdigest
        rw [hsame]
        exact h.2
      · have hop' : w.disk.operation = .content op := hop'
        rw [hop] at hop'
        cases hop'
        exact .inr ⟨previous, if_pos rfl⟩
    refine hwrite.conseq (fun w' h => ?_) (fun _ _ h => h) fun _ _ h => h.elim (fun h => h.1.1.1)
      fun h => h.1
    refine ⟨hstart w' h, ?_⟩
    rw [h]
    exact hfile
  · obtain ⟨ht, hao⟩ := hkept.filed.agree previous a hop hfile
    rw [hkept.filed.readArchive_content hinj hfile]
    have hsame : ¬(a.targetVersion ≠ previous.targetVersion ∨ a.outcome ≠ previous.outcome) := by
      simp [ht, hao]
    dsimp only
    rw [if_neg hsame]
    refine Triple.pure fun w' h => ?_
    rw [h]
    refine ⟨hkept, hfresh, fun op hop' => ?_⟩
    rw [hop] at hop'
    cases hop'
    exact .inr ⟨a, hfile⟩

omit hX in
/-- Retiring the previous record makes room for the new one, or ends the call. -/
theorem retirePrevious_triple (desc : OperationDescriptor) (previous : Operation) :
    Triple (r.Retiring X desc.id previous) (r.retirePrevious desc previous)
      (fun _ => r.Roomy X desc.id) (fun _ => Safekept r.store.digest X) := by
  unfold retirePrevious
  refine Triple.ite (fun _ => Triple.throw fun _ h => h.1.1) fun hsame => ?_
  refine Triple.ite (fun hid => ?_) fun hid => ?_
  · refine Triple.ite (fun _ => Triple.throw fun _ h => h.1.1) fun ho => ?_
    exact archive_triple hinj hid ho
  · have hid : previous.id = desc.id := Decidable.not_not.mp hid
    have ho : previous.outcome = none := Decidable.not_not.mp fun ho => hsame ⟨hid, ho⟩
    refine Triple.pure fun w ⟨h, hop, hv⟩ => ⟨h.1, h.2, fun op hop' => ?_⟩
    rw [hop] at hop'
    cases hop'
    exact .inl ho

/-- The receipts a drive with these options may start from. -/
def FreshFor (r : Runner η γ) (options : UpgradeOptions) (receipts : String → File Operation) :
    Prop :=
  ∀ desc, options.operation = some desc → receipts (r.store.digest desc.id) = .absent

theorem openOperation_triple (target : Option String) (options : UpgradeOptions) :
    Triple (r.Keeping X (r.FreshFor options)) (r.openOperation target options)
      (fun opened => r.Drives X opened.1) (fun _ => Safekept r.store.digest X) := by
  unfold openOperation
  refine Triple.bind (readRequired_triple.conseq (fun _ h => h) (fun _ _ h => h) fun _ _ h => h.2.1)
    fun previous => ?_
  have hstate : ∀ {P : World η γ → Prop}, (∀ w, P w → Safekept r.store.digest X w) →
      Triple P transactionState (fun _ => P) (fun _ => Safekept r.store.digest X) := fun hP =>
    Triple.crash FileStore.readDisk_keeps hP
  cases hdesc : options.operation with
  | none =>
      refine Triple.pre (P := Safekept r.store.digest X) ?_ fun w h => h.2.1
      refine Triple.bind (hstate fun _ h => h) fun state => Triple.pure fun w h => ⟨h, ?_⟩
      intro op hop
      cases hop
  | some desc =>
      -- the new record, once there is room for it
      have hnew : Triple (r.Roomy X desc.id) (do
          let state ← transactionState
          let w ← Prog.get
          let op := newOperation desc options target state.stable (r.clock w.tick)
          r.store.persistOperation op
          pure (some op, state.stable)) (fun opened => r.Drives X opened.1)
          (fun _ => Safekept r.store.digest X) := by
        refine Triple.bind (hstate fun _ h => h.1) fun state => Triple.get_bind fun w hw => ?_
        have hpersist : Triple (r.Roomy X desc.id) (r.store.persistOperation
            (newOperation desc options target state.stable (r.clock w.tick)))
            (fun _ => r.Drives X
              (some (newOperation desc options target state.stable (r.clock w.tick))))
            (fun _ => Safekept r.store.digest X) := by
          refine (FileStore.persistOperation_triple (fun _ => True.intro)
            (roomy_about desc.id).quiet.tick (drives_about _).quiet.tick (.inr True.intro)
            fun w' hv hw' => ⟨hw'.1.record hinj hX hv hw'.2, ?_⟩).crash
            fun w' h => h.1.elim (fun h => h.1) fun h => h.1
          intro op hop
          cases hop
          exact ⟨rfl, hv, rfl⟩
        have hopened : Triple (r.Roomy X desc.id) (do
            r.store.persistOperation
              (newOperation desc options target state.stable (r.clock w.tick))
            pure (some (newOperation desc options target state.stable (r.clock w.tick)),
              state.stable)) (fun opened => r.Drives X opened.1)
            (fun _ => Safekept r.store.digest X) :=
          Triple.bind hpersist fun _ => Triple.pure fun _ h => h
        exact hopened.pre fun w' h => by rw [h]; exact hw
      cases previous with
      | none =>
          refine hnew.pre fun w h => ⟨h.2.1, h.2.2 desc hdesc, fun op hop => ?_⟩
          rw [h.2.1.filed.readOperation_genesis h.1] at hop
          cases hop
      | some previous =>
          refine Triple.bind ((retirePrevious_triple hinj desc previous).pre fun w h => ?_)
            fun _ => hnew
          exact ⟨⟨h.2.1, h.2.2 desc hdesc⟩, Disk.readOperation_observed_iff.mp h.1⟩

/-! ## calls -/

/-- The outline of a drive: the records are the runner's own. -/
theorem receiptsOutline {c : Convergence (World η γ)} (hc : ReadsProduct c)
    (target : Option String) (options : UpgradeOptions) :
    DriveOutline r c target options (fun _ => True) (r.Keeping X (r.FreshFor options))
      (fun op _ => r.Drives X op) (fun op _ => r.Drives X op) (fun op _ => r.Drives X op)
      (fun _ => Safekept r.store.digest X) (fun _ => Safekept r.store.digest X) where
  outside := .any
  quietActive op _ := (drives_about op).quiet
  quietEnded op _ := (drives_about op).quiet
  quiet _ := (safekept_about _ X).quiet
  active _ _ _ _ _ h := h.1
  ended _ _ _ _ _ h := h.1
  broken _ _ h := h.1
  closed _ _ _ _ h := h
  start := by
    refine ⟨OnWorld (r.Keeping X (r.FreshFor options)), OnWorld (r.Keeping X (r.FreshFor options)),
      ?_, ?_, ?_⟩
    · exact Triple.crash (recoverEngine_keeps (keeping_about _) hc) fun _ h => h.1
    · exact Triple.crash (Keeps.lift (settle_keeping hinj hX _)) fun _ h => h.1
    · exact Triple.zoom fun s hs => openOperation_triple hinj hX target options s.world hs
  progress op _ phase reason := progress_triple hinj hX op phase reason
  finish op _ outcome reason _ := finish_triple hinj hX op outcome.phase (some outcome) reason
  upgrade op release _ :=
    ((drives_about op).frame hc).upgrade release.version incomingPath
  abandon op _ reason := finish_triple hinj hX op .recovering none reason
  conclude op outcome reason :=
    finish_triple hinj hX op (recordedAs outcome).phase (some (recordedAs outcome)) reason

omit hinj hX in
/-- Nothing is archived under the id of a request that was let through. -/
theorem fresh_of_letThrough {w : World η γ} (h : Safekept r.store.digest X w)
    {target : Option String} {options : UpgradeOptions}
    (hthrough : r.LetThrough (options.operation.map fun desc => ⟨desc.id, target.getD ""⟩)
      false w) : r.FreshFor options w.disk.receipts := by
  intro desc hdesc
  rw [hdesc] at hthrough
  exact h.filed.receipts_of_genesis (priorAnswer_ok (hthrough _ rfl)).1

/-- **Every call keeps every receipt.** -/
theorem receipts_call (call : Call) :
    CallOutline r call (Safekept r.store.digest X) (Safekept r.store.digest X) := by
  have hany : ∀ w, Safekept r.store.digest X w → r.Keeping X (fun _ => True) w :=
    fun _ h => ⟨h, True.intro⟩
  refine ⟨(safekept_about _ X).quiet, (safekept_about _ X).offLock, (safekept_about _ X).offLock,
    fun _ h => h, fun _ => ?_, fun target options _ => ?_, fun reason _ => ?_⟩
  · refine recoverLocked_letThrough call.expected (fun _ h => h) (fun w h _ => hany w h)
      (keeping_about _).quiet.observed (fun _ h => h.1) fun c hc => ?_
    have hrecover := recoverEngine_keeps (r := r) (keeping_about (r := r) (X := X) fun _ => True) hc
    have hsettle : Keeps (OnWorld (r.Keeping X fun _ => True)) (lift r.settle) :=
      Keeps.lift (settle_keeping hinj hX _)
    exact (Triple.bind hrecover fun _ => hsettle).conseq (fun _ h => h) (fun _ _ h => h.1)
      fun _ _ h => h.1
  · exact driveLocked_letThrough target options (fun _ h => h.1)
      (fun w h hthrough => ⟨h.1, fresh_of_letThrough h.1 hthrough⟩)
      (keeping_about _).quiet.observed (fun _ h => h.1)
      fun c hc => (receiptsOutline hinj hX hc target options).driveEngine_triple
  · have habout : AboutRecords (Safekept r.store.digest X : World η γ → Prop) :=
      safekept_about _ X
    refine rollbackLocked_triple (R := Safekept r.store.digest X) reason habout.quiet.observed
      (fun _ h => h) (fun c hc => (habout.frame hc).recover) ?_ habout.quiet
    exact Keeps.of_moves SameRecords.refl habout fun w =>
      FileStore.removeDir_keeps (fun _ _ _ h => h) (fun _ _ _ h => h) .experiment

end Steps

end Runner

/-! ## runs -/

section Runs

variable {η γ : Type}

/-- Before anything happened there is nothing to lose but what the directory has. -/
theorem Disk.Filed.safekept {digest : String → String} {w : World η γ}
    (h : w.disk.Filed digest) (hlog : w.log = []) : Safekept digest (fun _ => False) w := by
  refine ⟨h, fun op hop => ?_, fun op hm => ?_⟩
  · rcases hop with hop | ⟨-, hheld⟩
    · exact hop.elim
    · rw [hlog] at hheld
      rcases hheld with ⟨disk, hm⟩ | hm
      · cases hm
      · cases hm
  · rw [hlog] at hm
    cases hm

/-- A visit keeps every receipt. -/
theorem Visit.safekept {digest : String → String} (hinj : ∀ a b, digest a = digest b → a = b)
    {X : Operation → Prop} (hX : ∀ op, X op → op.outcome ≠ none) (v : Visit η γ)
    (w : World η γ) (h : Safekept digest X w) (hv : v.runner.store.digest = digest) :
    Safekept digest X (v.run w) := by
  subst hv
  have hfinds : Safekept v.runner.store.digest X (v.finds w) :=
    safekept_about _ X w _ ⟨⟨rfl, rfl⟩, rfl⟩ h
  exact Visit.run_of_triple (Runner.receipts_call hinj hX v.call).call_triple hfinds

theorem runVisits_safekept {digest : String → String}
    (hinj : ∀ a b, digest a = digest b → a = b) {X : Operation → Prop}
    (hX : ∀ op, X op → op.outcome ≠ none) {visits : List (Visit η γ)} {w : World η γ}
    (h : Safekept digest X w) (hvisits : ∀ v ∈ visits, v.runner.store.digest = digest) :
    Safekept digest X (runVisits visits w) :=
  run_invariant (fun v w h hv => v.safekept hinj hX w h hv) visits w h
    (eachVisit_of_forall (fun v hv _ => hvisits v hv) w)

/-- **Receipts are write-once and never lost.**  In any run of calls on a directory whose
records are where their ids say (an empty one, for a start), each cut off anywhere: every
terminal record that was current or archived at some time can be read at the end, with its
target and outcome, and so can the one any earlier state of the run shows; and no two
receipts of one id ever conflicted. -/
theorem receipts_never_lost (digest : String → String)
    (hinj : ∀ a b, digest a = digest b → a = b) (w : World η γ) (hw : w.disk.Filed digest)
    (hlog : w.log = []) (before after : List (Visit η γ))
    (hvisits : ∀ v ∈ before ++ after, v.runner.store.digest = digest) :
    (∀ op, HeldOnce (runVisits (before ++ after) w).log op →
      (runVisits (before ++ after) w).disk.Retains digest op) ∧
      (∀ op, op.outcome ≠ none → ((runVisits before w).disk.readOperation = .observed op ∨
          ∃ id, (runVisits before w).disk.readArchive digest id = .observed op) →
        (runVisits (before ++ after) w).disk.Retains digest op) ∧
      ∀ op, .archiveConflict op ∉ (runVisits (before ++ after) w).log := by
  have hnone : ∀ op : Operation, False → op.outcome ≠ none := fun _ h => h.elim
  have hall := runVisits_safekept hinj hnone (hw.safekept hlog) hvisits
  refine ⟨fun op hop => hall.retained op (.inr hop), fun op ho hread => ?_, hall.noConflict⟩
  have hbefore := runVisits_safekept hinj hnone (hw.safekept hlog)
    fun v hv => hvisits v (List.mem_append_left _ hv)
  have hnow : (runVisits before w).disk.Retains digest op := by
    rcases hread with hcur | ⟨id, harch⟩
    · exact ⟨op, .inl hcur, rfl, rfl, rfl⟩
    · have hid := (readArchive_observed harch).2.1
      subst hid
      exact ⟨op, .inr harch, rfl, rfl, rfl⟩
  have hwith : Safekept digest (fun x => x = op) (runVisits before w) :=
    ⟨hbefore.filed, fun x hx => hx.elim (fun h => by rw [h]; exact hnow)
      fun h => hbefore.retained x (.inr h), hbefore.noConflict⟩
  have hafter := runVisits_safekept hinj (fun x hx => by rw [hx]; exact ho) hwith
    fun v hv => hvisits v (List.mem_append_right _ hv)
  rw [runVisits_append]
  exact hafter.retained op (.inl rfl)

/-- A worker dies in an upgrade, the next one rolls it back, and a third one carries out
another: the record of the first is still held. -/
theorem receipts_never_lost_twice : ∃ op, op.id = "a" ∧ op.outcome = some .rolledBack ∧
    (runVisits
      ([⟨Service.runner 7 (Service.diesAt 45), .free, (), .execute (.upgrade 1 "a" "2" true)⟩,
          ⟨Service.runner 8 Faults.clean, .free, (), .recover none⟩] ++
        [⟨Service.runner 9 Faults.clean, .free, (), .execute (.upgrade 1 "b" "3" true)⟩])
      (Service.installed "1")).disk.Retains (fun id => id) op := by
  obtain ⟨-, hread, -⟩ := receipts_never_lost (fun id => id) (fun _ _ h => h)
    (Service.installed "1") ⟨.inl rfl, fun _ => .inl rfl, fun _ _ h => by cases h⟩ rfl
    [⟨Service.runner 7 (Service.diesAt 45), .free, (), .execute (.upgrade 1 "a" "2" true)⟩,
      ⟨Service.runner 8 Faults.clean, .free, (), .recover none⟩]
    [⟨Service.runner 9 Faults.clean, .free, (), .execute (.upgrade 1 "b" "3" true)⟩]
    (by simp [Service.runner, Runner.new])
  have hrun : (runVisits [⟨Service.runner 7 (Service.diesAt 45), .free, (),
        .execute (.upgrade 1 "a" "2" true)⟩, ⟨Service.runner 8 Faults.clean, .free, (),
        .recover none⟩] (Service.installed "1")).disk.readOperation.shows
      (fun op => decide (op.id = "a" ∧ op.outcome = some .rolledBack)) = true := by decide +kernel
  obtain ⟨op, hop, hshown⟩ := OperationRead.shows_iff.mp hrun
  obtain ⟨hid, ho⟩ := of_decide_eq_true hshown
  exact ⟨op, hid, ho, hread op (by rw [ho]; exact Option.some_ne_none _) (.inl hop)⟩

end Runs

end KCarrier
