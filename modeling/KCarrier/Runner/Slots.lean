import KCarrier.Runner.Course
import KCarrier.Runner.Service

/-!
# KCarrier.Runner.Slots

Staging and promoting a candidate, with its bytes.

A promotion is two renames between two removals, so the slots stand in one of three ways
(`Staged`, `Parked`, `Swapped`) wherever it is cut off, and each attempt starts from the one
its predecessor was cut off in.  An attempt is a store with its own faults; what a sequence of
attempts leaves is what is found at any moment of it, since the last one may be cut off
anywhere.

* `stage_complete`: staging puts a complete candidate on trial;
* `promote_copies`: what stands while a promotion runs, and what it leaves;
* `slots_atomic`: staging until it completes, then promoting, again and again.
-/

namespace KCarrier

open Crash

/-! ## complete copies -/

/-- The node is a complete slot of the version `v` with the bytes `b`. -/
def Node.Holds (node : Node) (v : String) (b : Bytes) : Prop :=
  ∃ text, node = .dir ⟨.content text, .content b⟩ ∧ trim text = v ∧ v ≠ ""

theorem Node.Holds.ne_absent {node : Node} {v : String} {b : Bytes} (h : node.Holds v b) :
    node ≠ .absent := by
  obtain ⟨text, rfl, -⟩ := h
  simp

theorem Node.Holds.ne_other {node : Node} {v : String} {b : Bytes} (h : node.Holds v b) :
    node ≠ .other := by
  obtain ⟨text, rfl, -⟩ := h
  simp

/-- A complete copy shows its version. -/
theorem Node.Holds.version {d : Disk} {place : Place} {v : String} {b : Bytes}
    (h : (d.slots place).Holds v b) : d.version place = .ok (some v) := by
  obtain ⟨text, hnode, rfl, hne⟩ := h
  unfold Disk.version
  simp [hnode, File.read, hne]

namespace FileStore

variable {η γ : Type} {s : FileStore} {I : World η γ → Prop}

/-! ## staging -/

/-- Filling the staging directory: it is complete once its version was written. -/
theorem populate_complete (hI : Aside I) {D : Disk → Prop} {v : String} {path : Path}
    (hD : ∀ d node, D d → D (d.setSlot .experimentStaging node)) :
    Triple (Over D I) (s.populate .experimentStaging v path)
      (fun _ => Over (fun d => D d ∧ trim v ≠ "" ∧ ∃ b, d.file path = .content b ∧
        d.slots .experimentStaging = .dir ⟨.content v, .content b⟩) I)
      (fun _ => Over D I) := by
  have hset : ∀ {E : Disk → Prop} {label : String} {node : Node},
      (∀ d node, E d → E (d.setSlot .experimentStaging node)) →
      Keeps (Over E I) (s.write label fun disk => disk.setSlot .experimentStaging node) :=
    fun hE => write_clean_keeps hI fun d hd => hE d _ hd
  unfold populate
  refine Triple.ite (fun _ => Triple.throw fun _ h => h) fun hne => ?_
  refine Triple.bind (removeDir_elsewhere hI hD) fun _ => Triple.bind (hset hD) fun _ => ?_
  refine Triple.get_bind fun w hw => ?_
  let Sourced : Bytes → Disk → Prop := fun b d => D d ∧ d.file path = .content b
  have hsource : Triple (· = w) (Prog.ofExcept (w.disk.file path).read)
      (fun b => Over (Sourced b) I) (fun _ => Over D I) := by
    refine Triple.ofExcept (fun b w' hb h => ?_) fun _ w' _ h => by rw [h]; exact hw
    subst h
    refine ⟨⟨hw.1, ?_⟩, hw.2⟩
    cases hfile : w'.disk.file path with
    | absent => simp [hfile, File.read] at hb
    | unreadable message => simp [hfile, File.read] at hb
    | content b' =>
        simp only [hfile, File.read, Except.ok.injEq] at hb
        rw [hb]
  refine Triple.bind hsource fun b => ?_
  have hSourced : ∀ d node, Sourced b d → Sourced b (d.setSlot .experimentStaging node) :=
    fun d node h => ⟨hD d node h.1, h.2⟩
  have hlast : Triple (Over (Sourced b) I) (s.write "VERSION" fun disk =>
      disk.setSlot .experimentStaging (.dir ⟨.content v, .content b⟩))
      (fun _ => Over (fun d => D d ∧ trim v ≠ "" ∧ ∃ b, d.file path = .content b ∧
        d.slots .experimentStaging = .dir ⟨.content v, .content b⟩) I)
      (fun _ => Over D I) := by
    refine Triple.crash (write_triple (fun _ => trivial : _ → True) hI fun d hd => ?_)
      fun w h => ⟨h.1.1.elim And.left And.left, h.1.2⟩
    exact ⟨hD d _ hd.1, hne, b, hd.2, Disk.setSlot_self _ _ _⟩
  have hkept : ∀ w : World η γ, Over (Sourced b) I w → Over D I w := fun w h => ⟨h.1.1, h.2⟩
  refine Triple.bind ((hset hSourced).crash hkept) fun _ => ?_
  exact Triple.bind ((hset hSourced).crash hkept) fun _ => hlast

/-- Staging, up to the rename that puts the candidate on trial. -/
def toRename (s : FileStore) (v : String) (path : Path) : Prog Error (World η γ) Unit := do
  s.populate .experimentStaging v path
  s.removeDir .experiment
  s.boundary "before:rename"

/-- The rename itself. -/
def putOnTrial (s : FileStore) : Prog Error (World η γ) Unit := do
  Prog.modify fun w =>
    let disk := w.disk.setSlot .experiment (w.disk.slots .experimentStaging)
    { w with disk := disk.setSlot .experimentStaging .absent }
  s.boundary "after:rename"

theorem stage_eq (v : String) (path : Path) : (s.stage v path : Prog Error (World η γ) Unit) =
    s.toRename v path >>= fun _ => s.putOnTrial := by
  unfold stage toRename renameDurable write
  simp only [Prog.bind_assoc]
  rfl

/-- The candidate is complete beside the slots before it is renamed. -/
theorem toRename_complete (hI : Aside I) {D : Disk → Prop} {v : String} {path : Path}
    (hD : ∀ d place node, place = .experimentStaging ∨ place = .experiment → D d →
      D (d.setSlot place node)) :
    Triple (Over D I) (s.toRename v path)
      (fun _ => Over (fun d => D d ∧ trim v ≠ "" ∧ ∃ b, d.file path = .content b ∧
        d.slots .experimentStaging = .dir ⟨.content v, .content b⟩) I)
      (fun _ => Over D I) := by
  have hkept : ∀ w : World η γ, Over (fun d => D d ∧ trim v ≠ "" ∧ ∃ b, d.file path = .content b ∧
      d.slots .experimentStaging = .dir ⟨.content v, .content b⟩) I w → Over D I w :=
    fun w h => ⟨h.1.1, h.2⟩
  unfold toRename
  refine Triple.bind (populate_complete hI fun d node => hD d _ node (.inl rfl)) fun _ => ?_
  refine Triple.bind (Triple.crash (removeDir_elsewhere hI fun d node h => ?_) hkept) fun _ => ?_
  · obtain ⟨hd, hne, b, hfile, hslot⟩ := h
    refine ⟨hD d _ node (.inr rfl) hd, hne, b, hfile, ?_⟩
    rw [Disk.setSlot_of_ne d node (by simp)]
    exact hslot
  · exact (boundary_triple (fun _ => trivial : _ → True) (hI.over _) _).crash fun w h => hkept w h.1

/-- **Staging** puts a complete candidate on trial; cut off, it keeps what is not about it. -/
theorem stage_complete (hI : Aside I) {D : Disk → Prop} {v : String} {path : Path}
    (hD : ∀ d place node, place = .experimentStaging ∨ place = .experiment → D d →
      D (d.setSlot place node)) :
    Triple (Over D I) (s.stage v path)
      (fun _ => Over (fun d => D d ∧ trim v ≠ "" ∧ ∃ b, d.file path = .content b ∧
        d.slots .experiment = .dir ⟨.content v, .content b⟩) I)
      (fun _ => Over D I) := by
  rw [stage_eq]
  refine Triple.bind (toRename_complete hI hD) fun _ => ?_
  refine Triple.bind (R := fun _ => Over (fun d => D d ∧ trim v ≠ "" ∧ ∃ b,
    d.file path = .content b ∧ d.slots .experiment = .dir ⟨.content v, .content b⟩) I)
    (Triple.modify fun w ⟨⟨hd, hne, b, hfile, hslot⟩, hi⟩ => ⟨⟨?_, hne, b, hfile, ?_⟩, ?_⟩) fun _ => ?_
  · exact hD _ _ _ (.inl rfl) (hD _ _ _ (.inr rfl) hd)
  · rw [Disk.setSlot_of_ne _ _ (by simp), Disk.setSlot_self]
    exact hslot
  · exact hI w _ w.tick hi
  · exact (boundary_triple (fun _ => trivial : _ → True) (hI.over _) _).crash
      fun w h => ⟨h.1.1.1, h.1.2⟩

/-- The stable slot and its backup are `stable` and `old`, and the source has the bytes `b`. -/
def Apart (stable old : Node) (path : Path) (b : Bytes) (d : Disk) : Prop :=
  d.slots .stable = stable ∧ d.slots .stableOld = old ∧ d.file path = .content b

section

variable {stable old : Node} {path : Path} {v : String} {b : Bytes}

theorem Apart.setSlot {d : Disk} (h : Apart stable old path b d) {place : Place} (node : Node)
    (hplace : place = .experimentStaging ∨ place = .experiment) :
    Apart stable old path b (d.setSlot place node) := by
  refine ⟨?_, ?_, h.2.2⟩
  · rw [Disk.setSlot_of_ne d node (by rcases hplace with rfl | rfl <;> simp)]
    exact h.1
  · rw [Disk.setSlot_of_ne d node (by rcases hplace with rfl | rfl <;> simp)]
    exact h.2.1

/-- Staging touches neither the stable slot nor its backup. -/
theorem stage_apart (hI : Aside I) :
    Triple (Over (Apart stable old path b) I) (s.stage v path)
      (fun _ => Over (fun d => Apart stable old path b d ∧
        d.slots .experiment = .dir ⟨.content v, .content b⟩) I)
      (fun _ => Over (Apart stable old path b) I) := by
  refine (stage_complete hI fun d place node hplace h => h.setSlot node hplace).post fun _ w h => ?_
  obtain ⟨⟨hapart, -, b', hfile, hslot⟩, hi⟩ := h
  rw [hapart.2.2, File.content.injEq] at hfile
  rw [← hfile] at hslot
  exact ⟨⟨hapart, hslot⟩, hi⟩

end

/-! ## promoting -/

section

variable {stable : Node} {v : String} {b : Bytes}

/-- The candidate waits beside the stable slot. -/
def Staged (stable : Node) (v : String) (b : Bytes) (d : Disk) : Prop :=
  d.slots .stable = stable ∧ (d.slots .experiment).Holds v b ∧ d.slots .stableOld ≠ .other

/-- What was stable is the backup, and the candidate still waits. -/
def Parked (stable : Node) (v : String) (b : Bytes) (d : Disk) : Prop :=
  d.slots .stable = .absent ∧ (d.slots .experiment).Holds v b ∧ d.slots .stableOld = stable

/-- The candidate is stable. -/
def Swapped (v : String) (b : Bytes) (d : Disk) : Prop :=
  (d.slots .stable).Holds v b ∧ d.slots .experiment = .absent ∧ d.slots .stableOld ≠ .other

/-- And the backup is gone. -/
def Promoted (v : String) (b : Bytes) (d : Disk) : Prop :=
  (d.slots .stable).Holds v b ∧ d.slots .experiment = .absent ∧ d.slots .stableOld = .absent

/-- Somewhere in a promotion. -/
def Promoting (stable : Node) (v : String) (b : Bytes) (d : Disk) : Prop :=
  Staged stable v b d ∨ Parked stable v b d ∨ Swapped v b d

theorem Promoted.swapped {d : Disk} (h : Promoted v b d) : Swapped v b d :=
  ⟨h.1, h.2.1, by rw [h.2.2]; simp⟩

theorem readDisk_run {α : Type} {read : Disk → Except Error α} {a : α} {w : World η γ}
    (h : read w.disk = .ok a) : readDisk read w = (.ok a, w) := by
  unfold readDisk
  rw [Prog.bind_run_ok (Prog.get_run w), h]
  rfl

/-- Something goes wrong somewhere. -/
def Faulty (s : FileStore) : Prop := ∃ n label, s.faults.fault n label ≠ none

theorem boundary_faulty {P : World η γ → Prop} (hP : OffTick P) (label : String) :
    Triple P (s.boundary label) (fun _ => P) (fun _ w => P w ∧ s.Faulty) := by
  intro w hw
  have hw' : P { w with tick := w.tick + 1 } := hP w _ hw
  unfold boundary
  cases hf : s.faults.fault w.tick label with
  | none => exact hw'
  | some fault =>
      have hfaulty : s.Faulty := ⟨w.tick, label, by simp [hf]⟩
      cases fault with
      | fail e => exact ⟨hw', hfaulty⟩
      | crash => exact ⟨hw', hfaulty⟩

/-- One durable step towards `D'`, within the states `G`. -/
theorem write_faulty (hI : Aside I) (label : String) {D D' G : Disk → Prop} {f : Disk → Disk}
    (hf : ∀ d, D d → D' (f d)) (hD : ∀ d, D d → G d) (hD' : ∀ d, D' d → G d) :
    Triple (Over D I) (s.write label f) (fun _ => Over D' I)
      (fun _ w => Over G I w ∧ s.Faulty) := by
  have hbefore := (boundary_faulty (s := s) (hI.over D) s!"before:{label}").crash
    fun w h => (⟨⟨hD _ h.1.1, h.1.2⟩, h.2⟩ : Over G I w ∧ s.Faulty)
  have hafter := (boundary_faulty (s := s) (hI.over D') s!"after:{label}").crash
    fun w h => (⟨⟨hD' _ h.1.1, h.1.2⟩, h.2⟩ : Over G I w ∧ s.Faulty)
  unfold write
  refine Triple.bind hbefore fun _ => Triple.bind ?_ fun _ => hafter
  exact Triple.modify fun w hw => ⟨hf _ hw.1, hI w _ w.tick hw.2⟩

/-- The backup is removed, beside whatever else stands. -/
theorem removeBackup_copies (hI : Aside I) {D D' G : Disk → Prop}
    (hother : ∀ d, D d → d.slots .stableOld ≠ .other)
    (hset : ∀ d node, node ≠ .other → D d → D (d.setSlot .stableOld node))
    (hgone : ∀ d, D d → d.slots .stableOld = .absent → D' d) (hD : ∀ d, D d → G d)
    (hD' : ∀ d, D' d → G d) :
    Triple (Over D I) (s.removeDir .stableOld) (fun _ => Over D' I)
      (fun _ w => Over G I w ∧ s.Faulty) := by
  unfold removeDir
  refine Triple.get_bind fun w hw => ?_
  have hstart : ∀ w', w' = w → Over D I w' := fun w' h => by rw [h]; exact hw
  cases hslot : w.disk.slots .stableOld with
  | absent =>
      refine Triple.pure fun w' h => ?_
      rw [h]
      exact ⟨hgone _ hw.1 hslot, hw.2⟩
  | other => exact absurd hslot (hother _ hw.1)
  | dir slot =>
      have hentries := write_faulty (s := s) hI "remove_dir_all:entries"
        (fun d hd => hset d (.dir (SlotDir.debris slot (s.faults.debris w.tick))) (by simp) hd) hD hD
      have hlast := write_faulty (s := s) hI "remove_dir_all"
        (fun d hd => hgone _ (hset d .absent (by simp) hd) (by simp)) hD hD'
      exact (Triple.bind hentries fun _ => hlast).pre hstart

theorem Staged.setBackup {d : Disk} (h : Staged stable v b d) {node : Node} (hnode : node ≠ .other) :
    Staged stable v b (d.setSlot .stableOld node) := by
  refine ⟨?_, ?_, ?_⟩
  · rw [Disk.setSlot_of_ne d node (by simp)]
    exact h.1
  · rw [Disk.setSlot_of_ne d node (by simp)]
    exact h.2.1
  · rw [Disk.setSlot_self]
    exact hnode

theorem Swapped.setBackup {d : Disk} (h : Swapped v b d) {node : Node} (hnode : node ≠ .other) :
    Swapped v b (d.setSlot .stableOld node) := by
  refine ⟨?_, ?_, ?_⟩
  · rw [Disk.setSlot_of_ne d node (by simp)]
    exact h.1
  · rw [Disk.setSlot_of_ne d node (by simp)]
    exact h.2.1
  · rw [Disk.setSlot_self]
    exact hnode

/-- The first rename of a promotion. -/
theorem Staged.park {d : Disk} (h : Staged stable v b d) :
    Parked stable v b ((d.setSlot .stableOld (d.slots .stable)).setSlot .stable .absent) := by
  refine ⟨Disk.setSlot_self _ _ _, ?_, ?_⟩
  · rw [Disk.setSlot_of_ne _ _ (by simp), Disk.setSlot_of_ne _ _ (by simp)]
    exact h.2.1
  · rw [Disk.setSlot_of_ne _ _ (by simp), Disk.setSlot_self]
    exact h.1

/-- The second. -/
theorem Parked.swap {d : Disk} (h : Parked stable v b d) (hstable : stable ≠ .other) :
    Swapped v b ((d.setSlot .stable (d.slots .experiment)).setSlot .experiment .absent) := by
  refine ⟨?_, Disk.setSlot_self _ _ _, ?_⟩
  · rw [Disk.setSlot_of_ne _ _ (by simp), Disk.setSlot_self]
    exact h.2.1
  · rw [Disk.setSlot_of_ne _ _ (by simp), Disk.setSlot_of_ne _ _ (by simp), h.2.2]
    exact hstable

/-- **Promoting**, from wherever an earlier attempt was cut off. -/
theorem promote_copies (hI : Aside I) {v₀ : String} {b₀ : Bytes} (hstable : stable.Holds v₀ b₀) :
    Triple (Over (Promoting stable v b) I) s.promote (fun _ => Over (Promoted v b) I)
      (fun _ w => Over (Promoting stable v b) I w ∧ s.Faulty) := by
  have hstaged : ∀ d, Staged stable v b d → Promoting stable v b d := fun _ h => .inl h
  have hparked : ∀ d, Parked stable v b d → Promoting stable v b d := fun _ h => .inr (.inl h)
  have hswapped : ∀ d, Swapped v b d → Promoting stable v b d := fun _ h => .inr (.inr h)
  have hfinish : Triple (Over (Swapped v b) I) (s.removeDir .stableOld)
      (fun _ => Over (Promoted v b) I) (fun _ w => Over (Promoting stable v b) I w ∧ s.Faulty) :=
    removeBackup_copies hI (fun d h => h.2.2) (fun d node hnode h => h.setBackup hnode)
      (fun d h habsent => ⟨h.1, h.2.1, habsent⟩) hswapped fun d h => hswapped d h.swapped
  have hpublish : Triple (Over (Parked stable v b) I) (do
      s.renameDurable .experiment .stable
      s.removeDir .stableOld) (fun _ => Over (Promoted v b) I)
      (fun _ w => Over (Promoting stable v b) I w ∧ s.Faulty) :=
    Triple.bind (write_faulty hI _ (fun d h => h.swap hstable.ne_other) hparked hswapped)
      fun _ => hfinish
  have hpromote : Triple (Over (Staged stable v b) I) (do
      s.removeDir .stableOld
      s.renameDurable .stable .stableOld
      s.renameDurable .experiment .stable
      s.removeDir .stableOld) (fun _ => Over (Promoted v b) I)
      (fun _ w => Over (Promoting stable v b) I w ∧ s.Faulty) := by
    refine Triple.bind (removeBackup_copies hI (fun d h => h.2.2)
      (fun d node hnode h => h.setBackup hnode) (fun d h _ => h) hstaged hstaged) fun _ => ?_
    exact Triple.bind (write_faulty hI _ (fun d h => h.park) hstaged hparked) fun _ => hpublish
  refine Triple.of_forall fun w hw => ?_
  intro w' hw'
  subst hw'
  unfold promote
  rcases hw.1 with h | h | h
  · rw [Prog.bind_run_ok (readDisk_run h.2.1.version)]
    simp only
    rw [Prog.bind_run_ok (Prog.get_run _), if_pos (by rw [h.1]; exact hstable.ne_absent)]
    exact hpromote _ ⟨h, hw.2⟩
  · rw [Prog.bind_run_ok (readDisk_run h.2.1.version)]
    simp only
    rw [Prog.bind_run_ok (Prog.get_run _), if_neg (by rw [h.1]; simp)]
    exact hpublish _ ⟨h, hw.2⟩
  · rw [Prog.bind_run_ok (readDisk_run (Disk.version_of_absent h.2.1))]
    simp only
    rw [Prog.bind_run_ok (readDisk_run h.1.version)]
    exact hfinish _ ⟨h, hw.2⟩

/-- A promotion that is over is redone without a write. -/
theorem promote_promoted {w : World η γ} (h : Promoted v b w.disk) : s.promote w = (.ok (), w) := by
  unfold promote
  rw [Prog.bind_run_ok (readDisk_run (Disk.version_of_absent h.2.1))]
  simp only
  rw [Prog.bind_run_ok (readDisk_run h.1.version)]
  simp only
  unfold removeDir
  rw [Prog.bind_run_ok (Prog.get_run w), h.2.2]
  rfl

end

/-! ## attempts -/

/-- What attempts at `m` leave, each by a store with its own faults. -/
def attempts {α : Type} (m : FileStore → Prog Error (World η γ) α) (stores : List FileStore)
    (w : World η γ) : World η γ :=
  stores.foldl (fun w s => (m s w).2) w

/-- What every attempt keeps. -/
theorem attempts_keep {α : Type} {m : FileStore → Prog Error (World η γ) α} {P : World η γ → Prop}
    (hm : ∀ s, Keeps P (m s)) (stores : List FileStore) {w : World η γ} (hw : P w) :
    P (attempts m stores w) := by
  induction stores generalizing w with
  | nil => exact hw
  | cons s stores ih => exact ih ((hm s).leaves hw)

/-- **Slots are crash-atomic, and a promotion can be redone.**  From a stable slot
`(v₀, b₀)`, staging `(v, b)` is attempted until it completes, and from then on only promoting,
each attempt cut off anywhere.  Staging leaves the stable slot as it is.  Once it completed, a
complete copy of `(v, b)` is on trial or stable; one of `(v₀, b₀)` is stable or the backup
while the candidate was not renamed to the stable slot; and an attempt without a fault, and
any after it, leaves `(v, b)` stable, no candidate and no backup. -/
theorem slots_atomic (w : World η γ) {v₀ v : String} {b₀ b : Bytes} {path : Path}
    (hstable : (w.disk.slots .stable).Holds v₀ b₀) (hold : w.disk.slots .stableOld ≠ .other)
    (hv : trim v = v) (hne : v ≠ "") (hsource : w.disk.file path = .content b) :
    (∀ stages, (attempts (fun s => s.stage v path) stages w).disk.slots .stable =
        w.disk.slots .stable) ∧
      ∀ stages (s : FileStore) staged,
        s.stage v path (attempts (fun s => s.stage v path) stages w) = (.ok (), staged) →
        staged.disk.slots .stable = w.disk.slots .stable ∧
        ∀ promotes, let now := attempts promote promotes staged
          (((now.disk.slots .experiment).Holds v b ∨ (now.disk.slots .stable).Holds v b) ∧
            (now.disk.slots .experiment ≠ .absent →
              (now.disk.slots .stable).Holds v₀ b₀ ∨ (now.disk.slots .stableOld).Holds v₀ b₀)) ∧
          ∀ s' : FileStore, ¬s'.Faulty → ∃ done, s'.promote now = (.ok (), done) ∧
            ∀ more, Promoted v b (attempts promote more done).disk := by
  let stable := w.disk.slots .stable
  let apart : World η γ → Prop :=
    Over (Apart stable (w.disk.slots .stableOld) path b) fun _ => True
  have haside : Aside (fun _ : World η γ => True) := fun _ _ _ h => h
  have hstages : ∀ stages, apart (attempts (fun s => s.stage v path) stages w) := fun stages =>
    attempts_keep (fun s => (stage_apart (s := s) haside).post fun _ w h => ⟨h.1.1, h.2⟩) stages
      ⟨⟨rfl, rfl, hsource⟩, trivial⟩
  refine ⟨fun stages => (hstages stages).1.1, fun stages s staged hstage => ?_⟩
  obtain ⟨⟨hapart, hcandidate⟩, -⟩ := (stage_apart (s := s) haside).run_ok (hstages stages) hstage
  refine ⟨hapart.1, fun promotes => ?_⟩
  intro now
  let promoting : World η γ → Prop := Over (Promoting stable v b) fun _ => True
  have hnow : promoting now := by
    refine attempts_keep (fun s => (promote_copies (s := s) haside hstable).conseq (fun _ h => h)
      (fun _ w h => ⟨.inr (.inr h.1.swapped), h.2⟩) fun _ w h => h.1) promotes ⟨.inl ?_, trivial⟩
    refine ⟨hapart.1, ⟨v, hcandidate, hv, hne⟩, ?_⟩
    rw [hapart.2.1]
    exact hold
  refine ⟨?_, fun s' hcalm => ?_⟩
  · rcases hnow.1 with h | h | h
    · exact ⟨.inl h.2.1, fun _ => .inl (by rw [h.1]; exact hstable)⟩
    · exact ⟨.inl h.2.1, fun _ => .inr (by rw [h.2.2]; exact hstable)⟩
    · exact ⟨.inr h.1, fun hthere => absurd h.2.1 hthere⟩
  · obtain ⟨_, done, hrun, hdone⟩ := Triple.run_of_not_fault
      ((promote_copies (s := s') haside hstable).conseq (fun _ h => h) (fun _ _ h => h)
        fun _ _ h => hcalm h.2) hnow
    refine ⟨done, hrun, fun more => ?_⟩
    refine (attempts_keep (P := fun w : World η γ => Promoted v b w.disk) (fun s w h => ?_) more hdone.1)
    rw [promote_promoted h]
    exact h

end FileStore

namespace Service

/-- The product with the artifact of version 2 at hand. -/
def delivered : World Service Unit :=
  { installed "1" with disk := { (installed "1").disk with incoming := .content [2] } }

/-- A worker that dies between the two renames of its promotion is followed by one that
finishes it. -/
theorem slots_atomic_delivered : ∃ staged done,
    (⟨Faults.clean, id⟩ : FileStore).stage "2" incomingPath delivered = (.ok (), staged) ∧
      (⟨Faults.clean, id⟩ : FileStore).promote
        (FileStore.attempts FileStore.promote [⟨diesAt 12, id⟩] staged) = (.ok (), done) ∧
      FileStore.Promoted "2" [2] done.disk := by
  have hstage : ((⟨Faults.clean, id⟩ : FileStore).stage "2" incomingPath delivered).1 = .ok () := by
    decide +kernel
  generalize hrun : (⟨Faults.clean, id⟩ : FileStore).stage "2" incomingPath delivered = o at hstage
  obtain ⟨res, staged⟩ := o
  subst hstage
  have hstable : (delivered.disk.slots .stable).Holds "1" [1] := ⟨"1", rfl, by decide, by decide⟩
  have hold : delivered.disk.slots .stableOld ≠ .other := by simp [delivered, installed]
  obtain ⟨-, hpromotes⟩ := (FileStore.slots_atomic delivered (b := [2]) hstable hold
    (by decide : trim "2" = "2") (by decide) rfl).2 [] _ staged hrun
  obtain ⟨-, hcalm⟩ := hpromotes [⟨diesAt 12, id⟩]
  obtain ⟨done, hdone, hmore⟩ := hcalm ⟨Faults.clean, id⟩ fun ⟨_, _, h⟩ => h rfl
  exact ⟨staged, done, rfl, hdone, hmore []⟩

end Service

end KCarrier
