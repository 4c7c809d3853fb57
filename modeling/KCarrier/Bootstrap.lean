import KCarrier.Runner.Binding

/-!
# KCarrier.Bootstrap

Bootstrap: the one-time adoption of trusted bytes as the stable slot.

It decides on the slots and the journal alone.  What it copies waits in a directory of
its own beside the slots, which nothing else looks at, so its programs run on the world
together with that directory (`Adoption`).

* `bootstrapStable_adopts` — what a bootstrap that returns `true` found and left.
-/

namespace KCarrier

open Crash

/-! ## the programs -/

/-- What stands at the path of the trusted bytes. -/
inductive SourceFile where
  | absent
  | other
  | unreadable (message : String)
  | content (bytes : Bytes)
deriving DecidableEq, Repr

/-- The copy of a file, which fails where the file cannot be read. -/
def SourceFile.read : SourceFile → Except Error Bytes
  | .absent => .error notFound
  | .other => .error (.invalid "BOOTSTRAP_SOURCE_UNREADABLE")
  | .unreadable message => .error (.io false message)
  | .content bytes => .ok bytes

/-- `fs::metadata` of the source, which has to be a file. -/
def SourceFile.check : SourceFile → Except Error Unit
  | .absent => .error notFound
  | .other => .error (.invalid "BOOTSTRAP_SOURCE_UNREADABLE")
  | .unreadable _ | .content _ => .ok ()

/-- The world and `slots/stable.bootstrap`. -/
structure Adoption (η γ : Type) where
  world : World η γ
  staging : Node

namespace FileStore

variable {η γ α : Type}

/-- A program on the world. -/
def onWorld (m : Prog Error (World η γ) α) : Prog Error (Adoption η γ) α :=
  Prog.zoom Adoption.world (fun w a => { a with world := w }) m

/-- One durable step on the staging directory. -/
def writeStaging (s : FileStore) (label : String) (node : Node) :
    Prog Error (Adoption η γ) Unit := do
  onWorld (s.boundary s!"before:{label}")
  Prog.modify fun a => { a with staging := node }
  onWorld (s.boundary s!"after:{label}")

/-- `remove_dir`, as it is for the staging directory. -/
def removeStaging (s : FileStore) : Prog Error (Adoption η γ) Unit := do
  let a ← Prog.get
  match a.staging with
  | .absent => pure ()
  | .other => Prog.throw (.invalid "refusing to remove non-directory slot")
  | .dir d => do
      s.writeStaging "remove_dir_all:entries"
        (.dir (SlotDir.debris d (s.faults.debris a.world.tick)))
      s.writeStaging "remove_dir_all" .absent

/-- `populate`, as it is for the staging directory. -/
def populateStaging (s : FileStore) (version : String) (source : SourceFile) :
    Prog Error (Adoption η γ) Unit :=
  if trim version = "" then
    Prog.throw (.invalid "empty artifact version")
  else do
    s.removeStaging
    s.writeStaging "create_dir" (.dir ⟨.absent, .absent⟩)
    let bytes ← Prog.ofExcept source.read
    let a ← Prog.get
    s.writeStaging "copy:data"
      (.dir ⟨.absent, .content (bytes.take (s.faults.copied a.world.tick))⟩)
    s.writeStaging "copy" (.dir ⟨.absent, .content bytes⟩)
    s.writeStaging "VERSION" (.dir ⟨.content version, .content bytes⟩)

/-- The rename that makes the staging directory the stable slot. -/
def renameStaging (s : FileStore) : Prog Error (Adoption η γ) Unit := do
  onWorld (s.boundary "before:rename")
  Prog.modify fun a =>
    { world := { a.world with disk := a.world.disk.setSlot .stable a.staging }
      staging := .absent }
  onWorld (s.boundary "after:rename")

/-- The lock is held; no transaction evidence is overwritten. -/
def bootstrapLocked (s : FileStore) (version : String) (source : SourceFile) :
    Prog Error (Adoption η γ) Bool :=
  if trim version = "" then
    Prog.throw (.invalid "BOOTSTRAP_VERSION_INVALID")
  else do
    match ← onWorld (readDisk (Disk.version · .stable)) with
    | some _ => pure false
    | none => do
        let a ← Prog.get
        if a.world.disk.journal ≠ .absent ∨ a.world.disk.slots .experiment ≠ .absent then
          Prog.throw (.invalid "BOOTSTRAP_STATE_CONFLICT")
        else do
          Prog.ofExcept source.check
          s.populateStaging (trim version) source
          s.renameStaging
          pure true

end FileStore

/-- `bootstrap_stable`, in the process and with the store of `r`. -/
def Runner.bootstrapStable {η γ : Type} (r : Runner η γ) (version : String)
    (source : SourceFile) : Prog Error (Adoption η γ) Bool := do
  FileStore.onWorld r.acquire
  let result ← Prog.attempt (r.store.bootstrapLocked version source)
  FileStore.onWorld r.release
  Prog.ofExcept result

/-! ## what they do -/

/-- The directory with `version` and `bytes` in the stable slot. -/
def Disk.adopt (d : Disk) (version : String) (bytes : Bytes) : Disk :=
  d.setSlot .stable (.dir ⟨.content version, .content bytes⟩)

/-- The stable slot was adopted in `w`, where there was none. -/
structure Adopted {η γ : Type} (w : World η γ) (version : String) (source : SourceFile)
    (bytes : Bytes) (a : Adoption η γ) : Prop where
  source : source = .content bytes
  named : trim version ≠ ""
  vacant : w.disk.version .stable = .ok none
  journal : w.disk.journal = .absent
  experiment : w.disk.slots .experiment = .absent
  staging : a.staging = .absent
  world : Untouched { w with disk := w.disk.adopt (trim version) bytes } a.world

theorem SourceFile.content_of_read {source : SourceFile} {bytes : Bytes}
    (hcheck : source.check = .ok ()) (hread : source.read = .ok bytes) :
    source = .content bytes := by
  cases source with
  | absent => cases hcheck
  | other => cases hcheck
  | unreadable message => cases hread
  | content b =>
      cases hread
      rfl

namespace FileStore

variable {η γ α : Type} {s : FileStore} {w : World η γ} {source : SourceFile}

/-- The world is untouched, and the staging directory as `P` says. -/
def Beside (P : Node → Prop) (w : World η γ) (a : Adoption η γ) : Prop :=
  P a.staging ∧ Untouched w a.world

theorem onWorld_keeps {I : World η γ → Prop} {m : Prog Error (World η γ) α} (h : Keeps I m)
    (P : Node → Prop) : Keeps (fun a => P a.staging ∧ I a.world) (onWorld m) :=
  Triple.zoom fun a ha => (h a.world ha.2).mono (fun _ _ hw => ⟨ha.1, hw⟩)
    fun _ _ hw => ⟨ha.1, hw⟩

theorem boundary_beside (P : Node → Prop) (w : World η γ) (label : String) :
    Keeps (Beside P w) (onWorld (s.boundary label)) := by
  have htick : OffTick (Untouched w) := fun w' n h => untouched_offLock w w' w'.lock n h
  have hboundary : Keeps (Untouched w) (s.boundary label) :=
    (boundary_triple (fun _ => trivial : _ → True) htick label).crash fun _ h => h.1
  exact onWorld_keeps hboundary P

/-- A step on the staging directory leaves what it says. -/
theorem writeStaging_triple (P : Node → Prop) (w : World η γ) (label : String) (node : Node) :
    Triple (Beside P w) (s.writeStaging label node) (fun _ => Beside (· = node) w)
      (fun _ _ => True) := by
  unfold writeStaging
  refine Triple.bind ((boundary_beside P w _).crash fun _ _ => trivial) fun _ => ?_
  refine Triple.bind (R := fun _ => Beside (· = node) w) (Triple.modify fun a h => ⟨rfl, h.2⟩)
    fun _ => ?_
  exact (boundary_beside (· = node) w _).crash fun _ _ => trivial

theorem removeStaging_triple (w : World η γ) :
    Triple (Beside (fun _ => True) w) s.removeStaging (fun _ => Beside (fun _ => True) w)
      (fun _ _ => True) := by
  have hwrite : ∀ (label : String) (node : Node), Triple (Beside (fun _ => True) w)
      (s.writeStaging label node) (fun _ => Beside (fun _ => True) w) (fun _ _ => True) :=
    fun label node => (writeStaging_triple _ w label node).post fun _ _ h => ⟨trivial, h.2⟩
  unfold removeStaging
  refine Triple.get_bind fun a ha => ?_
  have hstart : ∀ a', a' = a → Beside (fun _ => True) w a' := fun a' h => by rw [h]; exact ha
  cases a.staging with
  | absent => exact Triple.pure hstart
  | other => exact Triple.throw fun _ _ => trivial
  | dir d => exact (Triple.bind (hwrite _ _) fun _ => hwrite _ _).pre hstart

/-- A staging directory that was filled is complete, with the bytes of the source. -/
theorem populateStaging_triple (w : World η γ) (version : String) (source : SourceFile) :
    Triple (Beside (fun _ => True) w) (s.populateStaging version source)
      (fun _ a => ∃ bytes, source.read = .ok bytes ∧
        Beside (· = .dir ⟨.content version, .content bytes⟩) w a) (fun _ _ => True) := by
  have hwrite : ∀ (label : String) (node : Node), Triple (Beside (fun _ => True) w)
      (s.writeStaging label node) (fun _ => Beside (· = node) w) (fun _ _ => True) :=
    fun label node => writeStaging_triple _ w label node
  have hstep : ∀ (label : String) (node : Node), Triple (Beside (fun _ => True) w)
      (s.writeStaging label node) (fun _ => Beside (fun _ => True) w) (fun _ _ => True) :=
    fun label node => (hwrite label node).post fun _ _ h => ⟨trivial, h.2⟩
  unfold populateStaging
  refine Triple.ite (fun _ => Triple.throw fun _ _ => trivial) fun _ => ?_
  refine Triple.bind (removeStaging_triple w) fun _ => Triple.bind (hstep _ _) fun _ => ?_
  refine Triple.bind (R := fun bytes a => source.read = .ok bytes ∧ Beside (fun _ => True) w a)
    (Triple.ofExcept (fun _ _ hread h => ⟨hread, h⟩) fun _ _ _ _ => trivial) fun bytes => ?_
  refine Triple.assume fun hread => Triple.get_bind fun a ha => ?_
  refine Triple.pre (P := Beside (fun _ => True) w) ?_ fun a' h => by rw [h]; exact ha
  refine Triple.bind (hstep _ _) fun _ => Triple.bind (hstep _ _) fun _ => ?_
  exact (hwrite _ _).post fun _ a h => ⟨bytes, hread, h⟩

/-- The rename makes what was staged the stable slot. -/
theorem renameStaging_triple (w : World η γ) (node : Node) :
    Triple (Beside (· = node) w) s.renameStaging
      (fun _ => Beside (· = .absent) { w with disk := w.disk.setSlot .stable node })
      (fun _ _ => True) := by
  unfold renameStaging
  refine Triple.bind ((boundary_beside (· = node) w _).crash fun _ _ => trivial) fun _ => ?_
  refine Triple.bind (R := fun _ => Beside (· = .absent)
    { w with disk := w.disk.setSlot .stable node }) ?_ fun _ =>
      (boundary_beside (· = .absent) _ _).crash fun _ _ => trivial
  refine Triple.modify fun a ⟨hstaging, hw⟩ => ⟨rfl, ?_, hw.host, hw.product, hw.log⟩
  show a.world.disk.setSlot .stable a.staging = _
  rw [hw.disk, hstaging]

/-- Looking for a stable slot. -/
theorem findStable_triple (w : World η γ) :
    Triple (Beside (fun _ => True) w) (onWorld (readDisk (Disk.version · .stable)))
      (fun found a => w.disk.version .stable = .ok found ∧ Beside (fun _ => True) w a)
      (fun _ _ => True) := by
  refine Triple.zoom fun a ha => ?_
  have hread : Triple (· = a.world) (readDisk (Disk.version · .stable))
      (fun found w' => w.disk.version .stable = .ok found ∧
        Beside (fun _ => True) w { a with world := w' }) (fun _ _ => True) := by
    refine readDisk_triple (fun found w' hw hv => ?_) fun _ _ _ _ => trivial
    rw [hw] at hv ⊢
    rw [ha.2.disk] at hv
    exact ⟨hv, ha⟩
  exact hread a.world rfl

/-- Filling the staging directory and renaming it. -/
theorem adopt_triple (w : World η γ) (version : String) (source : SourceFile) :
    Triple (Beside (fun _ => True) w) (do
      s.populateStaging version source
      s.renameStaging
      pure true)
      (fun _ a => ∃ bytes, source.read = .ok bytes ∧
        Beside (· = .absent) { w with disk := w.disk.adopt version bytes } a)
      (fun _ _ => True) := by
  refine Triple.bind (populateStaging_triple w version source) fun _ => ?_
  refine Triple.exists_pre fun bytes => Triple.assume fun hread => ?_
  exact Triple.bind (renameStaging_triple w _) fun _ => Triple.pure fun a h => ⟨bytes, hread, h⟩

attribute [local irreducible] trim in
/-- Adopting, under the lock. -/
theorem bootstrapLocked_triple (w : World η γ) (version : String) (source : SourceFile) :
    Triple (Beside (fun _ => True) w) (s.bootstrapLocked version source)
      (fun done a => done = true → ∃ bytes, Adopted w version source bytes a)
      (fun _ _ => True) := by
  unfold bootstrapLocked
  refine Triple.ite (fun _ => Triple.throw fun _ _ => trivial) fun hnamed => ?_
  refine Triple.bind (findStable_triple w) fun found => Triple.assume fun hvacant => ?_
  cases found with
  | some v => exact Triple.pure fun _ _ h => by cases h
  | none =>
      refine Triple.get_bind fun a ha => ?_
      refine Triple.ite (fun _ => Triple.throw fun _ _ => trivial) fun hclear => ?_
      rw [ha.2.disk, not_or, Decidable.not_not, Decidable.not_not] at hclear
      have hadopt := adopt_triple (s := s) w (trim version) source
      have hadopted : ∀ b bytes, source.check = .ok () → source.read = .ok bytes →
          Beside (· = .absent) { w with disk := w.disk.adopt (trim version) bytes } b →
          Adopted w version source bytes b := fun b bytes hcheck hread h =>
        ⟨SourceFile.content_of_read hcheck hread, hnamed, hvacant, hclear.1, hclear.2, h.1, h.2⟩
      generalize trim version = text at hadopt hadopted ⊢
      refine Triple.bind (R := fun _ a => source.check = .ok () ∧ Beside (fun _ => True) w a)
        (Triple.ofExcept (fun _ a' hcheck h => ⟨hcheck, by rw [h]; exact ha⟩)
          fun _ _ _ _ => trivial) fun _ => Triple.assume fun hcheck => hadopt.post ?_
      rintro _ b ⟨bytes, hread, h⟩ -
      exact ⟨bytes, hadopted b bytes hcheck hread h⟩

end FileStore

/-- **Bootstrap.**  One that returns `true` found no stable slot, no journal and no
candidate; it leaves the trimmed version and the bytes of the source in the stable slot,
and the rest of the world as it was. -/
theorem Runner.bootstrapStable_adopts {η γ : Type} {r : Runner η γ} {version : String}
    {source : SourceFile} {a b : Adoption η γ}
    (h : r.bootstrapStable version source a = (.ok true, b)) :
    ∃ bytes, Adopted a.world version source bytes b := by
  have hlock : ∀ {m : Prog Error (World η γ) Unit}, Keeps (Untouched a.world) m →
      Keeps (FileStore.Beside (fun _ => True) a.world) (FileStore.onWorld m) :=
    fun hm => FileStore.onWorld_keeps hm fun _ => True
  unfold bootstrapStable at h
  obtain ⟨_, a₁, hacquire, h⟩ := Prog.bind_eq_ok h
  obtain ⟨done, a₂, hbody, h⟩ := Prog.bind_eq_ok h
  obtain ⟨_, a₃, hrelease, h⟩ := Prog.bind_eq_ok h
  have hstart : FileStore.Beside (fun _ => True) a.world a₁ :=
    (hlock (acquire_keeps (untouched_offLock a.world))).run_ok ⟨trivial, Untouched.refl _⟩ hacquire
  cases done with
  | error e => cases h
  | ok done =>
      cases h
      obtain ⟨bytes, hadopted⟩ := (FileStore.bootstrapLocked_triple a.world version source).run_ok
        hstart (Prog.attempt_eq_ok hbody) rfl
      have hkeeps := FileStore.onWorld_keeps
        (release_keeps (r := r) (untouched_offLock { a.world with
          disk := a.world.disk.adopt (trim version) bytes })) (· = .absent)
      have hend := hkeeps.run_ok ⟨hadopted.staging, hadopted.world⟩ hrelease
      exact ⟨bytes, { hadopted with staging := hend.1, world := hend.2 }⟩

end KCarrier
