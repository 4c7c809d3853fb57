import KCarrier.Artifact
import KCarrier.Engine.Delivery
import KCarrier.Runner.Custody

/-!
# KCarrier.Runner.Pedigree

Where the artifacts in the slots come from.

A complete copy, in either slot, in the backup or beside them, was there at the start, or some
visit of the run installed it: when that visit asked its release source, it was answered with
the release (`Visit.Offered`), its downloader gives the bytes, and the install was consented to
or needs no consent (`Visit.MayInstall`).  Nothing a cut-off copy, removal or rename leaves is
complete without being one of these.

* `stage_everywhere` — what holds of every slot, and of the candidate, holds after staging;
* `slots_pedigree` — over every run of visits;
* `artifacts_verified` — with the verified downloader, the bytes are the ones a release declares.
-/

namespace KCarrier

open Crash
open Running

variable {η γ : Type}

/-! ## what holds of every slot -/

/-- `G` is about complete copies only. -/
structure Copies (G : Node → Prop) : Prop where
  incomplete : ∀ node, (∀ v b, node ≠ .dir ⟨.content v, .content b⟩) → G node

/-- `G` of whatever stands at a place. -/
def Disk.Everywhere (G : Node → Prop) (d : Disk) : Prop := ∀ place, G (d.slots place)

section

variable {G : Node → Prop}

theorem Disk.Everywhere.setSlot {d : Disk} (h : d.Everywhere G) {node : Node} (hnode : G node)
    (place : Place) : (d.setSlot place node).Everywhere G := by
  intro p
  by_cases hp : p = place
  · rw [hp, Disk.setSlot_self]
    exact hnode
  · rw [Disk.setSlot_of_ne d node hp]
    exact h p

theorem Copies.absent (hG : Copies G) : G .absent := hG.incomplete _ fun _ _ h => by cases h

theorem Copies.unversioned (hG : Copies G) (artifact : File Bytes) :
    G (.dir ⟨.absent, artifact⟩) := hG.incomplete _ fun _ _ h => by cases h

/-- What an unfinished removal leaves is as complete as what was there. -/
theorem Copies.debris (hG : Copies G) {slot : SlotDir} (h : G (.dir slot)) (keep : Bool × Bool) :
    G (.dir (FileStore.SlotDir.debris slot keep)) := by
  obtain ⟨version, artifact⟩ := keep
  cases version with
  | false => exact hG.unversioned _
  | true =>
      cases artifact with
      | true => exact h
      | false => exact hG.incomplete _ fun _ _ heq => by simp [FileStore.SlotDir.debris] at heq

end

namespace FileStore

variable {s : FileStore} {I : World η γ → Prop} {G : Node → Prop} {D : Disk → Prop}

/-- `D` has room for whatever `G` holds of. -/
def Houses (D : Disk → Prop) (G : Node → Prop) : Prop :=
  ∀ d place node, D d → G node → D (d.setSlot place node)

/-- Removing a directory leaves copies of what was there. -/
theorem removeDir_houses (hI : Aside I) (hG : Copies G) (hD : Houses D G)
    (hslots : ∀ d, D d → d.Everywhere G) (place : Place) :
    Keeps (Over D I) (s.removeDir place) := by
  have hset : ∀ {label : String} {node : Node}, G node → Keeps (Over D I)
      (s.write label fun disk => disk.setSlot place node) := fun hnode =>
    write_clean_keeps hI fun d hd => hD d place _ hd hnode
  unfold removeDir
  refine Triple.get_bind fun w hw => ?_
  have hstart : ∀ w', w' = w → Over D I w' := fun w' h => by rw [h]; exact hw
  have hslot := hslots w.disk hw.1 place
  revert hslot
  cases w.disk.slots place with
  | absent => exact fun _ => Triple.pure hstart
  | other => exact fun _ => Triple.throw hstart
  | dir slot =>
      intro hslot
      refine Triple.pre ?_ hstart
      exact Triple.bind (hset (hG.debris hslot _)) fun _ => hset hG.absent

/-- Renaming moves what was there. -/
theorem renameDurable_everywhere (hI : Aside I) (hG : Copies G) (source target : Place) :
    Keeps (Over (Disk.Everywhere G) I) (s.renameDurable source target) :=
  write_clean_keeps hI fun _ hd => (hd.setSlot (hd source) target).setSlot hG.absent source

theorem houses_everywhere : Houses (Disk.Everywhere G) G := fun _ place _ hd hnode =>
  hd.setSlot hnode place

/-- Removing a directory puts nothing in place. -/
theorem removeDir_everywhere (hI : Aside I) (hG : Copies G) (place : Place) :
    Keeps (Over (Disk.Everywhere G) I) (s.removeDir place) :=
  removeDir_houses hI hG houses_everywhere (fun _ hd => hd) place

/-- Promoting copies what was there. -/
theorem promote_everywhere (hI : Aside I) (hG : Copies G) :
    Keeps (Over (Disk.Everywhere G) I) s.promote := by
  have hremove := removeDir_everywhere (s := s) hI hG
  have hrename := renameDurable_everywhere (s := s) hI hG
  unfold promote
  refine Triple.bind readDisk_keeps fun experiment => ?_
  cases experiment with
  | none =>
      refine Triple.bind readDisk_keeps fun stable => ?_
      cases stable with
      | none => exact Triple.throw fun _ h => h
      | some version => exact hremove _
  | some version =>
      refine Triple.get_bind fun w hw => Triple.pre (P := Over (Disk.Everywhere G) I) ?_
        fun w' h => by rw [h]; exact hw
      refine Triple.ite (fun _ => ?_) fun _ => Triple.bind (hrename _ _) fun _ => hremove _
      exact Triple.bind (hremove _) fun _ => Triple.bind (hrename _ _) fun _ =>
        Triple.bind (hrename _ _) fun _ => hremove _

/-- The candidate was brought in, and `G` holds of a copy of it under `version`. -/
def Fetched (G : Node → Prop) (version : String) (d : Disk) : Prop :=
  d.Everywhere G ∧ ∃ b, d.incoming = .content b ∧ G (.dir ⟨.content version, .content b⟩)

/-- **Staging** puts nothing into the slots but copies of the candidate. -/
theorem stage_everywhere (hI : Aside I) (hG : Copies G) (version : String) :
    Triple (Over (Fetched G version) I) (s.stage version incomingPath)
      (fun _ => Over (Disk.Everywhere G) I) (fun _ => Over (Disk.Everywhere G) I) := by
  have hhouses : Houses (Fetched G version) G := fun d place node hd hnode =>
    ⟨hd.1.setSlot hnode place, hd.2⟩
  have hout : ∀ w : World η γ, Over (Fetched G version) I w → Over (Disk.Everywhere G) I w :=
    fun w h => ⟨h.1.1, h.2⟩
  have hset : ∀ {label : String} {node : Node}, G node → Keeps (Over (Disk.Everywhere G) I)
      (s.write label fun disk => disk.setSlot .experimentStaging node) := fun hnode =>
    write_clean_keeps hI fun _ hd => hd.setSlot hnode _
  have hpopulate : Triple (Over (Fetched G version) I)
      (s.populate .experimentStaging version incomingPath)
      (fun _ => Over (Disk.Everywhere G) I) (fun _ => Over (Disk.Everywhere G) I) := by
    unfold populate
    refine Triple.ite (fun _ => Triple.throw hout) fun _ => ?_
    refine Triple.bind (Triple.crash (removeDir_houses hI hG hhouses (fun _ hd => hd.1) _) hout)
      fun _ => ?_
    refine Triple.bind (Triple.crash (write_clean_keeps hI fun d hd =>
      hhouses d _ _ hd (hG.unversioned .absent)) hout) fun _ => ?_
    refine Triple.get_bind fun w hw => ?_
    obtain ⟨⟨hslots, b, hincoming, hcandidate⟩, hi⟩ := hw
    have hread : (w.disk.file incomingPath).read = .ok b := by
      unfold Disk.file
      rw [if_pos rfl, hincoming]
      rfl
    rw [hread]
    refine Triple.bind (R := fun source w' => source = b ∧ Over (Disk.Everywhere G) I w') ?_
      fun source => Triple.assume fun hsource => ?_
    · exact Triple.ofExcept (fun source w' h hw' => by cases h; rw [hw']; exact ⟨rfl, hslots, hi⟩)
        fun _ _ h _ => by cases h
    · subst hsource
      refine Triple.bind (hset (hG.unversioned _)) fun _ => ?_
      exact Triple.bind (hset (hG.unversioned _)) fun _ => hset hcandidate
  unfold stage
  refine Triple.bind hpopulate fun _ => Triple.bind (removeDir_everywhere hI hG _) fun _ => ?_
  exact renameDurable_everywhere hI hG _ _

end FileStore

namespace Runner

variable {r : Runner η γ} {c : Convergence (World η γ)} {G : Node → Prop}

/-- The slots of a world, with nothing else. -/
abbrev Everywhere (G : Node → Prop) : World η γ → Prop :=
  Over (Disk.Everywhere G) fun _ => True

/-- **The rollback.** -/
theorem restores_everywhere (hG : Copies G) :
    Restores (r.engine c) (Everywhere G) where
  readJournal := FileStore.readDisk_keeps
  append entry _ := FileStore.append_keeps remote_true.aside (fun _ _ h => h) entry
  promote := FileStore.promote_everywhere remote_true.aside hG
  clear := FileStore.removeDir_everywhere remote_true.aside hG .experiment
  fence := hostCall_keeps remote_true _ _
  stop _ := hostCall_keeps remote_true _ _
  start _ := hostCall_keeps remote_true _ _
  resume := hostCall_keeps remote_true _ _

/-- **The upgrade** brings in what it fetched. -/
theorem installs_everywhere (hG : Copies G) (hc : ReadsProduct c) (version : String) :
    Installs (r.engine c) version incomingPath
      (Over (FileStore.Fetched G version) fun _ => True)
      (Over (FileStore.Fetched G version) fun _ => True) (Everywhere G) where
  toRestores := restores_everywhere hG
  below _ h := ⟨h.1.1, h.2⟩
  versions := FileStore.readDisk_keeps
  surveyed := hostCall_keeps remote_true _ _
  journaled _ _ := Triple.crash (FileStore.append_keeps remote_true.aside (fun _ _ h => h) _)
    fun _ h => ⟨h.1.1, trivial⟩
  stage := FileStore.stage_everywhere remote_true.aside hG version
  quiesce := hostCall_keeps remote_true _ _
  probe := hostCall_keeps remote_true _ _
  evaluate := evaluate_keeps (fun _ _ h => h) (fun _ _ h => h) hc

/-- What is kept beside the slots is not about them. -/
theorem everywhere_offFetch : OffFetch (Everywhere G : World η γ → Prop) where
  receipts := ⟨fun _ _ h => h, fun _ _ _ _ h => h⟩
  record _ _ h := h
  note _ _ _ h := h
  product _ _ h := h
  incoming _ _ h := h
  provenance s _ _ _ _ := FileStore.appendProvenance_keeps fun _ f hf =>
    FileStore.write_clean_keeps remote_true.aside fun d hd => by
      obtain ⟨file, h⟩ := hf d
      rw [h]
      exact hd

/-- The downloader may answer with the bytes. -/
def MayDownload (r : Runner η γ) (release : Release) (bytes : Bytes) : Prop :=
  ∃ p p', r.downloader release p = (.ok bytes, p')

theorem yields_of_run {σ α : Type} {p : α → Prop} {m : Prog Error σ α}
    (h : ∀ s s' a, m s = (.ok a, s') → p a) : Yields p m := by
  intro s _
  cases hm : m s with
  | mk res s' =>
      cases res with
      | ok a => exact h s s' a hm
      | err e => trivial
      | crash => trivial

end Runner

/-- The call consents to an install. -/
def Call.consents : Call → Bool
  | .execute (.upgrade _ _ _ consented) => consented
  | .upgradeTo _ options => options.consented
  | _ => false

theorem Runner.consented_of_driven {r : Runner η γ} {w : World η γ} {call : Call}
    {target : Option String} {options : UpgradeOptions}
    (h : r.driven w call = some (target, options)) : options.consented = call.consents := by
  cases call with
  | upgrade =>
      cases h
      rfl
  | upgradeTo version options =>
      cases h
      rfl
  | recover expected => cases h
  | rollback reason => cases h
  | execute request =>
      cases request with
      | upgrade =>
          cases h
          rfl
      | recover => cases h
      | status => cases h

/-- The call of the visit is allowed to install something. -/
def Visit.Admitted (v : Visit η γ) : Prop := v.call.consents = true ∨ v.runner.policy = .auto

/-- In its run from `w` the visit opens its drive, asks its release source for the target there,
and is answered with the release. -/
def Visit.Offered (v : Visit η γ) (w : World η γ) (release : Release) : Prop :=
  v.call.Valid ∧ v.runner.hooks.managedElsewhere v.product = false ∧
    ∃ target options operation current w₁,
      v.runner.driven (v.finds w) v.call = some (target, options) ∧
      v.runner.opening target options (v.finds w) = (.ok (operation, current), w₁) ∧
      (v.runner.lookup target ⟨current, v.runner.platformKey⟩ w₁).1 = .ok (some release)

/-- The visit to `w` may put `bytes` into a slot as `version`. -/
def Visit.MayInstall (v : Visit η γ) (w : World η γ) (version : String) (bytes : Bytes) : Prop :=
  v.Admitted ∧ ∃ release, v.Offered w release ∧ release.version = version ∧
    v.runner.MayDownload release bytes

/-- What a lookup finds where the drive of the visit was opened, the visit was offered. -/
theorem Visit.offers_offered {v : Visit η γ} {w : World η γ} (hvalid : v.call.Valid)
    (hmanaged : v.runner.hooks.managedElsewhere v.product = false) {target : Option String}
    {options : UpgradeOptions} (hdriven : v.runner.driven (v.finds w) v.call = some (target, options))
    (operation : Option Operation) (current : String) :
    v.runner.Offers (v.Offered w) (fun w' =>
      v.runner.opening target options (v.finds w) = (.ok (operation, current), w')) target
      current := by
  intro w₁ hopening
  cases hlookup : v.runner.lookup target ⟨current, v.runner.platformKey⟩ w₁ with
  | mk res w₂ =>
      cases res with
      | ok found =>
          intro release hfound
          have hanswer : (v.runner.lookup target ⟨current, v.runner.platformKey⟩ w₁).1 =
              .ok (some release) := by rw [hlookup, hfound]
          exact ⟨hvalid, hmanaged, target, options, operation, current, w₁, hdriven, hopening, hanswer⟩
      | err e => trivial
      | crash => trivial

/-- The node is a copy from `w`, or one that the visit to `w` may have installed. -/
def Descends (v : Visit η γ) (w : World η γ) (node : Node) : Prop :=
  ∀ version b, node = .dir ⟨.content version, .content b⟩ →
    (∃ place, w.disk.slots place = .dir ⟨.content version, .content b⟩) ∨
      v.MayInstall w version b

/-- Descent is kept by a copy. -/
theorem copies_descends (v : Visit η γ) (w : World η γ) : Copies (Descends v w) :=
  ⟨fun _ h version b heq => absurd heq (h version b)⟩

/-- **A call** puts nothing into the slots but what it may install. -/
theorem Visit.custody_descends {v : Visit η γ} (hvalid : v.call.Valid) (w : World η γ) :
    Runner.Custody v.runner v.call (v.finds w) (Runner.Everywhere (Descends v w))
      (fun release => Over (FileStore.Fetched (Descends v w) release.version) fun _ => True) where
  off _ _ _ h := h
  fetch := Runner.everywhere_offFetch
  observed _ _ h := h
  report _ _ h := h
  recover c _ := (Runner.restores_everywhere (copies_descends v w)).recover
  clear := FileStore.removeDir_everywhere Runner.remote_true.aside (copies_descends v w) _
  install c release hc :=
    (Runner.installs_everywhere (copies_descends v w) hc release.version).upgrade
  candidate target options hdriven hmanaged operation current := by
    refine Runner.candidate_triple
      (Q := fun release => Over (FileStore.Fetched (Descends v w) release.version) fun _ => True)
      (Visit.offers_offered hvalid hmanaged hdriven operation current) Runner.everywhere_offFetch
      (fun release hoffer hconsent => ?_) operation
    rw [Runner.consented_of_driven hdriven] at hconsent
    have hready : ∀ bytes, v.runner.MayDownload release bytes →
        Descends v w (.dir ⟨.content release.version, .content bytes⟩) := by
      intro bytes hbytes version b heq
      cases heq
      exact .inr ⟨hconsent, release, hoffer, rfl, hbytes⟩
    exact {
      fetch := Runner.everywhere_offFetch
      download := ⟨v.runner.MayDownload release,
        Runner.yields_of_run fun p p' bytes hrun => ⟨p, p', hrun⟩,
        fun w bytes hbytes h => ⟨⟨h.1, bytes, rfl, hready bytes hbytes⟩, trivial⟩⟩
      tick := fun _ _ h => h
      product := fun _ _ h => h
      record := fun _ _ h => h
      back := fun _ h => ⟨h.1.1, trivial⟩
      provenance := fun _ identity now => by
        refine Triple.crash (FileStore.appendProvenance_keeps fun _ f hf => ?_)
          fun _ h => ⟨h.1.1, trivial⟩
        refine FileStore.write_clean_keeps Runner.remote_true.aside fun d hd => ?_
        obtain ⟨file, h⟩ := hf d
        rw [h]
        exact hd
      unproven := fun _ _ h => h
      readyTick := fun _ _ h => h
      readyRecord := fun _ _ h => h
      readyBack := fun _ h => ⟨h.1.1, trivial⟩ }

/-- After one visit a complete copy was there before it, or was installed by it. -/
theorem Visit.run_descends (v : Visit η γ) (w : World η γ) :
    (v.run w).disk.Everywhere (Descends v w) := by
  have hstart : Runner.Everywhere (Descends v w) (v.finds w) :=
    ⟨fun place _ _ h => .inl ⟨place, h⟩, trivial⟩
  have hrun : Runner.Everywhere (Descends v w) (v.run w) := Visit.run_of_valid hstart fun hvalid =>
    Visit.run_of_triple (Visit.custody_descends hvalid w).call_keeps ⟨rfl, hstart⟩
  exact hrun.1

/-- **Pedigree**: after every run of visits a complete copy, wherever it stands, was there at
the start or may have been installed by one of them, when its turn came. -/
theorem slots_pedigree (visits : List (Visit η γ)) (w : World η γ) {place : Place} {v : String}
    {b : Bytes} (h : (runVisits visits w).disk.slots place = .dir ⟨.content v, .content b⟩) :
    (∃ before, w.disk.slots before = .dir ⟨.content v, .content b⟩) ∨
      ∃ before visit after, visits = before ++ visit :: after ∧
        visit.MayInstall (runVisits before w) v b := by
  induction visits generalizing w with
  | nil => exact .inl ⟨place, h⟩
  | cons visit rest ih =>
      obtain ⟨here, hhere⟩ | ⟨before, later, after, rfl, hinstalled⟩ := ih (visit.run w) h
      · obtain hthere | hinstalled := visit.run_descends w here v b hhere
        · exact .inl hthere
        · exact .inr ⟨[], visit, rest, rfl, hinstalled⟩
      · exact .inr ⟨visit :: before, later, after, rfl, hinstalled⟩

/-! ## with the verified downloader -/

/-- A release, with the compressed representation it may have. -/
def Release.packed (release : Release) (gzip : Option Artifact.Representation) :
    Artifact.Release :=
  ⟨release.version, release.url, release.sha256, release.size, gzip⟩

/-- The downloader answers as an attempt at the release does. -/
def Runner.Downloads (r : Runner η γ) (lib : Artifact.Libraries) : Prop :=
  ∀ release p, ∃ policy gzip resume server t, (r.downloader release p).1 =
    (Artifact.Downloader.download lib policy (release.packed gzip) resume server t).1

theorem Runner.Downloads.verified {r : Runner η γ} {lib : Artifact.Libraries}
    (h : r.Downloads lib) {release : Release} {bytes : Bytes} (hbytes : r.MayDownload release bytes) :
    bytes.length = release.size ∧ lib.sha256 bytes = release.sha256 := by
  obtain ⟨p, p', hrun⟩ := hbytes
  obtain ⟨policy, gzip, resume, server, t, hattempt⟩ := h release p
  rw [hrun] at hattempt
  have hverified : Triple (fun _ => True)
      (Artifact.Downloader.download lib policy (release.packed gzip) resume server) _ _ :=
    Artifact.Downloader.download_verified
  exact Artifact.Downloader.verify_ok_iff.mp (hverified.of_ok trivial hattempt.symm)

/-- **Every artifact is one that was released.**  After every run of visits, a complete copy that
was not there at the start has the size and the digest of a release of its version, with which
the release source of a visit answered in that visit's run; and that visit had consent, or
needed none. -/
theorem artifacts_verified (lib : Artifact.Libraries) (visits : List (Visit η γ))
    (hdownloads : ∀ visit ∈ visits, visit.runner.Downloads lib) (w : World η γ) {place : Place}
    {v : String} {b : Bytes}
    (h : (runVisits visits w).disk.slots place = .dir ⟨.content v, .content b⟩) :
    (∃ before, w.disk.slots before = .dir ⟨.content v, .content b⟩) ∨
      ∃ before visit after, visits = before ++ visit :: after ∧ visit.Admitted ∧
        ∃ release, visit.Offered (runVisits before w) release ∧ release.version = v ∧
          b.length = release.size ∧ lib.sha256 b = release.sha256 := by
  obtain hstart | ⟨before, visit, after, hvisits, hadmitted, release, hoffer, hv, hb⟩ :=
    slots_pedigree visits w h
  · exact .inl hstart
  · have hvisit : visit ∈ visits := by simp [hvisits]
    obtain ⟨hsize, hhash⟩ := (hdownloads visit hvisit).verified hb
    exact .inr ⟨before, visit, after, hvisits, hadmitted, release, hoffer, hv, hsize, hhash⟩

namespace Service

open Artifact.Downloader (knownLibraries ranged)

/-- A product whose one release is downloaded and verified. -/
def released : Runner Service Unit :=
  { runner 1 .clean with
    source :=
      { check := fun _ => pure none
        fetch := fun _ _ => pure ⟨"2", "http://127.0.0.1/artifact",
          Artifact.Downloader.knownHash [1, 2, 3], 3⟩ }
    downloader := fun release p =>
      ((Artifact.Downloader.download knownLibraries .default (release.packed none) true ranged
        ⟨.absent, []⟩).1, p) }

theorem artifacts_verified_released :
    ∃ before visit after,
      [(⟨released, .free, (), .upgradeTo "2" .none⟩ : Visit Service Unit)] =
        before ++ visit :: after ∧ visit.Admitted ∧
        ∃ release, visit.Offered (runVisits before (installed "1")) release ∧
          release.version = "2" ∧ [1, 2, 3].length = release.size ∧
          knownLibraries.sha256 [1, 2, 3] = release.sha256 := by
  have hinstalled : (runVisits [⟨released, .free, (), .upgradeTo "2" .none⟩]
      (installed "1")).disk.slots .stable = .dir ⟨.content "2", .content [1, 2, 3]⟩ := by
    decide +kernel
  refine (artifacts_verified knownLibraries _ (fun visit hvisit release p => ?_) (installed "1")
    hinstalled).resolve_left ?_
  · rw [List.mem_singleton] at hvisit
    subst hvisit
    exact ⟨.default, none, true, ranged, ⟨.absent, []⟩, rfl⟩
  · rintro ⟨before, h⟩
    cases before <;> simp [installed] at h

end Service

end KCarrier
