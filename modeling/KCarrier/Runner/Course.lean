import KCarrier.Runner.Steps

/-!
# KCarrier.Runner.Course

The outline of the runner's engine on its directory and its host.

`Disk.Sound` says which version a recovery from the last durable intent leaves stable,
and `Disk.Rests` that nothing is left to be done.  A `Course` is what one call of the
engine is about: the version that is stable before it, the one a commit leaves, and how
many transactions were opened and committed.  `Course.On` puts an assertion about
directory and host at every point of the engine; `recoverOutline` and `upgradeOutline`
discharge the obligations of `KCarrier.Engine.Outline` for it.

What the host does is seen through a `ServiceView`; where a property does not depend on
the host, the view sees nothing.
-/

namespace KCarrier

open Crash
open Running

/-! ## the slots -/

namespace Disk

/-- No slot is anything but a directory. -/
def Regular (d : Disk) : Prop := ∀ place, d.slots place ≠ .other

/-- `v` is stable and nothing is on trial. -/
structure Rests (d : Disk) (v : String) : Prop where
  regular : d.Regular
  stable : d.version .stable = .ok (some v)
  empty : d.slots .experiment = .absent

/-- After the last intent `tail`, recovery leaves `v` stable: the candidate of an
unfinished promotion, and otherwise what is stable now. -/
structure Sound (d : Disk) (tail : Option Phase) (v : String) : Prop where
  regular : d.Regular
  pending : tail = some .promoted → d.slots .experiment ≠ .absent →
    d.version .experiment = .ok (some v)
  stable : tail ≠ some .promoted ∨ d.slots .experiment = .absent →
    d.version .stable = .ok (some v)
  empty : tail = none ∨ tail = some .idle → d.slots .experiment = .absent

/-- The other slots keep their versions. -/
@[simp] theorem version_setSlot_of_ne (d : Disk) {place p : Place} (node : Node) (h : p ≠ place) :
    (d.setSlot place node).version p = d.version p :=
  version_congr (d.setSlot_of_ne node h)

/-- A slot that is not there has no version. -/
theorem version_of_absent {d : Disk} {place : Place} (h : d.slots place = .absent) :
    d.version place = .ok none := by
  unfold Disk.version
  rw [h]

/-- A slot with a version is there. -/
theorem slots_ne_absent {d : Disk} {place : Place} {v : String}
    (h : d.version place = .ok (some v)) : d.slots place ≠ .absent := by
  intro habsent
  rw [version_of_absent habsent] at h
  cases h

/-- A slot is replaced by another directory, or by none. -/
theorem Regular.setSlot {d : Disk} (h : d.Regular) (place : Place) {node : Node}
    (hnode : node ≠ .other) : (d.setSlot place node).Regular := by
  intro p
  by_cases hp : p = place
  · rw [hp, setSlot_self]
    exact hnode
  · rw [setSlot_of_ne d node hp]
    exact h p

/-- A directory at rest is sound. -/
theorem Rests.sound {d : Disk} {v : String} (h : d.Rests v) (tail : Option Phase) :
    d.Sound tail v :=
  ⟨h.regular, fun _ hne => absurd h.empty hne, fun _ => h.stable, fun _ => h.empty⟩

/-- With nothing on trial the recovered version is the stable one. -/
theorem Sound.rests {d : Disk} {tail : Option Phase} {v : String} (h : d.Sound tail v)
    (hempty : d.slots .experiment = .absent) : d.Rests v :=
  ⟨h.regular, h.stable (.inr hempty), hempty⟩

/-- Outside a commit the candidate does not matter. -/
theorem Sound.of_stable {d : Disk} {tail : Option Phase} {v : String} (hregular : d.Regular)
    (hstable : d.version .stable = .ok (some v)) (htail : tail ≠ some .promoted)
    (hempty : tail = none ∨ tail = some .idle → d.slots .experiment = .absent) :
    d.Sound tail v :=
  ⟨hregular, fun h => absurd h htail, fun _ => hstable, hempty⟩

/-- It rests when a staging slot is replaced. -/
theorem Rests.setSlot {d : Disk} {v : String} (h : d.Rests v) {place : Place} {node : Node}
    (hnode : node ≠ .other) (hstable : place ≠ .stable) (hexp : place ≠ .experiment) :
    (d.setSlot place node).Rests v := by
  refine ⟨h.regular.setSlot place hnode, ?_, ?_⟩
  · rw [version_setSlot_of_ne d node hstable.symm]
    exact h.stable
  · rw [setSlot_of_ne d node hexp.symm]
    exact h.empty

/-- What recovery leaves is one version. -/
theorem Sound.unique {d : Disk} {tail : Option Phase} {v v' : String} (h : d.Sound tail v)
    (h' : d.Sound tail v') : v = v' := by
  have hver : ∀ {place : Place}, d.version place = .ok (some v) →
      d.version place = .ok (some v') → v = v' := fun hv hv' => by
    rw [hv] at hv'
    simpa using hv'
  by_cases hp : tail = some .promoted ∧ d.slots .experiment ≠ .absent
  · exact hver (h.pending hp.1 hp.2) (h'.pending hp.1 hp.2)
  · have hstable : tail ≠ some .promoted ∨ d.slots .experiment = .absent := by
      by_cases ht : tail = some .promoted
      · exact .inr (Classical.not_not.mp fun hne => hp ⟨ht, hne⟩)
      · exact .inl ht
    exact hver (h.stable hstable) (h'.stable hstable)

/-- Slots in the same places read the same. -/
theorem Sound.congr {d d' : Disk} {tail : Option Phase} {v : String} (h : d.Sound tail v)
    (hslots : d'.slots = d.slots) : d'.Sound tail v := by
  have hver : ∀ place, d'.version place = d.version place := fun place =>
    version_congr (by rw [hslots])
  refine ⟨fun place => ?_, fun ht hne => ?_, fun hs => ?_, fun ht => ?_⟩
  · rw [hslots]
    exact h.regular place
  · rw [hver]
    exact h.pending ht (by rwa [hslots] at hne)
  · rw [hver]
    exact h.stable (by rwa [hslots] at hs)
  · rw [hslots]
    exact h.empty ht

/-- That it rests is about the slots. -/
theorem Rests.congr {d d' : Disk} {v : String} (h : d.Rests v) (hslots : d'.slots = d.slots) :
    d'.Rests v :=
  ((h.sound none).congr hslots).rests (by rw [hslots]; exact h.empty)

end Disk

namespace FileStore

variable {η γ : Type} {s : FileStore} {J : Disk → Prop} {I : World η γ → Prop} {Blame : Prop}
  {v : String}

/-- `v` is stable, whatever is on trial. -/
def Stands (J : Disk → Prop) (v : String) (d : Disk) : Prop :=
  J d ∧ d.Regular ∧ d.version .stable = .ok (some v)

/-- The stable version stands when another slot is replaced. -/
theorem Stands.setSlot (hJ : OffSlots J) {d : Disk} (h : Stands J v d) {place : Place}
    {node : Node} (hnode : node ≠ .other) (hne : place ≠ .stable) :
    Stands J v (d.setSlot place node) := by
  refine ⟨hJ d place node h.1, h.2.1.setSlot place hnode, ?_⟩
  rw [Disk.version_setSlot_of_ne d node (Ne.symm hne)]
  exact h.2.2

/-- Removing what does not matter. -/
theorem removeDir_aside (hblame : s.faults ≠ Faults.clean → Blame) (hI : Aside I) {place : Place}
    {D : Disk → Prop} (hregular : ∀ d, D d → d.Regular)
    (hset : ∀ d node, node ≠ .other → D d → D (d.setSlot place node)) :
    Triple (Over D I) (s.removeDir place) (fun _ => Over D I) (fun _ w => Over D I w ∧ Blame) :=
  (removeDir_triple hblame hI (fun d h => hregular d h place)
    (fun d slot h => hset d _ (by simp) h) (fun d h => hset d _ (by simp) h)
    fun d h _ => h).crash fun _ h => ⟨⟨h.1.1.elim id id, h.1.2⟩, h.2⟩

/-- **Clear**: the candidate goes, the stable slot stays. -/
theorem clear_triple (hblame : s.faults ≠ Faults.clean → Blame) (hI : Aside I)
    (hJ : OffSlots J) :
    Triple (Over (Stands J v) I) s.clear (fun _ => Over (fun d => J d ∧ d.Rests v) I)
      (fun _ w => Over (Stands J v) I w ∧ Blame) := by
  have hrests : ∀ d, Stands J v d → d.slots .experiment = .absent → J d ∧ d.Rests v :=
    fun d h hempty => ⟨h.1, h.2.1, h.2.2, hempty⟩
  refine Triple.crash (removeDir_triple hblame hI (fun d h => h.2.1 _)
    (fun d slot h => h.setSlot hJ (by simp) (by simp))
    (fun d h => hrests _ (h.setSlot hJ (by simp) (by simp)) (by simp)) hrests) fun w h => ?_
  refine ⟨⟨h.1.1.elim id fun hr => ?_, h.1.2⟩, h.2⟩
  exact ⟨hr.1, hr.2.regular, hr.2.stable⟩

/-- With nothing on trial there is nothing to clear. -/
theorem clear_empty {D : Disk → Prop} (hempty : ∀ d, D d → d.slots .experiment = .absent) :
    Triple (Over D I) s.clear (fun _ => Over D I) (fun _ _ => False) := by
  unfold clear removeDir
  refine Triple.get_bind fun w hw => ?_
  rw [hempty _ hw.1]
  exact Triple.pure fun w' hw' => by rw [hw']; exact hw

/-- `v` is on trial and complete. -/
def OnTrial (J : Disk → Prop) (v : String) (d : Disk) : Prop :=
  J d ∧ d.Regular ∧ d.version .experiment = .ok (some v)

/-- A promotion of `v` is journalled; `steady`: it was carried out long ago. -/
def Committed (J : Disk → Prop) (steady : Prop) (v : String) (d : Disk) : Prop :=
  J d ∧ d.Sound (some .promoted) v ∧ (steady → d.slots .experiment = .absent)

/-- A candidate that is not to be steady may be committed. -/
theorem OnTrial.committed {d : Disk} {steady : Prop} (h : OnTrial J v d) (hno : ¬steady) :
    Committed J steady v d := by
  have hne := Disk.slots_ne_absent h.2.2
  refine ⟨h.1, ⟨h.2.1, fun _ _ => h.2.2, fun hs => ?_, fun ht => ?_⟩, fun hst => absurd hst hno⟩
  · exact absurd (hs.resolve_left (by simp)) hne
  · simp at ht

/-- A directory at rest is committed. -/
theorem committed_of_rests {d : Disk} (steady : Prop) (h : J d ∧ d.Rests v) :
    Committed J steady v d :=
  ⟨h.1, h.2.sound _, fun _ => h.2.empty⟩

/-- The backup goes. -/
theorem removeBackup_triple (hblame : s.faults ≠ Faults.clean → Blame) (hI : Aside I)
    (hJ : OffSlots J) (steady : Prop) :
    Triple (Over (fun d => J d ∧ d.Rests v) I) (s.removeDir .stableOld)
      (fun _ => Over (fun d => J d ∧ d.Rests v) I)
      (fun _ w => Over (Committed J steady v) I w ∧ Blame) :=
  Triple.crash (removeDir_aside hblame hI (fun d h => h.2.regular) fun d node hnode h =>
    ⟨hJ d _ _ h.1, h.2.setSlot hnode (by simp) (by simp)⟩)
    fun w h => ⟨⟨committed_of_rests steady h.1.1, h.1.2⟩, h.2⟩

/-- Moving the candidate to the stable slot. -/
theorem publish_triple (hblame : s.faults ≠ Faults.clean → Blame) (hI : Aside I)
    (hJ : OffSlots J) {steady : Prop} (hno : ¬steady) :
    Triple (Over (OnTrial J v) I)
      (do
        s.renameDurable .experiment .stable
        s.removeDir .stableOld) (fun _ => Over (fun d => J d ∧ d.Rests v) I)
      (fun _ w => Over (Committed J steady v) I w ∧ Blame) := by
  have hmoved : ∀ d, OnTrial J v d → J ((d.setSlot .stable (d.slots .experiment)).setSlot
      .experiment .absent) ∧ ((d.setSlot .stable (d.slots .experiment)).setSlot
        .experiment .absent).Rests v := by
    rintro d ⟨hj, hr, hv⟩
    refine ⟨hJ _ _ _ (hJ _ _ _ hj), (hr.setSlot _ (hr _)).setSlot _ (by simp), ?_, by simp⟩
    rw [Disk.version_setSlot_of_ne _ _ (by simp), ← hv]
    unfold Disk.version
    rw [Disk.setSlot_self]
  refine Triple.bind (Triple.crash (renameDurable_triple hblame hI hmoved) fun w h => ?_) fun _ =>
    removeBackup_triple hblame hI hJ steady
  refine ⟨⟨?_, h.1.2⟩, h.2⟩
  rcases h.1.1 with h | h
  · exact h.committed hno
  · exact committed_of_rests steady h

/-- An older backup goes while the candidate waits. -/
theorem dropBackup_triple (hblame : s.faults ≠ Faults.clean → Blame) (hI : Aside I)
    (hJ : OffSlots J) {steady : Prop} (hno : ¬steady) :
    Triple (Over (OnTrial J v) I) (s.removeDir .stableOld) (fun _ => Over (OnTrial J v) I)
      (fun _ w => Over (Committed J steady v) I w ∧ Blame) := by
  refine Triple.crash (removeDir_aside hblame hI (fun d h => h.2.1) fun d node hnode h => ?_)
    fun w h => ⟨⟨h.1.1.committed hno, h.1.2⟩, h.2⟩
  refine ⟨hJ d _ _ h.1, h.2.1.setSlot _ hnode, ?_⟩
  rw [Disk.version_setSlot_of_ne d node (by simp)]
  exact h.2.2

/-- What is stable becomes the backup. -/
theorem setBackup_triple (hblame : s.faults ≠ Faults.clean → Blame) (hI : Aside I)
    (hJ : OffSlots J) {steady : Prop} (hno : ¬steady) :
    Triple (Over (OnTrial J v) I) (s.renameDurable .stable .stableOld)
      (fun _ => Over (OnTrial J v) I) (fun _ w => Over (Committed J steady v) I w ∧ Blame) := by
  have hmove : ∀ d, OnTrial J v d →
      OnTrial J v ((d.setSlot .stableOld (d.slots .stable)).setSlot .stable .absent) := by
    intro d h
    refine ⟨hJ _ _ _ (hJ _ _ _ h.1), (h.2.1.setSlot _ (h.2.1 _)).setSlot _ (by simp), ?_⟩
    rw [Disk.version_setSlot_of_ne _ _ (by simp), Disk.version_setSlot_of_ne _ _ (by simp)]
    exact h.2.2
  exact (renameDurable_triple hblame hI hmove).crash
    fun w h => ⟨⟨(h.1.1.elim id id).committed hno, h.1.2⟩, h.2⟩

/-- Whether there is a candidate left to promote. -/
theorem findCandidate_triple (steady : Prop) :
    Triple (Over (Committed J steady v) I) (readDisk (Disk.version · .experiment))
      (fun found w => match found with
        | none => Over (fun d => J d ∧ d.Rests v) I w
        | some _ => ¬steady ∧ Over (OnTrial J v) I w)
      (fun _ w => Over (Committed J steady v) I w ∧ Blame) := by
  refine Triple.of_forall fun w ⟨⟨hj, hs, hsteady⟩, hi⟩ => ?_
  by_cases hempty : w.disk.slots .experiment = .absent
  · have hv := Disk.version_of_absent hempty
    refine readDisk_triple (fun a w' hw' h => ?_) fun e w' hw' h => ?_
    · rw [hw', hv] at h
      cases h
      rw [hw']
      exact ⟨⟨hj, hs.rests hempty⟩, hi⟩
    · rw [hw', hv] at h
      cases h
  · have hv := hs.pending rfl hempty
    refine readDisk_triple (fun a w' hw' h => ?_) fun e w' hw' h => ?_
    · rw [hw', hv] at h
      cases h
      rw [hw']
      exact ⟨fun hst => hempty (hsteady hst), ⟨hj, hs.regular, hv⟩, hi⟩
    · rw [hw', hv] at h
      cases h

/-- **Promote**: cut off anywhere, recovery still leaves the candidate stable; once it
returned, the candidate is. -/
theorem promote_triple (hblame : s.faults ≠ Faults.clean → Blame) (hI : Aside I)
    (hJ : OffSlots J) (steady : Prop) :
    Triple (Over (Committed J steady v) I) s.promote (fun _ => Over (fun d => J d ∧ d.Rests v) I)
      (fun _ w => Over (Committed J steady v) I w ∧ Blame) := by
  unfold promote
  refine Triple.bind (findCandidate_triple steady) fun found => ?_
  cases found with
  | none =>
      have hstable : Triple (Over (fun d => J d ∧ d.Rests v) I)
          (readDisk (Disk.version · .stable))
          (fun found w => found = some v ∧ Over (fun d => J d ∧ d.Rests v) I w)
          (fun _ w => Over (Committed J steady v) I w ∧ Blame) := by
        refine readDisk_triple (fun a w hw h => ?_) fun e w hw h => ?_
        · rw [hw.1.2.stable] at h
          cases h
          exact ⟨rfl, hw⟩
        · rw [hw.1.2.stable] at h
          cases h
      refine Triple.bind hstable fun found => Triple.assume fun hfound => ?_
      subst hfound
      exact removeBackup_triple hblame hI hJ steady
  | some found =>
      refine Triple.assume fun hno => Triple.get_bind fun w hw => ?_
      refine Triple.pre (P := Over (OnTrial J v) I) ?_ fun w' hw' => by rw [hw']; exact hw
      have hpublish := publish_triple (s := s) (v := v) hblame hI hJ hno
      refine Triple.ite (fun _ => ?_) fun _ => hpublish
      refine Triple.bind (dropBackup_triple hblame hI hJ hno) fun _ => ?_
      exact Triple.bind (setBackup_triple hblame hI hJ hno) fun _ => hpublish

/-- What `populate` leaves in a staging directory. -/
theorem populate_triple (hI : Aside I) (hJ : OffSlots J) (version : String) (bytes : Path) :
    Triple (Over (Stands J v) I) (s.populate .experimentStaging version bytes)
      (fun _ => Over (fun d => Stands J v d ∧
        d.version .experimentStaging = .ok (some (trim version))) I)
      (fun _ => Over (Stands J v) I) := by
  have hset : ∀ {label : String} {slot : SlotDir}, Triple (Over (Stands J v) I)
      (s.write label fun disk => disk.setSlot .experimentStaging (.dir slot))
      (fun _ => Over (Stands J v) I) (fun _ => Over (Stands J v) I) :=
    write_clean_keeps hI fun d hd => hd.setSlot hJ (by simp) (by simp)
  unfold populate
  refine Triple.ite (fun _ => Triple.throw fun _ h => h) fun hversion => ?_
  refine Triple.bind (Triple.crash (removeDir_aside (fun _ => trivial : _ → True) hI
    (fun d h => h.2.1) fun d node hnode h => h.setSlot hJ hnode (by simp)) fun _ h => h.1) fun _ => ?_
  refine Triple.bind hset fun _ => Triple.get_bind fun w hw => ?_
  have hstart : ∀ w', w' = w → Over (Stands J v) I w' := fun w' h => by rw [h]; exact hw
  refine Triple.bind (R := fun _ => Over (Stands J v) I) (Triple.ofExcept
    (fun _ w' _ h => hstart w' h) fun _ w' _ h => hstart w' h) fun source => ?_
  refine Triple.bind hset fun _ => Triple.bind hset fun _ => ?_
  refine Triple.crash (write_triple (fun _ => trivial : _ → True) hI fun d h => ?_)
    fun w h => ⟨h.1.1.elim id And.left, h.1.2⟩
  refine ⟨h.setSlot hJ (by simp) (by simp), ?_⟩
  simp [Disk.version, File.read, hversion]

/-- **Stage**: cut off anywhere the stable slot stands; once it returned, the candidate is
complete. -/
theorem stage_triple (hI : Aside I) (hJ : OffSlots J) (version : String) (bytes : Path) :
    Triple (Over (Stands J v) I) (s.stage version bytes)
      (fun _ => Over (fun d => Stands J v d ∧
        d.version .experiment = .ok (some (trim version))) I)
      (fun _ => Over (Stands J v) I) := by
  unfold stage
  refine Triple.bind (populate_triple hI hJ version bytes) fun _ => ?_
  refine Triple.bind (R := fun _ => Over (fun d => Stands J v d ∧
    d.version .experimentStaging = .ok (some (trim version))) I) ?_ fun _ => ?_
  · refine Triple.crash (removeDir_aside (fun _ => trivial : _ → True) hI
      (fun d h => h.1.2.1) fun d node hnode h => ?_) fun w h => ⟨h.1.1.1, h.1.2⟩
    refine ⟨h.1.setSlot hJ hnode (by simp), ?_⟩
    rw [Disk.version_setSlot_of_ne d node (by simp)]
    exact h.2
  · refine Triple.crash (renameDurable_triple (fun _ => trivial : _ → True) hI
      fun d h => ?_) fun w h => ⟨h.1.1.elim And.left And.left, h.1.2⟩
    refine ⟨(h.1.setSlot hJ (h.1.2.1 _) (by simp)).setSlot hJ (by simp) (by simp), ?_⟩
    rw [Disk.version_setSlot_of_ne _ _ (by simp), ← h.2]
    unfold Disk.version
    rw [Disk.setSlot_self]

end FileStore

/-! ## the host -/

/-- What is looked at in the state of a host: which version a live process serves,
whether nothing runs, and whether its work is taken up. -/
structure ServiceView (η : Type) where
  serves : String → η → Prop
  stopped : η → Prop
  unparked : η → Prop

namespace ServiceView

variable {η : Type}

/-- The view that sees nothing. -/
def blind : ServiceView η := ⟨fun _ _ => True, fun _ => True, fun _ => True⟩

/-- What `h` showed, `h'` shows. -/
def Same (V : ServiceView η) (h h' : η) : Prop :=
  (∀ v, V.serves v h → V.serves v h') ∧ (V.unparked h → V.unparked h')

/-- What the host owes after the last intent `tail` for a recovery to end in `v`: where no
step of the recovery restarts the service, it runs already. -/
def Sound (V : ServiceView η) : Option Phase → String → η → Prop
  | none, v, h | some .idle, v, h | some .staged, v, h => V.serves v h ∧ V.unparked h
  | some .promoted, v, h => V.serves v h
  | some .handingOver, _, _ | some .runningExperiment, _, _ | some .readback, _, _
  | some .rolledBack, _, _ => True

/-- A service that serves and is not parked is sound. -/
theorem sound_of_serving {V : ServiceView η} {tail : Option Phase} {v : String} {h : η}
    (hserves : V.serves v h) (hunparked : V.unparked h) : V.Sound tail v h := by
  unfold ServiceView.Sound
  split
  · exact ⟨hserves, hunparked⟩
  · exact ⟨hserves, hunparked⟩
  · exact ⟨hserves, hunparked⟩
  · exact hserves
  · trivial
  · trivial
  · trivial
  · trivial

/-- Soundness is about what the view shows. -/
theorem Sound.same {V : ServiceView η} {tail : Option Phase} {v : String} {h h' : η}
    (hs : V.Sound tail v h) (hsame : V.Same h h') : V.Sound tail v h' := by
  cases tail with
  | none => exact ⟨hsame.1 v hs.1, hsame.2 hs.2⟩
  | some p =>
      cases p with
      | idle => exact ⟨hsame.1 v hs.1, hsame.2 hs.2⟩
      | staged => exact ⟨hsame.1 v hs.1, hsame.2 hs.2⟩
      | promoted => exact hsame.1 v hs
      | _ => exact True.intro

/-- The host controls the service: what each call does to what is seen of it.  A call
that does not answer is to be blamed. -/
structure Controlled (V : ServiceView η) (host : Disk → Host η) (Blame : Prop) : Prop where
  fence : ∀ d h, Ends (fun reply h' => (reply = none → Blame) ∧ V.Same h h')
    (fun _ h' => V.Same h h' ∧ Blame) ((host d).fence h)
  stop : ∀ d slot h, Ends
    (fun reply h' => (reply = none → Blame) ∧ V.stopped h' ∧ (V.unparked h → V.unparked h'))
    (fun _ h' => V.stopped h' ∧ (V.unparked h → V.unparked h') ∧ Blame) ((host d).stop slot h)
  start : ∀ d slot version h, d.version slot.place = .ok (some version) → V.stopped h → Ends
    (fun reply h' => (reply = none → Blame) ∧ V.serves version h' ∧ (V.unparked h → V.unparked h'))
    (fun _ h' => V.serves version h' ∧ (V.unparked h → V.unparked h') ∧ Blame)
    ((host d).start slot h)
  probe : ∀ d h, V.Same h ((host d).probe h).2
  resume : ∀ d h, Ends
    (fun reply h' => (reply = none → Blame) ∧ V.unparked h' ∧ ∀ v, V.serves v h → V.serves v h')
    (fun _ h' => V.unparked h' ∧ (∀ v, V.serves v h → V.serves v h') ∧ Blame)
    ((host d).resume h)

/-- A call about which nothing is said. -/
theorem ends_of_forall {α : Type} {Q : α → η → Prop} {F : Option Error → η → Prop}
    (hQ : ∀ a h, Q a h) (hF : ∀ e h, F e h) (o : Res Error α × η) : Ends Q F o := by
  obtain ⟨o, h⟩ := o
  cases o with
  | ok a => exact hQ a h
  | err e => exact hF _ h
  | crash => exact hF _ h

/-- Whoever sees nothing finds every host in order. -/
theorem blind_controlled (host : Disk → Host η) : blind.Controlled host True where
  fence _ _ := ends_of_forall (fun _ _ => by simp [blind, Same]) (fun _ _ => by simp [blind, Same]) _
  stop _ _ _ := ends_of_forall (fun _ _ => by simp [blind]) (fun _ _ => by simp [blind]) _
  start _ _ _ _ _ _ := ends_of_forall (fun _ _ => by simp [blind]) (fun _ _ => by simp [blind]) _
  probe _ _ := by simp [blind, Same]
  resume _ _ := ends_of_forall (fun _ _ => by simp [blind]) (fun _ _ => by simp [blind]) _

end ServiceView

/-! ## the assertions -/

/-- How many transactions a journal opened. -/
def opensOf (entries : List JournalEntry) : Nat := entries.countP fun e => e.intent == .staged

/-- How many it committed. -/
def commitsOf (entries : List JournalEntry) : Nat := entries.countP fun e => e.intent == .promoted

/-- A staged intent opens one transaction more. -/
theorem opensOf_concat (entries : List JournalEntry) (e : JournalEntry) :
    opensOf (entries ++ [e]) = opensOf entries + if e.intent = .staged then 1 else 0 := by
  simp [opensOf, List.countP_append, List.countP_singleton]

/-- A promoted intent commits one more. -/
theorem commitsOf_concat (entries : List JournalEntry) (e : JournalEntry) :
    commitsOf (entries ++ [e]) = commitsOf entries + if e.intent = .promoted then 1 else 0 := by
  simp [commitsOf, List.countP_append, List.countP_singleton]

/-- The points before a transaction is opened. -/
def Point.early : Point → Bool
  | .entry | .opened _ | .fenced _ | .rest none | .surveyed _ | .probed _ _ => true
  | _ => false

/-- The points after the promoted intent. -/
def Point.promoting : Point → Bool
  | .committed | .published | .rest (some .promoted) => true
  | _ => false

/-- What one call of the engine is about. -/
structure Course where
  /-- the call is a recovery -/
  recovers : Prop
  /-- what recovery would leave stable before anything is opened -/
  pending : String
  /-- what is stable until a commit -/
  before : String
  /-- what a commit leaves stable -/
  after : String
  /-- the last transaction was finished, and nothing was touched since -/
  steady : Prop
  /-- nothing is on trial when a transaction is opened -/
  vacant : Prop
  /-- the last transaction was committed, and no other is opened -/
  sealed : Prop
  opened : Nat
  opening : Nat
  committed : Nat
  committing : Nat

namespace Course

variable {η γ : Type}

def opens (k : Course) (p : Point) : Nat := if p.early then k.opened else k.opening

def commits (k : Course) (p : Point) : Nat := if p.promoting then k.committing else k.committed

def Journal (k : Course) (p : Point) (entries : List JournalEntry) : Prop :=
  p.Tail (lastIntent entries) ∧ opensOf entries = k.opens p ∧ commitsOf entries = k.commits p ∧
    (k.sealed → lastIntent entries = some .promoted) ∧
    (k.steady → ∀ p, lastIntent entries = some p → p.atRest = true)

/-- The slots at each point, `tail` being the last intent. -/
def Slots (k : Course) : Point → Option Phase → Disk → Prop
  | .entry, tail, d | .opened _, tail, d | .fenced _, tail, d =>
      d.Sound tail k.pending ∧ k.recovers ∧
        (k.steady → d.slots .experiment = .absent ∧ ∀ p, tail = some p → p.atRest = true)
  | .rest none, tail, d =>
      d.Sound tail k.pending ∧ (k.vacant → d.slots .experiment = .absent) ∧
        ∀ v, d.version .stable = .ok (some v) → v = k.before
  | .surveyed stable, tail, d | .probed stable _, tail, d =>
      d.Sound tail k.pending ∧ (k.vacant → d.slots .experiment = .absent) ∧
        d.version .stable = .ok (some stable) ∧ stable = k.before
  | .rest (some .promoted), tail, d => tail = some .promoted ∧ d.Rests k.after
  | .rest (some _), tail, d => tail = some .rolledBack ∧ d.Rests k.before
  | .staged _, _, d => d.Regular ∧ d.version .stable = .ok (some k.before)
  | .prepared _, _, d | .handing _, _, d | .quiesced _, _, d | .stopped _, _, d
  | .started _, _, d | .running _, _, d | .live _ _, _, d | .readback _ _, _, d
  | .fresh _ _, _, d | .accepted _ _, _, d =>
      (d.Regular ∧ d.version .stable = .ok (some k.before)) ∧
        d.version .experiment = .ok (some k.after)
  | .committed, _, d =>
      d.Sound (some .promoted) k.after ∧ (k.steady → d.slots .experiment = .absent)
  | .published, _, d => d.Rests k.after
  | .rolling, _, d | .rollStopped, _, d | .rollStarted, _, d =>
      (d.Regular ∧ d.version .stable = .ok (some k.before)) ∧
        (k.steady → d.slots .experiment = .absent) ∧
        (¬k.recovers → d.slots .experiment ≠ .absent)
  | .restored, _, d =>
      (d.Regular ∧ d.version .stable = .ok (some k.before)) ∧
        (k.steady → d.slots .experiment = .absent)

/-- The service at each point. -/
def Hosts (k : Course) (V : ServiceView η) : Point → Option Phase → η → Prop
  | .entry, tail, h | .opened _, tail, h | .fenced _, tail, h =>
      V.Sound tail k.pending h ∧ (k.steady → V.serves k.before h ∧ V.unparked h)
  | .rest none, _, h | .surveyed _, _, h | .probed _ _, _, h =>
      V.serves k.pending h ∧ V.unparked h
  | .rest (some .promoted), _, h => V.serves k.after h ∧ V.unparked h
  | .rest (some _), _, h | .staged _, _, h | .prepared _, _, h | .restored, _, h =>
      V.serves k.before h ∧ V.unparked h
  | .handing _, _, _ | .quiesced _, _, _ => True
  | .stopped _, _, h => V.stopped h
  | .started _, _, h | .running _, _, h | .live _ _, _, h | .readback _ _, _, h
  | .fresh _ _, _, h | .accepted _ _, _, h => V.serves k.after h
  | .committed, _, h | .published, _, h => V.serves k.after h ∧ (k.steady → V.unparked h)
  | .rolling, _, h => k.steady → V.serves k.before h ∧ V.unparked h
  | .rollStopped, _, h => V.stopped h ∧ (k.steady → V.unparked h)
  | .rollStarted, _, h => V.serves k.before h ∧ (k.steady → V.unparked h)

/-- Journal, slots and service at the point `p`. -/
def At (k : Course) (V : ServiceView η) (p : Point) (entries : List JournalEntry)
    (w : World η γ) : Prop :=
  k.Journal p entries ∧ w.disk.readJournal = .ok entries ∧
    k.Slots p (lastIntent entries) w.disk ∧ k.Hosts V p (lastIntent entries) w.host

/-- The assertion of the outline: the engine also goes on where the journal ends. -/
def On (k : Course) (V : ServiceView η) (p : Point) (s : Running (World η γ)) : Prop :=
  ∃ entries, (p ≠ .entry → s.seq = nextSeq entries) ∧ k.At V p entries s.world

/-- The engine was cut off somewhere. -/
def Cut (k : Course) (V : ServiceView η) (w : World η γ) : Prop :=
  ∃ p entries, k.At V p entries w

/-- The crash condition of the outline. -/
def Failed (k : Course) (V : ServiceView η) (Blame : Prop) (_ : Option Error)
    (s : Running (World η γ)) : Prop :=
  k.Cut V s.world ∧ Blame

/-- What a point says of the slots is about the slots. -/
theorem slots_congr {k : Course} {p : Point} {tail : Option Phase} {d d' : Disk}
    (h : k.Slots p tail d) (hslots : d'.slots = d.slots) : k.Slots p tail d' := by
  have hver : ∀ place, d'.version place = d.version place := fun place =>
    Disk.version_congr (by rw [hslots])
  have hregular : d.Regular → d'.Regular := fun hr place => by
    rw [hslots]
    exact hr place
  unfold Slots at h ⊢
  split at h
  all_goals first
    | exact h.congr hslots
    | exact ⟨h.1, h.2.congr hslots⟩
    | rw [hslots, hver]; exact ⟨h.1.congr hslots, h.2⟩
    | rw [hslots]; exact ⟨h.1.congr hslots, h.2⟩
    | rw [hver]; exact ⟨hregular h.1, h.2⟩
    | rw [hver, hver]; exact ⟨⟨hregular h.1.1, h.1.2⟩, h.2⟩
    | rw [hver, hslots]; exact ⟨⟨hregular h.1.1, h.1.2⟩, h.2⟩

/-- It is not about the journal. -/
theorem slots_offJournal (k : Course) (p : Point) (tail : Option Phase) :
    FileStore.OffJournal (k.Slots p tail) :=
  fun _ _ h => slots_congr h rfl

/-! ## from point to point -/

section Steps

variable {r : Runner η γ} {V : ServiceView η} {k : Course} {Blame : Prop} {p q : Point}

/-- A point is somewhere to be cut off at. -/
theorem At.cut {entries : List JournalEntry} {w : World η γ} (h : k.At V p entries w) :
    k.Cut V w :=
  ⟨p, entries, h⟩

/-- So is a running engine at a point. -/
theorem On.cut {s : Running (World η γ)} (h : k.On V p s) : k.Cut V s.world := by
  obtain ⟨entries, -, hat⟩ := h
  exact hat.cut

/-- An open transaction that was not committed goes back to the stable slot. -/
theorem sound_of_open {d : Disk} {v : String} {tail : Option Phase} {phase : Phase}
    (h : d.Regular ∧ d.version .stable = .ok (some v)) (htail : tail = some phase)
    (hphase : phase ≠ .promoted ∧ phase ≠ .idle) : d.Sound tail v := by
  refine Disk.Sound.of_stable h.1 h.2 (by simp [htail, hphase.1]) fun hempty => ?_
  simp [htail, hphase.2] at hempty

/-- **Wherever the engine is, recovery has a version to end in**: the one that was pending or
stable before, or after the commit the new one. -/
theorem At.sound {entries : List JournalEntry} {w : World η γ} (h : k.At V p entries w) :
    ∃ v, w.disk.Sound (lastIntent entries) v ∧ V.Sound (lastIntent entries) v w.host ∧
      (v = k.pending ∨ v = k.before ∨
        p.promoting = true ∧ lastIntent entries = some .promoted ∧ v = k.after) := by
  obtain ⟨⟨htail, -⟩, -, hs, hh⟩ := h
  have hserving : ∀ {v}, V.serves v w.host ∧ V.unparked w.host →
      V.Sound (lastIntent entries) v w.host := fun h => ServiceView.sound_of_serving h.1 h.2
  have hopen : ∀ phase, w.disk.Regular ∧ w.disk.version .stable = .ok (some k.before) →
      lastIntent entries = some phase → phase ≠ .promoted ∧ phase ≠ .idle →
      V.Sound (lastIntent entries) k.before w.host →
      ∃ v, w.disk.Sound (lastIntent entries) v ∧ V.Sound (lastIntent entries) v w.host ∧
        (v = k.pending ∨ v = k.before ∨
          p.promoting = true ∧ lastIntent entries = some .promoted ∧ v = k.after) :=
    fun phase hstable ht hphase hv =>
      ⟨_, sound_of_open hstable ht hphase, hv, .inr (.inl rfl)⟩
  cases p with
  | entry | opened tail | fenced tail => exact ⟨_, hs.1, hh.1, .inl rfl⟩
  | surveyed stable | probed stable prior => exact ⟨_, hs.1, hserving hh, .inl rfl⟩
  | rest ended =>
      cases ended with
      | none => exact ⟨_, hs.1, hserving hh, .inl rfl⟩
      | some phase =>
          cases phase with
          | promoted =>
              exact ⟨_, hs.2.sound _, hserving hh, .inr (.inr ⟨rfl, hs.1, rfl⟩)⟩
          | _ => exact ⟨_, hs.2.sound _, hserving hh, .inr (.inl rfl)⟩
  | staged prior => exact hopen _ hs htail (by simp) (hserving hh)
  | prepared prior => exact hopen _ hs.1 htail (by simp) (hserving hh)
  | handing prior | quiesced prior | stopped prior | started prior =>
      have htail : lastIntent entries = some .handingOver := htail
      exact hopen _ hs.1 htail (by simp) (by rw [htail]; trivial)
  | running prior | live prior evidence =>
      have htail : lastIntent entries = some .runningExperiment := htail
      exact hopen _ hs.1 htail (by simp) (by rw [htail]; trivial)
  | readback prior evidence | fresh prior evidence | accepted prior evidence =>
      have htail : lastIntent entries = some .readback := htail
      exact hopen _ hs.1 htail (by simp) (by rw [htail]; trivial)
  | committed =>
      have htail : lastIntent entries = some .promoted := htail
      rw [htail]
      exact ⟨_, hs.1, hh.1, .inr (.inr ⟨rfl, rfl, rfl⟩)⟩
  | published =>
      have htail : lastIntent entries = some .promoted := htail
      rw [htail]
      exact ⟨_, hs.sound _, hh.1, .inr (.inr ⟨rfl, rfl, rfl⟩)⟩
  | rolling | rollStopped | rollStarted | restored =>
      have htail : lastIntent entries = some .rolledBack := htail
      exact hopen _ hs.1 htail (by simp) (by rw [htail]; trivial)

/-- Points with the same assertion. -/
theorem On.imp {s : Running (World η γ)} (h : k.On V p s) (hp : p ≠ .entry)
    (hjournal : ∀ es, k.Journal p es → k.Journal q es)
    (hslots : ∀ tail d, p.Tail tail → k.Slots p tail d → k.Slots q tail d)
    (hhosts : ∀ tail h, p.Tail tail → k.Hosts V p tail h → k.Hosts V q tail h) :
    k.On V q s := by
  obtain ⟨entries, hseq, hj, hread, hs, hh⟩ := h
  exact ⟨entries, fun _ => hseq hp, hjournal entries hj, hread, hslots _ _ hj.1 hs,
    hhosts _ _ hj.1 hh⟩

/-- A call of the host between two points. -/
theorem host_step {α : Type} (hblame : r.store.faults ≠ Faults.clean → Blame) (hp : p ≠ .entry)
    (name label : String) (call : Host η → Prog Error η (Option α))
    (hjournal : ∀ es, k.Journal p es → k.Journal q es)
    (hslots : ∀ tail d, p.Tail tail → k.Slots p tail d → k.Slots q tail d)
    (hrun : ∀ tail d h, p.Tail tail → k.Slots p tail d → k.Hosts V p tail h →
      Ends (fun reply h' => (reply = none → Blame) ∧ k.Hosts V q tail h')
        (fun _ h' => (k.Hosts V p tail h' ∨ k.Hosts V q tail h') ∧ Blame)
        (call (r.host d) h)) :
    Triple (k.On V p) (Engine.bounded label (r.hostCall name call))
      (fun _ => k.On V q) (k.Failed V Blame) := by
  refine Triple.exists_pre fun entries => Triple.of_forall fun s ⟨hseq, hj, hread, hs, hh⟩ => ?_
  let D : Disk → Prop := fun d => d.readJournal = .ok entries ∧ k.Slots p (lastIntent entries) d
  let I : World η γ → Prop := fun w => k.Hosts V p (lastIntent entries) w.host
  let J : World η γ → Prop := fun w => k.Hosts V q (lastIntent entries) w.host
  have hcall : Triple (Over D I) (r.hostCall name call)
      (fun reply w => (reply = none → Blame) ∧ Over D J w)
      (fun _ w => (Over D I w ∨ Over D J w) ∧ Blame) := by
    refine Runner.hostCall_triple hblame (fun _ _ _ h => h) (fun _ _ _ h => h) (fun _ h => h) ?_
    intro w hw
    have hends := hrun _ w.disk w.host hj.1 hw.1.2 hw.2
    unfold Runner.hostRun
    generalize call (r.host w.disk) w.host = o at hends ⊢
    obtain ⟨o, h⟩ := o
    cases o with
    | ok reply => exact ⟨hends.1, hw.1, hends.2⟩
    | err e => exact ⟨hends.1.imp (fun h => ⟨hw.1, h⟩) fun h => ⟨hw.1, h⟩, hends.2⟩
    | crash => exact ⟨hends.1.imp (fun h => ⟨hw.1, h⟩) fun h => ⟨hw.1, h⟩, hends.2⟩
  have hat : ∀ w, Over D I w → k.At V p entries w := fun w h => ⟨hj, h.1.1, h.1.2, h.2⟩
  have hat' : ∀ w, Over D J w → k.At V q entries w := fun w h =>
    ⟨hjournal entries hj, h.1.1, hslots _ _ hj.1 h.1.2, h.2⟩
  have hfail : ∀ w, Over D J w ∧ Blame → k.Cut V w ∧ Blame := fun w h => ⟨(hat' w h.1).cut, h.2⟩
  have hreply : Triple (Over D I) (r.hostCall name call)
      (fun reply w => (reply = none → k.Cut V w ∧ Blame) ∧ Over D J w)
      (fun _ w => k.Cut V w ∧ Blame) :=
    hcall.conseq (fun _ h => h) (fun _ w h => ⟨fun hnone => hfail w ⟨h.2, h.1 hnone⟩, h.2⟩)
      fun _ w h => ⟨h.1.elim (fun h => (hat w h).cut) fun h => (hat' w h).cut, h.2⟩
  refine (Runner.bounded_triple hreply s.seq).conseq (fun s' h => ?_) (fun _ s' h => ?_) fun _ _ h => h
  · rw [h]
    exact ⟨rfl, ⟨hread, hs⟩, hh⟩
  · exact ⟨entries, fun _ => h.1.trans (hseq hp), hat' _ h.2⟩

/-- A store program between two points. -/
theorem disk_step (hp : p ≠ .entry) {m : Prog Error (World η γ) Unit}
    (hjournal : ∀ es, k.Journal p es → k.Journal q es)
    (hhosts : ∀ tail h, p.Tail tail → k.Hosts V p tail h → k.Hosts V q tail h)
    (hm : ∀ tail (J : Disk → Prop) (I : World η γ → Prop), p.Tail tail → FileStore.OffSlots J →
      Aside I → Triple (Over (fun d => J d ∧ k.Slots p tail d) I) m
        (fun _ => Over (fun d => J d ∧ k.Slots q tail d) I)
        (fun _ w => Over (fun d => J d ∧ k.Slots p tail d) I w ∧ Blame)) :
    Triple (k.On V p) (lift m) (fun _ => k.On V q) (k.Failed V Blame) := by
  refine Triple.exists_pre fun entries => Triple.of_forall fun s ⟨hseq, hj, hread, hs, hh⟩ => ?_
  have hm' := hm _ (fun d => d.readJournal = .ok entries)
    (fun w => k.Hosts V p (lastIntent entries) w.host) hj.1 (fun _ _ _ h => h) fun _ _ _ h => h
  refine (Runner.lift_triple hm' s.seq).conseq (fun s' h => ?_) (fun _ s' h => ?_) fun _ s' h => ?_
  · rw [h]
    exact ⟨rfl, ⟨hread, hs⟩, hh⟩
  · exact ⟨entries, fun _ => h.1.trans (hseq hp), hjournal entries hj, h.2.1.1, h.2.1.2,
      hhosts _ _ hj.1 h.2.2⟩
  · exact ⟨At.cut ⟨hj, h.1.1.1, h.1.1.2, h.1.2⟩, h.2⟩

/-- An intent between two points. -/
theorem journal_step (hblame : r.store.faults ≠ Faults.clean → Blame) (hp : p ≠ .entry)
    (c : Convergence (World η γ)) (intent : Phase) (detail : Detail)
    (hjournal : ∀ es (e : JournalEntry), e.intent = intent → k.Journal p es →
      k.Journal q (es ++ [e]))
    (hslots : ∀ tail d, p.Tail tail → k.Slots p tail d → k.Slots q (some intent) d)
    (hhosts : ∀ tail h, p.Tail tail → k.Hosts V p tail h → k.Hosts V q (some intent) h) :
    Triple (k.On V p) ((r.engine c).journal intent detail) (fun _ => k.On V q)
      (k.Failed V Blame) := by
  refine Triple.exists_pre fun es => Triple.of_forall fun s ⟨hseq, hj, hread, hs, hh⟩ => ?_
  have hI : Aside fun w : World η γ => k.Hosts V p (lastIntent es) w.host := fun _ _ _ h => h
  have hadd := Runner.journal_entries_triple hblame hI
    (slots_offJournal k p (lastIntent es)) c es intent detail
  have hat : ∀ {w : World η γ} {entry : JournalEntry}, entry.intent = intent →
      Over (fun d => d.readJournal = .ok (es ++ [entry]) ∧ k.Slots p (lastIntent es) d)
        (fun w => k.Hosts V p (lastIntent es) w.host) w → k.At V q (es ++ [entry]) w := by
    intro w entry he h
    refine ⟨hjournal es entry he hj, h.1.1, ?_, ?_⟩
    · rw [lastIntent_concat, he]
      exact hslots _ _ hj.1 h.1.2
    · rw [lastIntent_concat, he]
      exact hhosts _ _ hj.1 h.2
  refine hadd.conseq (fun s' h => ?_) (fun _ s' h => ?_) fun _ s' h => ?_
  · rw [h]
    exact ⟨hseq hp, ⟨hread, hs⟩, hh⟩
  · obtain ⟨entry, he, hn, ho⟩ := h
    exact ⟨_, fun _ => hn, hat he ho⟩
  · obtain ⟨⟨entry, he, ⟨hread', hs'⟩, hh'⟩, hb⟩ := h
    refine ⟨?_, hb⟩
    rcases hread' with hread' | hread'
    · exact At.cut ⟨hj, hread', hs', hh'⟩
    · exact (hat he ⟨⟨hread', hs'⟩, hh'⟩).cut

/-! ## recovery -/

/-- The course of a recovery that is to end in `v`. -/
def recovery (v : String) (steady sealed : Prop) (opened committed : Nat) : Course where
  recovers := True
  pending := v
  before := v
  after := v
  steady := steady
  vacant := True
  sealed := sealed
  opened := opened
  opening := opened
  committed := committed
  committing := committed

/-- Recovery opens and commits nothing. -/
theorem recovery_opens (v : String) (steady sealed : Prop) (n m : Nat) (p : Point) :
    (recovery v steady sealed n m).opens p = n := by
  unfold opens
  split <;> rfl

/-- A recovery commits nothing. -/
theorem recovery_commits (v : String) (steady sealed : Prop) (n m : Nat) (p : Point) :
    (recovery v steady sealed n m).commits p = m := by
  unfold commits
  split <;> rfl

/-- A recovery's points differ in the tail alone. -/
theorem recovery_journal {v : String} {steady sealed : Prop} {n m : Nat} {es : List JournalEntry}
    (htail : p.Tail (lastIntent es) → q.Tail (lastIntent es))
    (h : (recovery v steady sealed n m).Journal p es) :
    (recovery v steady sealed n m).Journal q es := by
  obtain ⟨ht, ho, hc, hlast⟩ := h
  rw [recovery_opens] at ho
  rw [recovery_commits] at hc
  exact ⟨htail ht, by rw [recovery_opens, ho], by rw [recovery_commits, hc], hlast⟩

/-- It journals nothing but the rollback. -/
theorem recovery_journal_concat {v : String} {steady sealed : Prop} {n m : Nat}
    {es : List JournalEntry} {e : JournalEntry} (he : e.intent = .rolledBack)
    (hp : ¬p.Tail (some .promoted)) (hq : q.Tail (some .rolledBack))
    (h : (recovery v steady sealed n m).Journal p es) :
    (recovery v steady sealed n m).Journal q (es ++ [e]) := by
  obtain ⟨ht, ho, hc, hsealed, -⟩ := h
  rw [recovery_opens] at ho
  rw [recovery_commits] at hc
  have htail : lastIntent (es ++ [e]) = some .rolledBack := by rw [lastIntent_concat, he]
  refine ⟨by rwa [htail], ?_, ?_, fun hs => ?_, fun _ p hp => ?_⟩
  · rw [opensOf_concat, recovery_opens, he, ho]
    rfl
  · rw [commitsOf_concat, recovery_commits, he, hc]
    rfl
  · rw [hsealed hs] at ht
    exact absurd ht hp
  · rw [htail] at hp
    cases hp
    rfl

/-! ## the outlines -/

section Outlines

variable (hblame : r.store.faults ≠ Faults.clean → Blame) (hhost : V.Controlled r.host Blame)
  (k : Course) (c : Convergence (World η γ))

include hblame hhost

/-- **A rollback** follows the course. -/
theorem rollbackOutline : RollbackOutline (r.engine c) (k.On V) (k.Failed V Blame) where
  stop := by
    refine host_step hblame (by simp) "stop" "stop" (fun h => h.stop .experiment)
      (fun _ h => h) (fun _ _ _ h => h) fun tail d h _ _ hh => ?_
    refine (hhost.stop d .experiment h).mono (fun reply h' hr => ?_) fun e h' hr => ?_
    · exact ⟨hr.1, hr.2.1, fun hst => hr.2.2 (hh hst).2⟩
    · exact ⟨.inr ⟨hr.1, fun hst => hr.2.1 (hh hst).2⟩, hr.2.2⟩
  start := by
    refine host_step hblame (by simp) "start" "start" (fun h => h.start .stable)
      (fun _ h => h) (fun _ _ _ h => h) fun tail d h _ hs hh => ?_
    refine (hhost.start d .stable _ h hs.1.2 hh.1).mono (fun reply h' hr => ?_) fun e h' hr => ?_
    · exact ⟨hr.1, hr.2.1, fun hst => hr.2.2 (hh.2 hst)⟩
    · exact ⟨.inr ⟨hr.1, fun hst => hr.2.1 (hh.2 hst)⟩, hr.2.2⟩
  resumed := by
    refine host_step hblame (by simp) "resume" "resume" (fun h => h.resume)
      (fun _ h => h) (fun _ _ _ h => ⟨h.1, h.2.1⟩) fun tail d h _ _ hh => ?_
    refine (hhost.resume d h).mono (fun reply h' hr => ?_) fun e h' hr => ?_
    · exact ⟨hr.1, hr.2.2 _ hh.1, hr.2.1⟩
    · exact ⟨.inr ⟨hr.2.1 _ hh.1, hr.1⟩, hr.2.2⟩
  clear := by
    refine disk_step (by simp) (fun es h => ⟨?_, h.2⟩) (fun _ _ _ h => h)
      fun tail J I htail hJ hI => ?_
    · rw [show lastIntent es = some .rolledBack from h.1]
      exact fun p hp => by cases hp; rfl
    · by_cases hst : k.steady
      · refine (FileStore.clear_empty (D := fun d => J d ∧ k.Slots .restored tail d)
          fun d h => h.2.2 hst).conseq (fun _ h => h) (fun _ w h => ?_) fun _ _ h => h.elim
        exact ⟨⟨h.1.1, htail, h.1.2.1.1, h.1.2.1.2, h.1.2.2 hst⟩, h.2⟩
      · refine (FileStore.clear_triple hblame hI hJ).conseq (fun w h => ⟨⟨h.1.1, h.1.2.1⟩, h.2⟩)
          (fun _ w h => ⟨⟨h.1.1, htail, h.1.2⟩, h.2⟩) fun _ w h => ?_
        exact ⟨⟨⟨h.1.1.1, h.1.1.2, fun h => absurd h hst⟩, h.1.2⟩, h.2⟩

/-- **A commit** follows the course. -/
theorem commitOutline : CommitOutline (r.engine c) (k.On V) (k.Failed V Blame) where
  promote := by
    refine disk_step (by simp) (fun _ h => h) (fun _ _ _ h => h) fun tail J I _ hJ hI => ?_
    exact FileStore.promote_triple hblame hI hJ k.steady
  resume := by
    refine host_step hblame (by simp) "resume" "resume" (fun h => h.resume)
      (fun es h => ⟨fun p hp => ?_, h.2⟩) (fun _ _ htail h => ⟨htail, h⟩) fun tail d h _ _ hh => ?_
    · have ht : lastIntent es = some .promoted := h.1
      rw [ht] at hp
      cases hp
      rfl
    · refine (hhost.resume d h).mono (fun reply h' hr => ?_) fun e h' hr => ?_
      · exact ⟨hr.1, hr.2.2 _ hh.1, hr.2.1⟩
      · exact ⟨.inr ⟨hr.2.1 _ hh.1, hr.1⟩, hr.2.2⟩

omit k in
/-- **The outline of a recovery.** -/
theorem recoverOutline (v : String) (steady sealed : Prop) (n m : Nat) :
    RecoverOutline (r.engine c) ((recovery v steady sealed n m).On V)
      ((recovery v steady sealed n m).Failed V Blame) where
  toRollbackOutline := rollbackOutline hblame hhost _ c
  toCommitOutline := commitOutline hblame hhost _ c
  read := by
    refine Triple.pre (Runner.readEntries_triple (P := fun w => ∃ es,
      (recovery v steady sealed n m).At V .entry es w) (fun es s hs hread => ?_) fun e s hs hread => ?_)
      fun s hs => ?_
    · obtain ⟨es', hj, hread', hs, hh⟩ := hs
      rw [hread', Except.ok.injEq] at hread
      subst hread
      exact ⟨es', fun _ => rfl, recovery_journal (fun _ => rfl) hj, hread', hs, hh⟩
    · obtain ⟨es', hj, hread', hs, hh⟩ := hs
      rw [hread'] at hread
      cases hread
    · obtain ⟨es, -, hat⟩ := hs
      exact ⟨es, hat⟩
  fence tail := by
    refine host_step hblame (by simp) "fence" "fence" (fun h => h.fence)
      (fun _ h => h) (fun _ _ _ h => h) fun tail d h _ _ hh => ?_
    have hsame : ∀ h', V.Same h h' → V.Sound tail v h' ∧ (steady → V.serves v h' ∧ V.unparked h') :=
      fun h' hs => ⟨hh.1.same hs, fun hst => ⟨hs.1 _ (hh.2 hst).1, hs.2 (hh.2 hst).2⟩⟩
    exact (hhost.fence d h).mono (fun reply h' hr => ⟨hr.1, hsame h' hr.2⟩)
      fun e h' hr => ⟨.inl (hsame h' hr.1), hr.2⟩
  idle s hs := by
    have hidle : ∀ tail, tail = none ∨ tail = some .idle →
        (recovery v steady sealed n m).On V (.fenced tail) s → (recovery v steady sealed n m).On V (.rest none) s := by
      intro tail htail hs
      refine hs.imp (by simp) (fun es h => recovery_journal (fun ht => ?_) h)
        (fun t d ht h => ?_) fun t h ht hh => ?_
      · intro p hp
        have ht : lastIntent es = tail := ht
        rw [ht] at hp
        rcases htail with htail | htail
        · rw [htail] at hp
          cases hp
        · rw [htail] at hp
          cases hp
          rfl
      · have ht : t = tail := ht
        subst ht
        have hempty := h.1.empty htail
        refine ⟨h.1, fun _ => hempty, fun v' hv' => ?_⟩
        rw [(h.1.rests hempty).stable] at hv'
        cases hv'
        rfl
      · have ht : t = tail := ht
        subst ht
        rcases htail with rfl | rfl
        · exact hh.1
        · exact hh.1
    rcases hs with hs | hs
    · exact hidle _ (.inl rfl) hs
    · exact hidle _ (.inr rfl) hs
  commit s hs := by
    refine hs.imp (by simp) (fun es h => recovery_journal id h) (fun t d ht h => ?_)
      fun t h ht hh => ?_
    · have ht : t = some .promoted := ht
      subst ht
      exact ⟨h.1, fun hst => (h.2.2 hst).1⟩
    · have ht : t = some .promoted := ht
      subst ht
      exact ⟨hh.1, fun hst => (hh.2 hst).2⟩
  redo s hs := by
    refine hs.imp (by simp) (fun es h => recovery_journal id h) (fun t d ht h => ?_)
      fun t h ht hh => hh.2
    have ht : t = some .rolledBack := ht
    subst ht
    exact ⟨⟨h.1.regular, h.1.stable (.inl (by simp))⟩, fun hst => (h.2.2 hst).1,
      fun hno => absurd trivial hno⟩
  withdraw reason := by
    refine journal_step hblame (by simp) c _ _
      (fun es e he h => recovery_journal_concat he (by simp [Point.Tail]) rfl h)
      (fun t d ht h => ?_) fun t h ht hh => ?_
    · have ht : t = some .staged := ht
      subst ht
      exact ⟨⟨h.1.regular, h.1.stable (.inl (by simp))⟩, fun hst => (h.2.2 hst).1⟩
    · have ht : t = some .staged := ht
      subst ht
      exact hh.1
  abandon tail reason htail := by
    have hne : tail ≠ .promoted := by
      rintro rfl
      simp at htail
    refine journal_step hblame (by simp) c _ _
      (fun es e he h => recovery_journal_concat he (by simp [Point.Tail, hne.symm]) rfl h)
      (fun t d ht h => ?_) fun t h ht hh => hh.2
    have ht : t = some tail := ht
    subst ht
    exact ⟨⟨h.1.regular, h.1.stable (.inl (by simp [hne]))⟩, fun hst => (h.2.2 hst).1,
      fun hno => absurd trivial hno⟩

end Outlines

/-! ## upgrades -/

/-- The course of an upgrade from `before` to `version`. -/
def upgrade (pending before version : String) (vacant : Prop) (opened committed : Nat) :
    Course where
  recovers := False
  pending := pending
  before := before
  after := trim version
  steady := False
  vacant := vacant
  sealed := False
  opened := opened
  opening := opened + 1
  committed := committed
  committing := committed + 1

/-- An intent of an upgrade counts where it opens or commits. -/
theorem journal_concat {intent : Phase} {es : List JournalEntry} {e : JournalEntry}
    (htail : q.Tail (some intent))
    (hopens : k.opens q = k.opens p + if intent = .staged then 1 else 0)
    (hcommits : k.commits q = k.commits p + if intent = .promoted then 1 else 0)
    (hsealed : ¬k.sealed) (hsteady : ¬k.steady) (he : e.intent = intent) (h : k.Journal p es) :
    k.Journal q (es ++ [e]) := by
  obtain ⟨-, ho, hc, -⟩ := h
  refine ⟨?_, ?_, ?_, fun hs => absurd hs hsealed, fun hs => absurd hs hsteady⟩
  · rw [lastIntent_concat, he]
    exact htail
  · rw [opensOf_concat, hopens, he, ho]
  · rw [commitsOf_concat, hcommits, he, hc]

/-- A call that changes nothing that is seen stays at its point. -/
theorem keeps_of_world {α : Type} {label : String} {call : HostCall (World η γ) α}
    (hcall : ∀ es, Keeps (k.At V p es) call) :
    Keeps (k.On V p) (Engine.bounded label call) := by
  refine Triple.of_forall fun s hs => ?_
  obtain ⟨es, hseq, hat⟩ := hs
  refine (Runner.bounded_keeps (hcall es) s.seq).conseq (fun s' h => ?_) (fun _ s' h => ?_)
    fun _ s' h => ?_
  · rw [h]
    exact ⟨rfl, hat⟩
  · exact ⟨es, fun hne => h.1.trans (hseq hne), h.2⟩
  · exact ⟨es, fun hne => h.1.trans (hseq hne), h.2⟩

/-- The probe stays at its point. -/
theorem probe_keeps (hhost : V.Controlled r.host True)
    (hsame : ∀ tail h h', V.Same h h' → k.Hosts V p tail h → k.Hosts V p tail h') :
    Keeps (k.On V p) (Engine.bounded "probe" (r.hostCall "probe" fun h => h.probe)) := by
  refine keeps_of_world fun es => ?_
  let D : Disk → Prop := fun d => k.Journal p es ∧ d.readJournal = .ok es ∧
    k.Slots p (lastIntent es) d
  let I : World η γ → Prop := fun w => k.Hosts V p (lastIntent es) w.host
  have hrun : Triple (Over D I) (r.hostRun fun h => h.probe)
      (fun reply w => (reply = none → True) ∧ Over D I w)
      (fun _ w => (Over D I w ∨ Over D I w) ∧ True) := by
    intro w hw
    have hh := hsame _ _ _ (hhost.probe w.disk w.host) hw.2
    have hcall : (r.hostRun fun h => h.probe) w = (((r.host w.disk).probe w.host).1,
        { w with host := ((r.host w.disk).probe w.host).2 }) := rfl
    rw [hcall]
    generalize (r.host w.disk).probe w.host = o at hh ⊢
    obtain ⟨o, h⟩ := o
    cases o with
    | ok reply => exact ⟨fun _ => trivial, hw.1, hh⟩
    | err e => exact ⟨.inl ⟨hw.1, hh⟩, trivial⟩
    | crash => exact ⟨.inl ⟨hw.1, hh⟩, trivial⟩
  have hcall : Triple (Over D I) (r.hostCall "probe" fun h => h.probe)
      (fun reply w => (reply = none → True) ∧ Over D I w)
      (fun _ w => (Over D I w ∨ Over D I w) ∧ True) :=
    Runner.hostCall_triple (fun _ => trivial) (fun _ _ _ h => h) (fun _ _ _ h => h)
      (fun _ h => h) hrun
  refine hcall.conseq (fun w h => ⟨⟨h.1, h.2.1, h.2.2.1⟩, h.2.2.2⟩) (fun _ w h => ?_)
    fun _ w h => ?_
  · exact ⟨h.2.1.1, h.2.1.2.1, h.2.1.2.2, h.2.2⟩
  · have ho := h.1.elim id id
    exact ⟨ho.1.1, ho.1.2.1, ho.1.2.2, ho.2⟩

/-- A definite failure of a probe stays at the point, an uncertain one ends there. -/
theorem probe_triple {m : Prog Error (Running (World η γ)) Evidence}
    (h : Keeps (k.On V p) m) :
    Triple (k.On V p) m (fun _ => k.On V p) (probeFailed (k.On V p) (k.Failed V True)) := by
  refine h.conseq (fun _ hs => hs) (fun _ _ hs => hs) fun err s hs => ?_
  cases err with
  | none => exact ⟨hs.cut, trivial⟩
  | some e =>
      unfold probeFailed
      dsimp only
      split
      · exact ⟨hs.cut, trivial⟩
      · exact hs

/-- What the versions of the slots show of the stable one. -/
theorem stableOf_versions {d : Disk} {versions : List (String × Option String)}
    (h : d.versions = .ok versions) : d.version .stable = .ok (stableOf versions) := by
  unfold Disk.versions at h
  split at h
  · next stable experiment hstable hexperiment =>
      cases h
      rw [hstable]
      cases stable <;> rfl
  · cases h
  · cases h

section Upgrade

variable (hhost : V.Controlled r.host True) (pending before version : String) (vacant : Prop)
  (n m : Nat) (bytes : Path) {c : Convergence (World η γ)}

include hhost

/-- **The outline of an upgrade.** -/
theorem upgradeOutline (hc : Runner.ReadsProduct c)
    (hserves : ∀ h, V.serves pending h → V.serves before h) :
    UpgradeOutline (r.engine c) version bytes
      ((upgrade pending before version vacant n m).On V)
      ((upgrade pending before version vacant n m).Failed V True) where
  toRollbackOutline := rollbackOutline (fun _ => trivial) hhost _ c
  toCommitOutline := commitOutline (fun _ => trivial) hhost _ c
  survey := by
    refine Triple.of_forall fun s hs => Triple.zoom fun s' hs' => ?_
    subst hs'
    have hread : Triple (· = s'.world) (FileStore.readDisk Disk.versions)
        (fun versions w => w = s'.world ∧ w.disk.versions = .ok versions)
        (fun _ w => w = s'.world) :=
      FileStore.readDisk_triple (fun _ _ h hr => ⟨h, hr⟩) fun _ _ h _ => h
    refine (hread s'.world rfl).mono (fun versions w h => ?_) fun _ w h => ?_
    · obtain ⟨rfl, hversions⟩ := h
      have hstable := stableOf_versions hversions
      obtain ⟨es, hseq, hj, hjournal, hslots, hh⟩ := hs
      cases hv : stableOf versions with
      | none => exact ⟨At.cut ⟨hj, hjournal, hslots, hh⟩, trivial⟩
      | some stable =>
          rw [hv] at hstable
          exact ⟨es, fun _ => hseq (by simp), hj, hjournal,
            ⟨hslots.1, hslots.2.1, hstable, hslots.2.2 _ hstable⟩, hh⟩
    · rw [h]
      exact ⟨hs.cut, trivial⟩
  probe stable _ := by
    have hkeep : Keeps ((upgrade pending before version vacant n m).On V (.surveyed stable))
        (Engine.bounded "probe" (r.engine c).host.probe) :=
      probe_keeps hhost fun _ h h' hsame hh => ⟨hsame.1 _ hh.1, hsame.2 hh.2⟩
    have hsame : ∀ prior (s : Running (World η γ)),
        (upgrade pending before version vacant n m).On V (.surveyed stable) s →
        (upgrade pending before version vacant n m).On V (.probed stable prior) s :=
      fun prior s h => h.imp (by simp) (fun _ h => h) (fun _ _ _ h => h) fun _ _ _ h => h
    refine (probe_triple hkeep).conseq (fun _ h => h) (fun _ s h => hsame _ s h) fun e s h => ?_
    cases e with
    | none => exact h
    | some e =>
        unfold probeFailed at h ⊢
        dsimp only at h ⊢
        split at h
        · next hu =>
            rw [if_pos hu]
            exact h
        · next hu =>
            rw [if_neg hu]
            exact hsame none s h
  journalStaged stable prior _ := by
    refine journal_step (fun _ => trivial) (by simp) c _ _
      (fun es e he h => journal_concat rfl rfl rfl id id he h) (fun t d ht h => ?_) fun t h ht hh => ?_
    · refine ⟨h.1.regular, ?_⟩
      have hstable := h.2.2.1
      rwa [h.2.2.2] at hstable
    · exact ⟨hserves h hh.1, hh.2⟩
  stage prior := by
    refine disk_step (by simp) (fun _ h => h) (fun _ _ _ h => h) fun tail J I htail hJ hI => ?_
    refine (FileStore.stage_triple (v := before) hI hJ version bytes).conseq (fun _ h => h)
      (fun _ w h => ?_) fun _ w h => ⟨h, trivial⟩
    exact ⟨⟨h.1.1.1, h.1.1.2, h.1.2⟩, h.2⟩
  journalHandingOver prior :=
    journal_step (fun _ => trivial) (by simp) c _ _
      (fun es e he h => journal_concat rfl rfl rfl id id he h) (fun _ _ _ h => h) fun _ _ _ _ => trivial
  quiesce prior :=
    host_step (fun _ => trivial) (by simp) "quiesce" "quiesce" (fun h => h.quiesce)
      (fun _ h => h) (fun _ _ _ h => h) fun tail d h _ _ _ =>
        ServiceView.ends_of_forall (fun _ _ => ⟨fun _ => trivial, trivial⟩)
          (fun _ _ => ⟨.inl trivial, trivial⟩) _
  stopStable prior := by
    refine host_step (fun _ => trivial) (by simp) "stop" "stop" (fun h => h.stop .stable)
      (fun _ h => h) (fun _ _ _ h => h) fun tail d h _ _ _ => ?_
    exact (hhost.stop d .stable h).mono (fun _ _ hr => ⟨hr.1, hr.2.1⟩)
      fun _ _ hr => ⟨.inr hr.1, trivial⟩
  startExperiment prior := by
    refine host_step (fun _ => trivial) (by simp) "start" "start" (fun h => h.start .experiment)
      (fun _ h => h) (fun _ _ _ h => h) fun tail d h _ hs hh => ?_
    exact (hhost.start d .experiment _ h hs.2 hh).mono (fun _ _ hr => ⟨hr.1, hr.2.1⟩)
      fun _ _ hr => ⟨.inr hr.1, trivial⟩
  journalRunning prior :=
    journal_step (fun _ => trivial) (by simp) c _ _
      (fun es e he h => journal_concat rfl rfl rfl id id he h) (fun _ _ _ h => h) fun _ _ _ h => h
  probeLive prior := by
    have hkeep : Keeps ((upgrade pending before version vacant n m).On V (.running prior))
        (Engine.bounded "probe" (r.engine c).host.probe) :=
      probe_keeps hhost fun _ h h' hsame hh => hsame.1 _ hh
    refine (probe_triple hkeep).post fun evidence s h => ?_
    exact h.imp (by simp) (fun _ h => h) (fun _ _ _ h => h) fun _ _ _ h => h
  journalReadback prior evidence :=
    journal_step (fun _ => trivial) (by simp) c _ _
      (fun es e he h => journal_concat rfl rfl rfl id id he h) (fun _ _ _ h => h) fun _ _ _ h => h
  replaced prior evidence s _ hs :=
    hs.imp (by simp) (fun _ h => h) (fun _ _ _ h => h) fun _ _ _ h => h
  evaluate prior evidence := by
    refine Triple.conseq (keeps_of_world (p := .fresh prior evidence) fun es =>
      Runner.evaluate_keeps (fun _ _ h => h) (fun _ _ h => h) hc evidence version)
      (fun _ h => h) (fun verdict s h => ?_) fun _ s h => ⟨h.cut, trivial⟩
    cases verdict with
    | some reason => exact h.imp (by simp) (fun _ h => h) (fun _ _ _ h => h) fun _ _ _ h => h
    | none => exact h.imp (by simp) (fun _ h => h) (fun _ _ _ h => h) fun _ _ _ h => h
  journalPromoted prior evidence := by
    refine journal_step (fun _ => trivial) (by simp) c _ _
      (fun es e he h => journal_concat rfl rfl rfl id id he h) (fun t d ht h => ?_)
      fun t h ht hh => ⟨hh, fun hst => hst.elim⟩
    have hne := Disk.slots_ne_absent h.2
    refine ⟨⟨h.1.1, fun _ _ => h.2, fun hs => ?_, fun ht => ?_⟩, fun hst => hst.elim⟩
    · exact absurd (hs.resolve_left (by simp)) hne
    · simp at ht
  silent prior reason :=
    journal_step (fun _ => trivial) (by simp) c _ _
      (fun es e he h => journal_concat rfl rfl rfl id id he h)
      (fun _ _ _ h => ⟨h.1, fun hst => hst.elim, fun _ => Disk.slots_ne_absent h.2⟩)
      fun _ _ _ _ hst => hst.elim
  refused prior evidence reason :=
    journal_step (fun _ => trivial) (by simp) c _ _
      (fun es e he h => journal_concat rfl rfl rfl id id he h)
      (fun _ _ _ h => ⟨h.1, fun hst => hst.elim, fun _ => Disk.slots_ne_absent h.2⟩)
      fun _ _ _ _ hst => hst.elim

end Upgrade

end Steps

end Course

end KCarrier
