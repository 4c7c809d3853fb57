import KCarrier.Runner.Bound
import KCarrier.Runner.Converge
import KCarrier.Runner.Retire
import KCarrier.Runner.Unbased

/-!
# KCarrier.Runner.Faultless

An upgrade in which nothing goes wrong.

The product and the host go through states of their own, each step from one to the next
(`Supply`, `Handover`); what the steps are is all that is asked of them.  The programs of the
runner then return, one after the other, on a directory that is `Poised`: nothing was
journalled, one version is stable, and the history of provenance can be read.

* `upgrade_total`: the engine's upgrade, up to the promotion;
* `drive_total`: the whole drive, from the lock to its outcome.
-/

namespace KCarrier

open Crash
open Running

variable {η γ α : Type}

/-! ## the surroundings of an upgrade -/

/-- The states a product goes through while it is asked for a release. -/
structure Supply (γ : Type) where
  asked : γ → Prop
  found : γ → Prop
  cleared : γ → Prop
  downloaded : γ → Prop
  prepared : γ → Prop

/-- The product has the release of `target` and no hook holds it back. -/
structure Supply.Succeeds (S : Supply γ) (r : Runner η γ) (current target : String) : Prop where
  managed : ∀ p, S.asked p → r.hooks.managedElsewhere p = false
  fetch : Total S.asked (r.source.fetch target ⟨current, r.platformKey⟩) fun release p =>
    release.version = target ∧ S.found p
  compatibility : Total S.found (r.hooks.compatibility current target) fun reason p =>
    reason = none ∧ S.cleared p
  download : ∀ release : Release, release.version = target →
    Total S.cleared (r.downloader release) fun _ => S.downloaded
  prepare : ∀ release : Release, release.version = target →
    Total S.downloaded (r.hooks.prepareCandidate incomingPath release) fun reply p =>
      reply = some () ∧ S.prepared p
  surfaces : ∀ s ∈ r.surfaces, Total S.prepared s.read fun reply p =>
    (∃ value note, reply = some (value, note) ∧ contains value r.experimentArtifact = true) ∧
      S.prepared p
  notify : Total S.prepared (r.hooks.notify "promoted" [("version", target)]) fun _ _ => True

/-- The states a host goes through while the service is handed over, beside the evidence of
the process that ran before. -/
structure Handover (η : Type) where
  waiting : η → Prop
  leaving : Option Evidence → η → Prop
  parked : Option Evidence → η → Prop
  stopped : Option Evidence → η → Prop
  trial : Option Evidence → η → Prop
  accepted : η → Prop

/-- The evidence is of a new process of `target`, seen from the process `pid`. -/
structure Evidence.Attests (e : Evidence) (pid : Nat) (target : String)
    (prior : Option Evidence) : Prop where
  valid : e.validate pid = .ok ()
  version : e.version = target
  fresh : ∀ p, prior = some p → p.startId ≠ e.startId

/-- The host answers a fence, and stays in a state of `K`. -/
def Fences (host : Disk → Host η) (K : η → Prop) : Prop :=
  ∀ d, Total K (host d).fence fun reply h => reply = some () ∧ K h

/-- Every call is answered, and the candidate `target` passes its readback. -/
structure Handover.Succeeds (H : Handover η) (host : Disk → Host η) (pid : Nat)
    (target : String) : Prop where
  fence : Fences host H.waiting
  probe : ∀ d, Triple H.waiting (host d).probe
    (fun reply h => ∃ e, reply = some e ∧ H.leaving (some e) h)
    (fun err h => ∃ e, err = some e ∧ e.isUncertain = false ∧ H.leaving none h)
  quiesce : ∀ d prior, Total (H.leaving prior) (host d).quiesce fun reply h =>
    reply = some () ∧ H.parked prior h
  stop : ∀ d prior, Total (H.parked prior) ((host d).stop .stable) fun reply h =>
    reply = some () ∧ H.stopped prior h
  start : ∀ d prior, d.version .experiment = .ok (some (trim target)) →
    Total (H.stopped prior) ((host d).start .experiment) fun reply h =>
      reply = some () ∧ H.trial prior h
  readback : ∀ d prior, Total (H.trial prior) (host d).probe fun reply h =>
    ∃ e, reply = some e ∧ e.Attests pid target prior ∧ H.accepted h
  resume : ∀ d, Total H.accepted (host d).resume fun reply _ => reply = some ()

/-! ## the directory -/

/-- Nothing was journalled, `v` is stable, and the history of provenance can be read. -/
structure Disk.Poised (v : String) (d : Disk) : Prop where
  journal : d.journal = .absent
  slots : d.Rests v
  attested : d.Attested

/-- The artifact of a release was brought in. -/
def Disk.Loaded (d : Disk) : Prop := ∃ bytes, d.incoming = .content bytes

theorem Disk.Poised.congr {d d' : Disk} {v : String} (h : d.Poised v)
    (hjournal : d'.journal = d.journal) (hslots : d'.slots = d.slots)
    (hprovenance : d'.provenance = d.provenance) : d'.Poised v := by
  refine ⟨hjournal.trans h.journal, h.slots.congr hslots, ?_⟩
  obtain ⟨history, hread⟩ := h.attested
  refine ⟨history, ?_⟩
  unfold readProvenance at hread ⊢
  rw [hprovenance]
  exact hread

/-- The state of the transaction is the stable version. -/
theorem Disk.Poised.transactionState {d : Disk} {v : String} (h : d.Poised v) :
    d.transactionState = .ok (.idle v) := by
  unfold Disk.transactionState
  rw [readJournal_absent h.journal, h.slots.stable]
  rfl

/-- What is outside the directory: the host in a state of `K`, the product in one of `G`. -/
def Outer (K : η → Prop) (G : γ → Prop) (w : World η γ) : Prop := K w.host ∧ G w.product

theorem outer_aside {K : η → Prop} {G : γ → Prop} : Aside (Outer K G) := fun _ _ _ h => h

/-! ## staging -/

/-- The slots are directories, and an artifact was brought in. -/
def Disk.Fillable (d : Disk) : Prop := d.Regular ∧ d.Loaded

/-- `version` is complete at `place`. -/
def Disk.Filled (version : String) (place : Place) (d : Disk) : Prop :=
  d.Regular ∧ d.version place = .ok (some (trim version))

theorem Disk.Fillable.setSlot {d : Disk} (h : d.Fillable) (place : Place) {node : Node}
    (hnode : node ≠ .other) : (d.setSlot place node).Fillable :=
  ⟨h.1.setSlot place hnode, h.2⟩

namespace FileStore

variable {s : FileStore} {J : Disk → Prop} {I : World η γ → Prop} {version : String}

/-- Filling the staging directory with what was brought in. -/
theorem populate_total (hclean : s.faults = Faults.clean) (hI : Aside I) (hJ : OffSlots J)
    (hversion : trim version ≠ "") :
    Total (Over (fun d => J d ∧ d.Fillable) I) (s.populate .experimentStaging version incomingPath)
      (fun _ => Over (fun d => J d ∧ d.Filled version .experimentStaging) I) := by
  have hblame : s.faults ≠ Faults.clean → False := fun hne => hne hclean
  let D : Disk → Prop := fun d => J d ∧ d.Fillable
  have hdir : ∀ d node, node ≠ .other → D d → D (d.setSlot .experimentStaging node) :=
    fun d node hnode hd => ⟨hJ d _ node hd.1, hd.2.setSlot _ hnode⟩
  have hset : ∀ (label : String) (slot : SlotDir), Total (Over D I)
      (s.write label fun disk => disk.setSlot .experimentStaging (.dir slot))
      (fun _ => Over D I) := fun label slot =>
    (write_keeps hblame hI fun d hd => hdir d _ (by simp) hd).crash fun _ h => h.2
  unfold populate
  rw [if_neg hversion]
  refine Triple.bind ((removeDir_aside hblame hI (fun d hd => hd.2.1) hdir).crash fun _ h => h.2)
    fun _ => ?_
  refine Triple.bind (hset _ _) fun _ => Triple.get_bind fun w hw => ?_
  obtain ⟨bytes, hbytes⟩ := hw.1.2.2
  have hsource : Total (· = w) (Prog.ofExcept (w.disk.file incomingPath).read)
      (fun _ => Over D I) := by
    refine Triple.ofExcept (fun _ w' _ h => by rw [h]; exact hw) fun e _ he _ => ?_
    rw [Disk.file, if_pos rfl, hbytes] at he
    cases he
  refine Triple.bind hsource fun source => ?_
  refine Triple.bind (hset _ _) fun _ => Triple.bind (hset _ _) fun _ => ?_
  refine (write_triple hblame hI fun d hd => ?_).crash fun _ h => h.2
  have hkept := hdir d (.dir ⟨.content version, .content source⟩) (by simp) hd
  refine ⟨hkept.1, hkept.2.1, ?_⟩
  simp [Disk.version, File.read, hversion]

/-- **Staging** what was brought in puts it on trial. -/
theorem stage_total (hclean : s.faults = Faults.clean) (hI : Aside I) (hJ : OffSlots J)
    (hversion : trim version ≠ "") :
    Total (Over (fun d => J d ∧ d.Fillable) I) (s.stage version incomingPath)
      (fun _ => Over (fun d => J d ∧ d.Filled version .experiment) I) := by
  have hblame : s.faults ≠ Faults.clean → False := fun hne => hne hclean
  unfold stage
  refine Triple.bind (populate_total hclean hI hJ hversion) fun _ => ?_
  refine Triple.bind (R := fun _ =>
    Over (fun d => J d ∧ d.Filled version .experimentStaging) I) ?_ fun _ => ?_
  · refine (removeDir_aside hblame hI (fun d hd => hd.2.1) fun d node hnode hd => ?_).crash
      fun _ h => h.2
    refine ⟨hJ d _ _ hd.1, hd.2.1.setSlot _ hnode, ?_⟩
    rw [Disk.version_setSlot_of_ne d node (by simp)]
    exact hd.2.2
  · refine (renameDurable_triple hblame hI fun d hd => ?_).crash fun _ h => h.2
    refine ⟨hJ _ _ _ (hJ _ _ _ hd.1), (hd.2.1.setSlot _ (hd.2.1 _)).setSlot _ (by simp), ?_⟩
    rw [Disk.version_setSlot_of_ne _ _ (by simp), ← hd.2.2]
    unfold Disk.version
    rw [Disk.setSlot_self]

end FileStore

namespace Runner

variable {r : Runner η γ} {D D' : Disk → Prop} {K : η → Prop} {G : γ → Prop}

/-! ## calls on the outside -/

theorem product_total {m : Prog Error γ α} {G' : α → γ → Prop} (h : Total G m G') :
    Total (Over D (Outer K G)) (product m) (fun a => Over D (Outer K (G' a))) :=
  Triple.zoom fun w hw => (h w.product hw.2.2).mono (fun _ _ hp => ⟨hw.1, hw.2.1, hp⟩)
    fun _ _ hf => hf

theorem ask_total {m : Prog Error γ α} {G' : α → γ → Prop} (name : String) (h : Total G m G') :
    Total (Over D (Outer K G)) (ask name m) (fun a => Over D (Outer K (G' a))) :=
  Triple.bind (R := fun _ => Over D (Outer K G)) (Triple.modify fun _ hw => hw) fun _ =>
    product_total h

/-- A host call that is answered, or fails with an error of its own. -/
theorem hostCall_answered (hclean : r.store.faults = Faults.clean)
    {call : Host η → Prog Error η (Option α)} {K' : α → η → Prop} {E : Error → η → Prop}
    (name : String)
    (h : ∀ d, D d → Triple K (call (r.host d)) (fun reply h => ∃ a, reply = some a ∧ K' a h)
      (fun err h => ∃ e, err = some e ∧ E e h)) :
    Triple (Over D (Outer K G)) (r.hostCall name call)
      (fun reply w => ∃ a, reply = some a ∧ Over D (Outer (K' a) G) w)
      (fun err w => ∃ e, err = some e ∧ Over D (Outer (E e) G) w) := by
  have hstep : ∀ {P : World η γ → Prop} (label : String), OffTick P →
      Triple P (r.store.boundary label) (fun _ => P)
        (fun err w => ∃ e, err = some e ∧ Over D (Outer (E e) G) w) := fun label hP =>
    (FileStore.boundary_triple (fun hne => hne hclean : _ → False) hP label).conseq
      (fun _ hw => hw) (fun _ _ hw => hw) fun _ _ hw => hw.2.elim
  have hrun : Triple (Over D (Outer K G)) (r.hostRun call)
      (fun reply w => ∃ a, reply = some a ∧ Over D (Outer (K' a) G) w)
      (fun err w => ∃ e, err = some e ∧ Over D (Outer (E e) G) w) := by
    intro w hw
    have hends := h w.disk hw.1 w.host hw.2.1
    unfold hostRun
    generalize call (r.host w.disk) w.host = o at hends
    obtain ⟨o, host⟩ := o
    cases o with
    | ok reply =>
        obtain ⟨a, ha, hk⟩ := hends
        exact ⟨a, ha, hw.1, hk, hw.2.2⟩
    | err e =>
        obtain ⟨e', he, hk⟩ := hends
        exact ⟨e', he, hw.1, hk, hw.2.2⟩
    | crash =>
        obtain ⟨e', he, -⟩ := hends
        cases he
  unfold hostCall
  refine Triple.bind (hstep _ (outer_aside.over D)) fun _ => ?_
  refine Triple.bind (R := fun _ => Over D (Outer K G)) (Triple.modify fun _ hw => hw) fun _ => ?_
  refine Triple.bind hrun fun reply => ?_
  exact Triple.bind (hstep _ fun _ _ hw => hw) fun _ => Triple.pure fun _ hw => hw

/-! ## the steps of a running engine -/

variable {c : Convergence (World η γ)} {tail : Option Phase}

/-- The journal ends in `tail`, the engine goes on there, and the rest is as `D`, `K` and `G`
say. -/
def Tracked (tail : Option Phase) (D : Disk → Prop) (K : η → Prop) (G : γ → Prop)
    (s : Running (World η γ)) : Prop :=
  Over (fun d => d.JournalAt tail s.seq ∧ D d) (Outer K G) s.world

theorem lift_tracked {m : Prog Error (World η γ) α} {G' : γ → Prop}
    (h : ∀ n, Total (Over (fun d => d.JournalAt tail n ∧ D d) (Outer K G)) m
      (fun _ => Over (fun d => d.JournalAt tail n ∧ D' d) (Outer K G'))) :
    Total (Tracked tail D K G) (lift m) (fun _ => Tracked tail D' K G') :=
  Triple.zoom fun s hs => (h s.seq s.world hs).mono (fun _ _ hw => hw) fun _ _ hf => hf

/-- A budgeted host call that is answered, or fails with an error of its own. -/
theorem bounded_answered (hclean : r.store.faults = Faults.clean)
    {call : Host η → Prog Error η (Option α)} {K' : α → η → Prop} {E : Error → η → Prop}
    (name : String)
    (h : ∀ d, D d → Triple K (call (r.host d)) (fun reply h => ∃ a, reply = some a ∧ K' a h)
      (fun err h => ∃ e, err = some e ∧ E e h)) :
    Triple (Tracked tail D K G) (Engine.bounded name (r.hostCall name call))
      (fun a => Tracked tail D (K' a) G)
      (fun err s => ∃ e, err = some e ∧ Tracked tail D (E e) G s) := by
  have hcall : Triple (Tracked tail D K G) (lift (r.hostCall name call))
      (fun reply s => ∃ a, reply = some a ∧ Tracked tail D (K' a) G s)
      (fun err s => ∃ e, err = some e ∧ Tracked tail D (E e) G s) := by
    refine Triple.zoom fun s hs => ?_
    have hworld := hostCall_answered (D := fun d => d.JournalAt tail s.seq ∧ D d) (G := G)
      hclean name fun d hd => h d hd.2
    exact (hworld s.world hs).mono (fun _ _ hw => hw) fun _ _ hw => hw
  unfold Engine.bounded
  refine Triple.bind hcall fun reply => Triple.exists_pre fun a => Triple.assume fun hreply => ?_
  rw [hreply]
  exact Triple.pure fun _ hs => hs

/-- A budgeted host call that is answered. -/
theorem bounded_total (hclean : r.store.faults = Faults.clean)
    {call : Host η → Prog Error η (Option α)} {K' : α → η → Prop} (name : String)
    (h : ∀ d, D d → Total K (call (r.host d)) fun reply h => ∃ a, reply = some a ∧ K' a h) :
    Total (Tracked tail D K G) (Engine.bounded name (r.hostCall name call))
      (fun a => Tracked tail D (K' a) G) := by
  refine (bounded_answered (E := fun _ _ => False) hclean name fun d hd => ?_).conseq
    (fun _ hs => hs) (fun _ _ hs => hs) fun _ _ hs => ?_
  · exact (h d hd).conseq (fun _ hk => hk) (fun _ _ hk => hk) fun _ _ hf => hf.elim
  · obtain ⟨e, -, hf⟩ := hs
    exact hf.2.1

/-- A command to the host that is carried out. -/
theorem command_total (hclean : r.store.faults = Faults.clean)
    {call : Host η → Prog Error η (Option Unit)} {K' : η → Prop} (name : String)
    (h : ∀ d, D d → Total K (call (r.host d)) fun reply h => reply = some () ∧ K' h) :
    Total (Tracked tail D K G) (Engine.bounded name (r.hostCall name call))
      (fun _ => Tracked tail D K' G) :=
  bounded_total hclean name fun d hd => (h d hd).post fun _ _ hk => ⟨(), hk⟩

theorem journal_total (hclean : r.store.faults = Faults.clean) (hD : FileStore.OffJournal D)
    (intent : Phase) (detail : Detail) :
    Total (Tracked tail D K G) ((r.engine c).journal intent detail)
      (fun _ => Tracked (some intent) D K G) :=
  (journal_triple (fun hne => hne hclean : _ → False) outer_aside hD c tail intent detail).conseq
    (fun _ hs => hs) (fun _ _ hs => hs) fun _ _ hs => hs.2

/-! ## the readback -/

/-- Surfaces that show what is expected do not change the verdict. -/
theorem readSurfaces_total {P : World η γ → Prop} (surfaces : List (ReadbackSurface (World η γ)))
    (hread : ∀ s ∈ surfaces, Total P s.read fun reply w =>
      (∃ value note, reply = some (value, note) ∧ contains value c.expectedTarget = true) ∧ P w)
    (result : PredicateResult) (sources : List String) :
    Total P (c.readSurfaces result sources surfaces)
      (fun reply w => (∃ final, reply = some final ∧ final.passed = result.passed) ∧ P w) := by
  induction surfaces generalizing result sources with
  | nil => exact Triple.pure fun _ hw => ⟨⟨_, rfl, rfl⟩, hw⟩
  | cons surface rest ih =>
      unfold Convergence.readSurfaces
      refine Triple.bind (hread surface (by simp)).attempt fun reply => ?_
      refine Triple.exists_pre fun shown => Triple.assume fun hreply => ?_
      refine Triple.assume fun hshown => ?_
      obtain ⟨value, note, rfl, hvalue⟩ := hshown
      rw [hreply]
      dsimp only
      rw [if_pos hvalue]
      exact ih (fun s hs => hread s (List.mem_cons_of_mem _ hs)) _ _

/-- **The readback** of a candidate that every surface shows. -/
theorem evaluate_total {S : Supply γ} {current target : String} (hS : S.Succeeds r current target)
    (hc : r.Declares c) {e : Evidence} {prior : Option Evidence}
    (he : e.Attests r.self target prior) :
    Total (Over D (Outer K S.prepared)) ((r.engine c).predicates.evaluate e target)
      (fun reply w => reply = some none ∧ Over D (Outer K S.prepared) w) := by
  let P : World η γ → Prop := Over D (Outer K S.prepared)
  have hread : ∀ s ∈ c.surfaces, Total P s.read fun reply w => (∃ value note,
      reply = some (value, note) ∧ contains value c.expectedTarget = true) ∧ P w := by
    intro s hs
    rw [hc.surfaces] at hs
    obtain ⟨surface, hsurface, rfl⟩ := List.mem_map.mp hs
    rw [hc.expected]
    exact (product_total (D := D) (K := K) (hS.surfaces surface hsurface)).post
      fun _ _ hw => ⟨hw.2.2.1, hw.1, hw.2.1, hw.2.2.2⟩
  have hobserve : ∀ f, Total (fun s : World η γ × Observed => P s.1)
      (Convergence.observe f) (fun _ s => P s.1) := fun f => Triple.modify fun _ h => h
  have hsettle : Total (fun s : World η γ × Observed => P s.1) c.settle
      (fun reply s => reply = some none ∧ P s.1) := by
    unfold Convergence.settle
    refine Triple.get_bind fun s hs => ?_
    refine Triple.pre (P := fun s => P s.1) ?_ fun s' h => by rw [h]; exact hs
    have hworld : Total (fun s : World η γ × Observed => P s.1)
        (Convergence.world (c.readSurfaces ⟨true, "", c.clock s.1, []⟩ [] c.surfaces))
        (fun reply s => (∃ final, reply = some final ∧ final.passed = true) ∧ P s.1) :=
      Triple.zoom fun s hs => (readSurfaces_total c.surfaces hread _ [] s.1 hs).mono
        (fun _ _ h => h) fun _ _ h => h
    refine Triple.bind hworld fun reply => Triple.assume fun hreply => ?_
    obtain ⟨final, rfl, hpassed⟩ := hreply
    refine Triple.bind (hobserve _) fun _ => Triple.pure fun _ h => ⟨?_, h⟩
    rw [if_pos hpassed]
  have heval : Total (fun s : World η γ × Observed => P s.1) (c.evaluate r.self e target)
      (fun reply s => reply = some none ∧ P s.1) := by
    unfold Convergence.evaluate
    refine Triple.bind (R := fun _ s => P s.1) (Triple.ofExcept (fun _ _ _ h => h)
      fun err _ herr _ => ?_) fun _ => ?_
    · rw [he.valid] at herr
      cases herr
    · refine Triple.bind (hobserve _) fun _ => ?_
      rw [if_neg (not_not_intro he.version)]
      exact Triple.ite (fun _ => Triple.pure fun _ h => ⟨rfl, h⟩) fun _ => hsettle
  have hzoom : Total P (Prog.zoom (fun w : World η γ => (w, w.observed))
      (fun s _ => { s.1 with observed := s.2 }) (c.evaluate r.self e target))
      (fun reply w => reply = some none ∧ P w) :=
    Triple.zoom fun w hw => (heval (w, w.observed) hw).mono (fun _ _ h => h) fun _ _ h => h
  exact hzoom

/-! ## the engine's upgrade -/

section Upgrade

variable {H : Handover η} {S : Supply γ} {v target : String} {prior : Option Evidence}
  {e : Evidence}

/-- Whoever ran before, or nobody. -/
theorem probePrior_total (hclean : r.store.faults = Faults.clean)
    (hH : H.Succeeds r.host r.self target) :
    Total (Tracked tail D H.waiting G) (r.engine c).probePrior
      (fun prior => Tracked tail D (H.leaving prior) G) := by
  have hprobe : Triple (Tracked tail D H.waiting G)
      (Engine.bounded "probe" (r.hostCall "probe" fun h => h.probe))
      (fun e => Tracked tail D (H.leaving (some e)) G)
      (fun err s => ∃ e, err = some e ∧
        Tracked tail D (fun h => e.isUncertain = false ∧ H.leaving none h) G s) :=
    bounded_answered hclean "probe" fun d _ => hH.probe d
  have hreply : Total (Tracked tail D H.waiting G)
      (Prog.attempt (Engine.bounded "probe" (r.engine c).host.probe))
      (Caught (fun e => Tracked tail D (H.leaving (some e)) G) fun e =>
        Tracked tail D (fun h => e.isUncertain = false ∧ H.leaving none h) G) := by
    refine Triple.attempt (hprobe.conseq (fun _ hs => hs) (fun _ _ hs => hs) fun err s hs => ?_)
    obtain ⟨e, rfl, hs⟩ := hs
    exact hs
  unfold Engine.probePrior
  refine Triple.bind hreply fun reply => ?_
  cases reply with
  | ok e => exact Triple.pure fun _ hs => hs
  | error e =>
      refine Triple.ite (fun hu => fun s hs => ?_) fun _ => Triple.pure fun s hs =>
        ⟨hs.1, hs.2.1.2, hs.2.2⟩
      have hdefinite : e.isUncertain = false := hs.2.1.1
      rw [hdefinite] at hu
      cases hu

/-- **The handover** puts the candidate on trial and starts it. -/
theorem handOver_total (hclean : r.store.faults = Faults.clean)
    (hH : H.Succeeds r.host r.self target) (htarget : trim target ≠ "") :
    Total (Tracked tail Disk.Fillable (H.leaving prior) G)
      ((r.engine c).handOver target incomingPath prior)
      (fun _ => Tracked (some .runningExperiment) (Disk.Filled target .experiment)
        (H.trial prior) G) := by
  have hfillable : FileStore.OffJournal Disk.Fillable := fun _ _ h => h
  have hfilled : FileStore.OffJournal (Disk.Filled target .experiment) := fun _ _ h => h
  unfold Engine.handOver
  refine Triple.bind (journal_total hclean hfillable _ _) fun _ => ?_
  refine Triple.bind (lift_tracked fun n => FileStore.stage_total hclean outer_aside
    (journalAt_offSlots _ n) htarget) fun _ => ?_
  refine Triple.bind (journal_total hclean hfilled _ _) fun _ => ?_
  refine Triple.bind (command_total hclean "quiesce" fun d _ => hH.quiesce d prior) fun _ => ?_
  refine Triple.bind (command_total hclean "stop" fun d _ => hH.stop d prior) fun _ => ?_
  refine Triple.bind (command_total hclean "start" fun d hd => hH.start d prior hd.2) fun _ => ?_
  exact journal_total hclean hfilled _ _

/-- **The verdict** on the candidate that passes its readback. -/
theorem judge_total (hclean : r.store.faults = Faults.clean)
    (hH : H.Succeeds r.host r.self target) (hS : S.Succeeds r v target) (hc : r.Declares c)
    (he : e.Attests r.self target prior) :
    Total (Tracked tail (Disk.Filled target .experiment) H.accepted S.prepared)
      ((r.engine c).judge target prior e)
      (fun outcome s => outcome = .promoted target ∧
        Over (fun d => d.Rests (trim target)) (Outer (fun _ => True) S.prepared) s.world) := by
  have hfilled : FileStore.OffJournal (Disk.Filled target .experiment) := fun _ _ h => h
  have hfresh : ¬(prior.any fun p => p.startId == e.startId) = true := by
    cases prior with
    | none => simp
    | some p => simpa using he.fresh p rfl
  have hverdict : Total (Tracked (some .readback) (Disk.Filled target .experiment) H.accepted
      S.prepared) (Engine.bounded "readback" ((r.engine c).predicates.evaluate e target))
      (fun verdict s => verdict = none ∧
        Tracked (some .readback) (Disk.Filled target .experiment) H.accepted S.prepared s) := by
    unfold Engine.bounded
    refine Triple.bind (R := fun reply s => reply = some none ∧
      Tracked (some .readback) (Disk.Filled target .experiment) H.accepted S.prepared s) ?_ ?_
    · exact Triple.zoom fun s hs => (evaluate_total hS hc he s.world hs).mono (fun _ _ h => h)
        fun _ _ h => h
    · refine fun reply => Triple.assume fun hreply => ?_
      rw [hreply]
      exact Triple.pure fun _ hs => ⟨rfl, hs⟩
  have hpromote : Total (Tracked (some .promoted) (Disk.Filled target .experiment) H.accepted
      S.prepared) (lift r.store.promote)
      (fun _ => Tracked (some .promoted) (fun d => d.Rests (trim target)) H.accepted
        S.prepared) := by
    refine lift_tracked fun n => ?_
    refine (FileStore.promote_triple (fun hne => hne hclean : _ → False) outer_aside
      (journalAt_offSlots _ n) False).conseq (fun w hw => ⟨?_, hw.2⟩) (fun _ _ hw => hw)
      fun _ _ hw => hw.2
    exact FileStore.OnTrial.committed hw.1 not_false
  have hresume : Total (Tracked (some .promoted) (fun d => d.Rests (trim target)) H.accepted
      S.prepared) (Engine.bounded "resume" (r.hostCall "resume" fun h => h.resume))
      (fun _ => Tracked (some .promoted) (fun d => d.Rests (trim target)) (fun _ => True)
        S.prepared) :=
    command_total hclean "resume" fun d _ => (hH.resume d).post fun _ _ hk => ⟨hk, trivial⟩
  unfold Engine.judge
  refine Triple.bind (journal_total hclean hfilled _ _) fun _ => ?_
  rw [if_neg hfresh]
  refine Total.bind_eq hverdict ?_
  refine Triple.bind (journal_total hclean hfilled _ _) fun _ => Triple.bind hpromote fun _ => ?_
  exact Triple.bind hresume fun _ => Triple.pure fun s hs => ⟨rfl, hs.1.2, hs.2⟩

/-- **The engine's upgrade**, where nothing goes wrong. -/
theorem upgrade_total (hclean : r.store.faults = Faults.clean)
    (hH : H.Succeeds r.host r.self target) (hS : S.Succeeds r v target) (hc : r.Declares c)
    (htarget : trim target ≠ "") (hother : target ≠ v) :
    Total (Tracked tail (fun d => d.Rests v ∧ d.Loaded) H.waiting S.prepared)
      ((r.engine c).upgrade target incomingPath)
      (fun outcome s => outcome = .promoted target ∧
        Over (fun d => d.Rests (trim target)) (Outer (fun _ => True) S.prepared) s.world) := by
  have hversions : Total (Tracked tail (fun d => d.Rests v ∧ d.Loaded) H.waiting S.prepared)
      (lift (r.engine c).effects.versions)
      (fun versions s => (versions.lookup "stable").join = some v ∧
        Tracked tail Disk.Fillable H.waiting S.prepared s) := by
    refine Triple.zoom fun s hs => ?_
    have hread : (r.engine c).effects.versions s.world =
        (.ok [("stable", some v), ("experiment", none)], s.world) := by
      refine FileStore.readDisk_run ?_
      unfold Disk.versions
      rw [hs.1.2.1.stable, Disk.version_of_absent hs.1.2.1.empty]
    rw [hread]
    exact ⟨rfl, ⟨hs.1.1, hs.1.2.1.regular, hs.1.2.2⟩, hs.2⟩
  unfold Engine.upgrade
  refine Triple.bind hversions fun versions => Triple.assume fun hstable => ?_
  rw [hstable]
  dsimp only
  rw [if_neg hother.symm]
  refine Triple.bind (probePrior_total hclean hH) fun prior => ?_
  refine Triple.bind (handOver_total hclean hH htarget) fun _ => ?_
  have hprobe : Total (Tracked (some .runningExperiment) (Disk.Filled target .experiment)
      (H.trial prior) S.prepared)
      (Engine.bounded "probe" (r.hostCall "probe" fun h => h.probe))
      (fun e => Tracked (some .runningExperiment) (Disk.Filled target .experiment)
        (fun h => e.Attests r.self target prior ∧ H.accepted h) S.prepared) :=
    bounded_total hclean "probe" fun d _ => hH.readback d prior
  refine Triple.bind hprobe.attempt fun reply => ?_
  refine Triple.exists_pre fun e => Triple.assume fun hreply => ?_
  rw [hreply]
  refine Triple.pre (P := fun s => e.Attests r.self target prior ∧
    Tracked (some .runningExperiment) (Disk.Filled target .experiment) H.accepted S.prepared s) ?_
    fun s hs => ⟨hs.2.1.1, hs.1, hs.2.1.2, hs.2.2⟩
  exact Triple.assume fun he => judge_total hclean hH hS hc he

end Upgrade

/-! ## the record of a drive -/

/-- The record of the operation `id` is kept. -/
def Kept (id : String) (op : Option Operation) : Prop :=
  ∃ o, op = some o ∧ o.validate = .ok () ∧ o.id = id

/-- `D` is not about the record. -/
def OffOperation (D : Disk → Prop) : Prop :=
  ∀ d op, D d → D { d with operation := .content op }

theorem transition_total (hclean : r.store.faults = Faults.clean) (hD : OffOperation D)
    {o : Operation} (hvalid : o.validate = .ok ()) (phase : OperationPhase)
    (outcome : Option Outcome) (reason : Option String) :
    Total (Over D (Outer K G)) (r.transition (some o) phase outcome reason)
      (fun op w => (∃ now, op = some (advance o now phase outcome reason) ∧
        w.disk.operation = .content (advance o now phase outcome reason)) ∧
          Over D (Outer K G) w) := by
  refine (transition_triple (fun hne => hne hclean : _ → False) (outer_aside.over D)
    (fun op w n h => h) (fun o' ho => .inl (by cases ho; exact hvalid)) (fun ho => by cases ho)
    fun o' ho w now _ hw => ?_).crash fun _ h => h.2
  cases ho
  exact ⟨⟨now, rfl, rfl⟩, hD _ _ hw.1, hw.2⟩

/-- A phase is recorded. -/
theorem progress_total (hclean : r.store.faults = Faults.clean) (hD : OffOperation D) {id : String}
    {op : Option Operation} (hop : Kept id op) (phase : OperationPhase) (reason : Option String) :
    Total (Over D (Outer K G)) (r.transition op phase none reason)
      (fun op' w => Kept id op' ∧ Over D (Outer K G) w) := by
  obtain ⟨o, rfl, hvalid, hid⟩ := hop
  refine (transition_total hclean hD hvalid phase none reason).post fun op' w hw => ?_
  obtain ⟨⟨now, rfl, -⟩, hkept⟩ := hw
  exact ⟨⟨_, rfl, hvalid, hid⟩, hkept⟩

/-! ## a release for the engine -/

section Fetch

variable {S : Supply γ} {v target id : String} {options : UpgradeOptions}
  {op : Option Operation} {release : Release}

/-- **The lookup** finds the release, and nothing holds it back. -/
theorem pick_total (hS : S.Succeeds r v target) (hconsented : options.consented = true) :
    Total (Over D (Outer K S.asked)) (r.pick (some target) options op v)
      (fun picked w => (∃ release, picked = .release release ∧ release.version = target) ∧
        Over D (Outer K S.cleared) w) := by
  have hlookup : Total (Over D (Outer K S.asked)) (r.lookup (some target) ⟨v, r.platformKey⟩)
      (fun found w => (∃ release : Release, found = some release ∧ release.version = target) ∧
        Over D (Outer K S.found) w) := by
    unfold lookup
    refine Triple.bind (ask_total "source.fetch" hS.fetch) fun release => Triple.pure fun w hw => ?_
    exact ⟨⟨release, rfl, hw.2.2.1⟩, hw.1, hw.2.1, hw.2.2.2⟩
  have hgates : ∀ release : Release, release.version = target →
      Total (Over D (Outer K S.found)) (r.gates options op v release)
        (fun picked w => (∃ release, picked = .release release ∧ release.version = target) ∧
          Over D (Outer K S.cleared) w) := by
    intro release hrelease
    have hcompatible : Total (Over D (Outer K S.found))
        (product (r.hooks.compatibility v release.version))
        (fun reason w => reason = none ∧ Over D (Outer K S.cleared) w) := by
      rw [hrelease]
      exact (product_total hS.compatibility).post fun _ _ hw =>
        ⟨hw.2.2.1, hw.1, hw.2.1, hw.2.2.2⟩
    unfold gates
    simp only [hconsented, Bool.not_true, Bool.false_eq_true, false_and, if_false]
    exact Total.bind_eq hcompatible (Triple.pure fun _ hw => ⟨⟨release, rfl, hrelease⟩, hw⟩)
  unfold pick
  refine Triple.bind hlookup.attempt fun reply => Triple.exists_pre fun found => ?_
  refine Triple.assume fun hreply => Triple.assume fun hfound => ?_
  obtain ⟨release, rfl, hrelease⟩ := hfound
  rw [hreply]
  dsimp only
  rw [if_neg (by simp [hrelease])]
  exact hgates release hrelease

theorem poised_offOperation (v : String) : OffOperation fun d => d.Poised v :=
  fun _ _ h => h.congr rfl rfl rfl

theorem loaded_offOperation (v : String) : OffOperation fun d => d.Poised v ∧ d.Loaded :=
  fun _ _ h => ⟨h.1.congr rfl rfl rfl, h.2⟩

/-- **Bringing the artifact in.** -/
theorem bringIn_total (hclean : r.store.faults = Faults.clean) (hS : S.Succeeds r v target)
    (hop : Kept id op) (hrelease : release.version = target) :
    Total (Over (fun d => d.Poised v) (Outer K S.cleared)) (r.bringIn options op release)
      (fun op' w => Kept id op' ∧
        Over (fun d => d.Poised v ∧ d.Loaded) (Outer K S.prepared) w) := by
  have hblame : r.store.faults ≠ Faults.clean → False := fun hne => hne hclean
  have hincoming : ∀ bytes : Bytes, Total (Over (fun d => d.Poised v) (Outer K S.downloaded))
      (r.store.write "incoming" fun disk => { disk with incoming := .content bytes })
      (fun _ => Over (fun d => d.Poised v ∧ d.Loaded) (Outer K S.downloaded)) := fun bytes =>
    (FileStore.write_triple hblame outer_aside fun d hd =>
      ⟨hd.congr rfl rfl rfl, bytes, rfl⟩).crash fun _ h => h.2
  have hprepare : Total (Over (fun d => d.Poised v ∧ d.Loaded) (Outer K S.downloaded))
      (r.prepare release)
      (fun _ => Over (fun d => d.Poised v ∧ d.Loaded) (Outer K S.prepared)) := by
    unfold prepare
    refine Triple.bind (product_total (hS.prepare release hrelease)) fun reply => ?_
    refine Triple.pre (P := fun w => reply = some () ∧
      Over (fun d => d.Poised v ∧ d.Loaded) (Outer K S.prepared) w) ?_
      fun w hw => ⟨hw.2.2.1, hw.1, hw.2.1, hw.2.2.2⟩
    refine Triple.assume fun hreply => ?_
    rw [hreply]
    exact Triple.pure fun _ hw => hw
  have hentry : ∀ (identity : Provenance) (now : Nat),
      Total (Over (fun d => d.Poised v ∧ d.Loaded) (Outer K S.prepared))
        (r.store.appendProvenanceAt identity release.version none now)
        (fun _ => Over (fun d => d.Poised v ∧ d.Loaded) (Outer K S.prepared)) := by
    intro identity now
    have happend := FileStore.appendProvenance_attested (s := r.store) (I := Outer K S.prepared)
      (J := fun d => (d.journal = .absent ∧ d.Rests v) ∧ d.Loaded) hblame outer_aside identity
      release.version none now fun d file h => ⟨⟨h.1.1, h.1.2.congr rfl⟩, h.2⟩
    exact happend.conseq
      (fun w h => ⟨⟨⟨⟨h.1.1.journal, h.1.1.slots⟩, h.1.2⟩, h.1.1.attested⟩, h.2⟩)
      (fun _ w h => ⟨⟨⟨h.1.1.1.1, h.1.1.1.2, h.1.2⟩, h.1.1.2⟩, h.2⟩) fun _ _ h => h.2 rfl
  have hpoised := poised_offOperation v
  have hloaded := loaded_offOperation v
  unfold bringIn
  refine Triple.bind (progress_total hclean hpoised hop _ _) fun op₁ => Triple.assume fun h₁ => ?_
  refine Triple.bind (ask_total "download" (hS.download release hrelease)) fun bytes => ?_
  refine Triple.bind (progress_total hclean hpoised h₁ _ _) fun op₂ => Triple.assume fun h₂ => ?_
  refine Triple.bind (progress_total hclean hpoised h₂ _ _) fun op₃ => Triple.assume fun h₃ => ?_
  refine Triple.bind (hincoming bytes) fun _ => ?_
  refine Triple.bind hprepare.attempt fun reply => ?_
  refine Triple.exists_pre fun u => Triple.assume fun hreply => ?_
  rw [hreply]
  dsimp only
  refine Triple.ite (fun _ => ?_) fun _ => progress_total hclean hloaded h₃ _ _
  refine Triple.get_bind fun w hw => ?_
  refine Triple.pre (P := Over (fun d => d.Poised v ∧ d.Loaded) (Outer K S.prepared)) ?_
    fun w' h => by rw [h]; exact hw
  exact Triple.bind (hentry _ _) fun _ => progress_total hclean hloaded h₃ _ _

end Fetch

end Runner

/-! ## a directory that admits an operation -/

/-- `v` is the baseline of the directory, whose records count from it, and the operation `id` is
new. -/
structure Disk.Admits (digest : String → String) (v id : String) (d : Disk) : Prop where
  poised : d.Poised v
  filed : d.Filed digest
  record : ∀ op, d.operation = .content op → op.fromVersion = v ∧ op.outcome ≠ some .promoted
  receipt : d.receipts (digest id) = .absent
  other : ∀ op, d.operation = .content op → op.id ≠ id

/-- The operation `id` was promoted, and `target` is stable. -/
structure Disk.Promoted (id target : String) (d : Disk) : Prop where
  stable : d.version .stable = .ok (some (trim target))
  record : ∃ op, d.readOperation = .observed op ∧ op.id = id ∧ op.outcome = some .promoted

section Admits

variable {digest : String → String} {v id : String}

theorem Disk.Filed.readable {d : Disk} (h : d.Filed digest) (reason : String) :
    d.readOperation ≠ .unreadable reason := by
  rcases h.operation with hfile | ⟨op, hfile, hvalid⟩
  · simp [readOperation, readOperationFile, hfile]
  · rw [readOperation_observed_iff.mpr ⟨hfile, hvalid⟩]
    simp

/-- What an operation that was not promoted stands for is the version it counts from. -/
theorem settledVersion_of_ne {op : Operation} {outcome : Outcome} (ho : op.outcome = some outcome)
    (hne : op.outcome ≠ some .promoted) : Runner.settledVersion op outcome = op.fromVersion := by
  rw [Runner.settledVersion, if_neg]
  intro h
  rw [ho, h] at hne
  exact hne rfl

/-- An open record that is rolled back counts from the same version. -/
theorem Disk.Admits.settled {w : World η γ} (h : w.disk.Admits digest v id) {op : Operation}
    (hop : w.disk.readOperation = .observed op) (hopen : op.outcome = none) (now : Nat)
    (reason : Option String) :
    (w.record (Runner.advance op now .rolledBack (some .rolledBack) reason)).disk.Admits
      digest v id := by
  obtain ⟨hfile, hvalid⟩ := readOperation_observed_iff.mp hop
  have hfresh := h.filed.fresh_of_open hfile hopen
  refine ⟨h.poised.congr rfl rfl rfl, ⟨.inr ⟨_, rfl, hvalid⟩, h.filed.receipts, ?_⟩, ?_, h.receipt,
    ?_⟩
  · intro op' a hop' ha
    cases hop'
    have ha : w.disk.receipts (digest op.id) = .content a := ha
    rw [hfresh] at ha
    cases ha
  · intro op' hop'
    cases hop'
    exact ⟨(h.record op hfile).1, by simp [Runner.advance]⟩
  · intro op' hop'
    cases hop'
    exact h.other op hfile

end Admits

namespace Runner

variable {r : Runner η γ} {K : η → Prop} {G : γ → Prop} {c : Convergence (World η γ)}

section Drive

variable {H : Handover η} {S : Supply γ} {v target : String} {options : UpgradeOptions}
  {desc : OperationDescriptor}

/-! ## recovery -/

/-- **Recovery** finds nothing to do. -/
theorem recoverEngine_total (hclean : r.store.faults = Faults.clean) (hK : Fences r.host K)
    (id : String) :
    Total (OnWorld (Over (Disk.Admits r.store.digest v id) (Outer K G))) (r.recoverEngine c)
      (fun _ s => s.seq = 0 ∧ Over (Disk.Admits r.store.digest v id) (Outer K G) s.world) := by
  have hempty : ∀ d : Disk, d.Admits r.store.digest v id → d.readJournal = .ok [] := fun d h =>
    Disk.readJournal_absent h.poised.journal
  have hfence : Total (Tracked none (Disk.Admits r.store.digest v id) K G)
      (Engine.bounded "fence" (r.engine c).host.fence)
      (fun _ => Tracked none (Disk.Admits r.store.digest v id) K G) :=
    command_total hclean "fence" fun d _ => hK d
  refine recovering_triple (G := fun _ => False) (fun w reason h => h.1.filed.readable reason)
    (fun w e h hstate _ => ?_) (fun w op outcome state h hop ho hstate hbad => ?_)
    (fun w op outcome state es h _ _ _ _ _ hj => ?_) ?_
  · rw [h.1.poised.transactionState] at hstate
    cases hstate
  · rw [h.1.poised.transactionState, Except.ok.injEq] at hstate
    obtain ⟨hfrom, hne⟩ := h.1.record op (Disk.readOperation_observed_iff.mp hop).1
    refine hbad ⟨by rw [← hstate]; rfl, ?_⟩
    rw [settledVersion_of_ne ho hne, hfrom, ← hstate]
    rfl
  · rw [hempty _ h.1, Except.ok.injEq] at hj
    rw [← hj]
    exact ⟨rfl, h⟩
  · refine (recover_fences (P := fun s => Over (Disk.Admits r.store.digest v id)
      (Outer K G) s.world) (fun s h => h.1.poised.journal) (fun s h => ?_) hfence).conseq
      (fun _ h => h.1) (fun _ s h => ?_) fun _ _ h => h
    · exact ⟨⟨⟨[], hempty _ h.1, rfl, rfl⟩, h.1⟩, h.2⟩
    · obtain ⟨⟨⟨es, hj, -, hseq⟩, hadmits⟩, houter⟩ := h
      rw [hempty _ hadmits, Except.ok.injEq] at hj
      subst hj
      exact ⟨hseq.symm, hadmits, houter⟩

/-- **Settling** closes the record. -/
theorem settle_total (hclean : r.store.faults = Faults.clean) (id : String) :
    Total (Over (Disk.Admits r.store.digest v id) (Outer K G)) r.settle
      (fun _ w => Over (Disk.Admits r.store.digest v id) (Outer K G) w ∧ Closed w) := by
  refine settling_triple (G := fun _ => False) (fun hne => hne hclean : _ → False)
    (outer_aside.over _) (fun w n h => h) (fun w reason h => h.1.filed.readable reason)
    (fun w e h hstate => ?_) (fun _ _ hf => hf) (fun w h hclosed => ⟨h, hclosed⟩)
    (fun w op state now h _ _ hstate hphase _ => ?_)
    (fun w op state now reason h hop hopen _ _ _ => ?_) (fun w state h hstate hbusy => ?_)
  · rw [h.1.poised.transactionState] at hstate
    cases hstate
  · rw [h.1.poised.transactionState, Except.ok.injEq] at hstate
    rw [← hstate] at hphase
    cases hphase
  · refine ⟨⟨h.1.settled hop hopen now reason, h.2⟩, fun op' hop' => ?_⟩
    obtain ⟨rfl, -⟩ := observed_record hop'
    simp [advance]
  · rw [h.1.poised.transactionState, Except.ok.injEq] at hstate
    rw [← hstate] at hbusy
    cases hbusy

/-! ## the record of the new operation -/

/-- **Archiving** the settled record of another operation. -/
theorem archive_total (hclean : r.store.faults = Faults.clean)
    (hinj : ∀ a b, r.store.digest a = r.store.digest b → a = b) {id : String} {op : Operation}
    (hsettled : op.outcome ≠ none) :
    Total (fun w => Over (Disk.Admits r.store.digest v id) (Outer K G) w ∧
        w.disk.readOperation = .observed op) (r.store.archive op)
      (fun _ => Over (fun d => d.Poised v) (Outer K G)) := by
  have hstep : ∀ label : String, Total (Over (fun d => d.Poised v) (Outer K G))
      (r.store.boundary label) (fun _ => Over (fun d => d.Poised v) (Outer K G)) := fun label =>
    (FileStore.boundary_triple (fun hne => hne hclean : _ → False) (outer_aside.over _) label).crash
      fun _ h => h.2
  have hreceipt : Total (Over (fun d => d.Poised v) (Outer K G)) (r.store.writeReceipt op)
      (fun _ => Over (fun d => d.Poised v) (Outer K G)) := by
    unfold FileStore.writeReceipt
    refine Triple.bind (hstep _) fun _ => Triple.bind ?_ fun _ => hstep _
    exact Triple.modify fun w hw => ⟨hw.1.congr rfl rfl rfl, hw.2⟩
  refine Triple.of_forall fun w ⟨hw, hop⟩ => ?_
  obtain ⟨hfile, hvalid⟩ := Disk.readOperation_observed_iff.mp hop
  have hstart : ∀ w', w' = w → Over (fun d => d.Poised v) (Outer K G) w' := fun w' h => by
    rw [h]
    exact ⟨hw.1.poised, hw.2⟩
  unfold FileStore.archive
  rw [hvalid, if_neg hsettled]
  refine Triple.bind (R := fun _ w' => w' = w) (Triple.pure fun _ h => h) fun _ => ?_
  refine Triple.get_bind fun w' h => ?_
  subst h
  rcases hw.1.filed.receipts (r.store.digest op.id) with hnone | ⟨a, ha, -⟩
  · have hgenesis : w'.disk.readArchive r.store.digest op.id = .genesis := by
      simp [Disk.readArchive, readOperationFile, hnone]
    rw [hgenesis]
    exact hreceipt.pre hstart
  · obtain ⟨htarget, houtcome⟩ := hw.1.filed.agree op a hfile ha
    rw [hw.1.filed.readArchive_content hinj ha]
    dsimp only
    rw [if_neg (by simp [htarget, houtcome])]
    exact Triple.pure hstart

/-- **Opening the record** of an operation that is new, on the baseline. -/
theorem openOperation_total (hclean : r.store.faults = Faults.clean)
    (hinj : ∀ a b, r.store.digest a = r.store.digest b → a = b)
    (hdesc : options.operation = some desc) (hid : desc.id ≠ "") :
    Total (fun w => Over (Disk.Admits r.store.digest v desc.id) (Outer K G) w ∧ Closed w)
      (r.openOperation (some target) options)
      (fun opened w => (Kept desc.id opened.1 ∧ opened.2 = v) ∧
        Over (fun d => d.Poised v) (Outer K G) w) := by
  have hblame : r.store.faults ≠ Faults.clean → False := fun hne => hne hclean
  have hstate : Total (Over (fun d => d.Poised v) (Outer K G)) transactionState
      (fun state w => state = .idle v ∧ Over (fun d => d.Poised v) (Outer K G) w) := by
    refine FileStore.readDisk_triple (fun state w hw hs => ⟨?_, hw⟩) fun e w hw hs => ?_
    · rw [hw.1.transactionState, Except.ok.injEq] at hs
      exact hs.symm
    · rw [hw.1.transactionState] at hs
      cases hs
  have hnew : Total (Over (fun d => d.Poised v) (Outer K G)) (do
      let state ← transactionState
      let w ← Prog.get
      let op := newOperation desc options (some target) state.stable (r.clock w.tick)
      r.store.persistOperation op
      pure (some op, state.stable))
      (fun opened w => (Kept desc.id opened.1 ∧ opened.2 = v) ∧
        Over (fun d => d.Poised v) (Outer K G) w) := by
    refine Total.bind_eq hstate (Triple.get_bind fun w hw => ?_)
    have hvalid : (newOperation desc options (some target) v (r.clock w.tick)).validate =
        .ok () := by simp [Operation.validate, newOperation, hid]
    have hpersist : Total (Over (fun d => d.Poised v) (Outer K G)) (r.store.persistOperation
        (newOperation desc options (some target) v (r.clock w.tick)))
        (fun _ => Over (fun d => d.Poised v) (Outer K G)) :=
      (FileStore.persistOperation_triple hblame (outer_aside.over _) (outer_aside.over _)
        (.inl hvalid) fun w' _ hw' => ⟨hw'.1.congr rfl rfl rfl, hw'.2⟩).crash fun _ h => h.2
    refine Triple.bind (hpersist.pre fun w' h => by rw [h]; exact hw) fun _ => ?_
    exact Triple.pure fun _ h => ⟨⟨⟨_, rfl, hvalid, rfl⟩, rfl⟩, h⟩
  unfold openOperation
  refine Triple.bind (readRecord_triple (G := fun _ => False) fun w reason hw hop =>
    hw.1.1.filed.readable reason hop) fun previous => ?_
  rw [hdesc]
  cases previous with
  | none => exact hnew.pre fun w h => ⟨h.1.1.1.poised, h.1.1.2⟩
  | some previous =>
      refine Triple.bind (R := fun _ => Over (fun d => d.Poised v) (Outer K G)) ?_ fun _ => hnew
      refine Triple.of_forall fun w hread => ?_
      obtain ⟨⟨hw, hclosed⟩, hop⟩ := hread
      have hop : w.disk.readOperation = .observed previous := hop
      have hne := hw.1.other previous (Disk.readOperation_observed_iff.mp hop).1
      have hsettled := hclosed previous hop
      unfold retirePrevious
      rw [if_neg fun h => hne h.1, if_pos hne, if_neg hsettled]
      exact (archive_total hclean hinj hsettled).pre fun w' h => by rw [h]; exact ⟨hw, hop⟩

/-! ## the drive -/

/-- The upgrade under `id` came to the promotion of `target`. -/
def EndsPromoted (id target : String) (outcome : UpgradeOutcome) (w : World η γ) : Prop :=
  (∃ report, outcome = .promoted report) ∧ w.disk.Promoted id target

/-- **Recording** the promotion. -/
theorem conclude_total (hclean : r.store.faults = Faults.clean) (hS : S.Succeeds r v target)
    {id : String} {op : Option Operation} (hop : Kept id op) :
    Total (Over (fun d => d.Rests (trim target)) (Outer K S.prepared))
      (r.conclude c op (.promoted target))
      (EndsPromoted id target) := by
  have hreport : ∀ report, Total (Over (fun d => d.Rests (trim target)) (Outer K fun _ => True))
      (r.store.persistReport report)
      (fun _ => Over (fun d => d.Rests (trim target)) (Outer K fun _ : γ => True)) := fun report =>
    (FileStore.write_keeps (fun hne => hne hclean : _ → False) outer_aside
      fun d hd => hd.congr rfl).crash fun _ h => h.2
  obtain ⟨o, rfl, hvalid, rfl⟩ := hop
  unfold conclude
  refine Triple.get_bind fun w hw => ?_
  refine Triple.pre (P := Over (fun d => d.Rests (trim target)) (Outer K S.prepared)) ?_
    fun w' h => by rw [h]; exact hw
  refine Triple.bind (product_total hS.notify) fun _ => Triple.bind (hreport _) fun _ => ?_
  refine Triple.bind (transition_total hclean (fun _ _ hd => hd.congr rfl) hvalid _ _ _)
    fun op => ?_
  refine Triple.pure fun w' h => ⟨⟨_, rfl⟩, h.2.1.stable, ?_⟩
  obtain ⟨⟨now, -, hfile⟩, -⟩ := h
  exact ⟨_, Disk.readOperation_observed_iff.mpr ⟨hfile, hvalid⟩, rfl, rfl⟩

/-- **The drive** with one engine, from recovery to the promotion. -/
theorem driveEngine_total (hclean : r.store.faults = Faults.clean)
    (hinj : ∀ a b, r.store.digest a = r.store.digest b → a = b)
    (hH : H.Succeeds r.host r.self target) (hS : S.Succeeds r v target) (hc : r.Declares c)
    (htarget : trim target ≠ "") (hother : target ≠ v) (hconsented : options.consented = true)
    (hdesc : options.operation = some desc) (hid : desc.id ≠ "") :
    Total (OnWorld (Over (Disk.Admits r.store.digest v desc.id) (Outer H.waiting S.asked)))
      (r.driveEngine c (some target) options)
      (fun outcome => OnWorld (EndsPromoted desc.id target outcome)) := by
  unfold driveEngine
  refine Triple.bind (recoverEngine_total hclean hH.fence desc.id) fun _ => ?_
  refine Triple.bind (lift_triple (settle_total hclean desc.id) 0) fun _ => ?_
  refine Triple.bind (lift_triple (openOperation_total hclean hinj hdesc hid) 0) fun opened => ?_
  obtain ⟨operation, current⟩ := opened
  refine Triple.pre (P := fun s => (Kept desc.id operation ∧ current = v) ∧
    s.seq = 0 ∧ Over (fun d => d.Poised v) (Outer H.waiting S.asked) s.world) ?_
    fun s h => ⟨h.2.1, h.1, h.2.2⟩
  refine Triple.assume fun ⟨hkept, hcurrent⟩ => ?_
  subst hcurrent
  refine Triple.bind (lift_triple (pick_total hS hconsented) 0) fun picked => ?_
  refine Triple.pre (P := fun s => (∃ release, picked = .release release ∧
    release.version = target) ∧ s.seq = 0 ∧
    Over (fun d => d.Poised current) (Outer H.waiting S.cleared) s.world) ?_
    fun s h => ⟨h.2.1, h.1, h.2.2⟩
  refine Triple.assume fun hpicked => ?_
  obtain ⟨release, rfl, hrelease⟩ := hpicked
  refine Triple.bind (lift_triple (bringIn_total hclean hS hkept hrelease) 0) fun op => ?_
  refine Triple.pre (P := fun s => Kept desc.id op ∧
    Tracked none (fun d => d.Rests current ∧ d.Loaded) H.waiting S.prepared s) ?_ fun s h => ?_
  · refine Triple.assume fun hop => ?_
    unfold carryOut
    rw [hrelease]
    refine Triple.bind (upgrade_total hclean hH hS hc htarget hother).attempt fun reply => ?_
    refine Triple.exists_pre fun outcome => Triple.assume fun hreply => ?_
    refine Triple.assume fun hpromoted => ?_
    rw [hreply, hpromoted]
    refine Triple.bind (R := fun _ => OnWorld (Over (fun d => d.Rests (trim target))
      (Outer (fun _ => True) S.prepared))) (Triple.zoom fun _ hs => hs) fun _ => ?_
    exact Triple.zoom fun s hs => (conclude_total hclean hS hop s.world hs).mono (fun _ _ h => h)
      fun _ _ h => h
  · obtain ⟨hseq, hkept, ⟨hpoised, hloaded⟩, houter⟩ := h
    refine ⟨hkept, ⟨⟨[], Disk.readJournal_absent hpoised.journal, rfl, ?_⟩, hpoised.slots,
      hloaded⟩, houter⟩
    rw [hseq]
    rfl

/-- The checks of a call are passed. -/
theorem engineCall_total (h : r.Configured) {P : World η γ → Prop} {Q : α → World η γ → Prop}
    (hP : ∀ w o, P w → P { w with observed := o })
    {m : Convergence (World η γ) → Prog Error (World η γ) α}
    (hm : ∀ c, r.Declares c → Total P (m c) Q) :
    Total P (do
      let c ← r.convergence
      Prog.ofExcept (Engine.checkBudget r.hostBudgetMs)
      m c) Q := by
  have hdeclared : Total P r.convergence (fun c w => r.Declares c ∧ P w) :=
    (Total.and_triple (convergence_configured h hP) convergence_declares).conseq
      (fun _ hw => ⟨hw, trivial⟩) (fun _ _ hw => ⟨hw.2.1, hw.1.2⟩) fun _ _ hf => hf
  refine Triple.bind hdeclared fun c => Triple.assume fun hc => ?_
  refine Triple.bind (R := fun _ => P) (Triple.ofExcept (fun _ _ _ hw => hw) fun e w he _ => ?_)
    fun _ => hm c hc
  rw [h.budget] at he
  cases he

/-- The record is looked at before anything else. -/
theorem readRequired_total {P : World η γ → Prop}
    (hP : ∀ w reason, P w → w.disk.readOperation ≠ .unreadable reason) :
    Total P (readRequired : Prog Error (World η γ) _) (fun _ => P) :=
  (readRecord_triple (G := fun _ => False) hP).post fun _ _ h => h.1

/-- **A recovery without faults** returns, and the directory admits the operation still. -/
theorem recover_total (hclean : r.store.faults = Faults.clean) (h : r.Configured)
    (hK : Fences r.host K) (id : String) :
    Total (fun w => w.lock = .free ∧ Over (Disk.Admits r.store.digest v id) (Outer K G) w)
      (r.recover none)
      (fun _ w => w.lock = .free ∧ Over (Disk.Admits r.store.digest v id) (Outer K G) w) := by
  have hengine : ∀ c, Total (OnWorld (Over (Disk.Admits r.store.digest v id) (Outer K G)))
      (do
        r.recoverEngine c
        lift r.settle)
      (fun _ => OnWorld (Over (Disk.Admits r.store.digest v id) (Outer K G))) := fun c =>
    Triple.bind (recoverEngine_total hclean hK id) fun _ =>
      (lift_triple (settle_total hclean id) 0).post fun _ _ hs => hs.2.1
  have hbody : Total (Over (Disk.Admits r.store.digest v id) (Outer K G)) (r.recoverLocked none)
      (fun _ => Over (Disk.Admits r.store.digest v id) (Outer K G)) := by
    unfold recoverLocked
    refine Triple.bind (readRequired_total fun w reason hw => hw.1.filed.readable reason)
      fun _ => ?_
    exact engineCall_total h (fun _ _ hw => hw) fun c _ => withEngine_triple (hengine c)
  have hlocked := locked_clean_triple hclean (fun _ _ _ hw => hw) (fun _ _ _ _ hw => hw) hbody
  exact (Total.and_triple hlocked (locked_frees _)).conseq (fun _ hw => ⟨hw, trivial⟩)
    (fun _ _ hw => ⟨hw.2, hw.1⟩) fun _ _ hf => hf

/-- **The upgrade of a call** that is consented to, to another version and under a new id, ends
promoted. -/
theorem upgradeTo_total (hclean : r.store.faults = Faults.clean) (h : r.Configured)
    (hinj : ∀ a b, r.store.digest a = r.store.digest b → a = b)
    (hH : H.Succeeds r.host r.self target) (hS : S.Succeeds r v target)
    (htarget : trim target ≠ "") (hother : target ≠ v) (hconsented : options.consented = true)
    (hdesc : options.operation = some desc) (hid : desc.id ≠ "") :
    Total (fun w => w.lock = .free ∧
        Over (Disk.Admits r.store.digest v desc.id) (Outer H.waiting S.asked) w)
      (r.upgradeTo target options)
      (EndsPromoted desc.id target) := by
  let P : World η γ → Prop := Over (Disk.Admits r.store.digest v desc.id) (Outer H.waiting S.asked)
  have hprior : Total P (r.prior ⟨desc.id, target⟩ false) (fun _ => P) := by
    refine (prior_triple ⟨desc.id, target⟩ false).conseq (fun _ hw => hw) (fun _ _ hw => hw.2) ?_
    rintro _ w ⟨⟨err, -, herr⟩, hw⟩
    have harchive : w.disk.readArchive r.store.digest desc.id = .genesis := by
      simp [Disk.readArchive, readOperationFile, hw.1.receipt]
    unfold priorAnswer at herr
    rw [harchive] at herr
    cases hop : w.disk.readOperation with
    | unreadable reason => exact hw.1.filed.readable reason hop
    | genesis =>
        rw [hop] at herr
        cases herr
    | observed op =>
        have hne := hw.1.other op (Disk.readOperation_observed_iff.mp hop).1
        rw [hop] at herr
        simp only [recordAnswer, if_neg hne] at herr
        cases herr
  have hbody : Total P (r.driveLocked (some target) options)
      (EndsPromoted desc.id target) := by
    unfold driveLocked
    refine Triple.bind (readRequired_total fun w reason hw => hw.1.filed.readable reason)
      fun _ => ?_
    rw [hdesc]
    refine Triple.bind hprior fun _ => engineCall_total h (fun _ _ hw => hw) fun c hc => ?_
    exact withEngine_triple
      (driveEngine_total hclean hinj hH hS hc htarget hother hconsented hdesc hid)
  have hlocked := locked_clean_triple hclean (fun _ _ _ hw => hw) (fun _ _ _ _ hw => hw) hbody
  unfold upgradeTo drive
  refine Triple.get_bind fun w hw => ?_
  rw [hS.managed _ hw.2.2.2, if_neg (by simp)]
  exact hlocked.pre fun w' h => by rw [h]; exact hw

end Drive

end Runner

end KCarrier
