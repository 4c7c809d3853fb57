import KCarrier.Bootstrap
import KCarrier.Runner.Faultless

/-!
# KCarrier.Runner.Admission

What a bootstrap yields, after calls on a directory where nothing was installed.

Bootstrap decides on the slots and the journal, which are empty whatever was called before.
Recovery decides on `operation.json` as well: a record from before the baseline counts from no
version, and once it is settled it contradicts every baseline of another version (`Belied`).
So the baseline admits a recovery and the next upgrade exactly where there is no such record
(`baseline_admissible_iff`).
-/

namespace KCarrier

open Crash
open Running

variable {η γ : Type}

/-! ## what a bootstrap is to yield -/

/-- The upgrade by `r` under the id `id` ends promoted. -/
def Runner.Promoting (r : Runner η γ) (id target : String) (options : UpgradeOptions)
    (w : World η γ) : Prop :=
  ∃ report w', r.upgradeTo target options w = (.ok (.promoted report), w') ∧
    w'.disk.Promoted id target

/-- The baseline is there, a recovery by `q` returns, and the upgrade by `r` ends promoted, at
once and after that recovery. -/
structure AdmissibleBaseline (q r : Runner η γ) (version : String) (source : SourceFile)
    (id target : String) (options : UpgradeOptions) (w : World η γ) : Prop where
  slot : ∃ bytes, source = .content bytes ∧
    w.disk.slots .stable = .dir ⟨.content (trim version), .content bytes⟩
  recovers : (q.recover none w).1 = .ok ()
  upgrades : r.Promoting id target options w
  upgradesAfter : r.Promoting id target options (q.recover none w).2

/-- The worker meets no fault, is configured as it should be, and finds receipts by `digest`. -/
structure Runner.Faultless (r : Runner η γ) (digest : String → String) : Prop where
  clean : r.store.faults = Faults.clean
  configured : r.Configured
  digest : r.store.digest = digest

/-- The upgrade is consented to, has an id, and goes to another version than `v`. -/
structure UpgradeOptions.Asks (options : UpgradeOptions) (desc : OperationDescriptor)
    (v target : String) : Prop where
  consented : options.consented = true
  operation : options.operation = some desc
  named : desc.id ≠ ""
  versioned : trim target ≠ ""
  other : target ≠ v

/-- The operation `id` is new to the directory. -/
structure Disk.NewTo (digest : String → String) (id : String) (d : Disk) : Prop where
  receipt : d.receipts (digest id) = .absent
  record : ∀ op, d.operation = .content op → op.id ≠ id

/-! ## a baseline that is belied -/

/-- `v` is stable, and there is a record that counts from another version. -/
structure Disk.Belied (v : String) (d : Disk) : Prop where
  journal : d.journal = .absent
  slots : d.Rests v
  record : ∃ op, d.readOperation = .observed op ∧ op.fromVersion ≠ v ∧ op.outcome ≠ some .promoted

theorem Disk.Belied.transactionState {d : Disk} {v : String} (h : d.Belied v) :
    d.transactionState = .ok (.idle v) := by
  unfold Disk.transactionState
  rw [readJournal_absent h.journal, h.slots.stable]
  rfl

namespace Runner

variable {r : Runner η γ} {c : Convergence (World η γ)} {v : String}

/-- The record is settled as well. -/
def Refuted (v : String) (w : World η γ) : Prop := w.disk.Belied v ∧ Closed w

/-- **A settled record** of another version lets no recovery return. -/
theorem recoverEngine_refuted :
    Triple (OnWorld (Refuted v : World η γ → Prop)) (r.recoverEngine c) (fun _ _ => False)
      (fun _ => OnWorld fun _ => True) := by
  refine recovering_within (fun _ _ => trivial) ?_ fun s hs => ?_
  · intro w op outcome state es h hop ho hstate _ hstable _
    obtain ⟨op', hop', hfrom, hne⟩ := h.1.record
    rw [hop, OperationRead.observed.injEq] at hop'
    subst hop'
    rw [h.1.transactionState, Except.ok.injEq] at hstate
    subst hstate
    rw [settledVersion_of_ne ho hne] at hstable
    exact hfrom hstable.symm
  · obtain ⟨op, hop, -⟩ := hs.1.1.record
    exact absurd (hs.2.1 op hop) (hs.1.2 op hop)

/-- An open one is settled as rolled back. -/
theorem recoverEngine_belied :
    Keeps (OnWorld fun w : World η γ => w.disk.Belied v) (r.recoverEngine c) := by
  have hcall : Keeps (Over (fun d => d.Belied v) fun _ : World η γ => True)
      (r.hostCall "fence" fun h => h.fence) := hostCall_keeps remote_true _ _
  have hfence : Keeps (OnWorld fun w : World η γ => w.disk.Belied v)
      (Engine.bounded "fence" (r.engine c).host.fence) :=
    (Keeps.bounded hcall).conseq (fun _ h => ⟨h, trivial⟩) (fun _ _ h => h.1) fun _ _ h => h.1
  have hrecover := recover_fences (r := r) (c := c) (fun _ h => h.journal) (fun _ h => h) hfence
  exact recoverEngine_of_recover (fun _ h => h) (hrecover.pre fun _ h => h.1)

theorem settle_belied :
    Triple (fun w : World η γ => w.disk.Belied v) r.settle (fun _ => Refuted v)
      (fun _ _ => True) := by
  refine settling_within (fun _ _ h => h) (fun _ _ h => h) (fun _ _ => trivial)
    (fun _ _ => trivial) (fun w h hclosed => ⟨h, hclosed⟩) ?_ ?_ ?_
  · intro w op state now h _ _ hstate hphase _
    rw [h.transactionState, Except.ok.injEq] at hstate
    rw [← hstate] at hphase
    cases hphase
  · intro w op state now reason h hop _ _ _ _
    obtain ⟨op', hop', hfrom, -⟩ := h.record
    rw [hop, OperationRead.observed.injEq] at hop'
    subst hop'
    have hvalid := (Disk.readOperation_observed_iff.mp hop).2
    let rolled := advance op now .rolledBack (some .rolledBack) reason
    have hread : (w.record rolled).disk.readOperation = .observed rolled :=
      Disk.readOperation_observed_iff.mpr ⟨rfl, hvalid⟩
    have hne : rolled.outcome ≠ some .promoted := by simp [rolled, advance]
    refine ⟨⟨h.journal, h.slots.congr rfl, rolled, hread, hfrom, hne⟩, fun op' hop' => ?_⟩
    obtain ⟨rfl, -⟩ := observed_record hop'
    simp [advance]
  · intro w state h hstate hbusy
    rw [h.transactionState, Except.ok.injEq] at hstate
    rw [← hstate] at hbusy
    cases hbusy

/-- **A recovery** that returns leaves the record settled. -/
theorem recover_belied :
    Triple (fun w : World η γ => w.disk.Belied v) (r.recover none) (fun _ => Refuted v)
      (fun _ _ => True) := by
  refine locked_post (fun _ _ _ h => h) (fun _ _ _ _ h => h) ?_
  refine recoverLocked_within none (fun _ _ h => h) (fun _ _ _ => trivial) fun c _ => ?_
  refine Triple.bind (recoverEngine_belied.crash fun _ _ => trivial) fun _ => ?_
  exact Triple.zoom fun s hs => settle_belied s.world hs

/-- And then no upgrade returns. -/
theorem upgradeTo_refuted (target : String) (options : UpgradeOptions) :
    Triple (Refuted v : World η γ → Prop) (r.upgradeTo target options)
      (fun outcome _ => ∀ report, outcome ≠ .promoted report) (fun _ _ => True) := by
  have hlocked : Triple (Refuted v : World η γ → Prop)
      (r.locked (r.driveLocked (some target) options)) (fun _ _ => False) (fun _ _ => True) := by
    refine locked_post (fun _ _ _ h => h) (fun _ _ _ _ h => h) ?_
    refine driveLocked_within (some target) options (fun _ _ h => h) (fun _ _ _ => trivial)
      fun c _ => ?_
    unfold driveEngine
    exact Triple.bind recoverEngine_refuted fun _ _ hf => hf.elim
  unfold upgradeTo drive
  refine Triple.get_bind fun w hw => Triple.ite (fun _ => ?_) fun _ => ?_
  · exact Triple.bind Triple.any fun _ => Triple.pure fun _ _ _ => by simp
  · exact hlocked.conseq (fun w' h => by rw [h]; exact hw) (fun _ _ hf => hf.elim) fun _ _ h => h

end Runner

/-! ## the baseline -/

section Adopt

variable {d : Disk} {version : String} {bytes : Bytes}

/-- With a baseline nothing is on trial. -/
theorem Disk.Unbased.adopt_rests (h : d.Unbased) (hversion : trim version ≠ "") :
    (d.adopt (trim version) bytes).Rests (trim version) := by
  have hregular : d.Regular := fun place => by simp [h.slots place]
  refine ⟨hregular.setSlot .stable (by simp), ?_, ?_⟩
  · simp [Disk.version, adopt, File.read, trim_trim, hversion]
  · rw [adopt, setSlot_of_ne d _ (by simp)]
    exact h.slots .experiment

/-- **An admissible baseline**: no record is older. -/
theorem Disk.Unbased.adopt_admits {digest : String → String} {id : String} (h : d.Unbased)
    (hattested : d.Attested) (hfiled : d.Filed digest) (hnew : d.NewTo digest id)
    (hversion : trim version ≠ "")
    (hbase : d.operation = .absent ∨ trim version = unversioned) :
    (d.adopt (trim version) bytes).Admits digest (trim version) id where
  poised := ⟨h.journal, h.adopt_rests hversion, hattested⟩
  filed := ⟨hfiled.operation, hfiled.receipts, hfiled.agree⟩
  record op hop := by
    have hop : d.operation = .content op := hop
    rcases hbase with hnone | hbase
    · rw [hnone] at hop
      cases hop
    · rw [hbase]
      exact ⟨(h.record op hop).start, (h.record op hop).outcome⟩
  receipt := hnew.receipt
  other := hnew.record

/-- **A belied baseline**: a record is older. -/
theorem Disk.Unbased.adopt_belied {digest : String → String} (h : d.Unbased)
    (hfiled : d.Filed digest) (hversion : trim version ≠ "")
    (hbase : ¬(d.operation = .absent ∨ trim version = unversioned)) :
    (d.adopt (trim version) bytes).Belied (trim version) := by
  rw [not_or] at hbase
  obtain ⟨op, hop, hvalid⟩ := hfiled.operation.resolve_left hbase.1
  refine ⟨h.journal, h.adopt_rests hversion, op, readOperation_observed_iff.mpr ⟨hop, hvalid⟩, ?_,
    (h.record op hop).outcome⟩
  rw [(h.record op hop).start]
  exact fun he => hbase.2 he.symm

end Adopt

/-- **Bootstrap yields an admissible baseline** after any run of calls on an empty directory,
each cut off anywhere, if and only if there is no record of an operation yet, or the baseline is
the version that stands for none: then its version and bytes are stable, a recovery without
faults returns, and the next upgrade without faults, new, consented to and to another version,
ends promoted. -/
theorem baseline_admissible_iff (digest : String → String)
    (hinj : ∀ a b, digest a = digest b → a = b) (w : World η γ) (hw : w.disk = Disk.empty)
    (hlog : w.log = []) (visits : List (Visit η γ))
    (hvisits : ∀ visit ∈ visits, visit.runner.store.digest = digest) (b : Runner η γ)
    (version : String) (source : SourceFile) (found done : Adoption η γ)
    (hfound : found.world.disk = (runVisits visits w).disk)
    (hdone : b.bootstrapStable version source found = (.ok true, done)) (q r : Runner η γ)
    (hq : q.Faultless digest) (hr : r.Faultless digest) (H : Handover η) (S : Supply γ)
    (target : String) (options : UpgradeOptions) (desc : OperationDescriptor)
    (hasks : options.Asks desc (trim version) target) (hnew : found.world.disk.NewTo digest desc.id)
    (hfences : Fences q.host H.waiting) (hhandover : H.Succeeds r.host r.self target)
    (hsupply : S.Succeeds r (trim version) target) (host : η) (hhost : H.waiting host)
    (product : γ) (hproduct : S.asked product) :
    AdmissibleBaseline q r version source desc.id target options
        { done.world with lock := .free, host := host, product := product } ↔
      found.world.disk.operation = .absent ∨ trim version = unversioned := by
  obtain ⟨bytes, hadopted⟩ := Runner.bootstrapStable_adopts hdone
  have hdisk : done.world.disk = found.world.disk.adopt (trim version) bytes := hadopted.world.disk
  have hempty : Disk.empty.Filed digest := ⟨.inl rfl, fun _ => .inl rfl, fun _ _ h => by cases h⟩
  have hunbased : found.world.disk.Unbased := by
    rw [hfound]
    exact runVisits_unbased (by rw [hw]; exact Disk.empty_unbased)
  have hattested : found.world.disk.Attested := by
    rw [hfound]
    exact runVisits_attested (by rw [hw]; exact ⟨none, rfl⟩)
  have hfiled : found.world.disk.Filed digest := by
    rw [hfound]
    exact (runVisits_safekept hinj (fun _ h => h.elim)
      (Disk.Filed.safekept (by rw [hw]; exact hempty) hlog) hvisits).filed
  let start : World η γ := { done.world with lock := .free, host := host, product := product }
  have hstart : start.disk = found.world.disk.adopt (trim version) bytes := hdisk
  constructor
  · intro hadmissible
    refine Classical.byContradiction fun hbase => ?_
    have hbelied : start.disk.Belied (trim version) := by
      rw [hstart]
      exact hunbased.adopt_belied hfiled hadopted.named hbase
    have hrefuted := (Runner.recover_belied (r := q)).of_ok hbelied hadmissible.recovers
    obtain ⟨report, w', hrun, -⟩ := hadmissible.upgradesAfter
    exact (Runner.upgradeTo_refuted target options).run_ok hrefuted hrun report rfl
  · intro hbase
    have hadmits : start.disk.Admits digest (trim version) desc.id := by
      rw [hstart]
      exact hunbased.adopt_admits hattested hfiled hnew hadopted.named hbase
    have hupgrade : ∀ w' : World η γ, w'.lock = .free → Over
        (Disk.Admits digest (trim version) desc.id) (Outer H.waiting S.asked) w' →
        r.Promoting desc.id target options w' := by
      intro w' hlock h
      have htotal := Runner.upgradeTo_total hr.clean hr.configured (by rw [hr.digest]; exact hinj)
        hhandover hsupply hasks.versioned hasks.other hasks.consented hasks.operation hasks.named
      rw [hr.digest] at htotal
      obtain ⟨outcome, w'', hrun, ⟨report, rfl⟩, hpromoted⟩ := htotal.run_of_not_fault ⟨hlock, h⟩
      exact ⟨report, w'', hrun, hpromoted⟩
    have hrecover := Runner.recover_total (G := S.asked) (v := trim version) hq.clean hq.configured
      hfences desc.id
    rw [hq.digest] at hrecover
    have hpre : start.lock = .free ∧ Over (Disk.Admits digest (trim version) desc.id)
        (Outer H.waiting S.asked) start := ⟨rfl, hadmits, hhost, hproduct⟩
    obtain ⟨_, w', hrun, hlock, hkept⟩ := hrecover.run_of_not_fault hpre
    refine ⟨⟨bytes, hadopted.source, ?_⟩, by rw [hrun], hupgrade start rfl hpre.2, ?_⟩
    · show start.disk.slots .stable = _
      rw [hstart]
      exact Disk.setSlot_self _ _ _
    · rw [hrun]
      exact hupgrade w' hlock hkept

namespace Service

/-- An empty directory, and nothing runs. -/
def uninstalled : World Service Unit :=
  { installed "1" with disk := Disk.empty, host := ⟨none, false, 0⟩ }

/-- The states of the service while its first version is started. -/
def handover (target : String) : Handover Service where
  waiting s := s.running = none ∧ s.started = 0
  leaving prior s := prior = none ∧ s.running = none ∧ s.started = 0
  parked prior s := prior = none ∧ s.running = none ∧ s.started = 0
  stopped prior s := prior = none ∧ s.running = none ∧ s.started = 0
  trial prior s := prior = none ∧ s.running = some ⟨target, 2, "boot-1"⟩
  accepted _ := True

theorem handover_succeeds {target : String} {pid : Nat} (htarget : target ≠ "")
    (htrim : trim target = target) (hpid : pid ≠ 2) :
    (handover target).Succeeds host pid target where
  fence _ _ h := ⟨rfl, h⟩
  probe d s h := by
    have hrun : (host d).probe s = (.err (.invalid "service stopped"), s) := by
      show probe s = _
      unfold probe
      rw [h.1]
    rw [hrun]
    exact ⟨_, rfl, rfl, rfl, h⟩
  quiesce _ _ _ h := ⟨rfl, h⟩
  stop _ _ _ h := ⟨rfl, h.1, rfl, h.2.2⟩
  start d prior hversion s h := by
    have hrun : (host d).start .experiment s = (.ok (some ()), s.launch target) := by
      have hversion : d.version Slot.experiment.place = .ok (some target) := by
        rw [← htrim]
        exact hversion
      simp [host, start, h.2.1, hversion]
    rw [hrun]
    refine ⟨rfl, h.1, ?_⟩
    simp only [launch, h.2.2]
    rfl
  readback d prior s h := by
    have hrun : (host d).probe s = (.ok (some ⟨target, 2, "boot-1"⟩), s) := by
      show probe s = _
      unfold probe
      rw [h.2]
    rw [hrun]
    refine ⟨_, rfl, ⟨?_, rfl, fun p hp => ?_⟩, trivial⟩
    · simp [Evidence.validate, htarget, hpid.symm]
    · rw [h.1] at hp
      cases hp
  resume _ _ _ := rfl

/-- A product that always answers. -/
def supply : Supply Unit where
  asked _ := True
  found _ := True
  cleared _ := True
  downloaded _ := True
  prepared _ := True

theorem supply_succeeds (self : Nat) (faults : Faults) (current target : String) :
    supply.Succeeds (runner self faults) current target where
  managed _ _ := rfl
  fetch _ _ := ⟨rfl, trivial⟩
  compatibility _ _ := ⟨rfl, trivial⟩
  download _ _ _ _ := trivial
  prepare _ _ _ _ := ⟨rfl, trivial⟩
  surfaces _ hs := by cases hs
  notify _ _ := trivial

theorem faultless (self : Nat) : (runner self Faults.clean).Faultless fun id => id :=
  ⟨rfl, configured self Faults.clean, rfl⟩

/-- The bootstrap of version `"1"` after some calls. -/
def bootstrapped (visits : List (Visit Service Unit)) : Res Error Bool × Adoption Service Unit :=
  (runner 8 Faults.clean).bootstrapStable "1" (.content [1])
    ⟨{ runVisits visits uninstalled with lock := .free }, .absent⟩

/-- What the next worker finds. -/
def based (visits : List (Visit Service Unit)) : World Service Unit :=
  { (bootstrapped visits).2.world with lock := .free, host := ⟨none, false, 0⟩, product := () }

/-- An upgrade on the empty directory, which the engine refuses. -/
def tooEarly : List (Visit Service Unit) :=
  [⟨runner 7 Faults.clean, .free, (), .execute (.upgrade 1 "a" "2" true)⟩]

/-- And its recovery. -/
def tooEarlySettled : List (Visit Service Unit) :=
  tooEarly ++ [⟨runner 7 Faults.clean, .free, (), .recover none⟩]

/-- The options of the operation `"b"`. -/
def nextOptions : UpgradeOptions := Runner.requestOptions "b" true 0

/-- The bootstrap returns `true` over the record of the refused upgrade.  Once that is settled,
neither a recovery nor an upgrade returns. -/
theorem baseline_belied :
    ((bootstrapped tooEarly).1 = .ok true ∧
      ((runner 9 Faults.clean).recover none (based tooEarly)).1 = .ok () ∧
      ((runner 10 Faults.clean).upgradeTo "2" nextOptions
        ((runner 9 Faults.clean).recover none (based tooEarly)).2).1 =
          .err (.invalid "SETTLED_OPERATION_STATE_MISMATCH")) ∧
    ((bootstrapped tooEarlySettled).1 = .ok true ∧
      ((runner 9 Faults.clean).recover none (based tooEarlySettled)).1 =
        .err (.invalid "SETTLED_OPERATION_STATE_MISMATCH")) ∧
    ∀ visits ∈ [tooEarly, tooEarlySettled],
      ¬AdmissibleBaseline (runner 9 Faults.clean) (runner 10 Faults.clean) "1" (.content [1]) "b"
        "2" nextOptions (based visits) := by
  have hafter : ((runner 10 Faults.clean).upgradeTo "2" nextOptions
      ((runner 9 Faults.clean).recover none (based tooEarly)).2).1 =
        .err (.invalid "SETTLED_OPERATION_STATE_MISMATCH") := by decide +kernel
  have hrecover : ((runner 9 Faults.clean).recover none (based tooEarlySettled)).1 =
      .err (.invalid "SETTLED_OPERATION_STATE_MISMATCH") := by decide +kernel
  refine ⟨⟨by decide +kernel, by decide +kernel, hafter⟩, ⟨by decide +kernel, hrecover⟩,
    fun visits hvisits hadmissible => ?_⟩
  rcases List.mem_pair.mp hvisits with rfl | rfl
  · obtain ⟨report, w', hrun, -⟩ := hadmissible.upgradesAfter
    rw [hrun] at hafter
    cases hafter
  · rw [hadmissible.recovers] at hrecover
    cases hrecover

/-- A recovery on the empty directory, then a status: neither leaves a record. -/
def recordless : List (Visit Service Unit) :=
  [⟨runner 7 Faults.clean, .free, (), .recover none⟩,
    ⟨runner 7 Faults.clean, .free, (), .execute (.status 1)⟩]

theorem baseline_admissible_iff_recordless :
    AdmissibleBaseline (runner 9 Faults.clean) (runner 10 Faults.clean) "1" (.content [1]) "b" "2"
      nextOptions (based recordless) := by
  have htrim : trim "1" = "1" ∧ trim "2" = "2" := by decide +kernel
  have hdone : bootstrapped recordless = (.ok true, (bootstrapped recordless).2) :=
    Prod.ext (by decide +kernel) rfl
  have hnone : (runVisits recordless uninstalled).disk.operation = .absent := by decide +kernel
  have hreceipt : (runVisits recordless uninstalled).disk.receipts "b" = .absent := by
    decide +kernel
  refine (baseline_admissible_iff (fun id => id) (fun _ _ h => h) uninstalled rfl rfl recordless
    (fun visit hvisit => ?_) (runner 8 Faults.clean) "1" (.content [1]) _ _ rfl hdone
    (runner 9 Faults.clean) (runner 10 Faults.clean) (faultless 9) (faultless 10) (handover "2")
    supply "2" nextOptions _ ⟨rfl, rfl, by decide, by rw [htrim.2]; decide,
      by rw [htrim.1]; decide⟩ ⟨hreceipt, fun op hop => ?_⟩ (fun _ _ h => ⟨rfl, h⟩)
    (handover_succeeds (by decide) htrim.2 (by decide)) (supply_succeeds 10 Faults.clean _ "2")
    ⟨none, false, 0⟩ ⟨rfl, rfl⟩ () trivial).mpr (.inl hnone)
  · simp only [recordless, List.mem_cons, List.not_mem_nil, or_false] at hvisit
    rcases hvisit with rfl | rfl <;> rfl
  · have hop : (runVisits recordless uninstalled).disk.operation = .content op := hop
    rw [hnone] at hop
    cases hop

end Service

end KCarrier
