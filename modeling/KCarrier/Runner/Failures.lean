import KCarrier.Runner.Service
import KCarrier.Runner.Settlement

/-!
# KCarrier.Runner.Failures

Failures between the record of an upgrade and its engine.

The drive runs six steps there that may fail for a reason of the product's or of the file
system's: `Step`.  `Reaches` is how far a drive came, `onwards` what is left of it, and
`onwards_err` what becomes of the failure of the step it came to: the failure of a lookup
and of a preparation is recorded as the outcome of the operation, that of any other step
leaves the record open.

* `definite_failure_settled`: which failures are settled, and answered with code 1.
-/

namespace KCarrier

open Crash
open Running

namespace Runner

variable {η γ : Type} {r : Runner η γ}

/-! ## the steps -/

/-- The steps between the record and the engine, with what is at hand there. -/
inductive Step where
  | lookup
  | compatibility (release : Release)
  | download (release : Release)
  | artifact (release : Release) (bytes : Bytes)
  | preparation (release : Release)
  | provenance (release : Release)
deriving DecidableEq, Repr

/-- The step itself. -/
def Step.run (r : Runner η γ) (target : String) (options : UpgradeOptions) (current : String) :
    Step → Prog Error (World η γ) Unit
  | .lookup => do
      let _ ← r.lookup (some target) ⟨current, r.platformKey⟩
      pure ()
  | .compatibility release => do
      let _ ← product (r.hooks.compatibility current release.version)
      pure ()
  | .download release => do
      let _ ← ask "download" (r.downloader release)
      pure ()
  | .artifact _ bytes => r.store.write "incoming" fun disk => { disk with incoming := .content bytes }
  | .preparation release => r.prepare release
  | .provenance release => do
      let w ← Prog.get
      r.store.appendProvenanceAt (options.provenance.getD r.provenanceIdentity) release.version
        none (r.clock w.tick)

/-- The steps whose failure the drive records before it returns it. -/
def Step.recordsFailure : Step → Bool
  | .lookup | .preparation _ => true
  | _ => false

/-- How far a drive came that opened `op₀` and left `w₁`: the next step, the record, and the
world it runs in. -/
inductive Reaches (r : Runner η γ) (target : String) (options : UpgradeOptions) (current : String)
    (op₀ : Option Operation) (w₁ : World η γ) : Step → Option Operation → World η γ → Prop
  | lookup : Reaches r target options current op₀ w₁ .lookup op₀ w₁
  | compatibility {release : Release} {w : World η γ}
      (hlookup : r.lookup (some target) ⟨current, r.platformKey⟩ w₁ = (.ok (some release), w))
      (hpinned : release.version = target)
      (hconsent : options.consented = true ∨ r.policy = .auto) :
      Reaches r target options current op₀ w₁ (.compatibility release) op₀ w
  | download {release : Release} {w w' w'' : World η γ} {op op' : Option Operation}
      (h : Reaches r target options current op₀ w₁ (.compatibility release) op w)
      (hcompatible : product (r.hooks.compatibility current release.version) w = (.ok none, w'))
      (hrecord : r.transition op .downloading none none w' = (.ok op', w'')) :
      Reaches r target options current op₀ w₁ (.download release) op' w''
  | artifact {release : Release} {bytes : Bytes} {w w' w'' w''' : World η γ}
      {op op' op'' : Option Operation}
      (h : Reaches r target options current op₀ w₁ (.download release) op w)
      (hdownload : ask "download" (r.downloader release) w = (.ok bytes, w'))
      (hverifying : r.transition op .verifying none none w' = (.ok op', w''))
      (hstaging : r.transition op' .staging none none w'' = (.ok op'', w''')) :
      Reaches r target options current op₀ w₁ (.artifact release bytes) op'' w'''
  | preparation {release : Release} {bytes : Bytes} {w w' : World η γ} {op : Option Operation}
      (h : Reaches r target options current op₀ w₁ (.artifact release bytes) op w)
      (hwrite : (Step.artifact release bytes).run r target options current w = (.ok (), w')) :
      Reaches r target options current op₀ w₁ (.preparation release) op w'
  | provenance {release : Release} {w w' : World η γ} {op : Option Operation}
      (h : Reaches r target options current op₀ w₁ (.preparation release) op w)
      (hprepare : r.prepare release w = (.ok (), w'))
      (henabled : r.provenanceEnabled = true) :
      Reaches r target options current op₀ w₁ (.provenance release) op w'

/-! ## what is left of a drive -/

/-- The rest of `bringIn` after the candidate was prepared. -/
def bringProvenance (r : Runner η γ) (options : UpgradeOptions) (operation : Option Operation)
    (release : Release) : Prog Error (World η γ) (Option Operation) := do
  if r.provenanceEnabled then do
    let w ← Prog.get
    r.store.appendProvenanceAt (options.provenance.getD r.provenanceIdentity) release.version
      none (r.clock w.tick)
  else
    pure ()
  r.transition operation .handingOver none none

/-- … after the artifact was written. -/
def bringPrepared (r : Runner η γ) (options : UpgradeOptions) (operation : Option Operation)
    (release : Release) : Prog Error (World η γ) (Option Operation) := do
  match ← Prog.attempt (r.prepare release) with
  | .error e => do
      let _ ← r.transition operation .failed (some .failed) (some e.message)
      Prog.throw e
  | .ok () => r.bringProvenance options operation release

/-- … after the download. -/
def bringWritten (r : Runner η γ) (options : UpgradeOptions) (operation : Option Operation)
    (release : Release) (bytes : Bytes) : Prog Error (World η γ) (Option Operation) := do
  r.store.write "incoming" fun disk => { disk with incoming := .content bytes }
  r.bringPrepared options operation release

/-- … after the gates. -/
def bringDownloaded (r : Runner η γ) (options : UpgradeOptions) (operation : Option Operation)
    (release : Release) : Prog Error (World η γ) (Option Operation) := do
  let bytes ← ask "download" (r.downloader release)
  let operation ← r.transition operation .verifying none none
  let operation ← r.transition operation .staging none none
  r.bringWritten options operation release bytes

theorem bringIn_eq (options : UpgradeOptions) (operation : Option Operation) (release : Release) :
    r.bringIn options operation release =
      r.transition operation .downloading none none >>= fun operation =>
        r.bringDownloaded options operation release := by
  unfold bringIn bringDownloaded bringWritten bringPrepared bringProvenance
  rfl

/-- What a drive has fetched when its engine is entered, or its outcome without the engine. -/
abbrev Fetched : Type := UpgradeOutcome ⊕ (Option Operation × Release)

/-- After the gates. -/
def admitted (r : Runner η γ) (options : UpgradeOptions) (operation : Option Operation) :
    Picked → Prog Error (World η γ) Fetched
  | .finished outcome => pure (.inl outcome)
  | .release release => do
      let operation ← r.bringIn options operation release
      pure (.inr (operation, release))

/-- What is left before the engine, from a step on. -/
def onwards (r : Runner η γ) (target : String) (options : UpgradeOptions) (current : String)
    (step : Step) (operation : Option Operation) : Prog Error (World η γ) Fetched :=
  match step with
  | .lookup => r.pick (some target) options operation current >>= r.admitted options operation
  | .compatibility release =>
      r.gates options operation current release >>= r.admitted options operation
  | .download release => do
      let operation ← r.bringDownloaded options operation release
      pure (.inr (operation, release))
  | .artifact release bytes => do
      let operation ← r.bringWritten options operation release bytes
      pure (.inr (operation, release))
  | .preparation release => do
      let operation ← r.bringPrepared options operation release
      pure (.inr (operation, release))
  | .provenance release => do
      let operation ← r.bringProvenance options operation release
      pure (.inr (operation, release))

section

variable {target : String} {options : UpgradeOptions} {current : String}
  {op₀ op : Option Operation} {w₁ w w' : World η γ} {step : Step} {e : Error}

/-- The gates let a release through that was consented to, or needs no consent. -/
theorem gates_eq (operation : Option Operation) (release : Release)
    (hconsent : options.consented = true ∨ r.policy = .auto) :
    r.gates options operation current release =
      product (r.hooks.compatibility current release.version) >>= fun refused =>
        match refused with
        | some reason => do
            let outcome ← r.hold operation reason "held"
            pure (.finished outcome)
        | none => pure (.release release) := by
  have hnotify : ¬((!options.consented) = true ∧ r.policy = .notifyOnly) := by
    rcases hconsent with h | h <;> simp [h]
  have hconfirm : ¬((!options.consented) = true ∧ r.policy = .confirm) := by
    rcases hconsent with h | h <;> simp [h]
  unfold gates
  exact (if_neg hnotify).trans (if_neg hconfirm)

/-- The drive goes on from the step it came to. -/
theorem Reaches.onwards_eq (h : r.Reaches target options current op₀ w₁ step op w) :
    r.onwards target options current .lookup op₀ w₁ =
      r.onwards target options current step op w := by
  induction h with
  | lookup => rfl
  | @compatibility release w hlookup hpinned hconsent =>
      show ((r.pick (some target) options op₀ current) >>= _) w₁ = _
      have hpick : r.pick (some target) options op₀ current w₁ =
          r.gates options op₀ current release w := by
        unfold pick
        rw [Prog.bind_run_ok (Prog.attempt_run_ok hlookup)]
        simp [hpinned]
      rw [Prog.bind_run, hpick, ← Prog.bind_run]
      rfl
  | @download release w w' w'' op op' h hcompatible hrecord ih =>
      have hconsent : options.consented = true ∨ r.policy = .auto := by
        cases h with
        | compatibility _ _ hconsent => exact hconsent
      have hgates : r.gates options op current release w = (.ok (.release release), w') := by
        rw [gates_eq op release hconsent, Prog.bind_run_ok hcompatible]
        rfl
      rw [ih]
      show (r.gates options op current release >>= _) w = _
      rw [Prog.bind_run_ok hgates]
      show (r.bringIn options op release >>= _) w' = _
      rw [bringIn_eq, Prog.bind_assoc, Prog.bind_run_ok hrecord]
      rfl
  | @artifact release bytes w w' w'' w''' op op' op'' h hdownload hverifying hstaging ih =>
      rw [ih]
      show (r.bringDownloaded options op release >>= _) w = _
      unfold bringDownloaded
      rw [Prog.bind_assoc, Prog.bind_run_ok hdownload, Prog.bind_assoc,
        Prog.bind_run_ok hverifying, Prog.bind_assoc, Prog.bind_run_ok hstaging]
      rfl
  | @preparation release bytes w w' op h hwrite ih =>
      rw [ih]
      have hincoming : r.store.write "incoming"
          (fun disk => { disk with incoming := .content bytes }) w = (.ok (), w') := hwrite
      show (r.bringWritten options op release bytes >>= _) w = _
      unfold bringWritten
      rw [Prog.bind_assoc, Prog.bind_run_ok hincoming]
      rfl
  | @provenance release w w' op h hprepare henabled ih =>
      rw [ih]
      show (r.bringPrepared options op release >>= _) w = _
      unfold bringPrepared
      rw [Prog.bind_assoc, Prog.bind_run_ok (Prog.attempt_run_ok hprepare)]
      rfl

/-- What a drive does about the failure `e` of a step. -/
def abandon (r : Runner η γ) (step : Step) (operation : Option Operation) (e : Error) :
    Prog Error (World η γ) Fetched := do
  if step.recordsFailure then do
    let _ ← r.transition operation .failed (some .failed) (some e.message)
    Prog.throw e
  else
    Prog.throw e

/-- A sequence fails where its first part does. -/
theorem err_of_bind_pure {α : Type} {m : Prog Error (World η γ) α}
    (h : (m >>= fun _ => (pure () : Prog Error (World η γ) Unit)) w = (.err e, w')) :
    m w = (.err e, w') := by
  rw [Prog.bind_run] at h
  split at h
  · cases h
  · next hm =>
      rw [hm]
      cases h
      rfl
  · cases h

/-- **The failure of a step**, unless it is the one a consented upgrade is held for. -/
theorem onwards_err (hreach : r.Reaches target options current op₀ w₁ step op w)
    (hfail : step.run r target options current w = (.err e, w'))
    (hpinned : ¬(step = .lookup ∧ options.consented = true ∧
      contains e.message "PINNED_VERSION_MISMATCH" = true)) :
    r.onwards target options current step op w = r.abandon step op e w' := by
  cases step with
  | lookup =>
      have hlookup := err_of_bind_pure hfail
      have hheld : ¬(options.consented = true ∧
          contains e.message "PINNED_VERSION_MISMATCH" = true) := fun h => hpinned ⟨rfl, h⟩
      show (r.pick (some target) options op current >>= _) w = _
      unfold pick
      rw [Prog.bind_assoc, Prog.bind_run_ok (Prog.attempt_run_err hlookup)]
      simp only [if_neg hheld]
      rw [Prog.bind_assoc]
      rfl
  | compatibility release =>
      have hcompatibility := err_of_bind_pure hfail
      have hconsent : options.consented = true ∨ r.policy = .auto := by
        cases hreach with
        | compatibility _ _ hconsent => exact hconsent
      show (r.gates options op current release >>= _) w = _
      rw [gates_eq op release hconsent, Prog.bind_assoc, Prog.bind_run_err hcompatibility]
      rfl
  | download release =>
      have hdownload := err_of_bind_pure hfail
      show (r.bringDownloaded options op release >>= _) w = _
      unfold bringDownloaded
      rw [Prog.bind_assoc, Prog.bind_run_err hdownload]
      rfl
  | artifact release bytes =>
      have hincoming : r.store.write "incoming"
          (fun disk => { disk with incoming := .content bytes }) w = (.err e, w') := hfail
      show (r.bringWritten options op release bytes >>= _) w = _
      unfold bringWritten
      rw [Prog.bind_assoc, Prog.bind_run_err hincoming]
      rfl
  | preparation release =>
      have hprepare : r.prepare release w = (.err e, w') := hfail
      show (r.bringPrepared options op release >>= _) w = _
      unfold bringPrepared
      rw [Prog.bind_assoc, Prog.bind_run_ok (Prog.attempt_run_err hprepare)]
      simp only
      rw [Prog.bind_assoc]
      rfl
  | provenance release =>
      have henabled : r.provenanceEnabled = true := by
        cases hreach with
        | provenance _ _ henabled => exact henabled
      have happend : r.store.appendProvenanceAt (options.provenance.getD r.provenanceIdentity)
          release.version none (r.clock w.tick) w = (.err e, w') := hfail
      show (r.bringProvenance options op release >>= _) w = _
      unfold bringProvenance
      simp only [henabled, if_true]
      rw [Prog.bind_assoc, Prog.bind_run_ok (Prog.get_run w), Prog.bind_assoc,
        Prog.bind_run_err happend]
      rfl

end

/-! ## what the steps leave alone -/

/-- The open record of `e`, over the slots and the journal of `w₁`. -/
def Underway (e : Expected) (w₁ : World η γ) (op : Option Operation) (w : World η γ) : Prop :=
  Owned e op w ∧ w.disk.slots = w₁.disk.slots ∧ w.disk.journal = w₁.disk.journal

section

variable {e : Expected} {target : String} {options : UpgradeOptions} {current : String}
  {op₀ op : Option Operation} {w₁ w : World η γ} {step : Step}

theorem underway_indifferent (e : Expected) (w₁ : World η γ) (op : Option Operation) :
    Indifferent (Underway e w₁ op) where
  tick _ _ h := ⟨owned_on e op _ _ rfl h.1, h.2⟩
  note _ _ _ h := ⟨owned_on e op _ _ rfl h.1, h.2⟩
  product _ _ h := ⟨owned_on e op _ _ rfl h.1, h.2⟩
  observed _ _ h := ⟨owned_on e op _ _ rfl h.1, h.2⟩
  files w _ hj ho _ hs h := ⟨owned_on e op w _ ho h.1, hs.trans h.2.1, hj.trans h.2.2⟩

/-- A step leaves the record, the slots and the journal alone, however it ends. -/
theorem step_underway (target : String) (options : UpgradeOptions) (current : String)
    (step : Step) : Keeps (Underway e w₁ op) (step.run r target options current) := by
  have hP : Indifferent (Underway e w₁ op) := underway_indifferent e w₁ op
  cases step with
  | lookup =>
      refine Triple.bind ?_ fun _ => Triple.pure fun _ h => h
      exact Triple.bind (hP.ask _ _) fun _ => Triple.pure fun _ h => h
  | compatibility release => exact Triple.bind (hP.asked _) fun _ => Triple.pure fun _ h => h
  | download release => exact Triple.bind (hP.ask _ _) fun _ => Triple.pure fun _ h => h
  | artifact release bytes =>
      exact hP.write (f := fun disk => { disk with incoming := .content bytes }) r.store
        fun _ => ⟨rfl, rfl, rfl, rfl⟩
  | preparation release =>
      refine Triple.bind (hP.asked _) fun reply => ?_
      cases reply with
      | some u => exact Triple.pure fun _ h => h
      | none => exact Triple.throw fun _ h => h
  | provenance release =>
      refine Triple.get_bind fun w hw => ?_
      exact (hP.appendProvenance _ _ _ _ _).pre fun w' h => by rw [h]; exact hw

/-- A phase of the open record. -/
theorem underway_progress (op : Option Operation) (phase : OperationPhase) :
    Triple (Underway e w₁ op) (r.transition op phase none none) (Underway e w₁)
      (fun _ _ => True) := by
  refine (transition_triple (fun _ => trivial : _ → True) (underway_indifferent e w₁ op).tick
    (fun op' => (underway_indifferent e w₁ op').tick) (fun _ _ => .inr trivial) ?_ ?_).conseq
    (fun _ h => h) (fun _ _ h => h) fun _ _ _ => trivial
  · rintro rfl w ⟨⟨o, hop, -⟩, -⟩
    cases hop
  · rintro o rfl w now hv ⟨⟨o', hop, -, hfor, ho⟩, hkept⟩
    cases hop
    exact ⟨⟨_, rfl, rfl, ⟨hv, hfor.id, hfor.targetVersion⟩, by simp [advance, ho]⟩, hkept⟩

/-- **At every step the drive comes to**, its record is open and nothing was touched. -/
theorem Reaches.underway (h : r.Reaches target options current op₀ w₁ step op w)
    (hopened : Underway e w₁ op₀ w₁) : Underway e w₁ op w := by
  induction h with
  | lookup => exact hopened
  | compatibility hlookup _ _ =>
      have hkeeps : Keeps (Underway e w₁ op₀) (r.lookup (some target) ⟨current, r.platformKey⟩) :=
        Triple.bind ((underway_indifferent e w₁ op₀).ask _ _) fun _ => Triple.pure fun _ h => h
      exact hkeeps.run_ok hopened hlookup
  | @download release w w' w'' op op' h hcompatible hrecord ih =>
      have hw' : Underway e w₁ op w' :=
        ((underway_indifferent e w₁ op).asked _).run_ok ih hcompatible
      exact (underway_progress op .downloading).run_ok hw' hrecord
  | @artifact release bytes w w' w'' w''' op op' op'' h hdownload hverifying hstaging ih =>
      have hw' : Underway e w₁ op w' :=
        ((underway_indifferent e w₁ op).ask _ _).run_ok ih hdownload
      have hw'' : Underway e w₁ op' w'' := (underway_progress op .verifying).run_ok hw' hverifying
      exact (underway_progress op' .staging).run_ok hw'' hstaging
  | preparation h hwrite ih => exact (step_underway _ _ _ _).run_ok ih hwrite
  | @provenance release w w' op h hprepare henabled ih =>
      exact (step_underway target options current (.preparation release)).run_ok ih hprepare

end

/-! ## how the call ends -/

/-- Writing the record meets no fault. -/
def RecordWrites (r : Runner η γ) : Prop := ∀ n,
  r.store.faults.fault n "before:operation.json" = none ∧
    r.store.faults.fault n "after:operation.json" = none

/-- A transition of a valid record. -/
theorem transition_run (hwrites : r.RecordWrites) {o : Operation} (hv : o.validate = .ok ())
    (phase : OperationPhase) (outcome : Option Outcome) (reason : Option String) (w : World η γ) :
    r.transition (some o) phase outcome reason w =
      (.ok (some (advance o (r.clock w.tick) phase outcome reason)),
        { w.record (advance o (r.clock w.tick) phase outcome reason) with tick := w.tick + 2 }) := by
  let o' := advance o (r.clock w.tick) phase outcome reason
  have hvalid : (Prog.ofExcept o'.validate : Prog Error (World η γ) Unit) w = (.ok (), w) := by
    rw [show o'.validate = .ok () from hv]
    rfl
  have hbefore : r.store.boundary "before:operation.json" w =
      (.ok (), { w with tick := w.tick + 1 }) := by
    unfold FileStore.boundary
    rw [(hwrites w.tick).1]
    rfl
  have hafter : r.store.boundary "after:operation.json"
      { w.record o' with tick := w.tick + 1 } =
      (.ok (), { w.record o' with tick := w.tick + 2 }) := by
    unfold FileStore.boundary
    rw [(hwrites _).2]
    rfl
  have hpersist : r.store.persistOperation o' w =
      (.ok (), { w.record o' with tick := w.tick + 2 }) := by
    unfold FileStore.persistOperation
    rw [Prog.bind_run_ok hvalid, Prog.bind_run_ok hbefore, Prog.bind_run_ok (Prog.modify_run _ _)]
    exact hafter
  show (r.store.persistOperation o' >>= _) w = _
  rw [Prog.bind_run_ok hpersist]
  rfl

/-- The error of a call that failed with `e` and then released its lock at boundary `n`: that
of the release, if it failed; `none` when the worker died there. -/
def leaving (r : Runner η γ) (n : Nat) (e : Error) : Option Error :=
  match r.store.faults.fault n "release" with
  | none => some e
  | some .crash => none
  | some (.fail e') =>
      match r.store.faults.fault (n + 1) "release" with
      | some .crash => none
      | _ => some e'

theorem unlock_run (w : World η γ) : ∃ w', w'.disk = w.disk ∧ w'.tick = w.tick + 1 ∧
    r.unlock w = (match r.store.faults.fault w.tick "release" with
      | none => .ok ()
      | some .crash => .crash
      | some (.fail e) => .err e, w') := by
  unfold unlock
  rw [Prog.bind_run]
  unfold FileStore.boundary
  cases r.store.faults.fault w.tick "release" with
  | none => exact ⟨{ w with tick := w.tick + 1, lock := .free }, rfl, rfl, rfl⟩
  | some fault =>
      cases fault with
      | fail e => exact ⟨{ w with tick := w.tick + 1 }, rfl, rfl, rfl⟩
      | crash => exact ⟨{ w with tick := w.tick + 1 }, rfl, rfl, rfl⟩

/-- The end of a call that failed with a definite error. -/
theorem release_throw_run {α : Type} (w : World η γ) (e : Error) : ∃ w', w'.disk = w.disk ∧
    (r.release >>= fun _ => (Prog.throw e : Prog Error (World η γ) α)) w =
      (match r.leaving w.tick e with
        | some e' => .err e'
        | none => .crash, w') := by
  obtain ⟨w', hdisk, htick, hunlock⟩ := unlock_run (r := r) w
  obtain ⟨w'', hdisk', -, hagain⟩ := unlock_run (r := r) w'
  rw [htick] at hagain
  unfold release leaving
  rw [Prog.bind_assoc]
  cases hfault : r.store.faults.fault w.tick "release" with
  | none =>
      simp only [hfault] at hunlock
      rw [Prog.bind_run_ok (Prog.attempt_run_ok hunlock)]
      exact ⟨w', hdisk, rfl⟩
  | some fault =>
      cases fault with
      | crash =>
          simp only [hfault] at hunlock
          refine ⟨w', hdisk, ?_⟩
          rw [Prog.bind_run, Prog.attempt, hunlock]
      | fail e' =>
          simp only [hfault] at hunlock
          rw [Prog.bind_run_ok (Prog.attempt_run_err hunlock)]
          refine ⟨w'', hdisk'.trans hdisk, ?_⟩
          simp only
          rw [Prog.bind_run, Prog.bind_run, Prog.attempt, hagain]
          cases r.store.faults.fault (w.tick + 1) "release" with
          | none => rfl
          | some fault => cases fault <;> rfl

/-! ## the drive around the steps -/

/-- A drive up to its record: the lock, the checks, the recovery and the record. -/
def opening (r : Runner η γ) (target : Option String) (options : UpgradeOptions) :
    Prog Error (World η γ) (Option Operation × String) := do
  r.acquire
  let c ← r.checked target options pure
  withEngine (do
    r.recoverEngine c
    lift r.settle
    lift (r.openOperation target options))

theorem checked_bind {α : Type} (target : Option String) (options : UpgradeOptions)
    (m : Convergence (World η γ) → Prog Error (World η γ) α) :
    r.checked target options m = r.checked target options pure >>= m := by
  unfold checked
  cases options.operation with
  | none =>
      simp only [Prog.bind_assoc]
      rfl
  | some desc =>
      simp only [Prog.bind_assoc]
      rfl

/-- A drive from its recovery to its engine's upgrade. -/
def fetched (r : Runner η γ) (c : Convergence (World η γ)) (target : Option String)
    (options : UpgradeOptions) : Prog Error (Running (World η γ)) Fetched :=
  (do
    r.recoverEngine c
    lift r.settle
    lift (r.openOperation target options)) >>= fun opened =>
  lift (r.pick target options opened.1 opened.2 >>= r.admitted options opened.1)

/-- The rest of it. -/
def install (r : Runner η γ) (c : Convergence (World η γ)) :
    Fetched → Prog Error (Running (World η γ)) UpgradeOutcome
  | .inl outcome => pure outcome
  | .inr (operation, release) => r.carryOut c operation release

theorem driveEngine_eq_fetched (c : Convergence (World η γ)) (target : Option String)
    (options : UpgradeOptions) :
    r.driveEngine c target options = r.fetched c target options >>= r.install c := by
  unfold driveEngine fetched
  simp only [Prog.bind_assoc]
  congr 1; funext _
  congr 1; funext _
  congr 1; funext opened
  rw [lift_bind, Prog.bind_assoc]
  congr 1; funext picked
  cases picked with
  | finished outcome => rfl
  | release release =>
      show _ = lift (r.bringIn options opened.1 release >>= _) >>= _
      rw [lift_bind, Prog.bind_assoc]
      rfl

/-- A drive to its engine's upgrade. -/
theorem fetched_offFetch {P : World η γ → Prop} (hP : OffFetch P)
    (hframe : Frame (r.engine c) P) (target : Option String) (options : UpgradeOptions) :
    Keeps (OnWorld P) (r.fetched c target options) := by
  unfold fetched
  refine Triple.bind (R := fun _ => OnWorld P) ?_ fun opened => Keeps.lift ?_
  · refine Triple.bind (recoverEngine_confined hframe.confined fun _ _ h => h) fun _ => ?_
    exact Triple.bind (Keeps.lift hP.settle) fun _ => Keeps.lift (hP.openOperation target options)
  · refine Triple.bind (hP.pick target options opened.1 opened.2) fun picked => ?_
    cases picked with
    | finished outcome => exact Triple.pure fun _ h => h
    | release release =>
        exact Triple.bind (hP.bringIn options opened.1 release) fun _ => Triple.pure fun _ h => h

/-- A drive with an engine: the record, the steps, and the engine's upgrade. -/
theorem driveEngine_eq_onwards (c : Convergence (World η γ)) (target : String)
    (options : UpgradeOptions) : r.driveEngine c (some target) options =
      (do
        r.recoverEngine c
        lift r.settle
        lift (r.openOperation (some target) options)) >>= fun opened =>
      lift (r.onwards target options opened.2 .lookup opened.1) >>= r.install c := by
  rw [driveEngine_eq_fetched]
  unfold fetched
  rw [Prog.bind_assoc]
  rfl

/-- A drive whose record was opened and that then failed with a definite error. -/
theorem drive_run_err {target : String} {options : UpgradeOptions} {current : String}
    {op₀ : Option Operation} {w w₁ w₂ : World η γ} {e : Error}
    (hmanaged : r.hooks.managedElsewhere w.product = false)
    (hopening : r.opening (some target) options w = (.ok (op₀, current), w₁))
    (honwards : r.onwards target options current .lookup op₀ w₁ = (.err e, w₂))
    (hdefinite : e.isUncertain = false) :
    r.drive (some target) options w = (r.release >>= fun _ => Prog.throw e) w₂ := by
  obtain ⟨_, wa, hacquire, hopening⟩ := Prog.bind_eq_ok hopening
  obtain ⟨c, wb, hchecked, hopening⟩ := Prog.bind_eq_ok hopening
  have hengine : withEngine (r.driveEngine c (some target) options) wb = (.err e, w₂) := by
    unfold withEngine Prog.zoom at hopening ⊢
    rw [driveEngine_eq_onwards, Prog.bind_run]
    revert hopening
    generalize (do
      r.recoverEngine c
      lift r.settle
      lift (r.openOperation (some target) options) : Prog Error (Running (World η γ)) _)
      ⟨wb, 0⟩ = opened
    obtain ⟨res, s⟩ := opened
    intro hopening
    simp only [Prod.mk.injEq] at hopening
    obtain ⟨rfl, hs⟩ := hopening
    have hlift : lift (r.onwards target options current .lookup op₀) s =
        (.err e, { s with world := w₂ }) := by
      unfold Running.lift Prog.zoom
      rw [hs, honwards]
    simp only [Prog.bind_run_err hlift]
  have hbody : r.driveLocked (some target) options wa = (.err e, w₂) := by
    show r.checked (some target) options
      (fun c => withEngine (r.driveEngine c (some target) options)) wa = _
    rw [checked_bind, Prog.bind_run_ok hchecked]
    exact hengine
  unfold drive
  rw [Prog.bind_run_ok (Prog.get_run w)]
  simp only [hmanaged, Bool.false_eq_true, if_false]
  unfold locked
  rw [Prog.bind_run_ok hacquire, Prog.bind_run_ok (Prog.attempt_run_err hbody)]
  simp only [hdefinite, Bool.false_eq_true, if_false]

/-- A record that was opened is the request's own. -/
theorem opening_underway {desc : OperationDescriptor} {target : String} {options : UpgradeOptions}
    (hdesc : options.operation = some desc) {w w₁ : World η γ} {op₀ : Option Operation}
    {current : String} (h : r.opening (some target) options w = (.ok (op₀, current), w₁)) :
    Underway ⟨desc.id, target⟩ w₁ op₀ w₁ := by
  have hopen : Triple (fun _ : World η γ => True) (r.openOperation (some target) options)
      (fun opened => Owned ⟨desc.id, target⟩ opened.1) (fun _ _ => True) := by
    refine opening_triple (fun _ _ h => h) (fun op => (owned_on _ op).books.offTick)
      (fun _ _ _ _ => ?_) (fun _ _ => trivial) (fun _ _ _ => trivial) (fun hnone => ?_)
      fun desc' state now w hdesc' _ _ hv => ?_
    · exact Raises.any.conseq (fun _ h => h) (fun _ _ h => h) (fun _ _ _ => trivial) _ trivial
    · rw [hdesc] at hnone
      cases hnone
    · rw [hdesc, Option.some.injEq] at hdesc'
      subst hdesc'
      exact ⟨_, rfl, rfl, ⟨hv, rfl, rfl⟩, rfl⟩
  have hall : Triple (fun _ : World η γ => True) (r.opening (some target) options)
      (fun opened => Owned ⟨desc.id, target⟩ opened.1) (fun _ _ => True) := by
    have hany : ∀ {α : Type} {σ : Type} {m : Prog Error σ α},
        Triple (fun _ => True) m (fun _ _ => True) (fun _ _ => True) :=
      Raises.any.conseq (fun _ h => h) (fun _ _ h => h) fun _ _ _ => trivial
    refine Triple.bind hany fun _ => Triple.bind hany fun c => withEngine_triple ?_
    refine Triple.bind hany fun _ => Triple.bind hany fun _ => ?_
    exact Triple.zoom fun s _ => hopen s.world trivial
  exact ⟨hall.run_ok trivial h, rfl, rfl⟩

/-! ## the answer -/

/-- An error that a call with a settled record is answered with code 1 for: not the runner's
own `busy`, nor the replay of a receipt that has another code. -/
def AnsweredAsFailure (expected : Expected) : Error → Prop
  | .uncertain _ | .locked _ => False
  | .replay record => (OperationRead.observed record).exitCode = 1 ∨
      (OperationRead.observed record).exitCode = 0 ∧
        isReceiptOf (.observed record) expected = false
  | _ => True

theorem respond_failure_iff {request : Request} {expected : Expected}
    (hupgrade : request.isUpgrade = true) (hexpected : request.expected = some expected)
    {op : Operation} (hsettled : op.outcome = some .failed) (e : Error) :
    (respond request (.error e) (.observed op)).exitCode = 1 ∧
        (respond request (.error e) (.observed op)).result ≠ "recovery-required" ↔
      AnsweredAsFailure expected e := by
  have hstatus : request.isStatus = false := by
    cases request <;> simp_all [Request.isUpgrade, Request.isStatus]
  cases e with
  | replay record =>
      have hcases : (OperationRead.observed record).exitCode = 0 ∨
          (OperationRead.observed record).exitCode ≠ 0 := by omega
      rcases hcases with hzero | hzero
      · cases hown : isReceiptOf (.observed record) expected with
        | true => simp [respond, report, AnsweredAsFailure, hupgrade, hexpected, hzero, hown, hstatus]
        | false => simp [respond, report, AnsweredAsFailure, hupgrade, hexpected, hzero, hown]
      · simp [respond, report, AnsweredAsFailure, hzero]
  | locked pid => simp [respond, report, AnsweredAsFailure]
  | uncertain message => simp [respond, report, AnsweredAsFailure, Error.isUncertain]
  | invalid message => simp [respond, report, AnsweredAsFailure, Error.isUncertain, hsettled]
  | io notFound message => simp [respond, report, AnsweredAsFailure, Error.isUncertain, hsettled]
  | json message => simp [respond, report, AnsweredAsFailure, Error.isUncertain, hsettled]
  | http message => simp [respond, report, AnsweredAsFailure, Error.isUncertain, hsettled]

/-- The failure `e` of an operation that was recorded in `w₁` is settled: its record says so,
the answer has code 1, and neither the slots nor the journal were touched since. -/
structure SettledAsFailed (expected : Expected) (e : Error) (w₁ : World η γ)
    (run : Res Error Response × World η γ) : Prop where
  recorded : ∃ op, run.2.disk.operation = .content op ∧ op.IsFor expected ∧
    op.outcome = some .failed ∧ op.reason = some e.message
  answered : ∃ response, run.1 = .ok response ∧ response.exitCode = 1 ∧
    response.result ≠ "recovery-required"
  stable : run.2.disk.slots .stable = w₁.disk.slots .stable
  experiment : run.2.disk.slots .experiment = w₁.disk.slots .experiment
  journal : run.2.disk.journal = w₁.disk.journal

/-- A request whose drive failed and then released its lock in `w`. -/
theorem execute_run_release {request : Request} {w₀ w : World η γ} {e : Error}
    (hvalid : request.validate = .ok ())
    (hperform : r.perform request w₀ = (r.release >>= fun _ => Prog.throw e) w) :
    ∃ w', w'.disk = w.disk ∧ r.execute request w₀ = (match r.leaving w.tick e with
      | some e' => .ok (respond request (.error e') w.disk.readOperation)
      | none => .crash, w') := by
  obtain ⟨w', hdisk, hrelease⟩ := release_throw_run (r := r) (α := String × Nat) w e
  rw [hrelease] at hperform
  refine ⟨w', hdisk, ?_⟩
  have hcheck : (Prog.ofExcept request.validate : Prog Error (World η γ) Unit) w₀ = (.ok (), w₀) := by
    rw [hvalid]
    rfl
  unfold execute
  rw [Prog.bind_run_ok hcheck]
  cases hleaving : r.leaving w.tick e with
  | some e' =>
      rw [hleaving] at hperform
      rw [Prog.bind_run_ok (Prog.attempt_run_err hperform), Prog.bind_run_ok (Prog.get_run w'), hdisk]
      rfl
  | none =>
      rw [hleaving] at hperform
      rw [Prog.bind_run, Prog.attempt, hperform]

/-- **Which failures before the engine are settled.**  An upgrade opened its record, came to a
step and failed there with a definite error, and the writes of the record meet no fault.  The
failure is settled if and only if the step is the lookup or the preparation, and the worker
gets through releasing its lock with an error that is answered with code 1. -/
theorem definite_failure_settled (r : Runner η γ) {version : Nat} {id target : String}
    {consented : Bool} {w w₁ w₂ w₃ : World η γ} {op₀ op : Option Operation} {current : String}
    {step : Step} {e : Error}
    (hvalid : (Request.upgrade version id target consented).validate = .ok ())
    (hwrites : r.RecordWrites) (hmanaged : r.hooks.managedElsewhere w.product = false)
    (hopening : r.opening (some target) (requestOptions id consented (r.clock w.tick)) w =
      (.ok (op₀, current), w₁))
    (hreach : r.Reaches target (requestOptions id consented (r.clock w.tick)) current op₀ w₁
      step op w₂)
    (hfail : step.run r target (requestOptions id consented (r.clock w.tick)) current w₂ =
      (.err e, w₃))
    (hdefinite : e.isUncertain = false)
    (hpinned : ¬(step = .lookup ∧ consented = true ∧
      contains e.message "PINNED_VERSION_MISMATCH" = true)) :
    SettledAsFailed ⟨id, target⟩ e w₁ (r.execute (.upgrade version id target consented) w) ↔
      step.recordsFailure = true ∧
        ∃ e', r.leaving (w₃.tick + 2) e = some e' ∧ AnsweredAsFailure ⟨id, target⟩ e' := by
  let options := requestOptions id consented (r.clock w.tick)
  let request : Request := .upgrade version id target consented
  have hopened : Underway ⟨id, target⟩ w₁ op₀ w₁ := opening_underway rfl hopening
  have hleft : Underway ⟨id, target⟩ w₁ op w₃ := by
    have hkeeps := (step_underway (r := r) target options current step).leaves (hreach.underway hopened)
    rwa [hfail] at hkeeps
  have honwards : r.onwards target options current .lookup op₀ w₁ = r.abandon step op e w₃ :=
    hreach.onwards_eq.trans (onwards_err hreach hfail hpinned)
  obtain ⟨⟨o, rfl, hfile, hfor, hopen⟩, hslots, hjournal⟩ := hleft
  -- the drive fails in `w₄`, after it recorded the failure or at once
  have hperform : ∀ w₄, r.abandon step (some o) e w₃ = (.err e, w₄) →
      r.perform request w = (r.release >>= fun _ => Prog.throw e) w₄ := by
    intro w₄ habandon
    have hdrive := drive_run_err hmanaged hopening (honwards.trans habandon) hdefinite
    calc r.perform request w
        = (r.drive (some target) options >>= fun outcome => pure (answerOf outcome)) w := rfl
      _ = ((r.release >>= fun _ => Prog.throw e) >>= fun outcome => pure (answerOf outcome)) w₄ := by
          rw [Prog.bind_run, hdrive]
          rfl
      _ = (r.release >>= fun _ => Prog.throw e) w₄ := by
          rw [Prog.bind_assoc]
          rfl
  cases hstep : step.recordsFailure with
  | false =>
      have habandon : r.abandon step (some o) e w₃ = (.err e, w₃) := by
        unfold abandon
        simp [hstep]
      obtain ⟨w', hdisk, hrun⟩ := execute_run_release hvalid (hperform w₃ habandon)
      constructor
      · rintro ⟨⟨op, hop, -, hfailed, -⟩, -⟩
        rw [hrun, hdisk, hfile] at hop
        cases hop
        rw [hopen] at hfailed
        cases hfailed
      · rintro ⟨h, -⟩
        cases h
  | true =>
      let o' := advance o (r.clock w₃.tick) .failed (some .failed) (some e.message)
      have habandon : r.abandon step (some o) e w₃ =
          (.err e, { w₃.record o' with tick := w₃.tick + 2 }) := by
        unfold abandon
        simp only [hstep, if_true]
        rw [Prog.bind_run_ok (transition_run hwrites hfor.valid _ _ _ w₃)]
        rfl
      obtain ⟨w', hdisk, hrun⟩ := execute_run_release hvalid (hperform _ habandon)
      have hread : ({ w₃.record o' with tick := w₃.tick + 2 } : World η γ).disk.readOperation =
          .observed o' := Disk.readOperation_observed_iff.mpr ⟨rfl, hfor.valid⟩
      rw [hread] at hrun
      simp only [true_and]
      constructor
      · rintro ⟨-, ⟨response, hresponse, hcode, hresult⟩, -⟩
        rw [hrun] at hresponse
        cases hleaving : r.leaving (w₃.tick + 2) e with
        | none =>
            simp only [hleaving] at hresponse
            cases hresponse
        | some e' =>
            simp only [hleaving, Res.ok.injEq] at hresponse
            subst hresponse
            exact ⟨e', rfl, (respond_failure_iff rfl rfl rfl e').mp ⟨hcode, hresult⟩⟩
      · rintro ⟨e', hleaving, hanswer⟩
        simp only [hleaving] at hrun
        rw [hrun]
        have hiff : (respond request (.error e') (.observed o')).exitCode = 1 ∧
            (respond request (.error e') (.observed o')).result ≠ "recovery-required" ↔
            AnsweredAsFailure ⟨id, target⟩ e' := respond_failure_iff rfl rfl rfl e'
        obtain ⟨hcode, hresult⟩ := hiff.mpr hanswer
        refine ⟨⟨o', by rw [hdisk]; rfl, ⟨hfor.valid, hfor.id, hfor.targetVersion⟩, rfl, rfl⟩,
          ⟨_, rfl, hcode, hresult⟩, ?_, ?_, ?_⟩
        · rw [hdisk, ← hslots]
          rfl
        · rw [hdisk, ← hslots]
          rfl
        · rw [hdisk, ← hjournal]
          rfl

end Runner

namespace Service

open Runner

/-- A run whose result is known. -/
theorem run_eq {α : Type} {m : Prog Error (World Service Unit) α} {w : World Service Unit}
    {a : Res Error α} (h : (m w).1 = a) : m w = (a, (m w).2) := Prod.ext h rfl

/-- A worker that cannot reach its release source. -/
def unreachableRunner : Runner Service Unit :=
  { runner 7 Faults.clean with
    source :=
      { check := fun _ => pure none
        fetch := fun _ _ => Prog.throw (.http "connection refused") } }

/-- The record the request opens. -/
def openedRecord : Operation where
  formatVersion := 1
  id := "a"
  startedAtMs := 0
  updatedAtMs := 3
  fromVersion := "1"
  targetVersion := "2"
  previousStableVersion := "1"
  phase := .checking
  outcome := none
  reason := none
  provenance := some ⟨"local-operator", "external-runner"⟩
  metadata := []

theorem lookup_failure_settled :
    SettledAsFailed ⟨"a", "2"⟩ (.http "connection refused")
      (unreachableRunner.opening (some "2") (requestOptions "a" true 0) (installed "1")).2
      (unreachableRunner.execute (.upgrade 1 "a" "2" true) (installed "1")) := by
  have hopening := run_eq (show (unreachableRunner.opening (some "2") (requestOptions "a" true 0)
    (installed "1")).1 = .ok (some openedRecord, "1") by decide +kernel)
  generalize (unreachableRunner.opening (some "2") (requestOptions "a" true 0)
    (installed "1")).2 = w₁ at hopening ⊢
  have hlookup : Step.run unreachableRunner "2" (requestOptions "a" true 0) "1" .lookup w₁ =
      (.err (.http "connection refused"), { w₁ with log := w₁.log ++ [.call "source.fetch"] }) := rfl
  have hvalid : (Request.upgrade 1 "a" "2" true).validate = .ok () :=
    Request.validate_upgrade (by decide) (by decide)
  have hleaving : unreachableRunner.leaving
      ({ w₁ with log := w₁.log ++ [.call "source.fetch"] } : World Service Unit).tick.succ.succ
      (.http "connection refused") = some (.http "connection refused") := rfl
  exact (definite_failure_settled unreachableRunner (w := installed "1") hvalid
    (fun _ => ⟨rfl, rfl⟩) rfl hopening .lookup hlookup rfl (by decide)).mpr
    ⟨rfl, _, hleaving, trivial⟩

/-- A download fails before anything was handed over: the record stays open, and the answer
is that a recovery is required. -/
theorem download_failure_unsettled : ∃ op₀ current w₁ op w₂ w₃ e,
    offlineRunner.opening (some "2") (requestOptions "a" true 0) (installed "1") =
        (.ok (op₀, current), w₁) ∧
      offlineRunner.Reaches "2" (requestOptions "a" true 0) current op₀ w₁
        (.download (release "2")) op w₂ ∧
      Step.run offlineRunner "2" (requestOptions "a" true 0) current (.download (release "2")) w₂ =
        (.err e, w₃) ∧
      e.isUncertain = false ∧ offlineRunner.RecordWrites ∧
      ¬SettledAsFailed ⟨"a", "2"⟩ e w₁
        (offlineRunner.execute (.upgrade 1 "a" "2" true) (installed "1")) := by
  have hopening : (offlineRunner.opening (some "2") (requestOptions "a" true 0)
      (installed "1")).1 = .ok (some openedRecord, "1") := by decide +kernel
  have hcompatibility : offlineRunner.Reaches "2" (requestOptions "a" true 0) "1"
      (some openedRecord) (offlineRunner.opening (some "2") (requestOptions "a" true 0)
        (installed "1")).2 (.compatibility (release "2")) (some openedRecord) _ :=
    .compatibility (run_eq rfl) rfl (.inl rfl)
  have hdownload := hcompatibility.download (run_eq rfl) (transition_run (fun _ => ⟨rfl, rfl⟩)
    rfl _ _ _ _)
  refine ⟨_, _, _, _, _, _, _, run_eq hopening, hdownload, run_eq rfl, rfl,
    fun _ => ⟨rfl, rfl⟩, ?_⟩
  rintro ⟨-, ⟨response, hresponse, hcode, -⟩, -⟩
  have hanswer : (offlineRunner.execute (.upgrade 1 "a" "2" true) (installed "1")).1.returns
      (fun response => response.exitCode == 3) = true := by decide +kernel
  rw [hresponse] at hanswer
  simp [Res.returns, hcode] at hanswer

end Service

end KCarrier
