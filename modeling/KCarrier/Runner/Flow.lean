import KCarrier.Runner.Binding

/-!
# KCarrier.Runner.Flow

The control flow of the runner's calls, followed once.

Between recovery and the engine's upgrade a drive only keeps books: it asks the
product, writes files no transaction reads (`Indifferent`) and records the phase of its
operation.  `DriveOutline` lists what has to be shown about the steps that matter, and
`driveEngine_triple` puts them together, at the engine's answer (`approach`); `call_triple` does the same for every entry
point.  A run is a list of `Visit`s, each a worker of its own; `run_invariant` is its
induction rule.
-/

namespace KCarrier

open Crash
open Running

/-- The notes about records; the rest of the history is about calls. -/
def Note.isRecord : Note → Bool
  | .recorded _ _ | .archived _ | .archiveConflict _ => true
  | .call _ | .upgraded _ => false

/-- The history is appended to in durable steps on the provenance file. -/
theorem FileStore.appendProvenance_keeps {η γ : Type} {P : World η γ → Prop} {s : FileStore}
    (hwrite : ∀ label f, (∀ d : Disk, ∃ file, f d = { d with provenance := file }) →
      Keeps P (s.write label f : Prog Error (World η γ) Unit)) {identity : Provenance}
    {version : String} {explicit : Option Nat} {now : Nat} :
    Keeps P (s.appendProvenanceAt identity version explicit now) := by
  unfold FileStore.appendProvenanceAt
  refine Triple.get_bind fun w hw => Triple.pre (P := P) ?_ fun w' h => by rw [h]; exact hw
  cases w.disk.readProvenance with
  | error reason => exact Triple.throw fun _ h => h
  | ok entries =>
      refine Triple.ite (fun _ => Triple.throw fun _ h => h) fun _ => ?_
      refine Triple.bind (hwrite _ _ fun d => ?_) fun _ => ?_
      · cases hp : d.provenance with
        | content file => exact ⟨_, rfl⟩
        | _ => exact ⟨d.provenance, rfl⟩
      · exact Triple.bind (hwrite _ _ fun _ => ⟨_, rfl⟩) fun _ => hwrite _ _ fun _ => ⟨_, rfl⟩

/-- `P` is not about the product, its calls, or the files no transaction reads. -/
structure Indifferent {η γ : Type} (P : World η γ → Prop) : Prop where
  tick : OffTick P
  note : ∀ w entry, entry.isRecord = false → P w → P { w with log := w.log ++ [entry] }
  product : ∀ w p, P w → P { w with product := p }
  observed : ∀ w o, P w → P { w with observed := o }
  files : ∀ w d, d.journal = w.disk.journal → d.operation = w.disk.operation →
    d.receipts = w.disk.receipts → d.slots = w.disk.slots → P w → P { w with disk := d }

namespace Indifferent

variable {η γ α : Type} {P : World η γ → Prop}

/-- A boundary is passed, or the process ends there. -/
theorem boundary (hP : Indifferent P) (s : FileStore) (label : String) : Keeps P (s.boundary label) :=
  (FileStore.boundary_triple (fun _ => True.intro) hP.tick label).crash fun _ h => h.1

/-- A note that is no record. -/
theorem noted (hP : Indifferent P) {entry : Note} (h : entry.isRecord = false) :
    Keeps P (FileStore.note entry : Prog Error (World η γ) Unit) :=
  Triple.modify fun w hw => hP.note w entry h hw

/-- A call of the product. -/
theorem asked (hP : Indifferent P) (m : Prog Error γ α) :
    Keeps P (Runner.product m : Prog Error (World η γ) α) :=
  Runner.product_keeps hP.product m

/-- A call of the product that is noted. -/
theorem ask (hP : Indifferent P) (name : String) (m : Prog Error γ α) :
    Keeps P (Runner.ask name m : Prog Error (World η γ) α) :=
  Triple.bind (hP.noted rfl) fun _ => hP.asked m

/-- A durable step on a file no transaction reads. -/
theorem write (hP : Indifferent P) (s : FileStore) {label : String} {f : Disk → Disk}
    (hf : ∀ d, (f d).journal = d.journal ∧ (f d).operation = d.operation ∧
      (f d).receipts = d.receipts ∧ (f d).slots = d.slots) : Keeps P (s.write label f) := by
  have hmodify : Keeps P (Prog.modify fun w : World η γ => { w with disk := f w.disk }) :=
    Triple.modify fun w hw => by
      obtain ⟨hj, ho, hr, hs⟩ := hf w.disk
      exact hP.files w _ hj ho hr hs hw
  exact Triple.bind (hP.boundary s _) fun _ => Triple.bind hmodify fun _ => hP.boundary s _

/-- An entry of the provenance. -/
theorem appendProvenance (hP : Indifferent P) (s : FileStore) (identity : Provenance)
    (version : String) (explicit : Option Nat) (now : Nat) :
    Keeps P (s.appendProvenanceAt identity version explicit now) :=
  FileStore.appendProvenance_keeps fun label f hf => hP.write s fun d => by
    obtain ⟨file, h⟩ := hf d
    rw [h]
    exact ⟨rfl, rfl, rfl, rfl⟩

end Indifferent

/-! ## the errors of a runner's surroundings -/

/-- What a runner calls outside its engine fails with errors of the kind `p` only, and
so do its own checks. -/
structure Runner.Outside {η γ : Type} (r : Runner η γ) (p : Error → Prop) : Prop where
  faults : r.store.Fails p
  invalid : ∀ message, p (.invalid message)
  locked : ∀ pid, p (.locked pid)
  check : ∀ context, Raises p (r.source.check context)
  fetch : ∀ version context, Raises p (r.source.fetch version context)
  compatibility : ∀ current version, Raises p (r.hooks.compatibility current version)
  prepareCandidate : ∀ path release, Raises p (r.hooks.prepareCandidate path release)
  notify : ∀ kind detail, Raises p (r.hooks.notify kind detail)
  downloader : ∀ release, Raises p (r.downloader release)

namespace Runner.Outside

variable {η γ α : Type} {r : Runner η γ} {p : Error → Prop}

/-- Anything may go wrong outside. -/
theorem any : r.Outside fun _ => True :=
  ⟨fun _ _ _ _ => trivial, fun _ => trivial, fun _ => trivial, fun _ => Raises.any,
    fun _ _ => Raises.any, fun _ _ => Raises.any, fun _ _ => Raises.any, fun _ _ => Raises.any,
    fun _ => Raises.any⟩

/-- The errors of the lock are among them. -/
theorem lockErrors (h : r.Outside p) : r.LockErrors p := ⟨h.faults, h.invalid _, h.locked⟩

/-- A call of the product raises what the product does. -/
theorem asked {m : Prog Error γ α} (hm : Raises p m) :
    Raises p (Runner.product m : Prog Error (World η γ) α) := Raises.zoom hm

/-- So does one that is noted. -/
theorem ask {name : String} {m : Prog Error γ α} (hm : Raises p m) :
    Raises p (Runner.ask name m : Prog Error (World η γ) α) :=
  Raises.bind (Raises.modify _) fun _ => asked hm

/-- Appending to the provenance raises nothing but errors of the kind. -/
theorem appendProvenance (h : r.Outside p) (identity : Provenance) (version : String)
    (explicit : Option Nat) (now : Nat) : Raises p
      (r.store.appendProvenanceAt identity version explicit now : Prog Error (World η γ) Unit) := by
  unfold FileStore.appendProvenanceAt
  refine Raises.bind Raises.get fun w => ?_
  cases w.disk.readProvenance with
  | error reason => exact Raises.throw (h.invalid _)
  | ok entries =>
      refine Raises.ite (Raises.throw (h.invalid _)) ?_
      refine Raises.bind (FileStore.write_raises h.faults _ _) fun _ => ?_
      exact Raises.bind (FileStore.write_raises h.faults _ _) fun _ => FileStore.write_raises h.faults _ _

/-- Looking a release up raises what the source does. -/
theorem lookup (h : r.Outside p) (target : Option String) (context : ReleaseContext) :
    Raises p (r.lookup target context) := by
  unfold Runner.lookup
  cases target with
  | none => exact ask (h.check context)
  | some version => exact Raises.bind (ask (h.fetch version context)) fun _ => Raises.pure _

/-- Preparing a candidate raises what the hook does. -/
theorem prepare (h : r.Outside p) (release : Release) : Raises p (r.prepare release) := by
  unfold Runner.prepare
  refine Raises.bind (asked (h.prepareCandidate _ _)) fun reply => ?_
  cases reply with
  | none => exact Raises.throw (h.invalid _)
  | some u => exact Raises.pure ()

end Runner.Outside

/-! ## assertions about records -/

/-- The records, and what the history says about them, are the same. -/
def SameRecords {η γ : Type} (w : World η γ) : World η γ → Prop :=
  Over (fun d => d.operation = w.disk.operation ∧ d.receipts = w.disk.receipts)
    fun w' => w'.log.filter Note.isRecord = w.log.filter Note.isRecord

/-- `P` is about the records only. -/
def AboutRecords {η γ : Type} (P : World η γ → Prop) : Prop :=
  ∀ w w', SameRecords w w' → P w → P w'

section About

variable {η γ : Type} {P : World η γ → Prop}

theorem SameRecords.refl (w : World η γ) : SameRecords w w := ⟨⟨rfl, rfl⟩, rfl⟩

/-- A note that is no record leaves the records alone. -/
theorem filter_note {log : List Note} {entry : Note} (h : entry.isRecord = false) :
    (log ++ [entry]).filter Note.isRecord = log.filter Note.isRecord := by
  simp [List.filter_append, h]

/-- An assertion about records is indifferent to everything else. -/
theorem AboutRecords.quiet (hP : AboutRecords P) : Indifferent P where
  tick w _ := hP w _ ⟨⟨rfl, rfl⟩, rfl⟩
  note w _ h := hP w _ ⟨⟨rfl, rfl⟩, filter_note h⟩
  product w _ := hP w _ ⟨⟨rfl, rfl⟩, rfl⟩
  observed w _ := hP w _ ⟨⟨rfl, rfl⟩, rfl⟩
  files w _ _ ho hr _ := hP w _ ⟨⟨ho, hr⟩, rfl⟩

/-- It is not about the lock. -/
theorem AboutRecords.offLock (hP : AboutRecords P) : OffLock P := fun w _ _ =>
  hP w _ ⟨⟨rfl, rfl⟩, rfl⟩

/-- The record, which no call of the engine changes. -/
theorem aboutRecords_operation (file : File Operation) :
    AboutRecords (fun w : World η γ => w.disk.operation = file) :=
  fun _ _ hsame h => hsame.1.1.trans h

/-- **No engine call is about the records.** -/
theorem AboutRecords.frame (hP : AboutRecords P) {r : Runner η γ} {c : Convergence (World η γ)}
    (hc : Runner.ReadsProduct c) : Frame (r.engine c) P := by
  refine Frame.of_moves SameRecords.refl hP fun w => Runner.engine_frame ?_ ?_ ?_ hc
  · exact ⟨fun _ _ _ h => h, fun w' name h => (filter_note rfl).trans h, fun _ _ h => h,
      fun _ _ h => h, fun _ _ h => h⟩
  · exact fun _ _ _ h => h
  · exact fun _ _ h => h

end About

namespace Runner

variable {η γ α : Type} {r : Runner η γ}

/-! ## a drive -/

/-- The outcome an engine's outcome is recorded as. -/
def recordedAs : EngineOutcome → Outcome
  | .promoted _ => .promoted
  | .rolledBack _ => .rolledBack
  | .upToDate => .upToDate

/-- The outcome the record of an upgrade was given when the upgrade returned. -/
def concludedAs : UpgradeOutcome → Outcome
  | .promoted _ => .promoted
  | .rolledBack _ _ => .rolledBack
  | .held _ => .held
  | .upToDate => .upToDate

/-- What a drive comes to before it deals with its engine's answer: an outcome without
the engine, or the open record and the answer. -/
abbrev Approached : Type := UpgradeOutcome ⊕ (Option Operation × Except Error EngineOutcome)

/-- A drive, up to its engine's answer. -/
def approach (r : Runner η γ) (c : Convergence (World η γ)) (target : Option String)
    (options : UpgradeOptions) : Prog Error (Running (World η γ)) Approached := do
  r.recoverEngine c
  lift r.settle
  let (operation, current) ← lift (r.openOperation target options)
  match ← lift (r.pick target options operation current) with
  | .finished outcome => pure (.inl outcome)
  | .release release => do
      let operation ← lift (r.bringIn options operation release)
      let reply ← Prog.attempt ((r.engine c).upgrade release.version incomingPath)
      pure (.inr (operation, reply))

/-- What the drive makes of the answer. -/
def afterwards (r : Runner η γ) (c : Convergence (World η γ)) :
    Approached → Prog Error (World η γ) UpgradeOutcome
  | .inl outcome => pure outcome
  | .inr (operation, .ok outcome) => do
      FileStore.note (.upgraded outcome)
      r.conclude c operation outcome
  | .inr (operation, .error e) => do
      let _ ← r.transition operation .recovering none (some e.message)
      Prog.throw e

/-- A drive up to its engine's answer, and what comes after it. -/
theorem driveEngine_eq (c : Convergence (World η γ)) (target : Option String)
    (options : UpgradeOptions) : r.driveEngine c target options =
      r.approach c target options >>= fun answer => lift (r.afterwards c answer) := by
  unfold driveEngine approach
  simp only [Prog.bind_assoc]
  congr 1; funext _
  congr 1; funext _
  congr 1; funext opened
  congr 1; funext picked
  cases picked with
  | finished outcome => rfl
  | release release =>
      simp only [Prog.bind_assoc, carryOut]
      congr 1; funext operation
      congr 1; funext reply
      cases reply with
      | ok outcome => exact (lift_bind _ _).symm
      | error e =>
          exact (lift_bind (r.transition operation .recovering none (some e.message))
            fun _ => Prog.throw e).symm

/-- What has to be shown about the steps between the record and the engine.  `A op n` holds
from the opened record to the engine's upgrade, `n` being the engine's number; `End outcome`
when the record was given its outcome; and `F e` wherever the drive is cut off with `e`, which
is of the kind `p` when it comes from outside. -/
structure FetchOutline (r : Runner η γ) (p : Error → Prop)
    (A : Option Operation → Nat → World η γ → Prop) (End : Outcome → World η γ → Prop)
    (F : Option Error → World η γ → Prop) : Prop where
  outside : r.Outside p
  quietActive : ∀ op n, Indifferent (A op n)
  quiet : ∀ outcome, Indifferent (End outcome)
  active : ∀ op n e w, Kind p e → A op n w → F e w
  closed : ∀ outcome e w, Kind p e → End outcome w → F e w
  progress : ∀ op n phase reason, Triple (A op n) (r.transition op phase none reason)
    (fun op' => A op' n) F
  finish : ∀ op n outcome reason, outcome = .held ∨ outcome = .failed ∨ outcome = .upToDate →
    Triple (A op n) (r.transition op outcome.phase (some outcome) reason) (fun _ => End outcome) F

/-- What has to be shown about a drive up to its engine's answer.  `E` holds when the lock was
taken and the request was found new; `U op outcome` after the upgrade returned and `B op e`
when it did not. -/
structure ApproachOutline (r : Runner η γ) (c : Convergence (World η γ)) (target : Option String)
    (options : UpgradeOptions) (p : Error → Prop) (E : World η γ → Prop)
    (A : Option Operation → Nat → World η γ → Prop)
    (U : Option Operation → EngineOutcome → World η γ → Prop)
    (B : Option Operation → Option Error → World η γ → Prop) (End : Outcome → World η γ → Prop)
    (F : Option Error → World η γ → Prop) : Prop
    extends FetchOutline r p A End F where
  broken : ∀ op w, B op none w → F none w
  start : ∃ R S : Running (World η γ) → Prop,
    Triple (OnWorld E) (r.recoverEngine c) (fun _ => R) (fun e => OnWorld (F e)) ∧
    Triple R (lift r.settle) (fun _ => S) (fun e => OnWorld (F e)) ∧
    Triple S (lift (r.openOperation target options)) (fun opened s => A opened.1 s.seq s.world)
      (fun e => OnWorld (F e))
  upgrade : ∀ op (release : Release), (target.any fun v => release.version != v) = false →
    Triple (fun s => A op s.seq s.world) ((r.engine c).upgrade release.version incomingPath)
      (fun outcome => OnWorld (U op outcome)) (fun e => OnWorld (B op e))

/-- What has to be shown about a whole drive. -/
structure DriveOutline (r : Runner η γ) (c : Convergence (World η γ)) (target : Option String)
    (options : UpgradeOptions) (p : Error → Prop) (E : World η γ → Prop)
    (A : Option Operation → Nat → World η γ → Prop)
    (U : Option Operation → EngineOutcome → World η γ → Prop)
    (B : Option Operation → Option Error → World η γ → Prop) (End : Outcome → World η γ → Prop)
    (F : Option Error → World η γ → Prop) : Prop
    extends ApproachOutline r c target options p E A U B End F where
  quietEnded : ∀ op outcome, Indifferent (U op outcome)
  ended : ∀ op outcome e w, Kind p e → U op outcome w → F e w
  abandon : ∀ op e reason, Triple (B op (some e)) (r.transition op .recovering none reason)
    (fun _ => F (some e)) F
  conclude : ∀ op outcome reason, Triple (U op outcome)
    (r.transition op (recordedAs outcome).phase (some (recordedAs outcome)) reason)
    (fun _ => End (recordedAs outcome)) F

namespace FetchOutline

variable {target : Option String} {options : UpgradeOptions} {p : Error → Prop}
  {A : Option Operation → Nat → World η γ → Prop} {End : Outcome → World η γ → Prop}
  {F : Option Error → World η γ → Prop}

/-- A quiet step of an active drive. -/
theorem during (h : FetchOutline r p A End F) {op : Option Operation}
    {n : Nat} {m : Prog Error (World η γ) α} (hm : Keeps (A op n) m) (hp : Raises p m) :
    Triple (A op n) m (fun _ => A op n) F :=
  (hp.and hm).conseq (fun _ hw => hw) (fun _ _ hw => hw) fun e w hw => h.active op n e w hw.1 hw.2

/-- A notification when the record has its outcome. -/
theorem notify_triple (h : FetchOutline r p A End F) (outcome : Outcome)
    (kind : String) (detail : Detail) :
    Triple (End outcome) (product (r.hooks.notify kind detail)) (fun _ => End outcome) F :=
  ((Outside.asked (h.outside.notify kind detail)).and ((h.quiet outcome).asked _)).conseq
    (fun _ hw => hw) (fun _ _ hw => hw) fun e w hw => h.closed outcome e w hw.1 hw.2

/-- The end of a drive whose record has its outcome, with an error. -/
theorem throw_triple (h : FetchOutline r p A End F) (outcome : Outcome)
    {e : Error} (he : p e) {Q : α → World η γ → Prop} :
    Triple (End outcome) (Prog.throw e : Prog Error (World η γ) α) Q F :=
  Triple.throw fun w hw => h.closed outcome _ w (kind_some.mpr he) hw

/-- A hold ends the operation as held. -/
theorem hold_triple (h : FetchOutline r p A End F) (op : Option Operation)
    (n : Nat) (reason kind : String) :
    Triple (A op n) (r.hold op reason kind) (fun outcome => End (concludedAs outcome)) F := by
  unfold hold
  refine Triple.bind (h.finish op n .held _ (.inl rfl)) fun op' => ?_
  exact Triple.bind (h.notify_triple .held _ _) fun _ => Triple.pure fun _ hw => hw

/-- What the lookup leaves: the end of the drive, or a release on the target. -/
def AfterPick (target : Option String) (P : World η γ → Prop) (End : Outcome → World η γ → Prop)
    (picked : Picked) (w : World η γ) : Prop :=
  match picked with
  | .finished outcome => End (concludedAs outcome) w
  | .release release => (target.any fun v => release.version != v) = false ∧ P w

/-- The gates let the release through, or end the operation as held. -/
theorem gates_triple (h : FetchOutline r p A End F) (op : Option Operation)
    (n : Nat) (current : String) {release : Release}
    (hrelease : (target.any fun v => release.version != v) = false) :
    Triple (A op n) (r.gates options op current release) (AfterPick target (A op n) End) F := by
  have hheld : ∀ reason kind, Triple (A op n) (do
      let outcome ← r.hold op reason kind
      pure (.finished outcome)) (AfterPick target (A op n) End) F := fun reason kind =>
    Triple.bind (h.hold_triple op n reason kind) fun _ => Triple.pure fun _ hw => hw
  unfold gates
  dsimp only
  split
  · exact hheld _ _
  · split
    · exact hheld _ _
    · refine Triple.bind (h.during ((h.quietActive op n).asked _)
        (Outside.asked (h.outside.compatibility _ _))) fun refusal => ?_
      cases refusal with
      | some reason => exact hheld _ _
      | none => exact Triple.pure fun _ hw => ⟨hrelease, hw⟩

/-- The lookup ends the operation, or picks a release that is let through. -/
theorem pick_triple (h : FetchOutline r p A End F) (op : Option Operation)
    (n : Nat) (current : String) :
    Triple (A op n) (r.pick target options op current) (AfterPick target (A op n) End) F := by
  have hlookup : Keeps (A op n) (r.lookup target ⟨current, r.platformKey⟩) := by
    unfold lookup
    cases target with
    | none => exact (h.quietActive op n).ask _ _
    | some version =>
        exact Triple.bind ((h.quietActive op n).ask _ _) fun _ => Triple.pure fun _ hw => hw
  have hreply : Triple (A op n) (Prog.attempt (r.lookup target ⟨current, r.platformKey⟩))
      (fun reply w => (∀ e, reply = .error e → p e) ∧ A op n w) F := by
    refine Triple.attempt (((h.outside.lookup target _).and hlookup).conseq (fun _ hw => hw)
      (fun _ _ hw => ⟨fun e he => (by cases he), hw⟩) fun e w hw => ?_)
    cases e with
    | none => exact h.active op n none w hw.1 hw.2
    | some e =>
        refine ⟨fun e' he => ?_, hw.2⟩
        cases he
        exact kind_some.mp hw.1
  have hfail : ∀ reason e, p e → Triple (A op n) (do
      let _ ← r.transition op .failed (some .failed) reason
      Prog.throw e) (AfterPick target (A op n) End) F := fun reason e he =>
    Triple.bind (h.finish op n .failed reason (.inr (.inl rfl))) fun _ => h.throw_triple .failed he
  unfold pick
  refine Triple.bind hreply fun reply => Triple.assume fun he => ?_
  match reply with
  | .error e =>
      dsimp only
      split
      · exact Triple.bind (h.hold_triple op n _ _) fun _ => Triple.pure fun _ hw => hw
      · exact hfail _ _ (he e rfl)
  | .ok none =>
      exact Triple.bind (h.finish op n .upToDate none (.inr (.inr rfl))) fun _ =>
        Triple.pure fun _ hw => hw
  | .ok (some release) =>
      dsimp only
      split
      · exact hfail _ _ (h.outside.invalid _)
      · next hmatch => exact h.gates_triple op n current (by simpa using hmatch)

/-- Bringing the artifact in takes the record along. -/
theorem bringIn_triple (h : FetchOutline r p A End F)
    (op : Option Operation) (n : Nat) (release : Release) :
    Triple (A op n) (r.bringIn options op release) (fun op' => A op' n) F := by
  unfold bringIn
  refine Triple.bind (h.progress op n .downloading none) fun op₁ => ?_
  refine Triple.bind (h.during ((h.quietActive op₁ n).ask _ _)
    (Outside.ask (h.outside.downloader release))) fun bytes => ?_
  refine Triple.bind (h.progress op₁ n .verifying none) fun op₂ => ?_
  refine Triple.bind (h.progress op₂ n .staging none) fun op₃ => ?_
  refine Triple.bind (h.during ((h.quietActive op₃ n).write r.store fun _ =>
    ⟨rfl, rfl, rfl, rfl⟩) (FileStore.write_raises h.outside.faults _ _)) fun _ => ?_
  have hprepare : Keeps (A op₃ n) (r.prepare release) := by
    unfold prepare
    refine Triple.bind ((h.quietActive op₃ n).asked _) fun reply => ?_
    cases reply with
    | none => exact Triple.throw fun _ hw => hw
    | some u => exact Triple.pure fun _ hw => hw
  have hreply : Triple (A op₃ n) (Prog.attempt (r.prepare release))
      (fun reply w => (∀ e, reply = .error e → p e) ∧ A op₃ n w) F := by
    refine Triple.attempt (((h.outside.prepare release).and hprepare).conseq (fun _ hw => hw)
      (fun _ _ hw => ⟨fun e he => (by cases he), hw⟩) fun e w hw => ?_)
    cases e with
    | none => exact h.active op₃ n none w hw.1 hw.2
    | some e =>
        refine ⟨fun e' he => ?_, hw.2⟩
        cases he
        exact kind_some.mp hw.1
  refine Triple.bind hreply fun reply => Triple.assume fun he => ?_
  cases reply with
  | error e =>
      exact Triple.bind (h.finish op₃ n .failed _ (.inr (.inl rfl))) fun _ =>
        h.throw_triple .failed (he e rfl)
  | ok u =>
      refine Triple.ite (fun _ => ?_) fun _ => h.progress op₃ n .handingOver none
      refine Triple.get_bind fun w hw => Triple.pre (P := A op₃ n) ?_ fun w' hw' => by
        rw [hw']; exact hw
      exact Triple.bind (h.during ((h.quietActive op₃ n).appendProvenance _ _ _ _ _)
        (h.outside.appendProvenance _ _ _ _)) fun _ => h.progress op₃ n .handingOver none

end FetchOutline

namespace ApproachOutline

variable {c : Convergence (World η γ)} {target : Option String} {options : UpgradeOptions}
  {p : Error → Prop} {E : World η γ → Prop} {A : Option Operation → Nat → World η γ → Prop}
  {U : Option Operation → EngineOutcome → World η γ → Prop}
  {B : Option Operation → Option Error → World η γ → Prop} {End : Outcome → World η γ → Prop}
  {F : Option Error → World η γ → Prop}

/-- What a drive has come to at its engine's answer. -/
def AtAnswer (U : Option Operation → EngineOutcome → World η γ → Prop)
    (B : Option Operation → Option Error → World η γ → Prop) (End : Outcome → World η γ → Prop) :
    Approached → World η γ → Prop
  | .inl outcome => End (concludedAs outcome)
  | .inr (op, .ok outcome) => U op outcome
  | .inr (op, .error e) => B op (some e)

/-- **A drive up to its engine's answer**, from the lock on. -/
theorem approach_triple (h : ApproachOutline r c target options p E A U B End F) :
    Triple (OnWorld E) (r.approach c target options)
      (fun answer => OnWorld (AtAnswer U B End answer)) (fun e => OnWorld (F e)) := by
  have hlift : ∀ {β : Type} {P : Nat → World η γ → Prop} {Q : β → Nat → World η γ → Prop}
      {m : Prog Error (World η γ) β},
      (∀ n, Triple (P n) m (fun b => Q b n) F) →
      Triple (fun s => P s.seq s.world) (lift m) (fun b s => Q b s.seq s.world)
        (fun e => OnWorld (F e)) := fun hm =>
    Triple.zoom fun s hs => (hm s.seq s.world hs).mono (fun _ _ hw => hw) fun _ _ hw => hw
  obtain ⟨R, S, hrecover, hsettle, hopen⟩ := h.start
  unfold approach
  refine Triple.bind hrecover fun _ => Triple.bind hsettle fun _ => Triple.bind hopen fun opened => ?_
  refine Triple.bind (hlift fun n => h.pick_triple opened.1 n opened.2) fun picked => ?_
  cases picked with
  | finished outcome => exact Triple.pure fun _ hs => hs
  | release release =>
      refine Triple.assume fun hrelease => ?_
      refine Triple.bind (hlift fun n => h.bringIn_triple opened.1 n release) fun op => ?_
      have hanswer : Triple (fun s => A op s.seq s.world)
          (Prog.attempt ((r.engine c).upgrade release.version incomingPath))
          (fun reply => OnWorld (AtAnswer U B End (.inr (op, reply)))) (fun e => OnWorld (F e)) :=
        Triple.attempt ((h.upgrade op release hrelease).conseq (fun _ hs => hs)
          (fun _ _ hs => hs) fun e s hs => by
            cases e with
            | some e => exact hs
            | none => exact h.broken op _ hs)
      exact Triple.bind hanswer fun reply => Triple.pure fun _ hs => hs

end ApproachOutline

namespace DriveOutline

variable {c : Convergence (World η γ)} {target : Option String} {options : UpgradeOptions}
  {p : Error → Prop} {E : World η γ → Prop} {A : Option Operation → Nat → World η γ → Prop}
  {U : Option Operation → EngineOutcome → World η γ → Prop}
  {B : Option Operation → Option Error → World η γ → Prop} {End : Outcome → World η γ → Prop}
  {F : Option Error → World η γ → Prop}

/-- The engine's outcome ends the operation. -/
theorem conclude_triple (h : DriveOutline r c target options p E A U B End F)
    (op : Option Operation) (outcome : EngineOutcome) :
    Triple (U op outcome) (r.conclude c op outcome) (fun result => End (concludedAs result)) F := by
  have hquiet : ∀ {β : Type} {m : Prog Error (World η γ) β}, Keeps (U op outcome) m →
      Raises p m → Triple (U op outcome) m (fun _ => U op outcome) F := fun hm hp =>
    (hp.and hm).conseq (fun _ hw => hw) (fun _ _ hw => hw)
      fun e w hw => h.ended op outcome e w hw.1 hw.2
  cases outcome with
  | promoted version =>
      unfold Runner.conclude
      refine Triple.get_bind fun w hw => ?_
      refine Triple.pre (P := U op (.promoted version)) ?_ fun w' hw' => by rw [hw']; exact hw
      refine Triple.bind (hquiet ((h.quietEnded op _).asked _)
        (Outside.asked (h.outside.notify _ _))) fun _ => ?_
      refine Triple.bind (hquiet ((h.quietEnded op _).write r.store fun _ =>
        ⟨rfl, rfl, rfl, rfl⟩) (FileStore.write_raises h.outside.faults _ _)) fun _ => ?_
      exact Triple.bind (h.conclude op (.promoted version) none) fun _ => Triple.pure fun _ hw => hw
  | rolledBack reason =>
      unfold Runner.conclude
      refine Triple.bind (hquiet ((h.quietEnded op _).asked _)
        (Outside.asked (h.outside.notify _ _))) fun _ => ?_
      exact Triple.bind (h.conclude op (.rolledBack reason) _) fun _ => Triple.pure fun _ hw => hw
  | upToDate =>
      exact Triple.bind (h.conclude op .upToDate none) fun _ => Triple.pure fun _ hw => hw

/-- What comes after the engine's answer, whatever it is. -/
theorem afterwards_triple (h : DriveOutline r c target options p E A U B End F)
    (answer : Approached) :
    Triple (ApproachOutline.AtAnswer U B End answer) (r.afterwards c answer)
      (fun result => End (concludedAs result)) F :=
  match answer with
  | .inl _ => Triple.pure fun _ hw => hw
  | .inr (op, .ok outcome) =>
      Triple.bind (R := fun _ => U op outcome)
        (Triple.modify fun w hw => (h.quietEnded op outcome).note w _ rfl hw) fun _ =>
          h.conclude_triple op outcome
  | .inr (op, .error e) =>
      Triple.bind (h.abandon op e _) fun _ => Triple.throw fun _ hw => hw

/-- **A drive**, from the lock to the outcome. -/
theorem driveEngine_triple (h : DriveOutline r c target options p E A U B End F) :
    Triple (OnWorld E) (r.driveEngine c target options)
      (fun result => OnWorld (End (concludedAs result))) (fun e => OnWorld (F e)) := by
  rw [driveEngine_eq]
  refine Triple.bind h.approach_triple fun answer => Triple.zoom fun s hs => ?_
  exact (h.afterwards_triple answer s.world hs).mono (fun _ _ hw => hw) fun _ _ hw => hw

end DriveOutline

/-! ## under the lock -/

section Locked

variable {P E I : World η γ → Prop}

/-- What `prior` has let through. -/
def LetThrough (r : Runner η γ) (expected : Option Expected) (recover : Bool)
    (w : World η γ) : Prop :=
  ∀ e, expected = some e → priorAnswer r.store.digest w.disk e recover = .ok ()

/-- Looking at the record keeps any assertion. -/
theorem readRequired_keeps : Keeps P (readRequired : Prog Error (World η γ) _) :=
  readRequired_triple.conseq (fun _ h => h) (fun _ _ h => h.2) fun _ _ h => h.2

/-- The recovery of a call, when every engine call returns in `P` or is cut off in `F`. -/
theorem recoverEngine_confined {P : World η γ → Prop} {F : Option Error → World η γ → Prop}
    {c : Convergence (World η γ)} (h : Confined (r.engine c) P F) (hPF : ∀ e w, P w → F e w) :
    Triple (OnWorld P) (r.recoverEngine c) (fun _ => OnWorld P) (fun e => OnWorld (F e)) := by
  have hread : ∀ {β : Type} {m : Prog Error (World η γ) β}, Keeps P m →
      Triple (OnWorld P) (lift m) (fun _ => OnWorld P) (fun e => OnWorld (F e)) := fun hm =>
    Confined.lift (hm.conseq (fun _ hw => hw) (fun _ _ hw => hw) hPF)
  unfold recoverEngine
  refine Triple.bind (hread readRequired_keeps) fun previous => ?_
  split
  · refine Triple.bind (hread FileStore.readDisk_keeps) fun state => ?_
    exact Triple.ite (fun _ => Triple.throw fun _ hs => hPF _ _ hs) fun _ => h.encloses.observeSettled
  · exact h.encloses.recover

/-- Recovery of the engine is not about the records. -/
theorem recoverEngine_keeps {P : World η γ → Prop} (hP : AboutRecords P)
    {c : Convergence (World η γ)} (hc : ReadsProduct c) :
    Keeps (OnWorld P) (r.recoverEngine c) :=
  recoverEngine_confined (hP.frame (r := r) hc).confined fun _ _ h => h

/-- A call that names no operation is let through. -/
theorem letThrough_none {recover : Bool} {w : World η γ} : r.LetThrough none recover w :=
  fun _ he => by cases he

/-- Looking for a receipt before anything else. -/
theorem prior_letThrough {F : Option Error → World η γ → Prop} {e : Expected} {recover : Bool}
    (hPF : ∀ err w, P w → priorAnswer r.store.digest w.disk e recover = .error err →
      F (some err) w)
    (hPE : ∀ w, P w → r.LetThrough (some e) recover w → E w) :
    Triple P (r.prior e recover) (fun _ => E) F := by
  refine (prior_triple e recover).conseq (fun _ hw => hw) (fun _ w hw => hPE w hw.2 ?_) ?_
  · intro e' he
    cases he
    exact hw.1
  · rintro _ w ⟨⟨err, rfl, herr⟩, hw⟩
    exact hPF err w hw herr

/-- The rest of a call, after the record and the predicate were seen to. -/
theorem engineCall_triple {F : Option Error → World η γ → Prop}
    (hE : ∀ w o, E w → E { w with observed := o })
    (hEF : ∀ message w, E w → F (some (.invalid message)) w)
    {Q : α → World η γ → Prop} {m : Convergence (World η γ) → Prog Error (World η γ) α}
    (h : ∀ c, ReadsProduct c → Triple E (m c) Q F) :
    Triple E (do
      let c ← r.convergence
      Prog.ofExcept (Engine.checkBudget r.hostBudgetMs)
      m c) Q F := by
  refine Triple.bind ((convergence_triple hE).conseq (fun _ hw => hw) (fun _ _ hw => hw) ?_)
    fun c => Triple.assume fun hc => ?_
  · rintro _ w ⟨⟨message, rfl⟩, hw⟩
    exact hEF message w hw
  have hbudget : Triple E (Prog.ofExcept (Engine.checkBudget r.hostBudgetMs)) (fun _ => E) F := by
    refine Triple.ofExcept (fun _ _ _ hw => hw) fun e w he hw => ?_
    unfold Engine.checkBudget at he
    split at he
    · cases he
      exact hEF _ w hw
    · cases he
  exact Triple.bind hbudget fun _ => h c hc

/-- The record is looked at before anything else. -/
theorem readRequired_first {F : Option Error → World η γ → Prop}
    (hPF : ∀ message w, P w → F (some (.invalid message)) w) :
    Triple P (readRequired : Prog Error (World η γ) _) (fun _ => P) F := by
  intro w hw
  rw [readRequired_run]
  cases w.disk.readOperation with
  | genesis => exact hw
  | observed op => exact hw
  | unreadable reason => exact hPF reason w hw

/-- **A recovery under the lock**: the record and its receipt are looked at first. -/
theorem recoverLocked_triple {Q : Unit → World η γ → Prop} {F : Option Error → World η γ → Prop}
    (expected : Option Expected) (hPF : ∀ message w, P w → F (some (.invalid message)) w)
    (hprior : ∀ e err w, expected = some e → P w →
      priorAnswer r.store.digest w.disk e true = .error err → F (some err) w)
    (hPE : ∀ w, P w → r.LetThrough expected true w → E w)
    (hE : ∀ w o, E w → E { w with observed := o })
    (hEF : ∀ message w, E w → F (some (.invalid message)) w)
    (h : ∀ c, ReadsProduct c → Triple (OnWorld E) (do
      r.recoverEngine c
      lift r.settle) (fun u => OnWorld (Q u)) (fun e => OnWorld (F e))) :
    Triple P (r.recoverLocked expected) Q F := by
  have hcall := engineCall_triple (r := r) hE hEF fun c hc => withEngine_triple (h c hc)
  unfold recoverLocked
  refine Triple.bind (readRequired_first hPF) fun _ => ?_
  cases expected with
  | none => exact hcall.pre fun w hw => hPE w hw letThrough_none
  | some e => exact Triple.bind (prior_letThrough (hprior e · · rfl) hPE) fun _ => hcall

/-- A recovery that is let through starts from `E`; whatever ends it leaves `I`. -/
theorem recoverLocked_letThrough {Q : Unit → World η γ → Prop} (expected : Option Expected)
    (hPI : ∀ w, P w → I w) (hPE : ∀ w, P w → r.LetThrough expected true w → E w)
    (hE : ∀ w o, E w → E { w with observed := o }) (hEI : ∀ w, E w → I w)
    (h : ∀ c, ReadsProduct c → Triple (OnWorld E) (do
      r.recoverEngine c
      lift r.settle) (fun u => OnWorld (Q u)) (fun _ => OnWorld I)) :
    Triple P (r.recoverLocked expected) Q (fun _ => I) :=
  recoverLocked_triple expected (fun _ => hPI) (fun _ _ w _ hw _ => hPI w hw) hPE hE
    (fun _ => hEI) h

/-- A recovery whose errors leave what it started from. -/
theorem recoverLocked_within {Q : Unit → World η γ → Prop} {F : Option Error → World η γ → Prop}
    (expected : Option Expected) (hE : ∀ w o, E w → E { w with observed := o })
    (hEF : ∀ err w, E w → F (some err) w)
    (h : ∀ c, ReadsProduct c → Triple (OnWorld E) (do
      r.recoverEngine c
      lift r.settle) (fun u => OnWorld (Q u)) (fun e => OnWorld (F e))) :
    Triple E (r.recoverLocked expected) Q F :=
  recoverLocked_triple expected (fun _ => hEF _) (fun _ err w _ hw _ => hEF err w hw)
    (fun _ hw _ => hw) hE (fun _ => hEF _) h

/-- What a drive does under the lock: the checks, and then `m`. -/
def checked (r : Runner η γ) (target : Option String) (options : UpgradeOptions)
    (m : Convergence (World η γ) → Prog Error (World η γ) α) : Prog Error (World η γ) α := do
  let _ ← readRequired
  match options.operation with
  | some desc => r.prior ⟨desc.id, target.getD ""⟩ false
  | none => pure ()
  let c ← r.convergence
  Prog.ofExcept (Engine.checkBudget r.hostBudgetMs)
  m c

/-- The checks of a drive, and then `m`. -/
theorem checked_triple {Q : α → World η γ → Prop} {F : Option Error → World η γ → Prop}
    (target : Option String) (options : UpgradeOptions)
    (hPF : ∀ message w, P w → F (some (.invalid message)) w)
    (hprior : ∀ desc err w, options.operation = some desc → P w →
      priorAnswer r.store.digest w.disk ⟨desc.id, target.getD ""⟩ false = .error err →
      F (some err) w)
    (hPE : ∀ w, P w → r.LetThrough (options.operation.map fun desc => ⟨desc.id, target.getD ""⟩)
      false w → E w)
    (hE : ∀ w o, E w → E { w with observed := o })
    (hEF : ∀ message w, E w → F (some (.invalid message)) w)
    {m : Convergence (World η γ) → Prog Error (World η γ) α}
    (h : ∀ c, ReadsProduct c → Triple E (m c) Q F) :
    Triple P (r.checked target options m) Q F := by
  have hcall := engineCall_triple (r := r) hE hEF h
  unfold checked
  refine Triple.bind (readRequired_first hPF) fun _ => ?_
  cases hdesc : options.operation with
  | none => exact hcall.pre fun w hw => hPE w hw (by rw [hdesc]; exact letThrough_none)
  | some desc =>
      rw [hdesc] at hPE
      exact Triple.bind (prior_letThrough (hprior desc · · hdesc) hPE) fun _ => hcall

/-- The checks alone. -/
theorem checked_keeps (target : Option String) (options : UpgradeOptions)
    (hE : ∀ w o, E w → E { w with observed := o }) :
    Triple E (r.checked target options pure) (fun c w => ReadsProduct c ∧ E w) (fun _ => E) :=
  checked_triple target options (fun _ _ hw => hw) (fun _ _ _ _ hw _ => hw) (fun _ hw _ => hw) hE
    (fun _ _ hw => hw) fun _ hc => Triple.pure fun _ hw => ⟨hc, hw⟩

/-- **A drive under the lock.** -/
theorem driveLocked_triple {Q : UpgradeOutcome → World η γ → Prop}
    {F : Option Error → World η γ → Prop} (target : Option String) (options : UpgradeOptions)
    (hPF : ∀ message w, P w → F (some (.invalid message)) w)
    (hprior : ∀ desc err w, options.operation = some desc → P w →
      priorAnswer r.store.digest w.disk ⟨desc.id, target.getD ""⟩ false = .error err →
      F (some err) w)
    (hPE : ∀ w, P w → r.LetThrough (options.operation.map fun desc => ⟨desc.id, target.getD ""⟩)
      false w → E w)
    (hE : ∀ w o, E w → E { w with observed := o })
    (hEF : ∀ message w, E w → F (some (.invalid message)) w)
    (h : ∀ c, ReadsProduct c → Triple (OnWorld E) (r.driveEngine c target options)
      (fun result => OnWorld (Q result)) (fun e => OnWorld (F e))) :
    Triple P (r.driveLocked target options) Q F :=
  checked_triple target options hPF hprior hPE hE hEF fun c hc => withEngine_triple (h c hc)

/-- A drive that is let through starts from `E`; whatever ends it leaves `I`. -/
theorem driveLocked_letThrough {Q : UpgradeOutcome → World η γ → Prop} (target : Option String)
    (options : UpgradeOptions) (hPI : ∀ w, P w → I w)
    (hPE : ∀ w, P w → r.LetThrough (options.operation.map fun desc => ⟨desc.id, target.getD ""⟩)
      false w → E w)
    (hE : ∀ w o, E w → E { w with observed := o }) (hEI : ∀ w, E w → I w)
    (h : ∀ c, ReadsProduct c → Triple (OnWorld E) (r.driveEngine c target options)
      (fun result => OnWorld (Q result)) (fun _ => OnWorld I)) :
    Triple P (r.driveLocked target options) Q (fun _ => I) :=
  driveLocked_triple target options (fun _ => hPI) (fun _ _ w _ hw _ => hPI w hw) hPE hE
    (fun _ => hEI) h

/-- A drive whose errors leave what it started from. -/
theorem driveLocked_within {Q : UpgradeOutcome → World η γ → Prop}
    {F : Option Error → World η γ → Prop} (target : Option String) (options : UpgradeOptions)
    (hE : ∀ w o, E w → E { w with observed := o }) (hEF : ∀ err w, E w → F (some err) w)
    (h : ∀ c, ReadsProduct c → Triple (OnWorld E) (r.driveEngine c target options)
      (fun result => OnWorld (Q result)) (fun e => OnWorld (F e))) :
    Triple E (r.driveLocked target options) Q F :=
  driveLocked_triple target options (fun _ => hEF _) (fun _ err w _ hw _ => hEF err w hw)
    (fun _ hw _ => hw) hE (fun _ => hEF _) h

/-- The engine ends where a call on the world begins. -/
theorem withEngine_bind {β : Type} (m : Prog Error (Running (World η γ)) α)
    (f : α → Prog Error (World η γ) β) :
    withEngine (m >>= fun a => lift (f a)) = withEngine m >>= f := by
  funext w
  rw [Prog.bind_run]
  unfold withEngine Prog.zoom
  rw [Prog.bind_run]
  cases hm : m ⟨w, 0⟩ with
  | mk res s => cases res <;> rfl

/-- The checks of a drive and the drive up to its engine's answer. -/
def approachLocked (r : Runner η γ) (target : Option String) (options : UpgradeOptions) :
    Prog Error (World η γ) (Convergence (World η γ) × Approached) :=
  r.checked target options fun c => do
    let answer ← withEngine (r.approach c target options)
    pure (c, answer)

/-- A drive up to its engine's answer, and what comes after it, under the lock. -/
theorem driveLocked_eq (target : Option String) (options : UpgradeOptions) :
    r.driveLocked target options =
      r.approachLocked target options >>= fun answer => r.afterwards answer.1 answer.2 := by
  have hengine : ∀ c, withEngine (r.driveEngine c target options) =
      withEngine (r.approach c target options) >>= r.afterwards c := by
    intro c
    rw [driveEngine_eq, withEngine_bind]
  unfold driveLocked approachLocked checked
  rw [Prog.bind_assoc]
  congr 1; funext _
  cases options.operation with
  | none => simp only [Prog.bind_assoc, hengine]; rfl
  | some desc => simp only [Prog.bind_assoc, hengine]; rfl

/-- **A rollback under the lock**, by value and error: it is held back in `H`, or reported as
rolled back in `Q`. -/
theorem rollbackLocked_value_triple {H R Q : World η γ → Prop}
    {F : Option Error → World η γ → Prop} (reason : String)
    (hread : ∀ e w, P w → w.disk.readJournal = .error e → F (some e) w) (hPH : ∀ w, P w → H w)
    (hPE : ∀ w es, P w → w.disk.readJournal = .ok es →
      ((lastIntent es).any fun p => !p.atRest) = true ∨
        r.hooks.managedElsewhere w.product = false → E w)
    (hE : ∀ w o, E w → E { w with observed := o })
    (hEF : ∀ message w, E w → F (some (.invalid message)) w)
    (hrecover : ∀ c, ReadsProduct c → Triple (OnWorld E) (r.engine c).recover
      (fun _ => OnWorld R) (fun e => OnWorld (F e)))
    (hclear : Triple R r.store.clear (fun _ => Q) F)
    (hnotify : ∀ kind detail, Triple Q (product (r.hooks.notify kind detail)) (fun _ => Q) F) :
    Triple P (r.rollbackLocked reason) (fun outcome w =>
      outcome = .held "managed-elsewhere" ∧ H w ∨ outcome = .rolledBack reason none ∧ Q w) F := by
  unfold rollbackLocked
  refine Triple.bind (R := fun es w => P w ∧ w.disk.readJournal = .ok es)
    (FileStore.readDisk_triple (fun _ _ hw hr => ⟨hw, hr⟩) hread) fun entries => ?_
  refine Triple.get_bind fun w hw => ?_
  refine Triple.ite (fun _ => Triple.pure fun w' h => .inl ⟨rfl, by rw [h]; exact hPH w hw.1⟩)
    fun hgo => ?_
  have hgo : ((lastIntent entries).any fun p => !p.atRest) = true ∨
      r.hooks.managedElsewhere w.product = false := by
    cases hbusy : (lastIntent entries).any fun p => !p.atRest with
    | true => exact .inl rfl
    | false => exact .inr (by simpa [hbusy] using hgo)
  refine Triple.pre (P := E) ?_ fun w' h => by rw [h]; exact hPE w entries hw.1 hw.2 hgo
  refine engineCall_triple hE hEF fun c hc => ?_
  refine Triple.bind (withEngine_triple (hrecover c hc)) fun _ => Triple.bind hclear fun _ => ?_
  exact Triple.bind (hnotify _ _) fun _ => Triple.pure fun _ hw => .inr ⟨rfl, hw⟩

/-- A rollback under the lock, by error. -/
theorem rollbackLocked_kind_triple {R Q : World η γ → Prop} {F : Option Error → World η γ → Prop}
    (reason : String) (hread : ∀ e w, P w → w.disk.readJournal = .error e → F (some e) w)
    (hPQ : ∀ w, P w → Q w)
    (hPE : ∀ w es, P w → w.disk.readJournal = .ok es →
      ((lastIntent es).any fun p => !p.atRest) = true ∨
        r.hooks.managedElsewhere w.product = false → E w)
    (hE : ∀ w o, E w → E { w with observed := o })
    (hEF : ∀ message w, E w → F (some (.invalid message)) w)
    (hrecover : ∀ c, ReadsProduct c → Triple (OnWorld E) (r.engine c).recover
      (fun _ => OnWorld R) (fun e => OnWorld (F e)))
    (hclear : Triple R r.store.clear (fun _ => Q) F)
    (hnotify : ∀ kind detail, Triple Q (product (r.hooks.notify kind detail)) (fun _ => Q) F) :
    Triple P (r.rollbackLocked reason) (fun _ => Q) F :=
  (rollbackLocked_value_triple reason hread hPQ hPE hE hEF hrecover hclear hnotify).post
    fun _ _ h => h.elim And.right And.right

/-- **A rollback under the lock**: recovery, and the experiment slot cleared. -/
theorem rollbackLocked_triple {R : World η γ → Prop} (reason : String)
    (hP : ∀ w o, P w → P { w with observed := o }) (hPI : ∀ w, P w → I w)
    (hrecover : ∀ c, ReadsProduct c → Triple (OnWorld P) (r.engine c).recover
      (fun _ => OnWorld R) (fun _ => OnWorld I))
    (hclear : Triple R r.store.clear (fun _ => I) (fun _ => I)) (hI : Indifferent I) :
    Triple P (r.rollbackLocked reason) (fun _ => I) (fun _ => I) :=
  rollbackLocked_kind_triple (E := P) reason (fun _ w hw _ => hPI w hw) hPI (fun _ _ hw _ _ => hw) hP
    (fun _ => hPI) hrecover hclear fun _ _ => hI.asked _

/-- A rollback keeps what the engine's recovery keeps. -/
theorem rollbackLocked_keeps (reason : String) (hP : ∀ w o, P w → P { w with observed := o })
    (hrecover : ∀ c, ReadsProduct c → Keeps (OnWorld P) (r.engine c).recover)
    (hclear : Keeps P r.store.clear)
    (hnotify : ∀ kind detail, Keeps P (product (r.hooks.notify kind detail))) :
    Keeps P (r.rollbackLocked reason) :=
  rollbackLocked_kind_triple (E := P) reason (fun _ _ hw _ => hw) (fun _ hw => hw)
    (fun _ _ hw _ _ => hw) hP (fun _ _ hw => hw) hrecover hclear hnotify

end Locked

end Runner

/-! ## calls and runs -/

/-- One call on a runner. -/
inductive Call where
  | execute (request : Request)
  | upgrade
  | upgradeTo (version : String) (options : UpgradeOptions)
  | recover (expected : Option Expected)
  | rollback (reason : String)
deriving DecidableEq, Repr

/-- The target of a call that keeps a record of its operation. -/
def Call.named : Call → Option String
  | .execute (.upgrade _ _ targetVersion _) => some targetVersion
  | .upgradeTo version options => options.operation.map fun _ => version
  | _ => none

/-- An upgrade that keeps no record. -/
def Call.unrecorded : Call → Prop
  | .upgrade => True
  | .upgradeTo _ options => options.operation = none
  | _ => False

/-- The operation the call looks for a receipt of. -/
def Call.expected : Call → Option Expected
  | .execute request => request.expected
  | .upgradeTo version options => options.operation.map fun desc => ⟨desc.id, version⟩
  | .recover expected => expected
  | .upgrade | .rollback _ => none

/-- The call is a recovery. -/
def Call.recovers : Call → Bool
  | .recover _ | .execute (.recover _ _) => true
  | _ => false

/-- What the call drives to, under which options. -/
structure Call.Drives (c : Call) (target : Option String) (options : UpgradeOptions) : Prop where
  named : ∀ desc, options.operation = some desc → ∃ version,
    target = some version ∧ c.named = some version
  unrecorded : options.operation = none → c.unrecorded
  expected : (options.operation.map fun desc => ⟨desc.id, target.getD ""⟩) = c.expected
  drives : c.recovers = false

/-- A call that drives an upgrade is no rollback. -/
theorem Call.Drives.ne_rollback {c : Call} {target : Option String} {options : UpgradeOptions}
    (h : c.Drives target options) (reason : String) : c ≠ .rollback reason := by
  intro hc
  subst hc
  cases hop : options.operation with
  | none => exact h.unrecorded hop
  | some desc =>
      obtain ⟨_, -, hnamed⟩ := h.named desc hop
      cases hnamed

namespace Runner

variable {η γ : Type} {r : Runner η γ} {P I : World η γ → Prop}

def call (r : Runner η γ) : Call → Prog Error (World η γ) Unit
  | .execute request => do
      let _ ← r.execute request
      pure ()
  | .upgrade => do
      let _ ← r.upgrade
      pure ()
  | .upgradeTo version options => do
      let _ ← r.upgradeTo version options
      pure ()
  | .recover expected => r.recover expected
  | .rollback reason => do
      let _ ← r.rollback reason
      pure ()

/-- What a call that comes to `w` drives to. -/
def driven (r : Runner η γ) (w : World η γ) : Call → Option (Option String × UpgradeOptions)
  | .upgrade => some (none, .none)
  | .upgradeTo version options => some (some version, options)
  | .execute (.upgrade _ id targetVersion consented) =>
      some (some targetVersion, requestOptions id consented (r.clock w.tick))
  | _ => none

/-- What a call is found to drive, it drives. -/
theorem drives_of_driven {c : Call} {w : World η γ} {target : Option String}
    {options : UpgradeOptions} (h : r.driven w c = some (target, options)) :
    c.Drives target options := by
  cases c with
  | upgrade =>
      cases h
      exact ⟨fun desc hd => (by cases hd), fun _ => trivial, rfl, rfl⟩
  | upgradeTo version options =>
      cases h
      refine ⟨fun desc hd => ⟨version, rfl, ?_⟩, id, rfl, rfl⟩
      rw [Call.named, hd]
      rfl
  | recover expected => cases h
  | rollback reason => cases h
  | execute request =>
      cases request with
      | upgrade version id targetVersion consented =>
          cases h
          exact ⟨fun _ _ => ⟨targetVersion, rfl, rfl⟩, fun h => (by cases h), rfl, rfl⟩
      | recover => cases h
      | status => cases h

/-- **A call** from a world it comes to, whatever its entry point. -/
theorem call_exact {c : Call} {w : World η γ} (hw : I w)
    (hrecover : c.recovers = true →
      Triple (· = w) (r.recover c.expected) (fun _ => I) (fun _ => I))
    (hdrive : ∀ target options, r.driven w c = some (target, options) →
      Triple (· = w) (r.drive target options) (fun _ => I) (fun _ => I))
    (hrollback : ∀ reason, c = .rollback reason →
      Triple (· = w) (r.rollback reason) (fun _ => I) (fun _ => I)) :
    Triple (· = w) (r.call c) (fun _ => I) (fun _ => I) := by
  have hdone : ∀ {α : Type} {m : Prog Error (World η γ) α},
      Triple (· = w) m (fun _ => I) (fun _ => I) → Triple (· = w) (do
        let _ ← m
        pure ()) (fun _ => I) (fun _ => I) := fun hm =>
    Triple.bind hm fun _ => Triple.pure fun _ hw => hw
  have hstart : ∀ w', w' = w → I w' := fun w' h => by rw [h]; exact hw
  cases c with
  | recover expected => exact hrecover rfl
  | rollback reason => exact hdone (hrollback reason rfl)
  | upgrade => exact hdone (hdrive _ _ rfl)
  | upgradeTo version options => exact hdone (hdrive _ _ rfl)
  | execute request =>
      refine hdone ?_
      have hperform : Triple (· = w) (r.perform request) (fun _ => I) (fun _ => I) := by
        cases request with
        | status version => exact Triple.pure hstart
        | recover version expected =>
            exact Triple.bind (hrecover rfl) fun _ => Triple.pure fun _ hw => hw
        | upgrade version id targetVersion consented =>
            refine Triple.get_bind fun w' hw' => ?_
            subst hw'
            exact Triple.bind (hdrive _ _ rfl) fun _ => Triple.pure fun _ hw => hw
      have hattempt : Triple (· = w) (Prog.attempt (r.perform request)) (fun _ => I)
          (fun _ => I) :=
        Triple.attempt (hperform.conseq (fun _ hw => hw) (fun _ _ hw => hw) fun e _ hw => by
          cases e <;> exact hw)
      unfold Runner.execute
      refine Triple.bind (Triple.ofExcept (fun _ _ _ hw => hw) fun _ w' _ hw => hstart w' hw)
        fun _ => Triple.bind hattempt fun result => ?_
      exact Triple.bind (R := fun _ => I) (Triple.get fun _ hw => hw) fun _ =>
        Triple.pure fun _ hw => hw

/-- What has to be shown about the three kinds of calls that take the lock. -/
structure LockedOutline (r : Runner η γ) (c : Call) (P I : World η γ → Prop) : Prop where
  quiet : Indifferent I
  safe : ∀ w, P w → I w
  recover : c.recovers = true → Triple P (r.recover c.expected) (fun _ => I) (fun _ => I)
  drive : ∀ target options, c.Drives target options →
    Triple (fun w => P w ∧ r.hooks.managedElsewhere w.product = false)
      (r.locked (r.driveLocked target options)) (fun _ => I) (fun _ => I)
  rollback : ∀ reason, c = .rollback reason →
    Triple P (r.rollback reason) (fun _ => I) (fun _ => I)

namespace LockedOutline

variable {c : Call}

/-- A drive, unless the service is managed elsewhere. -/
theorem drive_triple (h : LockedOutline r c P I) (target : Option String)
    (options : UpgradeOptions) (hdrives : c.Drives target options) :
    Triple P (r.drive target options) (fun _ => I) (fun _ => I) := by
  unfold Runner.drive
  refine Triple.get_bind fun w hw => ?_
  cases hmanaged : r.hooks.managedElsewhere w.product with
  | true =>
      refine Triple.pre (P := I) ?_ fun w' hw' => by rw [hw']; exact h.safe w hw
      exact Triple.bind (h.quiet.asked _) fun _ => Triple.pure fun _ hw => hw
  | false =>
      exact (h.drive target options hdrives).pre fun w' hw' => by rw [hw']; exact ⟨hw, hmanaged⟩

/-- **A call**, whatever its entry point. -/
theorem call_triple (h : LockedOutline r c P I) :
    Triple P (r.call c) (fun _ => I) (fun _ => I) := by
  refine Triple.of_forall fun w hw => ?_
  have hstart : ∀ w', w' = w → P w' := fun w' h => by rw [h]; exact hw
  exact call_exact (h.safe w hw) (fun hc => (h.recover hc).pre hstart)
    (fun target options hd => (h.drive_triple target options (drives_of_driven hd)).pre hstart)
    fun reason hc => (h.rollback reason hc).pre hstart

end LockedOutline

/-- A lock that is not free is not taken. -/
theorem acquire_busy_triple (hI : OffTick I) :
    Triple (fun w => w.lock ≠ .free ∧ I w) r.acquire (fun _ _ => False) (fun _ => I) := by
  unfold acquire
  refine Triple.bind (R := fun _ w => w.lock ≠ .free ∧ I w) ?_ fun _ => ?_
  · exact (FileStore.boundary_triple (fun _ => trivial : _ → True)
      (fun w n h => ⟨h.1, hI w n h.2⟩) _).crash fun _ h => h.1.2
  refine Triple.get_bind fun w hw => ?_
  cases hlock : w.lock with
  | free => exact absurd hlock hw.1
  | held pid => exact Triple.throw fun w' h => by rw [h]; exact hw.2
  | unreadable => exact Triple.throw fun w' h => by rw [h]; exact hw.2

/-- It ends the call. -/
theorem locked_busy_triple {α : Type} {Q : α → World η γ → Prop} (hI : OffTick I)
    (body : Prog Error (World η γ) α) :
    Triple (fun w => w.lock ≠ .free ∧ I w) (r.locked body) Q (fun _ => I) :=
  Triple.bind (acquire_busy_triple hI) fun _ _ h => h.elim

/-- Under another's lock nothing is done. -/
theorem busyOutline (hI : Indifferent I) (c : Call) :
    LockedOutline r c (fun w => w.lock ≠ .free ∧ I w) I where
  quiet := hI
  safe _ h := h.2
  recover _ := locked_busy_triple hI.tick _
  drive _ _ _ := (locked_busy_triple hI.tick _).pre fun _ h => h.1
  rollback _ _ := locked_busy_triple hI.tick _

/-- What has to be shown about the three bodies that run under the lock. -/
structure CallOutline (r : Runner η γ) (c : Call) (P I : World η γ → Prop) : Prop where
  quiet : Indifferent I
  startOff : OffLock P
  off : OffLock I
  safe : ∀ w, P w → I w
  recover : c.recovers = true →
    Triple P (r.recoverLocked c.expected) (fun _ => I) (fun _ => I)
  drive : ∀ target options, c.Drives target options →
    Triple (fun w => P w ∧ r.hooks.managedElsewhere w.product = false)
      (r.driveLocked target options) (fun _ => I) (fun _ => I)
  rollback : ∀ reason, c = .rollback reason →
    Triple P (r.rollbackLocked reason) (fun _ => I) (fun _ => I)

namespace CallOutline

variable {c : Call}

/-- What holds under the lock holds of the whole call. -/
theorem lockedOutline (h : CallOutline r c P I) : LockedOutline r c P I where
  quiet := h.quiet
  safe := h.safe
  recover hc := locked_triple h.startOff (fun _ => h.off) h.off h.safe (fun _ _ hw => hw) (h.recover hc)
  drive target options hdrives :=
    locked_triple (fun w lock n hw => ⟨h.startOff w lock n hw.1, hw.2⟩) (fun _ => h.off) h.off
      (fun w hw => h.safe w hw.1) (fun _ _ hw => hw) (h.drive target options hdrives)
  rollback reason hc :=
    locked_triple h.startOff (fun _ => h.off) h.off h.safe (fun _ _ hw => hw) (h.rollback reason hc)

/-- **A call**, whatever its entry point. -/
theorem call_triple (h : CallOutline r c P I) :
    Triple P (r.call c) (fun _ => I) (fun _ => I) := h.lockedOutline.call_triple

end CallOutline

end Runner

/-- A worker of its own: its configuration with its faults, the lock and the product as it
finds them, and the one call it makes. -/
structure Visit (η γ : Type) where
  runner : Runner η γ
  lock : LockState
  product : γ
  call : Call

namespace Visit

variable {η γ : Type}

/-- The world as the worker finds it. -/
def finds (v : Visit η γ) (w : World η γ) : World η γ :=
  { w with lock := v.lock, product := v.product }

/-- The world after the worker returned, failed or died. -/
def run (v : Visit η γ) (w : World η γ) : World η γ := (v.runner.call v.call (v.finds w)).2

end Visit

/-- One visit after the other. -/
def runVisits {η γ : Type} (visits : List (Visit η γ)) (w : World η γ) : World η γ :=
  visits.foldl (fun w v => v.run w) w

/-- Every visit of the run meets `M` of itself and the world it comes to. -/
def EachVisit {η γ : Type} (M : Visit η γ → World η γ → Prop) :
    List (Visit η γ) → World η γ → Prop
  | [], _ => True
  | v :: visits, w => M v w ∧ EachVisit M visits (v.run w)

/-- What holds of every visit in every world holds along a run. -/
theorem eachVisit_of_forall {η γ : Type} {M : Visit η γ → World η γ → Prop}
    {visits : List (Visit η γ)} (h : ∀ v ∈ visits, ∀ w, M v w) (w : World η γ) :
    EachVisit M visits w := by
  induction visits generalizing w with
  | nil => exact True.intro
  | cons v visits ih =>
      exact ⟨h v (by simp) w, ih (fun v' hv' => h v' (List.mem_cons_of_mem _ hv')) (v.run w)⟩

/-- A condition on the visits and one on the worlds they come to. -/
theorem eachVisit_and {η γ : Type} {A : Visit η γ → Prop} {M : Visit η γ → World η γ → Prop}
    {visits : List (Visit η γ)} {w : World η γ} (hA : ∀ v ∈ visits, A v)
    (hM : EachVisit M visits w) : EachVisit (fun v w => A v ∧ M v w) visits w := by
  induction visits generalizing w with
  | nil => exact True.intro
  | cons v visits ih =>
      exact ⟨⟨hA v (by simp), hM.1⟩, ih (fun v' hv' => hA v' (List.mem_cons_of_mem _ hv')) hM.2⟩

/-- A run after a run. -/
theorem runVisits_append {η γ : Type} (before after : List (Visit η γ)) (w : World η γ) :
    runVisits (before ++ after) w = runVisits after (runVisits before w) :=
  List.foldl_append

/-- **Runs**: what every visit keeps, a run keeps. -/
theorem run_invariant {η γ : Type} {I : World η γ → Prop} {M : Visit η γ → World η γ → Prop}
    (hstep : ∀ v w, I w → M v w → I (v.run w)) (visits : List (Visit η γ)) (w : World η γ)
    (hw : I w) (hmeets : EachVisit M visits w) : I (runVisits visits w) := by
  induction visits generalizing w with
  | nil => exact hw
  | cons v visits ih => exact ih (v.run w) (hstep v w hw hmeets.1) hmeets.2

/-- A call that ends in `I` wherever it is cut off leaves `I` behind. -/
theorem Visit.run_of_triple {η γ : Type} {v : Visit η γ} {w : World η γ}
    {P I : World η γ → Prop} (h : Triple P (v.runner.call v.call) (fun _ => I) (fun _ => I))
    (hP : P (v.finds w)) : I (v.run w) := h.leaves hP

end KCarrier
