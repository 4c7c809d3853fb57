import KCarrier.Runner.Flow

/-!
# KCarrier.Runner.Errors

The errors a runner's calls may end with.

What the store reports is text, an I/O error or a JSON error (`Plain`), its faults
apart; the engine adds uncertain timeouts; and everything else comes from the host or
the product (`Surroundings`).  An error of the runner's own, such as a replay, can
therefore only come from where the runner raises it.
-/

namespace KCarrier

open Crash
open Running

/-- The errors the store's checks raise are of the kind `p`. -/
structure Plain (p : Error → Prop) : Prop where
  invalid : ∀ message, p (.invalid message)
  io : ∀ notFound message, p (.io notFound message)
  json : ∀ message, p (.json message)

section Reads

variable {p : Error → Prop} (hp : Plain p)
include hp

/-- An error in the lines of a journal is of the kind `p`. -/
theorem readLines_error {last : Option JournalEntry} {lines : List (Line JournalEntry)} {e : Error}
    (h : readLines checkEntry last lines = .error e) : p e := by
  induction lines generalizing last with
  | nil => cases h
  | cons line lines ih =>
      cases line with
      | blank => exact ih h
      | corrupt message =>
          cases h
          exact hp.json message
      | entry a =>
          simp only [readLines] at h
          cases hc : checkEntry last a with
          | error err =>
              simp only [hc, Except.error.injEq] at h
              subst h
              unfold checkEntry JournalEntry.validate at hc
              split at hc
              · next err hv =>
                  cases hc
                  split at hv
                  · cases hv
                    exact hp.invalid _
                  · cases hv
              · split at hc
                · cases hc
                  exact hp.invalid _
                · cases hc
          | ok u =>
              simp only [hc] at h
              cases hrest : readLines checkEntry (some a) lines with
              | error err =>
                  simp only [hrest, Except.error.injEq] at h
                  subst h
                  exact ih hrest
              | ok es => simp [hrest] at h

/-- A journal that cannot be read says so with an error of the kind. -/
theorem readJournal_error {d : Disk} {e : Error} (h : d.readJournal = .error e) : p e := by
  unfold Disk.readJournal at h
  split at h
  · cases h
  · cases h
    exact hp.io _ _
  · exact readLines_error hp h

/-- So does a file. -/
theorem read_error {α : Type} {file : File α} {e : Error} (h : file.read = .error e) : p e := by
  cases file with
  | absent =>
      cases h
      exact hp.io _ _
  | unreadable message =>
      cases h
      exact hp.io _ _
  | content a => cases h

/-- Reading the version of a slot fails with an error of the kind. -/
theorem version_error {d : Disk} {place : Place} {e : Error} (h : d.version place = .error e) :
    p e := by
  unfold Disk.version at h
  split at h
  · cases h
  · cases h
    exact hp.invalid _
  · split at h
    · next err hr =>
        cases h
        exact read_error hp hr
    · split at h
      · cases h
        exact hp.invalid _
      · split at h
        · cases h
          exact hp.io _ _
        · cases h
          exact hp.invalid _
        · cases h

/-- Both versions, by what either of them fails with. -/
theorem versions_error {d : Disk} {e : Error} (h : d.versions = .error e) : p e := by
  unfold Disk.versions at h
  cases hs : d.version .stable with
  | error err =>
      simp only [hs, Except.error.injEq] at h
      exact h ▸ version_error hp hs
  | ok stable =>
      cases hx : d.version .experiment with
      | error err =>
          simp only [hs, hx, Except.error.injEq] at h
          exact h ▸ version_error hp hx
      | ok experiment => simp [hs, hx] at h

/-- The state of the last transaction, by the journal and the stable version. -/
theorem transactionState_error {d : Disk} {e : Error} (h : d.transactionState = .error e) :
    p e := by
  rcases transactionState_error_cases h with hj | ⟨place, hv⟩ | rfl
  · exact readJournal_error hp hj
  · exact version_error hp hv
  · exact hp.invalid _

end Reads

/-- What a record is refused with says that it is invalid. -/
theorem operation_validate_error {op : Operation} {e : Error} (h : op.validate = .error e) :
    ∃ message, e = .invalid message := by
  unfold Operation.validate at h
  split at h
  · cases h
    exact ⟨_, rfl⟩
  · cases h

/-! ## the store -/

namespace FileStore

variable {η γ α : Type} {s : FileStore} {p : Error → Prop}

/-- A read of the directory raises what the read itself fails with. -/
theorem readDisk_raises {read : Disk → Except Error α} (h : ∀ d e, read d = .error e → p e) :
    Raises p (readDisk read : Prog Error (World η γ) α) :=
  Raises.bind Raises.get fun _ => Raises.ofExcept fun e he => h _ e he

section

variable (hs : s.Fails p) (hp : Plain p)
include hs hp

/-- `remove_dir` raises nothing but errors of the kind. -/
theorem removeDir_raises (place : Place) :
    Raises p (s.removeDir place : Prog Error (World η γ) Unit) := by
  unfold removeDir
  refine Raises.bind Raises.get fun w => ?_
  cases w.disk.slots place with
  | absent => exact Raises.pure ()
  | other => exact Raises.throw (hp.invalid _)
  | dir d => exact Raises.bind (write_raises hs _ _) fun _ => write_raises hs _ _

/-- `append` of the journal raises nothing but errors of the kind. -/
theorem append_raises (entry : JournalEntry) :
    Raises p (s.append entry : Prog Error (World η γ) Unit) := by
  have htail : Raises p (s.repairTail : Prog Error (World η γ) Unit) := by
    unfold repairTail
    refine Raises.bind Raises.get fun w => ?_
    cases w.disk.journal with
    | absent => exact Raises.pure ()
    | unreadable message => exact Raises.pure ()
    | content file => exact Raises.ite (write_raises hs _ _) (Raises.pure ())
  unfold append
  refine Raises.bind (Raises.ofExcept fun e he => ?_) fun _ => ?_
  · unfold JournalEntry.validate at he
    split at he
    · cases he
      exact hp.invalid _
    · cases he
  refine Raises.bind (readDisk_raises fun d e he => readJournal_error hp he) fun prior => ?_
  refine Raises.ite (Raises.throw (hp.invalid _)) ?_
  refine Raises.bind htail fun _ => Raises.bind (write_raises hs _ _) fun _ => write_raises hs _ _

/-- `stage` raises nothing but errors of the kind. -/
theorem stage_raises (version : String) (bytes : Path) :
    Raises p (s.stage version bytes : Prog Error (World η γ) Unit) := by
  unfold stage populate
  refine Raises.bind (Raises.ite (Raises.throw (hp.invalid _)) ?_) fun _ =>
    Raises.bind (removeDir_raises hs hp _) fun _ => write_raises hs _ _
  refine Raises.bind (removeDir_raises hs hp _) fun _ => ?_
  refine Raises.bind (write_raises hs _ _) fun _ => Raises.bind Raises.get fun w => ?_
  refine Raises.bind (Raises.ofExcept fun e he => read_error hp he) fun source => ?_
  exact Raises.bind (write_raises hs _ _) fun _ => Raises.bind (write_raises hs _ _) fun _ =>
    write_raises hs _ _

/-- `promote` raises nothing but errors of the kind. -/
theorem promote_raises : Raises p (s.promote : Prog Error (World η γ) Unit) := by
  unfold promote
  refine Raises.bind (readDisk_raises fun d e he => version_error hp he) fun experiment => ?_
  cases experiment with
  | none =>
      refine Raises.bind (readDisk_raises fun d e he => version_error hp he) fun stable => ?_
      cases stable with
      | none => exact Raises.throw (hp.invalid _)
      | some version => exact removeDir_raises hs hp _
  | some version =>
      refine Raises.bind Raises.get fun w => Raises.ite ?_ ?_
      · refine Raises.bind (removeDir_raises hs hp _) fun _ => ?_
        refine Raises.bind (write_raises hs _ _) fun _ => ?_
        exact Raises.bind (write_raises hs _ _) fun _ => removeDir_raises hs hp _
      · exact Raises.bind (write_raises hs _ _) fun _ => removeDir_raises hs hp _

/-- Recording an operation raises nothing but errors of the kind. -/
theorem persistOperation_raises (op : Operation) :
    Raises p (s.persistOperation op : Prog Error (World η γ) Unit) := by
  unfold persistOperation
  refine Raises.bind (Raises.ofExcept fun e he => ?_) fun _ => ?_
  · obtain ⟨message, rfl⟩ := operation_validate_error he
    exact hp.invalid message
  refine Raises.bind (boundary_raises hs _) fun _ => ?_
  exact Raises.bind (Raises.modify _) fun _ => boundary_raises hs _

/-- `archive` raises nothing but errors of the kind. -/
theorem archive_raises (op : Operation) :
    Raises p (s.archive op : Prog Error (World η γ) Unit) := by
  unfold archive
  refine Raises.bind (Raises.ofExcept fun e he => ?_) fun _ => ?_
  · obtain ⟨message, rfl⟩ := operation_validate_error he
    exact hp.invalid message
  refine Raises.ite (Raises.throw (hp.invalid _)) ?_
  refine Raises.bind Raises.get fun w => ?_
  cases w.disk.readArchive s.digest op.id with
  | unreadable reason => exact Raises.throw (hp.invalid _)
  | observed existing =>
      refine Raises.ite ?_ (Raises.pure ())
      exact Raises.bind (Raises.modify _) fun _ => Raises.throw (hp.invalid _)
  | genesis =>
      unfold writeReceipt
      refine Raises.bind (boundary_raises hs _) fun _ => ?_
      exact Raises.bind (Raises.modify _) fun _ => boundary_raises hs _

end

end FileStore

/-! ## the runner -/

/-- Every call of a host fails with errors of the kind `p` only. -/
structure Host.Raises {σ : Type} (h : Host σ) (p : Error → Prop) : Prop where
  fence : Crash.Raises p h.fence
  quiesce : Crash.Raises p h.quiesce
  stop : ∀ slot, Crash.Raises p (h.stop slot)
  start : ∀ slot, Crash.Raises p (h.start slot)
  probe : Crash.Raises p h.probe
  resume : Crash.Raises p h.resume

namespace Runner

variable {η γ : Type} {r : Runner η γ} {p : Error → Prop}

/-- Whatever a runner is surrounded by fails with errors of the kind `p` only. -/
structure Surroundings (r : Runner η γ) (p : Error → Prop) : Prop extends r.Outside p where
  plain : Plain p
  uncertain : ∀ message, p (.uncertain message)
  host : ∀ disk, (r.host disk).Raises p

/-- A call of the host raises what the host does, or what cuts it off. -/
theorem hostCall_raises {α : Type} (hs : r.store.Fails p) {name : String}
    {call : Host η → Prog Error η (Option α)} (h : ∀ disk, Raises p (call (r.host disk))) :
    Raises p (r.hostCall name call) := by
  unfold hostCall
  refine Raises.bind (FileStore.boundary_raises hs _) fun _ => ?_
  refine Raises.bind (Raises.modify _) fun _ => ?_
  refine Raises.bind (fun w _ => ?_) fun reply => ?_
  · have hends := h w.disk w.host trivial
    unfold hostRun
    generalize call (r.host w.disk) w.host = o at hends ⊢
    obtain ⟨o, t⟩ := o
    cases o <;> exact hends
  · exact Raises.bind (FileStore.boundary_raises hs _) fun _ => Raises.pure _

/-- The verdict catches what the surfaces raise. -/
theorem evaluate_raises (hp : Plain p) {σ : Type} (c : Convergence σ) (self : Nat)
    (evidence : Evidence) (target : String) :
    Raises p (c.evaluate self evidence target) := by
  have hread : ∀ (surfaces : List (ReadbackSurface σ)) (result : PredicateResult)
      (sources : List String), Raises p (c.readSurfaces result sources surfaces) := by
    intro surfaces
    induction surfaces with
    | nil => exact fun _ _ => Raises.pure _
    | cons surface rest ih =>
        intro result sources
        unfold Convergence.readSurfaces
        refine Raises.bind (Raises.attempt _) fun reply => ?_
        rcases reply with e | _ | ⟨value, note⟩
        · exact Raises.pure _
        · exact Raises.pure _
        · exact Raises.ite (ih _ _) (Raises.pure _)
  unfold Convergence.evaluate
  refine Raises.bind (Raises.ofExcept fun e he => ?_) fun _ => ?_
  · unfold Evidence.validate at he
    split at he
    · cases he
      exact hp.invalid _
    · cases he
  refine Raises.bind (Raises.modify _) fun _ => Raises.ite (Raises.pure _) ?_
  refine Raises.ite (Raises.pure _) ?_
  unfold Convergence.settle
  refine Raises.bind Raises.get fun s => Raises.bind (Raises.zoom (hread _ _ _)) fun reply => ?_
  cases reply with
  | none => exact Raises.pure _
  | some result => exact Raises.bind (Raises.modify _) fun _ => Raises.pure _

/-- The calls of a runner's engine. -/
theorem engine_raises (h : r.Surroundings p) (c : Convergence (World η γ)) :
    Calls (r.engine c) p where
  invalid := h.invalid
  uncertain := h.uncertain
  readJournal := FileStore.readDisk_raises fun _ _ he => readJournal_error h.plain he
  append := FileStore.append_raises h.faults h.plain
  versions := FileStore.readDisk_raises fun _ _ he => versions_error h.plain he
  stage := FileStore.stage_raises h.faults h.plain
  promote := FileStore.promote_raises h.faults h.plain
  clear := FileStore.removeDir_raises h.faults h.plain .experiment
  fence := hostCall_raises h.faults fun disk => (h.host disk).fence
  quiesce := hostCall_raises h.faults fun disk => (h.host disk).quiesce
  stop slot := hostCall_raises h.faults fun disk => (h.host disk).stop slot
  start slot := hostCall_raises h.faults fun disk => (h.host disk).start slot
  probe := hostCall_raises h.faults fun disk => (h.host disk).probe
  resume := hostCall_raises h.faults fun disk => (h.host disk).resume
  evaluate evidence target := by
    have hzoom : Raises p (Prog.zoom (fun w : World η γ => (w, w.observed))
        (fun s _ => { s.1 with observed := s.2 }) (c.evaluate r.self evidence target)) :=
      Raises.zoom (evaluate_raises h.plain c r.self evidence target)
    exact hzoom

/-- Looking at the record raises nothing but errors of the kind. -/
theorem readRequired_raises (hp : Plain p) :
    Raises p (readRequired : Prog Error (World η γ) (Option Operation)) := by
  unfold readRequired
  refine Raises.bind Raises.get fun w => ?_
  cases w.disk.readOperation with
  | genesis => exact Raises.pure _
  | observed op => exact Raises.pure _
  | unreadable reason => exact Raises.throw (hp.invalid _)

/-- `transition` raises what recording does. -/
theorem transition_raises (hs : r.store.Fails p) (hp : Plain p) (op : Option Operation)
    (phase : OperationPhase) (outcome : Option Outcome) (reason : Option String) :
    Raises p (r.transition op phase outcome reason) := by
  unfold transition
  cases op with
  | none => exact Raises.pure _
  | some op =>
      refine Raises.bind Raises.get fun w => ?_
      exact Raises.bind (FileStore.persistOperation_raises hs hp _) fun _ => Raises.pure _

/-- `settle` raises nothing but errors of the kind. -/
theorem settle_raises (hs : r.store.Fails p) (hp : Plain p) : Raises p r.settle := by
  unfold settle
  refine Raises.bind (readRequired_raises hp) fun previous => ?_
  cases previous with
  | none => exact Raises.pure ()
  | some op =>
      refine Raises.ite (Raises.pure ()) ?_
      refine Raises.bind (FileStore.readDisk_raises fun d e he => transactionState_error hp he)
        fun state => ?_
      refine Raises.ite ?_ (Raises.ite ?_ (Raises.pure ()))
      · exact Raises.bind (transition_raises hs hp _ _ _ _) fun _ => Raises.pure ()
      · exact Raises.bind (transition_raises hs hp _ _ _ _) fun _ => Raises.pure ()

/-- `recover_engine` raises nothing but errors of the kind. -/
theorem recoverEngine_raises (h : r.Surroundings p) (c : Convergence (World η γ)) :
    Raises p (r.recoverEngine c) := by
  have hcalls := engine_raises h c
  unfold recoverEngine
  refine Raises.bind (Calls.lift (readRequired_raises h.plain)) fun previous => ?_
  split
  · refine Raises.bind (Calls.lift (FileStore.readDisk_raises fun d e he =>
      transactionState_error h.plain he)) fun state => ?_
    exact Raises.ite (Raises.throw (h.invalid _)) hcalls.observeSettled
  · exact hcalls.recover

end Runner

end KCarrier
