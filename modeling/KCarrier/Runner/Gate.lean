import KCarrier.Quarantine
import KCarrier.Runner.Journaled
import KCarrier.Runner.Truth
import KCarrier.Runner.Vouched

/-!
# KCarrier.Runner.Gate

What a quarantine moves aside without a handoff.

The gate looks at the record, and at the journal only where there is no record.  That is
enough as long as a settled record stands over a journal at rest (`Shielded`).  Recovery,
rollback and every upgrade with a descriptor keep it so; an upgrade without one leaves the
settled record of another operation in place, and `Visit.LeavesUnshielded` is such an upgrade
that ends in flight.
-/

namespace KCarrier

open Crash
open Running

/-! ## one call -/

namespace Quarantine

variable {η γ α : Type} {q : Quarantine γ} {d : Disk} {before new : List QuarantineEvent}
  {I : LockState → Prop}

/-- The events of one call on the directory `d`. -/
inductive Passes (q : Quarantine γ) (d : Disk) : List QuarantineEvent → Prop
  | stayed {es : List QuarantineEvent} (h : .displaced ∉ es) : Passes q d es
  | silent {operationId : String} (hnone : q.handoff = none)
      (h : q.requiresHandoff d = .ok (false, operationId)) : Passes q d [.displaced]
  | approved {required : Bool} {operationId : String} (hsome : q.handoff ≠ none)
      (h : q.requiresHandoff d = .ok (required, operationId)) :
      Passes q d [.handoff (.held q.self) true, .displaced]

/-- Somewhere in a call: the directory is `d`, and `new` happened since `before`. -/
structure Stands (d : Disk) (before new : List QuarantineEvent) (I : LockState → Prop)
    (site : QuarantineSite η γ) : Prop where
  disk : site.world.disk = d
  lock : I site.world.lock
  events : site.events = before ++ new

/-- The end of a call, however it ends. -/
def Ended (q : Quarantine γ) (d : Disk) (before : List QuarantineEvent)
    (site : QuarantineSite η γ) : Prop :=
  ∃ new, site.events = before ++ new ∧ q.Passes d new

theorem Stands.ended {site : QuarantineSite η γ} (h : Stands d before new I site)
    (hpasses : q.Passes d new) : q.Ended d before site := ⟨new, h.events, hpasses⟩

theorem boundary_keeps (label : String) :
    Keeps (Stands d before new I : QuarantineSite η γ → Prop) (q.boundary label) := by
  have hworld : Keeps (fun w : World η γ => w.disk = d ∧ I w.lock) (q.store.boundary label) :=
    (FileStore.boundary_triple (fun _ => trivial : _ → True) (fun _ _ h => h) label).crash
      fun _ h => h.1
  unfold boundary onWorld
  refine Triple.zoom fun site hsite => ?_
  exact (hworld site.world ⟨hsite.disk, hsite.lock⟩).mono
    (fun _ _ h => ⟨h.1, h.2, hsite.events⟩) fun _ _ h => ⟨h.1, h.2, hsite.events⟩

/-- An effect that is cut off leaves what passes. -/
theorem boundary_triple (label : String) (hpasses : q.Passes d new) :
    Triple (Stands d before new I : QuarantineSite η γ → Prop) (q.boundary label)
      (fun _ => Stands d before new I) (fun _ => q.Ended d before) :=
  (boundary_keeps label).conseq (fun _ h => h) (fun _ _ h => h) fun _ _ h => h.ended hpasses

theorem passes_nil : q.Passes d [] := .stayed (by simp)

theorem takeLock_triple :
    Triple (Stands d before [] fun _ => True : QuarantineSite η γ → Prop) q.takeLock
      (fun _ => Stands d before [] (· = .held q.self)) (fun _ => q.Ended d before) := by
  unfold takeLock
  refine Triple.bind (boundary_triple _ passes_nil) fun _ => Triple.get_bind fun site hsite => ?_
  have hstart : ∀ s, s = site → Stands d before [] (fun _ => True) s := fun s h => by
    rw [h]
    exact hsite
  cases site.world.lock with
  | free =>
      refine Triple.modify fun s h => ?_
      have hs := hstart s h
      exact ⟨hs.disk, rfl, hs.events⟩
  | held pid => exact Triple.throw fun s h => (hstart s h).ended passes_nil
  | unreadable => exact Triple.throw fun s h => (hstart s h).ended passes_nil

/-- Dropping the guard is no event. -/
theorem dropLock_keeps : Keeps (q.Ended d before : QuarantineSite η γ → Prop) q.dropLock := by
  have hboundary : Keeps (q.Ended d before : QuarantineSite η γ → Prop) (q.boundary "release") := by
    unfold boundary onWorld
    refine Triple.zoom fun site hsite => ?_
    have hany : Triple (fun _ : World η γ => True) (q.store.boundary "release") (fun _ _ => True)
        fun _ _ => True :=
      (FileStore.boundary_triple (fun _ => trivial : _ → True) (fun _ _ h => h) _).crash
        fun _ _ => trivial
    exact (hany site.world trivial).mono (fun _ _ _ => hsite) fun _ _ _ => hsite
  unfold dropLock
  refine Triple.get_bind fun site hsite => ?_
  refine Triple.pre (P := q.Ended d before) ?_ fun s h => by rw [h]; exact hsite
  refine Triple.ite (fun _ => ?_) fun _ => Triple.pure fun _ h => h
  exact Triple.bind hboundary fun _ => Triple.modify fun _ h => h

/-- What the gate has let through. -/
inductive LetsPass (q : Quarantine γ) (required : Bool) : List QuarantineEvent → Prop
  | silent (hnone : q.handoff = none) (h : required = false) : LetsPass q required []
  | approved (hsome : q.handoff ≠ none) : LetsPass q required [.handoff (.held q.self) true]

theorem LetsPass.passes {required : Bool} (h : q.LetsPass required new) : q.Passes d new := by
  cases h <;> exact .stayed (by simp)

/-- What is moved was let through. -/
theorem LetsPass.displaced {required : Bool} {operationId : String} (h : q.LetsPass required new)
    (hrequires : q.requiresHandoff d = .ok (required, operationId)) :
    q.Passes d (new ++ [.displaced]) := by
  cases h with
  | silent hnone hfalse =>
      subst hfalse
      exact .silent hnone hrequires
  | approved hsome => exact .approved hsome hrequires

/-- **The gate**: nothing is required, or the caller is asked under the lock. -/
theorem passGate_triple (required : Bool) :
    Triple (Stands d before [] (· = .held q.self) : QuarantineSite η γ → Prop) (q.passGate required)
      (fun _ site => ∃ new, q.LetsPass required new ∧ Stands d before new (· = .held q.self) site)
      (fun _ => q.Ended d before) := by
  unfold passGate
  cases hhandoff : q.handoff with
  | none =>
      refine Triple.ite (fun _ => Triple.throw fun _ h => h.ended passes_nil) fun hrequired => ?_
      exact Triple.pure fun _ h => ⟨[], .silent hhandoff (by simpa using hrequired), h⟩
  | some call =>
      unfold askHandoff
      refine Triple.get_bind fun site hsite => ?_
      have hlock : site.world.lock = .held q.self := hsite.lock
      have hkept : ∀ p : γ, Stands d before [] (· = .held q.self)
          { site with world := { site.world with product := p } } := fun p =>
        ⟨hsite.disk, hsite.lock, hsite.events⟩
      have hcall : Triple (· = site) (Prog.attempt (onWorld (Prog.zoom World.product
          (fun p w => { w with product := p }) (call site.world.disk))))
          (fun _ => Stands d before [] (· = .held q.self)) (fun _ => q.Ended d before) := by
        refine Triple.attempt (Triple.zoom fun s hs => ?_)
        subst hs
        have hany : Raises (fun _ => True) (call s.world.disk) := Raises.any
        refine Triple.zoom (P := (· = s.world)) (fun w hw => ?_) s.world rfl
        subst hw
        refine (hany s.world.product trivial).mono (fun _ p _ => hkept p) fun e p _ => ?_
        cases e with
        | some e => exact hkept p
        | none => exact (hkept p).ended passes_nil
      refine Triple.bind hcall fun reply => ?_
      have hasked : ∀ approved : Bool,
          Triple (Stands d before [] (· = .held q.self) : QuarantineSite η γ → Prop)
          (event (.handoff site.world.lock approved))
          (fun _ => Stands d before [.handoff (.held q.self) approved] (· = .held q.self))
          (fun _ => q.Ended d before) := fun approved => Triple.modify fun s hs =>
        ⟨hs.disk, hs.lock, by rw [hs.events, hlock]; simp⟩
      cases reply with
      | ok u => exact (hasked true).post fun _ s hs => ⟨_, .approved (by simp [hhandoff]), hs⟩
      | error e =>
          exact Triple.bind (hasked false) fun _ => Triple.throw fun s hs =>
            hs.ended (.stayed (by simp))

theorem renameExclusive_triple {required : Bool} {operationId : String}
    (hpass : q.LetsPass required new)
    (hrequires : q.requiresHandoff d = .ok (required, operationId)) :
    Triple (Stands d before new (· = .held q.self) : QuarantineSite η γ → Prop) q.renameExclusive
      (fun _ => Stands d before (new ++ [.displaced]) (· = .held q.self))
      (fun _ => q.Ended d before) := by
  unfold renameExclusive
  refine Triple.bind (boundary_triple _ hpass.passes) fun _ => ?_
  refine Triple.get_bind fun site hsite => ?_
  refine Triple.pre (P := Stands d before new (· = .held q.self)) ?_ fun s h => by
    rw [h]
    exact hsite
  refine Triple.ite (fun _ => Triple.throw fun _ h => h.ended hpass.passes) fun _ => ?_
  refine Triple.bind (R := fun _ => Stands d before (new ++ [.displaced]) (· = .held q.self))
    (Triple.modify fun s h => ⟨h.disk, h.lock, ?_⟩) fun _ =>
      boundary_triple _ (hpass.displaced hrequires)
  rw [h.events, List.append_assoc]

/-- **Under the lock**: what is moved went through the gate. -/
theorem displace_triple (source destination : PathBuf) :
    Triple (Stands d before [] (· = .held q.self) : QuarantineSite η γ → Prop)
      (q.displace source destination) (fun _ => q.Ended d before) (fun _ => q.Ended d before) := by
  unfold displace
  refine Triple.get_bind fun site hsite => ?_
  refine Triple.pre (P := Stands d before [] (· = .held q.self)) ?_ fun s h => by
    rw [h]
    exact hsite
  rw [hsite.disk]
  refine Triple.bind (R := fun found site => q.requiresHandoff d = .ok found ∧
      Stands d before [] (· = .held q.self) site)
    (Triple.ofExcept (fun _ _ h hs => ⟨h, hs⟩) fun _ _ _ hs => hs.ended passes_nil)
    fun found => Triple.assume fun hrequires => ?_
  obtain ⟨required, operationId⟩ := found
  refine Triple.bind (passGate_triple required) fun _ => Triple.exists_pre fun new =>
    Triple.assume fun hpass => ?_
  refine Triple.bind (boundary_triple _ hpass.passes) fun _ => ?_
  refine Triple.bind (boundary_triple _ hpass.passes) fun _ => ?_
  refine Triple.bind (R := fun _ => Stands d before new (· = .held q.self))
    (Triple.modify fun _ h => ⟨h.disk, h.lock, h.events⟩) fun _ => ?_
  refine Triple.bind (boundary_triple _ hpass.passes) fun _ => ?_
  refine Triple.bind (renameExclusive_triple hpass hrequires) fun _ => ?_
  have hmoved : q.Passes d (new ++ [.displaced]) := hpass.displaced hrequires
  refine Triple.bind (boundary_triple _ hmoved) fun _ => ?_
  refine Triple.bind (boundary_triple _ hmoved) fun _ => ?_
  exact Triple.pure fun _ h => h.ended hmoved

/-- **A call**, however it ends. -/
theorem run_triple :
    Triple (Stands d before [] fun _ => True : QuarantineSite η γ → Prop) q.run
      (fun _ => q.Ended d before) (fun _ => q.Ended d before) := by
  have hstays : ∀ s : QuarantineSite η γ, Stands d before [] (fun _ => True) s →
      q.Ended d before s := fun s h => h.ended passes_nil
  have hpath : ∀ path, Triple (Stands d before [] fun _ => True : QuarantineSite η γ → Prop)
      (Prog.ofExcept (normalize q.platform path)) (fun _ => Stands d before [] fun _ => True)
      (fun _ => q.Ended d before) := fun path =>
    Triple.ofExcept (fun _ _ _ h => h) fun _ _ _ h => hstays _ h
  unfold run
  refine Triple.ite (fun _ => Triple.throw hstays) fun _ => ?_
  refine Triple.bind (hpath _) fun source => Triple.bind (hpath _) fun destination => ?_
  refine Triple.ite (fun _ => Triple.throw hstays) fun _ => Triple.get_bind fun site hsite => ?_
  refine Triple.pre (P := Stands d before [] fun _ => True) ?_ fun s h => by rw [h]; exact hsite
  cases site.destination with
  | some found =>
      cases site.present with
      | true => exact Triple.throw hstays
      | false => exact Triple.ofExcept (fun _ _ _ h => hstays _ h) fun _ _ _ h => hstays _ h
  | none =>
      cases site.present with
      | false => exact Triple.pure hstays
      | true =>
          refine Triple.bind takeLock_triple fun _ => ?_
          refine Triple.bind (R := fun _ => q.Ended d before) ?_ fun reply => ?_
          · refine Triple.attempt ((displace_triple source destination).conseq (fun _ h => h)
              (fun _ _ h => h) fun e _ h => ?_)
            cases e <;> exact h
          · cases reply with
            | ok result => exact Triple.pure fun _ h => h
            | error e =>
                refine Triple.bind (R := fun _ => q.Ended d before) ?_ fun _ =>
                  Triple.throw fun _ h => h
                refine Triple.attempt (dropLock_keeps.conseq (fun _ h => h) (fun _ _ h => h)
                  fun e _ h => ?_)
                cases e <;> exact h

end Quarantine

/-! ## what the gate relies on -/

/-- Something is unfinished: the last intent is in flight, the operation has no outcome, or its
record cannot be read. -/
def Disk.Busy (d : Disk) : Prop :=
  (∃ es p, d.readJournal = .ok es ∧ lastIntent es = some p ∧ p.atRest = false) ∨
    (∃ op, d.readOperation = .observed op ∧ op.outcome = none) ∨
    ∃ reason, d.readOperation = .unreadable reason

/-- The journal can be read, and is at rest under a settled record. -/
def Disk.Shielded (d : Disk) : Prop :=
  Journaled (fun es => (∀ op, d.readOperation = .observed op → op.outcome = none) ∨ AtRest es) d

/-- What the gate promises of the events of a call on `d`. -/
structure Quarantine.Guards {γ : Type} (q : Quarantine γ) (d : Disk)
    (events : List QuarantineEvent) : Prop where
  silent : q.handoff = none → .displaced ∈ events → Journaled AtRest d
  asked : ∀ before after, events = before ++ .displaced :: after → d.Busy →
    .handoff (.held q.self) true ∈ before
  allowed : .displaced ∈ events → ∀ reason, d.readOperation = .unreadable reason →
    q.allowUnreadable = true

namespace Quarantine

variable {γ : Type} {q : Quarantine γ} {d : Disk}

theorem journaled_of_no_bytes (h : d.journalHasBytes = false) : Journaled AtRest d := by
  refine ⟨[], ?_, fun _ h => (by cases h)⟩
  unfold Disk.journalHasBytes at h
  unfold Disk.readJournal
  cases hj : d.journal with
  | absent => rfl
  | unreadable message =>
      rw [hj] at h
      cases h
  | content file =>
      have hempty : file.lines = [] ∧ file.torn = false := by simpa [hj] using h
      simp only [hempty.1]
      rfl

theorem allowed_of_requires {found : Bool × String} (h : q.requiresHandoff d = .ok found)
    {reason : String} (hread : d.readOperation = .unreadable reason) :
    q.allowUnreadable = true := by
  simp only [requiresHandoff, hread] at h
  split at h
  · assumption
  · cases h

/-- Where nothing is required, the journal is at rest, if settled records tell. -/
theorem atRest_of_not_required {operationId : String} (hd : d.Shielded)
    (h : q.requiresHandoff d = .ok (false, operationId)) :
    Journaled AtRest d ∧ ¬d.Busy := by
  have hrest : Journaled AtRest d ∧ (∀ op, d.readOperation = .observed op → op.outcome ≠ none) ∧
      ∀ reason, d.readOperation ≠ .unreadable reason := by
    unfold requiresHandoff at h
    cases hread : d.readOperation with
    | unreadable reason =>
        simp only [hread] at h
        split at h <;> cases h
    | genesis =>
        simp only [hread, Except.ok.injEq, Prod.mk.injEq] at h
        exact ⟨journaled_of_no_bytes h.1, fun _ h => (by cases h), fun _ h => (by cases h)⟩
    | observed op =>
        simp only [hread, Except.ok.injEq, Prod.mk.injEq, beq_eq_false_iff_ne] at h
        refine ⟨hd.imp fun es hes => hes.resolve_left fun hopen => h.1 (hopen op hread),
          fun op' hop => ?_, fun _ h => (by cases h)⟩
        cases hop
        exact h.1
  obtain ⟨⟨es, hes, hatRest⟩, hsettled, hreadable⟩ := hrest
  refine ⟨⟨es, hes, hatRest⟩, ?_⟩
  rintro (⟨es', p, hes', hp, hbusy⟩ | ⟨op, hop, hnone⟩ | ⟨reason, hreason⟩)
  · rw [hes, Except.ok.injEq] at hes'
    subst hes'
    rw [hatRest p hp] at hbusy
    cases hbusy
  · exact hsettled op hop hnone
  · exact hreadable reason hreason

/-- **The gate is sound** on a shielded directory. -/
theorem Passes.guards {events : List QuarantineEvent} (hd : d.Shielded) (h : q.Passes d events) :
    q.Guards d events := by
  cases h with
  | stayed h =>
      refine ⟨fun _ hm => absurd hm h, fun before after hes _ => absurd ?_ h, fun hm => absurd hm h⟩
      simp [hes]
  | silent hnone hrequires =>
      obtain ⟨hrest, hidle⟩ := atRest_of_not_required hd hrequires
      exact ⟨fun _ _ => hrest, fun _ _ _ hbusy => absurd hbusy hidle,
        fun _ _ => allowed_of_requires hrequires⟩
  | approved hsome hrequires =>
      refine ⟨fun hnone => absurd hnone hsome, fun before after hes _ => ?_,
        fun _ _ => allowed_of_requires hrequires⟩
      cases before with
      | nil => cases hes
      | cons event before =>
          simp only [List.cons_append, List.cons.injEq] at hes
          rw [← hes.1]
          exact List.mem_cons_self

end Quarantine

/-! ## the calls of a runner -/

namespace Runner

variable {η γ : Type} {r : Runner η γ} {c : Convergence (World η γ)}

/-- The journal can be read. -/
abbrev Readably (w : World η γ) : Prop := Journaled (fun _ => True) w.disk

/-- The journal is at rest. -/
abbrev Restfully (w : World η γ) : Prop := Journaled AtRest w.disk

theorem shielded_iff {w : World η γ} :
    w.disk.Shielded ↔ Vouched Unsettled Readably Restfully w := by
  constructor
  · rintro ⟨es, hread, hes⟩
    exact ⟨⟨es, hread, trivial⟩, hes.imp id fun hrest => ⟨es, hread, hrest⟩⟩
  · rintro ⟨⟨es, hread, -⟩, hopen | hrest⟩
    · exact ⟨es, hread, .inl hopen⟩
    · exact hrest.imp fun _ hrest => .inr hrest

/-- **A journal at rest** is what a settled record stands for. -/
theorem restful_vouches : Vouches r (Unsettled : World η γ → Prop) Readably Restfully where
  exempt _ h := h
  exemptQuiet := unsettled_about.quiet
  exemptLock := unsettled_about.offLock
  recovers w hun := fun ⟨op, outcome, _, hop, hout, _⟩ => by
    rw [hun op hop] at hout
    cases hout
  base := journaled_offRecords _
  baseLock _ _ _ h := h
  rests := journaled_offRecords _
  restsLock _ _ _ h := h
  weaken _ h := h.imp fun _ _ => trivial
  recover _ _ := (recover_journaled fun _ _ _ _ _ => trivial).post fun _ _ h =>
    h.imp fun _ h => h.2
  upgrade _ hc version bytes := upgrade_journaled hc version bytes
  clear := by
    have hkeeps : Keeps (Over (Journaled AtRest) fun _ => True)
        (r.store.clear : Prog Error (World η γ) Unit) :=
      FileStore.removeDir_keeps remote_true.aside (journaled_offSlots _) .experiment
    exact hkeeps.conseq (fun _ h => ⟨h, trivial⟩) (fun _ _ h => h.1) fun _ _ h => h.1

/-- **A rollback** opens nothing under a settled record, either. -/
theorem rollbackLocked_shielded (reason : String) :
    Keeps (Vouched Unsettled Readably Restfully : World η γ → Prop) (r.rollbackLocked reason) := by
  have hvouches := restful_vouches (r := r)
  have hclosed : ∀ es seq now detail, AtRest es →
      AtRest (es ++ [Engine.entryOf seq now .rolledBack detail]) := by
    intro es seq now detail _ p hp
    rw [lastIntent_concat, Option.some.injEq] at hp
    rw [← hp]
    rfl
  refine rollbackLocked_triple (R := Restfully) reason hvouches.quiet.observed (fun _ h => h)
    (fun c hc => Triple.of_forall fun s hs => ?_) ?_ hvouches.quiet
  · rcases hs.2 with hopen | hrest
    · refine ((hvouches.recover c hc).and (unsettled_about.frame (r := r) hc).recover).conseq
        (fun s' h => ?_) (fun _ _ h => h.1) fun _ _ h => ⟨h.1, .inl h.2⟩
      subst h
      exact ⟨hs.1, hopen⟩
    · refine (recover_journaled hclosed).conseq (fun s' h => ?_)
        (fun _ _ h => h.imp fun _ h => h.1) fun _ _ h => hvouches.vouched_of_rests h
      subst h
      exact hrest
  · exact hvouches.clear.conseq (fun _ h => h) (fun _ _ h => hvouches.vouched_of_rests h)
      fun _ _ h => hvouches.vouched_of_rests h

end Runner

/-! ## runs -/

/-- An upgrade without a record that ends in flight under the settled record of another. -/
def Visit.HidesFlight {η γ : Type} (v : Visit η γ) (w : World η γ) : Prop :=
  v.call.unrecorded ∧ ∃ op es p, (v.run w).disk.readOperation = .observed op ∧
    op.outcome ≠ none ∧ (v.run w).disk.readJournal = .ok es ∧ lastIntent es = some p ∧
    p.atRest = false

theorem Visit.run_shielded {η γ : Type} {v : Visit η γ} {w : World η γ}
    (hw : w.disk.Shielded) (hhides : ¬v.HidesFlight w) : (v.run w).disk.Shielded := by
  have hfinds : Runner.Vouched Runner.Unsettled Runner.Readably Runner.Restfully (v.finds w) :=
    Runner.shielded_iff.mp hw
  by_cases hrecord : v.call.unrecorded
  · have hread : Runner.Readably (v.run w) :=
      Visit.run_of_triple (Runner.restful_vouches.any_call v.call).call_triple hfinds
    obtain ⟨es, hes, -⟩ := hread
    refine ⟨es, hes, Classical.or_iff_not_imp_left.mpr fun hsettled p hp => ?_⟩
    refine Classical.byContradiction fun hbusy => hsettled fun op hop => ?_
    refine Classical.byContradiction fun hout => hhides ?_
    exact ⟨hrecord, op, es, p, hop, hout, hes, hp, by simpa using hbusy⟩
  · have hcall := Runner.restful_vouches.recorded_call (r := v.runner) v.call hrecord
      fun reason _ => Runner.rollbackLocked_shielded reason
    exact Runner.shielded_iff.mpr (Visit.run_of_triple hcall.call_triple hfinds)

theorem World.Bootstrapped.shielded {η γ : Type} {w : World η γ} {v : String}
    (h : w.Bootstrapped v) : w.disk.Shielded := by
  refine ⟨[], ?_, .inr fun p hp => by cases hp⟩
  simp only [Disk.readJournal, h.journal]

/-- **The gate of a quarantine.**  In any run of calls on a bootstrapped directory, each cut off
anywhere, in which no upgrade without a record ends in flight under the settled record of
another: a call of `quarantine_state` on the directory that is left moves it without a handoff
only if its journal is at rest, and moves one in which something is unfinished only after the
handoff was approved under the lock. -/
theorem quarantine_guarded {η γ : Type} (visits : List (Visit η γ)) (w : World η γ) (v : String)
    (hw : w.Bootstrapped v) (hmeets : EachVisit (fun v w => ¬v.HidesFlight w) visits w)
    (q : Quarantine γ) (site : QuarantineSite η γ)
    (hsite : site.world.disk = (runVisits visits w).disk) :
    ∃ events, (q.run site).2.events = site.events ++ events ∧
      q.Guards (runVisits visits w).disk events := by
  have hshielded : (runVisits visits w).disk.Shielded :=
    run_invariant (I := fun w => w.disk.Shielded) (fun v w h hm => Visit.run_shielded h hm)
      visits w hw.shielded hmeets
  have hstart : Quarantine.Stands (runVisits visits w).disk site.events [] (fun _ => True) site :=
    ⟨hsite, trivial, (List.append_nil _).symm⟩
  obtain ⟨events, hevents, hpasses⟩ := Quarantine.run_triple.leaves hstart
  exact ⟨events, hevents, hpasses.guards hshielded⟩

namespace Service

/-- The root, and the state directory in it. -/
def statePlatform : Platform where
  present path := .ok (path == [.rootDir] || path == [.rootDir, .normal "state"])
  canonicalize path := .ok path

/-- A call of `quarantine_state` by the worker 9, without a handoff. -/
def quarantine : Quarantine Unit where
  platform := statePlatform
  store := ⟨Faults.clean, fun id => id⟩
  self := 9
  source := [.rootDir, .normal "state"]
  destination := [.rootDir, .normal "aside"]
  timestampMs := 1
  allowUnreadable := false
  handoff := none

/-- The state directory that the run leaves, and nothing at the destination. -/
def siteAfter (visits : List (Visit Service Unit)) : QuarantineSite Service Unit where
  world := { runVisits visits (installed "1") with lock := .free }
  present := true
  receipt := .absent
  destination := none
  events := []

/-- An upgrade for `a` is held back, and one without a record dies in its handover. -/
def hiddenFlight : List (Visit Service Unit) :=
  [⟨{ runner 7 Faults.clean with policy := .notifyOnly }, .free, (),
      .execute (.upgrade 1 "a" "2" false)⟩,
    ⟨runner 8 (diesAt 36), .free, (), .upgradeTo "2" .none⟩]

/-- The last intent is in flight. -/
def flies (d : Disk) : Bool :=
  match d.readJournal with
  | .ok es => (lastIntent es).any fun p => !p.atRest
  | .error _ => false

/-- The settled record hides the handover, and the directory is moved without a handoff. -/
theorem quarantine_silent : (installed "1").Bootstrapped "1" ∧ quarantine.handoff = none ∧
    .displaced ∈ (quarantine.run (siteAfter hiddenFlight)).2.events ∧
    ¬Journaled AtRest (runVisits hiddenFlight (installed "1")).disk := by
  have hversion : "1" ≠ "" ∧ trim "1" = "1" := by decide +kernel
  have hmoved : (quarantine.run (siteAfter hiddenFlight)).2.events.contains .displaced = true := by
    decide +kernel
  have hflies : flies (runVisits hiddenFlight (installed "1")).disk = true := by decide +kernel
  refine ⟨installed_bootstrapped hversion.1 hversion.2, rfl, by simpa using hmoved, ?_⟩
  rintro ⟨es, hread, hrest⟩
  simp only [flies, hread] at hflies
  cases hlast : lastIntent es with
  | none => simp [hlast] at hflies
  | some p => simp [hlast, hrest p hlast] at hflies

/-- An upgrade without a record dies in its handover, and the recovery after it, too; the next
upgrade keeps a record, and dies in its own handover. -/
def openFlight : List (Visit Service Unit) :=
  [⟨runner 6 (diesAt 30), .free, (), .upgradeTo "2" .none⟩,
    ⟨runner 7 (diesAt 33), .free, (), .recover none⟩,
    ⟨runner 8 (diesAt 85), .free, (), .execute (.upgrade 1 "a" "2" true)⟩]

theorem quarantine_guarded_handover : ∃ events,
    (quarantine.run (siteAfter openFlight)).2.events = (siteAfter openFlight).events ++ events ∧
      quarantine.Guards (runVisits openFlight (installed "1")).disk events := by
  have hversion : "1" ≠ "" ∧ trim "1" = "1" := by decide +kernel
  refine quarantine_guarded openFlight (installed "1") "1"
    (installed_bootstrapped hversion.1 hversion.2) ⟨?_, ?_, ?_, True.intro⟩ quarantine
    (siteAfter openFlight) rfl
  · rintro ⟨-, op, es, p, hop, -⟩
    have hfile := (Disk.readOperation_observed_iff.mp hop).1
    have hnone : ∀ file : File Operation, file = .absent → file ≠ .content op := by
      rintro _ rfl h
      cases h
    exact hnone _ (by decide +kernel) hfile
  · exact fun h => h.1
  · exact fun h => h.1

end Service

end KCarrier
