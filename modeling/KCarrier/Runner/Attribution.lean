import Mathlib.Data.List.Basic
import KCarrier.Runner.Journaled
import KCarrier.Runner.Service

/-!
# KCarrier.Runner.Attribution

Whose entries an outcome is read from.

The journal carries no operation id.  `Attributes` says that an outcome taken from it comes
from an entry that was appended after the record of the operation was first persisted
(`openingOf`), and `Followed` is the invariant behind it: since that moment the journal only
grew, and was only promoted to the target of the operation.

An operation that journaled nothing is settled by what the journal ended in before its record
was opened (`Disk.Lends`).  A visit that settles such an operation is the one that
misattributes (`Visit.Misattributes`).
-/

namespace KCarrier

open Crash
open Running

/-! ## the history of the records -/

/-- The record a note is about, with the directory as it was then. -/
def Note.record : Note → Option (Operation × Disk)
  | .recorded op disk => some (op, disk)
  | _ => none

/-- The records of a history. -/
def recordsOf (log : List Note) : List (Operation × Disk) := log.filterMap Note.record

/-- The directory when the record of the operation `id` was first persisted: a new record is in
the phase `checking`, and no later one is. -/
def openingOf (records : List (Operation × Disk)) (id : String) : Option Disk :=
  (records.reverse.find? fun record => record.1.id = id ∧ record.1.phase = .checking).map (·.2)

/-- The records of two logs, one after the other. -/
theorem recordsOf_append (log log' : List Note) :
    recordsOf (log ++ log') = recordsOf log ++ recordsOf log' := List.filterMap_append

/-- A note that records nothing adds no record. -/
theorem recordsOf_note (log : List Note) {entry : Note}
    (h : ∀ op disk, entry ≠ .recorded op disk) : recordsOf (log ++ [entry]) = recordsOf log := by
  rw [recordsOf_append]
  cases entry with
  | recorded op disk => exact absurd rfl (h op disk)
  | _ => exact List.append_nil _

/-- A recorded operation is the last record. -/
theorem recordsOf_recorded (log : List Note) (op : Operation) (disk : Disk) :
    recordsOf (log ++ [.recorded op disk]) = recordsOf log ++ [(op, disk)] :=
  recordsOf_append log _

/-- Only the notes about records count. -/
theorem recordsOf_filter (log : List Note) : recordsOf (log.filter Note.isRecord) = recordsOf log := by
  induction log with
  | nil => rfl
  | cons entry log ih =>
      unfold recordsOf at ih ⊢
      cases entry <;> simp [List.filter_cons, List.filterMap_cons, Note.isRecord, Note.record, ih]

/-- A new record opens its operation; any other leaves the openings as they are. -/
theorem openingOf_concat (records : List (Operation × Disk)) (op : Operation) (disk : Disk)
    (id : String) : openingOf (records ++ [(op, disk)]) id =
      if op.id = id ∧ op.phase = .checking then some disk else openingOf records id := by
  unfold openingOf
  rw [List.reverse_append, List.reverse_singleton, List.singleton_append, List.find?_cons]
  by_cases h : op.id = id ∧ op.phase = .checking
  · simp [h]
  · simp [h]

/-- Between two directories the journal grew, by an entry with `p` among others. -/
def GrewBy (p : JournalEntry → Prop) (before after : Disk) : Prop :=
  ∃ es new, before.readJournal = .ok es ∧ after.readJournal = .ok (es ++ new) ∧ ∃ e ∈ new, p e

/-- A promotion to `version`. -/
def JournalEntry.Promotes (version : String) (e : JournalEntry) : Prop :=
  e.intent = .promoted ∧ e.detail.get "version" = some version

/-- A rollback for `reason`. -/
def JournalEntry.RollsBack (reason : String) (e : JournalEntry) : Prop :=
  e.intent = .rolledBack ∧ e.detail.get "reason" = some reason

/-- The outcome that `op` was given on `disk`, after `records`: what it takes from the journal
was appended since the record of the operation was first persisted. -/
structure Attributes (records : List (Operation × Disk)) (op : Operation) (disk : Disk) : Prop where
  promoted : op.outcome = some .promoted → ∃ opening, openingOf records op.id = some opening ∧
    GrewBy (·.Promotes op.targetVersion) opening disk
  rolledBack : op.outcome = some .rolledBack → ∀ stable reason,
    disk.transactionState = .ok (.rolledBack stable (some reason)) →
    ∃ opening, openingOf records op.id = some opening ∧ GrewBy (·.RollsBack reason) opening disk

/-- Every outcome of the history is attributed. -/
def AllAttributed (records : List (Operation × Disk)) : Prop :=
  ∀ before op disk after, records = before ++ (op, disk) :: after → Attributes before op disk

/-- A record without such an outcome needs no entry of the journal. -/
theorem attributes_of_open {records : List (Operation × Disk)} {op : Operation} {disk : Disk}
    (h : op.outcome ≠ some .promoted ∧ op.outcome ≠ some .rolledBack) :
    Attributes records op disk :=
  ⟨fun ho => absurd ho h.1, fun ho => absurd ho h.2⟩

/-- **One more record** keeps the history attributed if it is itself. -/
theorem AllAttributed.concat {records : List (Operation × Disk)} {op : Operation} {disk : Disk}
    (h : AllAttributed records) (hop : Attributes records op disk) :
    AllAttributed (records ++ [(op, disk)]) := by
  intro before op' disk' after heq
  rcases List.eq_nil_or_concat after with hnil | ⟨after, last, rfl⟩
  · subst hnil
    obtain ⟨rfl, hlast⟩ := List.append_inj' heq rfl
    rw [List.cons.injEq, Prod.mk.injEq] at hlast
    obtain ⟨⟨rfl, rfl⟩, -⟩ := hlast
    exact hop
  · have heq' : records ++ [(op, disk)] = (before ++ (op', disk') :: after) ++ [last] := by
      rw [heq]
      simp
    obtain ⟨hrecords, -⟩ := List.append_inj' heq' rfl
    exact h before op' disk' after hrecords

/-! ## the journal of an open operation -/

/-- Since `opening` the journal only grew, by `new`, and was promoted to `version` only. -/
def GrownBy (version : String) (new : List JournalEntry) (opening disk : Disk) : Prop :=
  ∃ es, opening.readJournal = .ok es ∧ disk.readJournal = .ok (es ++ new) ∧
    ∀ e ∈ new, e.intent = .promoted → e.Promotes version

def Grown (version : String) (opening disk : Disk) : Prop := ∃ new, GrownBy version new opening disk

/-- A journal that can be read has grown by nothing. -/
theorem Grown.refl {version : String} {d : Disk} {es : List JournalEntry}
    (h : d.readJournal = .ok es) : Grown version d d :=
  ⟨[], es, h, by rw [h, List.append_nil], fun e he => by cases he⟩

/-- Growing by some entries, and then by more. -/
theorem GrownBy.trans {version : String} {new new' : List JournalEntry} {d d' d'' : Disk}
    (h : GrownBy version new d d') (h' : GrownBy version new' d' d'') :
    GrownBy version (new ++ new') d d'' := by
  obtain ⟨es, hread, hread', hnew⟩ := h
  obtain ⟨es', hes, hread'', hnew'⟩ := h'
  rw [hread', Except.ok.injEq] at hes
  subst hes
  refine ⟨es, hread, by rw [hread'', List.append_assoc], fun e he => ?_⟩
  exact (List.mem_append.mp he).elim (hnew e) (hnew' e)

/-- Growing, and then growing on. -/
theorem Grown.trans {version : String} {d d' d'' : Disk} (h : Grown version d d')
    (h' : Grown version d' d'') : Grown version d d'' := by
  obtain ⟨new, h⟩ := h
  obtain ⟨new', h'⟩ := h'
  exact ⟨_, h.trans h'⟩

/-- How a journal has grown is about the journal alone. -/
theorem GrownBy.congr {version : String} {new : List JournalEntry} {opening d d' : Disk}
    (h : GrownBy version new opening d) (hj : d'.journal = d.journal) :
    GrownBy version new opening d' := by
  obtain ⟨es, hread, hread', hnew⟩ := h
  exact ⟨es, hread, (Disk.readJournal_congr hj).trans hread', hnew⟩

/-- The last intent is one of those that were added. -/
theorem lastIntent_append {es new : List JournalEntry} (h : new ≠ []) :
    lastIntent (es ++ new) = lastIntent new := by
  unfold lastIntent
  rw [List.getLast?_append_of_ne_nil _ h]

/-- What an operation has to have journaled for its outcome to be its own. -/
def Outcome.BackedBy : Outcome → List JournalEntry → Prop
  | .promoted, new => lastIntent new = some .promoted
  | .rolledBack, new => new ≠ []
  | _, _ => True

/-- **An outcome that is backed** by what the operation journaled is attributed. -/
theorem attributes_of_backed {records : List (Operation × Disk)} (op : Operation) {outcome : Outcome}
    {opening disk : Disk} {new : List JournalEntry} (hopening : openingOf records op.id = some opening)
    (hgrown : GrownBy op.targetVersion new opening disk) (ho : op.outcome = some outcome)
    (hbacked : outcome.BackedBy new) : Attributes records op disk := by
  obtain ⟨es, hread, hread', hnew⟩ := hgrown
  cases outcome with
  | held | upToDate | failed => exact attributes_of_open (by simp [ho])
  | promoted =>
      refine ⟨fun _ => ?_, fun hback => (by rw [ho] at hback; cases hback)⟩
      obtain ⟨last, hlast, hpromoted⟩ := Option.map_eq_some_iff.mp hbacked
      have hmem : last ∈ new := List.mem_of_getLast? hlast
      exact ⟨opening, hopening, es, new, hread, hread', last, hmem, hnew last hmem hpromoted⟩
  | rolledBack =>
      refine ⟨fun hpromoted => (by rw [ho] at hpromoted; cases hpromoted),
        fun _ stable reason hstate => ?_⟩
      obtain ⟨last, hlast, hback⟩ := transactionState_rolledBack hstate hread'
      rw [List.getLast?_append_of_ne_nil _ hbacked] at hlast
      exact ⟨opening, hopening, es, new, hread, hread', last, List.mem_of_getLast? hlast, hback⟩

/-! ## what the assertions are about -/

variable {η γ : Type}

/-- The journal, the record and the history of the records are the same. -/
structure SameHistory (w w' : World η γ) : Prop where
  journal : w'.disk.journal = w.disk.journal
  operation : w'.disk.operation = w.disk.operation
  records : recordsOf w'.log = recordsOf w.log

/-- `P` is about these alone. -/
def AboutHistory (P : World η γ → Prop) : Prop := ∀ w w', SameHistory w w' → P w → P w'

namespace AboutHistory

variable {P : World η γ → Prop}

/-- An assertion about the history is indifferent to everything else. -/
theorem indifferent (hP : AboutHistory P) : Indifferent P where
  tick w _ := hP w _ ⟨rfl, rfl, rfl⟩
  note w entry h := hP w _ ⟨rfl, rfl, recordsOf_note w.log fun op disk he => by rw [he] at h; cases h⟩
  product w _ := hP w _ ⟨rfl, rfl, rfl⟩
  observed w _ := hP w _ ⟨rfl, rfl, rfl⟩
  files w _ hj ho _ _ := hP w _ ⟨hj, ho, rfl⟩

/-- It is not about the receipts. -/
theorem offReceipts (hP : AboutHistory P) : OffReceipts P where
  tick := hP.indifferent.tick
  filed w _ _ h := hP w _ ⟨rfl, rfl, recordsOf_note w.log h⟩

theorem offLock (hP : AboutHistory P) : OffLock P := fun w _ _ => hP w _ ⟨rfl, rfl, rfl⟩

/-- Removing a slot is no part of the history. -/
theorem removeDir (hP : AboutHistory P) (s : FileStore) (place : Place) :
    Keeps P (s.removeDir place) := by
  let Same : World η γ → World η γ → Prop := fun w =>
    Over (fun d => d.journal = w.disk.journal ∧ d.operation = w.disk.operation)
      fun w' => recordsOf w'.log = recordsOf w.log
  have hmoves : ∀ w, Keeps (Same w) (s.removeDir place) := fun w =>
    FileStore.removeDir_keeps (fun _ _ _ h => h) (fun _ _ _ h => h) place
  exact Keeps.of_moves (R := Same) (fun _ => ⟨⟨rfl, rfl⟩, rfl⟩)
    (fun w w' h => hP w w' ⟨h.1.1, h.1.2, h.2⟩) hmoves

end AboutHistory

/-- The history is attributed, and if an operation is open, the journal is its own since its
record was opened. -/
structure Followed (w : World η γ) : Prop where
  attributed : AllAttributed (recordsOf w.log)
  opened : ∀ op, w.disk.readOperation = .observed op → op.outcome = none →
    ∃ opening, openingOf (recordsOf w.log) op.id = some opening ∧
      Grown op.targetVersion opening w.disk

/-- That a history is followed is about the history. -/
theorem followed_about : AboutHistory (Followed : World η γ → Prop) := by
  rintro w w' hsame ⟨hattributed, hopened⟩
  refine ⟨by rw [hsame.records]; exact hattributed, fun op hop hnone => ?_⟩
  rw [Disk.readOperation_congr hsame.operation] at hop
  obtain ⟨opening, hopening, new, hgrown⟩ := hopened op hop hnone
  exact ⟨opening, by rw [hsame.records]; exact hopening, new, hgrown.congr hsame.journal⟩

/-- Where no record is open, attribution is all there is to it. -/
theorem Followed.of_closed {w : World η γ} (hattributed : AllAttributed (recordsOf w.log))
    (hclosed : Runner.Closed w) : Followed w :=
  ⟨hattributed, fun op hop hnone => absurd hnone (hclosed op hop)⟩

/-- The journal grew, and was promoted to `version` only. -/
structure Advances (version : String) (w w' : World η γ) : Prop where
  operation : w'.disk.operation = w.disk.operation
  records : recordsOf w'.log = recordsOf w.log
  journal : ∀ es, w.disk.readJournal = .ok es → Grown version w.disk w'.disk

/-- The engine's own entries leave a history followed. -/
theorem Followed.advance {version : String} {w w' : World η γ} (h : Followed w)
    (hadvances : Advances version w w') (hversion : ∀ op, w.disk.readOperation = .observed op →
      op.outcome = none → op.targetVersion = version) : Followed w' := by
  refine ⟨by rw [hadvances.records]; exact h.attributed, fun op hop hnone => ?_⟩
  rw [Disk.readOperation_congr hadvances.operation] at hop
  obtain ⟨opening, hopening, hgrown⟩ := h.opened op hop hnone
  obtain ⟨new, es, -, hread, -⟩ := id hgrown
  refine ⟨opening, by rw [hadvances.records]; exact hopening, hgrown.trans ?_⟩
  rw [hversion op hop hnone]
  exact hadvances.journal _ hread

/-! ## the engine -/

/-- What an upgrade has journaled at each point: nothing until it stages. -/
def Point.Begun : Point → List JournalEntry → Prop
  | .entry, _ | .opened _, _ | .fenced _, _ => False
  | .rest none, new | .surveyed _, new | .probed _ _, new => new = []
  | _, new => new ≠ []

/-- The journal at each point of an engine that started on `es₀`. -/
def grownAt (es₀ : List JournalEntry) (version : String) (upgrading : Bool) (p : Point)
    (es : List JournalEntry) : Prop :=
  ∃ new, es = es₀ ++ new ∧ (∀ e ∈ new, e.intent = .promoted → e.Promotes version) ∧
    p.Ends (lastIntent es) ∧ (upgrading = true → p.Begun new)

/-- The promoted intent of an upgrade promotes its version. -/
theorem entryOf_promotes (version : String) (seq now : Nat) :
    (Engine.entryOf seq now .promoted (Engine.upgradeDetail version)).Promotes version := by
  refine ⟨rfl, ?_⟩
  show (Detail.insert _ _ _).get "version" = _
  rw [Detail.get_insert_of_ne _ _ (by decide)]
  rfl

/-- An engine has journaled nothing when it starts. -/
theorem grownAt_start {es₀ : List JournalEntry} {version : String} {upgrading : Bool} {p : Point}
    (hends : p.Ends (lastIntent es₀)) (hbegun : upgrading = true → p.Begun []) :
    grownAt es₀ version upgrading p es₀ :=
  ⟨[], (List.append_nil _).symm, fun _ he => (by cases he), hends, hbegun⟩

/-- A step that journals nothing. -/
theorem grownAt_quiet {es₀ es : List JournalEntry} {version : String} {upgrading : Bool}
    {p q : Point} (hquiet : Point.Quiet version p q) (h : grownAt es₀ version upgrading p es) :
    grownAt es₀ version upgrading q es := by
  obtain ⟨new, hes, hnew, hends, hbegun⟩ := h
  refine ⟨new, hes, hnew, hends.quiet hquiet, fun hup => ?_⟩
  have hbegun := hbegun hup
  cases hquiet with
  | fence | empty | idle | commit | redo => exact hbegun.elim
  | _ => exact hbegun

/-- A step that journals an intent. -/
theorem grownAt_writes {es₀ es : List JournalEntry} {version : String} {upgrading : Bool}
    {p q : Point} {intent : Phase} {detail : Detail} (seq now : Nat)
    (hwrites : Point.Writes version p intent detail q) (h : grownAt es₀ version upgrading p es) :
    grownAt es₀ version upgrading q (es ++ [Engine.entryOf seq now intent detail]) := by
  obtain ⟨new, hes, hnew, -, -⟩ := h
  refine ⟨new ++ [Engine.entryOf seq now intent detail], by rw [hes, List.append_assoc],
    fun e he hpromoted => ?_, ?_, fun _ => ?_⟩
  · rcases List.mem_append.mp he with he | he
    · exact hnew e he hpromoted
    · rw [List.mem_singleton.mp he] at hpromoted ⊢
      cases hwrites with
      | promoted => exact entryOf_promotes version seq now
      | _ => cases hpromoted
  · rw [lastIntent_concat]
    exact Point.Ends.writes hwrites
  · have hne : new ++ [Engine.entryOf seq now intent detail] ≠ [] := by simp
    cases hwrites <;> exact hne

/-- **The journal of an engine** grows along its points. -/
theorem grownJournaling (r : Runner η γ) (es₀ : List JournalEntry) (version : String)
    (upgrading : Bool) :
    Journaling r version (fun _ => True) (grownAt es₀ version upgrading) fun _ => True :=
  .of_remote Runner.remote_true
    (fun _ ⟨new, hes, hnew, _, hbegun⟩ =>
      ⟨new, hes, hnew, ⟨rfl, fun _ he => by cases he⟩, fun hup => (hbegun hup).elim⟩)
    (fun _ _ _ hquiet h => grownAt_quiet hquiet h)
    fun _ _ _ _ _ seq now _ hwrites h => grownAt_writes seq now hwrites h

/-- The record and the records of a world, which no call of the engine changes. -/
theorem aboutRecords_records (w : World η γ) : AboutRecords fun w' : World η γ =>
    w'.disk.operation = w.disk.operation ∧ recordsOf w'.log = recordsOf w.log := by
  rintro w₁ w₂ ⟨⟨ho, -⟩, hlog⟩ ⟨hfile, hrecords⟩
  refine ⟨ho.trans hfile, ?_⟩
  rw [← recordsOf_filter, hlog, recordsOf_filter]
  exact hrecords

namespace Runner

variable {r : Runner η γ} {c : Convergence (World η γ)}

/-- What the journal has grown by at a point, as an advance of the world. -/
theorem advances_of_grownAt {version : String} {upgrading : Bool} {p : Point} {w w' : World η γ}
    {es₀ : List JournalEntry} (hread : w.disk.readJournal = .ok es₀)
    (hrecords : w'.disk.operation = w.disk.operation ∧ recordsOf w'.log = recordsOf w.log)
    (h : Journaled (grownAt es₀ version upgrading p) w'.disk) : Advances version w w' := by
  obtain ⟨es, hread', new, rfl, hnew, -⟩ := h
  exact ⟨hrecords.1, hrecords.2, fun _ _ => ⟨new, es₀, hread, hread', hnew⟩⟩

/-- **The engine's recovery**, by what it journals. -/
theorem recover_advances (hc : ReadsProduct c) (version : String) (w : World η γ) :
    Triple (fun s => s.world = w) (r.engine c).recover
      (fun _ s => Advances version w s.world ∧ Journaled AtRest s.world.disk)
      (fun _ s => Advances version w s.world) := by
  cases hread : w.disk.readJournal with
  | error e =>
      -- nothing was done
      have hnothing : Triple (fun s => s.world = w) (r.engine c).readEntries (fun _ _ => False)
          (fun _ s => Advances version w s.world) := by
        refine readEntries_triple (P := fun w' => w' = w) (fun es s hs hread' => ?_) fun e s hs _ => ?_
        · rw [hs, hread] at hread'
          cases hread'
        · rw [hs]
          exact ⟨rfl, rfl, fun es hes => by rw [hread] at hes; cases hes⟩
      exact Triple.bind hnothing fun _ _ h => h.elim
  | ok es₀ =>
      have hjournal := (grownJournaling r es₀ version false).recoverOutline (c := c) trivial |>.recover_triple
      have hrecords := ((aboutRecords_records w).frame (r := r) hc).recover
      refine (hjournal.and hrecords).conseq (fun s hs => ?_) (fun _ s h => ?_) fun _ s h => ?_
      · subst hs
        have hstart : grownAt es₀ version false .entry es₀ :=
          grownAt_start ⟨trivial, fun _ he => (by cases he)⟩ fun h => by cases h
        exact ⟨⟨⟨es₀, hread, hstart⟩, trivial⟩, rfl, rfl⟩
      · obtain ⟨⟨ended, hj, -⟩, hsame⟩ := h
        exact ⟨advances_of_grownAt hread hsame hj, hj.imp fun _ ⟨_, _, _, hends, _⟩ => hends.1⟩
      · obtain ⟨⟨⟨es, hread', p, hp⟩, -⟩, hsame⟩ := h
        exact advances_of_grownAt hread hsame ⟨es, hread', hp⟩

/-- **The engine's upgrade**, by what it journals. -/
theorem upgrade_advances (hc : ReadsProduct c) (version : String) (bytes : Path) {w : World η γ}
    (hrest : Journaled AtRest w.disk) :
    Triple (fun s => s.world = w) ((r.engine c).upgrade version bytes)
      (fun outcome s => Advances version w s.world ∧
        ∃ new, GrownBy version new w.disk s.world.disk ∧ (recordedAs outcome).BackedBy new)
      (fun _ s => Advances version w s.world) := by
  obtain ⟨es₀, hread, hrest⟩ := hrest
  have hjournal := ((grownJournaling r es₀ version true).upgradeOutline (fun _ => trivial) hc bytes).upgrade_triple
  have hrecords := ((aboutRecords_records w).frame (r := r) hc).upgrade version bytes
  refine (hjournal.and hrecords).conseq (fun s hs => ?_) (fun outcome s h => ?_) fun _ s h => ?_
  · subst hs
    have hstart : grownAt es₀ version true (.rest none) es₀ :=
      grownAt_start ⟨hrest, fun _ he => (by cases he)⟩ fun _ => rfl
    exact ⟨⟨⟨es₀, hread, hstart⟩, trivial⟩, rfl, rfl⟩
  · obtain ⟨hends, hsame⟩ := h
    have hended : ∀ {p : Point}, Journaled (grownAt es₀ version true p) s.world.disk →
        (∀ new es, p.Begun new → p.Ends (lastIntent (es ++ new)) →
          (recordedAs outcome).BackedBy new) →
        Advances version w s.world ∧
          ∃ new, GrownBy version new w.disk s.world.disk ∧ (recordedAs outcome).BackedBy new := by
      intro p hp hbacked
      refine ⟨advances_of_grownAt hread hsame hp, ?_⟩
      obtain ⟨es, hread', new, rfl, hnew, hends, hbegun⟩ := hp
      exact ⟨new, ⟨es₀, hread, hread', hnew⟩, hbacked new es₀ (hbegun rfl) hends⟩
    cases outcome with
    | promoted v =>
        refine hended hends.2.1 fun new es hne hends => ?_
        rw [lastIntent_append hne] at hends
        exact hends.2 .promoted rfl
    | rolledBack reason => exact hended hends.1 fun _ _ hne _ => hne
    | upToDate => exact hended hends.1 fun _ _ _ _ => trivial
  · obtain ⟨⟨⟨es, hread', p, hp⟩, -⟩, hsame⟩ := h
    exact advances_of_grownAt hread hsame ⟨es, hread', hp⟩

end Runner

/-! ## what a promotion leaves stable -/

/-- The version a promotion leaves stable: the candidate, if there still is one. -/
def Disk.published (d : Disk) : Except Error (Option String) :=
  match d.version .experiment with
  | .ok none => d.version .stable
  | candidate => candidate

namespace FileStore

variable {s : FileStore}

/-- A renamed slot keeps its version. -/
theorem version_renamed (d : Disk) {source target : Place} (hne : source ≠ target) :
    ((d.setSlot target (d.slots source)).setSlot source .absent).version target = d.version source := by
  rw [Disk.version_setSlot_of_ne _ _ hne.symm]
  unfold Disk.version
  rw [Disk.setSlot_self]

/-- **A promotion that returned** left that version stable. -/
theorem promote_published (d : Disk) :
    Triple (fun w : World η γ => w.disk = d) s.promote
      (fun _ w => ∃ v, d.published = .ok (some v) ∧ w.disk.version .stable = .ok (some v))
      (fun _ _ => True) := by
  let Holds : Place → String → World η γ → Prop := fun place v =>
    Over (fun d' => d'.version place = .ok (some v)) fun _ => True
  have haside : Aside (fun _ : World η γ => True) := Runner.remote_true.aside
  have hremove : ∀ {place place' : Place} {v : String}, place ≠ place' →
      Triple (Holds place v) (s.removeDir place') (fun _ => Holds place v) (fun _ _ => True) :=
    fun hne => (removeDir_elsewhere haside fun d' node hd => by
      rw [Disk.version_setSlot_of_ne d' node hne]
      exact hd).conseq (fun _ h => h) (fun _ _ h => h) fun _ _ _ => trivial
  have hrename : ∀ {source target place place' : Place} {v : String},
      (∀ d' : Disk, d'.version place = .ok (some v) →
        ((d'.setSlot target (d'.slots source)).setSlot source .absent).version place' = .ok (some v)) →
      Triple (Holds place v) (s.renameDurable source target) (fun _ => Holds place' v)
        (fun _ _ => True) := fun h =>
    (renameDurable_triple (fun _ => trivial : _ → True) haside h).conseq (fun _ h => h)
      (fun _ _ h => h) fun _ _ _ => trivial
  have hread : ∀ (place : Place), Triple (fun w : World η γ => w.disk = d)
      (readDisk (Disk.version · place))
      (fun found w => d.version place = .ok found ∧ w.disk = d) (fun _ _ => True) := fun place =>
    readDisk_triple (fun _ w hw h => ⟨by rw [← hw]; exact h, hw⟩) fun _ _ _ _ => trivial
  unfold promote
  refine Triple.bind (hread .experiment) fun found => Triple.assume fun hexp => ?_
  cases found with
  | none =>
      refine Triple.bind (hread .stable) fun stable => Triple.assume fun hstable => ?_
      cases stable with
      | none => exact Triple.throw fun _ _ => trivial
      | some v =>
          have hpublished : d.published = .ok (some v) := by simp only [Disk.published, hexp, hstable]
          exact (hremove (by decide)).conseq (fun w hw => ⟨by rw [hw]; exact hstable, trivial⟩)
            (fun _ w hw => ⟨v, hpublished, hw.1⟩) fun _ _ h => h
  | some v =>
      have hpublished : d.published = .ok (some v) := by simp only [Disk.published, hexp]
      have hpublish : Triple (Holds .experiment v) (do
          s.renameDurable .experiment .stable
          s.removeDir .stableOld) (fun _ => Holds .stable v) (fun _ _ => True) :=
        Triple.bind (hrename fun d' hd => (version_renamed d' (by decide)).trans hd) fun _ =>
          hremove (by decide)
      refine Triple.get_bind fun w hw => Triple.conseq (P := Holds .experiment v)
        (Q := fun _ => Holds .stable v) ?_ (fun w' h => ?_) (fun _ w' hw' => ⟨v, hpublished, hw'.1⟩)
        fun _ _ h => h
      · refine Triple.ite (fun _ => ?_) fun _ => hpublish
        refine Triple.bind (hremove (by decide)) fun _ => Triple.bind (hrename fun d' hd => ?_) fun _ => hpublish
        rw [Disk.version_setSlot_of_ne _ _ (by decide), Disk.version_setSlot_of_ne _ _ (by decide)]
        exact hd
      · rw [h]
        exact ⟨by rw [hw]; exact hexp, trivial⟩

end FileStore

namespace Runner

variable {r : Runner η γ} {c : Convergence (World η γ)}

/-- The slots at each point of a recovery on `d`, where its journal ends in a promotion. -/
def publishedAt (d : Disk) (tail : Option Phase) : Point → Disk → Prop
  | .entry, d' | .committed, d' => d' = d
  | .opened t, d' | .fenced t, d' => d' = d ∧ t = tail
  | .published, d' | .rest (some .promoted), d' =>
      ∃ v, d.published = .ok (some v) ∧ d'.version .stable = .ok (some v)
  | _, _ => tail ≠ some .promoted

/-- **The engine's recovery**, by what it leaves stable after a promotion. -/
theorem recover_published {d : Disk} {es : List JournalEntry} (hread : d.readJournal = .ok es)
    (htail : lastIntent es = some .promoted) :
    Triple (fun s : Running (World η γ) => s.world.disk = d) (r.engine c).recover
      (fun _ s => ∃ v, d.published = .ok (some v) ∧ s.world.disk.version .stable = .ok (some v))
      (fun _ _ => True) := by
  let At : Point → Running (World η γ) → Prop := fun p s =>
    Over (publishedAt d (lastIntent es) p) (fun _ => True) s.world
  have hcall : ∀ {α : Type} {p q : Point} {label name : String}
      {call : Host η → HostCall η α}, (∀ d', publishedAt d (lastIntent es) p d' →
        publishedAt d (lastIntent es) q d') →
      Triple (At p) (Engine.bounded label (r.hostCall name call)) (fun _ => At q)
        (fun _ _ => True) := fun hpq =>
    (Keeps.bounded (hostCall_keeps remote_true _ _)).conseq (fun _ h => h)
      (fun _ _ h => ⟨hpq _ h.1, trivial⟩) fun _ _ _ => trivial
  have hnever : ∀ {α : Type} {P Q : Running (World η γ) → Prop} {m : Prog Error (Running (World η γ)) α},
      (∀ s, P s → lastIntent es ≠ some .promoted) → Triple P m (fun _ => Q) (fun _ _ => True) :=
    fun h s hs => absurd htail (h s hs)
  have hne : ∀ {t}, t = lastIntent es → t ≠ some .promoted → lastIntent es ≠ some .promoted :=
    fun h hne => h ▸ hne
  have houtline : RecoverOutline (r.engine c) At (fun _ _ => True) :=
    { stop := hnever fun _ h => h.1
      start := hnever fun _ h => h.1
      resumed := hnever fun _ h => h.1
      clear := hnever fun _ h => h.1
      promote := Triple.zoom fun s hs => (FileStore.promote_published d s.world hs.1).mono
        (fun _ _ h => ⟨h, trivial⟩) fun _ _ _ => trivial
      resume := hcall fun _ h => h
      read := by
        refine readEntries_triple (P := Over (publishedAt d (lastIntent es) .entry) fun _ => True)
          (fun es' s hs h => ?_) fun _ _ _ _ => trivial
        have hdisk : s.world.disk = d := hs.1
        rw [hdisk, hread, Except.ok.injEq] at h
        rw [← h]
        exact ⟨⟨hdisk, rfl⟩, trivial⟩
      fence := fun tail => hcall fun _ h => h
      idle := fun s hs => ⟨hs.elim (fun h => hne h.1.2 (by decide)) fun h => hne h.1.2 (by decide),
        trivial⟩
      commit := fun s hs => ⟨hs.1.1, trivial⟩
      redo := fun s hs => ⟨hne hs.1.2 (by decide), trivial⟩
      withdraw := fun reason => hnever fun _ hs => hne hs.1.2 (by decide)
      abandon := fun tail reason h => hnever fun _ hs => hne hs.1.2 (by
        rcases h with rfl | rfl | rfl <;> decide) }
  refine houtline.recover_triple.conseq (fun s hs => ⟨hs, trivial⟩) (fun _ s h => ?_) fun _ _ h => h
  obtain ⟨ended, h⟩ := h
  cases ended with
  | none => exact absurd htail h.1
  | some phase =>
      cases phase with
      | promoted => exact h.1
      | _ => exact absurd htail h.1

end Runner

/-! ## recovery and settlement -/

/-- The journal ends in an entry that settles `op`, if nothing follows. -/
def Disk.Lends (d : Disk) (op : Operation) : Prop :=
  ∃ es last, d.readJournal = .ok es ∧ es.getLast? = some last ∧
    (last.intent = .promoted ∧ d.published = .ok (some op.targetVersion) ∨
      last.intent = .rolledBack ∧ last.detail.get "reason" ≠ none)

/-- The open operation journaled nothing since its record was opened, and what the journal
ended in before settles it. -/
def Borrows (w : World η γ) : Prop :=
  ∃ op opening es, w.disk.readOperation = .observed op ∧ op.outcome = none ∧
    openingOf (recordsOf w.log) op.id = some opening ∧ opening.readJournal = .ok es ∧
    w.disk.readJournal = .ok es ∧ w.disk.Lends op

/-- What recovery leaves: an open operation that journaled nothing has nothing to borrow. -/
structure Settleable (w : World η γ) : Prop where
  attributed : AllAttributed (recordsOf w.log)
  rest : Journaled AtRest w.disk
  opened : ∀ op, w.disk.readOperation = .observed op → op.outcome = none → ∃ opening new,
    openingOf (recordsOf w.log) op.id = some opening ∧ GrownBy op.targetVersion new opening w.disk ∧
      (new = [] → ∀ es last, w.disk.readJournal = .ok es → es.getLast? = some last →
        (last.intent = .promoted →
          ∃ v, v ≠ op.targetVersion ∧ w.disk.version .stable = .ok (some v)) ∧
        (last.intent = .rolledBack → last.detail.get "reason" = none))

/-- What may be settled is followed. -/
theorem Settleable.followed {w : World η γ} (h : Settleable w) : Followed w :=
  ⟨h.attributed, fun op hop hnone => by
    obtain ⟨opening, new, hopening, hgrown, -⟩ := h.opened op hop hnone
    exact ⟨opening, hopening, new, hgrown⟩⟩

/-- A call whose recovery may settle. -/
def MaySettle (w : World η γ) : Prop :=
  Followed w ∧ (Runner.Unsettled w → Runner.Readable w → ¬Borrows w)

/-- Reading the product's surfaces does not change that. -/
theorem maySettle_observed (w : World η γ) (o : Observed) (h : MaySettle w) :
    MaySettle { w with observed := o } :=
  ⟨followed_about.indifferent.observed w o h.1, h.2⟩

namespace Runner

variable {r : Runner η γ} {c : Convergence (World η γ)}

/-- The target of the record. -/
def targetNow (w : World η γ) : String :=
  match w.disk.readOperation with
  | .observed op => op.targetVersion
  | _ => ""

/-- The target of the record on file. -/
theorem targetNow_eq {w : World η γ} {op : Operation} (h : w.disk.readOperation = .observed op) :
    op.targetVersion = targetNow w := by
  simp [targetNow, h]

/-- **The engine's recovery** leaves nothing to borrow that was not there before. -/
theorem recover_settleable (hc : ReadsProduct c) :
    Triple (fun s : Running (World η γ) => Followed s.world ∧ ¬Borrows s.world) (r.engine c).recover
      (fun _ => OnWorld Settleable) (fun _ => OnWorld Followed) := by
  refine Triple.of_forall fun s ⟨hs, hlends⟩ => ?_
  have hadvances := recover_advances (r := r) hc (targetNow s.world) s.world
  -- what is stable afterwards, when a promotion was carried out
  have hpublished : Triple (fun s' : Running (World η γ) => s'.world = s.world) (r.engine c).recover
      (fun _ s' => ∀ es, s.world.disk.readJournal = .ok es → lastIntent es = some .promoted →
        ∃ v, s.world.disk.published = .ok (some v) ∧ s'.world.disk.version .stable = .ok (some v))
      (fun _ _ => True) := by
    by_cases htail : ∃ es, s.world.disk.readJournal = .ok es ∧ lastIntent es = some .promoted
    · obtain ⟨es, hread, htail⟩ := htail
      exact (recover_published hread htail).conseq (fun s' h => by rw [h]) (fun _ _ h _ _ _ => h)
        fun _ _ h => h
    · exact hadvances.conseq (fun _ h => h) (fun _ _ _ es hread hp => absurd ⟨es, hread, hp⟩ htail)
        fun _ _ _ => trivial
  refine (hadvances.and hpublished).conseq (fun s' h => by rw [h]; exact ⟨rfl, rfl⟩)
    (fun _ s' h => ?_) fun _ s' h => ?_
  · obtain ⟨⟨hadvance, hrest⟩, hstable⟩ := h
    refine ⟨by rw [hadvance.records]; exact hs.attributed, hrest, fun op hop hnone => ?_⟩
    rw [Disk.readOperation_congr hadvance.operation] at hop
    obtain ⟨opening, hopening, new, hgrown⟩ := hs.opened op hop hnone
    obtain ⟨es, hread, hread', -⟩ := id hgrown
    obtain ⟨new', hgrown'⟩ := hadvance.journal _ hread'
    rw [← targetNow_eq hop] at hgrown'
    refine ⟨opening, new ++ new', by rw [hadvance.records]; exact hopening, hgrown.trans hgrown', ?_⟩
    intro hnil es' last hes' hlast
    obtain ⟨rfl, rfl⟩ := List.append_eq_nil_iff.mp hnil
    obtain ⟨es'', hes, hread'', -⟩ := hgrown'
    rw [List.append_nil] at hread'
    rw [hread', Except.ok.injEq] at hes
    subst hes
    rw [hread'', Except.ok.injEq, List.append_nil] at hes'
    subst hes'
    have hnot : ¬s.world.disk.Lends op := fun h =>
      hlends ⟨op, opening, es, hop, hnone, hopening, hread, hread', h⟩
    refine ⟨fun hpromoted => ?_, fun hback => ?_⟩
    · obtain ⟨v, hv, hstable⟩ := hstable es hread' (by simp [lastIntent, hlast, hpromoted])
      refine ⟨v, fun hv' => hnot ⟨es, last, hread', hlast, .inl ⟨hpromoted, ?_⟩⟩, hstable⟩
      rw [hv, hv']
    · exact Classical.not_not.mp fun hreason =>
        hnot ⟨es, last, hread', hlast, .inr ⟨hback, hreason⟩⟩
  · exact hs.advance h.1 fun op hop _ => targetNow_eq hop

/-- The engine's recovery leaves a history followed. -/
theorem recover_followed (hc : ReadsProduct c) :
    Keeps (OnWorld (Followed : World η γ → Prop)) (r.engine c).recover :=
  Triple.of_forall fun s hs => (recover_advances hc (targetNow s.world) s.world).conseq
    (fun s' h => by rw [h]) (fun _ _ h => hs.advance h.1 fun op hop _ => targetNow_eq hop)
    fun _ _ h => hs.advance h fun op hop _ => targetNow_eq hop

/-- **The recovery of a call.** -/
theorem recoverEngine_settleable (hc : ReadsProduct c) :
    Triple (OnWorld (MaySettle : World η γ → Prop)) (r.recoverEngine c)
      (fun _ => OnWorld Settleable) (fun _ => OnWorld Followed) := by
  refine recovering_within (fun _ h => h.1) ?_
    ((recover_settleable hc).pre fun _ h => ⟨h.1.1, h.1.2 h.2.1 h.2.2⟩)
  intro w op outcome state es hw hop ho hstate hrest _ hread
  refine ⟨hw.1.attributed, ⟨es, hread, ?_⟩, fun op' hop' hnone => ?_⟩
  · exact (transactionState_atRest_iff hstate hread).mp hrest
  · rw [hop, OperationRead.observed.injEq] at hop'
    rw [← hop', ho] at hnone
    cases hnone

/-- Recording an outcome keeps the history followed if it is attributed. -/
theorem followed_record {w : World η γ} {op : Operation} (h : AllAttributed (recordsOf w.log))
    (hop : Attributes (recordsOf w.log) op (w.record op).disk) (hset : op.outcome ≠ none) :
    Followed (w.record op) ∧ Closed (w.record op) := by
  have hclosed : Closed (w.record op) := by
    intro op' hop'
    obtain ⟨rfl, -⟩ := observed_record hop'
    exact hset
  refine ⟨.of_closed ?_ hclosed, hclosed⟩
  show AllAttributed (recordsOf (w.log ++ [_]))
  rw [recordsOf_recorded]
  exact h.concat hop

/-- **Settling** after recovery attributes the outcome. -/
theorem settle_settleable :
    Triple (Settleable : World η γ → Prop) r.settle (fun _ w => (Followed w ∧ Closed w) ∧
      Journaled AtRest w.disk) (fun _ => Followed) := by
  refine settling_within (fun _ _ h => ⟨h.attributed, h.rest, h.opened⟩)
    (fun w n h => ⟨⟨followed_about w _ ⟨rfl, rfl, rfl⟩ h.1.1, h.1.2⟩, h.2⟩)
    (fun _ h => h.followed) (fun _ h => h.1.1)
    (fun w h hclosed => ⟨⟨h.followed, hclosed⟩, h.rest⟩) ?_ ?_ ?_
  · intro w op state now h hop hnone hstate hphase hstable
    refine ⟨followed_record h.attributed ?_ (by simp [advance]), h.rest⟩
    obtain ⟨opening, new, hopening, hgrown, hborrow⟩ := h.opened op hop hnone
    obtain ⟨es, version, hread, hversion, hshows, htail⟩ := transactionState_ok hstate
    have hlast : lastIntent es = some .promoted := by
      rw [htail] at hphase
      cases hl : lastIntent es with
      | none => rw [hl] at hphase; cases hphase
      | some p => rw [hl] at hphase; exact congrArg some hphase
    by_cases hne : new = []
    · obtain ⟨last, hlast', hpromoted⟩ := Option.map_eq_some_iff.mp hlast
      obtain ⟨v, hv, hstable'⟩ := (hborrow hne es last hread hlast').1 hpromoted
      rw [hversion, Except.ok.injEq] at hstable'
      rw [hshows, hstable'] at hstable
      exact absurd hstable hv
    · refine attributes_of_backed (advance op now .promoted (some .promoted) none)
        hopening (hgrown.congr rfl) rfl ?_
      obtain ⟨es₀, -, hread', -⟩ := hgrown
      rw [hread, Except.ok.injEq] at hread'
      rw [hread', lastIntent_append hne] at hlast
      exact hlast
  · intro w op state now reason h hop hnone hstate hrest hnot
    refine ⟨followed_record h.attributed ?_ (by simp [advance]), h.rest⟩
    obtain ⟨opening, new, hopening, hgrown, hborrow⟩ := h.opened op hop hnone
    by_cases hne : new = []
    · refine ⟨fun ho => by simp [advance] at ho, fun _ stable reason' hshows => ?_⟩
      obtain ⟨es, hread, -⟩ := h.rest
      obtain ⟨last, hlast, hback, hreason⟩ := transactionState_rolledBack hshows hread
      rw [(hborrow hne es last hread hlast).2 hback] at hreason
      cases hreason
    · exact attributes_of_backed (advance op now .rolledBack (some .rolledBack) reason)
        hopening (hgrown.congr rfl) rfl hne
  · intro w state h hstate hbusy
    obtain ⟨es, hread, hrest⟩ := h.rest
    rw [(transactionState_atRest_iff hstate hread).mpr hrest] at hbusy
    cases hbusy

/-! ## a drive -/

variable {target : Option String} {options : UpgradeOptions}

/-- The drive has its record open, if it keeps one, and journaled `N` since. -/
structure Handles (target : Option String) (op : Option Operation) (N : List JournalEntry → Prop)
    (w : World η γ) : Prop where
  attributed : AllAttributed (recordsOf w.log)
  closed : op = none → Closed w
  opened : ∀ o, op = some o → Opened target o w ∧ ∃ opening new,
    openingOf (recordsOf w.log) o.id = some opening ∧ GrownBy o.targetVersion new opening w.disk ∧ N new

/-- Between recovery and the engine's upgrade nothing is journaled. -/
def Fresh (target : Option String) (op : Option Operation) (w : World η γ) : Prop :=
  Handles target op (· = []) w ∧ Journaled AtRest w.disk

variable {op : Option Operation} {N : List JournalEntry → Prop} {w : World η γ}

/-- What a drive has in hand is about the history. -/
theorem handles_about (target : Option String) (op : Option Operation)
    (N : List JournalEntry → Prop) : AboutHistory (Handles target op N : World η γ → Prop) := by
  rintro w w' hsame ⟨hattributed, hclosed, hopened⟩
  refine ⟨by rw [hsame.records]; exact hattributed, fun hnone record hread => ?_, fun o ho => ?_⟩
  · rw [Disk.readOperation_congr hsame.operation] at hread
    exact hclosed hnone record hread
  · obtain ⟨hopen, opening, new, hopening, hgrown, hnew⟩ := hopened o ho
    exact ⟨hopen.same hsame.operation, opening, new, by rw [hsame.records]; exact hopening,
      hgrown.congr hsame.journal, hnew⟩

theorem fresh_about (target : Option String) (op : Option Operation) :
    AboutHistory (Fresh target op : World η γ → Prop) := fun w w' hsame h =>
  ⟨handles_about target op _ w w' hsame h.1, h.2.congr hsame.journal⟩

/-- A history is followed while a drive has its record in hand. -/
theorem Handles.followed (h : Handles target op N w) : Followed w := by
  refine ⟨h.attributed, fun record hread hnone => ?_⟩
  cases op with
  | none => exact absurd hnone (h.closed rfl record hread)
  | some o =>
      obtain ⟨hopen, opening, new, hopening, hgrown, -⟩ := h.opened o rfl
      rw [hopen.read, OperationRead.observed.injEq] at hread
      subst hread
      exact ⟨opening, hopening, new, hgrown⟩

/-- A phase of the open record. -/
theorem Handles.advance {o : Operation} (h : Handles target (some o) N w) (now : Nat)
    (phase : OperationPhase) (reason : Option String) (hchecking : phase = .checking → N []) :
    Handles target (some (Runner.advance o now phase none reason)) N
      (w.record (Runner.advance o now phase none reason)) := by
  obtain ⟨hopen, opening, new, hopening, hgrown, hnew⟩ := h.opened o rfl
  have hrecords : recordsOf (w.record (Runner.advance o now phase none reason)).log =
      recordsOf w.log ++ [(Runner.advance o now phase none reason,
        (w.record (Runner.advance o now phase none reason)).disk)] := recordsOf_recorded _ _ _
  refine ⟨?_, fun hnone => (by cases hnone), fun o' ho' => ?_⟩
  · rw [hrecords]
    exact h.attributed.concat (attributes_of_open (by simp [Runner.advance, hopen.open_]))
  · cases ho'
    refine ⟨hopen.advance now phase reason, ?_⟩
    rw [hrecords]
    by_cases hphase : phase = .checking
    · obtain ⟨es, -, hread, -⟩ := hgrown
      have hread' : (w.record (Runner.advance o now phase none reason)).disk.readJournal =
          .ok (es ++ new) := hread
      refine ⟨_, [], (openingOf_concat _ _ _ _).trans (if_pos ⟨rfl, hphase⟩), ⟨es ++ new, hread', ?_,
        fun e he => (by cases he)⟩, hchecking hphase⟩
      rw [List.append_nil]
      exact hread'
    · refine ⟨opening, new, ?_, hgrown.congr rfl, hnew⟩
      rw [openingOf_concat, if_neg fun h => hphase h.2]
      exact hopening

/-- The outcome of the record. -/
theorem Handles.conclude {o : Operation} {outcome : Outcome} (h : Handles target (some o) N w)
    (now : Nat) (reason : Option String) (hN : ∀ new, N new → outcome.BackedBy new) :
    Followed (w.record (Runner.advance o now outcome.phase (some outcome) reason)) := by
  obtain ⟨-, opening, new, hopening, hgrown, hnew⟩ := h.opened o rfl
  refine (followed_record h.attributed ?_ (by simp [Runner.advance])).1
  exact attributes_of_backed (Runner.advance o now outcome.phase (some outcome) reason)
    hopening (hgrown.congr rfl) rfl (hN new hnew)

/-- A phase of the record in hand. -/
theorem handles_progress (op : Option Operation) (phase : OperationPhase) (reason : Option String)
    (hchecking : phase = .checking → N []) :
    Triple (Handles target op N : World η γ → Prop) (r.transition op phase none reason)
      (fun op' => Handles target op' N) (fun _ => Followed) := by
  refine (transition_triple (fun _ => trivial : _ → True) (handles_about target op N).indifferent.tick
    (fun op' => (handles_about target op' N).indifferent.tick) (fun _ _ => .inr trivial)
    (fun hnone w hw => hnone ▸ hw) fun o ho w now _ hw => ?_).crash
    fun w h => h.1.elim Handles.followed fun ⟨_, h⟩ => h.followed
  subst ho
  exact hw.advance now phase reason hchecking

/-- The outcome of the record in hand, backed by what was journaled. -/
theorem handles_finish (op : Option Operation) (outcome : Outcome) (reason : Option String)
    (hN : ∀ new, N new → outcome.BackedBy new) :
    Triple (Handles target op N : World η γ → Prop)
      (r.transition op outcome.phase (some outcome) reason) (fun _ => Followed) (fun _ => Followed) := by
  refine (transition_triple (Q := fun _ => Followed) (fun _ => trivial : _ → True)
    (handles_about target op N).indifferent.tick (fun _ => followed_about.indifferent.tick)
    (fun _ _ => .inr trivial) (fun _ w hw => hw.followed) fun o ho w now _ hw => ?_).crash
    fun w h => h.1.elim Handles.followed fun ⟨_, h⟩ => h
  subst ho
  exact hw.conclude now reason hN

/-- The engine's upgrade moves along its journal. -/
theorem Fresh.advance {version : String} {w' : World η γ} (h : Fresh target op w)
    (hversion : ∀ o, op = some o → o.targetVersion = version) (hadvances : Advances version w w')
    (hN : ∃ new, GrownBy version new w.disk w'.disk ∧ N new) : Handles target op N w' := by
  refine ⟨by rw [hadvances.records]; exact h.1.attributed, fun hnone record hread => ?_, fun o ho => ?_⟩
  · rw [Disk.readOperation_congr hadvances.operation] at hread
    exact h.1.closed hnone record hread
  · obtain ⟨hopen, opening, new, hopening, hgrown, rfl⟩ := h.1.opened o ho
    obtain ⟨new', hgrown', hnew'⟩ := hN
    rw [← hversion o ho] at hgrown'
    exact ⟨hopen.same hadvances.operation, opening, [] ++ new', by rw [hadvances.records]; exact hopening,
      hgrown.trans hgrown', hnew'⟩

/-- **The engine's upgrade** backs its outcome with its own entries. -/
theorem upgrade_handles (hc : ReadsProduct c) (op : Option Operation) (release : Release)
    (hrelease : (target.any fun v => release.version != v) = false) :
    Triple (OnWorld (Fresh target op : World η γ → Prop))
      ((r.engine c).upgrade release.version incomingPath)
      (fun outcome => OnWorld (Handles target op (recordedAs outcome).BackedBy))
      (fun _ => OnWorld (Handles target op fun _ => True)) := by
  refine Triple.of_forall fun s hs => ?_
  have hversion : ∀ o, op = some o → o.targetVersion = release.version := by
    intro o ho
    have htarget := (hs.1.opened o ho).1.target
    rw [htarget] at hrelease
    have hmatch : release.version = o.targetVersion := by simpa using hrelease
    exact hmatch.symm
  refine (upgrade_advances hc release.version incomingPath hs.2).conseq (fun s' h => by rw [h])
    (fun outcome s' h => hs.advance hversion h.1 h.2) fun _ s' h => ?_
  obtain ⟨es, hread, -⟩ := hs.2
  obtain ⟨new, hgrown⟩ := h.journal es hread
  exact hs.advance hversion h ⟨new, hgrown, trivial⟩

/-- The record of a drive is opened on the journal as it is. -/
theorem openOperation_fresh (htarget : ∀ desc, options.operation = some desc →
      ∃ version, target = some version) :
    Triple (fun w : World η γ => (Followed w ∧ Closed w) ∧ Journaled AtRest w.disk)
      (r.openOperation target options) (fun opened => Fresh target opened.1) (fun _ => Followed) := by
  have hS : AboutHistory fun w : World η γ => (Followed w ∧ Closed w) ∧ Journaled AtRest w.disk :=
    fun w w' hsame h => ⟨⟨followed_about w w' hsame h.1.1, fun op hop =>
      h.1.2 op (by rwa [Disk.readOperation_congr hsame.operation] at hop)⟩, h.2.congr hsame.journal⟩
  refine opening_triple hS.indifferent.tick (fun op => (fresh_about target op).indifferent.tick)
    (hS.offReceipts.retirePrevious r) (fun w h => h.1.1) (fun op w h => h.1.followed)
    (fun _ w h => ⟨⟨h.1.1.attributed, fun _ => h.1.2, fun o ho => by cases ho⟩, h.2⟩)
    fun desc state now w hdesc h _ hvalid => ?_
  obtain ⟨version, rfl⟩ := htarget desc hdesc
  obtain ⟨es, hread, hrest⟩ := h.2
  have hrecords : recordsOf (w.record (newOperation desc options (some version) state.stable now)).log =
      recordsOf w.log ++ [(newOperation desc options (some version) state.stable now,
        (w.record (newOperation desc options (some version) state.stable now)).disk)] :=
    recordsOf_recorded _ _ _
  refine ⟨⟨?_, fun hnone => (by cases hnone), fun o ho => ?_⟩, es, hread, hrest⟩
  · rw [hrecords]
    exact h.1.1.attributed.concat (attributes_of_open (by simp [newOperation]))
  · cases ho
    refine ⟨⟨rfl, rfl, hvalid, rfl⟩, ?_⟩
    rw [hrecords]
    have hread' : (w.record (newOperation desc options (some version) state.stable now)).disk.readJournal =
        .ok es := hread
    refine ⟨_, [], (openingOf_concat _ _ _ _).trans (if_pos ⟨rfl, rfl⟩), ⟨es, hread', ?_,
      fun e he => (by cases he)⟩, rfl⟩
    rw [List.append_nil]
    exact hread'

/-- **The outline of a drive.** -/
theorem followedOutline (hc : ReadsProduct c) (htarget : ∀ desc, options.operation = some desc →
      ∃ version, target = some version) :
    DriveOutline r c target options (fun _ => True) MaySettle (fun op _ => Fresh target op)
      (fun op outcome => Handles target op (recordedAs outcome).BackedBy)
      (fun op _ => Handles target op fun _ => True) (fun _ => Followed) (fun _ => Followed) where
  outside := .any
  quietActive op _ := (fresh_about target op).indifferent
  quietEnded op _ := (handles_about target op _).indifferent
  quiet _ := followed_about.indifferent
  active _ _ _ _ _ h := h.1.followed
  ended _ _ _ _ _ h := h.followed
  broken _ _ h := h.followed
  closed _ _ _ _ h := h
  start := ⟨OnWorld Settleable, OnWorld fun w => (Followed w ∧ Closed w) ∧ Journaled AtRest w.disk,
    recoverEngine_settleable hc, Confined.lift settle_settleable,
    Confined.lift (openOperation_fresh htarget)⟩
  progress op _ phase reason :=
    ((handles_progress (N := (· = [])) op phase reason fun _ => rfl).and
      ((journaled_offRecords AtRest).transition op phase none reason)).conseq (fun _ h => h)
      (fun _ _ h => h) fun _ _ h => h.1
  finish op _ outcome reason houtcome := (handles_finish op outcome reason fun new _ => by
    rcases houtcome with rfl | rfl | rfl <;> trivial).pre fun _ h => h.1
  upgrade op release hrelease := upgrade_handles hc op release hrelease
  abandon op _ reason := (handles_progress op .recovering reason fun h => by cases h).post
    fun _ _ h => h.followed
  conclude op outcome reason := handles_finish op (recordedAs outcome) reason fun _ h => h

/-- **Every call keeps the history attributed**, unless it settles an operation that journaled
nothing. -/
theorem followed_call (call : Call) :
    CallOutline r call (fun w : World η γ => Followed w ∧ ((∀ reason, call ≠ .rollback reason) →
      Borrows w → ¬r.GetsToRecovery call w)) Followed where
  quiet := followed_about.indifferent
  startOff _ _ _ h := ⟨followed_about.offLock _ _ _ h.1, h.2⟩
  off := followed_about.offLock
  safe _ h := h.1
  recover hrecovers := by
    have hne : ∀ reason, call ≠ .rollback reason := by
      rintro reason rfl
      cases hrecovers
    refine recoverLocked_letThrough (E := MaySettle) call.expected (fun _ h => h.1)
      (fun _ h hthrough => ⟨h.1, fun hun hread hborrows => ?_⟩) maySettle_observed (fun _ h => h.1)
      fun _ hc => ?_
    · exact h.2 hne hborrows (getsToRecovery_of_recovers hrecovers hun hread hthrough)
    · exact Triple.bind (recoverEngine_settleable hc) fun _ =>
        (Confined.lift settle_settleable).post fun _ _ h => h.1.1
  drive target options hdrives := by
    refine driveLocked_letThrough (E := MaySettle) target options (fun _ h => h.1.1)
      (fun _ h hthrough => ⟨h.1.1, fun hun hread hborrows => ?_⟩) maySettle_observed (fun _ h => h.1)
      fun _ hc => (followedOutline hc fun desc hdesc => ?_).driveEngine_triple
    · exact h.1.2 hdrives.ne_rollback hborrows
        (getsToRecovery_of_drives hdrives h.2 hun hread hthrough)
    · obtain ⟨version, htarget, -⟩ := hdrives.named desc hdesc
      exact ⟨version, htarget⟩
  rollback reason _ :=
    (rollbackLocked_triple (R := Followed) reason followed_about.indifferent.observed (fun _ h => h)
      (fun _ hc => recover_followed hc) (followed_about.removeDir r.store .experiment)
      followed_about.indifferent).pre fun _ h => h.1

end Runner

/-! ## runs -/

/-- The visit settles an operation that journaled nothing by what the journal ended in before. -/
def Visit.Misattributes (v : Visit η γ) (w : World η γ) : Prop :=
  v.lock = .free ∧ v.call.Valid ∧ (∀ reason, v.call ≠ .rollback reason) ∧
    v.runner.GetsToRecovery v.call (v.finds w) ∧ Borrows w

/-- **One visit** leaves a history followed. -/
theorem Visit.run_followed {v : Visit η γ} {w : World η γ} (hw : Followed w)
    (hown : ¬v.Misattributes w) : Followed (v.run w) := by
  have hfinds : Followed (v.finds w) := followed_about w _ ⟨rfl, rfl, rfl⟩ hw
  refine Visit.run_of_body followed_about.indifferent hfinds fun hfree hvalid =>
    ⟨_, (Runner.followed_call v.call).call_triple, hfinds, fun hcall hborrows hgets => ?_⟩
  exact hown ⟨hfree, hvalid, hcall, hgets, hborrows⟩

/-- **Outcomes are attributed**: in any run of calls on a directory without an open operation,
each cut off anywhere, every outcome taken from the journal comes from an entry that was
appended since the record of its operation was first persisted, as long as no call settles an
operation that journaled nothing by an earlier entry. -/
theorem outcomes_attributed (w : World η γ) (hlog : w.log = []) (hclosed : Runner.Closed w)
    (visits : List (Visit η γ)) (hown : EachVisit (fun v w => ¬v.Misattributes w) visits w) :
    AllAttributed (recordsOf (runVisits visits w).log) := by
  have hstart : Followed w := by
    refine .of_closed (fun before op disk after heq => ?_) hclosed
    rw [hlog] at heq
    cases before <;> cases heq
  exact (run_invariant (fun _ _ hw hv => Visit.run_followed hw hv) visits w hstart hown).attributed

namespace Service

/-- Both directories have as many journal entries. -/
def sameLength (d d' : Disk) : Bool :=
  match d.readJournal, d'.readJournal with
  | .ok es, .ok es' => es.length == es'.length
  | _, _ => false

/-- A journal of the same length has not grown. -/
theorem not_grewBy_of_sameLength {p : JournalEntry → Prop} {d d' : Disk} (h : sameLength d d' = true) :
    ¬GrewBy p d d' := by
  rintro ⟨es, new, hread, hread', e, he, -⟩
  have hlength : es.length = (es ++ new).length := by simpa [sameLength, hread, hread'] using h
  have hnil : new = [] := by
    rw [List.length_append] at hlength
    exact List.length_eq_zero_iff.mp (by omega)
  rw [hnil] at he
  cases he

/-- The open operation of a world journaled something. -/
def journaled (w : World Service Unit) : Bool :=
  match w.disk.readOperation with
  | .observed op => (openingOf (recordsOf w.log) op.id).all fun opening => !sameLength opening w.disk
  | _ => false

/-- A journal that is as it was tells of no misattribution. -/
theorem not_misattributes_of_journaled {v : Visit Service Unit} {w : World Service Unit}
    (h : journaled w = true) : ¬v.Misattributes w := by
  rintro ⟨-, -, -, -, op, opening, es, hop, -, hopening, hread, hread', -⟩
  simp [journaled, hop, hopening, sameLength, hread, hread'] at h

/-- An upgrade of `a` to "2"; one of `b` to "2" that dies once its record is there; and a
recovery. -/
def repeatedUpgrade : List (Visit Service Unit) :=
  [⟨runner 7 Faults.clean, .free, (), .execute (.upgrade 1 "a" "2" true)⟩,
    ⟨runner 8 (diesAt 74), .free, (), .execute (.upgrade 1 "b" "2" true)⟩,
    ⟨runner 9 Faults.clean, .free, (), .recover none⟩]

/-- The recovery records that `b` was promoted, by the promotion of `a`. -/
theorem outcomes_misattributed : ∃ (w : World Service Unit) (visits : List (Visit Service Unit)),
    w.log = [] ∧ Runner.Closed w ∧ ¬AllAttributed (recordsOf (runVisits visits w).log) := by
  refine ⟨installed "1", repeatedUpgrade, rfl, fun op hop => ?_, fun hall => ?_⟩
  · cases (Disk.readOperation_observed_iff.mp hop).1
  have hlast : (match (recordsOf (runVisits repeatedUpgrade (installed "1")).log).getLast? with
      | some (op, disk) => op.outcome == some .promoted &&
          (openingOf (recordsOf (runVisits repeatedUpgrade (installed "1")).log).dropLast op.id).all
            fun opening => sameLength opening disk
      | none => false) = true := by decide +kernel
  generalize recordsOf (runVisits repeatedUpgrade (installed "1")).log = records at hall hlast
  rcases List.eq_nil_or_concat records with hnil | ⟨before, ⟨op, disk⟩, rfl⟩
  · rw [hnil] at hlast
    cases hlast
  · simp only [List.concat_eq_append, List.getLast?_concat, List.dropLast_concat,
      Bool.and_eq_true, beq_iff_eq] at hlast hall
    obtain ⟨opening, hopening, hgrew⟩ := (hall before op disk [] rfl).promoted hlast.1
    rw [hopening] at hlast
    exact not_grewBy_of_sameLength hlast.2 hgrew

/-- An upgrade that dies in its transaction, and the recovery after it. -/
theorem outcomes_attributed_recovered : AllAttributed (recordsOf (runVisits
      [⟨runner 7 (diesAt 45), .free, (), .execute (.upgrade 1 "a" "2" true)⟩,
        ⟨runner 8 Faults.clean, .free, (), .recover none⟩] (installed "1")).log) := by
  refine outcomes_attributed (installed "1") rfl (fun op hop => ?_) _
    ⟨fun hmis => ?_, not_misattributes_of_journaled (by decide +kernel), True.intro⟩
  · cases (Disk.readOperation_observed_iff.mp hop).1
  · obtain ⟨-, -, -, -, op, opening, es, hop, -⟩ := hmis
    cases (Disk.readOperation_observed_iff.mp hop).1

end Service

end KCarrier
