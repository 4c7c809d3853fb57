import KCarrier.Engine.Outline

/-!
# KCarrier.Engine.Ledger

Write-ahead discipline of the engine against an adversary.

The environment is arbitrary: every call does what it likes and ends as it likes,
and an append may persist its entry whatever it reports.  `ledger` is the engine
over it with two ghosts: the durable journal, and every effect with the journal at
the moment it was issued (`issued`).

`journal_discipline`: whatever engines follow one another, each opened before it
upgrades and dropped at its first error, the journal keeps the transition grammar
(`Grammar`) and every effect is gated by the last durable intent (`Gated`).
-/

namespace KCarrier

open Crash
open Running

/-! ## the grammar -/

/-- A closed transaction leaves the machine idle. -/
def Phase.resting : Phase → Phase
  | .promoted | .rolledBack => .idle
  | p => p

/-- An edge of `TRANSITIONS`. -/
def Edge (p q : Phase) : Prop := ∃ t ∈ TRANSITIONS, t.1 = p ∧ t.2.1 = q

instance (p q : Phase) : Decidable (Edge p q) :=
  inferInstanceAs (Decidable (∃ t ∈ TRANSITIONS, t.1 = p ∧ t.2.1 = q))

/-- `entries` are numbered from `n` on and follow `p` edge by edge. -/
def Follows (p : Phase) (n : Nat) : List JournalEntry → Prop
  | [] => True
  | e :: es => e.seq = n ∧ Edge p.resting e.intent ∧ Follows e.intent (n + 1) es

/-- The journal is numbered 0, 1, 2, ... and each intent follows its predecessor by
an edge of `TRANSITIONS`. -/
def Grammar (journal : List JournalEntry) : Prop := Follows .idle 0 journal

/-- The intent the next entry has to follow. -/
def tailPhase (p : Phase) (journal : List JournalEntry) : Phase := (lastIntent journal).getD p

theorem tailPhase_cons (p : Phase) (e : JournalEntry) (es : List JournalEntry) :
    tailPhase p (e :: es) = tailPhase e.intent es := by
  cases h : es.getLast? with
  | none =>
      have hnil : es = [] := List.getLast?_eq_none_iff.mp h
      subst hnil
      rfl
  | some last => simp [tailPhase, lastIntent, List.getLast?_cons, h]

/-- Writing one more entry. -/
theorem follows_concat {p : Phase} {n : Nat} {es : List JournalEntry} {e : JournalEntry}
    (h : Follows p n es) (hseq : e.seq = n + es.length)
    (hedge : Edge (tailPhase p es).resting e.intent) : Follows p n (es ++ [e]) := by
  induction es generalizing p n with
  | nil => exact ⟨hseq, hedge, trivial⟩
  | cons a es ih =>
      obtain ⟨ha, hea, hes⟩ := h
      rw [tailPhase_cons] at hedge
      rw [List.length_cons] at hseq
      exact ⟨ha, hea, ih hes (by omega) hedge⟩

/-- The numbers of a journal of the grammar are its positions. -/
theorem follows_seq {p : Phase} {n : Nat} {es : List JournalEntry} (h : Follows p n es) (i : Nat)
    (e : JournalEntry) (he : es[i]? = some e) : e.seq = n + i := by
  induction es generalizing p n i with
  | nil => simp at he
  | cons a es ih =>
      obtain ⟨ha, -, hes⟩ := h
      cases i with
      | zero =>
          simp only [List.getElem?_cons_zero, Option.some.injEq] at he
          rw [← he, ha]
          rfl
      | succ i =>
          rw [List.getElem?_cons_succ] at he
          have := ih hes i he
          omega

theorem nextSeq_of_follows {p : Phase} {n : Nat} {es : List JournalEntry} (h : Follows p n es) :
    es ≠ [] → nextSeq es = n + es.length := by
  intro hne
  obtain ⟨last, hlast⟩ : ∃ last, es.getLast? = some last := by
    cases hl : es.getLast? with
    | none => exact absurd (List.getLast?_eq_none_iff.mp hl) hne
    | some last => exact ⟨last, rfl⟩
  have hget : es[es.length - 1]? = some last := by rw [← List.getLast?_eq_getElem?, hlast]
  have hseq := follows_seq h _ last hget
  have hpos : 0 < es.length := List.length_pos_iff.mpr hne
  simp only [nextSeq, hlast]
  omega

/-- The number of the next entry is the length of the journal. -/
theorem Grammar.nextSeq {journal : List JournalEntry} (h : Grammar journal) :
    nextSeq journal = journal.length := by
  by_cases hne : journal = []
  · subst hne
    rfl
  · rw [nextSeq_of_follows h hne, Nat.zero_add]

/-- Journaling an intent that the last one leads to. -/
theorem Grammar.concat {journal : List JournalEntry} (h : Grammar journal) {e : JournalEntry}
    (hseq : e.seq = KCarrier.nextSeq journal)
    (hedge : Edge (tailPhase .idle journal).resting e.intent) : Grammar (journal ++ [e]) := by
  rw [h.nextSeq] at hseq
  exact follows_concat h (by omega) hedge

/-! ## the gates -/

/-- The effects of the engine besides journaling. -/
inductive Act where
  | stage
  | promote
  | clear
  | fence
  | quiesce
  | stop (slot : Slot)
  | start (slot : Slot)
  | probe
  | readback
  | resume
deriving DecidableEq, Repr

/-- The last durable intents an effect may be issued under. -/
def Gated : Act → Option Phase → Prop
  | .stage, t => t = some .staged
  | .quiesce, t | .stop .stable, t | .start .experiment, t => t = some .handingOver
  | .promote, t => t = some .promoted
  | .stop .experiment, t | .start .stable, t | .clear, t => t = some .rolledBack
  | .resume, t => t = some .promoted ∨ t = some .rolledBack
  | .fence, _ | .probe, _ | .readback, _ => True

/-! ## the ledger -/

variable {η : Type}

/-- The durable journal, the effects issued so far with the journal they were
issued under, and whatever else the environment consists of. -/
structure Ledger (η : Type) where
  journal : List JournalEntry
  issued : List (Act × List JournalEntry)
  rest : η

/-- The environment: arbitrary calls, and whether a failed append persisted. -/
structure Adversary (η : Type) where
  calls : Engine η
  persists : JournalEntry → η → Bool

namespace Ledger

def onRest {α : Type} (m : Prog Error η α) : Prog Error (Ledger η) α :=
  Prog.zoom Ledger.rest (fun r s => { s with rest := r }) m

def issue {α : Type} (act : Act) (m : Prog Error η α) : Prog Error (Ledger η) α := do
  Prog.modify fun s => { s with issued := s.issued ++ [(act, s.journal)] }
  onRest m

/-- An append that reports success persisted its entry; a failed one may have. -/
def append (adversary : Adversary η) (entry : JournalEntry) : Prog Error (Ledger η) Unit := fun s =>
  let r := adversary.calls.effects.append entry s.rest
  let persisted := match r.1 with
    | .ok () => true
    | _ => adversary.persists entry s.rest
  (r.1, { s with
    journal := if persisted then s.journal ++ [entry] else s.journal
    rest := r.2 })

/-- A read that succeeds shows the durable journal. -/
def readJournal (adversary : Adversary η) : Prog Error (Ledger η) (List JournalEntry) := do
  let _ ← onRest adversary.calls.effects.readJournal
  let s ← Prog.get
  pure s.journal

end Ledger

open Ledger

/-- The engine over an adversary. -/
def Adversary.engine (adversary : Adversary η) : Engine (Ledger η) where
  effects :=
    { readJournal := readJournal adversary
      append := append adversary
      versions := onRest adversary.calls.effects.versions
      stage := fun version bytes => issue .stage (adversary.calls.effects.stage version bytes)
      promote := issue .promote adversary.calls.effects.promote
      clear := issue .clear adversary.calls.effects.clear }
  host :=
    { fence := issue .fence adversary.calls.host.fence
      quiesce := issue .quiesce adversary.calls.host.quiesce
      stop := fun slot => issue (.stop slot) (adversary.calls.host.stop slot)
      start := fun slot => issue (.start slot) (adversary.calls.host.start slot)
      probe := issue .probe adversary.calls.host.probe
      resume := issue .resume adversary.calls.host.resume }
  predicates :=
    { evaluate := fun evidence target =>
        issue .readback (adversary.calls.predicates.evaluate evidence target) }
  now s := adversary.calls.now s.rest

/-! ## the discipline -/

/-- The journal keeps the grammar, and every effect so far was issued under a
journal of the grammar by which it was gated. -/
structure Disciplined (s : Ledger η) : Prop where
  grammar : Grammar s.journal
  issued : ∀ i ∈ s.issued, Grammar i.2 ∧ Gated i.1 (lastIntent i.2)

/-- The assertion of the outline: the engine's number is the next one. -/
def Ledger.At (p : Point) (r : Running (Ledger η)) : Prop :=
  Disciplined r.world ∧ p.Tail (lastIntent r.world.journal) ∧
    (p ≠ .entry → r.seq = nextSeq r.world.journal)

/-- The crash condition of the outline. -/
def Ledger.CutOff (_ : Option Error) (r : Running (Ledger η)) : Prop := Disciplined r.world

section Outline

variable {adversary : Adversary η}

/-- An effect keeps the discipline when its gate is open, and leaves the journal. -/
theorem issue_triple {α : Type} {p q : Point} {act : Act} (m : Prog Error η α)
    (hgate : ∀ t, p.Tail t → Gated act t) (hnext : ∀ t, p.Tail t → q.Tail t)
    (hp : p ≠ .entry) :
    Triple (Ledger.At p) (lift (issue act m)) (fun _ => Ledger.At q) Ledger.CutOff := by
  refine Triple.zoom fun r hr => ?_
  obtain ⟨hd, htail, hseq⟩ := hr
  have hissued : ∀ i ∈ r.world.issued ++ [(act, r.world.journal)],
      Grammar i.2 ∧ Gated i.1 (lastIntent i.2) := by
    intro i hi
    rw [List.mem_append, List.mem_singleton] at hi
    cases hi with
    | inl hi => exact hd.issued i hi
    | inr hi =>
        rw [hi]
        exact ⟨hd.grammar, hgate _ htail⟩
  simp only [issue, onRest, Prog.zoom, Prog.bind_run, Prog.modify_run]
  generalize m r.world.rest = o
  obtain ⟨o, rest⟩ := o
  cases o with
  | ok a => exact ⟨⟨hd.grammar, hissued⟩, hnext _ htail, fun _ => hseq hp⟩
  | err e => exact ⟨hd.grammar, hissued⟩
  | crash => exact ⟨hd.grammar, hissued⟩

/-- A call the ledger does not list. -/
theorem onRest_triple {α : Type} {p : Point} (m : Prog Error η α) :
    Triple (Ledger.At p) (lift (onRest m)) (fun _ => Ledger.At p) Ledger.CutOff := by
  refine Triple.zoom fun r hr => ?_
  simp only [onRest, Prog.zoom]
  generalize m r.world.rest = o
  obtain ⟨o, rest⟩ := o
  cases o with
  | ok a => exact ⟨⟨hr.1.grammar, hr.1.issued⟩, hr.2⟩
  | err e => exact ⟨hr.1.grammar, hr.1.issued⟩
  | crash => exact ⟨hr.1.grammar, hr.1.issued⟩

/-- A budgeted effect between two points. -/
theorem bounded_issue_triple {α : Type} {p : Point} {q : α → Point} {act : Act} {label : String}
    (m : Prog Error η (Option α)) (hgate : ∀ t, p.Tail t → Gated act t)
    (hnext : ∀ a t, p.Tail t → (q a).Tail t) (hp : p ≠ .entry) :
    Triple (Ledger.At p) (Engine.bounded label (issue act m)) (fun a => Ledger.At (q a))
      Ledger.CutOff :=
  bounded_of_lift ((issue_triple m hgate (fun _ ht => ht) hp).post fun _ _ hr =>
    ⟨fun a _ => ⟨hr.1, hnext a _ hr.2.1, fun _ => hr.2.2 hp⟩, hr.1⟩)

/-- Journaling an intent: it follows the last one, and the engine counts it when
the append reported success. -/
theorem journal_step {p q : Point} {intent : Phase} (detail : Detail)
    (hedge : ∀ t, p.Tail t → Edge (t.getD .idle).resting intent)
    (hnext : q.Tail (some intent)) (hp : p ≠ .entry) :
    Triple (Ledger.At p) (adversary.engine.journal intent detail) (fun _ => Ledger.At q)
      Ledger.CutOff := by
  intro r hr
  obtain ⟨hd, htail, hseq⟩ := hr
  let entry := Engine.entryOf r.seq (adversary.engine.now r.world) intent detail
  have hgrammar : Grammar (r.world.journal ++ [entry]) :=
    hd.grammar.concat (hseq hp) (hedge _ htail)
  have hmaybe : ∀ b : Bool,
      Grammar (if b then r.world.journal ++ [entry] else r.world.journal) := by
    intro b
    cases b with
    | true => exact hgrammar
    | false => exact hd.grammar
  unfold Engine.journal
  simp only [Prog.bind_run, Prog.get_run, lift, Prog.zoom, Adversary.engine, append]
  generalize adversary.calls.effects.append _ r.world.rest = o
  obtain ⟨o, rest⟩ := o
  cases o with
  | ok u =>
      refine ⟨⟨hgrammar, hd.issued⟩, ?_, fun _ => ?_⟩
      · simpa [Engine.entryOf] using hnext
      · simp [Engine.entryOf]
  | err e => exact ⟨hmaybe _, hd.issued⟩
  | crash => exact ⟨hmaybe _, hd.issued⟩

theorem ledgerRollback :
    RollbackOutline adversary.engine Ledger.At Ledger.CutOff where
  stop := bounded_issue_triple _ (fun _ ht => ht) (fun _ _ ht => ht) (by simp)
  start := bounded_issue_triple _ (fun _ ht => ht) (fun _ _ ht => ht) (by simp)
  resumed := bounded_issue_triple _ (fun _ ht => .inr ht) (fun _ _ ht => ht) (by simp)
  clear := issue_triple _ (fun _ ht => ht) (fun t ht => by
    intro p hp
    have hp' : some Phase.rolledBack = some p := ht ▸ hp
    cases hp'
    rfl) (by simp)

theorem ledgerCommit : CommitOutline adversary.engine Ledger.At Ledger.CutOff where
  promote := issue_triple _ (fun _ ht => ht) (fun _ ht => ht) (by simp)
  resume := bounded_issue_triple _ (fun _ ht => .inl ht) (fun _ t ht => by
    intro p hp
    have hp' : some Phase.promoted = some p := ht ▸ hp
    cases hp'
    rfl) (by simp)

/-- Reading the journal shows the durable one. -/
theorem readEntries_ledger {P : Ledger η → Prop} (hP : ∀ s r, P s → P { s with rest := r }) :
    Triple (fun r => P r.world) adversary.engine.readEntries
      (fun entries r => P r.world ∧ entries = r.world.journal) (fun _ r => P r.world) := by
  unfold Engine.readEntries
  refine Triple.bind (R := fun entries r => P r.world ∧ entries = r.world.journal) ?_
    fun entries => ?_
  · refine Triple.zoom fun r hr => ?_
    simp only [Adversary.engine, readJournal, onRest, Prog.zoom, Prog.bind_run]
    generalize adversary.calls.effects.readJournal r.world.rest = o
    obtain ⟨o, rest⟩ := o
    cases o with
    | ok entries => exact ⟨hP _ _ hr, rfl⟩
    | err e => exact hP _ _ hr
    | crash => exact hP _ _ hr
  · refine Triple.bind (R := fun _ r => P r.world ∧ entries = r.world.journal)
      (Triple.ofExcept (fun _ _ _ hr => hr) fun _ _ _ hr => hr.1) fun _ => ?_
    exact Triple.pure fun _ hr => hr

theorem disciplined_rest (s : Ledger η) (rest : η) (h : Disciplined s) :
    Disciplined { s with rest := rest } := ⟨h.grammar, h.issued⟩

theorem ledgerRecover : RecoverOutline adversary.engine Ledger.At Ledger.CutOff where
  toRollbackOutline := ledgerRollback
  toCommitOutline := ledgerCommit
  read := (readEntries_ledger disciplined_rest).conseq (fun _ hr => hr.1)
    (fun entries r hr => ⟨hr.1, by rw [hr.2]; rfl, fun _ => by rw [hr.2]⟩) fun _ _ hr => hr
  fence tail := bounded_issue_triple _ (fun _ _ => trivial) (fun _ _ ht => ht) (by simp)
  idle s hs := by
    rcases hs with ⟨hd, ht, hseq⟩ | ⟨hd, ht, hseq⟩
    · refine ⟨hd, fun p hp => ?_, fun _ => hseq (by simp)⟩
      rw [show lastIntent s.world.journal = none from ht] at hp
      cases hp
    · refine ⟨hd, fun p hp => ?_, fun _ => hseq (by simp)⟩
      rw [show lastIntent s.world.journal = some .idle from ht] at hp
      cases hp
      rfl
  commit s hs := ⟨hs.1, hs.2.1, fun _ => hs.2.2 (by simp)⟩
  redo s hs := ⟨hs.1, hs.2.1, fun _ => hs.2.2 (by simp)⟩
  withdraw reason := journal_step _ (fun t ht => by
    rw [show t = some .staged from ht]
    decide) rfl (by simp)
  abandon tail reason hopen := journal_step _ (fun t ht => by
    rw [show t = some tail from ht]
    rcases hopen with h | h | h
    · rw [h]
      decide
    · rw [h]
      decide
    · rw [h]
      decide) rfl (by simp)

/-- A transaction is opened from rest. -/
theorem edge_staged {t : Option Phase} (h : ∀ p, t = some p → p.atRest = true) :
    Edge (t.getD .idle).resting .staged := by
  cases t with
  | none => decide
  | some p =>
      have hp := h p rfl
      cases p with
      | idle => decide
      | promoted => decide
      | rolledBack => decide
      | staged => cases hp
      | handingOver => cases hp
      | runningExperiment => cases hp
      | readback => cases hp

/-- The edge from a tail that is known. -/
theorem edge_of_tail {t : Option Phase} {p q : Phase} (h : t = some p) (he : Edge p.resting q) :
    Edge (t.getD .idle).resting q := by
  rw [h]
  exact he

theorem probe_ledger {p failed : Point} {q : Evidence → Point}
    (hnext : ∀ a t, p.Tail t → (q a).Tail t) (hfailed : ∀ t, p.Tail t → failed.Tail t)
    (hp : p ≠ .entry) :
    Triple (Ledger.At p) (Engine.bounded "probe" adversary.engine.host.probe)
      (fun a => Ledger.At (q a)) (probeFailed (Ledger.At failed) Ledger.CutOff) := by
  -- a failed probe leaves the journal where it was, so the point is kept too
  have hkeep : Triple (Ledger.At p) (Engine.bounded "probe" adversary.engine.host.probe)
      (fun a => Ledger.At (q a)) (fun _ => Ledger.At p) := by
    refine bounded_of_lift ?_
    refine Triple.zoom fun r hr => ?_
    obtain ⟨hd, htail, hseq⟩ := hr
    have hissued : ∀ i ∈ r.world.issued ++ [(Act.probe, r.world.journal)],
        Grammar i.2 ∧ Gated i.1 (lastIntent i.2) := by
      intro i hi
      rw [List.mem_append, List.mem_singleton] at hi
      cases hi with
      | inl hi => exact hd.issued i hi
      | inr hi =>
          rw [hi]
          exact ⟨hd.grammar, trivial⟩
    simp only [Adversary.engine, issue, onRest, Prog.zoom, Prog.bind_run, Prog.modify_run]
    generalize adversary.calls.host.probe r.world.rest = o
    obtain ⟨o, rest⟩ := o
    cases o with
    | ok reply =>
        exact ⟨fun a _ => ⟨⟨hd.grammar, hissued⟩, hnext a _ htail, fun _ => hseq hp⟩,
          ⟨hd.grammar, hissued⟩, htail, hseq⟩
    | err e => exact ⟨⟨hd.grammar, hissued⟩, htail, hseq⟩
    | crash => exact ⟨⟨hd.grammar, hissued⟩, htail, hseq⟩
  refine hkeep.conseq (fun _ hr => hr) (fun _ _ hr => hr) fun err r hr => ?_
  have hdown : Ledger.At failed r := ⟨hr.1, hfailed _ hr.2.1, fun _ => hr.2.2 hp⟩
  cases err with
  | none => exact hr.1
  | some e =>
      by_cases hu : e.isUncertain
      · simp only [probeFailed, hu, if_true]
        exact hr.1
      · simp only [probeFailed, hu]
        exact hdown

theorem ledgerUpgrade (version : String) (bytes : Path) :
    UpgradeOutline adversary.engine version bytes Ledger.At Ledger.CutOff where
  toRollbackOutline := ledgerRollback
  toCommitOutline := ledgerCommit
  survey := (onRest_triple _).post fun versions r hr => by
    cases stableOf versions with
    | none => exact hr.1
    | some stable => exact ⟨hr.1, hr.2.1, fun _ => hr.2.2 (by simp)⟩
  probe _ _ := probe_ledger (fun _ _ ht => ht) (fun _ ht => ht) (by simp)
  journalStaged _ _ _ := journal_step _ (fun _ ht => edge_staged ht) rfl (by simp)
  stage _ := issue_triple _ (fun _ ht => ht) (fun _ ht => ht) (by simp)
  journalHandingOver _ := journal_step _ (fun _ ht => edge_of_tail ht (by decide)) rfl (by simp)
  quiesce _ := bounded_issue_triple _ (fun _ ht => ht) (fun _ _ ht => ht) (by simp)
  stopStable _ := bounded_issue_triple _ (fun _ ht => ht) (fun _ _ ht => ht) (by simp)
  startExperiment _ := bounded_issue_triple _ (fun _ ht => ht) (fun _ _ ht => ht) (by simp)
  journalRunning _ := journal_step _ (fun _ ht => edge_of_tail ht (by decide)) rfl (by simp)
  probeLive _ := probe_ledger (fun _ _ ht => ht) (fun _ ht => ht) (by simp)
  journalReadback _ _ := journal_step _ (fun _ ht => edge_of_tail ht (by decide)) rfl (by simp)
  replaced _ _ _ _ hr := ⟨hr.1, hr.2.1, fun _ => hr.2.2 (by simp)⟩
  evaluate prior evidence := by
    have hask : Triple (Ledger.At (.fresh prior evidence))
        (Engine.bounded "readback" (adversary.engine.predicates.evaluate evidence version))
        (fun _ => Ledger.At (.fresh prior evidence)) Ledger.CutOff :=
      bounded_issue_triple _ (fun _ _ => trivial) (fun _ _ ht => ht) (by simp)
    refine hask.post fun verdict r hr => ?_
    cases verdict with
    | none => exact ⟨hr.1, hr.2.1, fun _ => hr.2.2 (by simp)⟩
    | some reason => exact ⟨hr.1, hr.2.1, fun _ => hr.2.2 (by simp)⟩
  journalPromoted _ _ := journal_step _ (fun _ ht => edge_of_tail ht (by decide)) rfl (by simp)
  silent _ _ := journal_step _ (fun _ ht => edge_of_tail ht (by decide)) rfl (by simp)
  refused _ _ _ := journal_step _ (fun _ ht => edge_of_tail ht (by decide)) rfl (by simp)

/-- The journal is at rest and the engine holds the next number. -/
def Ledger.Open (r : Running (Ledger η)) : Prop := Ledger.At (.rest none) r

theorem ledgerSession (adversary : Adversary η) :
    SessionOutline adversary.engine (fun r => Disciplined r.world) Ledger.Open Disciplined where
  create _ hw := hw
  reopen _ hr := hr.1
  drop _ hr := hr.1
  recover := ledgerRecover.recover_triple.conseq (fun _ hr => ⟨hr, trivial, fun h => absurd rfl h⟩)
    (fun _ r ⟨ended, hr⟩ => ⟨hr.1, hr.2.1, fun _ => hr.2.2 (by simp)⟩) fun _ _ hr => hr
  upgrade version bytes := (ledgerUpgrade version bytes).upgrade_triple.post fun outcome r hr => by
    cases outcome with
    | promoted v => exact ⟨hr.2.1, hr.2.2.1, fun _ => hr.2.2.2 (by simp)⟩
    | rolledBack reason => exact ⟨hr.1, hr.2.1, fun _ => hr.2.2 (by simp)⟩
    | upToDate => exact ⟨hr.1, hr.2.1, fun _ => hr.2.2 (by simp)⟩

/-- Opening on the evidence of a settled receipt: the journal has to be at rest. -/
theorem observeSettled_ledger :
    Triple (fun r => Disciplined r.world) adversary.engine.observeSettled
      (fun _ => Ledger.Open) (fun _ r => Disciplined r.world) := by
  unfold Engine.observeSettled
  refine Triple.bind (readEntries_ledger disciplined_rest) fun entries => ?_
  cases hlast : entries.getLast? with
  | none =>
      refine Triple.modify fun r hr => ⟨hr.1, fun p hp => ?_, fun _ => by rw [hr.2]⟩
      have hnone : lastIntent r.world.journal = none := by rw [← hr.2, lastIntent, hlast]; rfl
      rw [hnone] at hp
      cases hp
  | some last =>
      cases hrest : last.intent.atRest with
      | false =>
          simp only [hrest, Bool.false_eq_true, if_false]
          exact Triple.throw fun _ hr => hr.1
      | true =>
          simp only [hrest, if_true]
          refine Triple.modify fun r hr => ⟨hr.1, fun p hp => ?_, fun _ => by rw [hr.2]⟩
          have hsome : lastIntent r.world.journal = some last.intent := by
            rw [← hr.2, lastIntent, hlast]
            rfl
          rw [hsome] at hp
          cases hp
          exact hrest

/-- The engines of a run, each with what it was opened by and asked for. -/
def Adversary.sessions (adversary : Adversary η) (engines : List (Opening × List EngineCall))
    (s : Ledger η) : Ledger η :=
  engines.foldl (fun s engine => adversary.engine.session engine.1 engine.2 s) s

theorem sessions_disciplined (engines : List (Opening × List EngineCall)) {s : Ledger η}
    (h : Disciplined s) : Disciplined (adversary.sessions engines s) := by
  unfold Adversary.sessions
  induction engines generalizing s with
  | nil => exact h
  | cons engine engines ih =>
      rw [List.foldl_cons]
      apply ih
      cases hopen : engine.1 with
      | recover => exact (ledgerSession adversary).session_invariant engine.2 s h
      | observeSettled =>
          have hopened : Triple (fun r => Disciplined r.world)
              (adversary.engine.opened .observeSettled) (fun _ => Ledger.Open)
              (fun _ r => Disciplined r.world) := observeSettled_ledger
          exact (ledgerSession adversary).session_of_opened hopened engine.2 s h

/-- **Write-ahead discipline**: against every environment, every sequence of engines
keeps the journal in the transition grammar, and issues every effect only under the
durable intent it is gated by. -/
theorem journal_discipline (adversary : Adversary η) (rest : η)
    (engines : List (Opening × List EngineCall)) :
    let after := adversary.sessions engines ⟨[], [], rest⟩
    Grammar after.journal ∧
      ∀ act journal, (act, journal) ∈ after.issued →
        Grammar journal ∧ Gated act (lastIntent journal) := by
  have hstart : Disciplined (⟨[], [], rest⟩ : Ledger η) := by
    refine ⟨trivial, fun i hi => ?_⟩
    cases hi
  have hafter : Disciplined (adversary.sessions engines ⟨[], [], rest⟩) :=
    sessions_disciplined engines hstart
  exact ⟨hafter.grammar, fun act journal hi => hafter.issued (act, journal) hi⟩

end Outline

end KCarrier
