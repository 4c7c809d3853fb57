import KCarrier.Runner.Books

/-!
# KCarrier.Runner.Journaled

What the engine of a runner makes of its journal.

Between two points of the engine the journal stays as it is (`Point.Quiet`) or gets one
entry (`Point.Writes`).  An assertion about journals at each point that follows these two
relations is an outline of recovery and of an upgrade (`Journaling`), whatever the slots and
the service do meanwhile.  Of recovery it is one as soon as it follows the entries recovery
writes.
-/

namespace KCarrier

open Crash
open Running

namespace Point

/-- The engine gets from a point to the next and journals nothing. -/
inductive Quiet (version : String) : Point → Point → Prop
  | fence (tail : Option Phase) : Quiet version (.opened tail) (.fenced tail)
  | empty : Quiet version (.fenced none) (.rest none)
  | idle : Quiet version (.fenced (some .idle)) (.rest none)
  | commit : Quiet version (.fenced (some .promoted)) .committed
  | redo : Quiet version (.fenced (some .rolledBack)) .rolling
  | promote : Quiet version .committed .published
  | settle : Quiet version .published (.rest (some .promoted))
  | stop : Quiet version .rolling .rollStopped
  | start : Quiet version .rollStopped .rollStarted
  | resume : Quiet version .rollStarted .restored
  | clear : Quiet version .restored (.rest (some .rolledBack))
  | survey (stable : String) : Quiet version (.rest none) (.surveyed stable)
  | probe (stable : String) (prior : Option Evidence) :
      Quiet version (.surveyed stable) (.probed stable prior)
  | stage (prior : Option Evidence) : Quiet version (.staged prior) (.prepared prior)
  | quiesce (prior : Option Evidence) : Quiet version (.handing prior) (.quiesced prior)
  | stopStable (prior : Option Evidence) : Quiet version (.quiesced prior) (.stopped prior)
  | startExperiment (prior : Option Evidence) : Quiet version (.stopped prior) (.started prior)
  | probeLive (prior : Option Evidence) (evidence : Evidence) :
      Quiet version (.running prior) (.live prior evidence)
  | replaced (prior : Option Evidence) (evidence : Evidence) :
      Quiet version (.readback prior evidence) (.fresh prior evidence)
  | accept (prior : Option Evidence) (evidence : Evidence) :
      Quiet version (.fresh prior evidence) (.accepted prior evidence)
  | refuse (prior : Option Evidence) (evidence : Evidence) :
      Quiet version (.fresh prior evidence) (.readback prior evidence)

/-- The engine gets from a point to the next and journals one intent. -/
inductive Writes (version : String) : Point → Phase → Detail → Point → Prop
  | withdraw (reason : String) :
      Writes version (.fenced (some .staged)) .rolledBack [("reason", reason)] .restored
  | abandon (tail : Phase) (reason : String)
      (h : tail = .handingOver ∨ tail = .runningExperiment ∨ tail = .readback) :
      Writes version (.fenced (some tail)) .rolledBack [("reason", reason)] .rolling
  | staged (stable : String) (prior : Option Evidence) :
      Writes version (.probed stable prior) .staged (Engine.upgradeDetail version) (.staged prior)
  | handingOver (prior : Option Evidence) :
      Writes version (.prepared prior) .handingOver (Engine.handoverDetail version prior)
        (.handing prior)
  | running (prior : Option Evidence) :
      Writes version (.started prior) .runningExperiment (Engine.upgradeDetail version)
        (.running prior)
  | readback (prior : Option Evidence) (evidence : Evidence) :
      Writes version (.live prior evidence) .readback (Engine.upgradeDetail version)
        (.readback prior evidence)
  | promoted (prior : Option Evidence) (evidence : Evidence) :
      Writes version (.accepted prior evidence) .promoted (Engine.upgradeDetail version) .committed
  | silent (prior : Option Evidence) (reason : String) :
      Writes version (.running prior) .rolledBack [("reason", reason)] .rolling
  | refused (prior : Option Evidence) (evidence : Evidence) (reason : String) :
      Writes version (.readback prior evidence) .rolledBack [("reason", reason)] .rolling

/-- What the last durable intent is at each point, with the one that closed a transaction. -/
def Ends (p : Point) (t : Option Phase) : Prop :=
  p.Tail t ∧ ∀ ended, p = .rest (some ended) → t = some ended

theorem Ends.quiet {version : String} {p q : Point} {t : Option Phase}
    (hquiet : Quiet version p q) (h : p.Ends t) : q.Ends t := by
  have htail := h.1
  cases hquiet <;> simp_all [Ends, Tail, Phase.atRest]

theorem Ends.writes {version : String} {p q : Point} {intent : Phase} {detail : Detail}
    (hwrites : Writes version p intent detail q) : q.Ends (some intent) := by
  cases hwrites <;> simp [Ends, Tail]

/-- The call of the host the engine issues at a point. -/
def issues : Point → Option String
  | .opened _ => some "fence"
  | .surveyed _ | .running _ => some "probe"
  | .handing _ => some "quiesce"
  | .quiesced _ | .rolling => some "stop"
  | .stopped _ | .rollStopped => some "start"
  | .published | .rollStarted => some "resume"
  | _ => none

end Point

/-- The journal can be read, and `J` holds of it. -/
def Journaled (J : List JournalEntry → Prop) (d : Disk) : Prop :=
  ∃ es, d.readJournal = .ok es ∧ J es

theorem journaled_offSlots (J : List JournalEntry → Prop) : FileStore.OffSlots (Journaled J) :=
  fun _ _ _ h => h

theorem Journaled.imp {J J' : List JournalEntry → Prop} {d : Disk} (h : Journaled J d)
    (hJ : ∀ es, J es → J' es) : Journaled J' d := by
  obtain ⟨es, hread, hes⟩ := h
  exact ⟨es, hread, hJ es hes⟩

theorem Journaled.congr {J : List JournalEntry → Prop} {d d' : Disk} (h : Journaled J d)
    (hjournal : d'.journal = d.journal) : Journaled J d' := by
  obtain ⟨es, hread, hes⟩ := h
  exact ⟨es, (Disk.readJournal_congr hjournal).trans hread, hes⟩

/-- The last transaction is over. -/
def AtRest (es : List JournalEntry) : Prop := ∀ p, lastIntent es = some p → p.atRest = true

/-- The journal is not about the records. -/
theorem journaled_offRecords {η γ : Type} (J : List JournalEntry → Prop) :
    OffRecords (fun w : World η γ => Journaled J w.disk) where
  quiet := ⟨fun _ _ h => h, fun _ _ _ h => h, fun _ _ h => h, fun _ _ h => h,
    fun _ _ hj _ _ _ h => h.congr hj⟩
  receipts := ⟨fun _ _ h => h, fun _ _ _ _ h => h⟩
  record _ _ h := h

/-- `A p` of the journal at each point, beside `I` of everything else, in an engine that journals
intents of the kind `N`. -/
structure Journaling {η γ : Type} (r : Runner η γ) (version : String) (N : Phase → Prop)
    (A : Point → List JournalEntry → Prop) (I : World η γ → Prop) : Prop where
  aside : Aside I
  product : ∀ w p, I w → I { w with product := p }
  observed : ∀ w o, I w → I { w with observed := o }
  fence : ∀ p, p.issues = some "fence" → Keeps (Over (Journaled (A p)) I) r.hosts.fence
  quiesce : ∀ p, p.issues = some "quiesce" → Keeps (Over (Journaled (A p)) I) r.hosts.quiesce
  stop : ∀ p slot, p.issues = some "stop" → Keeps (Over (Journaled (A p)) I) (r.hosts.stop slot)
  start : ∀ p slot, p.issues = some "start" → Keeps (Over (Journaled (A p)) I) (r.hosts.start slot)
  probe : ∀ p, p.issues = some "probe" → Keeps (Over (Journaled (A p)) I) r.hosts.probe
  resume : ∀ p, p.issues = some "resume" → Keeps (Over (Journaled (A p)) I) r.hosts.resume
  opened : ∀ es, A .entry es → A (.opened (lastIntent es)) es
  quiet : ∀ p q es, Point.Quiet version p q → A p es → A q es
  writes : ∀ p intent detail q es seq now, N intent → Point.Writes version p intent detail q →
    A p es → A q (es ++ [Engine.entryOf seq now intent detail])

namespace Journaling

variable {η γ β : Type} {r : Runner η γ} {c : Convergence (World η γ)} {version : String}
  {N : Phase → Prop} {A : Point → List JournalEntry → Prop} {I : World η γ → Prop} {p q : Point}

/-- The assertion at a point. -/
def At (A : Point → List JournalEntry → Prop) (I : World η γ → Prop) (p : Point)
    (s : Running (World η γ)) : Prop := Over (Journaled (A p)) I s.world

/-- Somewhere in a call. -/
def Within (A : Point → List JournalEntry → Prop) (I : World η γ → Prop) (w : World η γ) : Prop :=
  Over (Journaled fun es => ∃ p, A p es) I w

theorem within {w : World η γ} (h : Over (Journaled (A p)) I w) : Within A I w :=
  ⟨h.1.imp fun _ hes => ⟨p, hes⟩, h.2⟩

theorem move (h : Journaling r version N A I) (hquiet : Point.Quiet version p q) {w : World η γ}
    (hw : Over (Journaled (A p)) I w) : Over (Journaled (A q)) I w :=
  ⟨hw.1.imp fun es => h.quiet p q es hquiet, hw.2⟩

/-- A step that journals nothing, between two points. -/
theorem step (h : Journaling r version N A I) (hquiet : Point.Quiet version p q)
    {m : Prog Error (World η γ) β} (hm : Keeps (Over (Journaled (A p)) I) m) :
    Triple (At A I p) (lift m) (fun _ => At A I q) (fun _ => OnWorld (Within A I)) :=
  Triple.zoom fun s hs => (hm s.world hs).mono (fun _ _ hw => h.move hquiet hw)
    fun _ _ hw => within hw

/-- A host call between two points. -/
theorem callStep (h : Journaling r version N A I) {label : String} {call : HostCall (World η γ) β}
    (hcall : Keeps (Over (Journaled (A p)) I) call) (hquiet : Point.Quiet version p q) :
    Triple (At A I p) (Engine.bounded label call) (fun _ => At A I q)
      (fun _ => OnWorld (Within A I)) :=
  (Keeps.bounded hcall).conseq (fun _ hs => hs) (fun _ _ hs => h.move hquiet hs)
    fun _ _ hs => within hs

/-- An intent between two points. -/
theorem journalStep (h : Journaling r version N A I) {intent : Phase} {detail : Detail}
    (hN : N intent) (hwrites : Point.Writes version p intent detail q) :
    Triple (At A I p) ((r.engine c).journal intent detail) (fun _ => At A I q)
      (fun _ => OnWorld (Within A I)) := by
  unfold Engine.journal
  refine Triple.get_bind fun s ⟨⟨es, hread, hes⟩, hI⟩ => ?_
  let entry := Engine.entryOf s.seq ((r.engine c).now s.world) intent detail
  have hnext : A q (es ++ [entry]) := h.writes p intent detail q es _ _ hN hwrites hes
  have happend : Triple (Over (fun d => d.readJournal = .ok es ∧ True) I) (r.store.append entry)
      (fun _ => Over (Journaled (A q)) I) (fun _ => Within A I) := by
    refine (FileStore.append_triple (fun _ => trivial : _ → True) h.aside (fun _ _ _ => trivial)
      (.inr trivial)).conseq (fun _ hw => hw) (fun _ w hw => ⟨⟨_, hw.1.1, hnext⟩, hw.2⟩)
      fun _ w hw => ?_
    rcases hw.1.1.1 with hj | hj
    · exact ⟨⟨es, hj, p, hes⟩, hw.1.2⟩
    · exact ⟨⟨_, hj, q, hnext⟩, hw.1.2⟩
  refine Triple.bind (R := fun _ => At A I q) ?_ fun _ => Triple.modify fun _ hs => hs
  refine Triple.zoom fun s' hs' => ?_
  rw [hs']
  exact (happend s.world ⟨⟨hread, trivial⟩, hI⟩).mono (fun _ _ hw => hw) fun _ _ hw => hw

/-- What a host does is not about the journal: the assertions only have to follow it. -/
theorem of_remote (hI : Remote I) (hopened : ∀ es, A .entry es → A (.opened (lastIntent es)) es)
    (hquiet : ∀ p q es, Point.Quiet version p q → A p es → A q es)
    (hwrites : ∀ p intent detail q es seq now, N intent → Point.Writes version p intent detail q →
      A p es → A q (es ++ [Engine.entryOf seq now intent detail])) :
    Journaling r version N A I where
  aside := hI.aside
  product := hI.product
  observed := hI.observed
  fence _ _ := Runner.hostCall_keeps hI _ _
  quiesce _ _ := Runner.hostCall_keeps hI _ _
  stop _ _ _ := Runner.hostCall_keeps hI _ _
  start _ _ _ := Runner.hostCall_keeps hI _ _
  probe _ _ := Runner.hostCall_keeps hI _ _
  resume _ _ := Runner.hostCall_keeps hI _ _
  opened := hopened
  quiet := hquiet
  writes := hwrites

variable (h : Journaling r version N A I)

include h

theorem rollbackOutline : RollbackOutline (r.engine c) (At A I) (fun _ => OnWorld (Within A I)) where
  stop := h.callStep (h.stop _ _ rfl) .stop
  start := h.callStep (h.start _ _ rfl) .start
  resumed := h.callStep (h.resume _ rfl) .resume
  clear := h.step .clear (FileStore.removeDir_keeps h.aside (journaled_offSlots _) .experiment)

theorem commitOutline : CommitOutline (r.engine c) (At A I) (fun _ => OnWorld (Within A I)) where
  promote := h.step .promote (FileStore.promote_keeps h.aside (journaled_offSlots _))
  resume := h.callStep (h.resume _ rfl) .settle

/-- **Recovery**, by its journal. -/
theorem recoverOutline (hN : N .rolledBack) :
    RecoverOutline (r.engine c) (At A I) (fun _ => OnWorld (Within A I)) where
  toRollbackOutline := h.rollbackOutline
  toCommitOutline := h.commitOutline
  read := by
    refine Runner.readEntries_triple (P := Over (Journaled (A .entry)) I) (fun es s hs hread => ?_)
      fun e s hs hread => within hs
    obtain ⟨⟨es', hread', hes⟩, hI⟩ := hs
    rw [hread, Except.ok.injEq] at hread'
    subst hread'
    exact ⟨⟨es, hread, h.opened es hes⟩, hI⟩
  fence tail := h.callStep (h.fence _ rfl) (.fence tail)
  idle _ hs := hs.elim (h.move .empty) (h.move .idle)
  commit _ hs := h.move .commit hs
  redo _ hs := h.move .redo hs
  withdraw reason := h.journalStep hN (.withdraw reason)
  abandon tail reason htail := h.journalStep hN (.abandon tail reason htail)

/-- A probe that failed for certain goes on. -/
theorem probe_triple (hissues : p.issues = some "probe") {failed : Running (World η γ) → Prop}
    {Q : Evidence → Running (World η γ) → Prop} (hQ : ∀ evidence s, At A I p s → Q evidence s)
    (hfailed : ∀ s, At A I p s → failed s) :
    Triple (At A I p) (Engine.bounded "probe" r.hosts.probe) Q
      (probeFailed failed (fun _ => OnWorld (Within A I))) := by
  refine (Keeps.bounded (h.probe p hissues)).conseq (fun _ hs => hs) hQ fun err s hs => ?_
  cases err with
  | none => exact within hs
  | some err =>
      cases hu : err.isUncertain with
      | true =>
          simp only [probeFailed, hu, if_true]
          exact within hs
      | false =>
          simp only [probeFailed, hu]
          exact hfailed s hs

/-- **An upgrade**, by its journal. -/
theorem upgradeOutline (hN : ∀ intent, N intent) (hc : Runner.ReadsProduct c) (bytes : Path) :
    UpgradeOutline (r.engine c) version bytes (At A I) (fun _ => OnWorld (Within A I)) where
  toRollbackOutline := h.rollbackOutline
  toCommitOutline := h.commitOutline
  survey := by
    refine Triple.zoom fun s hs => ?_
    refine ((FileStore.readDisk_keeps : Keeps (Over (Journaled (A (.rest none))) I) _)
      s.world hs).mono (fun versions w hw => ?_) fun _ _ hw => within hw
    cases stableOf versions with
    | none => exact within hw
    | some stable => exact h.move (.survey stable) hw
  probe stable _ := h.probe_triple rfl (fun evidence _ hs => h.move (.probe stable (some evidence)) hs)
    fun _ hs => h.move (.probe stable none) hs
  journalStaged stable prior _ := h.journalStep (hN _) (.staged stable prior)
  stage prior := h.step (.stage prior) (FileStore.stage_keeps h.aside (journaled_offSlots _) _ _)
  journalHandingOver prior := h.journalStep (hN _) (.handingOver prior)
  quiesce prior := h.callStep (h.quiesce _ rfl) (.quiesce prior)
  stopStable prior := h.callStep (h.stop _ _ rfl) (.stopStable prior)
  startExperiment prior := h.callStep (h.start _ _ rfl) (.startExperiment prior)
  journalRunning prior := h.journalStep (hN _) (.running prior)
  probeLive prior := h.probe_triple rfl (fun evidence _ hs => h.move (.probeLive prior evidence) hs)
    fun _ hs => hs
  journalReadback prior evidence := h.journalStep (hN _) (.readback prior evidence)
  replaced prior evidence _ _ hs := h.move (.replaced prior evidence) hs
  evaluate prior evidence := by
    have hkeeps : Keeps (Over (Journaled (A (.fresh prior evidence))) I)
        ((r.engine c).predicates.evaluate evidence version) :=
      Runner.evaluate_keeps (fun w p hw => ⟨hw.1, h.product w p hw.2⟩)
        (fun w o hw => ⟨hw.1, h.observed w o hw.2⟩) hc evidence version
    refine (Keeps.bounded hkeeps).conseq (fun _ hs => hs) (fun verdict s hs => ?_)
      fun _ _ hs => within hs
    cases verdict with
    | some reason => exact h.move (.refuse prior evidence) hs
    | none => exact h.move (.accept prior evidence) hs
  journalPromoted prior evidence := h.journalStep (hN _) (.promoted prior evidence)
  silent prior reason := h.journalStep (hN _) (.silent prior reason)
  refused prior evidence reason := h.journalStep (hN _) (.refused prior evidence reason)

end Journaling

namespace Runner

variable {η γ : Type} {r : Runner η γ} {c : Convergence (World η γ)}

/-- **Recovery** journals nothing but that it rolls back, and ends at rest. -/
theorem recover_journaled {J : List JournalEntry → Prop}
    (hJ : ∀ es seq now detail, J es → J (es ++ [Engine.entryOf seq now .rolledBack detail])) :
    Triple (OnWorld fun w : World η γ => Journaled J w.disk) (r.engine c).recover
      (fun _ => OnWorld fun w => Journaled (fun es => J es ∧ AtRest es) w.disk)
      (fun _ => OnWorld fun w => Journaled J w.disk) := by
  have hjournaling : Journaling r "" (· = .rolledBack)
      (fun p es => J es ∧ p.Ends (lastIntent es)) fun _ => True :=
    .of_remote remote_true (fun _ h => ⟨h.1, rfl, fun _ h => by cases h⟩)
      (fun _ _ _ hquiet h => ⟨h.1, h.2.quiet hquiet⟩)
      fun _ _ _ _ _ _ _ hback hwrites h => by
        cases hback
        rw [lastIntent_concat]
        exact ⟨hJ _ _ _ _ h.1, Point.Ends.writes hwrites⟩
  refine (hjournaling.recoverOutline rfl).recover_triple.conseq (fun s h => ?_)
    (fun _ s ⟨ended, h⟩ => h.1.imp fun _ h => ⟨h.1, h.2.1⟩)
    fun _ _ h => h.1.imp fun _ ⟨_, h⟩ => h.1
  exact ⟨h.imp fun _ h => ⟨h, trivial, fun _ h => by cases h⟩, trivial⟩

/-- **An upgrade** of a journal at rest leaves one at rest when it returns, and one that can be
read wherever it is cut off. -/
theorem upgrade_journaled (hc : ReadsProduct c) (version : String) (bytes : Path) :
    Triple (OnWorld fun w : World η γ => Journaled AtRest w.disk)
      ((r.engine c).upgrade version bytes) (fun _ => OnWorld fun w => Journaled AtRest w.disk)
      (fun _ => OnWorld fun w => Journaled (fun _ => True) w.disk) := by
  have hjournaling : Journaling r version (fun _ => True) (fun p es => p.Ends (lastIntent es))
      fun _ => True :=
    .of_remote remote_true (fun _ _ => ⟨rfl, fun _ h => by cases h⟩)
      (fun _ _ _ hquiet h => h.quiet hquiet) fun _ _ _ _ _ _ _ _ hwrites _ => by
        rw [lastIntent_concat]
        exact Point.Ends.writes hwrites
  have hrests : ∀ {t : Option Phase} {w : World η γ},
      Over (Journaled fun es => (Point.rest t).Ends (lastIntent es)) (fun _ => True) w →
      Journaled AtRest w.disk := fun h => h.1.imp fun _ h => h.1
  refine (hjournaling.upgradeOutline (fun _ => trivial) hc bytes).upgrade_triple.conseq (fun s h => ?_)
    (fun outcome s h => ?_) fun _ _ h => h.1.imp fun _ _ => trivial
  · exact ⟨h.imp fun _ h => ⟨h, fun _ h => by cases h⟩, trivial⟩
  · cases outcome with
    | promoted v => exact hrests h.2
    | rolledBack reason => exact hrests h
    | upToDate => exact h.1.imp fun _ h => h.1

end Runner

end KCarrier
