import KCarrier.Engine.Outline
import KCarrier.Report

/-!
# KCarrier.Engine.Promotion

Promotion is earned by live evidence.

Host, effects and surfaces are arbitrary programs here; `watched` is the engine
over them with a log of what it was told (`Event`).  `promotion_earned` reads the
log of one upgrade call: before a promoted intent is handed to the journal, the
same call saw the candidate start, was shown evidence by a probe after that start,
and had the predicate accept that evidence (`Earned`), and the report of the
predicate says so (`Reported`).
-/

namespace KCarrier

open Crash
open Running

/-! ## the watched engine -/

/-- What a watched engine hands to the journal, and what it is told. -/
inductive Event where
  /-- the entry was handed to the journal, whatever came of it -/
  | append (entry : JournalEntry)
  /-- a start returned -/
  | started (slot : Slot)
  /-- a probe returned evidence -/
  | probed (evidence : Evidence)
  /-- a surface returned a value -/
  | read (id value : String)
  /-- the predicate accepted -/
  | accepted (evidence : Evidence) (target : String)
deriving DecidableEq, Repr

/-- The world and the log of a watched engine. -/
structure Watched (σ : Type) where
  world : σ
  log : List Event

variable {σ : Type}

namespace Watched

def onWorld {α : Type} (m : Prog Error σ α) : Prog Error (Watched σ) α :=
  Prog.zoom Watched.world (fun w s => { s with world := w }) m

def note (event : Event) : Prog Error (Watched σ) Unit :=
  Prog.modify fun s => { s with log := s.log ++ [event] }

/-- A host call that is noted when it returned within its budget. -/
def noted {α : Type} (event : α → Event) (call : Prog Error σ (Option α)) :
    Prog Error (Watched σ) (Option α) := do
  match ← onWorld call with
  | some a => do
      note (event a)
      pure (some a)
  | none => pure none

end Watched

open Watched

/-- A surface whose reads are noted. -/
def ReadbackSurface.watched (surface : ReadbackSurface σ) : ReadbackSurface (Watched σ) where
  id := surface.id
  read := noted (fun reply => .read surface.id reply.1) surface.read

def Convergence.watched (c : Convergence σ) : Convergence (Watched σ) where
  surfaces := c.surfaces.map ReadbackSurface.watched
  expectedTarget := c.expectedTarget
  clock s := c.clock s.world

/-- The predicates an engine may be given: the two of the library, or any other. -/
inductive Judge (σ : Type) where
  | version
  | convergence (c : Convergence σ)
  | custom (predicates : Predicates σ)

/-- The state of a watched engine: world and log, and the cell of its predicate. -/
abbrev Scene (σ : Type) : Type := Watched σ × Observed

def Judge.evaluate (self : Nat) (evidence : Evidence) (target : String) :
    Judge σ → Prog Error (Scene σ) (Option (Option String))
  | .version => do
      let verdict ← Prog.ofExcept (VersionPredicate.evaluate self evidence target)
      pure (some verdict)
  | .convergence c => c.watched.evaluate self evidence target
  | .custom predicates => Convergence.world (onWorld (predicates.evaluate evidence target))

/-- The verdict, noted when it accepts. -/
def Judge.noted (self : Nat) (judge : Judge σ) (evidence : Evidence) (target : String) :
    Prog Error (Scene σ) (Option (Option String)) := do
  match ← judge.evaluate self evidence target with
  | some none => do
      Convergence.world (note (.accepted evidence target))
      pure (some none)
  | verdict => pure verdict

/-- The environment of a watched engine. -/
structure Surroundings (σ : Type) where
  effects : Effects σ
  host : Host σ
  judge : Judge σ
  now : σ → Nat
  self : Nat

namespace Surroundings

def call {α : Type} (m : Prog Error σ α) : Prog Error (Scene σ) α :=
  Convergence.world (onWorld m)

def watched (env : Surroundings σ) : Engine (Scene σ) where
  effects :=
    { readJournal := call env.effects.readJournal
      append := fun entry => do
        Convergence.world (note (.append entry))
        call (env.effects.append entry)
      versions := call env.effects.versions
      stage := fun version bytes => call (env.effects.stage version bytes)
      promote := call env.effects.promote
      clear := call env.effects.clear }
  host :=
    { fence := call env.host.fence
      quiesce := call env.host.quiesce
      stop := fun slot => call (env.host.stop slot)
      start := fun slot =>
        Convergence.world (Watched.noted (fun _ => .started slot) (env.host.start slot))
      probe := Convergence.world (Watched.noted .probed env.host.probe)
      resume := call env.host.resume }
  predicates := { evaluate := env.judge.noted env.self }
  now s := env.now s.1.world

/-- The states of a predicate and the engines that use it, one after the other, in
a world that may change between two calls. -/
inductive Reached (env : Surroundings σ) : Running (Scene σ) → Prop
  | new (w : σ) : Reached env ⟨(⟨w, []⟩, Observed.new), 0⟩
  | engine {r : Running (Scene σ)} : Reached env r → Reached env ⟨r.world, 0⟩
  | world {r : Running (Scene σ)} (w : σ) : Reached env r →
      Reached env ⟨(⟨w, r.world.1.log⟩, r.world.2), r.seq⟩
  | opened {r : Running (Scene σ)} (opening : Opening) : Reached env r →
      Reached env (env.watched.opened opening r).2
  | called {r : Running (Scene σ)} (c : EngineCall) : Reached env r →
      Reached env (env.watched.call c r).2

end Surroundings

/-! ## what a promotion takes -/

/-- The library's predicates accept only evidence that validates and reports the
target. -/
def Judge.Accepts (self : Nat) (judge : Judge σ) (evidence : Evidence) (target : String) : Prop :=
  match judge with
  | .custom _ => True
  | .version | .convergence _ => evidence.validate self = .ok () ∧ evidence.version = target

/-- Every surface of the list was read in `reads` and showed the expected target. -/
def Convergence.Shown (c : Convergence σ) (surfaces : List (ReadbackSurface σ))
    (reads : List Event) : Prop :=
  ∀ surface ∈ surfaces, ∃ value, .read surface.id value ∈ reads ∧
    contains value c.expectedTarget = true

/-- Every declared surface was read and showed the expected target. -/
def Judge.SurfacesRead (judge : Judge σ) (log : List Event) : Prop :=
  match judge with
  | .convergence c => c.Shown c.surfaces log
  | .version | .custom _ => True

/-- What the report of a convergence predicate says about a promotion on `evidence`. -/
def Judge.Reported (judge : Judge σ) (target : String) (evidence : Evidence)
    (s : Scene σ) : Prop :=
  match judge with
  | .convergence c =>
      s.2.evidence = some evidence ∧
      (c.watched.report target s).binaryAtTarget.passed = true ∧
      (c.watched.report target s).binaryAtTarget.detail =
        [("version", evidence.version), ("pid", toString evidence.pid),
          ("startId", evidence.startId)] ∧
      (c.surfaces = [] → (c.watched.report target s).hostLifecycleConverged = none) ∧
      (c.surfaces ≠ [] → ∃ lifecycle,
        (c.watched.report target s).hostLifecycleConverged = some lifecycle ∧
          lifecycle.passed = true)
  | .version | .custom _ => True

/-- The log of an upgrade call up to a promoted intent: the staged intent, a return
of the candidate's start, evidence of a later probe, its acceptance.  `before` is
what was logged before the handover. -/
def Earned (env : Surroundings σ) (target : String) (evidence : Evidence)
    (log : List Event) : Prop :=
  ∃ before staged handover launch reads rest,
    log = before ++ .append staged :: handover ++ .started .experiment :: launch ++
      .probed evidence :: reads ++ .accepted evidence target :: rest ∧
    staged.intent = .staged ∧
    (∀ prior, .probed prior ∈ before → prior.startId ≠ evidence.startId) ∧
    env.judge.Accepts env.self evidence target ∧
    env.judge.SurfacesRead reads

/-! ## logs that grow -/

/-- `ev` was logged after a log of `P`. -/
def After (P : List Event → Prop) (ev : Event) (log : List Event) : Prop :=
  ∃ before rest, log = before ++ ev :: rest ∧ P before

/-- An event comes after what was logged before it. -/
theorem After.now {P : List Event → Prop} {log : List Event} (h : P log) (ev : Event) :
    After P ev (log ++ [ev]) :=
  ⟨log, [], rfl, h⟩

/-- It does however the log goes on. -/
theorem After.append {P : List Event → Prop} {ev : Event} {log : List Event}
    (h : After P ev log) (more : List Event) : After P ev (log ++ more) := by
  obtain ⟨before, rest, hlog, hp⟩ := h
  exact ⟨before, rest ++ more, by rw [hlog, List.append_assoc, List.cons_append], hp⟩

/-- No promoted intent was handed to the journal. -/
def Quiet (log : List Event) : Prop := ∀ entry, .append entry ∈ log → entry.intent ≠ .promoted

/-- Two stretches without a promotion. -/
theorem Quiet.append {log more : List Event} (h : Quiet log) (hm : Quiet more) :
    Quiet (log ++ more) := by
  intro entry he
  rw [List.mem_append] at he
  cases he with
  | inl he => exact h entry he
  | inr he => exact hm entry he

/-- One event, when it is no promoted intent. -/
theorem quiet_singleton {ev : Event}
    (h : ∀ entry, ev = .append entry → entry.intent ≠ .promoted) : Quiet [ev] := by
  intro entry he
  rw [List.mem_singleton] at he
  exact h entry he.symm

/-- The probes of `log` are accounted for by `prior`. -/
def Surveyed (prior : Option Evidence) (log : List Event) : Prop :=
  ∀ p, .probed p ∈ log → prior = some p

/-- The staged intent was handed to the journal after those probes. -/
def Approached (prior : Option Evidence) (log : List Event) : Prop :=
  ∃ staged, staged.intent = .staged ∧ After (Surveyed prior) (.append staged) log

def Launched (prior : Option Evidence) : List Event → Prop :=
  After (Approached prior) (.started .experiment)

def Answered (prior : Option Evidence) (evidence : Evidence) : List Event → Prop :=
  After (Launched prior) (.probed evidence)

/-- An approach stays one however the log goes on. -/
theorem Approached.append {prior : Option Evidence} {log : List Event} (h : Approached prior log)
    (more : List Event) : Approached prior (log ++ more) := by
  obtain ⟨staged, hs, ha⟩ := h
  exact ⟨staged, hs, ha.append more⟩

/-- The log of surface reads. -/
def OnlyReads (log : List Event) : Prop := ∀ ev ∈ log, ∃ id value, ev = .read id value

/-- A log of readings promotes nothing. -/
theorem OnlyReads.quiet {log : List Event} (h : OnlyReads log) : Quiet log := by
  intro entry he
  obtain ⟨id, value, hev⟩ := h _ he
  cases hev

/-- The predicate's cell shows the acceptance of `evidence`. -/
def Judge.Saw (judge : Judge σ) (target : String) (evidence : Evidence) (o : Observed) : Prop :=
  match judge with
  | .convergence c =>
      o.evidence = some evidence ∧ evidence.version = target ∧
      (c.surfaces = [] → o.lifecycle = none) ∧
      (c.surfaces ≠ [] → ∃ lifecycle, o.lifecycle = some lifecycle ∧ lifecycle.passed = true)
  | .version | .custom _ => True

/-- Without surfaces there is never a lifecycle verdict. -/
def Judge.Blank (judge : Judge σ) (o : Observed) : Prop :=
  match judge with
  | .convergence c => c.surfaces = [] → o.lifecycle = none
  | .version | .custom _ => True

/-- What the judge saw is what it reports. -/
theorem Judge.Saw.reported {judge : Judge σ} {target : String} {evidence : Evidence}
    {s : Scene σ} (h : judge.Saw target evidence s.2) : judge.Reported target evidence s := by
  cases judge with
  | version => trivial
  | custom predicates => trivial
  | convergence c =>
      obtain ⟨he, hv, hnone, hsome⟩ := h
      refine ⟨he, ?_, ?_, ?_, ?_⟩
      · simp [Convergence.report, he, hv]
      · simp [Convergence.report, he]
      · intro hc
        simp [Convergence.report, hnone hc, Convergence.watched, hc]
      · intro hc
        obtain ⟨lifecycle, hl, hp⟩ := hsome hc
        exact ⟨lifecycle, by simp [Convergence.report, hl], hp⟩

/-- Every promoted intent of the log was earned before it. -/
def Promised (env : Surroundings σ) (target : String) (log : List Event) (o : Observed) : Prop :=
  ∀ before entry rest, log = before ++ .append entry :: rest → entry.intent = .promoted →
    ∃ evidence, Earned env target evidence before ∧ env.judge.Saw target evidence o

/-- Where nothing was promoted the promise is kept. -/
theorem Quiet.promised {env : Surroundings σ} {target : String} {log : List Event} {o : Observed}
    (h : Quiet log) : Promised env target log o := by
  intro before entry rest hlog hp
  have hmem : .append entry ∈ log := by simp [hlog]
  exact absurd hp (h entry hmem)

/-- A log that goes on quietly promises what it did. -/
theorem Promised.append {env : Surroundings σ} {target : String} {log more : List Event}
    {o : Observed} (h : Promised env target log o) (hm : Quiet more) :
    Promised env target (log ++ more) o := by
  intro before entry rest hlog hp
  rw [List.append_eq_append_iff] at hlog
  rcases hlog with ⟨mid, -, hmore⟩ | ⟨mid, hbefore, hmid⟩
  · have hmem : .append entry ∈ more := by simp [hmore]
    exact absurd hp (hm entry hmem)
  · cases mid with
    | nil =>
        have hmore : more = .append entry :: rest := hmid.symm
        have hmem : .append entry ∈ more := by simp [hmore]
        exact absurd hp (hm entry hmem)
    | cons ev mid =>
        have hev : ev = .append entry := (List.cons.inj hmid).1.symm
        exact h before entry mid (by rw [hbefore, hev]) hp

/-- The promoted intent itself, journaled once it was earned. -/
theorem Promised.of_earned {env : Surroundings σ} {target : String} {log : List Event}
    {o : Observed} {evidence : Evidence} (hq : Quiet log) (he : Earned env target evidence log)
    (hs : env.judge.Saw target evidence o) (entry : JournalEntry) :
    Promised env target (log ++ [.append entry]) o := by
  intro before entry' rest hlog hp
  rcases List.eq_nil_or_concat rest with hrest | ⟨rest', ev, hrest⟩
  · subst hrest
    have hbefore : log = before := (List.append_inj' hlog rfl).1
    exact ⟨evidence, hbefore ▸ he, hs⟩
  · subst hrest
    rw [List.concat_eq_append, ← List.cons_append, ← List.append_assoc] at hlog
    have hlog' : log = before ++ .append entry' :: rest' := (List.append_inj' hlog rfl).1
    have hmem : .append entry' ∈ log := by simp [hlog']
    exact absurd hp (hq entry' hmem)

/-! ## what the calls log -/

/-- `P` of the log since `log₀`, and of the predicate's cell. -/
def Since (log₀ : List Event) (P : List Event → Observed → Prop) (s : Scene σ) : Prop :=
  ∃ log, s.1.log = log₀ ++ log ∧ P log s.2

section Calls

variable {env : Surroundings σ} {log₀ : List Event} {P : List Event → Observed → Prop}

/-- The log since the start, with one event more. -/
theorem Since.log {s : Scene σ} {log : List Event} {ev : Event} (hs : s.1.log = log₀ ++ log) :
    s.1.log ++ [ev] = log₀ ++ (log ++ [ev]) := by
  rw [hs, List.append_assoc]

/-- A call that is not noted. -/
theorem call_keeps {α : Type} (m : Prog Error σ α) :
    Keeps (Since log₀ P) (Surroundings.call m) := by
  unfold Surroundings.call
  refine Triple.zoom fun s hs => ?_
  simp only [onWorld, Prog.zoom]
  generalize m s.1.world = o
  obtain ⟨o, w⟩ := o
  cases o with
  | ok a => exact hs
  | err e => exact hs
  | crash => exact hs

/-- An event is noted. -/
theorem note_triple {Q : List Event → Observed → Prop} (ev : Event)
    (h : ∀ log o, P log o → Q (log ++ [ev]) o) :
    Triple (Since log₀ P) (Convergence.world (note ev) : Prog Error (Scene σ) Unit)
      (fun _ => Since log₀ Q) (fun _ => Since log₀ P) := by
  refine Triple.zoom fun s hs => ?_
  obtain ⟨log, hlog, hp⟩ := hs
  exact ⟨log ++ [ev], Since.log hlog, h log s.2 hp⟩

/-- A call that is noted when it returned. -/
theorem noted_triple {α : Type} {Q : α → List Event → Observed → Prop} (event : α → Event)
    (m : Prog Error σ (Option α)) (h : ∀ a log o, P log o → Q a (log ++ [event a]) o) :
    Triple (Since log₀ P) (Convergence.world (Watched.noted event m))
      (fun reply => match reply with
        | some a => Since log₀ (Q a)
        | none => Since log₀ P)
      (fun _ => Since log₀ P) := by
  refine Triple.zoom fun s hs => ?_
  obtain ⟨log, hlog, hp⟩ := hs
  simp only [Watched.noted, onWorld, Prog.zoom, Prog.bind_run]
  generalize m s.1.world = o
  obtain ⟨o, w⟩ := o
  cases o with
  | ok reply =>
      cases reply with
      | some a => exact ⟨log ++ [event a], Since.log hlog, h a log s.2 hp⟩
      | none => exact ⟨log, hlog, hp⟩
  | err e => exact ⟨log, hlog, hp⟩
  | crash => exact ⟨log, hlog, hp⟩

/-- A call within its budget, which logs what it did. -/
theorem bounded_triple {α : Type} {Q : α → List Event → Observed → Prop} {label : String}
    {call : Prog Error (Scene σ) (Option α)}
    (h : Triple (Since log₀ P) call
      (fun reply => match reply with
        | some a => Since log₀ (Q a)
        | none => Since log₀ P)
      (fun _ => Since log₀ P)) :
    Triple (OnWorld (Since log₀ P)) (Engine.bounded label call)
      (fun a => OnWorld (Since log₀ (Q a))) (fun _ => OnWorld (Since log₀ P)) := by
  unfold Engine.bounded
  refine Triple.bind (R := fun reply => OnWorld (match reply with
    | some a => Since log₀ (Q a)
    | none => Since log₀ P)) ?_ fun reply => ?_
  · refine Triple.zoom fun r hr => (h r.world hr).mono (fun reply s hs => ?_) fun _ _ hs => hs
    cases reply with
    | some a => exact hs
    | none => exact hs
  · cases reply with
    | some a => exact Triple.pure fun _ hs => hs
    | none => exact Triple.throw fun _ hs => hs

/-- Handing an entry to the journal logs it, whatever comes of it. -/
theorem journal_logged {Q : List Event → Observed → Prop} (intent : Phase) (detail : Detail)
    (h : ∀ entry log o, entry.intent = intent → P log o → Q (log ++ [.append entry]) o) :
    Triple (OnWorld (Since log₀ P)) (env.watched.journal intent detail)
      (fun _ => OnWorld (Since log₀ Q))
      (fun _ s => OnWorld (Since log₀ P) s ∨ OnWorld (Since log₀ Q) s) := by
  unfold Engine.journal
  refine Triple.bind (R := fun _ => OnWorld (Since log₀ P)) (Triple.get fun _ hs => hs) fun r => ?_
  refine Triple.bind (R := fun _ => OnWorld (Since log₀ Q)) ?_ fun _ =>
    Triple.modify fun _ hs => hs
  refine Triple.zoom fun s hs => ?_
  have hnote : Triple (Since log₀ P)
      (Convergence.world (note (.append
        (Engine.entryOf r.seq (env.watched.now r.world) intent detail))) : Prog Error (Scene σ) Unit)
      (fun _ => Since log₀ Q) (fun _ t => Since log₀ P t ∨ Since log₀ Q t) :=
    (note_triple _ fun log o hp => h _ log o rfl hp).conseq (fun _ ht => ht) (fun _ _ ht => ht)
      fun _ _ ht => .inl ht
  have happend : ∀ entry, Triple (Since log₀ Q) (Surroundings.call (env.effects.append entry))
      (fun _ => Since log₀ Q) (fun _ t => Since log₀ P t ∨ Since log₀ Q t) := fun entry =>
    (call_keeps (env.effects.append entry)).conseq (fun _ ht => ht) (fun _ _ ht => ht)
      fun _ _ ht => .inr ht
  exact Triple.bind hnote (fun _ => happend _) s.world hs

end Calls

/-! ## what a verdict logs -/

/-- The log went on with surface reads, and a cell without a lifecycle verdict stayed
so where no surface is declared. -/
def Judge.Looked (judge : Judge σ) (log₁ : List Event) (o₁ : Observed) (s : Scene σ)
    (reads : List Event) : Prop :=
  s.1.log = log₁ ++ reads ∧ OnlyReads reads ∧ (judge.Blank o₁ → judge.Blank s.2)

/-- What an acceptance adds. -/
def Judge.Approves (self : Nat) (judge : Judge σ) (evidence : Evidence) (target : String)
    (o₁ : Observed) (s : Scene σ) (reads : List Event) : Prop :=
  judge.Accepts self evidence target ∧ judge.SurfacesRead reads ∧
    (judge.Blank o₁ → judge.Saw target evidence s.2)

theorem onlyReads_nil : OnlyReads [] := by
  intro ev h
  cases h

/-- One reading more. -/
theorem OnlyReads.cons {log : List Event} (h : OnlyReads log) (id value : String) :
    OnlyReads (.read id value :: log) := by
  intro ev hev
  rw [List.mem_cons] at hev
  cases hev with
  | inl hev => exact ⟨id, value, hev⟩
  | inr hev => exact h ev hev

/-- One surface more shows the target. -/
theorem Convergence.Shown.cons {c : Convergence σ} {surfaces : List (ReadbackSurface σ)}
    {reads : List Event} (h : c.Shown surfaces reads) {surface : ReadbackSurface σ}
    {value : String} (hv : contains value c.expectedTarget = true) :
    c.Shown (surface :: surfaces) (.read surface.id value :: reads) := by
  intro surface' hs
  rw [List.mem_cons] at hs
  cases hs with
  | inl hs =>
      subst hs
      exact ⟨value, List.mem_cons_self, hv⟩
  | inr hs =>
      obtain ⟨value', hr, hv'⟩ := h surface' hs
      exact ⟨value', List.mem_cons_of_mem _ hr, hv'⟩

/-- A read of a watched surface, whatever it answers. -/
theorem read_watched_run (surface : ReadbackSurface σ) (s : Watched σ) :
    ∃ w, Prog.attempt surface.watched.read s = (.crash, ⟨w, s.log⟩) ∨
      (∃ e, Prog.attempt surface.watched.read s = (.ok (.error e), ⟨w, s.log⟩)) ∨
      Prog.attempt surface.watched.read s = (.ok (.ok none), ⟨w, s.log⟩) ∨
      ∃ value source, Prog.attempt surface.watched.read s =
        (.ok (.ok (some (value, source))), ⟨w, s.log ++ [.read surface.id value]⟩) := by
  simp only [Prog.attempt, ReadbackSurface.watched, noted, onWorld, Prog.zoom, Prog.bind_run]
  generalize surface.read s.world = o
  obtain ⟨o, w⟩ := o
  refine ⟨w, ?_⟩
  cases o with
  | crash => exact .inl rfl
  | err e => exact .inr (.inl ⟨e, rfl⟩)
  | ok reply =>
      cases reply with
      | none => exact .inr (.inr (.inl rfl))
      | some reply => exact .inr (.inr (.inr ⟨reply.1, reply.2, rfl⟩))

/-- **The surface loop**: it passes only when it has read every surface and each
showed the expected target. -/
theorem readSurfaces_triple (c : Convergence σ) (surfaces : List (ReadbackSurface σ))
    (result : PredicateResult) (sources : List String) (log₁ : List Event) :
    Triple (fun s => s.log = log₁)
      (c.watched.readSurfaces result sources (surfaces.map ReadbackSurface.watched))
      (fun reply s => ∃ reads, s.log = log₁ ++ reads ∧ OnlyReads reads ∧
        ∀ verdict, reply = some verdict → verdict.passed = true → c.Shown surfaces reads)
      (fun _ s => ∃ reads, s.log = log₁ ++ reads ∧ OnlyReads reads) := by
  induction surfaces generalizing result sources log₁ with
  | nil =>
      intro s hs
      refine ⟨[], by simp [hs], onlyReads_nil, ?_⟩
      intro verdict _ _ surface hsurface
      cases hsurface
  | cons surface rest ih =>
      intro s hs
      have hnil : s.log = log₁ ++ [] := by simp [hs]
      obtain ⟨w, hread⟩ := read_watched_run surface s
      simp only [List.map_cons, Convergence.readSurfaces, Prog.bind_run]
      rcases hread with hread | ⟨e, hread⟩ | hread | ⟨value, source, hread⟩
      · rw [hread]
        exact ⟨[], hnil, onlyReads_nil⟩
      · rw [hread]
        refine ⟨[], hnil, onlyReads_nil, ?_⟩
        intro verdict hv hp
        cases hv
        cases hp
      · rw [hread]
        refine ⟨[], hnil, onlyReads_nil, ?_⟩
        intro verdict hv
        cases hv
      · rw [hread]
        have hone : s.log ++ [.read surface.id value] = log₁ ++ [.read surface.id value] := by
          rw [hs]
        by_cases hc : contains value c.expectedTarget = true
        · have hgo := ih { result with detail := result.detail.insert surface.id value }
            (sources ++ [surface.id]) (log₁ ++ [.read surface.id value])
            ⟨w, s.log ++ [.read surface.id value]⟩ hone
          have hc' : contains value c.watched.expectedTarget = true := hc
          simp only [hc', if_true]
          refine hgo.mono (fun reply t ht => ?_) (fun e t ht => ?_)
          · obtain ⟨reads, hlog, honly, hshown⟩ := ht
            refine ⟨.read surface.id value :: reads, ?_, honly.cons _ _, ?_⟩
            · rw [hlog, List.append_assoc, List.singleton_append]
            · intro verdict hv hp
              exact (hshown verdict hv hp).cons hc
          · obtain ⟨reads, hlog, honly⟩ := ht
            refine ⟨.read surface.id value :: reads, ?_, honly.cons _ _⟩
            rw [hlog, List.append_assoc, List.singleton_append]
        · have hc' : ¬contains value c.watched.expectedTarget = true := hc
          simp only [hc']
          refine ⟨[.read surface.id value], hone, onlyReads_nil.cons _ _, ?_⟩
          intro verdict hv hp
          cases hv
          cases hp

/-- Evidence that passes is valid and of the target version. -/
theorem VersionPredicate.evaluate_eq_none {self : Nat} {evidence : Evidence} {target : String}
    (h : VersionPredicate.evaluate self evidence target = .ok none) :
    evidence.validate self = .ok () ∧ evidence.version = target := by
  unfold VersionPredicate.evaluate at h
  cases hv : evidence.validate self with
  | error e => simp [hv] at h
  | ok u =>
      by_cases ht : evidence.version = target
      · exact ⟨rfl, ht⟩
      · simp [hv, ht] at h

/-- **The convergence predicate** accepts validated evidence of the target only, after
reading every surface, and keeps what it saw. -/
theorem convergence_triple (c : Convergence σ) (self : Nat) (evidence : Evidence)
    (target : String) (log₁ : List Event) (o₁ : Observed) :
    Triple (fun s : Scene σ => s.1.log = log₁ ∧ s.2 = o₁)
      (c.watched.evaluate self evidence target)
      (fun reply s => ∃ reads, (Judge.convergence c).Looked log₁ o₁ s reads ∧
        (reply = some none → (Judge.convergence c).Approves self evidence target o₁ s reads))
      (fun _ s => ∃ reads, (Judge.convergence c).Looked log₁ o₁ s reads) := by
  intro s hs
  obtain ⟨hlog, ho⟩ := hs
  have hnil : s.1.log = log₁ ++ [] := by simp [hlog]
  unfold Convergence.evaluate
  cases hv : evidence.validate self with
  | error e =>
      refine ⟨[], hnil, onlyReads_nil, ?_⟩
      rw [← ho]
      exact fun h => h
  | ok u =>
      simp only [Prog.bind_run, Prog.ofExcept_ok_run, Convergence.observe, Prog.modify_run]
      have hblank : (Judge.convergence c).Blank o₁ →
          (Judge.convergence c).Blank { s.2 with evidence := some evidence } := by
        rw [← ho]
        exact fun h => h
      by_cases ht : evidence.version = target
      · simp only [ne_eq, ht, not_true_eq_false, if_false]
        cases hsurf : c.surfaces with
        | nil =>
            have hempty : c.watched.surfaces.isEmpty = true := by simp [Convergence.watched, hsurf]
            simp only [hempty, if_true]
            refine ⟨[], ⟨hnil, onlyReads_nil, hblank⟩, fun _ => ⟨⟨hv, ht⟩, ?_, ?_⟩⟩
            · intro surface h
              rw [hsurf] at h
              cases h
            · intro hb
              refine ⟨rfl, ht, ?_, ?_⟩
              · exact hblank hb
              · intro hne
                exact absurd hsurf hne
        | cons surface rest =>
            have hempty : c.watched.surfaces.isEmpty = false := by simp [Convergence.watched, hsurf]
            simp only [hempty, Bool.false_eq_true, if_false]
            have hne : c.surfaces ≠ [] := by simp [hsurf]
            have hread := readSurfaces_triple c c.surfaces
              ⟨true, "", c.watched.clock s.1, []⟩ [] log₁ s.1 hlog
            simp only [Convergence.settle, Prog.bind_run, Prog.get_run, Convergence.world, Prog.zoom]
            have hmap : c.watched.surfaces = c.surfaces.map ReadbackSurface.watched := rfl
            rw [hmap]
            generalize c.watched.readSurfaces ⟨true, "", c.watched.clock s.1, []⟩ []
              (c.surfaces.map ReadbackSurface.watched) s.1 = o at hread ⊢
            obtain ⟨o, t⟩ := o
            cases o with
            | crash =>
                obtain ⟨reads, hlog', honly⟩ := hread
                exact ⟨reads, hlog', honly, hblank⟩
            | err e =>
                obtain ⟨reads, hlog', honly⟩ := hread
                exact ⟨reads, hlog', honly, hblank⟩
            | ok reply =>
                obtain ⟨reads, hlog', honly, hshown⟩ := hread
                cases reply with
                | none => exact ⟨reads, ⟨hlog', honly, hblank⟩, fun h => by cases h⟩
                | some verdict =>
                    refine ⟨reads, ⟨hlog', honly, fun _ h => absurd h hne⟩, ?_⟩
                    intro hnone
                    cases hp : verdict.passed with
                    | false => simp [hp] at hnone
                    | true =>
                        refine ⟨⟨hv, ht⟩, hshown verdict rfl hp, fun _ => ⟨rfl, ht, ?_, ?_⟩⟩
                        · exact fun h => absurd h hne
                        · exact fun _ => ⟨verdict, rfl, hp⟩
      · simp only [ne_eq, ht, not_false_eq_true, if_true]
        refine ⟨[], ⟨hnil, onlyReads_nil, hblank⟩, fun h => ?_⟩
        cases h

/-- **Every verdict**: the library's predicates and any other. -/
theorem evaluate_looked (judge : Judge σ) (self : Nat) (evidence : Evidence) (target : String)
    (log₁ : List Event) (o₁ : Observed) :
    Triple (fun s : Scene σ => s.1.log = log₁ ∧ s.2 = o₁) (judge.evaluate self evidence target)
      (fun reply s => ∃ reads, judge.Looked log₁ o₁ s reads ∧
        (reply = some none → judge.Approves self evidence target o₁ s reads))
      (fun _ s => ∃ reads, judge.Looked log₁ o₁ s reads) := by
  cases judge with
  | convergence c => exact convergence_triple c self evidence target log₁ o₁
  | version =>
      intro s hs
      have hnil : s.1.log = log₁ ++ [] := by simp [hs.1]
      simp only [Judge.evaluate, Prog.bind_run]
      cases hv : VersionPredicate.evaluate self evidence target with
      | error e => exact ⟨[], hnil, onlyReads_nil, fun _ => trivial⟩
      | ok verdict =>
          refine ⟨[], ⟨hnil, onlyReads_nil, fun _ => trivial⟩, ?_⟩
          intro hnone
          cases verdict with
          | none => exact ⟨VersionPredicate.evaluate_eq_none hv, trivial, fun _ => trivial⟩
          | some reason => cases hnone
  | custom predicates =>
      intro s hs
      have hnil : s.1.log = log₁ ++ [] := by simp [hs.1]
      simp only [Judge.evaluate, Convergence.world, onWorld, Prog.zoom]
      generalize predicates.evaluate evidence target s.1.world = o
      obtain ⟨o, w⟩ := o
      cases o with
      | ok reply =>
          exact ⟨[], ⟨hnil, onlyReads_nil, fun _ => trivial⟩,
            fun _ => ⟨trivial, trivial, fun _ => trivial⟩⟩
      | err e => exact ⟨[], hnil, onlyReads_nil, fun _ => trivial⟩
      | crash => exact ⟨[], hnil, onlyReads_nil, fun _ => trivial⟩

/-! ## the outline -/

section Outline

variable {env : Surroundings σ} {version : String}

/-- What the log since the start of an upgrade call says at each point. -/
def Told (env : Surroundings σ) (version : String) : Point → List Event → Observed → Prop
  | .rest none, log, o => log = [] ∧ env.judge.Blank o
  | .surveyed _, log, o => Quiet log ∧ Surveyed none log ∧ env.judge.Blank o
  | .probed _ prior, log, o => Quiet log ∧ Surveyed prior log ∧ env.judge.Blank o
  | .staged prior, log, o | .prepared prior, log, o | .handing prior, log, o
  | .quiesced prior, log, o | .stopped prior, log, o =>
      Quiet log ∧ Approached prior log ∧ env.judge.Blank o
  | .started prior, log, o | .running prior, log, o =>
      Quiet log ∧ Launched prior log ∧ env.judge.Blank o
  | .live prior evidence, log, o | .readback prior evidence, log, o =>
      Quiet log ∧ Answered prior evidence log ∧ env.judge.Blank o
  | .fresh prior evidence, log, o =>
      Quiet log ∧ Answered prior evidence log ∧ env.judge.Blank o ∧
        ∀ p, prior = some p → p.startId ≠ evidence.startId
  | .accepted _ evidence, log, o =>
      Quiet log ∧ Earned env version evidence log ∧ env.judge.Saw version evidence o
  | _, log, o => Promised env version log o

/-- At every point the log promises what it says. -/
theorem Told.promised {p : Point} {log : List Event} {o : Observed}
    (h : Told env version p log o) : Promised env version log o := by
  cases p with
  | rest ended =>
      cases ended with
      | none =>
          have hquiet : Quiet log := by
            rw [h.1]
            intro entry he
            cases he
          exact hquiet.promised
      | some phase => exact h
  | surveyed stable => exact h.1.promised
  | probed stable prior => exact h.1.promised
  | staged prior => exact h.1.promised
  | prepared prior => exact h.1.promised
  | handing prior => exact h.1.promised
  | quiesced prior => exact h.1.promised
  | stopped prior => exact h.1.promised
  | started prior => exact h.1.promised
  | running prior => exact h.1.promised
  | live prior evidence => exact h.1.promised
  | readback prior evidence => exact h.1.promised
  | fresh prior evidence => exact h.1.promised
  | accepted prior evidence => exact h.1.promised
  | entry => exact h
  | opened tail => exact h
  | fenced tail => exact h
  | committed => exact h
  | published => exact h
  | rolling => exact h
  | rollStopped => exact h
  | rollStarted => exact h
  | restored => exact h

variable {log₀ : List Event}

/-- The assertion of the outline. -/
def Telling (env : Surroundings σ) (version : String) (log₀ : List Event) (p : Point) :
    Running (Scene σ) → Prop :=
  OnWorld (Since log₀ (Told env version p))

/-- The crash condition of the outline. -/
def Kept (env : Surroundings σ) (version : String) (log₀ : List Event) (_ : Option Error) :
    Running (Scene σ) → Prop :=
  OnWorld (Since log₀ (Promised env version))

/-- More is said of the log. -/
theorem Since.mono {P Q : List Event → Observed → Prop} {s : Scene σ} (hs : Since log₀ P s)
    (h : ∀ log o, P log o → Q log o) : Since log₀ Q s := by
  obtain ⟨log, hlog, hp⟩ := hs
  exact ⟨log, hlog, h log s.2 hp⟩

/-- What a point tells is kept wherever the engine breaks off. -/
theorem Telling.kept {p : Point} {r : Running (Scene σ)} {err : Option Error}
    (h : Telling env version log₀ p r) : Kept env version log₀ err r :=
  Since.mono h fun _ _ ht => ht.promised

/-- A call that logs nothing, between two points that say the same. -/
theorem silent_triple {α : Type} {p q : Point} {label : String} (m : Prog Error σ (Option α))
    (hsame : ∀ log o, Told env version p log o → Told env version q log o) :
    Triple (Telling env version log₀ p) (Engine.bounded label (Surroundings.call m))
      (fun _ => Telling env version log₀ q) (Kept env version log₀) :=
  (call_keeps m).bounded.conseq (fun _ hr => hr) (fun _ _ hr => Since.mono hr hsame)
    fun _ _ hr => Since.mono hr fun _ _ ht => ht.promised

/-- A call that logs nothing. -/
theorem silent_lift_triple {α : Type} {p q : Point} (m : Prog Error σ α)
    (hsame : ∀ log o, Told env version p log o → Told env version q log o) :
    Triple (Telling env version log₀ p) (lift (Surroundings.call m))
      (fun _ => Telling env version log₀ q) (Kept env version log₀) :=
  (call_keeps m).lift.conseq (fun _ hr => hr) (fun _ _ hr => Since.mono hr hsame)
    fun _ _ hr => Since.mono hr fun _ _ ht => ht.promised

/-- Handing an intent to the journal leads from point to point. -/
theorem journal_told {p q : Point} (intent : Phase) (detail : Detail)
    (h : ∀ entry log o, entry.intent = intent → Told env version p log o →
      Told env version q (log ++ [.append entry]) o) :
    Triple (Telling env version log₀ p) (env.watched.journal intent detail)
      (fun _ => Telling env version log₀ q) (Kept env version log₀) :=
  (journal_logged intent detail h).conseq (fun _ hr => hr) (fun _ _ hr => hr) fun _ _ hr => by
    cases hr with
    | inl hr => exact Since.mono hr fun _ _ ht => ht.promised
    | inr hr => exact Since.mono hr fun _ _ ht => ht.promised

/-- An intent that is not the promoted one. -/
theorem quiet_append {entry : JournalEntry} {intent : Phase} (he : entry.intent = intent)
    (hne : intent ≠ .promoted) : Quiet [.append entry] := by
  refine quiet_singleton fun entry' h => ?_
  cases h
  rw [he]
  exact hne

theorem quiet_started (slot : Slot) : Quiet [.started slot] :=
  quiet_singleton fun _ h => by cases h

theorem quiet_probed (evidence : Evidence) : Quiet [.probed evidence] :=
  quiet_singleton fun _ h => by cases h

/-- A start is logged when it returned. -/
theorem start_told {p q : Point} (slot : Slot)
    (h : ∀ log o, Told env version p log o → Told env version q (log ++ [.started slot]) o) :
    Triple (Telling env version log₀ p) (Engine.bounded "start" (env.watched.host.start slot))
      (fun _ => Telling env version log₀ q) (Kept env version log₀) :=
  (bounded_triple (noted_triple (fun _ => .started slot) (env.host.start slot)
    fun _ log o hp => h log o hp)).conseq (fun _ hr => hr) (fun _ _ hr => hr)
    fun _ _ hr => Since.mono hr fun _ _ ht => ht.promised

/-- A probe is logged when it returned evidence. -/
theorem probe_told {p failed : Point} {q : Evidence → Point}
    (h : ∀ evidence log o, Told env version p log o →
      Told env version (q evidence) (log ++ [.probed evidence]) o)
    (hfailed : ∀ log o, Told env version p log o → Told env version failed log o) :
    Triple (Telling env version log₀ p) (Engine.bounded "probe" env.watched.host.probe)
      (fun evidence => Telling env version log₀ (q evidence))
      (probeFailed (Telling env version log₀ failed) (Kept env version log₀)) := by
  refine (bounded_triple (noted_triple .probed env.host.probe h)).conseq (fun _ hr => hr)
    (fun _ _ hr => hr) fun err r hr => ?_
  have hkept : Kept env version log₀ err r := Since.mono hr fun _ _ ht => ht.promised
  have hdown : Telling env version log₀ failed r := Since.mono hr hfailed
  cases err with
  | none => exact hkept
  | some e =>
      by_cases hu : e.isUncertain
      · simp only [probeFailed, hu, if_true]
        exact hkept
      · simp only [probeFailed, hu]
        exact hdown

/-- An acceptance completes what a promotion takes. -/
theorem earned_of_accepted {prior : Option Evidence} {evidence : Evidence}
    {log reads : List Event} (ha : Answered prior evidence log)
    (hf : ∀ p, prior = some p → p.startId ≠ evidence.startId)
    (hok : env.judge.Accepts env.self evidence version) (hreads : env.judge.SurfacesRead reads)
    (hmono : ∀ before, env.judge.SurfacesRead reads → env.judge.SurfacesRead (before ++ reads)) :
    Earned env version evidence (log ++ reads ++ [.accepted evidence version]) := by
  obtain ⟨l₁, launch', hl₁, l₂, handover', hl₂, staged, hstaged, before, rest, hl₃, hs⟩ := ha
  refine ⟨before, staged, rest, handover', launch' ++ reads, [], ?_, hstaged, ?_, hok,
    hmono launch' hreads⟩
  · rw [hl₁, hl₂, hl₃]
    simp only [List.append_assoc, List.cons_append]
  · intro p hp
    exact hf p (hs p hp)

/-- The surfaces were read at the end of the log. -/
theorem surfacesRead_append (judge : Judge σ) {reads : List Event} (before : List Event)
    (h : judge.SurfacesRead reads) : judge.SurfacesRead (before ++ reads) := by
  cases judge with
  | version => trivial
  | custom predicates => trivial
  | convergence c =>
      intro surface hs
      obtain ⟨value, hr, hv⟩ := h surface hs
      exact ⟨value, List.mem_append_right _ hr, hv⟩

/-- The verdict: an acceptance earns the promotion, a refusal leaves what was said. -/
theorem evaluate_told (prior : Option Evidence) (evidence : Evidence) :
    Triple (Telling env version log₀ (.fresh prior evidence))
      (Engine.bounded "readback" (env.watched.predicates.evaluate evidence version))
      (fun verdict => match verdict with
        | some _ => Telling env version log₀ (.readback prior evidence)
        | none => Telling env version log₀ (.accepted prior evidence))
      (Kept env version log₀) := by
  intro r hr
  obtain ⟨log, hlog, hquiet, hans, hblank, hfresh⟩ := hr
  have hjudge := evaluate_looked env.judge env.self evidence version r.world.1.log r.world.2
    r.world ⟨rfl, rfl⟩
  have hgrown : ∀ {s : Scene σ} {reads : List Event},
      env.judge.Looked r.world.1.log r.world.2 s reads →
      Since log₀ (Told env version (.readback prior evidence)) s := by
    intro s reads hl
    refine ⟨log ++ reads, ?_, hquiet.append hl.2.1.quiet, hans.append reads, hl.2.2 hblank⟩
    rw [hl.1, hlog, List.append_assoc]
  simp only [Engine.bounded, lift, Prog.zoom, Prog.bind_run, Surroundings.watched, Judge.noted]
  generalize env.judge.evaluate env.self evidence version r.world = o at hjudge ⊢
  obtain ⟨o, s⟩ := o
  cases o with
  | crash =>
      obtain ⟨reads, hl⟩ := hjudge
      exact Since.mono (hgrown hl) fun _ _ ht => ht.promised
  | err e =>
      obtain ⟨reads, hl⟩ := hjudge
      exact Since.mono (hgrown hl) fun _ _ ht => ht.promised
  | ok reply =>
      obtain ⟨reads, hl, haccept⟩ := hjudge
      cases reply with
      | none => exact Since.mono (hgrown hl) fun _ _ ht => ht.promised
      | some verdict =>
          cases verdict with
          | some reason => exact hgrown hl
          | none =>
              obtain ⟨hok, hreads, hsaw⟩ := haccept rfl
              have hall : s.1.log ++ [.accepted evidence version] =
                  log₀ ++ (log ++ reads ++ [.accepted evidence version]) := by
                rw [hl.1, hlog, List.append_assoc, List.append_assoc, List.append_assoc]
              refine ⟨_, hall, ?_, ?_, hsaw hblank⟩
              · exact (hquiet.append hl.2.1.quiet).append (quiet_singleton fun _ h => by cases h)
              · exact earned_of_accepted hans hfresh hok hreads fun before =>
                  surfacesRead_append env.judge before

/-- The engine over arbitrary surroundings. -/
theorem promotionOutline (env : Surroundings σ) (version : String) (bytes : Path)
    (log₀ : List Event) :
    UpgradeOutline env.watched version bytes (Telling env version log₀)
      (Kept env version log₀) where
  stop := silent_triple _ fun _ _ ht => ht
  start := start_told _ fun _ _ ht => Promised.append ht (quiet_started _)
  resumed := silent_triple _ fun _ _ ht => ht
  clear := silent_lift_triple _ fun _ _ ht => ht
  promote := silent_lift_triple _ fun _ _ ht => ht
  resume := silent_triple _ fun _ _ ht => ht
  survey := by
    have hrest : ∀ log o, Told env version (.rest none) log o →
        Told env version (.surveyed "") log o := by
      intro log o ht
      obtain ⟨hnil, hblank⟩ := ht
      subst hnil
      refine ⟨?_, ?_, hblank⟩
      · intro entry he
        cases he
      · intro p hp
        cases hp
    refine (silent_lift_triple env.effects.versions hrest).post fun versions r hr => ?_
    cases stableOf versions with
    | none => exact hr.kept
    | some stable => exact hr
  probe _ _ := probe_told
    (fun evidence log o ht => by
      refine ⟨ht.1.append (quiet_probed evidence), ?_, ht.2.2⟩
      intro p hp
      rw [List.mem_append, List.mem_singleton] at hp
      cases hp with
      | inl hp => exact absurd (ht.2.1 p hp) (by simp)
      | inr hp =>
          cases hp
          rfl)
    (fun _ _ ht => ht)
  journalStaged _ _ _ := journal_told _ _ fun entry log o he ht =>
    ⟨ht.1.append (quiet_append he (by decide)), ⟨entry, he, After.now ht.2.1 _⟩, ht.2.2⟩
  stage _ := silent_lift_triple _ fun _ _ ht => ht
  journalHandingOver _ := journal_told _ _ fun entry log o he ht =>
    ⟨ht.1.append (quiet_append he (by decide)), ht.2.1.append _, ht.2.2⟩
  quiesce _ := silent_triple _ fun _ _ ht => ht
  stopStable _ := silent_triple _ fun _ _ ht => ht
  startExperiment _ := start_told _ fun log o ht =>
    ⟨ht.1.append (quiet_started _), After.now ht.2.1 _, ht.2.2⟩
  journalRunning _ := journal_told _ _ fun entry log o he ht =>
    ⟨ht.1.append (quiet_append he (by decide)), ht.2.1.append _, ht.2.2⟩
  probeLive _ := probe_told
    (fun evidence log o ht =>
      ⟨ht.1.append (quiet_probed evidence), After.now ht.2.1 _, ht.2.2⟩)
    (fun _ _ ht => ht)
  journalReadback _ _ := journal_told _ _ fun entry log o he ht =>
    ⟨ht.1.append (quiet_append he (by decide)), ht.2.1.append _, ht.2.2⟩
  replaced prior evidence r hfresh hr := Since.mono hr fun _ _ ht =>
    ⟨ht.1, ht.2.1, ht.2.2, hfresh⟩
  evaluate := evaluate_told
  journalPromoted _ _ := journal_told _ _ fun entry log o _ ht =>
    Promised.of_earned ht.1 ht.2.1 ht.2.2 entry
  silent _ _ := journal_told _ _ fun entry log o he ht =>
    ht.1.promised.append (quiet_append he (by decide))
  refused _ _ _ := journal_told _ _ fun entry log o he ht =>
    ht.1.promised.append (quiet_append he (by decide))

end Outline

/-! ## every engine -/

/-- A predicate without surfaces never has a lifecycle verdict. -/
def Blanks (env : Surroundings σ) : Scene σ → Prop := Since [] fun _ o => env.judge.Blank o

/-- A call that is noted tells the judge nothing. -/
theorem noted_blanks {α : Type} {env : Surroundings σ} (event : α → Event)
    (m : Prog Error σ (Option α)) :
    Keeps (Blanks env) (Convergence.world (Watched.noted event m)) :=
  (noted_triple event m fun _ _ _ hb => hb).post fun reply s hs => by
    cases reply with
    | some a => exact hs
    | none => exact hs

/-- Nothing the engine does tells the judge anything. -/
theorem blanks_frame (env : Surroundings σ) : Frame env.watched (Blanks env) where
  readJournal := call_keeps _
  append entry := by
    have hnote : Keeps (Blanks env) (Convergence.world (note (.append entry))) :=
      note_triple _ fun _ _ hb => hb
    exact Triple.bind hnote fun _ => call_keeps _
  versions := call_keeps _
  stage _ _ := call_keeps _
  promote := call_keeps _
  clear := call_keeps _
  fence := call_keeps _
  quiesce := call_keeps _
  stop _ := call_keeps _
  start _ := noted_blanks _ _
  probe := noted_blanks _ _
  resume := call_keeps _
  evaluate evidence target := by
    intro s hs
    obtain ⟨log, hlog, hblank⟩ := hs
    have hjudge := evaluate_looked env.judge env.self evidence target s.1.log s.2 s ⟨rfl, rfl⟩
    have hkeep : ∀ {t : Scene σ} {reads : List Event}, env.judge.Looked s.1.log s.2 t reads →
        Blanks env t := fun hl => ⟨_, rfl, hl.2.2 hblank⟩
    simp only [Surroundings.watched, Judge.noted, Prog.bind_run]
    generalize env.judge.evaluate env.self evidence target s = o at hjudge ⊢
    obtain ⟨o, t⟩ := o
    cases o with
    | crash =>
        obtain ⟨reads, hl⟩ := hjudge
        exact hkeep hl
    | err e =>
        obtain ⟨reads, hl⟩ := hjudge
        exact hkeep hl
    | ok reply =>
        obtain ⟨reads, hl, -⟩ := hjudge
        cases reply with
        | none => exact hkeep hl
        | some verdict =>
            cases verdict with
            | none => exact ⟨_, rfl, hl.2.2 hblank⟩
            | some reason => exact hkeep hl

/-- The judge is blank until it is asked. -/
theorem Surroundings.Reached.blank {env : Surroundings σ} {r : Running (Scene σ)}
    (h : env.Reached r) : env.judge.Blank r.world.2 := by
  have hb : OnWorld (Blanks env) r := by
    induction h with
    | new w =>
        refine ⟨[], rfl, ?_⟩
        cases env.judge with
        | version => trivial
        | custom predicates => trivial
        | convergence c => exact fun _ => rfl
    | engine _ ih => exact ih
    | world w _ ih => exact ih
    | opened opening _ ih => exact ((blanks_frame env).opened opening).run ih
    | called c _ ih => exact ((blanks_frame env).call c).run ih
  obtain ⟨log, -, hblank⟩ := hb
  exact hblank

/-- **No promotion without fresh, accepted live evidence**: whatever the host, the
journal store, the surfaces and the engines before, an upgrade call hands a promoted
intent to the journal only after it earned it, and the predicate's report then says
what it was earned with. -/
theorem promotion_earned (env : Surroundings σ) (r : Running (Scene σ)) (hr : env.Reached r)
    (version : String) (bytes : Path) :
    let after := (env.watched.upgrade version bytes r).2.world
    ∃ log, after.1.log = r.world.1.log ++ log ∧
      ∀ before entry rest, log = before ++ .append entry :: rest → entry.intent = .promoted →
        ∃ evidence, Earned env version evidence before ∧
          env.judge.Reported version evidence after := by
  have hstart : Telling env version r.world.1.log (.rest none) r :=
    ⟨[], (List.append_nil _).symm, rfl, hr.blank⟩
  have hend := (promotionOutline env version bytes r.world.1.log).upgrade_triple r hstart
  have hkept : Kept env version r.world.1.log none (env.watched.upgrade version bytes r).2 := by
    generalize env.watched.upgrade version bytes r = o at hend ⊢
    obtain ⟨o, s⟩ := o
    cases o with
    | ok outcome =>
        cases outcome with
        | promoted v => exact hend.2
        | rolledBack reason => exact hend
        | upToDate => exact Telling.kept hend
    | err e => exact hend
    | crash => exact hend
  obtain ⟨log, hlog, hp⟩ := hkept
  refine ⟨log, hlog, ?_⟩
  intro before entry rest hsplit hpromoted
  obtain ⟨evidence, hearned, hsaw⟩ := hp before entry rest hsplit hpromoted
  exact ⟨evidence, hearned, hsaw.reported⟩

/-- A service that answers every probe as a new incarnation of the candidate, with
one surface that shows it. -/
def Surroundings.scripted : Surroundings Nat where
  effects :=
    { readJournal := pure []
      append := fun _ => pure ()
      versions := pure [("stable", some "1")]
      stage := fun _ _ => pure ()
      promote := pure ()
      clear := pure () }
  host :=
    { fence := HostCall.reply ()
      quiesce := HostCall.reply ()
      stop := fun _ => HostCall.reply ()
      start := fun _ => HostCall.reply ()
      probe := fun n => (.ok (some ⟨"2", 7, s!"boot-{n}"⟩), n + 1)
      resume := HostCall.reply () }
  judge := .convergence
    { surfaces := [⟨"unit", HostCall.reply ("service 2 active", "systemd")⟩]
      expectedTarget := "2"
      clock := id }
  now := id
  self := 1

/-- The scripted service is promoted, and the promotion was earned. -/
theorem promotion_earned_scripted :
    let r : Running (Scene Nat) := ⟨(⟨0, []⟩, Observed.new), 0⟩
    let after := Surroundings.scripted.watched.upgrade "2" "artifact" r
    after.1 = .ok (.promoted "2") ∧
    ∃ log, after.2.world.1.log = [] ++ log ∧
      ∀ before entry rest, log = before ++ .append entry :: rest → entry.intent = .promoted →
        ∃ evidence, Earned Surroundings.scripted "2" evidence before ∧
          Surroundings.scripted.judge.Reported "2" evidence after.2.world :=
  ⟨rfl, promotion_earned Surroundings.scripted ⟨(⟨0, []⟩, Observed.new), 0⟩ (.new 0) "2"
    "artifact"⟩

end KCarrier
