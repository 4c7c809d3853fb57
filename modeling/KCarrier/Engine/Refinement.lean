import KCarrier.Engine.Contract
import KCarrier.Engine.Ledger
import KCarrier.Engine.Mirror

/-!
# KCarrier.Engine.Refinement

The engine and the published protocol model.

`Engine.traced` is the engine with one history variable, the list of what each of its
calls made of the facts; `traced_session` removes it again.

`engine_refines_protocol`: over an environment that honours the contract, whatever engines
follow one another, each opened by recovery and dropped at its first error, wherever they
are cut off, every state a call found or left is `Reachable`, every append is one intent
step and every other call one effect step or none.
-/

namespace KCarrier

open Crash
open Running
open Formal

variable {σ α : Type}

/-! ## the record of a run -/

/-- The calls of an engine. -/
inductive Effect where
  | append (entry : JournalEntry)
  | issue (act : Act)
  | read
deriving DecidableEq, Repr

/-- One call: the facts it found, the facts it left, and whether it returned. -/
structure Move where
  effect : Effect
  before : Facts
  after : Facts
  returned : Bool

/-- A world with the calls made on it so far. -/
structure Traced (σ : Type) where
  world : σ
  moves : List Move

/-- Make a call and write it down. -/
def Traced.trace (view : σ → Facts) (effect : Effect) (returned : α → Bool)
    (m : Prog Error σ α) : Prog Error (Traced σ) α := fun s =>
  let r := m s.world
  let done := match r.1 with
    | .ok a => returned a
    | _ => false
  (r.1, ⟨r.2, s.moves ++ [⟨effect, view s.world, view r.2, done⟩]⟩)

/-- The engine with a record of its calls. -/
def Engine.traced (e : Engine σ) (view : σ → Facts) : Engine (Traced σ) :=
  let perform {α : Type} (effect : Effect) (m : Prog Error σ α) : Prog Error (Traced σ) α :=
    Traced.trace view effect (fun _ => true) m
  let ask {α : Type} (act : Act) (m : HostCall σ α) : HostCall (Traced σ) α :=
    Traced.trace view (.issue act) Option.isSome m
  { effects :=
      { readJournal := perform .read e.effects.readJournal
        append := fun entry => perform (.append entry) (e.effects.append entry)
        versions := perform .read e.effects.versions
        stage := fun version bytes => perform (.issue .stage) (e.effects.stage version bytes)
        promote := perform (.issue .promote) e.effects.promote
        clear := perform (.issue .clear) e.effects.clear }
    host :=
      { fence := ask .fence e.host.fence
        quiesce := ask .quiesce e.host.quiesce
        stop := fun slot => ask (.stop slot) (e.host.stop slot)
        start := fun slot => ask (.start slot) (e.host.start slot)
        probe := ask .probe e.host.probe
        resume := ask .resume e.host.resume }
    predicates :=
      { evaluate := fun evidence target =>
          ask .readback (e.predicates.evaluate evidence target) }
    now := fun s => e.now s.world }

/-- Without the record, a recorded call is the call. -/
theorem Traced.trace_shows (view : σ → Facts) (effect : Effect) (returned : α → Bool)
    (m : Prog Error σ α) : Shows Traced.world (Traced.trace view effect returned m) m :=
  fun _ => rfl

theorem Engine.traced_mirrors (e : Engine σ) (view : σ → Facts) :
    Engine.Mirrors Traced.world (e.traced view) e where
  readJournal := Traced.trace_shows _ _ _ _
  append _ := Traced.trace_shows _ _ _ _
  versions := Traced.trace_shows _ _ _ _
  stage _ _ := Traced.trace_shows _ _ _ _
  promote := Traced.trace_shows _ _ _ _
  clear := Traced.trace_shows _ _ _ _
  fence := Traced.trace_shows _ _ _ _
  quiesce := Traced.trace_shows _ _ _ _
  stop _ := Traced.trace_shows _ _ _ _
  start _ := Traced.trace_shows _ _ _ _
  probe := Traced.trace_shows _ _ _ _
  resume := Traced.trace_shows _ _ _ _
  evaluate _ _ := Traced.trace_shows _ _ _ _
  now _ := rfl

/-- The record does not take part in what an engine does. -/
theorem Engine.traced_session (e : Engine σ) (view : σ → Facts) (cs : List EngineCall)
    (s : Traced σ) :
    ((e.traced view).session .recover cs s).world = e.session .recover cs s.world :=
  (e.traced_mirrors view).session cs s

/-! ## the refinement -/

/-- What a call may make of the machine: an append takes the step of its intent, another
call on a slot or on the service takes one effect step or none. -/
def Permitted : Effect → Machine → Machine → Prop
  | .append entry, x, y => y = x.intent entry.intent ∧ Step x y
  | .issue _, x, y => y = x ∨ (Step x y ∧ y.phase = x.phase ∧ y.journal = x.journal)
  | .read, x, y => y = x

theorem Permitted.reachable {effect : Effect} {x y : Machine} (h : Permitted effect x y)
    (hx : Reachable x) : Reachable y := by
  cases effect with
  | append entry => exact .step hx h.2
  | issue act =>
      cases h with
      | inl h => rwa [h]
      | inr h => exact .step hx h.1
  | read =>
      have hy : y = x := h
      rwa [hy]

/-- A move between reachable machines that takes the steps it may take.  One that did not
return may have changed nothing. -/
structure Move.Refines (mv : Move) : Prop where
  before : Reachable mv.before.project
  after : Reachable mv.after.project
  step : Permitted mv.effect mv.before.project mv.after.project ∨
    (mv.returned = false ∧ mv.after = mv.before)

/-- What the published model guarantees holds of the engine's own states. -/
theorem Move.Refines.guarantees {mv : Move} (h : mv.Refines) :
    (mv.after.slots .stable).isSome = true ∧
      ((mv.after.live .stable).isSome && (mv.after.live .experiment).isSome) = false ∧
      ((mv.after.live .experiment).isSome = true →
        ∃ entry ∈ mv.after.journal, entry.intent = .handingOver) := by
  obtain ⟨hstable, hsingle, hahead, -⟩ := protocol_guarantees _ h.after
  refine ⟨hstable, hsingle, fun hlive => ?_⟩
  have hmem : Phase.handingOver ∈ mv.after.journal.map (·.intent) := hahead hlive
  exact List.mem_map.mp hmem

/-- Each move starts from the facts its predecessor left: nothing happens between two
calls. -/
def Chained (x : Facts) : List Move → Facts → Prop
  | [], y => y = x
  | mv :: mvs, y => mv.before = x ∧ Chained mv.after mvs y

theorem Chained.concat {x y : Facts} {mvs : List Move} (h : Chained x mvs y) {mv : Move}
    (hb : mv.before = y) : Chained x (mvs ++ [mv]) mv.after := by
  induction mvs generalizing x with
  | nil =>
      have hy : y = x := h
      exact ⟨hb.trans hy, rfl⟩
  | cons a mvs ih => exact ⟨h.1, ih h.2⟩

namespace Formal

/-- No transaction is open and the stable service runs alone. -/
structure Machine.Resting (m : Machine) : Prop where
  atRest : m.phase.atRest = true
  empty : m.hasExp = false
  stable : m.liveStable = true
  alone : m.liveExp = false

/-- What recovery may find, whatever cut its predecessors off: after a handover both
processes may be gone, and a promoted candidate is live as long as it is not published. -/
def Machine.Recoverable (m : Machine) : Prop :=
  match m.phase with
  | .idle => m.hasExp = false ∧ m.liveStable = true ∧ m.liveExp = false
  | .staged => m.liveStable = true ∧ m.liveExp = false
  | .promoted => (m.hasExp = true ∧ m.liveExp = true) ∨
      (m.hasExp = false ∧ m.liveStable = true ∧ m.liveExp = false)
  | .handingOver | .runningExperiment | .readback | .rolledBack => True

end Formal

/-- The machine at each point of an engine. -/
def Point.Holds : Point → Machine → Prop
  | .entry, m => m.Recoverable
  | .opened tail, m | .fenced tail, m => m.phase = tail.getD .idle ∧ m.Recoverable
  | .rest _, m | .surveyed _, m | .probed _ _, m => m.Resting
  | .staged _, m => m.phase = .staged ∧ m.liveStable = true ∧ m.liveExp = false
  | .prepared _, m =>
      m.phase = .staged ∧ m.liveStable = true ∧ m.liveExp = false ∧ m.hasExp = true
  | .handing _, m | .quiesced _, m => m.phase = .handingOver ∧ m.hasExp = true
  | .stopped _, m => m.phase = .handingOver ∧ m.hasExp = true ∧ m.liveStable = false
  | .started _, m => m.phase = .handingOver ∧ m.hasExp = true ∧ m.liveExp = true
  | .running _, m | .live _ _, m =>
      m.phase = .runningExperiment ∧ m.hasExp = true ∧ m.liveExp = true
  | .readback _ _, m | .fresh _ _, m | .accepted _ _, m =>
      m.phase = .readback ∧ m.hasExp = true ∧ m.liveExp = true
  | .committed, m => m.phase = .promoted ∧ m.Recoverable
  | .published, m =>
      m.phase = .promoted ∧ m.hasExp = false ∧ m.liveStable = true ∧ m.liveExp = false
  | .rolling, m => m.phase = .rolledBack
  | .rollStopped, m => m.phase = .rolledBack ∧ m.liveExp = false
  | .rollStarted, m | .restored, m =>
      m.phase = .rolledBack ∧ m.liveExp = false ∧ m.liveStable = true

namespace Formal

theorem Machine.Resting.recoverable {m : Machine} (h : m.Resting) : m.Recoverable := by
  obtain ⟨hrest, hempty, hstable, halone⟩ := h
  unfold Machine.Recoverable
  cases hp : m.phase with
  | idle => exact ⟨hempty, hstable, halone⟩
  | promoted => exact .inr ⟨hempty, hstable, halone⟩
  | rolledBack => trivial
  | staged => simp [hp, Phase.atRest] at hrest
  | handingOver => simp [hp, Phase.atRest] at hrest
  | runningExperiment => simp [hp, Phase.atRest] at hrest
  | readback => simp [hp, Phase.atRest] at hrest

/-- A journal that stands at idle or at nothing leaves the machine at rest. -/
theorem Machine.Recoverable.resting {m : Machine} (h : m.Recoverable) (hp : m.phase = .idle) :
    m.Resting := by
  simp only [Machine.Recoverable, hp] at h
  exact ⟨by rw [hp]; rfl, h.1, h.2.1, h.2.2⟩

end Formal

/-- Wherever an engine is cut off, recovery can go on. -/
theorem Point.Holds.recoverable {p : Point} {m : Machine} (h : p.Holds m) : m.Recoverable := by
  cases p with
  | entry => exact h
  | opened tail => exact h.2
  | fenced tail => exact h.2
  | rest ended => exact Machine.Resting.recoverable h
  | surveyed stable => exact Machine.Resting.recoverable h
  | probed stable prior => exact Machine.Resting.recoverable h
  | committed => exact h.2
  | _ =>
      -- the phase is fixed here, and with it what recovery asks for
      simp only [Point.Holds] at h
      simp [Machine.Recoverable, h]

/-- The moves so far refine the protocol, lead from `start` to what is there now, and the
machine that is there now is a reachable one of `P`. -/
structure Traced.Sound (view : σ → Facts) (start : Facts) (P : Machine → Prop) (s : Traced σ) :
    Prop where
  refines : ∀ mv ∈ s.moves, mv.Refines
  chained : Chained start s.moves (view s.world)
  reachable : Reachable (view s.world).project
  holds : P (view s.world).project

section Outline

variable {view : σ → Facts} {start : Facts}

theorem Traced.Sound.mono {P Q : Machine → Prop} {s : Traced σ} (h : s.Sound view start P)
    (hPQ : ∀ m, P m → Q m) : s.Sound view start Q :=
  { h with holds := hPQ _ h.holds }

/-- One more move. -/
theorem Traced.Sound.concat {P Q : Machine → Prop} {s : Traced σ} (h : s.Sound view start P)
    {mv : Move} {w : σ} (hbefore : mv.before = view s.world) (hafter : mv.after = view w)
    (hmv : mv.Refines) (hQ : Q (view w).project) :
    Traced.Sound view start Q ⟨w, s.moves ++ [mv]⟩ where
  refines m hm := by
    rw [List.mem_append, List.mem_singleton] at hm
    cases hm with
    | inl hm => exact h.refines m hm
    | inr hm => rwa [hm]
  chained := by
    rw [← hafter]
    exact h.chained.concat hbefore
  reachable := by
    have hr := hmv.after
    rwa [hafter] at hr
  holds := hQ

/-- **A call**: it takes the machine along, or it did not return and left it as it was. -/
theorem Traced.trace_triple {m : Prog Error σ α} {f : Facts → Facts} {returned : α → Bool}
    {effect : Effect} {P Q : Machine → Prop} (h : Applies view f returned m)
    (hstep : ∀ x, Reachable x.project → P x.project →
      Permitted effect x.project (f x).project ∧ Q (f x).project) :
    Triple (Traced.Sound view start P) (Traced.trace view effect returned m)
      (fun a s => s.Sound view start Q ∨ (returned a = false ∧ s.Sound view start P))
      (fun _ s => s.Sound view start Q ∨ s.Sound view start P) := by
  intro s hs
  have hend := h (view s.world) s.world rfl
  obtain ⟨hpermitted, hQ⟩ := hstep (view s.world) hs.reachable hs.holds
  -- the effect was had
  have had : ∀ w b, view w = f (view s.world) →
      Traced.Sound view start Q ⟨w, s.moves ++ [⟨effect, view s.world, view w, b⟩]⟩ := by
    intro w b hw
    refine hs.concat rfl rfl ⟨hs.reachable, ?_, .inl ?_⟩ ?_
    · show Reachable (view w).project
      rw [hw]
      exact hpermitted.reachable hs.reachable
    · show Permitted effect (view s.world).project (view w).project
      rw [hw]
      exact hpermitted
    · rw [hw]
      exact hQ
  -- it was not
  have spared : ∀ w, view w = view s.world →
      Traced.Sound view start P ⟨w, s.moves ++ [⟨effect, view s.world, view w, false⟩]⟩ := by
    intro w hw
    refine hs.concat rfl rfl ⟨hs.reachable, ?_, .inr ⟨rfl, hw⟩⟩ ?_
    · show Reachable (view w).project
      rw [hw]
      exact hs.reachable
    · rw [hw]
      exact hs.holds
  unfold Traced.trace
  generalize m s.world = o at hend ⊢
  obtain ⟨o, w⟩ := o
  cases o with
  | ok a =>
      cases hend with
      | inl hw => exact .inl (had w _ hw)
      | inr hw =>
          refine .inr ⟨hw.1, ?_⟩
          simp only [hw.1]
          exact spared w hw.2
  | err e => exact hend.imp (had w _) (spared w)
  | crash => exact hend.imp (had w _) (spared w)

/-- The assertion of the outline. -/
def Traced.At (view : σ → Facts) (start : Facts) (p : Point) : Running (Traced σ) → Prop :=
  OnWorld (Traced.Sound view start p.Holds)

/-- The crash condition of the outline. -/
def Traced.CutOff (view : σ → Facts) (start : Facts) (_ : Option Error) :
    Running (Traced σ) → Prop :=
  OnWorld (Traced.Sound view start Machine.Recoverable)

theorem Traced.At.cutOff {p : Point} {r : Running (Traced σ)} {err : Option Error}
    (h : Traced.At view start p r) : Traced.CutOff view start err r :=
  h.mono fun _ hm => hm.recoverable

/-- A call on the store between two points. -/
theorem perform_triple {m : Prog Error σ α} {f : Facts → Facts} {effect : Effect} {p q : Point}
    (h : Performs view f m) (hstep : ∀ x, Reachable x.project → p.Holds x.project →
      Permitted effect x.project (f x).project ∧ q.Holds (f x).project) :
    Triple (Traced.At view start p)
      (lift (Traced.trace view effect (fun _ => true) m)) (fun _ => Traced.At view start q)
      (Traced.CutOff view start) := by
  refine Triple.zoom fun r hr => ?_
  have hend := Traced.trace_triple h hstep r.world hr
  refine hend.mono (fun a s hs => ?_) fun err s hs => ?_
  · cases hs with
    | inl hs => exact hs
    | inr hs => cases hs.1
  · exact hs.elim (fun hs => hs.mono fun _ hm => hm.recoverable)
      (fun hs => hs.mono fun _ hm => hm.recoverable)

/-- A budgeted host call between two points. -/
theorem ask_triple {m : HostCall σ α} {f : Facts → Facts} {act : Act} {label : String}
    {p q : Point} (h : Answers view f m)
    (hstep : ∀ x, Reachable x.project → p.Holds x.project →
      Permitted (.issue act) x.project (f x).project ∧ q.Holds (f x).project) :
    Triple (Traced.At view start p)
      (Engine.bounded label (Traced.trace view (.issue act) Option.isSome m))
      (fun _ => Traced.At view start q) (Traced.CutOff view start) := by
  refine bounded_of_lift (Triple.zoom fun r hr => ?_)
  have hend := Traced.trace_triple h hstep r.world hr
  refine hend.mono (fun reply s hs => ?_) fun err s hs => ?_
  · cases hs with
    | inl hs => exact ⟨fun _ _ => hs, hs.mono fun _ hm => hm.recoverable⟩
    | inr hs =>
        refine ⟨fun a ha => ?_, hs.2.mono fun _ hm => hm.recoverable⟩
        rw [ha] at hs
        cases hs.1
  · exact hs.elim (fun hs => hs.mono fun _ hm => hm.recoverable)
      (fun hs => hs.mono fun _ hm => hm.recoverable)

/-- A host call that changes nothing the protocol speaks about keeps the point, however it
ends. -/
theorem watch_triple {m : HostCall σ α} {act : Act} {label : String} {p : Point}
    (h : Answers view id m) :
    Triple (Traced.At view start p)
      (Engine.bounded label (Traced.trace view (.issue act) Option.isSome m))
      (fun _ => Traced.At view start p) (fun _ => Traced.At view start p) := by
  have hstay : ∀ x : Facts, Reachable x.project → p.Holds x.project →
      Permitted (.issue act) x.project (id x).project ∧ p.Holds (id x).project :=
    fun _ _ hx => ⟨.inl rfl, hx⟩
  refine bounded_of_lift (Triple.zoom fun r hr => ?_)
  have hend := Traced.trace_triple h hstay r.world hr
  refine hend.mono (fun reply s hs => ?_) fun err s hs => hs.elim id id
  have hkept : s.Sound view start p.Holds := hs.elim id fun hs => hs.2
  exact ⟨fun _ _ => hkept, hkept⟩

/-- An intent: its guard holds at the point where the engine journals it. -/
theorem intent_triple {e : Engine σ} (h : Honours e view) {intent : Phase} {detail : Detail}
    {p q : Point} (hstep : ∀ m, Reachable m → p.Holds m →
      Step m (m.intent intent) ∧ q.Holds (m.intent intent)) :
    Triple (Traced.At view start p) ((e.traced view).journal intent detail)
      (fun _ => Traced.At view start q) (Traced.CutOff view start) := by
  unfold Engine.journal
  refine Triple.get_bind fun r hr => ?_
  refine Triple.pre ?_ fun s (hs : s = r) => hs ▸ hr
  refine Triple.bind (perform_triple (h.append _) fun x hx hp => ?_) fun _ =>
    Triple.modify fun _ hs => hs
  obtain ⟨hs, hq⟩ := hstep x.project hx hp
  rw [Facts.project_append]
  exact ⟨⟨rfl, hs⟩, hq⟩

variable {e : Engine σ}

/-- Starting the stable service again, or emptying the experiment slot, wherever the guard
of its step holds; a fence, a resume and the like need none. -/
theorem tracedRollback (h : Honours e view) :
    RollbackOutline (e.traced view) (Traced.At view start) (Traced.CutOff view start) where
  stop := ask_triple (h.stop .experiment) fun x _ hp => by
    rw [Facts.project_stop_experiment]
    exact ⟨.inr ⟨.stopExp _ hp, rfl, rfl⟩, hp, rfl⟩
  start := ask_triple (h.start .stable) fun x hx hp => by
    rw [Facts.project_start_stable x (never_bricked _ hx)]
    exact ⟨.inr ⟨.startStable _ hp.1 hp.2, rfl, rfl⟩, hp.1, hp.2, rfl⟩
  resumed := ask_triple h.resume fun x _ hp => ⟨.inl rfl, hp⟩
  clear := perform_triple h.clear fun x _ hp => by
    rw [Facts.project_clear]
    refine ⟨.inr ⟨.clearExp _ hp.1 hp.2.2, rfl, rfl⟩, ?_⟩
    exact ⟨by rw [hp.1]; rfl, rfl, hp.2.2, hp.2.1⟩

/-- Publishing: the first time it is the step of the promotion, a replay finds nothing left
to do. -/
theorem tracedCommit (h : Honours e view) :
    CommitOutline (e.traced view) (Traced.At view start) (Traced.CutOff view start) where
  promote := perform_triple h.promote fun x _ hp => by
    obtain ⟨hphase, hrec⟩ := hp
    simp only [Machine.Recoverable, hphase] at hrec
    cases hrec with
    | inl hlive =>
        rw [Facts.project_promote x hlive.1]
        refine ⟨.inr ⟨.promoteEffect _ hphase, rfl, rfl⟩, hphase, rfl, ?_, rfl⟩
        simp [Machine.promoted, hlive.2]
    | inr hdone =>
        rw [Facts.promote_of_empty x hdone.1]
        exact ⟨.inl rfl, hphase, hdone⟩
  resume := ask_triple h.resume fun x _ hp =>
    ⟨.inl rfl, by rw [id, hp.1]; rfl, hp.2.1, hp.2.2.1, hp.2.2.2⟩

/-- What was read is the journal that is there. -/
theorem readJournal_traced (h : Honours e view) :
    Triple (Traced.At view start .entry) (lift (e.traced view).effects.readJournal)
      (fun entries r => Traced.At view start .entry r ∧
        entries = (view r.world.world).journal) (Traced.CutOff view start) := by
  have hperforms : Performs view id e.effects.readJournal := fun x =>
    (h.readJournal x).conseq (fun _ hw => hw) (fun _ _ hw => .inl hw.1) fun _ _ hw => .inl hw
  have hkeep : Triple (Traced.At view start .entry) (lift (e.traced view).effects.readJournal)
      (fun _ => Traced.At view start .entry) (Traced.CutOff view start) :=
    perform_triple hperforms fun _ _ hp => ⟨rfl, hp⟩
  have hread : Triple (fun _ => True) (lift (e.traced view).effects.readJournal)
      (fun entries r => entries = (view r.world.world).journal) (fun _ _ => True) := by
    refine Triple.zoom fun r _ => ?_
    have hend := h.readJournal (view r.world.world) r.world.world rfl
    show Ends _ _ (Traced.trace view .read (fun _ => true) e.effects.readJournal r.world)
    unfold Traced.trace
    generalize e.effects.readJournal r.world.world = o at hend ⊢
    obtain ⟨o, w⟩ := o
    cases o with
    | ok entries => exact hend.2.trans (congrArg Facts.journal hend.1.symm)
    | err err => trivial
    | crash => trivial
  exact (hkeep.and hread).conseq (fun _ hs => ⟨hs, trivial⟩) (fun _ _ hs => hs) fun _ _ hs => hs.1

/-- Reading the journal: the last intent is the phase. -/
theorem readEntries_traced (h : Honours e view) :
    Triple (Traced.At view start .entry) (e.traced view).readEntries
      (fun entries s => Traced.At view start (.opened (lastIntent entries))
        { s with seq := nextSeq entries }) (Traced.CutOff view start) := by
  unfold Engine.readEntries
  refine Triple.bind (readJournal_traced h) fun entries => ?_
  refine Triple.bind (Triple.ofExcept (fun _ _ _ hs => hs) fun _ _ _ hs => hs.1.cutOff) fun _ => ?_
  refine Triple.pure fun r hr => ?_
  obtain ⟨hr, hentries⟩ := hr
  have hphase : (view r.world.world).project.phase = (lastIntent entries).getD .idle := by
    rw [hentries]
    rfl
  exact { hr with holds := ⟨hphase, hr.holds⟩ }

theorem tracedRecover (h : Honours e view) :
    RecoverOutline (e.traced view) (Traced.At view start) (Traced.CutOff view start) where
  toRollbackOutline := tracedRollback h
  toCommitOutline := tracedCommit h
  read := readEntries_traced h
  fence _ := ask_triple h.fence fun _ _ hp => ⟨.inl rfl, hp⟩
  idle s hs := hs.elim (fun hs => hs.mono fun _ hm => hm.2.resting hm.1)
    fun hs => hs.mono fun _ hm => hm.2.resting hm.1
  commit _ hs := hs.mono fun _ hm => hm
  redo _ hs := hs.mono fun _ hm => hm.1
  withdraw _ := intent_triple h fun m _ hp => by
    obtain ⟨hphase, hrec⟩ := hp
    have hstaged : m.phase = .staged := hphase
    simp only [Machine.Recoverable, hstaged] at hrec
    exact ⟨.rollback m (by rw [hstaged]; rfl), rfl, hrec.2, hrec.1⟩
  abandon tail _ hopen := intent_triple h fun m _ hp => by
    have hphase : m.phase = tail := hp.1
    refine ⟨.rollback m ?_, rfl⟩
    rw [hphase]
    rcases hopen with htail | htail | htail <;> rw [htail] <;> rfl

/-- A failed probe leaves the machine where it was. -/
theorem probe_traced (h : Honours e view) {p q failed : Point}
    (hq : ∀ m, p.Holds m → q.Holds m) (hfailed : ∀ m, p.Holds m → failed.Holds m) :
    Triple (Traced.At view start p) (Engine.bounded "probe" (e.traced view).host.probe)
      (fun _ => Traced.At view start q)
      (probeFailed (Traced.At view start failed) (Traced.CutOff view start)) := by
  refine (watch_triple h.probe).conseq (fun _ hs => hs) (fun _ _ hs => hs.mono hq) ?_
  intro err s hs
  cases err with
  | none => exact hs.mono fun _ hm => hm.recoverable
  | some err =>
      by_cases hu : err.isUncertain
      · simp only [probeFailed, hu, if_true]
        exact hs.cutOff
      · simp only [probeFailed, hu]
        exact hs.mono hfailed

theorem tracedUpgrade (h : Honours e view) (version : String) (bytes : Path) :
    UpgradeOutline (e.traced view) version bytes (Traced.At view start)
      (Traced.CutOff view start) where
  toRollbackOutline := tracedRollback h
  toCommitOutline := tracedCommit h
  survey := by
    have hread : Triple (Traced.At view start (.rest none))
        (lift (e.traced view).effects.versions) (fun _ => Traced.At view start (.rest none))
        (Traced.CutOff view start) := perform_triple h.versions fun _ _ hp => ⟨rfl, hp⟩
    refine hread.post fun versions s hs => ?_
    cases stableOf versions with
    | none => exact hs.cutOff
    | some stable => exact hs
  probe _ _ := probe_traced h (fun _ hm => hm) fun _ hm => hm
  journalStaged _ _ _ := intent_triple h fun m _ hp =>
    ⟨.stage m hp.atRest hp.empty, rfl, hp.stable, hp.alone⟩
  stage _ := by
    obtain ⟨held, hstage⟩ := h.stage version bytes
    refine perform_triple hstage fun x _ hp => ?_
    rw [Facts.project_stage]
    exact ⟨.inr ⟨.stageEffect _ hp.1, rfl, rfl⟩, hp.1, hp.2.1, hp.2.2, rfl⟩
  journalHandingOver _ := intent_triple h fun m _ hp =>
    ⟨.handover m hp.1 hp.2.2.2, rfl, hp.2.2.2⟩
  quiesce _ := ask_triple h.quiesce fun _ _ hp => ⟨.inl rfl, hp⟩
  stopStable _ := ask_triple (h.stop .stable) fun x _ hp => by
    rw [Facts.project_stop_stable]
    exact ⟨.inr ⟨.stopStable _ hp.1, rfl, rfl⟩, hp.1, hp.2, rfl⟩
  startExperiment _ := ask_triple (h.start .experiment) fun x _ hp => by
    rw [Facts.project_start_experiment x hp.2.1]
    exact ⟨.inr ⟨.startExp _ hp.1 hp.2.2, rfl, rfl⟩, hp.1, hp.2.1, rfl⟩
  journalRunning _ := intent_triple h fun m _ hp => ⟨.probe m hp.1, rfl, hp.2⟩
  probeLive _ := probe_traced h (fun _ hm => hm) fun _ hm => hm
  journalReadback _ _ := intent_triple h fun m _ hp => ⟨.evaluate m hp.1, rfl, hp.2⟩
  replaced _ _ _ _ hs := hs
  evaluate _ _ := by
    refine ((watch_triple (h.evaluate _ _)).conseq (fun _ hs => hs) (fun _ _ hs => hs)
      fun _ _ hs => hs.cutOff).post fun verdict s hs => ?_
    cases verdict <;> exact hs
  journalPromoted _ _ := intent_triple h fun m _ hp => by
    refine ⟨.promote m hp.1 hp.2.2, rfl, ?_⟩
    exact .inl hp.2
  silent _ _ := intent_triple h fun m _ hp => ⟨.rollback m (by rw [hp.1]; rfl), rfl⟩
  refused _ _ _ := intent_triple h fun m _ hp => ⟨.rollback m (by rw [hp.1]; rfl), rfl⟩

theorem tracedSession (h : Honours e view) :
    SessionOutline (e.traced view) (Traced.At view start .entry) (Traced.At view start (.rest none))
      (Traced.Sound view start Machine.Recoverable) where
  create _ hw := hw
  reopen _ hr := hr.mono fun _ hm => Machine.Resting.recoverable hm
  drop _ hr := hr.mono fun _ hm => Machine.Resting.recoverable hm
  recover := (tracedRecover h).recover_triple.post fun _ _ ⟨_, hr⟩ => hr
  upgrade version bytes := (tracedUpgrade h version bytes).upgrade_triple.post fun outcome r hr => by
    cases outcome with
    | promoted v => exact hr.2
    | rolledBack reason => exact hr
    | upToDate => exact hr

end Outline

/-- One engine after another, each with what it is asked for once it has recovered. -/
def Engine.lives (engines : List (Engine σ × List EngineCall)) (w : σ) : σ :=
  engines.foldl (fun w life => life.1.session .recover life.2 w) w

/-- The engines of a run, with one record of all their calls. -/
def Engine.tracedAll (view : σ → Facts) (engines : List (Engine σ × List EngineCall)) :
    List (Engine (Traced σ) × List EngineCall) :=
  engines.map fun life => (life.1.traced view, life.2)

theorem Engine.traced_lives (view : σ → Facts) (engines : List (Engine σ × List EngineCall))
    (s : Traced σ) :
    (Engine.lives (Engine.tracedAll view engines) s).world = Engine.lives engines s.world := by
  unfold Engine.lives Engine.tracedAll
  induction engines generalizing s with
  | nil => rfl
  | cons life engines ih =>
      simp only [List.map_cons, List.foldl_cons]
      rw [ih, Engine.traced_session]

/-- Every engine leaves what recovery can go on from. -/
theorem lives_sound {view : σ → Facts} {start : Facts}
    {engines : List (Engine σ × List EngineCall)} (h : ∀ life ∈ engines, Honours life.1 view)
    {s : Traced σ} (hs : s.Sound view start Machine.Recoverable) :
    (Engine.lives (Engine.tracedAll view engines) s).Sound view start Machine.Recoverable := by
  unfold Engine.lives Engine.tracedAll
  induction engines generalizing s with
  | nil => exact hs
  | cons life engines ih =>
      simp only [List.map_cons, List.foldl_cons]
      have hlife : Honours life.1 view := h life List.mem_cons_self
      exact ih (fun l hl => h l (List.mem_cons_of_mem _ hl))
        ((tracedSession hlife).session_invariant life.2 s hs)

/-- **Refinement**: from a live stable service and an empty journal, whatever engines follow
one another over an environment that honours the contract, their calls make one chain of
moves, each between reachable machines of the published protocol: an append takes the step
of its intent, any other call an effect step or none. -/
theorem engine_refines_protocol (view : σ → Facts) (engines : List (Engine σ × List EngineCall))
    (h : ∀ life ∈ engines, Honours life.1 view) (w : σ)
    (hw : (view w).project = Formal.init) :
    let after := Engine.lives (Engine.tracedAll view engines) ⟨w, []⟩
    after.world = Engine.lives engines w ∧
      Chained (view w) after.moves (view after.world) ∧
      (∀ mv ∈ after.moves, mv.Refines) ∧ Reachable (view after.world).project := by
  have hstart : Traced.Sound view (view w) Machine.Recoverable ⟨w, []⟩ := by
    refine ⟨fun mv hmv => (by cases hmv), rfl, ?_, ?_⟩
    · show Reachable (view w).project
      rw [hw]
      exact .init
    · show (view w).project.Recoverable
      rw [hw]
      exact ⟨rfl, rfl, rfl⟩
  have hafter := lives_sound h hstart
  exact ⟨Engine.traced_lives view engines ⟨w, []⟩, hafter.chained, hafter.refines,
    hafter.reachable⟩

/-- A worker that dies while the candidate is started, the recovery of a second one that dies
between the stop of the candidate and the start of the stable service, and a third one that
finishes both. -/
theorem engine_refines_protocol_rig :
    let engines := [(Rig.engine, [.upgrade "2.0.0" "artifact"]), (Rig.engine, []),
      (Rig.engine, [.upgrade "2.0.0" "artifact"])]
    let script := List.replicate 9 Fate.returns ++ [.dies true] ++
      List.replicate 4 Fate.returns ++ [.dies false]
    let w := Rig.install "1.0.0" script
    let after := Engine.lives (Engine.tracedAll Rig.facts engines) ⟨w, []⟩
    after.world = Engine.lives engines w ∧
      Chained w.facts after.moves after.world.facts ∧
      (∀ mv ∈ after.moves, mv.Refines) ∧ Reachable after.world.facts.project :=
  engine_refines_protocol Rig.facts _ (fun life hlife => by
    have hrig : life.1 = Rig.engine := by
      simp only [List.mem_cons, List.not_mem_nil, or_false] at hlife
      rcases hlife with rfl | rfl | rfl <;> rfl
    rw [hrig]
    exact Rig.honours) _ rfl

end KCarrier
