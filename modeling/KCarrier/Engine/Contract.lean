import KCarrier.Engine.Outline
import KCarrier.Formal

/-!
# KCarrier.Engine.Contract

What an engine may rely on.

`Facts` is what the protocol speaks about: the journal, the versions the slots hold and the
versions of the processes that run from them.  An environment that shows them (`view`)
honours the contract of its host and its store (`Honours`) when each of its calls, once it
returned, has had exactly its effect on them, and otherwise has had it or has not.

`Rig` is such an environment: two slots, one process each, and a script of what goes wrong.
-/

namespace KCarrier

open Crash
open Formal

variable {σ α : Type}

/-! ## the facts -/

/-- Set one slot's entry. -/
def put (slot : Slot) (v : Option String) (f : Slot → Option String) : Slot → Option String :=
  fun s => if s = slot then v else f s

/-- The slot that is put shows what was put there. -/
@[simp] theorem put_same (slot : Slot) (v : Option String) (f : Slot → Option String) :
    put slot v f slot = v := if_pos rfl

/-- The journal, the version each slot holds, and the version of the process that runs from
each slot. -/
structure Facts where
  journal : List JournalEntry
  slots : Slot → Option String
  live : Slot → Option String

namespace Facts

/-- The machine of the published model these facts are. -/
def project (x : Facts) : Machine where
  phase := (lastIntent x.journal).getD .idle
  stableOk := (x.slots .stable).isSome
  hasExp := (x.slots .experiment).isSome
  liveStable := (x.live .stable).isSome
  liveExp := (x.live .experiment).isSome
  journal := x.journal.map (·.intent)

/-! What each effect does when it is carried out. -/

def append (entry : JournalEntry) (x : Facts) : Facts :=
  { x with journal := x.journal ++ [entry] }

def stage (version : String) (x : Facts) : Facts :=
  { x with slots := put .experiment (some version) x.slots }

def clear (x : Facts) : Facts := { x with slots := put .experiment none x.slots }

/-- Nothing is published from an empty slot.  Processes are not touched: one that was
started from the experiment slot runs from the stable slot from here on. -/
def promote (x : Facts) : Facts :=
  if (x.slots .experiment).isSome then
    { x with
      slots := fun s => match s with
        | .stable => x.slots .experiment
        | .experiment => none
      live := fun s => match s with
        | .stable => (x.live .stable).or (x.live .experiment)
        | .experiment => none }
  else
    x

def stop (slot : Slot) (x : Facts) : Facts := { x with live := put slot none x.live }

/-- The slot's artifact is launched, unless a process runs from the slot already. -/
def start (slot : Slot) (x : Facts) : Facts :=
  { x with live := put slot ((x.live slot).or (x.slots slot)) x.live }

/-! What the machine makes of it. -/

/-- An entry of the journal is its intent. -/
@[simp] theorem project_append (entry : JournalEntry) (x : Facts) :
    (x.append entry).project = x.project.intent entry.intent := by
  simp [append, project, Machine.intent]

/-- Staging fills the experiment slot. -/
@[simp] theorem project_stage (version : String) (x : Facts) :
    (x.stage version).project = { x.project with hasExp := true } := rfl

/-- Clearing empties it. -/
@[simp] theorem project_clear (x : Facts) :
    x.clear.project = { x.project with hasExp := false } := rfl

/-- Stopping the stable slot ends its process. -/
@[simp] theorem project_stop_stable (x : Facts) :
    (x.stop .stable).project = { x.project with liveStable := false } := rfl

/-- Stopping the experiment slot ends its process. -/
@[simp] theorem project_stop_experiment (x : Facts) :
    (x.stop .experiment).project = { x.project with liveExp := false } := rfl

/-- Starting the stable slot runs its process, where it holds a version. -/
theorem project_start_stable (x : Facts) (h : x.project.stableOk = true) :
    (x.start .stable).project = { x.project with liveStable := true } := by
  have hx : (x.slots .stable).isSome = true := h
  simp [start, project, put, hx]

/-- Starting the experiment slot runs its process, where it holds a version. -/
theorem project_start_experiment (x : Facts) (h : x.project.hasExp = true) :
    (x.start .experiment).project = { x.project with liveExp := true } := by
  have hx : (x.slots .experiment).isSome = true := h
  simp [start, project, put, hx]

/-- Promotion moves the experiment slot into the stable one. -/
theorem project_promote (x : Facts) (h : x.project.hasExp = true) :
    x.promote.project = x.project.promoted := by
  have hx : (x.slots .experiment).isSome = true := h
  simp [promote, hx, project, Machine.promoted]

/-- A promotion that is replayed finds nothing left to do. -/
theorem promote_of_empty (x : Facts) (h : x.project.hasExp = false) : x.promote = x := by
  have hx : (x.slots .experiment).isSome = false := h
  simp [promote, hx]

end Facts

/-! ## the contract -/

/-- A call that returned has had the effect `f`; one that failed, ran out of time or was cut
off has had it or has not. -/
def Applies (view : σ → Facts) (f : Facts → Facts) (returned : α → Bool) (m : Prog Error σ α) :
    Prop :=
  ∀ x, Triple (fun w => view w = x) m
    (fun a w => view w = f x ∨ (returned a = false ∧ view w = x))
    (fun _ w => view w = f x ∨ view w = x)

/-- A call on the store. -/
abbrev Performs (view : σ → Facts) (f : Facts → Facts) (m : Prog Error σ α) : Prop :=
  Applies view f (fun _ => true) m

/-- A call on the host, which has to answer within its budget. -/
abbrev Answers (view : σ → Facts) (f : Facts → Facts) (m : HostCall σ α) : Prop :=
  Applies view f Option.isSome m

/-- What the host and the store promise: a stop that returned has ended the process of its
slot, a start launches the artifact of the requested slot and nothing else, a resume only
restores parked work, no process ends by itself, and what the store returned from is
done.  `stage` may store the version under another spelling. -/
structure Honours (e : Engine σ) (view : σ → Facts) : Prop where
  readJournal : ∀ x, Triple (fun w => view w = x) e.effects.readJournal
    (fun entries w => view w = x ∧ entries = x.journal) (fun _ w => view w = x)
  append : ∀ entry, Performs view (Facts.append entry) (e.effects.append entry)
  versions : Performs view id e.effects.versions
  stage : ∀ version bytes, ∃ held,
    Performs view (Facts.stage held) (e.effects.stage version bytes)
  promote : Performs view Facts.promote e.effects.promote
  clear : Performs view Facts.clear e.effects.clear
  fence : Answers view id e.host.fence
  quiesce : Answers view id e.host.quiesce
  stop : ∀ slot, Answers view (Facts.stop slot) (e.host.stop slot)
  start : ∀ slot, Answers view (Facts.start slot) (e.host.start slot)
  probe : Answers view id e.host.probe
  resume : Answers view id e.host.resume
  evaluate : ∀ evidence target, Answers view id (e.predicates.evaluate evidence target)

/-! ## an environment that honours it -/

/-- How a call of the rig ends: it returns, or it fails or kills the worker after its effect
was had or before. -/
inductive Fate where
  | returns
  | fails (had : Bool)
  | dies (had : Bool)
deriving DecidableEq, Repr

/-- Two slots, at most one process from each, and the fates of the calls to come; a call
without one returns. -/
structure Rig where
  facts : Facts
  script : List Fate

namespace Rig

/-- One live stable service and an empty journal. -/
def install (version : String) (script : List Fate) : Rig where
  facts :=
    { journal := []
      slots := put .stable (some version) fun _ => none
      live := put .stable (some version) fun _ => none }
  script := script

def perform (f : Facts → Facts) (reply : Facts → Except Error α) : Prog Error Rig α := fun s =>
  let outcome (had : Bool) : Rig := ⟨if had then f s.facts else s.facts, s.script.tail⟩
  match s.script.headD .returns with
  | .fails had => (.err (.uncertain "the rig failed"), outcome had)
  | .dies had => (.crash, outcome had)
  | .returns =>
      match reply s.facts with
      | .ok a => (.ok a, outcome true)
      | .error err => (.err err, outcome false)

/-- The rig answers in time. -/
def ask (f : Facts → Facts) (reply : Facts → Except Error α) : HostCall Rig α :=
  perform f fun x => (reply x).map some

/-- The one ready service; its start id tells the versions apart. -/
def evidence (x : Facts) : Except Error Evidence :=
  match (x.live .stable).or (x.live .experiment) with
  | some version => .ok ⟨version, 2, s!"boot-{version}"⟩
  | none => .error (.invalid "no service answers")

def engine : Engine Rig where
  effects :=
    { readJournal := perform id fun x => .ok x.journal
      append := fun entry => perform (Facts.append entry) fun _ => .ok ()
      versions := perform id fun x =>
        .ok [("stable", x.slots .stable), ("experiment", x.slots .experiment)]
      stage := fun version _ => perform (Facts.stage version) fun _ => .ok ()
      promote := perform Facts.promote fun _ => .ok ()
      clear := perform Facts.clear fun _ => .ok () }
  host :=
    { fence := ask id fun _ => .ok ()
      quiesce := ask id fun _ => .ok ()
      stop := fun slot => ask (Facts.stop slot) fun _ => .ok ()
      start := fun slot => ask (Facts.start slot) fun _ => .ok ()
      probe := ask id evidence
      resume := ask id fun _ => .ok () }
  predicates :=
    { evaluate := fun evidence target => ask id fun _ => VersionPredicate.evaluate 1 evidence target }
  now _ := 0

/-- A primitive of the rig applies its effect when it returns. -/
theorem applies (f : Facts → Facts) (reply : Facts → Except Error α) (returned : α → Bool) :
    Applies Rig.facts f returned (perform f reply) := by
  intro x s hs
  subst hs
  unfold perform
  cases s.script.headD .returns with
  | fails had => cases had <;> simp
  | dies had => cases had <;> simp
  | returns => cases reply s.facts <;> simp

/-- It performs the effect. -/
theorem performs (f : Facts → Facts) (reply : Facts → Except Error α) :
    Performs Rig.facts f (perform f reply) := applies _ _ _

/-- A question of the rig is answered and changes nothing. -/
theorem asks (f : Facts → Facts) (reply : Facts → Except Error α) :
    Answers Rig.facts f (ask f reply) := applies _ _ _

/-- **The rig honours the contract.** -/
theorem honours : Honours Rig.engine Rig.facts where
  readJournal x s hs := by
    subst hs
    show Ends _ _ (perform id (fun x => .ok x.journal) s)
    unfold perform
    cases s.script.headD .returns with
    | fails had => cases had <;> simp
    | dies had => cases had <;> simp
    | returns => simp
  append entry := performs (Facts.append entry) fun _ => .ok ()
  versions := performs id fun x =>
    .ok [("stable", x.slots .stable), ("experiment", x.slots .experiment)]
  stage version _ := ⟨version, performs (Facts.stage version) fun _ => .ok ()⟩
  promote := performs Facts.promote fun _ => .ok ()
  clear := performs Facts.clear fun _ => .ok ()
  fence := asks id fun _ => .ok ()
  quiesce := asks id fun _ => .ok ()
  stop slot := asks (Facts.stop slot) fun _ => .ok ()
  start slot := asks (Facts.start slot) fun _ => .ok ()
  probe := asks id evidence
  resume := asks id fun _ => .ok ()
  evaluate evidence target := asks id fun _ => VersionPredicate.evaluate 1 evidence target

end Rig

end KCarrier
