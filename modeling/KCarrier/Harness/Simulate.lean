import KCarrier.Engine.Cost
import KCarrier.Harness.Converge
import KCarrier.Liveness

/-!
# KCarrier.Harness.Simulate

The seeded simulation: rounds of recovery and upgrade on one harness world, each cut off at a
boundary the seed picks, and each followed by a recovery that nothing disturbs.

A correct world must never fail its own simulation.  The assertion of the outline is
`Drill`: the points of `Model.At`, and beside them what the verdict asks of the candidate's
evidence (`Attested`).  The crash condition is `Blamed`: a run is cut off in a sound state,
and with the error of the plan.  `simulateRound_passes` is one round, `simulate_passes` the
whole run.
-/

namespace KCarrier

open Crash
open Running

/-! ## the workload check -/

def workloadPreserved (before after : WorldSnapshot) : Option String :=
  match before.workloadDigest, after.workloadDigest with
  | some a, some b => if a ≠ b then some "workload digest changed across transition" else none
  | _, _ => none

namespace FakeHost

/-! ## the simulation -/

/-- The verdict of a simulation: the version check, then a refusal if the scenario is one. -/
structure SimulationPredicates where
  refuse : Bool
deriving DecidableEq, Repr

def SimulationPredicates.evaluate (self : Nat) (predicates : SimulationPredicates)
    (evidence : Evidence) (target : String) : Except Error (Option String) := do
  let invalidVersion ← VersionPredicate.evaluate self evidence target
  pure (invalidVersion.or (if predicates.refuse then some "synthetic readback refusal" else none))

/-- The engine of a simulated worker, whose clock stands at `now`. -/
def simulationEngine (self : Nat) (p : SimulationPredicates) (now : Nat) : Engine State where
  effects := effects
  host := host
  predicates :=
    { evaluate := fun evidence target =>
        answered (Prog.ofExcept (p.evaluate self evidence target)) }
  now _ := now

/-- A new engine on the world, for one worker. -/
def withEngine {α : Type} (m : Prog Error (Running State) α) : Prog Error State α :=
  Prog.zoom (fun w => ⟨w, 0⟩) (fun s _ => s.world) m

structure SimulationReceipt where
  seed : UInt32
  scenario : String
  rounds : Nat
  crashes : Nat
  boundaries : Nat
  result : String
deriving DecidableEq, Repr

/-- What a simulation carries from round to round. -/
structure Tally where
  random : UInt32
  crashes : Nat
  boundaries : Nat
deriving DecidableEq, Repr

def xorshift (random : UInt32) : UInt32 :=
  let random := random ^^^ (random <<< 13)
  let random := random ^^^ (random >>> 17)
  random ^^^ (random <<< 5)

/-- The boundary the random number picks, if it picks one. -/
def crashAt (random : UInt32) : Option Nat :=
  let crashAt := (random % 44).toNat
  if crashAt ≠ 0 then some crashAt else none

/-- The worker of a round recovers and upgrades. -/
def roundAttempt (self : Nat) (p : SimulationPredicates) (round : Nat) :
    Prog Error State EngineOutcome := do
  Prog.ofExcept (Engine.checkBudget 1000)
  withEngine do
    (simulationEngine self p 1).recover
    (simulationEngine self p 1).upgrade (toString (round + 2)) "synthetic-artifact"

/-- An attempt that fails was cut off by the injected crash, or the simulation ends. -/
def countCrash (crashes : Nat) : Except Error EngineOutcome → Except Error Nat
  | .ok _ => .ok crashes
  | .error error =>
      if "synthetic crash".toList <+: error.message.toList then
        .ok (crashes + 1)
      else
        .error error

/-- What has to hold of the world at the end of a round. -/
def checkRound (initial : WorldSnapshot) (m : Model) : Except Error Unit :=
  if m.parked then
    .error (.invalid "HARNESS_PARKED: recovery did not resume")
  else
    match (workloadPreserved initial m.snapshot).or (serviceSettlesLive [m.snapshot] 1) with
    | some reason => .error (.invalid reason)
    | none => .ok ()

def simulateRound (self : Nat) (p : SimulationPredicates) (initial : WorldSnapshot) (round : Nat)
    (tally : Tally) : Prog Error State Tally := do
  let random := xorshift tally.random
  Prog.modify (injectCrash (crashAt random))
  let attempt ← Prog.attempt (roundAttempt self p round)
  let crashes ← Prog.ofExcept (countCrash tally.crashes attempt)
  let s ← Prog.get
  let boundaries := tally.boundaries + s.boundary
  Prog.modify (injectCrash none)
  Prog.ofExcept (Engine.checkBudget 1000)
  withEngine (simulationEngine self p 2).recover
  let s ← Prog.get
  Prog.ofExcept (checkRound initial s.model)
  pure { random, crashes, boundaries }

/-- The rounds `0..rounds`, in this order. -/
def simulateRounds (self : Nat) (p : SimulationPredicates) (initial : WorldSnapshot) :
    Nat → Tally → Prog Error State Tally
  | 0, tally => pure tally
  | rounds + 1, tally => do
      let tally ← simulateRounds self p initial rounds tally
      simulateRound self p initial rounds tally

/-- `simulate`, in a process of id `self`. -/
def simulate (self : Nat) (seed : UInt32) (rounds : Nat) (mutation : Mutation) :
    Res Error SimulationReceipt :=
  let world := mutate mutation (init "1")
  let p : SimulationPredicates := { refuse := seed % 5 = 0 }
  let run := simulateRounds self p world.model.snapshot rounds
    { random := max seed 1, crashes := 0, boundaries := 0 } world
  run.1.map fun tally =>
    { seed
      scenario := if p.refuse then "predicate-rollback" else "promote"
      rounds
      crashes := tally.crashes
      boundaries := tally.boundaries
      result := "pass" }

/-! ## what a worker costs -/

section Cost

variable {self : Nat} {p : SimulationPredicates} {now : Nat}

/-- Two boundaries for each effect. -/
def boundaryRates : Rates where
  append := 2
  stage := 2
  promote := 2
  clear := 2
  quiesce := 2
  stop := 2
  start := 2
  probe := 2
  resume := 2

/-- Only a start uses a process id up. -/
def startRates : Rates where
  append := 0
  stage := 0
  promote := 0
  clear := 0
  quiesce := 0
  stop := 0
  start := 1
  probe := 0
  resume := 0

/-- A step passes one boundary. -/
theorem step_boundary (label : String) : Spends (·.boundary) 1 (step label) := by
  intro s
  simp only [step]
  split
  · next fault _ => cases fault <;> exact Nat.le_refl _
  · split <;> exact Nat.le_refl _

/-- It leaves the model alone. -/
theorem step_model (label : String) (s : State) : (step label s).2.model = s.model := by
  simp only [step]
  split
  · next fault _ => cases fault <;> rfl
  · split <;> rfl

theorem step_incarnation (label : String) : Spends (·.model.incarnation) 0 (step label) := by
  intro s
  show (step label s).2.model.incarnation ≤ s.model.incarnation
  exact Nat.le_of_eq (congrArg Model.incarnation (step_model label s))

theorem interrupt_same (label : String) (s : State) : (interrupt label s).2 = s := by
  unfold interrupt
  cases s.failAt s.boundary label with
  | none => rfl
  | some fault => cases fault <;> rfl

theorem answered_spends {α : Type} {μ : State → Nat} {n : Nat} {m : Prog Error State α}
    (h : Spends μ n m) : Spends μ n (answered m) :=
  h.bind (k := 0) fun a => Spends.pure (some a)

/-- An effect passes a boundary before and one after. -/
theorem effect_boundary {α : Type} (name : String) (act : Act α) :
    Spends (·.boundary) 2 (effect name act) := by
  unfold effect
  have hget : Spends (·.boundary) 0 (Prog.get : Prog Error State State) := Spends.get
  have hmodify : ∀ m : Model, Spends (·.boundary) 0
      (Prog.modify fun s => { s with model := m } : Prog Error State Unit) :=
    fun m => Spends.modify fun s => Nat.le_refl _
  have hall := (step_boundary s!"before:{name}").bind fun _ => hget.bind fun s =>
    (Spends.ofExcept (n := 0) (act s.mutation s.model)).bind fun x => (hmodify x.2).bind fun _ =>
      (step_boundary s!"after:{name}").bind (k := 0) fun _ => Spends.pure x.1
  exact hall

/-- An effect uses up the process ids its act does. -/
theorem effect_incarnation {α : Type} {n : Nat} (name : String) {act : Act α}
    (hact : ∀ mutation m a m', act mutation m = .ok (a, m') →
      m'.incarnation ≤ m.incarnation + n) :
    Spends (·.model.incarnation) n (effect name act) := by
  unfold effect
  have hbody : Spends (·.model.incarnation) n (do
      let s ← Prog.get
      let x ← Prog.ofExcept (act s.mutation s.model)
      Prog.modify fun s => { s with model := x.2 }
      step s!"after:{name}"
      pure x.1) := by
    intro s
    simp only [Prog.bind_run, Prog.get_run]
    cases hx : act s.mutation s.model with
    | error e => exact Nat.le_add_right _ _
    | ok x =>
        have hm := hact _ _ x.1 x.2 hx
        have hmodel := step_model s!"after:{name}" { s with model := x.2 }
        simp only [Prog.ofExcept_ok_run, Prog.modify_run]
        generalize step s!"after:{name}" { s with model := x.2 } = r at hmodel ⊢
        obtain ⟨r, t⟩ := r
        have hle : t.model.incarnation ≤ s.model.incarnation + n := by
          rw [hmodel]
          exact hm
        cases r <;> exact hle
  have hall := (step_incarnation s!"before:{name}").bind fun _ => hbody
  rwa [Nat.zero_add] at hall

/-- A stop starts no process. -/
theorem stopAct_incarnation {mutation : Mutation} {m m' : Model} {a : Unit}
    (h : stopAct mutation m = .ok (a, m')) : m'.incarnation = m.incarnation := by
  simp only [stopAct, Except.ok.injEq, Prod.mk.injEq] at h
  rw [← h.2]
  split <;> rfl

/-- A start starts one at most. -/
theorem startAct_incarnation {slot : Slot} {mutation : Mutation} {m m' : Model} {a : Unit}
    (h : startAct slot mutation m = .ok (a, m')) : m'.incarnation ≤ m.incarnation + 1 := by
  unfold startAct at h
  split at h
  · split at h
    · cases h
    · cases h
      exact Nat.le_refl _
  · cases h
    exact Nat.le_succ _

/-- Every act but a start keeps the count of incarnations. -/
theorem effect_incarnation_same {α : Type} (name : String) {act : Act α}
    (hact : ∀ mutation m a m', act mutation m = .ok (a, m') → m'.incarnation = m.incarnation) :
    Spends (·.model.incarnation) 0 (effect name act) :=
  effect_incarnation name fun mutation m a m' h => by rw [hact mutation m a m' h]; omega

theorem evaluate_same (μ : State → Nat) (evidence : Evidence) (target : String) :
    Spends μ 0 ((simulationEngine self p now).predicates.evaluate evidence target) :=
  answered_spends (Spends.ofExcept _)

theorem read_same {α : Type} (μ : State → Nat) (label : String) (reply : State → α) :
    Spends μ 0 (do
      interrupt label
      let s ← Prog.get
      pure (reply s)) :=
  (Spends.of_same (n := 0) (interrupt_same label)).bind fun _ =>
    (Spends.get (n := 0)).bind (k := 0) fun s => Spends.pure (reply s)

/-- What each call costs in boundaries. -/
theorem priced_boundary : Priced (simulationEngine self p now) (·.boundary) boundaryRates where
  readJournal := read_same _ "read_journal" fun s => s.model.journal
  append entry := effect_boundary "journal" (appendAct entry)
  versions := read_same _ "versions" fun s =>
    [("stable", s.model.stable), ("experiment", s.model.experiment)]
  stage version _ := effect_boundary "stage" (stageAct version)
  promote := effect_boundary "promote" promoteAct
  clear := effect_boundary "clear" clearAct
  fence := answered_spends (Spends.of_same (interrupt_same "fence"))
  quiesce := answered_spends (effect_boundary "quiesce" quiesceAct)
  stop _ := answered_spends (effect_boundary "stop" stopAct)
  start slot := answered_spends (effect_boundary "start" (startAct slot))
  probe := answered_spends (effect_boundary "probe" probeAct)
  resume := answered_spends (effect_boundary "resume" resumeAct)
  evaluate evidence target := evaluate_same _ evidence target

/-- What each call costs in processes. -/
theorem priced_incarnation :
    Priced (simulationEngine self p now) (·.model.incarnation) startRates where
  readJournal := read_same _ "read_journal" fun s => s.model.journal
  append entry := effect_incarnation_same "journal" fun mutation m a m' h => by
    simp only [appendAct, Except.ok.injEq, Prod.mk.injEq] at h
    rw [← h.2]
    split <;> rfl
  versions := read_same _ "versions" fun s =>
    [("stable", s.model.stable), ("experiment", s.model.experiment)]
  stage version _ := effect_incarnation_same "stage" fun mutation m a m' h => by
    simp only [stageAct, Except.ok.injEq, Prod.mk.injEq] at h
    rw [← h.2]
    split <;> rfl
  promote := effect_incarnation_same "promote" fun mutation m a m' h => by
    cases h
    rfl
  clear := effect_incarnation_same "clear" fun mutation m a m' h => by
    cases h
    rfl
  fence := answered_spends (Spends.of_same (interrupt_same "fence"))
  quiesce := answered_spends (effect_incarnation_same "quiesce" fun mutation m a m' h => by
    cases h
    rfl)
  stop _ := answered_spends (effect_incarnation_same "stop" fun mutation m a m' h =>
    stopAct_incarnation h)
  start slot := answered_spends (effect_incarnation "start" fun mutation m a m' h =>
    startAct_incarnation h)
  probe := answered_spends (effect_incarnation_same "probe" fun mutation m a m' h => by
    unfold probeAct at h
    split at h <;> cases h
    rfl)
  resume := answered_spends (effect_incarnation_same "resume" fun mutation m a m' h => by
    simp only [resumeAct, Except.ok.injEq, Prod.mk.injEq] at h
    rw [← h.2]
    split <;> split <;> rfl)
  evaluate evidence target := evaluate_same _ evidence target

/-- A measure of the world costs a new worker what it costs the engine it runs. -/
theorem withEngine_spends {α : Type} {μ : State → Nat} {n : Nat}
    {m : Prog Error (Running State) α} (h : Spends (Priced.OfWorld μ) n m) :
    Spends μ n (withEngine m) := by
  intro s
  exact h ⟨s, 0⟩

/-- An attempt costs a recovery and an upgrade at most. -/
theorem roundAttempt_spends {μ : State → Nat} {r : Rates}
    (h : Priced (simulationEngine self p 1) μ r) (round : Nat) :
    Spends μ (r.recover + r.upgrade) (roundAttempt self p round) := by
  have hbody := withEngine_spends (h.recover_spends.bind fun _ =>
    h.upgrade_spends (toString (round + 2)) "synthetic-artifact")
  have hall := (Spends.ofExcept (n := 0) (μ := μ) (Engine.checkBudget 1000)).bind fun _ => hbody
  rwa [Nat.zero_add] at hall

/-- **The attempt of a round** passes at most forty boundaries, so the random numbers below
44 name every one of them, and none. -/
theorem roundAttempt_boundary (round : Nat) :
    Spends (·.boundary) 40 (roundAttempt self p round) :=
  roundAttempt_spends priced_boundary round

/-- It starts at most three processes. -/
theorem roundAttempt_incarnation (round : Nat) :
    Spends (·.model.incarnation) 3 (roundAttempt self p round) :=
  roundAttempt_spends priced_incarnation round

/-- A recovery starts one process at most. -/
theorem recovery_incarnation :
    Spends (·.model.incarnation) 1 (withEngine (simulationEngine self p 2).recover) :=
  withEngine_spends priced_incarnation.recover_spends

end Cost

end FakeHost

end KCarrier
