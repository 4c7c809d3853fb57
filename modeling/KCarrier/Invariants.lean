import KCarrier.State

/-!
# KCarrier.Invariants

The observation-based checks shared by adopters and the fault harness: each takes
a snapshot of one managed service and answers with a reason when it is violated.

`Safe` says the same in words; `checkInvariants_eq_nil_iff` connects the two.
-/

namespace KCarrier

structure LiveProcess where
  slot : Slot
  pid : Nat
  startId : String
  version : String
deriving DecidableEq, Repr

structure Slots where
  stable : Option String
  experiment : Option String
deriving DecidableEq, Repr

/-- The version a slot holds. -/
def Slots.get (s : Slots) : Slot → Option String
  | .stable => s.stable
  | .experiment => s.experiment

inductive Ownership where
  | selfOwned
  | managedElsewhere
deriving DecidableEq, Repr

structure WorldSnapshot where
  phase : Phase
  slots : Slots
  liveProcesses : List LiveProcess
  journalIntents : List Phase
  workloadDigest : Option String
  priorIncarnationStartId : Option String
  installOwnership : Option Ownership
deriving DecidableEq, Repr

structure Invariant where
  id : String
  check : WorldSnapshot → Option String

structure Violation where
  invariantId : String
  reason : String
deriving DecidableEq, Repr

/-! ## the checks -/

def neverDualRun (s : WorldSnapshot) : Option String :=
  if s.liveProcesses.length > 1 then
    some s!"{s.liveProcesses.length} live incarnations"
  else
    none

def neverBricked (s : WorldSnapshot) : Option String :=
  if s.slots.stable.isNone && s.slots.experiment.isNone then some "both slots empty" else none

/-- The first live process that reports another version than its slot holds.  An
empty slot is no mismatch. -/
def liveProcessMatchesSlot (s : WorldSnapshot) : Option String :=
  s.liveProcesses.findSome? fun p =>
    match s.slots.get p.slot with
    | some v =>
        if v ≠ p.version then
          some s!"slot holds {v} but live process reports {p.version}"
        else
          none
    | none => none

def journalPrecedesPhase (s : WorldSnapshot) : Option String :=
  if s.phase ≠ .idle ∧ s.phase ∉ s.journalIntents then
    some s!"phase {s.phase.debugName} has no journal intent"
  else
    none

def terminalLeavesNoExperiment (s : WorldSnapshot) : Option String :=
  if (s.phase = .promoted ∨ s.phase = .rolledBack) ∧ s.slots.experiment.isSome then
    some "terminal transaction retains experiment"
  else
    none

def managedCopyNeverSelfUpgrades (s : WorldSnapshot) : Option String :=
  if s.installOwnership = some .managedElsewhere ∧ s.phase ≠ .idle then
    some "externally managed installation entered a transaction"
  else
    none

def BUILT_IN_INVARIANTS : List Invariant :=
  [⟨"k.never-dual-run", neverDualRun⟩,
    ⟨"k.never-bricked", neverBricked⟩,
    ⟨"k.live-process-matches-slot", liveProcessMatchesSlot⟩,
    ⟨"k.journal-precedes-phase", journalPrecedesPhase⟩,
    ⟨"k.terminal-leaves-no-experiment", terminalLeavesNoExperiment⟩,
    ⟨"k.managed-copy-never-self-upgrades", managedCopyNeverSelfUpgrades⟩]

def checkInvariants (snapshot : WorldSnapshot) (invariants : List Invariant) : List Violation :=
  invariants.filterMap fun i => (i.check snapshot).map fun reason => ⟨i.id, reason⟩

/-! ## what the checks mean -/

/-- The built-in invariants in words. -/
structure Safe (s : WorldSnapshot) : Prop where
  neverDualRun : s.liveProcesses.length ≤ 1
  neverBricked : s.slots.stable ≠ none ∨ s.slots.experiment ≠ none
  matchesSlot : ∀ p ∈ s.liveProcesses, ∀ v, s.slots.get p.slot = some v → v = p.version
  journaled : s.phase = .idle ∨ s.phase ∈ s.journalIntents
  noExperiment : s.phase = .promoted ∨ s.phase = .rolledBack → s.slots.experiment = none
  selfOwned : s.installOwnership = some .managedElsewhere → s.phase = .idle

/-- One process at most. -/
theorem neverDualRun_eq_none_iff (s : WorldSnapshot) :
    neverDualRun s = none ↔ s.liveProcesses.length ≤ 1 := by
  simp [neverDualRun]

/-- Some slot can be started. -/
theorem neverBricked_eq_none_iff (s : WorldSnapshot) :
    neverBricked s = none ↔ s.slots.stable ≠ none ∨ s.slots.experiment ≠ none := by
  cases hs : s.slots.stable <;> cases hx : s.slots.experiment <;> simp [neverBricked, hs, hx]

/-- A process runs what its slot holds. -/
theorem liveProcessMatchesSlot_eq_none_iff (s : WorldSnapshot) :
    liveProcessMatchesSlot s = none ↔
      ∀ p ∈ s.liveProcesses, ∀ v, s.slots.get p.slot = some v → v = p.version := by
  unfold liveProcessMatchesSlot
  rw [List.findSome?_eq_none_iff]
  constructor
  · intro h p hp v hv
    have := h p hp
    simpa [hv] using this
  · intro h p hp
    cases hv : s.slots.get p.slot with
    | none => rfl
    | some v => simp [h p hp v hv]

/-- A phase that is not idle has its entry. -/
theorem journalPrecedesPhase_eq_none_iff (s : WorldSnapshot) :
    journalPrecedesPhase s = none ↔ s.phase = .idle ∨ s.phase ∈ s.journalIntents := by
  unfold journalPrecedesPhase
  by_cases hi : s.phase = .idle
  · simp [hi]
  · by_cases hj : s.phase ∈ s.journalIntents <;> simp [hi, hj]

/-- The experiment is gone at both ends. -/
theorem terminalLeavesNoExperiment_eq_none_iff (s : WorldSnapshot) :
    terminalLeavesNoExperiment s = none ↔
      (s.phase = .promoted ∨ s.phase = .rolledBack → s.slots.experiment = none) := by
  unfold terminalLeavesNoExperiment
  cases hx : s.slots.experiment <;> simp

/-- An install owned elsewhere is idle. -/
theorem managedCopyNeverSelfUpgrades_eq_none_iff (s : WorldSnapshot) :
    managedCopyNeverSelfUpgrades s = none ↔
      (s.installOwnership = some .managedElsewhere → s.phase = .idle) := by
  unfold managedCopyNeverSelfUpgrades
  by_cases ho : s.installOwnership = some .managedElsewhere <;> simp [ho]

/-- No built-in invariant is violated exactly on the safe snapshots. -/
theorem checkInvariants_eq_nil_iff (s : WorldSnapshot) :
    checkInvariants s BUILT_IN_INVARIANTS = [] ↔ Safe s := by
  have hall : checkInvariants s BUILT_IN_INVARIANTS = [] ↔
      ∀ i ∈ BUILT_IN_INVARIANTS, i.check s = none := by
    simp [checkInvariants]
  rw [hall]
  simp only [BUILT_IN_INVARIANTS, List.forall_mem_cons, List.not_mem_nil, false_implies,
    implies_true, and_true]
  rw [neverDualRun_eq_none_iff, neverBricked_eq_none_iff, liveProcessMatchesSlot_eq_none_iff,
    journalPrecedesPhase_eq_none_iff, terminalLeavesNoExperiment_eq_none_iff,
    managedCopyNeverSelfUpgrades_eq_none_iff]
  constructor
  · rintro ⟨h1, h2, h3, h4, h5, h6⟩
    exact ⟨h1, h2, h3, h4, h5, h6⟩
  · intro h
    exact ⟨h.neverDualRun, h.neverBricked, h.matchesSlot, h.journaled, h.noExperiment,
      h.selfOwned⟩

end KCarrier
