import KCarrier.Harness.Outline

/-!
# KCarrier.Harness.Converge

Rounds of recovery and upgrade on the harness world, cut off anywhere.

A round is one worker that recovers and upgrades under a fault plan, and then any
number of workers that only try to recover, each under a plan of its own.  The two
results about every sequence of rounds:

* `recovery_converges` — the next recovery that meets no fault succeeds and
  settles the machine on the version the journal decided;
* `boundaries_safe` — no built-in invariant was violated at any boundary on the way.
-/

namespace KCarrier

open Crash
open Running

namespace FakeHost

/-! ## rounds -/

/-- One round of the harness: `faults` plans the worker that upgrades, `retries`
the workers that recover after it. -/
structure Round where
  target : String
  verdict : Verdict
  faults : Plan
  retries : List Plan

/-- A new worker recovers. -/
def recovery (verdict : Verdict) (plan : Plan) (s : State) : Res Error Unit × Running State :=
  (engine verdict).recover ⟨inject plan s, 0⟩

/-- A new worker recovers and then upgrades. -/
def attempt (verdict : Verdict) (target : String) (plan : Plan) (s : State) :
    Res Error EngineOutcome × Running State :=
  ((engine verdict).recover >>= fun _ => (engine verdict).upgrade target "synthetic-artifact")
    ⟨inject plan s, 0⟩

def Round.retry (round : Round) (s : State) : State :=
  round.retries.foldl (fun s plan => (recovery round.verdict plan s).2.world) s

def Round.run (round : Round) (s : State) : State :=
  round.retry (attempt round.verdict round.target round.faults s).2.world

def run (rounds : List Round) (s : State) : State :=
  rounds.foldl (fun s round => round.run s) s

theorem run_concat (rounds : List Round) (round : Round) (s : State) :
    run (rounds ++ [round]) s = round.run (run rounds s) := by
  simp [run]

/-! ## what a worker leaves behind -/

/-- A state a worker may be started on: sane instruments, a sound machine. -/
def Ready (s : State) : Prop := (∃ plan, Sane plan s) ∧ s.model.Sound

theorem Sane.inject {plan plan' : Plan} {s : State} (h : Sane plan s) :
    Sane plan' (FakeHost.inject plan' s) :=
  ⟨h.mutation, rfl, h.seen⟩

theorem ready_init (version : String) : Ready (init version) := by
  refine ⟨⟨Plan.clean, rfl, rfl, ?_⟩, ⟨?_, .inl rfl, ?_, rfl, ?_⟩, rfl, rfl, ?_⟩
  · intro snapshot h
    cases h
  · simp [init, Model.init]
  · intro h
    rfl
  · intro e h
    cases h
  · exact ⟨_, rfl, rfl, rfl⟩

/-- A recovery settles the machine, or was cut off by its plan in a sound state;
either way it decides nothing new. -/
theorem recovery_ends (verdict : Verdict) (plan : Plan) {s : State} (h : Ready s) :
    Ends
      (fun _ r => Sane plan r.world ∧ r.world.model.Settled ∧ Model.Kept s.model r.world.model)
      (fun _ r => Sane plan r.world ∧ r.world.model.Sound ∧ Model.Kept s.model r.world.model ∧
        plan ≠ Plan.clean)
      (recovery verdict plan s) := by
  obtain ⟨⟨plan', hsane⟩, hsound⟩ := h
  have houtline : RecoverOutline (engine verdict)
      (Assert plan "" (Model.Kept s.model) (Model.Kept s.model))
      (CutOff plan (plan ≠ Plan.clean) (Model.Kept s.model) (Model.Kept s.model)) :=
    recoverOutline (fun hne => hne) (tracks_kept_self s.model)
  have hend := houtline.recover_triple ⟨inject plan s, 0⟩
    ⟨hsane.inject, hsound, Model.Kept.refl s.model⟩
  refine hend.mono (fun _ r hr => ?_) (fun _ r hr => ?_)
  · obtain ⟨ended, hr⟩ := hr
    have hkept := tracked_or hr.2.2
    rw [or_self] at hkept
    exact ⟨hr.1, hr.2.1, hkept⟩
  · obtain ⟨hr, hm, hk, hblame⟩ := hr
    rw [or_self] at hk
    exact ⟨hr, hm, hk, hblame⟩

/-- Whatever became of it, a recovery leaves a state the next worker may start on. -/
theorem recovery_ready (verdict : Verdict) (plan : Plan) {s : State} (h : Ready s) :
    Ready (recovery verdict plan s).2.world ∧
      Model.Kept s.model (recovery verdict plan s).2.world.model := by
  have hend := recovery_ends verdict plan h
  generalize recovery verdict plan s = o at hend ⊢
  obtain ⟨o, r⟩ := o
  cases o with
  | ok u => exact ⟨⟨⟨plan, hend.1⟩, hend.2.1.sound⟩, hend.2.2⟩
  | err e => exact ⟨⟨⟨plan, hend.1⟩, hend.2.1⟩, hend.2.2.1⟩
  | crash => exact ⟨⟨⟨plan, hend.1⟩, hend.2.1⟩, hend.2.2.1⟩

/-- A recovery under the clean plan returns. -/
theorem recovery_clean (verdict : Verdict) {s : State} (h : Ready s) :
    ∃ r, recovery verdict Plan.clean s = (.ok (), r) ∧ r.world.model.Settled ∧
      Model.Kept s.model r.world.model := by
  have hend := recovery_ends verdict Plan.clean h
  generalize recovery verdict Plan.clean s = o at hend ⊢
  obtain ⟨o, r⟩ := o
  cases o with
  | ok u => exact ⟨r, rfl, hend.2⟩
  | err e => exact absurd rfl hend.2.2.2
  | crash => exact absurd rfl hend.2.2.2

/-- The worker of a round follows the machine without a promoted intent, or with
the one of its target. -/
theorem attempt_ready (verdict : Verdict) (target : String) (plan : Plan) {s : State}
    (h : Ready s) :
    Ready (attempt verdict target plan s).2.world ∧
      (Model.Kept s.model (attempt verdict target plan s).2.world.model ∨
        Model.Decided target s.model (attempt verdict target plan s).2.world.model) := by
  obtain ⟨⟨plan', hsane⟩, hsound⟩ := h
  have hrecover : Triple
      (Assert plan target (Model.Kept s.model) (Model.Kept s.model) .entry)
      (engine verdict).recover
      (fun _ => Assert plan target (Model.Kept s.model) (Model.Decided target s.model) (.rest none))
      (CutOff plan True (Model.Kept s.model) (Model.Decided target s.model)) := by
    have houtline : RecoverOutline (engine verdict)
        (Assert plan target (Model.Kept s.model) (Model.Kept s.model))
        (CutOff plan True (Model.Kept s.model) (Model.Kept s.model)) :=
      recoverOutline (fun _ => trivial) (tracks_kept_self s.model)
    refine houtline.recover_triple.conseq (fun _ hr => hr) (fun _ r hr => ?_) fun _ r hr => ?_
    · obtain ⟨ended, hr⟩ := hr
      have hkept := tracked_or hr.2.2
      rw [or_self] at hkept
      exact ⟨hr.1, hr.2.1, hkept⟩
    · obtain ⟨hr, hm, hk, -⟩ := hr
      rw [or_self] at hk
      exact ⟨hr, hm, .inl hk, trivial⟩
  have hattempt := Triple.bind hrecover fun _ =>
    (upgradeOutline plan verdict s.model target "synthetic-artifact").upgrade_triple
  have hend := hattempt ⟨inject plan s, 0⟩ ⟨hsane.inject, hsound, Model.Kept.refl s.model⟩
  unfold attempt
  generalize ((engine verdict).recover >>= fun _ =>
    (engine verdict).upgrade target "synthetic-artifact") ⟨inject plan s, 0⟩ = o at hend ⊢
  obtain ⟨o, r⟩ := o
  cases o with
  | ok outcome =>
      cases outcome with
      | promoted v => exact ⟨⟨⟨plan, hend.2.1⟩, hend.2.2.1.sound⟩, .inr hend.2.2.2⟩
      | rolledBack reason => exact ⟨⟨⟨plan, hend.1⟩, hend.2.1.sound⟩, .inl hend.2.2⟩
      | upToDate => exact ⟨⟨⟨plan, hend.1⟩, hend.2.1.sound⟩, .inl hend.2.2⟩
  | err e => exact ⟨⟨⟨plan, hend.1⟩, hend.2.1⟩, hend.2.2.1⟩
  | crash => exact ⟨⟨⟨plan, hend.1⟩, hend.2.1⟩, hend.2.2.1⟩

/-! ## every run of rounds -/

/-- Retried recoveries follow the machine without a promoted intent. -/
theorem Round.retry_ready (round : Round) {s : State} (h : Ready s) :
    Ready (round.retry s) ∧ Model.Kept s.model (round.retry s).model := by
  unfold Round.retry
  induction round.retries generalizing s with
  | nil => exact ⟨h, Model.Kept.refl s.model⟩
  | cons plan plans ih =>
      obtain ⟨hready, hkept⟩ := recovery_ready round.verdict plan h
      obtain ⟨hready', hkept'⟩ := ih hready
      rw [List.foldl_cons]
      exact ⟨hready', hkept.trans hkept'⟩

/-- **One round**: its end is a state to start from, and it decided either nothing
or its own target. -/
theorem Round.run_ready (round : Round) {s : State} (h : Ready s) :
    Ready (round.run s) ∧
      (Model.Kept s.model (round.run s).model ∨
        Model.Decided round.target s.model (round.run s).model) := by
  obtain ⟨hready, hdecided⟩ := attempt_ready round.verdict round.target round.faults h
  obtain ⟨hready', hkept⟩ := round.retry_ready hready
  refine ⟨hready', ?_⟩
  rcases hdecided with hk | hd
  · exact .inl (hk.trans hkept)
  · exact .inr (hd.trans hkept)

/-- **Every run of rounds** ends in a state to start from. -/
theorem run_ready (rounds : List Round) {s : State} (h : Ready s) : Ready (run rounds s) := by
  unfold run
  induction rounds generalizing s with
  | nil => exact h
  | cons round rounds ih =>
      rw [List.foldl_cons]
      exact ih (round.run_ready h).1

/-- A settled machine holds its committed version. -/
theorem Model.Settled.committed {m : Model} (h : m.Settled) : m.committed = m.stable :=
  Model.committed_of_experiment_none h.experiment

/-- The stable slot of a settled machine that followed `m₀` through a round. -/
theorem Model.Kept.stable_of_settled {m₀ m : Model} (hk : Model.Kept m₀ m) (hm : m.Settled) :
    m.stable = m₀.committed := by
  obtain ⟨t, -, -, hc⟩ := hk
  rw [← hm.committed, hc]

/-- What the round that led from `before` to the settled `after` decided: its target
if it journaled the promoted intent, else what stood before the round.  A round may
start on the unpublished promotion of an earlier one; what stood before it is then
the version a recovery puts in the stable slot. -/
def Converged (target : String) (before : State) (after : Model) : Prop :=
  ∃ t, after.journal = before.model.journal ++ t ∧
    ((∃ e ∈ t, e.intent = .promoted) → after.stable = some target) ∧
    ((∀ e ∈ t, e.intent ≠ .promoted) →
      (before.model.experiment = none ∨ lastIntent before.model.journal ≠ some .promoted →
        after.stable = before.model.stable) ∧
      ∀ verdict r, recovery verdict Plan.clean before = (.ok (), r) →
        after.stable = r.world.model.stable)

theorem converged_of_kept {target : String} {before : State} {after : Model}
    (hready : Ready before) (hk : Model.Kept before.model after) (hm : after.Settled) :
    Converged target before after := by
  have hs : after.stable = before.model.committed := hk.stable_of_settled hm
  obtain ⟨t, hj, ht, -⟩ := hk
  refine ⟨t, hj, ?_, fun _ => ⟨?_, ?_⟩⟩
  · intro ⟨e, he, hp⟩
    exact absurd hp (ht e he)
  · intro hb
    rw [hs]
    rcases hb with hb | hb
    · exact Model.committed_of_experiment_none hb
    · exact Model.committed_of_tail_ne hb
  · intro verdict r hr
    obtain ⟨r', hr', hset, hk'⟩ := recovery_clean verdict hready
    rw [hr] at hr'
    cases hr'
    rw [hs, hk'.stable_of_settled hset]

theorem converged_of_decided {target : String} {before : State} {after : Model}
    (hd : Model.Decided target before.model after) (hm : after.Settled) :
    Converged target before after := by
  obtain ⟨t, hj, ⟨e, he, hp⟩, hc⟩ := hd
  refine ⟨t, hj, ?_, ?_⟩
  · intro _
    rw [← hm.committed, hc]
  · intro h
    exact absurd hp (h e he)

/-- **Crash-recovery convergence**: after any rounds, cut off anywhere, a recovery
that meets no fault returns and leaves one live process of the stable slot, no
experiment, no parked workload, and the stable version the last round decided. -/
theorem recovery_converges (version : String) (rounds : List Round) (verdict : Verdict) :
    ∃ r, recovery verdict Plan.clean (run rounds (init version)) = (.ok (), r) ∧
      r.world.model.experiment = none ∧
      r.world.model.parked = false ∧
      r.world.model.workload = (init version).model.workload ∧
      (∃ p, r.world.model.live = [p] ∧ r.world.model.stable = some p.version) ∧
      (rounds = [] → r.world.model.stable = some version) ∧
      ∀ earlier last, rounds = earlier ++ [last] →
        Converged last.target (run earlier (init version)) r.world.model := by
  have hready : Ready (run rounds (init version)) := run_ready rounds (ready_init version)
  obtain ⟨r, hr, hset, hkept⟩ := recovery_clean verdict hready
  refine ⟨r, hr, hset.experiment, hset.parked, hset.base.workload, ?_, ?_, ?_⟩
  · obtain ⟨p, hl, -, hv⟩ := hset.serving
    exact ⟨p, hl, hv⟩
  · intro hnil
    subst hnil
    rw [hkept.stable_of_settled hset]
    rfl
  · intro earlier last hrounds
    subst hrounds
    have hbefore : Ready (run earlier (init version)) := run_ready earlier (ready_init version)
    rw [run_concat] at hkept
    rcases (last.run_ready hbefore).2 with hk | hd
    · exact converged_of_kept hbefore (hk.trans hkept) hset
    · exact converged_of_decided (hd.trans hkept) hset

/-- The explicit content of the built-in invariants at a boundary. -/
structure BoundarySafe (s : WorldSnapshot) : Prop where
  violations : checkInvariants s BUILT_IN_INVARIANTS = []
  oneLive : s.liveProcesses.length ≤ 1
  notBricked : ¬(s.slots.stable = none ∧ s.slots.experiment = none)
  matchesSlot : ∀ p ∈ s.liveProcesses, s.slots.get p.slot = some p.version
  journaled : s.phase = .idle ∨ s.phase ∈ s.journalIntents
  terminal : s.phase = .promoted ∨ s.phase = .rolledBack → s.slots.experiment = none

theorem Model.Sound.boundarySafe {m : Model} (h : m.Sound) : BoundarySafe m.snapshot where
  violations := (checkInvariants_eq_nil_iff _).mpr h.safe
  oneLive := h.safe.neverDualRun
  notBricked := fun hb => h.base.stable hb.1
  matchesSlot := by
    intro p hp
    have hp : p ∈ m.live := hp
    rcases h.tail.live with ⟨q, hq, hslot, hver⟩ | hq | ⟨q, hq, hslot, hver⟩
    · rw [hq, List.mem_singleton] at hp
      subst hp
      rw [hslot]
      exact hver
    · have hnil : m.live = [] := hq
      rw [hnil] at hp
      cases hp
    · rw [hq, List.mem_singleton] at hp
      subst hp
      rw [hslot]
      exact hver
  journaled := h.base.journaled
  terminal := h.base.noExperiment

/-- **Stepwise safety**: at every boundary of every run of rounds, those at which a
fault hit included, and of one more recovery under any plan, no built-in invariant
is violated. -/
theorem boundaries_safe (version : String) (rounds : List Round) (verdict : Verdict)
    (plan : Plan) :
    ∀ snapshot ∈ (recovery verdict plan (run rounds (init version))).2.world.seen,
      BoundarySafe snapshot := by
  intro snapshot h
  have hready : Ready (run rounds (init version)) := run_ready rounds (ready_init version)
  obtain ⟨⟨⟨plan', hsane⟩, -⟩, -⟩ := recovery_ready verdict plan hready
  obtain ⟨m, hm, rfl⟩ := hsane.seen snapshot h
  exact hm.boundarySafe

/-- A worker is cut off in its handover, the next one in its recovery, and the third one stops
the service on the way back. -/
def cutOffTwice : Round :=
  ⟨"2", fun _ _ _ => .ok none, Plan.once (some 9), [Plan.once (some 2)]⟩

theorem boundaries_safe_cutOff :
    ∃ snapshot ∈ (recovery cutOffTwice.verdict Plan.clean
        (run [cutOffTwice] (init "1"))).2.world.seen,
      snapshot.phase = .staged ∧ snapshot.liveProcesses = [] ∧ BoundarySafe snapshot := by
  obtain ⟨snapshot, hmem, hphase, hlive⟩ : ∃ snapshot ∈ (recovery cutOffTwice.verdict Plan.clean
      (run [cutOffTwice] (init "1"))).2.world.seen,
      snapshot.phase = .staged ∧ snapshot.liveProcesses = [] := by decide +kernel
  exact ⟨snapshot, hmem, hphase, hlive, boundaries_safe _ _ _ _ snapshot hmem⟩

end FakeHost

end KCarrier
