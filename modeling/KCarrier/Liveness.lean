import KCarrier.Invariants

/-!
# KCarrier.Liveness

The bounded-liveness checks on a trace of snapshots.

Each check has its own notion of an end: idleness counts as terminal, and only the last
phase of a trace is looked at.  On the whole trace of a transaction, which begins idle,
both have nothing to complain of (`reachesTerminalWithin_whole`, `serviceSettlesLive_whole`);
`oracles_verdicts` is what their verdicts establish.
-/

namespace KCarrier

/-! ## the checks -/

def terminal (phase : Phase) : Bool := phase = .idle ∨ phase = .promoted ∨ phase = .rolledBack

def reachesTerminalWithin (trace : List Phase) (maxSteps : Nat) : Option String :=
  if trace.getLast?.any terminal then
    none
  else if trace.length ≥ maxSteps then
    some (s!"transaction has not reached terminal after {trace.length} steps " ++
      s!"(limit {maxSteps})")
  else
    none

/-- A live process reports the version of the stable slot. -/
def WorldSnapshot.showsStable (s : WorldSnapshot) : Bool :=
  s.slots.stable.any fun v => s.liveProcesses.any fun p => p.version == v

def serviceSettlesLive (observations : List WorldSnapshot) (maxObservations : Nat) :
    Option String :=
  match observations.findIdx? fun s => terminal s.phase with
  | none => none
  | some first =>
      if ((observations.drop first).take maxObservations).any (·.showsStable) then
        none
      else
        some ("terminal transaction has no live stable incarnation within " ++
          s!"{maxObservations} observations")

/-! ## what the verdicts mean -/

section Verdicts

variable {trace : List WorldSnapshot} {n : Nat}

/-- No complaint about the steps: the trace ends in a terminal phase, or is still short. -/
theorem reachesTerminalWithin_eq_none_iff {phases : List Phase} :
    reachesTerminalWithin phases n = none ↔
      phases.getLast?.any terminal = true ∨ phases.length < n := by
  unfold reachesTerminalWithin
  by_cases hlast : phases.getLast?.any terminal = true
  · simp [hlast]
  · rw [if_neg hlast]
    by_cases hlong : phases.length ≥ n
    · simp [hlast, hlong]
    · simp [hlong]
      omega

/-- No complaint about the service: nothing terminal was seen, or the stable version is live
in one of the `n` snapshots from the first terminal phase on. -/
theorem serviceSettlesLive_eq_none_iff :
    serviceSettlesLive trace n = none ↔
      ∀ first, trace.findIdx? (fun s => terminal s.phase) = some first →
        ∃ s ∈ (trace.drop first).take n, s.showsStable = true := by
  unfold serviceSettlesLive
  cases trace.findIdx? fun s => terminal s.phase with
  | none => simp
  | some first =>
      have hany : ((trace.drop first).take n).any (·.showsStable) = true ↔
          ∃ s ∈ (trace.drop first).take n, s.showsStable = true := List.any_eq_true
      simp only [Option.some.injEq, forall_eq']
      rw [← hany]
      by_cases hlive : ((trace.drop first).take n).any (·.showsStable) = true <;> simp [hlive]

end Verdicts

/-! ## the trace of a transaction -/

/-- A promotion or a rollback ends here. -/
def WorldSnapshot.closed (s : WorldSnapshot) : Bool :=
  s.phase = .promoted ∨ s.phase = .rolledBack

/-- From an idle service that is live, through a transaction, to its end. -/
structure WholeTrace (trace : List WorldSnapshot) : Prop where
  starts : ∃ s, trace.head? = some s ∧ s.phase = .idle ∧ s.showsStable = true
  opens : ∃ s ∈ trace, terminal s.phase = false
  ends : ∃ s, trace.getLast? = some s ∧ s.closed = true

/-- Where the first phase in flight is. -/
def openedAt (trace : List WorldSnapshot) : Nat := trace.findIdx fun s => !terminal s.phase

/-- Where the transaction's terminal phase is. -/
def closedAt (trace : List WorldSnapshot) : Nat :=
  openedAt trace + (trace.drop (openedAt trace)).findIdx (·.closed)

/-- The stable version is live in one of the `n` snapshots from the terminal phase on. -/
def LiveWithin (trace : List WorldSnapshot) (n : Nat) : Prop :=
  ∃ s ∈ (trace.drop (closedAt trace)).take n, s.showsStable = true

/-- Where the checks see the transaction end: they count an idle phase, too. -/
def endedAt (trace : List WorldSnapshot) : Nat :=
  openedAt trace + (trace.drop (openedAt trace)).findIdx fun s => terminal s.phase

/-- What the two verdicts are worth: of the first phases of the trace, of the trace, and of
the trace from the first phase in flight on. -/
structure VerdictsSound (trace : List WorldSnapshot) (n : Nat) : Prop where
  reaches : openedAt trace < n →
    reachesTerminalWithin ((trace.take n).map (·.phase)) n = none → endedAt trace < n
  settles : serviceSettlesLive trace n = none → ∃ s ∈ trace.take n, s.showsStable = true
  afterwards : serviceSettlesLive (trace.drop (openedAt trace)) n = none →
    ∃ s ∈ (trace.drop (endedAt trace)).take n, s.showsStable = true
  ends : (∀ s ∈ trace.drop (openedAt trace), s.phase ≠ .idle) → endedAt trace = closedAt trace

namespace WholeTrace

variable {trace : List WorldSnapshot} {n : Nat}

theorem terminal_of_closed {s : WorldSnapshot} (h : s.closed = true) :
    terminal s.phase = true := by
  simp only [WorldSnapshot.closed, decide_eq_true_eq] at h
  rcases h with h | h <;> rw [h] <;> rfl

/-- The transaction comes to its terminal phase within the trace. -/
theorem closedAt_lt (h : WholeTrace trace) : closedAt trace < trace.length := by
  obtain ⟨busy, hmem, hbusy⟩ := h.opens
  obtain ⟨last, hlast, hclosed⟩ := h.ends
  have hopened : openedAt trace < trace.length :=
    List.findIdx_lt_length_of_exists ⟨busy, hmem, by simp [hbusy]⟩
  have hrest : last ∈ trace.drop (openedAt trace) := by
    have htail : (trace.drop (openedAt trace)).getLast? = some last := by
      rw [List.getLast?_drop, if_neg (by omega), hlast]
    exact List.mem_of_getLast? htail
  have hfound : (trace.drop (openedAt trace)).findIdx (·.closed) <
      (trace.drop (openedAt trace)).length :=
    List.findIdx_lt_length_of_exists ⟨last, hrest, hclosed⟩
  rw [List.length_drop] at hfound
  unfold closedAt
  omega

/-- The checks see it end there at the latest. -/
theorem endedAt_le_closedAt (trace : List WorldSnapshot) : endedAt trace ≤ closedAt trace := by
  have hle : (trace.drop (openedAt trace)).findIdx (fun s => terminal s.phase) ≤
      (trace.drop (openedAt trace)).findIdx (·.closed) :=
    List.findIdx_le_findIdx fun _ _ h => terminal_of_closed h
  unfold endedAt closedAt
  omega

/-- A terminal phase behind the first one in flight ends the transaction for the checks. -/
theorem endedAt_le {i : Nat} (hopened : openedAt trace ≤ i) {s : WorldSnapshot}
    (hs : (trace)[i]? = some s) (hterminal : terminal s.phase = true) : endedAt trace ≤ i := by
  have hget : (trace.drop (openedAt trace))[i - openedAt trace]? = some s := by
    rw [List.getElem?_drop, Nat.add_sub_cancel' hopened]
    exact hs
  have hle : (trace.drop (openedAt trace)).findIdx (fun s => terminal s.phase) ≤
      i - openedAt trace := by
    refine Nat.le_of_not_lt fun hlt => ?_
    have hbefore := List.not_of_lt_findIdx hlt
    rw [(List.getElem?_eq_some_iff.mp hget).2] at hbefore
    simp [hterminal] at hbefore
  unfold endedAt
  omega

/-- The trace of a whole transaction ends in a terminal phase, which is all the first check
looks at. -/
theorem reachesTerminalWithin_whole (h : WholeTrace trace) (n : Nat) :
    reachesTerminalWithin (trace.map (·.phase)) n = none := by
  obtain ⟨last, hlast, hclosed⟩ := h.ends
  rw [reachesTerminalWithin_eq_none_iff, List.getLast?_map, hlast]
  exact .inl (terminal_of_closed hclosed)

/-- The idle snapshot it begins with is the first terminal one for the second. -/
theorem findIdx?_start (h : WholeTrace trace) :
    trace.findIdx? (fun s => terminal s.phase) = some 0 := by
  obtain ⟨s, hhead, hidle, -⟩ := h.starts
  obtain ⟨rest, rfl⟩ : ∃ rest, trace = s :: rest := List.head?_eq_some_iff.mp hhead
  have hterminal : terminal s.phase = true := by rw [hidle]; rfl
  rw [List.findIdx?_cons, if_pos hterminal]

/-- So the service that was live before the transaction is enough for it. -/
theorem serviceSettlesLive_whole (h : WholeTrace trace) (hn : 0 < n) :
    serviceSettlesLive trace n = none := by
  obtain ⟨s, hhead, -, hlive⟩ := h.starts
  have hfirst := h.findIdx?_start
  obtain ⟨rest, rfl⟩ : ∃ rest, trace = s :: rest := List.head?_eq_some_iff.mp hhead
  rw [serviceSettlesLive_eq_none_iff, hfirst]
  intro first hzero
  cases hzero
  obtain ⟨m, rfl⟩ : ∃ m, n = m + 1 := ⟨n - 1, by omega⟩
  exact ⟨s, by simp, hlive⟩

/-- Of the first `n` phases, no complaint about the steps means that the transaction ended. -/
theorem reached (h : WholeTrace trace) (hopened : openedAt trace < n)
    (hnone : reachesTerminalWithin ((trace.take n).map (·.phase)) n = none) :
    endedAt trace < n := by
  have hclosed := h.closedAt_lt
  have hended := endedAt_le_closedAt trace
  by_cases hlong : n ≤ trace.length
  · rw [reachesTerminalWithin_eq_none_iff, List.length_map, List.length_take,
      List.getLast?_map] at hnone
    obtain hlast | hshort := hnone
    · have hget : (trace.take n).getLast? = (trace)[n - 1]? := by
        rw [List.getLast?_eq_getElem?, List.length_take, Nat.min_eq_left hlong,
          List.getElem?_take_of_lt (by omega)]
      rw [hget, Option.any_map, Option.any_eq_true] at hlast
      obtain ⟨s, hs, hterminal⟩ := hlast
      have hle := endedAt_le (by omega : openedAt trace ≤ n - 1) hs hterminal
      omega
    · omega
  · omega

/-- Where the transaction ends for the checks, seen from the first phase in flight. -/
theorem findIdx?_opened (h : WholeTrace trace) :
    (trace.drop (openedAt trace)).findIdx? (fun s => terminal s.phase) =
      some (endedAt trace - openedAt trace) := by
  have hclosed := h.closedAt_lt
  have hended := endedAt_le_closedAt trace
  rw [List.findIdx?_eq_some_iff_findIdx_eq, List.length_drop]
  unfold endedAt at hended ⊢
  omega

/-- Without an idle phase in it, the transaction ends where it is promoted or rolled back. -/
theorem endedAt_eq_closedAt (h : ∀ s ∈ trace.drop (openedAt trace), s.phase ≠ .idle) :
    endedAt trace = closedAt trace := by
  have hle : (trace.drop (openedAt trace)).findIdx (·.closed) ≤
      (trace.drop (openedAt trace)).findIdx fun s => terminal s.phase := by
    refine List.findIdx_le_findIdx fun s hs hterminal => ?_
    have hidle := h s hs
    simp only [terminal, WorldSnapshot.closed, decide_eq_true_eq] at hterminal ⊢
    exact hterminal.resolve_left hidle
  have hended := endedAt_le_closedAt trace
  unfold endedAt closedAt at hended ⊢
  omega

end WholeTrace

/-- **The oracles on whole traces.**  With idleness counted as an end, as the checks count it:
no complaint about the steps of the first phases bounds the end of the transaction, and none
about the service shows the stable version live from the first terminal phase on, which is
the idle one before the transaction; only a trace that begins with the transaction is judged
by what comes after its end. -/
theorem oracles_verdicts {trace : List WorldSnapshot} (h : WholeTrace trace) (n : Nat) :
    VerdictsSound trace n where
  reaches := h.reached
  settles hnone := by
    have hfirst : trace.findIdx? (fun s => terminal s.phase) = some 0 := h.findIdx?_start
    have hwindow := serviceSettlesLive_eq_none_iff.mp hnone 0 hfirst
    rwa [List.drop_zero] at hwindow
  afterwards hnone := by
    have hwindow := serviceSettlesLive_eq_none_iff.mp hnone _ h.findIdx?_opened
    have hopened : openedAt trace ≤ endedAt trace := Nat.le_add_right _ _
    rwa [List.drop_drop, Nat.add_sub_cancel' hopened] at hwindow
  ends := WholeTrace.endedAt_eq_closedAt

/-- A snapshot of a service whose stable slot holds `version`, with the processes that run. -/
def snapshotOf (phase : Phase) (version : String) (live : List String) : WorldSnapshot where
  phase := phase
  slots := ⟨some version, none⟩
  liveProcesses := live.map fun v => ⟨.stable, 42, "boot", v⟩
  journalIntents := []
  workloadDigest := none
  priorIncarnationStartId := none
  installOwnership := none

/-- An upgrade after which nothing runs. -/
def strandedTrace : List WorldSnapshot :=
  [snapshotOf .idle "1" ["1"], snapshotOf .staged "1" ["1"], snapshotOf .handingOver "1" [],
    snapshotOf .promoted "2" []]

/-- An upgrade with the new version live at its end. -/
def liveTrace : List WorldSnapshot :=
  [snapshotOf .idle "1" ["1"], snapshotOf .staged "1" ["1"], snapshotOf .promoted "2" ["2"]]

theorem wholeTrace_live : WholeTrace liveTrace :=
  ⟨⟨_, rfl, rfl, by decide⟩, ⟨snapshotOf .staged "1" ["1"], by simp [liveTrace], rfl⟩,
    ⟨_, rfl, by decide⟩⟩

/-- What they say of the upgrade that goes well. -/
theorem oracles_verdicts_live : VerdictsSound liveTrace 3 := oracles_verdicts wholeTrace_live 3

/-- Both oracles pass the stranded upgrade with the limit 1: it ends after three steps, and
with nothing alive. -/
theorem oracles_pass_stranded : WholeTrace strandedTrace ∧
    reachesTerminalWithin (strandedTrace.map (·.phase)) 1 = none ∧ ¬closedAt strandedTrace < 1 ∧
    serviceSettlesLive strandedTrace 1 = none ∧ ¬LiveWithin strandedTrace 1 := by
  refine ⟨⟨⟨_, rfl, rfl, by decide⟩, ⟨snapshotOf .staged "1" ["1"], by simp [strandedTrace], rfl⟩,
    ⟨_, rfl, by decide⟩⟩, by decide, by decide, by decide, ?_⟩
  rintro ⟨s, hs, hlive⟩
  have hwindow : (strandedTrace.drop (closedAt strandedTrace)).take 1 =
      [snapshotOf .promoted "2" []] := by decide
  rw [hwindow, List.mem_singleton] at hs
  rw [hs] at hlive
  exact absurd hlive (by decide)

end KCarrier
