import KCarrier.Engine
import KCarrier.Text

/-!
# KCarrier.Report

The convergence report and the predicate that fills it.

`Convergence.evaluate` accepts live evidence only when every declared surface
shows the expected target, and keeps what it saw in an `Observed` cell that
`Convergence.report` reads afterwards.  It runs on the world together with that
cell.
-/

namespace KCarrier

open Crash

structure PredicateResult where
  passed : Bool
  source : String
  observedAtMs : Nat
  detail : Detail
deriving DecidableEq, Repr

structure ConvergenceReport where
  version : String
  binaryAtTarget : PredicateResult
  hostLifecycleConverged : Option PredicateResult
deriving DecidableEq, Repr

/-! ## readback -/

/-- A place outside the process that shows which version the lifecycle is at. -/
structure ReadbackSurface (σ : Type) where
  id : String
  read : HostCall σ (String × String)

/-- What a predicate saw last: the evidence it was shown and the verdict of the
surfaces. -/
structure Observed where
  evidence : Option Evidence
  lifecycle : Option PredicateResult
deriving DecidableEq, Repr

/-- The cell of a new predicate. -/
def Observed.new : Observed := ⟨none, none⟩

structure Convergence (σ : Type) where
  surfaces : List (ReadbackSurface σ)
  expectedTarget : String
  clock : σ → Nat

namespace Convergence

variable {σ : Type}

/-- Surface ids are nonempty and distinct; `seen` are those met so far. -/
def checkSurfaces (seen : List String) : List (ReadbackSurface σ) → Except Error Unit
  | [] => .ok ()
  | s :: rest =>
      if s.id = "" ∨ s.id ∈ seen then
        .error (.invalid "duplicate or empty readback surface id")
      else
        checkSurfaces (s.id :: seen) rest

/-- The check is about the ids. -/
theorem checkSurfaces_map {τ : Type} {f : ReadbackSurface σ → ReadbackSurface τ}
    (hid : ∀ s, (f s).id = s.id) (seen : List String) (surfaces : List (ReadbackSurface σ)) :
    checkSurfaces seen (surfaces.map f) = checkSurfaces seen surfaces := by
  induction surfaces generalizing seen with
  | nil => rfl
  | cons s rest ih => simp only [List.map_cons, checkSurfaces, hid, ih]

def new (surfaces : List (ReadbackSurface σ)) (expectedTarget : String) (clock : σ → Nat) :
    Except Error (Convergence σ) :=
  match checkSurfaces [] surfaces with
  | .ok () => .ok { surfaces, expectedTarget, clock }
  | .error e => .error e

theorem checkSurfaces_error {seen : List String} {surfaces : List (ReadbackSurface σ)} {e : Error}
    (h : checkSurfaces seen surfaces = .error e) : ∃ message, e = .invalid message := by
  induction surfaces generalizing seen with
  | nil => cases h
  | cons s rest ih =>
      rw [checkSurfaces] at h
      split at h
      · cases h
        exact ⟨_, rfl⟩
      · exact ih h

/-- A predicate is refused with a text. -/
theorem new_error {surfaces : List (ReadbackSurface σ)} {expectedTarget : String}
    {clock : σ → Nat} {e : Error} (h : new surfaces expectedTarget clock = .error e) :
    ∃ message, e = .invalid message := by
  unfold new at h
  split at h
  · cases h
  · next err herr =>
      cases h
      exact checkSurfaces_error herr

/-- Read the surfaces in order, until one of them does not show the expected
target.  `none`: the budget elapsed during a read. -/
def readSurfaces (c : Convergence σ) (result : PredicateResult) (sources : List String) :
    List (ReadbackSurface σ) → Prog Error σ (Option PredicateResult)
  | [] => pure (some { result with source := ",".intercalate sources })
  | surface :: rest => do
      match ← Prog.attempt surface.read with
      | .ok none => pure none
      | .ok (some (value, _)) =>
          if contains value c.expectedTarget then
            c.readSurfaces { result with detail := result.detail.insert surface.id value }
              (sources ++ [surface.id]) rest
          else
            pure (some { result with
              passed := false
              source := surface.id
              detail := [("expected", c.expectedTarget), ("got", value)] })
      | .error e =>
          pure (some { result with
            passed := false
            source := surface.id
            detail := [("error", e.message)] })

/-- A call on the world, seen from the predicate. -/
def world {α : Type} (m : Prog Error σ α) : Prog Error (σ × Observed) α :=
  Prog.zoom Prod.fst (fun w s => (w, s.2)) m

def observe (f : Observed → Observed) : Prog Error (σ × Observed) Unit :=
  Prog.modify fun s => (s.1, f s.2)

/-- The verdict on the surfaces, kept in the cell. -/
def settle (c : Convergence σ) : Prog Error (σ × Observed) (Option (Option String)) := do
  let s ← Prog.get
  match ← world (c.readSurfaces ⟨true, "", c.clock s.1, []⟩ [] c.surfaces) with
  | none => pure none
  | some result => do
      observe fun o => { o with lifecycle := some result }
      pure (some (if result.passed then
        none
      else
        some s!"lifecycle surface {result.source} did not converge"))

/-- The verdict on live evidence; `self` is the evaluating process. -/
def evaluate (c : Convergence σ) (self : Nat) (evidence : Evidence) (target : String) :
    Prog Error (σ × Observed) (Option (Option String)) := do
  Prog.ofExcept (evidence.validate self)
  observe fun o => { o with evidence := some evidence }
  if evidence.version ≠ target then
    pure (some (some s!"live process reports {evidence.version}, expected {target}"))
  else if c.surfaces.isEmpty then
    pure (some none)
  else
    c.settle

/-- The report on the last evidence and surfaces the predicate saw. -/
def report (c : Convergence σ) (version : String) (s : σ × Observed) : ConvergenceReport where
  version := version
  binaryAtTarget :=
    { passed := s.2.evidence.any fun e => e.version == version
      source := "host.healthProbe"
      observedAtMs := c.clock s.1
      detail := match s.2.evidence with
        | some e => [("version", e.version), ("pid", toString e.pid), ("startId", e.startId)]
        | none => [] }
  hostLifecycleConverged :=
    match s.2.lifecycle with
    | some lifecycle => some lifecycle
    | none =>
        if c.surfaces.isEmpty then
          none
        else
          some ⟨false, "not-converged", c.clock s.1, []⟩

end Convergence

end KCarrier
