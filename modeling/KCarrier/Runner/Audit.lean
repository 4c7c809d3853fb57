import KCarrier.Runner.Flow

/-!
# KCarrier.Runner.Audit

A runner whose host calls are written down.

`Runner.audited` puts a host around the host of a runner that keeps an account of the calls
it passes on: which call it was, the directory it was issued on, and whether it left open
what the service has done.  The account is part of the host's state, which nothing but the
host itself looks at.
-/

namespace KCarrier

open Crash

variable {η γ α : Type}

/-- A host call as it was issued, and whether it ended without telling what it did. -/
structure HostEvent where
  call : String
  disk : Disk
  uncertain : Bool

/-- The state of a host, with the calls it was given so far. -/
structure Audited (η : Type) where
  state : η
  events : List HostEvent

/-- The call returned an uncertain error, or exceeded its budget. -/
def leavesOpen : Res Error (Option α) → Bool
  | .ok (some _) | .crash => false
  | .ok none => true
  | .err e => e.isUncertain

/-- Pass a call on and write it down. -/
def HostCall.audited (name : String) (disk : Disk) (call : HostCall η α) :
    HostCall (Audited η) α := fun h =>
  let o := call h.state
  (o.1, ⟨o.2, h.events ++ [⟨name, disk, leavesOpen o.1⟩]⟩)

def Host.audited (host : Host η) (disk : Disk) : Host (Audited η) where
  fence := HostCall.audited "fence" disk host.fence
  quiesce := HostCall.audited "quiesce" disk host.quiesce
  stop slot := HostCall.audited "stop" disk (host.stop slot)
  start slot := HostCall.audited "start" disk (host.start slot)
  probe := HostCall.audited "probe" disk host.probe
  resume := HostCall.audited "resume" disk host.resume

/-- The runner, its host calls written down. -/
def Runner.audited (r : Runner η γ) : Runner (Audited η) γ :=
  { r with host := fun disk => (r.host disk).audited disk }

/-- The call as it is passed on, and what is written down. -/
theorem Runner.hostRun_audited (r : Runner η γ) {name : String}
    {audited : Host (Audited η) → HostCall (Audited η) α} {call : Host η → HostCall η α}
    (hcall : ∀ host disk, audited (Host.audited host disk) = (call host).audited name disk)
    (w : World (Audited η) γ) :
    r.audited.hostRun audited w = (((call (r.host w.disk)) w.host.state).1,
      { w with host := ⟨((call (r.host w.disk)) w.host.state).2, w.host.events ++
        [⟨name, w.disk, leavesOpen ((call (r.host w.disk)) w.host.state).1⟩]⟩ }) := by
  unfold Runner.hostRun Runner.audited
  simp only [hcall]
  rfl

/-- A host call keeps what its boundaries, its note and its entry in the account keep. -/
theorem Runner.hostCall_audited_keeps (r : Runner η γ) {P : World (Audited η) γ → Prop}
    (hP : Indifferent P) {name : String} {audited : Host (Audited η) → HostCall (Audited η) α}
    {call : Host η → HostCall η α}
    (hcall : ∀ host disk, audited (Host.audited host disk) = (call host).audited name disk)
    (hevent : ∀ w h uncertain, P w →
      P { w with host := ⟨h, w.host.events ++ [⟨name, w.disk, uncertain⟩]⟩ }) :
    Keeps P (r.audited.hostCall name audited) := by
  have hrun : Keeps P (r.audited.hostRun audited) := by
    intro w hw
    rw [r.hostRun_audited hcall w]
    generalize (call (r.host w.disk)) w.host.state = o
    obtain ⟨o, h⟩ := o
    cases o with
    | ok reply => exact hevent w h _ hw
    | err e => exact hevent w h _ hw
    | crash => exact hevent w h _ hw
  unfold Runner.hostCall
  refine Triple.bind (hP.boundary _ _) fun _ => Triple.bind (hP.noted rfl) fun _ => ?_
  exact Triple.bind hrun fun _ => Triple.bind (hP.boundary _ _) fun _ => Triple.pure fun _ h => h

/-- A visit, its host calls written down. -/
def Visit.audited (v : Visit η γ) : Visit (Audited η) γ :=
  { v with runner := v.runner.audited }

/-- The world, with nothing written down yet. -/
def World.audited (w : World η γ) : World (Audited η) γ := { w with host := ⟨w.host, []⟩ }

end KCarrier
