import KCarrier.Runner

/-!
# KCarrier.Runner.Service

A product that keeps the obligations of a controller: one service, which survives the
worker, is started at most once at a time and stopped for good, parks its work on
`quiesce` and takes it up again on `resume`.  Its release source has every version.
-/

namespace KCarrier

open Crash

/-- The one service: the incarnation that runs, whether its work is parked, and how
often it was started. -/
structure Service where
  running : Option Evidence
  parked : Bool
  started : Nat
deriving DecidableEq, Repr

namespace Service

/-- The service runs `version`. -/
def Runs (s : Service) (version : String) : Prop :=
  ∃ e, s.running = some e ∧ e.version = version

/-- Start `version` as a new incarnation. -/
def launch (s : Service) (version : String) : Service :=
  { s with
    running := some { version, pid := s.started + 2, startId := s!"boot-{s.started + 1}" }
    started := s.started + 1 }

/-- Starting is idempotent: a service that runs already is left alone. -/
def start (d : Disk) (slot : Slot) : HostCall Service Unit := fun s =>
  match s.running with
  | some _ => (.ok (some ()), s)
  | none =>
      match d.version slot.place with
      | .error e => (.err e, s)
      | .ok none => (.err (.invalid "no artifact to start"), s)
      | .ok (some version) => (.ok (some ()), s.launch version)

def probe : HostCall Service Evidence := fun s =>
  match s.running with
  | some e => (.ok (some e), s)
  | none => (.err (.invalid "service stopped"), s)

/-- The controller of the service over the directory `d`. -/
def host (d : Disk) : Host Service where
  fence := HostCall.reply ()
  quiesce := fun s => (.ok (some ()), { s with parked := true })
  stop _ := fun s => (.ok (some ()), { s with running := none })
  start := start d
  probe := probe
  resume := fun s => (.ok (some ()), { s with parked := false })

/-- The release of `version`. -/
def release (version : String) : Release := ⟨version, s!"https://releases/{version}", "", 1⟩

/-- A release source that has every version, and `latest` as the newest. -/
def source (latest : Option String) : ReleaseSource Unit where
  check _ := pure (latest.map release)
  fetch version _ := pure (release version)

/-- A worker of the product: `faults` is what goes wrong in it. -/
def runner (self : Nat) (faults : Faults) : Runner Service Unit :=
  Runner.new ⟨faults, fun id => id⟩ self host (source none) fun _ => pure [1]

/-- The worker dies at the boundary number `n`. -/
def diesAt (n : Nat) : Faults :=
  { Faults.clean with fault := fun tick _ => if tick = n then some .crash else none }

/-- What the product starts from: the stable slot holds `version` and its service runs. -/
def installed (version : String) : World Service Unit where
  disk :=
    { journal := .absent
      operation := .absent
      receipts := fun _ => .absent
      report := .absent
      provenance := .absent
      slots := fun place => match place with
        | .stable => .dir ⟨.content version, .content [1]⟩
        | _ => .absent
      incoming := .absent }
  lock := .free
  host := ⟨some { version, pid := 1, startId := "boot-0" }, false, 0⟩
  product := ()
  observed := Observed.new
  tick := 0
  log := []

end Service

end KCarrier
