import KCarrier.Lock

/-!
# KCarrier.Host

`CommandHost` at the level of single operations.

Every call spawns a controller, writes a record `<pid>-<uuid>.json` of it under
`controllers/`, and only then sends the request.  When the exchange is over, however it
ended, the controller is killed and waited for, and the record goes once the exit was
seen.  A fence first waits for the process of every record it finds.

`Op` has one constructor for each operation of `call` and `fence`; a worker may die
between any two of them, and the next one starts with what it left.  The lock keeps the
workers apart, so there is one `Stage`.  What a call returns is left out: it decides
which call comes next, and any may.
-/

namespace KCarrier

/-! ## processes -/

/-- What the system answers about a process id: the result of `kill(pid, 0)`, or of
`OpenProcess` and the exit code `GetExitCodeProcess` reads, if it reads one. -/
inductive Probe where
  | unix (kill : Except Nat Unit)
  | windows (opened : Except Nat (Option Nat))

def ESRCH : Nat := 3

def ERROR_INVALID_PARAMETER : Nat := 87

def STILL_ACTIVE : Nat := 259

def processAlive (pid : Nat) (probe : Probe) : Bool :=
  if pid = 0 then
    false
  else
    match probe with
    | .unix kill =>
        if pid > 2147483647 then
          false
        else
          match kill with
          | .ok () => true
          | .error errno => errno != ESRCH
    | .windows (.error code) => code != ERROR_INVALID_PARAMETER
    | .windows (.ok none) => true
    | .windows (.ok (some code)) => code == STILL_ACTIVE

/-- What the system may answer about the id of a live process: a `pid_t` is no larger than
`i32::MAX`, and the process is found and has not exited. -/
def Probe.Finds (pid : Nat) : Probe → Prop
  | .unix kill => pid ≤ 2147483647 ∧ kill ≠ .error ESRCH
  | .windows opened => opened ≠ .error ERROR_INVALID_PARAMETER ∧
      ∀ code, opened = .ok (some code) → code = STILL_ACTIVE

/-- A live process is never taken for a dead one. -/
theorem processAlive_of_finds {pid : Nat} {probe : Probe} (hpos : 0 < pid)
    (h : probe.Finds pid) : processAlive pid probe = true := by
  have hne : pid ≠ 0 := by omega
  unfold processAlive
  rw [if_neg hne]
  match probe, h with
  | .unix (.ok ()), h =>
      have hle : ¬pid > 2147483647 := Nat.not_lt.mpr h.1
      simp [hle]
  | .unix (.error errno), h =>
      have hle : ¬pid > 2147483647 := Nat.not_lt.mpr h.1
      have herr : errno ≠ ESRCH := fun he => h.2 (by rw [he])
      simp [hle, herr]
  | .windows (.error code), h =>
      have herr : code ≠ ERROR_INVALID_PARAMETER := fun he => h.1 (by rw [he])
      simp [herr]
  | .windows (.ok none), h => rfl
  | .windows (.ok (some code)), h => simp [h.2 code rfl]

namespace CommandHost

/-! ## controllers and stages -/

/-- The controllers the calls spawn.  Record names carry a fresh uuid, so no two
controllers share one, even when a process id comes back. -/
structure Launches (C : Type) where
  pid : C → Nat
  uuid : C → String
  pid_pos : ∀ c, 0 < pid c
  pid_lt : ∀ c, pid c < 2 ^ 32
  fresh : ∀ c d, UpgradeLock.claimName (pid c) (uuid c ++ ".json") =
    UpgradeLock.claimName (pid d) (uuid d ++ ".json") → c = d

/-- The name of the record of a controller. -/
def Launches.name {C : Type} (env : Launches C) (c : C) : String :=
  UpgradeLock.claimName (env.pid c) (env.uuid c ++ ".json")

/-- A controller acts once it is `active`: it was sent the whole request. -/
inductive Life where
  | unborn
  | waiting
  | active
  | exited
deriving DecidableEq, Repr

def Life.alive : Life → Bool
  | .waiting | .active => true
  | _ => false

/-- Where the worker that holds the lock is. -/
inductive Stage (C : Type) where
  /-- no worker holds the lock -/
  | absent
  /-- between two calls -/
  | idle
  /-- `fence` is about to list the records -/
  | fencing
  /-- about to take the next entry of the listing -/
  | scanning
  /-- waiting for the process of an entry -/
  | draining (entry : String) (pid : Nat)
  /-- that process is gone -/
  | sweeping (entry : String)
  /-- the loop of `fence` is over -/
  | drained
  /-- `call` is about to spawn its controller -/
  | launching
  | spawned (c : C)
  /-- the file of the record is created -/
  | created (c : C)
  | written (c : C)
  | synced (c : C)
  /-- the directory is synced too; the request goes out -/
  | recorded (c : C)
  /-- the last byte of the request is written -/
  | delivered (c : C)
  /-- the exchange is over: answered, failed or out of time -/
  | settling (c : C)
  /-- the controller was killed if it had not exited; waiting for its exit -/
  | reaping (c : C)
  /-- its exit was seen -/
  | removing (c : C)
  | removed (c : C)
deriving DecidableEq, Repr

/-- The controller of a call in its exchange, which ends at an error or in time. -/
def Stage.exchange {C : Type} : Stage C → Option C
  | .spawned c | .created c | .written c | .synced c | .recorded c | .delivered c => some c
  | _ => none

/-- The stages where an error ends the call or the fence. -/
def Stage.fragile {C : Type} : Stage C → Bool
  | .fencing | .scanning | .draining _ _ | .sweeping _ | .drained | .launching | .spawned _
  | .settling _ | .reaping _ | .removing _ | .removed _ => true
  | _ => false

/-- The entries of `controllers/`, what each says, and the processes.  `must` is what the
listing still owes; `observed` is the history of the exits that were seen, by `wait` or
by `process_alive`. -/
structure State (C : Type) where
  records : List String
  content : String → Option Nat
  life : C → Life
  observed : C → Prop
  stage : Stage C
  must : List String

variable {C : Type} [DecidableEq C]

namespace State

def moved (s : State C) (x : Stage C) : State C := { s with stage := x }

def lived (s : State C) (c : C) (x : Life) : State C :=
  { s with life := Function.update s.life c x }

/-- The record is gone; the listing does not owe it any more. -/
def unrecorded (s : State C) (name : String) : State C :=
  { s with
    records := s.records.filter (· != name)
    must := s.must.filter (· != name) }

/-- The exit of these controllers was seen. -/
def saw (s : State C) (p : C → Prop) : State C :=
  { s with observed := fun c => s.observed c ∨ p c }

/-- An answer the system may give while the processes are as they are. -/
def MayAnswer (env : Launches C) (s : State C) (pid : Nat) (probe : Probe) : Prop :=
  ∀ c, (s.life c).alive = true → env.pid c = pid → probe.Finds pid

end State

/-! ## steps -/

/-- One operation of the worker that holds the lock. -/
inductive Op (env : Launches C) : State C → State C → Prop
  | fence {s} : s.stage = .idle → Op env s (s.moved .fencing)
  | list {s} : s.stage = .fencing → Op env s ({ s with must := s.records }.moved .scanning)
  /-- the listing returns an entry that names a process -/
  | entry {s} (entry : String) (pid : Nat) : s.stage = .scanning → entry ∈ s.records →
      UpgradeLock.ownerOf entry = some pid → Op env s (s.moved (.draining entry pid))
  /-- it may still be alive: sleep and look again -/
  | alive {s} (entry : String) (pid : Nat) (probe : Probe) : s.stage = .draining entry pid →
      s.MayAnswer env pid probe → processAlive pid probe = true → Op env s s
  | gone {s} (entry : String) (pid : Nat) (probe : Probe) : s.stage = .draining entry pid →
      s.MayAnswer env pid probe → processAlive pid probe = false →
      Op env s ((s.saw fun c => (s.life c) ≠ .unborn ∧ env.pid c = pid).moved (.sweeping entry))
  | sweep {s} (entry : String) : s.stage = .sweeping entry →
      Op env s ((s.unrecorded entry).moved .scanning)
  /-- the listing ends when it has returned every entry it owes -/
  | listed {s} : s.stage = .scanning → s.must = [] → Op env s (s.moved .drained)
  /-- `fence` goes on with a call of its own -/
  | proceed {s} : s.stage = .drained → Op env s (s.moved .launching)
  | call {s} : s.stage = .idle → Op env s (s.moved .launching)
  | spawn {s} (c : C) : s.stage = .launching → s.life c = .unborn →
      Op env s ((s.lived c .waiting).moved (.spawned c))
  | create {s} (c : C) : s.stage = .spawned c → env.name c ∉ s.records →
      Op env s ({ s with
        records := env.name c :: s.records
        content := Function.update s.content (env.name c) none }.moved (.created c))
  | write {s} (c : C) : s.stage = .created c →
      Op env s ({ s with
        content := Function.update s.content (env.name c) (some (env.pid c)) }.moved (.written c))
  | sync {s} (c : C) : s.stage = .written c → Op env s (s.moved (.synced c))
  | syncDir {s} (c : C) : s.stage = .synced c → Op env s (s.moved (.recorded c))
  /-- the whole request is in the pipe of a live controller -/
  | deliver {s} (c : C) : s.stage = .recorded c → s.life c = .waiting →
      Op env s ((s.lived c .active).moved (.delivered c))
  /-- the exchange ends: with the reply, at its first error, or because time is up -/
  | settle {s} (c : C) : s.stage.exchange = some c → Op env s (s.moved (.settling c))
  /-- `try_wait` worked, and a controller that had not exited is killed -/
  | kill {s} (c : C) : s.stage = .settling c → Op env s (s.moved (.reaping c))
  | reaped {s} (c : C) : s.stage = .reaping c → s.life c = .exited →
      Op env s ((s.saw (· = c)).moved (.removing c))
  | remove {s} (c : C) : s.stage = .removing c →
      Op env s ((s.unrecorded (env.name c)).moved (.removed c))
  | returned {s} (c : C) : s.stage = .removed c → Op env s (s.moved .idle)
  /-- an error, or a wait that took too long, ends the call where it is -/
  | fail {s} : s.stage.fragile = true → Op env s (s.moved .idle)

/-- One step of the system: an operation of the worker, the exit of a controller, or a
change of the worker. -/
inductive Step (env : Launches C) : State C → State C → Prop
  | op {s t} : Op env s t → Step env s t
  | exit {s} (c : C) : (s.life c).alive = true → Step env s (s.lived c .exited)
  /-- the worker dies, and the write end of a request it had not finished is closed -/
  | die {s} : Step env s (s.moved .absent)
  | enter {s} : s.stage = .absent → Step env s (s.moved .idle)
  | leave {s} : s.stage = .idle → Step env s (s.moved .absent)

/-- A state directory no worker has called a controller from; whatever else lies in
`controllers/` may lie there. -/
structure Initial (env : Launches C) (s : State C) : Prop where
  stage : s.stage = .absent
  unborn : ∀ c, s.life c = .unborn
  unseen : ∀ c, ¬s.observed c
  unrecorded : ∀ c, env.name c ∉ s.records

/-- The runs of the system. -/
inductive Reachable (env : Launches C) : State C → Prop
  | initial {s} : Initial env s → Reachable env s
  | step {s t} : Reachable env s → Step env s t → Reachable env t

end CommandHost

end KCarrier
