import KCarrier.Protocol
import KCarrier.Storage
import KCarrier.Crash.Triple

/-!
# KCarrier.Supervisor

The supervisor of the runner's workers.

`superviseBytes` writes the worker and a recovery descriptor to a fresh directory and
runs the worker on the request, then on the recovery of what the request named, until
one of them answers with a settled response.  A worker is whatever its process does
(`Behaviour`): it may not start, write anything, hang, or not be seen to exit.  Time is
left out, so a budget shows only in what a worker did within it.

* `run_eq_some` — what an accepted response was checked against;
* `supervise_sound` — what the supervisor does, whatever its workers do.
-/

namespace KCarrier

open Crash

/-! ## responses -/

/-- `Response::parse`, with the JSON parser as a parameter. -/
def Response.parse (decode : Bytes → Except String Response) (bytes : Bytes) :
    Except Error Response :=
  if bytes.length > 65536 then
    .error (.invalid "RUNNER_RESPONSE_INVALID: response too large")
  else
    match decode bytes with
    | .error message => .error (.json message)
    | .ok response =>
        if response.protocolVersion ≠ 1 ∨ response.action ∉ ["upgrade", "recover", "status"] ∨
            response.exitCode > 3 then
          .error (.invalid "RUNNER_RESPONSE_INVALID")
        else
          match response.operation with
          | .observed operation =>
              match operation.validate with
              | .error e => .error e
              | .ok () => .ok response
          | _ => .ok response

structure LaunchOptions where
  executionMs : Nat
  recoveryMs : Nat
  totalMs : Nat
  recoveryAttempts : Nat
deriving DecidableEq, Repr

def LaunchOptions.validate (o : LaunchOptions) : Except Error Unit :=
  if [o.executionMs, o.recoveryMs, o.totalMs].any (fun n => n == 0 || decide (n > 2147483647)) ∨
      o.recoveryAttempts > 10 then
    .error (.invalid "invalid runner budget")
  else
    .ok ()

namespace Supervisor

/-! ## one worker -/

/-- What a worker's process does within its budget: whether it starts, what it writes
before its output ends, and its exit status; and whether it is seen to exit within a
second of being killed. -/
structure Behaviour where
  spawns : Bool
  output : Option Bytes
  status : Option (Option Int)
  reaped : Bool
deriving DecidableEq, Repr

structure Attempt where
  code : Nat
  response : Option Response
  fenced : Bool
deriving DecidableEq, Repr

/-- The exit code of a status; a signal has none. -/
def exitCodeOf (status : Option Int) : Nat :=
  match status with
  | some n => if 0 ≤ n ∧ n ≤ 255 then n.toNat else 1
  | none => 1

/-- The exchange with a worker, if it came to an end within the budget. -/
def exchange (decode : Bytes → Except String Response) (request : Request) (b : Behaviour) :
    Option Attempt := do
  let output ← b.output
  let bytes := output.take 65537
  if bytes.length > 65536 then
    none
  else do
    let status ← b.status
    let code := exitCodeOf status
    let response := (Response.parse decode bytes).toOption.filter fun r =>
      decide (r.action = request.action) && decide (r.exitCode = code)
    pure ⟨code, response, true⟩

/-- Run the worker on a request; one that does not come to an end is killed. -/
def run (decode : Bytes → Except String Response) (request : Request) (b : Behaviour) : Attempt :=
  if b.spawns then
    match exchange decode request b with
    | some attempt => attempt
    | none => ⟨3, none, b.reaped⟩
  else
    ⟨1, none, true⟩

/-! ## settlement -/

/-- The worker that answers for the original request could not take the lock. -/
def busy (response : Response) (request : Request) : Bool :=
  request.isUpgrade && decide (response.action = "upgrade") && decide (response.result = "busy") &&
    decide (response.exitCode = 2)

def settled (response : Response) (request : Request) : Bool :=
  if busy response request then
    true
  else if response.error.isSome then
    false
  else
    match request.expected with
    | some expected =>
        match response.operation with
        | .observed operation =>
            decide (operation.id = expected.id) &&
              decide (operation.targetVersion = expected.targetVersion) &&
              operation.outcome.any fun o => decide (o.exitCode = response.exitCode)
        | _ => false
    | none =>
        decide (response.exitCode ≠ 3) &&
          match response.operation with
          | .genesis => true
          | .observed operation => operation.outcome.isSome
          | .unreadable _ => false

/-! ## the supervisor -/

structure LaunchResult where
  exitCode : Nat
  response : Option Response
  recoveryFile : Option Path
  error : Option String
  attempts : Nat
deriving DecidableEq, Repr

structure RecoveryDescriptor where
  file : Path
  sha256 : String
  size : Nat
  request : Request
deriving DecidableEq, Repr

/-- What the supervisor keeps in the directory of a launch. -/
structure Retained where
  worker : Bytes
  recovery : RecoveryDescriptor
deriving DecidableEq, Repr

structure Delivery where
  request : Request
  worker : Behaviour
deriving DecidableEq, Repr

/-- The directory of the launch, and the history of the workers. -/
structure Site where
  retained : Option Retained
  delivered : List Delivery
deriving DecidableEq, Repr

/-- What the supervisor meets: the parser and the digest it links, the directory it
made, the errors of its own files, and for each attempt whether the deadline has passed
and what the worker does. -/
structure Launch where
  decode : Bytes → Except String Response
  sha256 : Bytes → String
  dir : Path
  writing : Option Error
  removing : Option Error
  inTime : Nat → Bool
  workers : Nat → Behaviour

def Launch.file (l : Launch) : Path := l.dir ++ "/runner.bin"

def Launch.recoveryFile (l : Launch) : Path := l.dir ++ "/recovery.json"

/-- The request that recovers what `request` named. -/
def recoverRequest (request : Request) : Request := .recover 1 request.expected

/-- The request of attempt `index`. -/
def requestAt (request : Request) (index : Nat) : Request :=
  if index = 0 then request else recoverRequest request

def failing (e : Option Error) : Prog Error Site Unit :=
  Prog.ofExcept (match e with
    | some e => .error e
    | none => .ok ())

def unresolved (l : Launch) (attempts : Nat) (response : Option Response) : LaunchResult where
  exitCode := 3
  response := response
  recoveryFile := some l.recoveryFile
  error := some
    "RECOVERY_UNRESOLVED: retained helper and invocation; transaction evidence is unchanged"
  attempts := attempts

/-- The attempts from `index` on, `n` of them at most. -/
def attempts (l : Launch) (request : Request) :
    Nat → Nat → Option Response → Prog Error Site LaunchResult
  | 0, index, response => pure (unresolved l index response)
  | n + 1, index, response =>
      if l.inTime index then do
        let delivery : Delivery := ⟨requestAt request index, l.workers index⟩
        Prog.modify fun s => { s with delivered := s.delivered ++ [delivery] }
        let attempt := run l.decode delivery.request delivery.worker
        let done := attempt.response.any fun r => settled r request
        if attempt.fenced && (request.isStatus || done) then do
          failing l.removing
          Prog.modify fun s => { s with retained := none }
          pure {
            exitCode := if attempt.response.isNone && attempt.code == 0 then 1 else attempt.code
            response := attempt.response
            recoveryFile := none
            error := none
            attempts := index + 1 }
        else if !attempt.fenced || request.expected.isNone then
          pure (unresolved l (index + 1) attempt.response)
        else
          attempts l request n (index + 1) attempt.response
      else
        pure (unresolved l index response)

def superviseBytes (l : Launch) (bytes : Bytes) (request : Request) (options : LaunchOptions) :
    Prog Error Site LaunchResult := do
  Prog.ofExcept request.validate
  Prog.ofExcept options.validate
  failing l.writing
  Prog.modify fun s => { s with
    retained := some ⟨bytes, ⟨l.file, l.sha256 bytes, bytes.length, recoverRequest request⟩⟩ }
  attempts l request (options.recoveryAttempts + 1) 0 none

/-! ## what one worker can show -/

/-- The supervisor saw the process end, or there was none. -/
def Behaviour.exits (b : Behaviour) : Bool :=
  !b.spawns || b.reaped || b.status.isSome && b.output.any fun bytes => decide (bytes.length ≤ 65536)

/-- The worker wrote `response`, for the request it got and with its own exit code. -/
structure Answered (l : Launch) (d : Delivery) (response : Response) : Prop where
  spawned : d.worker.spawns = true
  exits : d.worker.exits = true
  parses : ∃ bytes status, d.worker.output = some bytes ∧ d.worker.status = some status ∧
    Response.parse l.decode bytes = .ok response ∧ response.exitCode = exitCodeOf status
  action : response.action = d.request.action

/-- What ends a launch: the busy answer to the original upgrade, or an answer without
error that shows the operation the request named, settled as the exit code says. -/
def Settles (response : Response) (request : Request) (d : Delivery) : Prop :=
  (request.isUpgrade = true ∧ d.request = request ∧ response.result = "busy" ∧
    response.exitCode = 2) ∨
  (response.error = none ∧ ∀ expected, request.expected = some expected →
    ∃ operation outcome, response.operation = .observed operation ∧ operation.id = expected.id ∧
      operation.targetVersion = expected.targetVersion ∧ operation.outcome = some outcome ∧
      outcome.exitCode = response.exitCode)

section

variable {l : Launch} {request : Request} {bytes : Bytes}

/-- An exchange that came to an end: all the output was read, and the exit seen. -/
theorem exchange_eq_some_iff {decode : Bytes → Except String Response} {b : Behaviour}
    {attempt : Attempt} :
    exchange decode request b = some attempt ↔
      ∃ bytes status, b.output = some bytes ∧ b.status = some status ∧ bytes.length ≤ 65536 ∧
        attempt = ⟨exitCodeOf status, (Response.parse decode bytes).toOption.filter fun r =>
          decide (r.action = request.action) && decide (r.exitCode = exitCodeOf status), true⟩ := by
  unfold exchange
  cases b.output with
  | none => simp
  | some bytes =>
      by_cases hlen : bytes.length ≤ 65536
      · have htake : bytes.take 65537 = bytes := List.take_of_length_le (by omega)
        have hshort : ¬bytes.length > 65536 := by omega
        cases b.status with
        | none => simp
        | some status =>
            simp only [Option.bind_eq_bind, Option.bind_some, htake, if_neg hshort, Option.some.injEq,
              Option.pure_def]
            constructor
            · intro h
              exact ⟨bytes, status, rfl, rfl, hlen, h.symm⟩
            · rintro ⟨_, _, rfl, rfl, -, h⟩
              exact h.symm
      · have hlong : (bytes.take 65537).length > 65536 := by
          rw [List.length_take]
          omega
        simp only [Option.bind_eq_bind, Option.bind_some, if_pos hlong]
        constructor
        · intro h
          cases h
        · rintro ⟨_, _, hbytes, -, hshort, -⟩
          cases hbytes
          exact absurd hshort hlen

theorem run_fenced (decode : Bytes → Except String Response) (request : Request) (b : Behaviour) :
    (run decode request b).fenced = b.exits := by
  unfold run Behaviour.exits
  cases b.spawns with
  | false => rfl
  | true =>
      rw [if_pos rfl]
      cases he : exchange decode request b with
      | some attempt =>
          obtain ⟨bytes, status, houtput, hstatus, hlen, rfl⟩ := exchange_eq_some_iff.mp he
          simp [houtput, hstatus, hlen]
      | none =>
          have hnone : (b.status.isSome && b.output.any fun bytes => decide (bytes.length ≤ 65536)) =
              false := by
            cases ho : b.output with
            | none => simp
            | some bytes =>
                cases hs : b.status with
                | none => simp
                | some status =>
                    by_cases hlen : bytes.length ≤ 65536
                    · have hsome : ∃ attempt, exchange decode request b = some attempt :=
                        ⟨_, exchange_eq_some_iff.mpr ⟨bytes, status, ho, hs, hlen, rfl⟩⟩
                      simp [he] at hsome
                    · simp [hlen]
          rw [hnone]
          simp

theorem run_response {d : Delivery} {response : Response}
    (h : (run l.decode d.request d.worker).response = some response) :
    Answered l d response ∧ (run l.decode d.request d.worker).code = response.exitCode := by
  have hfenced := run_fenced l.decode d.request d.worker
  unfold run at h hfenced ⊢
  cases hs : d.worker.spawns with
  | false =>
      rw [hs, if_neg Bool.false_ne_true] at h
      cases h
  | true =>
      rw [hs, if_pos rfl] at h hfenced
      rw [if_pos rfl]
      cases he : exchange l.decode d.request d.worker with
      | none =>
          rw [he] at h
          cases h
      | some attempt =>
          rw [he] at h hfenced
          obtain ⟨bytes, status, houtput, hstatus, -, rfl⟩ := exchange_eq_some_iff.mp he
          obtain ⟨hparse, hcheck⟩ := Option.filter_eq_some_iff.mp h
          rw [Bool.and_eq_true, decide_eq_true_iff, decide_eq_true_iff] at hcheck
          have hok : Response.parse l.decode bytes = .ok response := by
            cases hp : Response.parse l.decode bytes with
            | error e =>
                rw [hp] at hparse
                cases hparse
            | ok r =>
                rw [hp] at hparse
                cases hparse
                rfl
          exact ⟨⟨hs, hfenced.symm, ⟨bytes, status, houtput, hstatus, hok, hcheck.2⟩, hcheck.1⟩,
            hcheck.2.symm⟩

/-- Without an accepted response there is nothing to be settled. -/
theorem settles_of_settled {response : Response} {d : Delivery} (index : Nat)
    (hd : d.request = requestAt request index) (ha : Answered l d response)
    (hs : settled response request = true) : Settles response request d := by
  unfold settled at hs
  by_cases hbusy : busy response request = true
  · simp only [busy, Bool.and_eq_true, decide_eq_true_iff] at hbusy
    obtain ⟨⟨⟨hupgrade, haction⟩, hresult⟩, hexit⟩ := hbusy
    refine .inl ⟨hupgrade, ?_, hresult, hexit⟩
    -- the answer is to an upgrade, so it is not the recovery's
    by_cases hindex : index = 0
    · rw [hd, requestAt, if_pos hindex]
    · have hrecover := ha.action
      rw [haction, hd, requestAt, if_neg hindex] at hrecover
      exact absurd hrecover (show ¬"upgrade" = "recover" by decide)
  · rw [if_neg hbusy] at hs
    by_cases herror : response.error.isSome = true
    · rw [if_pos herror] at hs
      cases hs
    · rw [if_neg herror] at hs
      refine .inr ⟨by simpa using herror, fun expected hexpected => ?_⟩
      rw [hexpected] at hs
      cases ho : response.operation with
      | genesis => simp [ho] at hs
      | unreadable reason => simp [ho] at hs
      | observed operation =>
          simp only [ho, Bool.and_eq_true, decide_eq_true_iff, Option.any_eq_true] at hs
          obtain ⟨⟨hid, htarget⟩, outcome, houtcome, hcode⟩ := hs
          exact ⟨operation, outcome, rfl, hid, htarget, houtcome, hcode⟩

/-! ## the attempts -/

/-- The first attempt got the request, the others its recovery, and all but the last
were seen to exit. -/
structure Fenced (request : Request) (s : Site) : Prop where
  requests : ∀ (i : Nat) (d : Delivery), s.delivered[i]? = some d → d.request = requestAt request i
  exits : ∀ (i : Nat) (d : Delivery), s.delivered[i]? = some d → i + 1 < s.delivered.length → d.worker.exits = true

/-- Before attempt `index`: the directory is there, and every worker was seen to exit. -/
structure Waiting (request : Request) (kept : Retained) (index : Nat) (s : Site) : Prop where
  retained : s.retained = some kept
  count : s.delivered.length = index
  requests : ∀ (i : Nat) (d : Delivery), s.delivered[i]? = some d → d.request = requestAt request i
  exits : ∀ (i : Nat) (d : Delivery), s.delivered[i]? = some d → d.worker.exits = true

theorem Waiting.fenced {kept : Retained} {index : Nat} {s : Site}
    (h : Waiting request kept index s) : Fenced request s :=
  ⟨h.requests, fun i d hd _ => h.exits i d hd⟩

/-- How a launch ends: settled by the last worker, or with everything kept. -/
def Ended (l : Launch) (request : Request) (kept : Retained) (result : LaunchResult) (s : Site) :
    Prop :=
  (result.recoveryFile = none ∧ ∃ d response, s.delivered.getLast? = some d ∧
    result.response = some response ∧ result.exitCode = response.exitCode ∧
    Answered l d response ∧ Settles response request d) ∨
  (result.recoveryFile = some l.recoveryFile ∧ result.exitCode = 3 ∧ s.retained = some kept)

theorem unresolved_ended {kept : Retained} {response : Option Response} {n : Nat} {s : Site}
    (h : s.retained = some kept) : Ended l request kept (unresolved l n response) s :=
  .inr ⟨rfl, rfl, h⟩

theorem getElem?_deliver {ds : List Delivery} {d d' : Delivery} {i : Nat}
    (h : (ds ++ [d'])[i]? = some d) : ds[i]? = some d ∨ i = ds.length ∧ d = d' := by
  by_cases hi : i < ds.length
  · rw [List.getElem?_append_left hi] at h
    exact .inl h
  · rw [List.getElem?_append_right (by omega)] at h
    obtain ⟨hi', hd⟩ := List.getElem?_eq_some_iff.mp h
    rw [List.length_singleton] at hi'
    rw [List.getElem_singleton] at hd
    exact .inr ⟨by omega, hd.symm⟩

def Site.deliver (s : Site) (d : Delivery) : Site := { s with delivered := s.delivered ++ [d] }

@[simp] theorem Site.deliver_delivered (s : Site) (d : Delivery) :
    (s.deliver d).delivered = s.delivered ++ [d] := rfl

/-- One more worker. -/
theorem Waiting.deliver {kept : Retained} {index : Nat} {s : Site}
    (h : Waiting request kept index s) (worker : Behaviour) :
    Fenced request (s.deliver ⟨requestAt request index, worker⟩) := by
  constructor
  · intro i d hd
    rcases getElem?_deliver hd with hold | ⟨hi, rfl⟩
    · exact h.requests i d hold
    · rw [hi, h.count]
  · intro i d hd hlast
    rcases getElem?_deliver hd with hold | ⟨hi, rfl⟩
    · exact h.exits i d hold
    · rw [Site.deliver_delivered, List.length_append, List.length_singleton] at hlast
      omega

/-- One more worker, seen to exit. -/
theorem Waiting.next {kept : Retained} {index : Nat} {s : Site}
    (h : Waiting request kept index s) {worker : Behaviour} (hexits : worker.exits = true) :
    Waiting request kept (index + 1) (s.deliver ⟨requestAt request index, worker⟩) := by
  refine ⟨h.retained, ?_, (h.deliver worker).requests, ?_⟩
  · rw [Site.deliver_delivered, List.length_append, List.length_singleton, h.count]
  · intro i d hd
    rcases getElem?_deliver hd with hold | ⟨-, rfl⟩
    · exact h.exits i d hold
    · exact hexits

theorem attempts_triple {kept : Retained} (hs : request.isStatus = false) (n index : Nat)
    (response : Option Response) :
    Triple (Waiting request kept index) (attempts l request n index response)
      (fun result s => (s.delivered.length ≤ index + n ∧ Fenced request s) ∧
        Ended l request kept result s)
      (fun _ s => (s.delivered.length ≤ index + n ∧ Fenced request s) ∧ l.removing ≠ none) := by
  induction n generalizing index response with
  | zero =>
      refine Triple.pure fun s h => ?_
      exact ⟨⟨Nat.le_of_eq h.count, h.fenced⟩, unresolved_ended h.retained⟩
  | succ n ih =>
      refine Triple.ite (fun _ => ?_) fun _ => Triple.pure fun s h => ?_
      · let delivery : Delivery := ⟨requestAt request index, l.workers index⟩
        let attempt := run l.decode delivery.request delivery.worker
        have hexits : attempt.fenced = delivery.worker.exits := run_fenced _ _ _
        refine Triple.bind (R := fun _ s => s.delivered.length = index + 1 ∧ s.retained = some kept ∧
          s.delivered.getLast? = some delivery ∧ Fenced request s ∧
          (delivery.worker.exits = true → Waiting request kept (index + 1) s)) ?_ fun _ => ?_
        · refine Triple.modify fun s h => ⟨?_, h.retained, ?_, h.deliver _, fun he => h.next he⟩
          · rw [List.length_append, List.length_singleton, h.count]
          · exact List.getLast?_concat
        refine Triple.ite (fun hdone => ?_) fun _ => ?_
        · -- the worker exited, and its response settles the request
          rw [Bool.and_eq_true, hs, Bool.false_or] at hdone
          obtain ⟨hfenced, hdone⟩ := hdone
          obtain ⟨r, hresponse, hsettled⟩ := (Option.any_eq_true _ _).mp hdone
          obtain ⟨hanswered, hcode⟩ := run_response hresponse
          have hsettles := settles_of_settled index rfl hanswered hsettled
          refine Triple.bind (R := fun _ s => s.delivered.length = index + 1 ∧
            s.delivered.getLast? = some delivery ∧ Fenced request s) ?_ fun _ => ?_
          · refine Triple.ofExcept ?_ ?_
            · rintro _ s - ⟨hcount, -, hlast, hf, -⟩
              exact ⟨hcount, hlast, hf⟩
            · rintro e s he ⟨hcount, -, -, hf, -⟩
              refine ⟨⟨by omega, hf⟩, fun hnone => ?_⟩
              rw [hnone] at he
              cases he
          · refine Triple.bind (R := fun _ s => s.delivered.length = index + 1 ∧
              s.delivered.getLast? = some delivery ∧ Fenced request s) ?_ fun _ => ?_
            · exact Triple.modify fun s h => ⟨h.1, h.2.1, h.2.2.requests, h.2.2.exits⟩
            · refine Triple.pure fun s ⟨hcount, hlast, hf⟩ => ?_
              refine ⟨⟨by omega, hf⟩, .inl ⟨rfl, delivery, r, hlast, hresponse, ?_, hanswered, hsettles⟩⟩
              simp only [hresponse, Option.isNone_some, Bool.false_and, Bool.false_eq_true, if_false]
              exact hcode
        · refine Triple.ite (fun _ => Triple.pure fun s h => ?_) fun hmore => ?_
          · exact ⟨⟨by omega, h.2.2.2.1⟩, unresolved_ended h.2.1⟩
          · have hfenced : delivery.worker.exits = true := by
              rw [← hexits]
              simp only [Bool.or_eq_true, not_or, Bool.not_eq_true', Bool.not_eq_false] at hmore
              exact hmore.1
            refine (ih (index + 1) attempt.response).conseq (fun s h => h.2.2.2.2 hfenced) ?_ ?_
            · rintro result s ⟨⟨hcount, hf⟩, hended⟩
              exact ⟨⟨by omega, hf⟩, hended⟩
            · rintro e s ⟨⟨hcount, hf⟩, hremoving⟩
              exact ⟨⟨by omega, hf⟩, hremoving⟩
      · exact ⟨⟨by rw [h.count]; omega, h.fenced⟩, unresolved_ended h.retained⟩

/-- A launch that returns no result was refused, or failed on the supervisor's own files. -/
def Refused (l : Launch) (request : Request) (options : LaunchOptions) : Prop :=
  ¬(request.validate = .ok () ∧ options.validate = .ok () ∧ l.writing = none ∧ l.removing = none)

theorem superviseBytes_triple (l : Launch) (bytes : Bytes) (options : LaunchOptions)
    (hs : request.isStatus = false) :
    Triple (· = ⟨none, []⟩) (superviseBytes l bytes request options)
      (fun result s => (s.delivered.length ≤ options.recoveryAttempts + 1 ∧ Fenced request s) ∧
        Ended l request
          ⟨bytes, l.file, l.sha256 bytes, bytes.length, recoverRequest request⟩ result s)
      (fun _ s => (s.delivered.length ≤ options.recoveryAttempts + 1 ∧ Fenced request s) ∧
        Refused l request options) := by
  have hempty : ∀ s : Site, s = ⟨none, []⟩ → s.delivered.length ≤ options.recoveryAttempts + 1 ∧
      Fenced request s := by
    rintro _ rfl
    exact ⟨Nat.zero_le _, by simp, by simp⟩
  -- each check leaves the site as it is, and its error is a refusal
  have hcheck (x : Except Error Unit) (hx : ∀ e, x = .error e → Refused l request options) :
      Triple (· = ⟨none, []⟩) (Prog.ofExcept x) (fun (_ : Unit) s => s = ⟨none, []⟩)
        (fun _ s => (s.delivered.length ≤ options.recoveryAttempts + 1 ∧ Fenced request s) ∧
          Refused l request options) :=
    Triple.ofExcept (fun _ _ _ h => h) fun e s he h => ⟨hempty s h, hx e he⟩
  unfold superviseBytes
  refine Triple.bind (hcheck _ fun e he h => ?_) fun _ => ?_
  · simp [h.1] at he
  refine Triple.bind (hcheck _ fun e he h => ?_) fun _ => ?_
  · simp [h.2.1] at he
  refine Triple.bind (hcheck _ fun e he h => ?_) fun _ => ?_
  · simp [h.2.2.1] at he
  refine Triple.bind (R := fun _ => Waiting request
    ⟨bytes, l.file, l.sha256 bytes, bytes.length, recoverRequest request⟩ 0) ?_ fun _ => ?_
  · refine Triple.modify ?_
    rintro _ rfl
    exact ⟨rfl, rfl, by simp, by simp⟩
  · refine (attempts_triple hs _ _ none).conseq (fun _ h => h) ?_ ?_
    · rintro result s ⟨⟨hcount, hf⟩, hended⟩
      exact ⟨⟨by omega, hf⟩, hended⟩
    · rintro e s ⟨⟨hcount, hf⟩, hremoving⟩
      exact ⟨⟨by omega, hf⟩, fun h => hremoving h.2.2.2⟩

end

/-- The supervisor is sound whatever its workers do.  At most `recoveryAttempts + 1` of
them are run, the first on the request and the others on its recovery, and none after one
that was not seen to exit.  Without a recovery file it ends only on the answer of the
last worker, seen to exit, that settles the request; otherwise it reports exit 3 and
keeps the worker and its descriptor. -/
theorem supervise_sound (l : Launch) (bytes : Bytes) (request : Request) (options : LaunchOptions)
    (hs : request.isStatus = false) :
    let r := superviseBytes l bytes request options ⟨none, []⟩
    (r.2.delivered.length ≤ options.recoveryAttempts + 1 ∧
      ∀ i d, r.2.delivered[i]? = some d →
        d.request = (if i = 0 then request else .recover 1 request.expected) ∧
        (i + 1 < r.2.delivered.length → d.worker.exits = true)) ∧
    (∀ result, r.1 = .ok result →
      (result.recoveryFile = none ∧ ∃ d response, r.2.delivered.getLast? = some d ∧
        result.response = some response ∧ result.exitCode = response.exitCode ∧
        Answered l d response ∧ Settles response request d) ∨
      (result.recoveryFile = some l.recoveryFile ∧ result.exitCode = 3 ∧
        r.2.retained = some ⟨bytes, l.file, l.sha256 bytes, bytes.length,
          .recover 1 request.expected⟩)) ∧
    (request.validate = .ok () → options.validate = .ok () → l.writing = none →
      l.removing = none → ∃ result, r.1 = .ok result) := by
  intro r
  have hends := superviseBytes_triple l bytes options hs _ rfl
  change Ends _ _ r at hends
  obtain ⟨res, s⟩ := r
  have htrace (h : s.delivered.length ≤ options.recoveryAttempts + 1 ∧ Fenced request s) :
      s.delivered.length ≤ options.recoveryAttempts + 1 ∧
        ∀ i d, s.delivered[i]? = some d →
          d.request = (if i = 0 then request else .recover 1 request.expected) ∧
          (i + 1 < s.delivered.length → d.worker.exits = true) :=
    ⟨h.1, fun i d hd => ⟨h.2.requests i d hd, h.2.exits i d hd⟩⟩
  cases res with
  | ok result =>
      refine ⟨htrace hends.1, ?_, fun _ _ _ _ => ⟨result, rfl⟩⟩
      rintro _ h
      cases h
      exact hends.2
  | err e =>
      refine ⟨htrace hends.1, fun _ h => (by cases h), fun h₁ h₂ h₃ h₄ => ?_⟩
      exact absurd ⟨h₁, h₂, h₃, h₄⟩ hends.2
  | crash =>
      refine ⟨htrace hends.1, fun _ h => (by cases h), fun h₁ h₂ h₃ h₄ => ?_⟩
      exact absurd ⟨h₁, h₂, h₃, h₄⟩ hends.2

/-- The first worker writes no response, the second hangs and is not seen to exit. -/
def hungLaunch : Launch where
  decode _ := .error "expected value at line 1 column 1"
  sha256 _ := "9b8db510ef42b8ed54a3712636fda55a4f8cfcd5493e20b74ab00cd4f3979f2d"
  dir := "scratch/k-runner"
  writing := none
  removing := none
  inTime _ := true
  workers index :=
    if index = 0 then ⟨true, some [111, 111, 112, 115], some (some 0), true⟩
    else ⟨true, none, none, false⟩

def hungRequest : Request := .upgrade 1 "op-1" "2" true

theorem supervise_sound_hung :
    ∃ result, (superviseBytes hungLaunch [77, 90] hungRequest ⟨600000, 120000, 840000, 2⟩
        ⟨none, []⟩).1 = .ok result ∧
      result.attempts = 2 ∧ result.recoveryFile = some hungLaunch.recoveryFile ∧
      result.exitCode = 3 := by
  obtain ⟨-, hended, htotal⟩ :=
    supervise_sound hungLaunch [77, 90] hungRequest ⟨600000, 120000, 840000, 2⟩ rfl
  obtain ⟨result, hresult⟩ := htotal (Request.validate_upgrade (by decide +kernel) (by decide +kernel)) rfl rfl rfl
  have hfile : ∀ r, (superviseBytes hungLaunch [77, 90] hungRequest ⟨600000, 120000, 840000, 2⟩
      ⟨none, []⟩).1 = .ok r → r.attempts = 2 ∧ r.recoveryFile ≠ none := by
    intro r hr
    cases hr
    exact ⟨by decide +kernel, by decide +kernel⟩
  obtain ⟨hattempts, hkept⟩ := hfile result hresult
  rcases hended result hresult with ⟨hnone, -⟩ | ⟨hsome, hexit, -⟩
  · exact absurd hnone hkept
  · exact ⟨result, hresult, hattempts, hsome, hexit⟩

end Supervisor

end KCarrier
