import KCarrier.Host.Redaction
import KCarrier.Protocol.Wire

/-!
# KCarrier.Host.Call

`CommandHost::call`: what a call of the controller returns.

An `Encounter` is what one call meets: the result of every operation on the record of the
controller and on its process, what the controller writes and how it exits, and where the
budget ends.  An operation that is waited for has no result (`none`) when the budget ends
first.

* `judge_uncertain` — a reply that declares its effect uncertain is taken at its word,
  whatever the exit status;
* `outcome_open` — what the exchange leaves open is `Error::Uncertain`;
* `call_uncertainty_iff` — and what the steps behind the exchange make of it.
-/

namespace KCarrier

open Json (Value toVec)

namespace CommandHost

/-! ## what a call meets -/

/-- A failed operation of the system. -/
structure Io where
  notFound : Bool
  message : String
deriving DecidableEq, Repr

def Io.error (f : Io) : Error := .io f.notFound f.message

/-- The code of an exit; a signal has none. -/
abbrev Status := Option Int

def Status.success (status : Status) : Bool := status = some 0

structure Child where
  id : Option Nat
  stdin : Bool
  stdout : Bool
deriving DecidableEq, Repr

structure Encounter where
  isolate : Except Io Unit
  ensureDir : Except Io Unit
  spawn : Except Io Child
  openRecord : Except Io Unit
  writeRecord : Except Io Unit
  syncRecord : Except Io Unit
  syncDir : Except Io Unit
  /-- writing the request to the controller -/
  deliver : Bytes → Option (Except Io Unit)
  shutdown : Option (Except Io Unit)
  /-- what the controller writes before its output ends -/
  output : Option (Except Io Bytes)
  exit : Option (Except Io Status)
  /-- `try_wait`, when the exchange is over -/
  poll : Except Io (Option Status)
  /-- whether the exit is seen within the second after that -/
  reaped : Bool
  remove : Except Io Unit
  syncRemoved : Except Io Unit

/-! ## the reply -/

def isBool (b : Bool) : Option Value → Bool
  | some (.bool c) => b == c
  | _ => false

/-- The code as the error texts show it. -/
def Status.code (status : Status) : String :=
  match status with
  | none => "signal"
  | some code => toString code

/-- The host's own reason, if it gives one that is left after redaction. -/
def detail (value : Value) : String :=
  match ((value.get "error").bind Value.asString).map hostErrorDetail with
  | none => ""
  | some detail => if detail = "" then "" else s!": {detail}"

/-- `protocolVersion` 1, `ok` false and `uncertain` true. -/
def declaresUncertain (value : Value) : Bool :=
  Request.isVersionOne (value.get "protocolVersion") && isBool false (value.get "ok") &&
    isBool true (value.get "uncertain")

/-- The pid of the evidence of a probe. -/
def evidencePid (value : Value) : Option Nat :=
  ((value.get "evidence").bind (Value.get · "pid")).bind (Value.asUnsigned 64)

/-- What the exchange makes of the reply and the exit. -/
def judge (serde : Serde) (action : String) (pid : Nat) (bytes : Bytes) (status : Status) :
    Except Error Value :=
  let code := status.code
  match Json.fromSlice serde.float bytes with
  | none =>
      if !status.success then
        .error (.invalid
          s!"HOST_COMMAND_FAILED: {action} (exit {code}): host response was not valid JSON")
      else
        .error (.json (serde.message bytes))
  | some document =>
      let value := document.settle
      if declaresUncertain value then
        .error (.uncertain s!"HOST_EFFECT_UNRESOLVED: {action}")
      else if !status.success then
        let detail := detail value
        .error (.invalid s!"HOST_COMMAND_FAILED: {action} (exit {code}){detail}")
      else if !Request.isVersionOne (value.get "protocolVersion") ||
          !isBool true (value.get "ok") then
        .error (.invalid s!"HOST_PROTOCOL_INVALID: {action}")
      else if action = "probe" ∧ evidencePid value = some pid then
        .error (.invalid "HOST_EVIDENCE_INVALID: controller cannot attest itself")
      else
        .ok value

/-! ## the call -/

/-- An operation that ends before the budget does has a result. -/
abbrev Timed := ExceptT Error Option

def Timed.io {α : Type} (result : Option (Except Io α)) : Timed α :=
  ExceptT.mk (result.map fun r => r.mapError Io.error)

section

variable {α β : Type} {k : α → Timed β}

@[simp] theorem Timed.run_io_none : (Timed.io none >>= k).run = none := rfl

@[simp] theorem Timed.run_io_error (f : Io) :
    (Timed.io (some (.error f)) >>= k).run = some (.error f.error) := rfl

@[simp] theorem Timed.run_io_ok (a : α) : (Timed.io (some (.ok a)) >>= k).run = (k a).run := rfl

end

/-- The request, with its members sorted by name. -/
def request (artifact : Slot → String) (action : String) (slot : Option Slot) : Value :=
  match slot with
  | none => .object [("action", .string action), ("protocolVersion", .number (.natural 1))]
  | some slot =>
      .object [("action", .string action), ("artifactPath", .string (artifact slot)),
        ("protocolVersion", .number (.natural 1)), ("slot", .string slot.name)]

/-- Controller receives no effect until its lifetime is durable. -/
def exchange (serde : Serde) (action : String) (sent : Bytes) (pid : Nat) (e : Encounter) :
    Timed Value := do
  Timed.io (some e.openRecord)
  Timed.io (some e.writeRecord)
  Timed.io (some e.syncRecord)
  Timed.io (some e.syncDir)
  Timed.io (e.deliver sent)
  Timed.io e.shutdown
  let output ← Timed.io e.output
  let bytes := output.take 65537
  if bytes.length > 65536 then
    throw (.uncertain "HOST_RESPONSE_TOO_LARGE")
  let status ← Timed.io e.exit
  ExceptT.mk (some (judge serde action pid bytes status))

/-- The exchange, or that its budget ended. -/
def outcome (serde : Serde) (action : String) (sent : Bytes) (pid : Nat) (e : Encounter) :
    Except Error Value :=
  match (exchange serde action sent pid e).run with
  | some result => result
  | none => .error (.uncertain s!"HOST_CALL_TIMEOUT: {action}")

/-- On timeout termination is attempted, but absence must be observed.  A retained record is
fenced by the successor, not assumed harmless. -/
def conclude (action : String) (e : Encounter) (outcome : Except Error Value) :
    Except Error Value := do
  let _ ← e.poll.mapError Io.error
  if !e.reaped then
    throw (.uncertain s!"HOST_PROCESS_UNRESOLVED: {action}")
  match e.remove with
  | .ok () => pure ()
  | .error f => if f.notFound then pure () else throw f.error
  e.syncRemoved.mapError Io.error
  outcome

def call (serde : Serde) (artifact : Slot → String) (action : String) (slot : Option Slot)
    (e : Encounter) : Except Error Value := do
  e.isolate.mapError Io.error
  e.ensureDir.mapError Io.error
  let child ← e.spawn.mapError Io.error
  match child.id with
  | none => throw (.invalid "HOST_SPAWN_FAILED")
  | some pid =>
      if !child.stdin then
        throw (.invalid "HOST_STDIN_MISSING")
      if !child.stdout then
        throw (.invalid "HOST_STDOUT_MISSING")
      let sent := toVec (request artifact action slot)
      conclude action e (outcome serde action sent pid e)

/-! ## what happened, and what may be said about it -/

namespace Encounter

variable (serde : Serde) (sent : Bytes) (e : Encounter)

/-- The steps before the request all worked, so that the controller may have received it. -/
def delivers : Bool :=
  e.isolate.isOk && e.ensureDir.isOk &&
    (e.spawn.toOption.any fun child => child.id.isSome && child.stdin && child.stdout) &&
    e.openRecord.isOk && e.writeRecord.isOk && e.syncRecord.isOk && e.syncDir.isOk

/-- What was received of the output, up to one byte more than allowed. -/
def reply : Option Bytes :=
  match e.deliver sent, e.shutdown, e.output with
  | some (.ok ()), some (.ok ()), some (.ok output) => some (output.take 65537)
  | _, _, _ => none

def oversized : Bool := (e.reply sent).any fun bytes => 65536 < bytes.length

/-- The budget ends at an operation the exchange waits for. -/
def elapses : Bool :=
  match e.deliver sent with
  | none => true
  | some (.error _) => false
  | some (.ok ()) =>
      match e.shutdown with
      | none => true
      | some (.error _) => false
      | some (.ok ()) =>
          match e.output with
          | none => true
          | some (.error _) => false
          | some (.ok _) => !e.oversized sent && e.exit.isNone

/-- The reply declares its effect uncertain. -/
def declares : Bool :=
  (e.reply sent).any fun bytes =>
    (Json.fromSlice serde.float bytes).any fun document => declaresUncertain document.settle

/-- The exit was observed, in the exchange or behind it. -/
def exitSeen : Bool :=
  (e.reply sent).isSome && !e.oversized sent && e.exit.any Except.isOk ||
    e.poll.isOk && e.reaped

/-- What makes the effect of the request uncertain. -/
def unsettled : Bool := e.elapses sent || e.oversized sent || e.declares serde sent

/-- The record stays where it is, or may come back. -/
def cleanupFails : Bool :=
  (match e.remove with
    | .ok () => false
    | .error f => !f.notFound) || !e.syncRemoved.isOk

/-- A step behind the request fails when the call has to be uncertain: the exit is polled in
vain, the record is not removed, or the wait for the exit fails before the reply is looked
at. -/
def masks : Bool :=
  e.delivers &&
    match e.poll with
    | .error _ => !e.exitSeen sent || e.unsettled serde sent
    | .ok _ => e.reaped &&
        (e.unsettled serde sent && e.cleanupFails ||
          e.declares serde sent && !e.oversized sent && e.exit.any (!·.isOk))

/-- The controller exited with success within the budget, and this is its reply. -/
def Replied (v : Value) : Prop :=
  e.elapses sent = false ∧ e.exit = some (.ok (some 0)) ∧
    ∃ bytes document, e.reply sent = some bytes ∧ bytes.length ≤ 65536 ∧
      Json.fromSlice serde.float bytes = some document ∧ v = document.settle ∧
      Request.isVersionOne (v.get "protocolVersion") = true ∧ isBool true (v.get "ok") = true

end Encounter

/-- A call succeeds on a successful reply only, and once the request may have been delivered
it fails for good only if nothing is uncertain. -/
def KeepsUncertainty (serde : Serde) (artifact : Slot → String) (action : String)
    (slot : Option Slot) (e : Encounter) : Prop :=
  let sent := toVec (request artifact action slot)
  (∀ v, call serde artifact action slot e = .ok v → e.Replied serde sent v) ∧
    (e.delivers = true → ∀ err, call serde artifact action slot e = .error err →
      err.isUncertain = false → e.exitSeen sent = true ∧ e.elapses sent = false ∧
        e.oversized sent = false ∧ e.declares serde sent = false)

/-! ## the reply -/

variable {serde : Serde} {artifact : Slot → String} {action : String} {slot : Option Slot}
  {sent bytes : Bytes} {pid : Nat} {status : Status} {e : Encounter} {v : Value} {err : Error}

theorem judge_ok (h : judge serde action pid bytes status = .ok v) :
    status = some 0 ∧ ∃ document, Json.fromSlice serde.float bytes = some document ∧
      v = document.settle ∧ Request.isVersionOne (v.get "protocolVersion") = true ∧
      isBool true (v.get "ok") = true := by
  unfold judge at h
  cases hread : Json.fromSlice serde.float bytes with
  | none =>
      rw [hread] at h
      dsimp only at h
      split at h <;> cases h
  | some document =>
      rw [hread] at h
      dsimp only at h
      split at h
      · cases h
      split at h
      · cases h
      next hsuccess =>
        split at h
        · cases h
        next hreply =>
          split at h
          · cases h
          cases h
          simp only [Bool.or_eq_true, Bool.not_eq_true', not_or, Bool.not_eq_false] at hreply
          exact ⟨by simpa [Status.success] using hsuccess, document, rfl, rfl, hreply⟩

/-- A reply that declares its effect uncertain is taken at its word, whatever the exit
status; no other reply is uncertain. -/
theorem judge_uncertain :
    (∃ err, judge serde action pid bytes status = .error err ∧ err.isUncertain = true) ↔
      ((Json.fromSlice serde.float bytes).any fun document =>
        declaresUncertain document.settle) = true := by
  unfold judge
  cases hread : Json.fromSlice serde.float bytes with
  | none =>
      dsimp only
      split <;> simp [Error.isUncertain]
  | some document =>
      rw [Option.any_some]
      dsimp only
      split
      · next hdeclares => simp [hdeclares, Error.isUncertain]
      · next hdeclares =>
          split
          · simp [hdeclares, Error.isUncertain]
          split
          · simp [hdeclares, Error.isUncertain]
          split
          · simp [hdeclares, Error.isUncertain]
          · simp [hdeclares]

/-! ## the exchange -/

theorem eq_ok_of_isOk {r : Except Io Unit} (h : r.isOk = true) : r = .ok () := by
  cases r with
  | ok u => rfl
  | error f => cases h

/-- The ways the exchange ends once the request may have been delivered. -/
inductive Ends (serde : Serde) (action : String) (sent : Bytes) (pid : Nat) (e : Encounter) :
    Except Error Value → Prop
  | elapsed : e.elapses sent = true →
      Ends serde action sent pid e (.error (.uncertain s!"HOST_CALL_TIMEOUT: {action}"))
  /-- an operation fails before the reply is there -/
  | lost (f : Io) : e.elapses sent = false → e.reply sent = none →
      Ends serde action sent pid e (.error f.error)
  | oversized : e.elapses sent = false → e.oversized sent = true →
      Ends serde action sent pid e (.error (.uncertain "HOST_RESPONSE_TOO_LARGE"))
  | unwaited (f : Io) : e.elapses sent = false → e.oversized sent = false →
      e.exit = some (.error f) → Ends serde action sent pid e (.error f.error)
  | judged (bytes : Bytes) (status : Status) : e.elapses sent = false →
      e.reply sent = some bytes → e.oversized sent = false → e.exit = some (.ok status) →
      Ends serde action sent pid e (judge serde action pid bytes status)

/-- With the reply there, only the exit can keep the call waiting. -/
theorem Encounter.elapses_of_reply (e : Encounter) (h : e.reply sent = some bytes) :
    e.elapses sent = (!e.oversized sent && e.exit.isNone) := by
  unfold Encounter.reply at h
  split at h
  · next hdeliver hshut hout => simp [Encounter.elapses, hdeliver, hshut, hout]
  · cases h

theorem outcome_ends (serde : Serde) (action : String) (sent : Bytes) (pid : Nat)
    (h : e.delivers = true) :
    Ends serde action sent pid e (outcome serde action sent pid e) := by
  unfold Encounter.delivers at h
  simp only [Bool.and_eq_true] at h
  obtain ⟨⟨⟨⟨-, hopen⟩, hwrite⟩, hsync⟩, hdir⟩ := h
  unfold outcome exchange
  rw [eq_ok_of_isOk hopen, eq_ok_of_isOk hwrite, eq_ok_of_isOk hsync, eq_ok_of_isOk hdir]
  simp only [Timed.run_io_ok]
  rcases hdeliver : e.deliver sent with _ | f | ⟨⟩
  · exact .elapsed (by simp [Encounter.elapses, hdeliver])
  · exact .lost f (by simp [Encounter.elapses, hdeliver]) (by simp [Encounter.reply, hdeliver])
  rw [Timed.run_io_ok]
  rcases hshut : e.shutdown with _ | f | ⟨⟩
  · exact .elapsed (by simp [Encounter.elapses, hdeliver, hshut])
  · exact .lost f (by simp [Encounter.elapses, hdeliver, hshut])
      (by simp [Encounter.reply, hdeliver, hshut])
  rw [Timed.run_io_ok]
  rcases hout : e.output with _ | f | output
  · exact .elapsed (by simp [Encounter.elapses, hdeliver, hshut, hout])
  · exact .lost f (by simp [Encounter.elapses, hdeliver, hshut, hout])
      (by simp [Encounter.reply, hdeliver, hshut, hout])
  rw [Timed.run_io_ok]
  have hreply : e.reply sent = some (output.take 65537) := by
    simp [Encounter.reply, hdeliver, hshut, hout]
  have helapses := e.elapses_of_reply hreply
  by_cases hlong : 65536 < (output.take 65537).length
  · have hover : e.oversized sent = true := by
      rw [Encounter.oversized, hreply, Option.any_some]
      exact decide_eq_true hlong
    have hquiet : e.elapses sent = false := by simp [helapses, hover]
    rw [if_pos hlong]
    exact .oversized hquiet hover
  · have hshort : e.oversized sent = false := by
      rw [Encounter.oversized, hreply, Option.any_some]
      exact decide_eq_false hlong
    rw [if_neg hlong]
    rcases hexit : e.exit with _ | f | status
    · exact .elapsed (by simp [helapses, hshort, hexit])
    · exact .unwaited f (by simp [helapses, hexit]) hshort hexit
    · exact .judged _ status (by simp [helapses, hexit]) hreply hshort hexit

/-- What the exchange leaves open is uncertain, unless the wait for the exit failed before the
reply was looked at. -/
theorem Ends.open {r : Except Error Value} (h : Ends serde action sent pid e r)
    (hunsettled : e.unsettled serde sent = true)
    (hwaited : (e.declares serde sent && !e.oversized sent && e.exit.any (!·.isOk)) = false) :
    ∃ err, r = .error err ∧ err.isUncertain = true := by
  unfold Encounter.unsettled at hunsettled
  cases h with
  | elapsed => exact ⟨_, rfl, rfl⟩
  | oversized => exact ⟨_, rfl, rfl⟩
  | lost f hquiet hreply =>
      simp [hquiet, Encounter.oversized, Encounter.declares, hreply] at hunsettled
  | unwaited f hquiet hshort hexit =>
      simp [hquiet, hshort] at hunsettled
      simp [hunsettled, hshort, hexit, Except.isOk, Except.toBool] at hwaited
  | judged bytes status hquiet hreply hshort hexit =>
      rw [hquiet, hshort, Encounter.declares, hreply, Option.any_some] at hunsettled
      exact judge_uncertain.mpr hunsettled

theorem Ends.replied (h : Ends serde action sent pid e (.ok v)) : e.Replied serde sent v := by
  generalize hr : (Except.ok v : Except Error Value) = r at h
  cases h with
  | judged bytes status hquiet hreply hshort hexit =>
      obtain ⟨rfl, document, hread, hv, hversion, hok⟩ := judge_ok hr.symm
      rw [Encounter.oversized, hreply, Option.any_some, decide_eq_false_iff_not] at hshort
      exact ⟨hquiet, hexit, bytes, document, hreply, by omega, hread, hv, hversion, hok⟩
  | _ => cases hr

/-- When the wait for the exit fails, the reply is not looked at. -/
theorem Ends.unread {r : Except Error Value} (h : Ends serde action sent pid e r)
    (hdeclares : e.declares serde sent = true) (hshort : e.oversized sent = false)
    (hexit : e.exit.any (!·.isOk) = true) : ∃ err, r = .error err ∧ err.isUncertain = false := by
  obtain ⟨f, hfails⟩ : ∃ f, e.exit = some (.error f) := by
    rcases he : e.exit with _ | f | status
    · simp [he] at hexit
    · exact ⟨f, rfl⟩
    · simp [he, Except.isOk, Except.toBool] at hexit
  cases h with
  | elapsed helapses =>
      obtain ⟨bytes, hreply, -⟩ := Option.any_eq_true _ _ |>.mp hdeclares
      simp [e.elapses_of_reply hreply, hfails] at helapses
  | lost f hquiet hreply => simp [Encounter.declares, hreply] at hdeclares
  | oversized hquiet hover =>
      rw [hshort] at hover
      cases hover
  | unwaited f => exact ⟨_, rfl, rfl⟩
  | judged bytes status hquiet hreply hshort' hexit' =>
      rw [hfails] at hexit'
      cases hexit'

/-! ## behind the exchange -/

theorem conclude_unpolled {r : Except Error Value} {f : Io} (h : e.poll = .error f) :
    conclude action e r = .error f.error := by
  rw [conclude, h]
  rfl

theorem conclude_unreaped {r : Except Error Value} {status : Option Status}
    (h : e.poll = .ok status) (hreaped : e.reaped = false) :
    conclude action e r = .error (.uncertain s!"HOST_PROCESS_UNRESOLVED: {action}") := by
  rw [conclude, h, hreaped]
  rfl

theorem conclude_reaped (action : String) (r : Except Error Value) {status : Option Status}
    (h : e.poll = .ok status) (hreaped : e.reaped = true) :
    if e.cleanupFails then ∃ f : Io, conclude action e r = .error f.error
    else conclude action e r = r := by
  rw [conclude, h, hreaped, Encounter.cleanupFails]
  rcases e.remove with ⟨notFound, message⟩ | ⟨⟩
  · cases notFound with
    | false => exact ⟨_, rfl⟩
    | true =>
        cases e.syncRemoved with
        | error f => exact ⟨f, rfl⟩
        | ok u => rfl
  · cases e.syncRemoved with
    | error f => exact ⟨f, rfl⟩
    | ok u => rfl

/-! ## the call -/

theorem call_eq (serde : Serde) (artifact : Slot → String) (action : String)
    (slot : Option Slot) (h : e.delivers = true) :
    ∃ pid, call serde artifact action slot e = conclude action e
      (outcome serde action (toVec (request artifact action slot)) pid e) := by
  unfold Encounter.delivers at h
  simp only [Bool.and_eq_true] at h
  obtain ⟨⟨⟨⟨⟨⟨hisolate, hensure⟩, hspawn⟩, -⟩, -⟩, -⟩, -⟩ := h
  unfold call
  rw [eq_ok_of_isOk hisolate, eq_ok_of_isOk hensure]
  match hchild : e.spawn with
  | .error f => simp [hchild, Except.toOption] at hspawn
  | .ok ⟨none, _, _⟩ => simp [hchild, Except.toOption] at hspawn
  | .ok ⟨some pid, stdin, stdout⟩ =>
      simp [hchild, Except.toOption] at hspawn
      obtain ⟨rfl, rfl⟩ := hspawn
      exact ⟨pid, rfl⟩

theorem conclude_ok {r : Except Error Value} (h : conclude action e r = .ok v) : r = .ok v := by
  rcases hpoll : e.poll with f | status
  · rw [conclude_unpolled hpoll] at h
    cases h
  cases hreaped : e.reaped with
  | false =>
      rw [conclude_unreaped hpoll hreaped] at h
      cases h
  | true =>
      have hend := conclude_reaped action r hpoll hreaped
      split at hend
      · obtain ⟨f, hf⟩ := hend
        rw [hf] at h
        cases h
      · rwa [hend] at h

theorem outcome_ok (h : outcome serde action sent pid e = .ok v) :
    e.openRecord.isOk = true ∧ e.writeRecord.isOk = true ∧ e.syncRecord.isOk = true ∧
      e.syncDir.isOk = true := by
  unfold outcome exchange at h
  rcases hopen : e.openRecord with f | ⟨⟩
  · rw [hopen, Timed.run_io_error] at h
    cases h
  rcases hwrite : e.writeRecord with f | ⟨⟩
  · rw [hopen, hwrite, Timed.run_io_ok, Timed.run_io_error] at h
    cases h
  rcases hsync : e.syncRecord with f | ⟨⟩
  · rw [hopen, hwrite, hsync, Timed.run_io_ok, Timed.run_io_ok, Timed.run_io_error] at h
    cases h
  rcases hdir : e.syncDir with f | ⟨⟩
  · rw [hopen, hwrite, hsync, hdir, Timed.run_io_ok, Timed.run_io_ok, Timed.run_io_ok,
      Timed.run_io_error] at h
    cases h
  exact ⟨rfl, rfl, rfl, rfl⟩

/-- A call that does not get as far as the request does not succeed. -/
theorem delivers_of_ok (h : call serde artifact action slot e = .ok v) : e.delivers = true := by
  unfold call at h
  rcases hisolate : e.isolate with f | ⟨⟩
  · rw [hisolate] at h
    cases h
  rcases hensure : e.ensureDir with f | ⟨⟩
  · rw [hisolate, hensure] at h
    cases h
  rw [hisolate, hensure] at h
  match hchild : e.spawn with
  | .error f =>
      rw [hchild] at h
      cases h
  | .ok ⟨none, _, _⟩ =>
      rw [hchild] at h
      cases h
  | .ok ⟨some _, false, _⟩ =>
      rw [hchild] at h
      cases h
  | .ok ⟨some _, true, false⟩ =>
      rw [hchild] at h
      cases h
  | .ok ⟨some pid, true, true⟩ =>
      rw [hchild] at h
      obtain ⟨hopen, hwrite, hsync, hdir⟩ := outcome_ok (conclude_ok h)
      unfold Encounter.delivers
      rw [hisolate, hensure, hchild, hopen, hwrite, hsync, hdir]
      rfl

theorem Encounter.settled_iff : e.unsettled serde sent = false ↔
    e.elapses sent = false ∧ e.oversized sent = false ∧ e.declares serde sent = false := by
  simp [Encounter.unsettled, and_assoc]

/-- **A call never downgrades uncertainty**, except where a step behind the request fails and
takes the place of what the exchange came to. -/
theorem call_uncertainty_iff (serde : Serde) (artifact : Slot → String) (action : String)
    (slot : Option Slot) (e : Encounter) :
    KeepsUncertainty serde artifact action slot e ↔
      e.masks serde (toVec (request artifact action slot)) = false := by
  unfold KeepsUncertainty
  generalize hsent : toVec (request artifact action slot) = sent
  dsimp only
  constructor
  · rintro ⟨-, hdefinite⟩
    rw [← Bool.not_eq_true]
    intro hmasks
    unfold Encounter.masks at hmasks
    rw [Bool.and_eq_true] at hmasks
    obtain ⟨hdelivers, hmasks⟩ := hmasks
    obtain ⟨pid, hcall⟩ := call_eq serde artifact action slot hdelivers
    rw [hsent] at hcall
    have hends := outcome_ends serde action sent pid hdelivers
    -- what a definite error says
    have hsettled : ∀ err, call serde artifact action slot e = .error err →
        err.isUncertain = false → e.exitSeen sent = true ∧ e.unsettled serde sent = false := by
      intro err herr hfinal
      obtain ⟨hseen, hrest⟩ := hdefinite hdelivers err herr hfinal
      exact ⟨hseen, Encounter.settled_iff.mpr hrest⟩
    rcases hpoll : e.poll with f | status
    · obtain ⟨hseen, hquiet⟩ := hsettled _ (hcall.trans (conclude_unpolled hpoll)) rfl
      simp [hpoll, hseen, hquiet] at hmasks
    · simp only [hpoll, Bool.and_eq_true] at hmasks
      obtain ⟨hreaped, hmasks⟩ := hmasks
      have hend := conclude_reaped action (outcome serde action sent pid e) hpoll hreaped
      split at hend
      · obtain ⟨f, hf⟩ := hend
        obtain ⟨-, hquiet⟩ := hsettled _ (hcall.trans hf) rfl
        obtain ⟨-, -, hdeclares⟩ := Encounter.settled_iff.mp hquiet
        simp [hquiet, hdeclares] at hmasks
      · next hcleanup =>
          simp only [hcleanup, Bool.and_false, Bool.false_or, Bool.and_eq_true,
            Bool.not_eq_true'] at hmasks
          obtain ⟨⟨hdeclares, hshort⟩, hexit⟩ := hmasks
          obtain ⟨err, herr, hfinal⟩ := hends.unread hdeclares hshort hexit
          obtain ⟨-, hquiet⟩ := hsettled _ ((hcall.trans hend).trans herr) hfinal
          simp [Encounter.settled_iff, hdeclares] at hquiet
  · intro hmasks
    constructor
    · intro v hv
      obtain ⟨pid, hcall⟩ := call_eq serde artifact action slot (delivers_of_ok hv)
      rw [hsent] at hcall
      have hends := outcome_ends serde action sent pid (delivers_of_ok hv)
      rw [conclude_ok (hcall.symm.trans hv)] at hends
      exact hends.replied
    · intro hdelivers err herr hfinal
      obtain ⟨pid, hcall⟩ := call_eq serde artifact action slot hdelivers
      rw [hsent, herr] at hcall
      have hends := outcome_ends serde action sent pid hdelivers
      unfold Encounter.masks at hmasks
      rw [← Encounter.settled_iff]
      rcases hpoll : e.poll with f | status
      · simpa [hdelivers, hpoll] using hmasks
      cases hreaped : e.reaped with
      | false =>
          rw [conclude_unreaped hpoll hreaped] at hcall
          cases hcall
          cases hfinal
      | true =>
          have hseen : e.exitSeen sent = true := by
            rw [Encounter.exitSeen, hpoll, hreaped]
            simp [Except.isOk, Except.toBool]
          simp only [hdelivers, hpoll, hreaped, Bool.true_and, Bool.or_eq_false_iff] at hmasks
          obtain ⟨hcleanup, hwaited⟩ := hmasks
          constructor
          · exact hseen
          have hend := conclude_reaped action (outcome serde action sent pid e) hpoll hreaped
          split at hend
          · next hfails => simpa [hfails] using hcleanup
          · rw [← Bool.not_eq_true]
            intro hunsettled
            obtain ⟨err', herr', huncertain⟩ := hends.open hunsettled hwaited
            rw [hend, herr'] at hcall
            cases hcall
            rw [huncertain] at hfinal
            cases hfinal

/-- A controller that hangs and is killed, and a record that cannot be removed. -/
def hung : Encounter where
  isolate := .ok ()
  ensureDir := .ok ()
  spawn := .ok ⟨some 4242, true, true⟩
  openRecord := .ok ()
  writeRecord := .ok ()
  syncRecord := .ok ()
  syncDir := .ok ()
  deliver _ := some (.ok ())
  shutdown := some (.ok ())
  output := none
  exit := none
  poll := .ok none
  reaped := true
  remove := .error ⟨false, "Read-only file system (os error 30)"⟩
  syncRemoved := .ok ()

/-- The call ends as if nothing could have happened. -/
theorem hung_downgraded :
    ¬KeepsUncertainty plainSerde (fun _ => "/var/lib/k/slots/stable/artifact.bin") "probe" none
      hung := by
  rintro ⟨-, hdefinite⟩
  obtain ⟨-, hquiet, -⟩ := hdefinite rfl _ rfl rfl
  cases hquiet

end CommandHost

end KCarrier
