import KCarrier.Runner.Answer
import KCarrier.Supervisor

/-!
# KCarrier.Runner.Settlement

The runner's responses, and what the supervisor makes of them.

`respond` and `settled` were written on the two sides of a pipe.  They agree on every
answer that shows the record of the request (`settled_of_own`), and an upgrade is
answered so on every route but one: an upgrade held as managed elsewhere leaves no record
of its own (`settlement_agrees`).
-/

namespace KCarrier

open Crash

/-- What the supervisor's parser asks of a response. -/
structure Response.WellFormed (response : Response) : Prop where
  protocolVersion : response.protocolVersion = 1
  action : response.action ∈ ["upgrade", "recover", "status"]
  exitCode : response.exitCode ≤ 3
  operation : ∀ op, response.operation = .observed op → op.validate = .ok ()

theorem Response.parse_of_wellFormed {decode : Bytes → Except String Response} {bytes : Bytes}
    {response : Response} (h : response.WellFormed) (hlen : bytes.length ≤ 65536)
    (hdecode : decode bytes = .ok response) : Response.parse decode bytes = .ok response := by
  have hshort : ¬bytes.length > 65536 := by omega
  have hcode : ¬response.exitCode > 3 := by have := h.exitCode; omega
  have hgood : ¬(response.protocolVersion ≠ 1 ∨ response.action ∉ ["upgrade", "recover", "status"] ∨
      response.exitCode > 3) := by
    simp only [h.protocolVersion, ne_eq, not_true_eq_false, h.action, hcode, or_self, not_false_eq_true]
  unfold Response.parse
  rw [if_neg hshort, hdecode]
  simp only [if_neg hgood]
  cases hop : response.operation with
  | genesis => rfl
  | unreadable reason => rfl
  | observed op => simp only [h.operation op hop]

/-- The operation of a parsed response is a valid record. -/
theorem Response.valid_of_parse {decode : Bytes → Except String Response} {bytes : Bytes}
    {response : Response} (h : Response.parse decode bytes = .ok response) (op : Operation)
    (hop : response.operation = .observed op) : op.validate = .ok () := by
  unfold Response.parse at h
  split at h
  · cases h
  · split at h
    · cases h
    · next found hdecode =>
        split at h
        · cases h
        · split at h
          · next shown hshown =>
              split at h
              · cases h
              · next hvalid =>
                  cases h
                  rw [hshown] at hop
                  cases hop
                  exact hvalid
          · next hnone =>
              cases h
              exact absurd hop (hnone op)

/-! ## the responses of a runner -/

/-- The record does not show how its operation ended. -/
def OperationRead.Outstanding : OperationRead → Prop
  | .genesis => False
  | .observed op => op.outcome = none
  | .unreadable _ => True

namespace Runner

@[simp] theorem respond_action (request : Request) (result : Except Error (String × Nat))
    (read : OperationRead) : (respond request result read).action = request.action := by
  unfold respond
  dsimp only
  split <;> rfl

/-- The errors a response treats by themselves, and the others. -/
theorem error_cases (err : Error) : (∃ op, err = .replay op) ∨ (∃ pid, err = .locked pid) ∨
    err.NotReplay ∧ ∀ pid, err ≠ .locked pid := by
  cases err with
  | replay op => exact .inl ⟨op, rfl⟩
  | locked pid => exact .inr (.inl ⟨pid, rfl⟩)
  | _ => exact .inr (.inr ⟨fun _ h => (by cases h), fun _ h => (by cases h)⟩)

theorem exitCode_le (read : OperationRead) : read.exitCode ≤ 3 := by
  cases read with
  | genesis => simp [OperationRead.exitCode]
  | unreadable reason => simp [OperationRead.exitCode]
  | observed op =>
      cases ho : op.outcome with
      | none => simp [OperationRead.exitCode, ho]
      | some outcome => cases outcome <;> simp [OperationRead.exitCode, ho, Outcome.exitCode]

/-- An error that is neither a replay nor a lock owner's is reported as text: unresolved
where the record is outstanding or the error uncertain, failed otherwise. -/
theorem report_error {err : Error} (read : OperationRead) (hreplay : err.NotReplay)
    (hlocked : ∀ pid, err ≠ .locked pid) : ∃ word code,
      report (.error err) read = (read, word, code, some err.message) ∧
      (word = "recovery-required" ∧ code = 3 ∨ word = "failed" ∧ code = 1) ∧
      (code = 3 ↔ read.Outstanding ∨ err.isUncertain = true) := by
  have hgo : ∀ unresolved : Bool,
      ((if unresolved then "recovery-required" else "failed") = "recovery-required" ∧
          (if unresolved then 3 else 1) = 3 ∨
        (if unresolved then "recovery-required" else "failed") = "failed" ∧
          (if unresolved then 3 else 1) = 1) ∧
      ((if unresolved then 3 else 1) = 3 ↔ unresolved = true) := by decide
  cases err with
  | replay op => exact absurd rfl (hreplay op)
  | locked pid => exact absurd rfl (hlocked pid)
  | _ =>
      refine ⟨_, _, rfl, (hgo _).1, (hgo _).2.trans ?_⟩
      cases read <;> simp [OperationRead.Outstanding]

/-- The codes a request may come to before its record is read. -/
theorem report_code {result : Except Error (String × Nat)} (read : OperationRead)
    (hcode : ∀ a, result = .ok a → a.2 ≤ 3) : (report result read).2.2.1 ≤ 3 := by
  cases result with
  | ok a => exact hcode a rfl
  | error err =>
      obtain ⟨op, rfl⟩ | ⟨pid, rfl⟩ | ⟨hreplay, hlocked⟩ := error_cases err
      · exact exitCode_le (.observed op)
      · simp [report]
      · obtain ⟨word, code, hreport, hcases, -⟩ := report_error read hreplay hlocked
        rw [hreport]
        show code ≤ 3
        omega

@[simp] theorem respond_operation (request : Request) (result : Except Error (String × Nat))
    (read : OperationRead) : (respond request result read).operation = (report result read).1 := by
  unfold respond
  dsimp only
  split <;> rfl

/-- A response is well formed if the operation it shows is. -/
theorem respond_wellFormed_of_valid (request : Request) {result : Except Error (String × Nat)}
    {read : OperationRead} (hcode : ∀ a, result = .ok a → a.2 ≤ 3)
    (hshown : ∀ op, (report result read).1 = .observed op → op.validate = .ok ()) :
    (respond request result read).WellFormed := by
  have hle := report_code read hcode
  have haction : request.action ∈ ["upgrade", "recover", "status"] := by
    cases request <;> simp [Request.action]
  unfold respond
  generalize report result read = reported at hshown hle ⊢
  obtain ⟨operation, word, code, error⟩ := reported
  have hle : code ≤ 3 := hle
  dsimp only
  split
  · exact ⟨rfl, haction, Nat.le_of_lt (Nat.succ_lt_succ (Nat.succ_pos 1)), hshown⟩
  · refine ⟨rfl, haction, ?_, hshown⟩
    have hfirst : (if (!request.isStatus) = true ∧ code = 0 then operation.exitCode else code) ≤ 3 := by
      split
      · exact exitCode_le operation
      · exact hle
    generalize (if (!request.isStatus) = true ∧ code = 0 then operation.exitCode else code) = code'
      at hfirst
    cases operation with
    | genesis => exact hfirst
    | observed op => exact hfirst
    | unreadable reason =>
        show (if code' ≠ 2 then (if request.isStatus then 1 else 3) else code') ≤ 3
        split
        · split <;> omega
        · exact hfirst

/-- **Every response is well formed**, so the supervisor's parser takes it. -/
theorem respond_wellFormed (request : Request) {result : Except Error (String × Nat)}
    {read : OperationRead} (hcode : ∀ a, result = .ok a → a.2 ≤ 3)
    (hreplay : ∀ op, result = .error (.replay op) → op.validate = .ok ())
    (hread : ∀ op, read = .observed op → op.validate = .ok ()) :
    (respond request result read).WellFormed := by
  refine respond_wellFormed_of_valid request hcode fun op hop => ?_
  cases result with
  | ok a => exact hread op hop
  | error err =>
      obtain ⟨op', rfl⟩ | ⟨pid, rfl⟩ | ⟨hno, hlocked⟩ := error_cases err
      · cases hop
        exact hreplay op rfl
      · exact hread op hop
      · obtain ⟨word, code, hreport, -⟩ := report_error read hno hlocked
        rw [hreport] at hop
        exact hread op hop

/-! ### the responses to an upgrade -/

/-- An upgrade that came to an outcome, with its record. -/
theorem respond_answered {e : Expected} {op : Operation} {outcome : UpgradeOutcome}
    {request : Request} (hupgrade : request.isUpgrade = true) (hexpected : request.expected = some e)
    (hop : op.IsFor e) (ho : op.outcome = some (concludedAs outcome)) :
    respond request (.ok (answerOf outcome)) (.observed op) =
      { protocolVersion := 1
        action := request.action
        exitCode := (concludedAs outcome).exitCode
        result := (answerOf outcome).1
        operation := .observed op
        error := none } := by
  have hstatus : request.isStatus = false := by
    cases request with
    | status version => cases hupgrade
    | _ => rfl
  have hreceipt : (request.expected.any fun e => isReceiptOf (.observed op) e) = true := by
    rw [hexpected]
    simp [isReceiptOf, hop.id, hop.targetVersion]
  have hread : (OperationRead.observed op).exitCode = (concludedAs outcome).exitCode := by
    simp [OperationRead.exitCode, ho]
  cases outcome with
  | _ => simp [respond, report, answerOf, hreceipt, hupgrade, hstatus, hread, concludedAs, Outcome.exitCode]

/-- An upgrade held elsewhere shows whatever record is current. -/
theorem respond_held {request : Request} (read : OperationRead) :
    respond request (.ok ("held", 2)) read =
      { protocolVersion := 1
        action := request.action
        exitCode := 2
        result := "held"
        operation := read
        error := none } := by
  cases read with
  | _ => simp [respond, report]

/-- An error is shown, unless it is a replay. -/
theorem respond_error {request : Request} {err : Error} (read : OperationRead)
    (h : err.NotReplay) : (respond request (.error err) read).error ≠ none := by
  have hsome : ∃ message, (report (.error err) read).2.2.2 = some message := by
    obtain ⟨op, rfl⟩ | ⟨pid, rfl⟩ | ⟨-, hlocked⟩ := error_cases err
    · exact absurd rfl (h op)
    · exact ⟨_, rfl⟩
    · obtain ⟨word, code, hreport, -⟩ := report_error read h hlocked
      exact ⟨_, by rw [hreport]⟩
  obtain ⟨message, hmessage⟩ := hsome
  unfold respond
  dsimp only
  split
  · simp
  · simp [hmessage]

end Runner

/-! ## the supervisor -/

namespace Supervisor

/-- The first worker is run in time, and `response` and its exit code come back intact. -/
structure Delivers (l : Launch) (response : Response) : Prop where
  writing : l.writing = none
  inTime : l.inTime 0 = true
  spawns : (l.workers 0).spawns = true
  output : ∃ bytes, (l.workers 0).output = some bytes ∧ bytes.length ≤ 65536 ∧
    l.decode bytes = .ok response
  status : (l.workers 0).status = some (some (response.exitCode : Int))

/-- A response that shows the record of the request, with its own code. -/
def ShowsOwn (response : Response) (e : Expected) : Prop :=
  ∃ op outcome, response.operation = .observed op ∧ op.id = e.id ∧
    op.targetVersion = e.targetVersion ∧ op.outcome = some outcome ∧
    outcome.exitCode = response.exitCode

theorem settled_iff_own {response : Response} {request : Request} {e : Expected}
    (hexpected : request.expected = some e) (hbusy : response.result ≠ "busy")
    (herror : response.error = none) : settled response request = true ↔ ShowsOwn response e := by
  have hnot : busy response request = false := by
    simp [busy, hbusy]
  unfold settled ShowsOwn
  rw [if_neg (by simp [hnot]), if_neg (by simp [herror]), hexpected]
  cases response.operation with
  | genesis => simp
  | unreadable reason => simp
  | observed op =>
      cases ho : op.outcome with
      | none => simp [ho]
      | some outcome => simp [ho, and_assoc]

/-- The launch ends with the first worker: its directory is removed, and the result is
the response with its exit code. -/
structure StopsWith (l : Launch) (request : Request) (response : Response)
    (r : Res Error LaunchResult × Site) : Prop where
  delivered : r.2.delivered = [⟨request, l.workers 0⟩]
  result : l.removing = none → r.1 = .ok ⟨response.exitCode, some response, none, none, 1⟩
  refused : ∀ e, l.removing = some e → r.1 = .err e

/-- A worker that answered the request and exited with the code of its answer. -/
theorem run_answered {decode : Bytes → Except String Response} {request : Request}
    {response : Response} {b : Behaviour} {bytes : Bytes} (hspawns : b.spawns = true)
    (houtput : b.output = some bytes) (hlen : bytes.length ≤ 65536)
    (hparse : Response.parse decode bytes = .ok response)
    (hstatus : b.status = some (some (response.exitCode : Int)))
    (haction : response.action = request.action) (hle : response.exitCode ≤ 3) :
    run decode request b = ⟨response.exitCode, some response, true⟩ := by
  have hcode : exitCodeOf (some (response.exitCode : Int)) = response.exitCode := by
    unfold exitCodeOf
    dsimp only
    rw [if_pos (by omega)]
    rfl
  have hexchange : exchange decode request b = some ⟨response.exitCode, some response, true⟩ := by
    refine exchange_eq_some_iff.mpr ⟨bytes, _, houtput, hstatus, hlen, ?_⟩
    rw [hparse, hcode]
    simp [Except.toOption, Option.filter, haction]
  unfold run
  rw [if_pos hspawns, hexchange]

theorem exchange_delivered {l : Launch} {request : Request} {response : Response}
    (h : Delivers l response) (hgood : response.WellFormed)
    (haction : response.action = request.action) :
    run l.decode request (l.workers 0) = ⟨response.exitCode, some response, true⟩ := by
  obtain ⟨bytes, houtput, hlen, hdecode⟩ := h.output
  exact run_answered h.spawns houtput hlen (Response.parse_of_wellFormed hgood hlen hdecode)
    h.status haction hgood.exitCode

theorem superviseBytes_stops {l : Launch} {request : Request} {response : Response}
    {options : LaunchOptions} (bytes : Bytes) (hrequest : request.validate = .ok ())
    (hoptions : options.validate = .ok ()) (h : Delivers l response) (hgood : response.WellFormed)
    (haction : response.action = request.action) (hsettled : settled response request = true) :
    StopsWith l request response (superviseBytes l bytes request options ⟨none, []⟩) := by
  have hrun := exchange_delivered h hgood haction
  have hchecks : superviseBytes l bytes request options ⟨none, []⟩ =
      attempts l request (options.recoveryAttempts + 1) 0 none
        ⟨some ⟨bytes, ⟨l.file, l.sha256 bytes, bytes.length, recoverRequest request⟩⟩, []⟩ := by
    unfold superviseBytes
    rw [hrequest, hoptions, h.writing]
    rfl
  have hfirst : ∀ s : Site, attempts l request (options.recoveryAttempts + 1) 0 none s =
      (failing l.removing >>= fun _ => Prog.modify (fun s : Site => { s with retained := none }) >>=
        fun _ => pure ⟨response.exitCode, some response, none, none, 1⟩ : Prog Error Site LaunchResult)
        { s with delivered := s.delivered ++ [⟨request, l.workers 0⟩] } := by
    intro s
    unfold attempts
    rw [if_pos h.inTime]
    simp only [requestAt, if_true, hrun, Option.any_some, hsettled, Bool.or_true, Bool.and_true,
      Option.isNone_some, Bool.false_and, Bool.false_eq_true, if_false]
    rfl
  rw [hchecks, hfirst]
  cases hremoving : l.removing with
  | none => exact ⟨rfl, fun _ => rfl, fun e he => by simp [hremoving] at he⟩
  | some e =>
      refine ⟨rfl, fun hnone => by simp [hremoving] at hnone, fun e' he => ?_⟩
      rw [hremoving, Option.some.injEq] at he
      rw [← he]
      rfl

end Supervisor

namespace Runner

open Supervisor

variable {η γ : Type} {r : Runner η γ} {w w' : World η γ}

/-- A request that is answered was valid, and the answer is about the record it left. -/
theorem execute_ok {request : Request} {response : Response}
    (h : r.execute request w = (.ok response, w')) : request.validate = .ok () ∧
      ∃ result, Prog.attempt (r.perform request) w = (.ok result, w') ∧
        response = respond request result w'.disk.readOperation := by
  unfold execute at h
  cases hv : request.validate with
  | error e =>
      rw [hv] at h
      cases h
  | ok u =>
      rw [hv] at h
      refine ⟨rfl, ?_⟩
      obtain ⟨_, _, hok, h⟩ := Prog.bind_eq_ok h
      cases hok
      obtain ⟨result, w'', hattempt, h⟩ := Prog.bind_eq_ok h
      obtain ⟨_, _, hget, h⟩ := Prog.bind_eq_ok h
      cases hget
      cases h
      exact ⟨result, hattempt, rfl⟩

/-- The record of a request shows that it was held before. -/
def HeldBefore (d : Disk) (e : Expected) : Prop :=
  ∃ op, d.readOperation = .observed op ∧ op.id = e.id ∧ op.targetVersion = e.targetVersion ∧
    op.outcome = some .held

/-- What an upgrade is answered with when it shows no error. -/
theorem execute_upgrade (hr : r.Surroundings Error.NotReplay) {version : Nat}
    {id targetVersion : String} {consented : Bool} {response : Response}
    (h : r.execute (.upgrade version id targetVersion consented) w = (.ok response, w'))
    (herror : response.error = none) :
    response.WellFormed ∧ response.action = "upgrade" ∧
      (settled response (.upgrade version id targetVersion consented) = true ↔
        r.hooks.managedElsewhere w.product = false ∨ HeldBefore w.disk ⟨id, targetVersion⟩) := by
  let request : Request := .upgrade version id targetVersion consented
  obtain ⟨hvalid, result, hattempt, rfl⟩ := execute_ok h
  have hresult : UpgradeResult r Error.NotReplay ⟨id, targetVersion⟩ w w' result :=
    (perform_upgrade hr version id targetVersion consented w).run_ok rfl hattempt
  have hread : ∀ op, w'.disk.readOperation = .observed op → op.validate = .ok () := fun op hop =>
    (Disk.readOperation_observed_iff.mp hop).2
  cases hresult with
  | managed hself hdisk =>
      rw [hdisk] at hread ⊢
      refine ⟨respond_wellFormed request (fun a ha => by cases ha; decide) (fun op hop => by cases hop)
        hread, respond_action _ _ _, ?_⟩
      rw [respond_held, settled_iff_own (e := ⟨id, targetVersion⟩) rfl (by simp) rfl]
      simp only [hself, Bool.true_eq_false, false_or]
      constructor
      · rintro ⟨op, outcome, hop, hid, ht, ho, hcode⟩
        have hheld : outcome = .held := by
          cases outcome <;> simp [Outcome.exitCode] at hcode ⊢
        exact ⟨op, hop, hid, ht, by rw [ho, hheld]⟩
      · rintro ⟨op, hop, hid, ht, ho⟩
        exact ⟨op, .held, hop, hid, ht, ho, rfl⟩
  | answered outcome hended hself =>
      obtain ⟨op, hfile, hfor, ho⟩ := hended
      have hop : w'.disk.readOperation = .observed op :=
        Disk.readOperation_observed_iff.mpr ⟨hfile, hfor.valid⟩
      refine ⟨respond_wellFormed request (fun a ha => ?_) (fun op hop => by cases hop) hread,
        respond_action _ _ _, ?_⟩
      · cases ha
        cases outcome <;> simp [answerOf]
      · rw [hop, respond_answered (e := ⟨id, targetVersion⟩) rfl rfl hfor ho,
          settled_iff_own (e := ⟨id, targetVersion⟩) rfl (by cases outcome <;> simp [answerOf]) rfl]
        simp only [hself, true_or, iff_true]
        exact ⟨op, concludedAs outcome, rfl, hfor.id, hfor.targetVersion, ho, rfl⟩
  | replayed op hfor ho hself =>
      have hexpected : request.expected = some ⟨op.id, op.targetVersion⟩ := by
        simp [request, Request.expected, hfor.id, hfor.targetVersion]
      refine ⟨respond_wellFormed request (fun a ha => by cases ha) (fun op' hop' => ?_) hread,
        respond_action _ _ _, ?_⟩
      · cases hop'
        exact hfor.valid
      · obtain ⟨outcome, houtcome⟩ := Option.ne_none_iff_exists'.mp ho
        rw [respond_replay hexpected, settled_iff_own (e := ⟨id, targetVersion⟩) rfl (by simp [replayed]) rfl]
        simp only [hself, true_or, iff_true]
        exact ⟨op, outcome, rfl, hfor.id, hfor.targetVersion, houtcome,
          by simp [replayed, OperationRead.exitCode, houtcome]⟩
  | refused err hno => exact absurd herror (respond_error _ hno)

/-- **Runner and supervisor agree on what is settled**, except where an upgrade was held as
managed elsewhere.  On an answer without error that comes back intact, whatever its code, the
supervisor stops and reports that code, if and only if the runner went on to take the lock,
or its directory shows the request's own record, held before. -/
theorem settlement_agrees (r : Runner η γ) (hr : r.Surroundings Error.NotReplay)
    (w w' : World η γ) (version : Nat) (id targetVersion : String) (consented : Bool)
    (response : Response)
    (h : r.execute (.upgrade version id targetVersion consented) w = (.ok response, w'))
    (herror : response.error = none) :
    (settled response (.upgrade version id targetVersion consented) = true ∧
      ∀ (l : Launch) (bytes : Bytes) (options : LaunchOptions), options.validate = .ok () →
        Delivers l response →
        StopsWith l (.upgrade version id targetVersion consented) response
          (superviseBytes l bytes (.upgrade version id targetVersion consented) options ⟨none, []⟩)) ↔
      (r.hooks.managedElsewhere w.product = false ∨ HeldBefore w.disk ⟨id, targetVersion⟩) := by
  obtain ⟨hgood, haction, hiff⟩ := execute_upgrade hr h herror
  rw [← hiff]
  constructor
  · exact fun hs => hs.1
  · intro hs
    exact ⟨hs, fun l bytes options hoptions hl =>
      superviseBytes_stops bytes (execute_ok h).1 hoptions hl hgood haction hs⟩

/-! ## what a response may hide -/

/-- The answer to a request whose outcome is not known yet. -/
theorem respond_unresolved {request : Request} (hstatus : request.isStatus = false)
    {result : Except Error (String × Nat)} {read : OperationRead} {word : String}
    {error : Option String} (hreport : report result read = (read, word, 3, error)) :
    (respond request result read).exitCode = 3 := by
  unfold respond
  rw [hreport]
  cases read with
  | _ => simp [hstatus]

/-- An upgrade answers exit 0 only with its own record, promoted or up to date. -/
theorem respond_upgrade_zero {request : Request} (hupgrade : request.isUpgrade = true)
    {result : Except Error (String × Nat)} {read : OperationRead}
    (hzero : (respond request result read).exitCode = 0) :
    ∃ e op, request.expected = some e ∧ (respond request result read).operation = .observed op ∧
      op.id = e.id ∧ op.targetVersion = e.targetVersion ∧
      (op.outcome = some .promoted ∨ op.outcome = some .upToDate) := by
  have hstatus : request.isStatus = false := by
    cases request with
    | status version => cases hupgrade
    | _ => rfl
  unfold respond at hzero ⊢
  generalize report result read = reported at hzero ⊢
  obtain ⟨operation, word, code, error⟩ := reported
  dsimp only at hzero ⊢
  split at hzero
  · cases hzero
  · next hmatch =>
      by_cases hcode : code = 0
      · -- the record is the request's, and its outcome gives the code
        have hany : (request.expected.any fun e => isReceiptOf operation e) = true := by
          simpa [hupgrade, hcode] using hmatch
        obtain ⟨e, he, hreceipt⟩ := (Option.any_eq_true _ _).mp hany
        cases operation with
        | genesis => simp [isReceiptOf] at hreceipt
        | unreadable reason => simp [isReceiptOf] at hreceipt
        | observed op =>
            simp only [isReceiptOf, Bool.and_eq_true, beq_iff_eq] at hreceipt
            have hexit : (OperationRead.observed op).exitCode = 0 := by
              simpa [hstatus, hcode] using hzero
            have houtcome : op.outcome = some .promoted ∨ op.outcome = some .upToDate := by
              cases ho : op.outcome with
              | none => simp [OperationRead.exitCode, ho] at hexit
              | some outcome => cases outcome <;> simp [OperationRead.exitCode, ho, Outcome.exitCode] at hexit ⊢
            rw [if_neg hmatch]
            exact ⟨e, op, he, rfl, hreceipt.1, hreceipt.2, houtcome⟩
      · exfalso
        cases operation with
        | genesis => simp [hcode] at hzero
        | observed op => simp [hcode] at hzero
        | unreadable reason =>
            by_cases htwo : code = 2
            · simp [htwo] at hzero
            · simp [hcode, htwo, hstatus] at hzero

/-- A recovery that came back is not over while the record is outstanding. -/
theorem respond_recovered (version : Nat) (expected : Option Expected) (read : OperationRead) :
    (respond (.recover version expected) (.ok ("recovered", 0)) read).result = "recovered" ∧
      (read.Outstanding →
        (respond (.recover version expected) (.ok ("recovered", 0)) read).exitCode = 3) := by
  cases read with
  | genesis => simp [respond, report, Request.isUpgrade, OperationRead.Outstanding]
  | unreadable reason => simp [respond, report, Request.isUpgrade, Request.isStatus, OperationRead.exitCode]
  | observed op =>
      refine ⟨by simp [respond, report, Request.isUpgrade], fun ho => ?_⟩
      have ho : op.outcome = none := ho
      simp [respond, report, Request.isUpgrade, Request.isStatus, OperationRead.exitCode, ho]

/-- A recovery replays whatever receipt it was refused with. -/
theorem respond_recover_replay (version : Nat) (expected : Option Expected) (op : Operation)
    (read : OperationRead) : respond (.recover version expected) (.error (.replay op)) read =
      replayed (.recover version expected) op := by
  by_cases hcode : (OperationRead.observed op).exitCode = 0
  · simp [respond, replayed, report, Request.isUpgrade, hcode]
  · simp [respond, replayed, report, Request.isUpgrade, hcode]

/-- An error that is no replay: busy, or unresolved where the record is outstanding or the
error uncertain. -/
theorem respond_refused {request : Request} (hstatus : request.isStatus = false) {err : Error}
    (read : OperationRead) (hno : err.NotReplay) :
    (respond request (.error err) read).result ≠ "replayed" ∧
      ((respond request (.error err) read).result ≠ "busy" →
        read.Outstanding ∨ err.isUncertain = true →
        (respond request (.error err) read).exitCode = 3) := by
  obtain ⟨op, rfl⟩ | ⟨pid, rfl⟩ | ⟨-, hlocked⟩ := error_cases err
  · exact absurd rfl (hno op)
  · have hbusy : (respond request (.error (.locked pid)) read).result = "busy" := by
      simp [respond, report]
    rw [hbusy]
    exact ⟨by simp, fun h => absurd rfl h⟩
  · obtain ⟨word, code, hreport, hword, hiff⟩ := report_error read hno hlocked
    have hcode : code ≠ 0 := by omega
    have hresult := (respond_refusal request hcode hreport).2.1
    refine ⟨?_, fun _ hunresolved => ?_⟩
    · rw [hresult]
      rcases hword with ⟨rfl, -⟩ | ⟨rfl, -⟩ <;> simp
    · rw [hiff.mpr hunresolved] at hreport
      exact respond_unresolved hstatus hreport

/-- An answer hides nothing: it is busy, a replay or a hold elsewhere, or it is unresolved
where the record is outstanding or the request came to an uncertain error. -/
def Candid (r : Runner η γ) (w w' : World η γ) (result : Except Error (String × Nat))
    (response : Response) : Prop :=
  response.result = "replayed" ∧ response.exitCode = response.operation.exitCode ∨
  response.result ≠ "replayed" ∧ (response.result ≠ "busy" →
    ¬(response.result = "held" ∧ r.hooks.managedElsewhere w.product = true) →
    (w'.disk.readOperation.Outstanding ∨ ∃ message, result = .error (.uncertain message)) →
    response.exitCode = 3)

theorem candid_refused {request : Request} (hstatus : request.isStatus = false) {err : Error}
    (hno : err.NotReplay) :
    r.Candid w w' (.error err) (respond request (.error err) w'.disk.readOperation) := by
  obtain ⟨hresult, hcode⟩ := respond_refused hstatus w'.disk.readOperation hno
  refine .inr ⟨hresult, fun hbusy _ hunresolved => hcode hbusy (hunresolved.imp id ?_)⟩
  rintro ⟨message, hm⟩
  cases hm
  rfl

/-- An upgrade hides nothing unresolved. -/
theorem upgrade_candid (hr : r.Surroundings Error.NotReplay) {version : Nat}
    {id targetVersion : String} {consented : Bool} {result : Except Error (String × Nat)}
    (hattempt : Prog.attempt (r.perform (.upgrade version id targetVersion consented)) w =
      (.ok result, w')) :
    r.Candid w w' result (respond (.upgrade version id targetVersion consented) result
      w'.disk.readOperation) := by
  have hresult : UpgradeResult r Error.NotReplay ⟨id, targetVersion⟩ w w' result :=
    (perform_upgrade hr version id targetVersion consented w).run_ok rfl hattempt
  cases hresult with
  | managed hself hdisk =>
      rw [respond_held]
      exact .inr ⟨by simp, fun _ hnot => absurd ⟨rfl, hself⟩ hnot⟩
  | answered outcome hended hself =>
      obtain ⟨op, hfile, hfor, ho⟩ := hended
      have hop : w'.disk.readOperation = .observed op :=
        Disk.readOperation_observed_iff.mpr ⟨hfile, hfor.valid⟩
      rw [hop, respond_answered (e := ⟨id, targetVersion⟩) rfl rfl hfor ho]
      refine .inr ⟨by cases outcome <;> simp [answerOf], fun _ _ hunresolved => ?_⟩
      rcases hunresolved with hout | ⟨message, hm⟩
      · rw [hop] at hout
        have hnone : op.outcome = none := hout
        rw [hnone] at ho
        cases ho
      · cases hm
  | replayed op hfor ho hself =>
      rw [respond_replay (by simp [Request.expected, hfor.id, hfor.targetVersion])]
      exact .inl ⟨rfl, rfl⟩
  | refused err hno => exact candid_refused rfl hno

theorem recover_candid {version : Nat} {expected : Option Expected}
    {result : Except Error (String × Nat)}
    (hattempt : Prog.attempt (r.perform (.recover version expected)) w = (.ok result, w')) :
    r.Candid w w' result (respond (.recover version expected) result w'.disk.readOperation) := by
  cases result with
  | ok a =>
      have hword : Triple (· = w) (Prog.attempt (r.perform (.recover version expected)))
          (fun result _ => ∀ a, result = .ok a → a = ("recovered", 0)) (fun _ _ => True) := by
        refine Triple.attempt ?_
        refine Triple.bind (R := fun _ _ => True) ?_ fun _ => Triple.pure fun _ _ a ha => ?_
        · refine (Raises.any : Raises (fun _ => True) (r.recover expected)).conseq
            (fun _ _ => trivial) (fun _ _ _ => trivial) fun err _ _ => ?_
          cases err with
          | none => trivial
          | some err => exact fun a ha => by cases ha
        · cases ha
          rfl
      have ha := hword.run_ok rfl hattempt a rfl
      obtain ⟨hresult, hcode⟩ := respond_recovered version expected w'.disk.readOperation
      rw [ha]
      refine .inr ⟨by rw [hresult]; simp, fun _ _ hunresolved => hcode ?_⟩
      rcases hunresolved with hout | ⟨message, hm⟩
      · exact hout
      · cases hm
  | error err =>
      obtain ⟨op, rfl⟩ | ⟨pid, rfl⟩ | ⟨hno, -⟩ := error_cases err
      · rw [respond_recover_replay]
        exact .inl ⟨rfl, rfl⟩
      · exact candid_refused rfl fun _ h => by cases h
      · exact candid_refused rfl hno

/-- **Unresolved work is not hidden.**  After an upgrade or a recovery that is not refused as
busy, replays no receipt and is not held elsewhere, an outstanding record or an uncertain
error is answered with exit 3; a replay carries the code of its receipt; and an upgrade
is answered with exit 0 only with its own record, promoted or up to date. -/
theorem unresolved_shown (r : Runner η γ) (hr : r.Surroundings Error.NotReplay) (w w' : World η γ)
    (request : Request) (hstatus : request.isStatus = false) (response : Response)
    (h : r.execute request w = (.ok response, w')) :
    (response.result ≠ "busy" → response.result ≠ "replayed" →
      ¬(response.result = "held" ∧ r.hooks.managedElsewhere w.product = true) →
      (w'.disk.readOperation.Outstanding ∨
        ∃ message, r.perform request w = (.err (.uncertain message), w')) →
      response.exitCode = 3) ∧
    (response.result = "replayed" → response.exitCode = response.operation.exitCode) ∧
    (request.isUpgrade = true → response.exitCode = 0 →
      ∃ e op, request.expected = some e ∧ response.operation = .observed op ∧ op.id = e.id ∧
        op.targetVersion = e.targetVersion ∧
        (op.outcome = some .promoted ∨ op.outcome = some .upToDate)) := by
  obtain ⟨-, result, hattempt, rfl⟩ := execute_ok h
  have hcandid : r.Candid w w' result (respond request result w'.disk.readOperation) := by
    cases request with
    | status version => cases hstatus
    | recover version expected => exact recover_candid hattempt
    | upgrade version id targetVersion consented => exact upgrade_candid hr hattempt
  have huncertain : ∀ message, r.perform request w = (.err (.uncertain message), w') →
      result = .error (.uncertain message) := by
    intro message hm
    rw [Prog.attempt_run_err hm] at hattempt
    cases hattempt
    rfl
  refine ⟨fun hbusy hreplayed hheld hunresolved => ?_, fun hreplayed => ?_,
    fun hupgrade hzero => respond_upgrade_zero hupgrade hzero⟩
  · rcases hcandid with ⟨hres, -⟩ | ⟨-, hcode⟩
    · exact absurd hres hreplayed
    · exact hcode hbusy hheld (hunresolved.imp id fun ⟨message, hm⟩ => ⟨message, huncertain message hm⟩)
  · rcases hcandid with ⟨-, hcode⟩ | ⟨hres, -⟩
    · exact hcode
    · exact absurd hreplayed hres

end Runner

namespace Service

open Supervisor

/-! ## the product -/

theorem plain_notReplay : Plain Error.NotReplay :=
  ⟨fun _ _ h => (by cases h), fun _ _ _ h => (by cases h), fun _ _ h => (by cases h)⟩

theorem host_raises {p : Error → Prop} (hp : Plain p) (d : Disk) : (host d).Raises p where
  fence := Raises.pure _
  quiesce := fun _ _ => trivial
  stop _ := fun _ _ => trivial
  start slot := by
    intro s _
    show Ends _ _ (start d slot s)
    unfold start
    cases s.running with
    | some e => exact trivial
    | none =>
        cases hv : d.version slot.place with
        | error e => exact kind_some.mpr (version_error hp hv)
        | ok version =>
            cases version with
            | none => exact kind_some.mpr (hp.invalid _)
            | some version => exact trivial
  probe := by
    intro s _
    show Ends _ _ (probe s)
    unfold probe
    cases s.running with
    | some e => exact trivial
    | none => exact kind_some.mpr (hp.invalid _)
  resume := fun _ _ => trivial

/-- Nothing around the product's worker raises the runner's own error. -/
theorem surroundings (self : Nat) (download : Release → Prog Error Unit Bytes)
    (hooks : Hooks Unit) (hdownload : ∀ release, Raises Error.NotReplay (download release))
    (hcompatibility : ∀ current version, Raises Error.NotReplay (hooks.compatibility current version))
    (hprepare : ∀ path release, Raises Error.NotReplay (hooks.prepareCandidate path release))
    (hnotify : ∀ kind detail, Raises Error.NotReplay (hooks.notify kind detail)) :
    { runner self Faults.clean with downloader := download, hooks := hooks }.Surroundings
      Error.NotReplay where
  faults _ _ _ h := by cases h
  invalid := plain_notReplay.invalid
  locked _ _ h := by cases h
  check _ := Raises.pure _
  fetch _ _ := Raises.pure _
  compatibility := hcompatibility
  prepareCandidate := hprepare
  notify := hnotify
  downloader := hdownload
  plain := plain_notReplay
  uncertain _ _ h := by cases h
  host := host_raises plain_notReplay

/-- A worker of the product whose install is managed elsewhere. -/
def managedRunner : Runner Service Unit :=
  { runner 7 Faults.clean with hooks := { Hooks.default with managedElsewhere := fun _ => true } }

/-- What it answers to an upgrade of a new directory. -/
def heldElsewhere : Response where
  protocolVersion := 1
  action := "upgrade"
  exitCode := 2
  result := "held"
  operation := .genesis
  error := none

/-- A launch that delivers `response` as its first worker's answer. -/
def delivering (response : Response) : Launch where
  decode _ := .ok response
  sha256 _ := ""
  dir := "scratch/k-runner"
  writing := none
  removing := none
  inTime _ := true
  workers _ := ⟨true, some [123, 125], some (some response.exitCode), true⟩

/-- The upgrade was held, as the runner says; the supervisor recovers what was never
recorded and ends unresolved. -/
theorem settlement_disagrees :
    (managedRunner.execute (.upgrade 1 "a" "2" true) (installed "1")).1 = .ok heldElsewhere ∧
      heldElsewhere.error = none ∧ heldElsewhere.exitCode = 2 ∧
      Delivers (delivering heldElsewhere) heldElsewhere ∧
      settled heldElsewhere (.upgrade 1 "a" "2" true) = false ∧
      ∃ result, (superviseBytes (delivering heldElsewhere) [77, 90] (.upgrade 1 "a" "2" true)
          ⟨600000, 120000, 840000, 2⟩ ⟨none, []⟩).1 = .ok result ∧
        result.attempts = 3 ∧ result.exitCode = 3 := by
  have hrun : (managedRunner.execute (.upgrade 1 "a" "2" true) (installed "1")).1 =
      .ok heldElsewhere := by decide +kernel
  have hlaunch : ∃ result, (superviseBytes (delivering heldElsewhere) [77, 90] (.upgrade 1 "a" "2" true)
      ⟨600000, 120000, 840000, 2⟩ ⟨none, []⟩).1 = .ok result ∧
      result.attempts = 3 ∧ result.exitCode = 3 := by
    refine ⟨unresolved (delivering heldElsewhere) 3 none, ?_, rfl, rfl⟩
    decide +kernel
  exact ⟨hrun, rfl, rfl, ⟨rfl, rfl, rfl, ⟨[123, 125], rfl, by decide, rfl⟩, rfl⟩,
    by decide +kernel, hlaunch⟩

/-- The first upgrade of a new directory. -/
theorem settlement_agrees_promoted :
    ∃ response w', (runner 7 Faults.clean).execute (.upgrade 1 "a" "2" true) (installed "1") =
        (.ok response, w') ∧ response.exitCode = 0 ∧
      settled response (.upgrade 1 "a" "2" true) = true := by
  have hanswer : ((runner 7 Faults.clean).execute (.upgrade 1 "a" "2" true)
      (installed "1")).1.returns (fun response => response.error == none && response.exitCode == 0) =
      true := by decide +kernel
  have hr : (runner 7 Faults.clean).Surroundings Error.NotReplay :=
    surroundings 7 _ _ (fun _ => Raises.pure _) (fun _ _ => Raises.pure _)
      (fun _ _ => Raises.pure _) (fun _ _ => Raises.pure _)
  generalize hrun : (runner 7 Faults.clean).execute (.upgrade 1 "a" "2" true) (installed "1") = o
    at hanswer ⊢
  obtain ⟨res, w'⟩ := o
  obtain ⟨response, rfl, hpasses⟩ := Res.returns_iff.mp hanswer
  simp only [Bool.and_eq_true, beq_iff_eq] at hpasses
  exact ⟨response, w', rfl, hpasses.2, ((Runner.settlement_agrees _ hr _ _ _ _ _ _ _ hrun
    hpasses.1).mpr (.inl rfl)).1⟩

/-- An operation that was opened and never settled. -/
def openOperation (id fromVersion targetVersion : String) : Operation :=
  { settledOperation id fromVersion targetVersion .checking .held with outcome := none }

/-- The receipt of `a` is replayed with exit 0 while `b` is outstanding. -/
theorem unresolved_hidden :
    let w := withReceipts (openOperation "b" "2" "3") (settledOperation "a" "1" "2" .promoted .promoted)
    let response := Runner.replayed (.upgrade 1 "a" "2" true)
      (settledOperation "a" "1" "2" .promoted .promoted)
    ((runner 7 Faults.clean).execute (.upgrade 1 "a" "2" true) w).1 = .ok response ∧
      ((runner 7 Faults.clean).execute (.upgrade 1 "a" "2" true) w).2.disk.readOperation =
        .observed (openOperation "b" "2" "3") ∧
      (openOperation "b" "2" "3").outcome = none ∧ response.result ≠ "busy" ∧
      response.exitCode = 0 := by
  intro w response
  exact ⟨by decide +kernel, by decide +kernel, rfl, by decide +kernel, by decide +kernel⟩

/-- A worker whose download fails, after the record was opened. -/
def offlineRunner : Runner Service Unit :=
  { runner 7 Faults.clean with downloader := fun _ => Prog.throw (.http "connection refused") }

theorem unresolved_shown_offline :
    ∃ response w', offlineRunner.execute (.upgrade 1 "a" "2" true) (installed "1") =
        (.ok response, w') ∧ w'.disk.readOperation.Outstanding ∧ response.exitCode = 3 := by
  have hanswer : (offlineRunner.execute (.upgrade 1 "a" "2" true) (installed "1")).1.returns
      (fun response => response.result == "recovery-required") = true := by decide +kernel
  have hread : (offlineRunner.execute (.upgrade 1 "a" "2" true)
      (installed "1")).2.disk.readOperation.shows (fun op => op.outcome == none) = true := by
    decide +kernel
  have hr : offlineRunner.Surroundings Error.NotReplay :=
    surroundings 7 _ _ (fun _ => Raises.throw fun _ h => by cases h) (fun _ _ => Raises.pure _)
      (fun _ _ => Raises.pure _) (fun _ _ => Raises.pure _)
  generalize hrun : offlineRunner.execute (.upgrade 1 "a" "2" true) (installed "1") = o
    at hanswer hread ⊢
  obtain ⟨res, w'⟩ := o
  obtain ⟨response, rfl, hresult⟩ := Res.returns_iff.mp hanswer
  have hresult : response.result = "recovery-required" := beq_iff_eq.mp hresult
  obtain ⟨op, hop, ho⟩ := OperationRead.shows_iff.mp hread
  have hout : w'.disk.readOperation.Outstanding := by
    rw [hop]
    exact beq_iff_eq.mp ho
  exact ⟨response, w', rfl, hout, (Runner.unresolved_shown _ hr _ _ _ rfl _ hrun).1
    (by simp [hresult]) (by simp [hresult]) (by simp [hresult]) (.inl hout)⟩

end Service

end KCarrier
