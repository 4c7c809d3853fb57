import KCarrier.Runner.Binding
import KCarrier.Runner.Service

/-!
# KCarrier.Runner.Replay

Asking again is free of effects.

Once a directory holds a receipt, a request for the same operation is answered with it
and a request for another target is refused, whichever entry point the request takes
and whatever else is pending: `prior` looks before anything is recovered, looked up or
written.  An archived receipt is the one that counts; a current record under the same
id does not shadow it (`execute_shadowed`).
-/

namespace KCarrier

open Crash
open Running

/-! ## receipts -/

/-- `op` is the receipt the directory has for its id: archived, or current while nothing
is archived under that id. -/
structure Disk.HoldsReceipt (digest : String → String) (d : Disk) (op : Operation) : Prop where
  terminal : op.outcome ≠ none
  readable : ∀ reason, d.readOperation ≠ .unreadable reason
  held : d.readArchive digest op.id = .observed op ∨
    d.readArchive digest op.id = .genesis ∧ d.readOperation = .observed op

/-- A request that names the operation of `op`, on its target or on another. -/
structure Request.Names (request : Request) (op : Operation) (targetVersion : String) : Prop where
  valid : request.validate = .ok ()
  expected : request.expected = some ⟨op.id, targetVersion⟩

namespace Runner

variable {η γ : Type} {r : Runner η γ}

/-- With a receipt held, the answer is the receipt's. -/
theorem priorAnswer_of_receipt {digest : String → String} {d : Disk} {op : Operation}
    (h : d.HoldsReceipt digest op) (targetVersion : String) (recover : Bool) :
    priorAnswer digest d ⟨op.id, targetVersion⟩ recover =
      recordAnswer ⟨op.id, targetVersion⟩ (missingAnswer recover) (some op) := by
  unfold priorAnswer
  rcases h.held with ha | ⟨ha, hop⟩
  · cases hop : d.readOperation with
    | unreadable reason => exact absurd hop (h.readable reason)
    | genesis => simp only [ha]
    | observed current => simp only [ha]
  · simp only [ha, hop]

/-- What a request for the receipt's operation is answered with. -/
def receiptError (op : Operation) (targetVersion : String) : Error :=
  if targetVersion = op.targetVersion then .replay op else .invalid "OPERATION_ID_CONFLICT"

theorem priorAnswer_eq_receiptError {digest : String → String} {d : Disk} {op : Operation}
    (h : d.HoldsReceipt digest op) (targetVersion : String) (recover : Bool) :
    priorAnswer digest d ⟨op.id, targetVersion⟩ recover = .error (receiptError op targetVersion) := by
  rw [priorAnswer_of_receipt h]
  unfold receiptError
  by_cases ht : targetVersion = op.targetVersion
  · rw [if_pos ht]
    exact recordAnswer_some rfl ht.symm h.terminal
  · rw [if_neg ht]
    exact recordAnswer_conflict rfl (Ne.symm ht)

theorem receiptError_certain (op : Operation) (targetVersion : String) :
    (receiptError op targetVersion).isUncertain = false := by
  unfold receiptError
  split <;> rfl

/-! ## both entry points find it first -/

theorem readRequired_run_of_receipt {op : Operation} {w : World η γ}
    (h : w.disk.HoldsReceipt r.store.digest op) :
    ∃ previous, readRequired w = (.ok previous, w) := by
  rw [readRequired_run]
  cases hop : w.disk.readOperation with
  | genesis => exact ⟨none, rfl⟩
  | observed current => exact ⟨some current, rfl⟩
  | unreadable reason => exact absurd hop (h.readable reason)

theorem prior_run_of_receipt {op : Operation} {w : World η γ}
    (h : w.disk.HoldsReceipt r.store.digest op) (targetVersion : String) (recover : Bool) :
    r.prior ⟨op.id, targetVersion⟩ recover w = (.err (receiptError op targetVersion), w) := by
  rw [prior_run, priorAnswer_eq_receiptError h]
  rfl

theorem recoverLocked_run_of_receipt {op : Operation} {w : World η γ}
    (h : w.disk.HoldsReceipt r.store.digest op) (targetVersion : String) :
    r.recoverLocked (some ⟨op.id, targetVersion⟩) w = (.err (receiptError op targetVersion), w) := by
  obtain ⟨previous, hread⟩ := readRequired_run_of_receipt h
  unfold recoverLocked
  rw [Prog.bind_run_ok hread]
  exact Prog.bind_run_err (prior_run_of_receipt h targetVersion true)

theorem driveLocked_run_of_receipt {op : Operation} {w : World η γ} {options : UpgradeOptions}
    {desc : OperationDescriptor} (h : w.disk.HoldsReceipt r.store.digest op)
    (hdesc : options.operation = some desc) (hid : desc.id = op.id) (targetVersion : String) :
    r.driveLocked (some targetVersion) options w = (.err (receiptError op targetVersion), w) := by
  obtain ⟨previous, hread⟩ := readRequired_run_of_receipt h
  have hprior := prior_run_of_receipt h targetVersion false
  unfold driveLocked
  rw [Prog.bind_run_ok hread, hdesc]
  rw [← hid] at hprior
  exact Prog.bind_run_err hprior

/-- What an upgrade or a recovery of the receipt's operation comes to. -/
theorem perform_run_of_receipt {op : Operation} {w : World η γ} {request : Request}
    {targetVersion : String} (h : w.disk.HoldsReceipt r.store.digest op)
    (hlock : r.FindsLockFree w) (hnames : request.Names op targetVersion)
    (hself : request.isUpgrade = true → r.hooks.managedElsewhere w.product = false) :
    r.perform request w = (.err (receiptError op targetVersion), released w) := by
  have hcertain := receiptError_certain op targetVersion
  have hexpected := hnames.expected
  cases request with
  | status version => cases hexpected
  | recover version expected =>
      have hexpected : expected = some ⟨op.id, targetVersion⟩ := hexpected
      rw [hexpected]
      have hrun : r.recover (some ⟨op.id, targetVersion⟩) w =
          (.err (receiptError op targetVersion), released w) :=
        locked_run_err hlock hcertain
          (recoverLocked_run_of_receipt (w := r.holding w) h targetVersion)
      exact Prog.bind_run_err hrun
  | upgrade version id target consented =>
      simp only [Request.expected, Option.some.injEq, Expected.mk.injEq] at hexpected
      obtain ⟨hid, ht⟩ := hexpected
      subst ht
      have hbody : r.driveLocked (some target) (requestOptions id consented (r.clock w.tick))
          (r.holding w) = (.err (receiptError op target), r.holding w) :=
        driveLocked_run_of_receipt (w := r.holding w) h rfl hid target
      have hrun : r.upgradeTo target (requestOptions id consented (r.clock w.tick)) w =
          (.err (receiptError op target), released w) := by
        unfold upgradeTo drive
        rw [Prog.bind_run_ok (Prog.get_run w)]
        simp only [hself rfl, Bool.false_eq_true, if_false]
        exact locked_run_err hlock hcertain hbody
      exact (Prog.bind_run_ok (Prog.get_run w)).trans (Prog.bind_run_err hrun)

/-! ## the responses -/

/-- The response that replays `op`. -/
def replayed (request : Request) (op : Operation) : Response where
  protocolVersion := 1
  action := request.action
  exitCode := (OperationRead.observed op).exitCode
  result := "replayed"
  operation := .observed op
  error := none

/-- The post-processing of the exit code does not rewrite a replayed receipt. -/
theorem respond_replay {request : Request} {op : Operation}
    (hexpected : request.expected = some ⟨op.id, op.targetVersion⟩) (read : OperationRead) :
    respond request (.error (.replay op)) read = replayed request op := by
  have hreceipt : (request.expected.any fun e => isReceiptOf (.observed op) e) = true := by
    rw [hexpected]
    simp [isReceiptOf]
  unfold respond replayed
  by_cases hcode : (OperationRead.observed op).exitCode = 0
  · simp [report, hreceipt, hcode]
  · simp [report, hreceipt, hcode]

/-- A refusal keeps its word and its error, and its exit code is not 0. -/
theorem respond_refusal (request : Request) {read : OperationRead} {word : String} {code : Nat}
    {error : Option String} {e : Error} (hcode : code ≠ 0)
    (hreport : report (.error e) read = (read, word, code, error)) :
    (respond request (.error e) read).error = error ∧
      (respond request (.error e) read).result = word ∧
      (respond request (.error e) read).exitCode ≠ 0 := by
  unfold respond
  rw [hreport]
  simp only [hcode, false_and, and_false, if_false, true_and]
  cases read with
  | genesis => exact hcode
  | observed op => exact hcode
  | unreadable reason =>
      dsimp only
      split
      · split
        · exact Nat.one_ne_zero
        · exact Nat.succ_ne_zero 2
      · exact hcode

/-- The answer to a request for another target. -/
theorem respond_conflict {request : Request} (read : OperationRead) :
    (respond request (.error (.invalid "OPERATION_ID_CONFLICT")) read).error =
        some "OPERATION_ID_CONFLICT" ∧
      (respond request (.error (.invalid "OPERATION_ID_CONFLICT")) read).result ≠ "replayed" ∧
      (respond request (.error (.invalid "OPERATION_ID_CONFLICT")) read).exitCode ≠ 0 := by
  have hreport : ∃ word code, word ≠ "replayed" ∧ code ≠ 0 ∧
      report (.error (.invalid "OPERATION_ID_CONFLICT")) read =
        (read, word, code, some "OPERATION_ID_CONFLICT") := by
    cases read with
    | genesis => exact ⟨"failed", 1, by decide, by decide, rfl⟩
    | unreadable reason => exact ⟨"recovery-required", 3, by decide, by decide, rfl⟩
    | observed op =>
        cases ho : op.outcome with
        | none => exact ⟨"recovery-required", 3, by decide, by decide, by simp [report, ho]; rfl⟩
        | some outcome =>
            exact ⟨"failed", 1, by decide, by decide, by simp [report, ho, Error.isUncertain]; rfl⟩
  obtain ⟨word, code, hword, hcode, hreport⟩ := hreport
  obtain ⟨herror, hresult, hexit⟩ := respond_refusal request hcode hreport
  exact ⟨herror, by rw [hresult]; exact hword, hexit⟩

/-- A request that is performed with an error is answered with it. -/
theorem execute_run_err {request : Request} {w w' : World η γ} {e : Error}
    (hvalid : request.validate = .ok ()) (h : r.perform request w = (.err e, w')) :
    r.execute request w = (.ok (respond request (.error e) w'.disk.readOperation), w') := by
  unfold execute
  rw [hvalid]
  exact Prog.bind_run_ok (Prog.attempt_run_err h)

/-- **Replay is free of effects.**  With a receipt held and the lock free, a valid request
for its operation and target, as an upgrade or as a recovery, is answered with exactly
that receipt and the exit code of its outcome, and one for another target with a
conflict; nothing but the lock was touched in between. -/
theorem execute_replays (r : Runner η γ) (w : World η γ) (op : Operation)
    (h : w.disk.HoldsReceipt r.store.digest op) (hlock : r.FindsLockFree w) (request : Request)
    (targetVersion : String) (hnames : request.Names op targetVersion)
    (hself : request.isUpgrade = true → r.hooks.managedElsewhere w.product = false) :
    Untouched w (r.execute request w).2 ∧
      (targetVersion = op.targetVersion → (r.execute request w).1 = .ok (replayed request op)) ∧
      (targetVersion ≠ op.targetVersion → ∃ response, (r.execute request w).1 = .ok response ∧
        response.error = some "OPERATION_ID_CONFLICT" ∧ response.result ≠ "replayed" ∧
        response.exitCode ≠ 0) := by
  have hperform := perform_run_of_receipt h hlock hnames hself
  have hexecute := execute_run_err hnames.valid hperform
  rw [hexecute]
  refine ⟨⟨rfl, rfl, rfl, rfl⟩, fun ht => ?_, fun ht => ?_⟩
  · have hreplay : receiptError op targetVersion = .replay op := if_pos ht
    rw [hreplay]
    rw [ht] at hnames
    exact congrArg Res.ok (respond_replay hnames.expected _)
  · have hconflict : receiptError op targetVersion = .invalid "OPERATION_ID_CONFLICT" := if_neg ht
    rw [hconflict]
    exact ⟨_, rfl, respond_conflict _⟩

end Runner

namespace Service

/-- A settled operation of the product. -/
def settledOperation (id fromVersion targetVersion : String) (phase : OperationPhase)
    (outcome : Outcome) : Operation where
  formatVersion := 1
  id := id
  startedAtMs := 0
  updatedAtMs := 0
  fromVersion := fromVersion
  targetVersion := targetVersion
  previousStableVersion := fromVersion
  phase := phase
  outcome := some outcome
  reason := none
  provenance := none
  metadata := []

/-- The product with `current` as its record and `archived` as the receipt of `a`. -/
def withReceipts (current archived : Operation) : World Service Unit :=
  { installed "1" with
    disk := { (installed "1").disk with
      operation := .content current
      receipts := fun name => if name = "a" then .content archived else .absent } }

theorem execute_replays_archived :
    ((runner 7 Faults.clean).execute (.upgrade 1 "a" "2" true)
        (withReceipts (settledOperation "b" "2" "3" .held .held)
          (settledOperation "a" "1" "2" .promoted .promoted))).1 =
      .ok (Runner.replayed (.upgrade 1 "a" "2" true)
        (settledOperation "a" "1" "2" .promoted .promoted)) :=
  (Runner.execute_replays (runner 7 Faults.clean) _
    (settledOperation "a" "1" "2" .promoted .promoted)
    ⟨by decide, (fun _ h => by cases h), .inl rfl⟩ ⟨⟨rfl, rfl⟩, rfl⟩
    (.upgrade 1 "a" "2" true) "2" ⟨rfl, rfl⟩ (fun _ => rfl)).2.1 rfl

/-- A terminal current record is not the receipt of its id when another one is archived
under that id. -/
theorem execute_shadowed :
    (withReceipts (settledOperation "a" "1" "3" .held .held)
        (settledOperation "a" "1" "2" .promoted .promoted)).disk.readOperation =
        .observed (settledOperation "a" "1" "3" .held .held) ∧
      (withReceipts (settledOperation "a" "1" "3" .held .held)
        (settledOperation "a" "1" "2" .promoted .promoted)).disk.readArchive
          (runner 7 Faults.clean).store.digest "a" =
        .observed (settledOperation "a" "1" "2" .promoted .promoted) ∧
      (runner 7 Faults.clean).FindsLockFree (withReceipts
        (settledOperation "a" "1" "3" .held .held)
        (settledOperation "a" "1" "2" .promoted .promoted)) ∧
      ((runner 7 Faults.clean).execute (.upgrade 1 "a" "3" true) (withReceipts
        (settledOperation "a" "1" "3" .held .held)
        (settledOperation "a" "1" "2" .promoted .promoted))).1 ≠
        .ok (Runner.replayed (.upgrade 1 "a" "3" true)
          (settledOperation "a" "1" "3" .held .held)) :=
  ⟨rfl, rfl, ⟨⟨rfl, rfl⟩, rfl⟩, by decide⟩

end Service

end KCarrier
