import KCarrier.Protocol.Reply
import KCarrier.Runner.Service
import KCarrier.Runner.Settlement
import KCarrier.Runner.Telling

/-!
# KCarrier.Runner.Reply

The responses of a runner on their way to the supervisor.

Both readers of the supervisor take 65,536 bytes, and a response carries texts nothing
bounds: the reasons of hooks, the errors of the product, the version a process reports.
A response arrives exactly when its texts are short enough (`response_agreement`).
-/

namespace KCarrier

open Crash

/-- The response arrives: its bytes are within the bounds of both readers, it is read as it
was, and the worker that wrote it and exited with its code is reported so. -/
structure Response.Carried (serde : Serde) (request : Request) (response : Response) : Prop where
  within : response.bytes.length ≤ 65536
  parsed : Response.parse serde.response response.bytes = .ok response
  reported : ∀ reaped, Supervisor.run serde.response request
      ⟨true, some response.bytes, some (some (response.exitCode : Int)), reaped⟩ =
    ⟨response.exitCode, some response, true⟩

namespace Runner

variable {η γ : Type} {r : Runner η γ} {w w' : World η γ}

/-- The word and the code a request comes to before its record is read. -/
theorem perform_answer {request : Request} {a : String × Nat}
    (h : r.perform request w = (.ok a, w')) : quoted a.1 ≤ 19 ∧ a.2 ≤ 3 := by
  cases request with
  | status version =>
      cases h
      decide
  | recover version expected =>
      obtain ⟨_, _, -, h⟩ := Prog.bind_eq_ok h
      cases h
      decide
  | upgrade version id targetVersion consented =>
      obtain ⟨_, _, -, h⟩ := Prog.bind_eq_ok h
      obtain ⟨outcome, _, -, h⟩ := Prog.bind_eq_ok h
      cases h
      have hanswers : ∀ a ∈ [("promoted", 0), ("rolled-back", 1), ("held", 2), ("up-to-date", 0)],
          quoted a.1 ≤ 19 ∧ a.2 ≤ 3 := by decide
      apply hanswers
      cases outcome <;> simp [answerOf]

/-- The response to a request is well formed if the operation it shows is valid. -/
theorem execute_wellFormed {request : Request} {response : Response}
    (h : r.execute request w = (.ok response, w'))
    (hvalid : ∀ op, response.operation = .observed op → op.validate = .ok ()) :
    response.WellFormed ∧ response.action = request.action := by
  obtain ⟨-, result, hattempt, rfl⟩ := execute_ok h
  have hcode : ∀ a, result = .ok a → a.2 ≤ 3 := by
    rintro a rfl
    exact (perform_answer (Prog.attempt_eq_ok hattempt)).2
  rw [respond_operation] at hvalid
  exact ⟨respond_wellFormed_of_valid request hcode hvalid, respond_action _ _ _⟩

/-- A response arrives as it was sent if and only if its texts, escaped, fit the bound with
the rest of it, and the operation it shows is a valid record. -/
theorem carried_iff (serde : Serde) {request : Request} {response : Response}
    (h : r.execute request w = (.ok response, w'))
    (htyped : ∀ op, response.operation = .observed op → op.Typed) :
    response.Carried serde request ↔
      response.length ≤ 65536 ∧
        ∀ op, response.operation = .observed op → op.validate = .ok () := by
  constructor
  · intro hcarried
    refine ⟨response.length_bytes ▸ hcarried.within, ?_⟩
    exact Response.valid_of_parse hcarried.parsed
  · intro ⟨hlength, hvalid⟩
    obtain ⟨hgood, haction⟩ := execute_wellFormed h hvalid
    have hwithin : response.bytes.length ≤ 65536 := by rwa [response.length_bytes]
    have hversion : response.protocolVersion < 2 ^ 32 := by
      rw [hgood.protocolVersion]
      omega
    have hcode : response.exitCode < 2 ^ 8 := by
      have := hgood.exitCode
      omega
    have hread : serde.response response.bytes = .ok response :=
      serde.response_bytes ⟨hversion, hcode, htyped⟩
    have hparsed := Response.parse_of_wellFormed hgood hwithin hread
    exact ⟨hwithin, hparsed, fun reaped =>
      Supervisor.run_answered rfl rfl hwithin hparsed rfl haction hgood.exitCode⟩

end Runner

/-! ## within the budget -/

namespace Budget

open Runner

variable {B : Budget}

/-- What a response may show of the record. -/
structure Shown (B : Budget) (read : OperationRead) : Prop where
  record : ∀ op, read = .observed op → B.Record op ∧ op.validate = .ok ()
  unreadable : ∀ reason, read = .unreadable reason → quoted reason ≤ B.record

/-- What is shown of the record takes 79 bytes beside its texts. -/
theorem Shown.length_le {read : OperationRead} (h : B.Shown read) :
    read.length ≤ B.record + B.reason + 79 := by
  cases read with
  | genesis => simp [OperationRead.length]
  | unreadable reason =>
      have hreason := h.unreadable reason rfl
      rw [OperationRead.length]
      omega
  | observed op =>
      have hop := (h.record op rfl).1
      have hlength := Operation.length_le hop.typed
      have hframe := hop.frame
      have hreason := hop.reason
      rw [OperationRead.length]
      omega

/-- What a request came to before its record is read: a word or an error. -/
structure Comes (B : Budget) (result : Except Error (String × Nat)) : Prop where
  word : ∀ a, result = .ok a → quoted a.1 ≤ 19 ∧ a.2 ≤ 3
  error : ∀ err, result = .error err → B.Tells err

/-- What is reported stays within the budget. -/
theorem report_within {result : Except Error (String × Nat)} {read : OperationRead}
    (hresult : B.Comes result) (hread : B.Shown read) : B.Shown (report result read).1 ∧
      quoted (report result read).2.1 ≤ 19 ∧
      nullableLength quoted (report result read).2.2.2 ≤ B.error := by
  have herror := B.error_le
  have hnull : (4 : Nat) ≤ B.error := by omega
  cases result with
  | ok a => exact ⟨hread, (hresult.word a rfl).1, hnull⟩
  | error err =>
      have htells := hresult.error err rfl
      obtain ⟨op, rfl⟩ | ⟨pid, rfl⟩ | ⟨hno, hlocked⟩ := error_cases err
      · have hop := htells.replayed op rfl
        refine ⟨⟨fun o heq => ?_, nofun⟩, (by decide : quoted "replayed" ≤ 19), hnull⟩
        cases heq
        exact hop
      · exact ⟨hread, (by decide : quoted "busy" ≤ 19), htells.text nofun⟩
      · obtain ⟨word, code, hreport, hword, -⟩ := report_error read hno hlocked
        rw [hreport]
        have hshort : quoted word ≤ 19 := by rcases hword with ⟨rfl, -⟩ | ⟨rfl, -⟩ <;> decide
        exact ⟨hread, hshort, htells.text hno⟩

/-- The word and the error of a response are those of the report, or say that the record is
another's. -/
theorem respond_said (request : Request) (result : Except Error (String × Nat))
    (read : OperationRead) :
    ((respond request result read).result = "failed" ∧
      (respond request result read).error = some "RUNNER_RECEIPT_MISMATCH") ∨
    ((respond request result read).result = (report result read).2.1 ∧
      (respond request result read).error = (report result read).2.2.2) := by
  unfold respond
  dsimp only
  split
  · exact .inl ⟨rfl, rfl⟩
  · exact .inr ⟨rfl, rfl⟩

/-- **A response** takes what its texts take and 184 bytes more. -/
theorem respond_length_le (request : Request) {result : Except Error (String × Nat)}
    {read : OperationRead} (hresult : B.Comes result) (hread : B.Shown read) :
    (respond request result read).length ≤ B.record + B.reason + B.error + 184 := by
  obtain ⟨hshown, hword, hsaid⟩ := report_within hresult hread
  have hlength := hshown.length_le
  have herror := B.error_le
  have hgood := respond_wellFormed_of_valid request (fun a ha => (hresult.word a ha).2)
    fun op hop => (hshown.record op hop).2
  have hversion : digits (respond request result read).protocolVersion ≤ 1 := by
    rw [hgood.protocolVersion]
    decide
  have hcode : digits (respond request result read).exitCode ≤ 1 := by
    have hle := hgood.exitCode
    exact (Nat.length_toDigits_le_iff (by omega) (by omega)).mpr (by omega)
  have haction : quoted (respond request result read).action ≤ 9 := by
    have hnames : ∀ name ∈ ["upgrade", "recover", "status"], quoted name ≤ 9 := by decide
    exact hnames _ hgood.action
  have hfailed : quoted "failed" ≤ 19 := by decide
  have hmismatch : nullableLength quoted (some "RUNNER_RECEIPT_MISMATCH") ≤ 96 := by decide
  rw [Response.length, respond_operation]
  rcases respond_said request result read with ⟨hres, herr⟩ | ⟨hres, herr⟩
  · rw [hres, herr]
    omega
  · rw [hres, herr]
    omega

namespace Terms

variable {η γ : Type} {T : B.Terms η γ} {w w' : World η γ} {response : Response}

/-- What a call comes to, and the record it leaves. -/
theorem execute_comes (h : T.Allows w)
    (hrun : T.runner.execute T.request w = (.ok response, w')) : ∃ result read,
      response = respond T.request result read ∧ B.Comes result ∧ B.Shown read := by
  obtain ⟨-, result, hattempt, rfl⟩ := execute_ok hrun
  have hword : ∀ a, result = .ok a → quoted a.1 ≤ 19 ∧ a.2 ≤ 3 := by
    rintro a rfl
    exact perform_answer (Prog.attempt_eq_ok hattempt)
  have hends : Triple (· = w) (Prog.attempt (T.runner.perform T.request))
      (fun result s => (∀ err, result = .error err → B.Tells err) ∧ T.Holds T.Found s)
      T.Cut := by
    refine Triple.attempt ((perform_triple h).conseq (fun _ hs => hs) (fun _ _ hs => ⟨nofun, hs.2⟩)
      ?_)
    rintro (_ | err) s hs
    · exact hs
    · refine ⟨fun err' heq => ?_, hs.2⟩
      cases heq
      exact kind_some.mp hs.1
  obtain ⟨herror, hholds⟩ := hends.run_ok rfl hattempt
  refine ⟨result, _, rfl, ⟨hword, herror⟩, fun op hread => ⟨hholds.files.record op hread, ?_⟩,
    fun reason hread => (hholds.files.recordUnreadable reason hread).1⟩
  exact (Disk.readOperation_observed_iff.mp hread).2

/-- **Within its budget**, a call has a response that arrives. -/
theorem execute_carried (serde : Serde) (h : T.Allows w)
    (hsum : B.record + B.reason + B.error ≤ 65352)
    (hrun : T.runner.execute T.request w = (.ok response, w')) :
    response.Carried serde T.request := by
  obtain ⟨result, read, rfl, hresult, hread⟩ := execute_comes h hrun
  obtain ⟨hshown, -, -⟩ := report_within hresult hread
  rw [← respond_operation T.request result read] at hshown
  have hlength := respond_length_le T.request hresult hread
  refine (carried_iff serde hrun fun op hop => (hshown.record op hop).1.typed).mpr ⟨?_, ?_⟩
  · omega
  · exact fun op hop => (hshown.record op hop).2

end Terms

end Budget

/-! ## a budget that is used up -/

namespace Service

/-- The service answers within any budget that has room for the versions it may run. -/
theorem answers {B : Budget} {γ : Type} {T : B.Terms Service γ} {d : Disk}
    (hd : T.Files T.Found d) (hparked : ∀ s parked, T.host s → T.host { s with parked := parked })
    (hstopped : ∀ s, T.host s → T.host { s with running := none })
    (hlaunched : ∀ s version, T.Found version → T.host s → T.host (s.launch version)) :
    T.Answers (host d) where
  fence _ hs := ⟨trivial, hs⟩
  quiesce s hs := ⟨trivial, hparked s _ hs⟩
  stop _ s hs := ⟨trivial, hstopped s hs⟩
  resume s hs := ⟨trivial, hparked s _ hs⟩
  start slot s hs := by
    unfold host start
    dsimp only
    cases hrunning : s.running with
    | some e => exact ⟨trivial, hs⟩
    | none =>
        cases hversion : d.version slot.place with
        | error err => exact ⟨kind_some.mpr (hd.slot _ err hversion), hs⟩
        | ok version =>
            cases version with
            | none => exact ⟨kind_some.mpr (Budget.Terms.fatal_invalid (by decide)), hs⟩
            | some version => exact ⟨trivial, hlaunched s version (hd.version _ version hversion) hs⟩

/-- The service tells what runs, or that it has stopped. -/
theorem probe_obeys {B : Budget} {γ : Type} {T : B.Terms Service γ} {q : Evidence → Prop}
    (h : ∀ s e, T.host s → s.running = some e → q e) :
    Obeys T.Fatal T.host (fun reply => ∀ evidence, reply = some evidence → q evidence) probe := by
  intro s hs
  unfold probe
  dsimp only
  cases hrunning : s.running with
  | none => exact ⟨kind_some.mpr (Budget.Terms.fatal_invalid (by decide)), hs⟩
  | some e =>
      refine ⟨fun evidence heq => ?_, hs⟩
      cases heq
      exact h s e hs hrunning

end Service

namespace Budget

variable (B : Budget)

end Budget

namespace Runner

end Runner

namespace Service

/-- A product whose compatibility hook refuses every upgrade, with a reason. -/
def refusing (reason : String) : Runner Service Unit :=
  { runner 4000 Faults.clean with
    hooks := { Hooks.default with compatibility := fun _ _ => pure (some reason) } }

def refusedRequest : Request := .upgrade 1 "op-1" "2" true

/-- The record of the upgrade that is held so. -/
def refusedRecord (reason : String) : Operation where
  formatVersion := 1
  id := "op-1"
  startedAtMs := 0
  updatedAtMs := 5
  fromVersion := "1"
  targetVersion := "2"
  previousStableVersion := "1"
  phase := .held
  outcome := some .held
  reason := some reason
  provenance := some ⟨"local-operator", "external-runner"⟩
  metadata := []

def refusedResponse (reason : String) : Response where
  protocolVersion := 1
  action := "upgrade"
  exitCode := 2
  result := "held"
  operation := .observed (refusedRecord reason)
  error := none

set_option maxRecDepth 10000 in
/-- The hold is answered with the hook's own words, however many they are. -/
theorem execute_refusing (reason : String) :
    ((refusing reason).execute refusedRequest (installed "1")).1 =
      .ok (refusedResponse reason) := by
  rfl

/-- The record of the refusal is well typed. -/
theorem refused_typed (reason : String) (op : Operation)
    (h : (refusedResponse reason).operation = .observed op) : op.Typed := by
  cases h
  constructor <;> simp [refusedRecord]

/-- The evidence is of one of the versions the service may run. -/
def Known (s : Service) : Prop :=
  ∀ e, s.running = some e → e.version = "1" ∨ e.version = "2"

/-- The service runs what it is started with. -/
theorem launch_known {s : Service} {version : String} (h : version = "1" ∨ version = "2") :
    (s.launch version).Known := by
  intro e he
  cases he
  exact h

/-- What the refused upgrade is given. -/
def refusal (B : Budget) (reason : String) : B.Terms Service Unit where
  runner := { refusing reason with clock := fun _ => 0 }
  request := refusedRequest
  version version := version = "1"
  product _ := True
  host := Known

variable {B : Budget} {reason : String}

/-- The versions in the stable slot are short. -/
theorem refusal_stable {version : String} (hrecord : 288 ≤ B.record)
    (h : version = "1" ∨ version = "0.0.0") : (refusal B reason).Stable version where
  settled phase := by
    refine Budget.Terms.reason_brief ?_
    rcases h with rfl | rfl <;> cases phase <;> decide
  opened v id targetVersion consented desc started now hrequest hstarted hdesc := by
    cases hrequest
    cases hdesc
    have hdigits := digits_le hstarted
    have hone : digits 1 = 1 := by decide
    have hnames : quoted "op-1" = 6 ∧ quoted "2" = 3 ∧ quoted "local-operator" = 16 ∧
      quoted "external-runner" = 17 := by decide
    have hversion : quoted version ≤ 7 := by rcases h with rfl | rfl <;> decide
    simp only [Operation.frame, Runner.newOperation, hone, hnames, Option.or,
      nullableLength, Provenance.length, Detail.length, Option.getD]
    omega

/-- The directory is within the budget. -/
theorem refusal_files : (refusal B reason).Files (· = "1") (installed "1").disk where
  record _ hread := by cases hread
  recordUnreadable _ hread := by cases hread
  receipt _ _ hread := by cases hread
  receiptUnreadable _ _ hread := by cases hread
  journal _ he := by cases he
  last _ _ _ hread hlast := by
    cases hread
    cases hlast
  slot place _ he := by cases place <;> cases he
  version place version hv := by
    cases place with
    | stable =>
        cases hv
        rfl
    | _ => cases hv
  provenance _ hread := by cases hread
  incoming _ he := by
    cases he
    exact Budget.Terms.fatal_brief Budget.Terms.notFound_brief

/-- What is found in the slots is the version that runs or the one refused. -/
theorem refusal_found {version : String} (h : (refusal B reason).Found version) :
    version = "1" ∨ version = "2" := by
  rcases h with h | ⟨_, _, _, _, hrequest, rfl⟩
  · exact .inl h
  · cases hrequest
    exact .inr (by decide)

/-- The upgrade is answered within the budget if the reason is in it. -/
theorem refusal_upgrades (hreason : B.Reason reason) : (refusal B reason).Upgrades "2" where
  probe _ _ := probe_obeys fun s e hs hrunning => by
    refine Budget.Terms.reason_brief ?_
    rcases hs e hrunning with h | h <;> rw [h] <;> decide
  fetch _ := Obeys.pure trivial
  compatibility _ := Obeys.pure fun _ heq => by
    cases heq
    exact hreason
  prepareCandidate _ _ := Obeys.pure trivial
  notify _ _ := Obeys.pure trivial
  downloader _ := Obeys.pure trivial
  surface _ hs := nomatch hs

/-- **The refused upgrade is within the budget** if the reason is in it. -/
theorem refusal_allows (hrecord : 288 ≤ B.record) (hreason : B.Reason reason) :
    (refusal B reason).Allows (installed "1") where
  clock _ := show 0 < 2 ^ 64 by omega
  files := refusal_files
  stable _ := refusal_stable hrecord
  lock := nofun
  faults n label err hfault := nomatch hfault
  host e he := by
    cases he
    exact .inl rfl
  product := trivial
  answers _ hd := answers hd (fun _ _ h => h) (fun _ _ => nofun)
    fun _ _ hversion _ => launch_known (refusal_found hversion)
  upgrades _ _ _ _ hrequest := by
    cases hrequest
    exact refusal_upgrades hreason

/-- The budget of a refusal. -/
def roomy : Budget := ⟨512, 64000, 512, by decide, by decide, by decide⟩

/-- **A refusal** in up to 64,000 bytes arrives. -/
theorem refusal_carried (serde : Serde) (h : quoted reason ≤ 64000) {w' : World Service Unit}
    {response : Response}
    (hrun : { refusing reason with clock := fun _ => 0 }.execute refusedRequest (installed "1") =
      (.ok response, w')) : response.Carried serde refusedRequest :=
  Budget.Terms.execute_carried (T := refusal roomy reason) serde
    (refusal_allows (by decide : 288 ≤ 512) h) (by decide) hrun

end Service

end KCarrier
