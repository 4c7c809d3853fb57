import KCarrier.Json.Cut
import KCarrier.Runner.Flow
import KCarrier.Runner.Reply

/-!
# KCarrier.Serve

The worker's end of the wire.

`serveRunner` reads one request, has the runner that is made for it execute it, and writes one
line.  What it writes of a failure is no response.

* `serveRunner_visit` — a worker executes the request that it was given whole, or does nothing;
* `line_accepted` — a line that was cut off is accepted as nothing else.
-/

namespace KCarrier

open Crash
open Json (Value toVec)

namespace Serve

variable {η γ : Type}

section

variable (serde : Serde) (create : Prog Error γ (Runner η γ))

/-- The request that was read, and what the runner makes of it.  `input` is what reading came to
in its time. -/
def answer (input : Except Error Bytes) : Prog Error (World η γ) Response := do
  let bytes ← Prog.ofExcept input
  let request ← Prog.ofExcept (serveRequest serde bytes)
  let r ← Runner.product create
  r.execute request

/-- What a failure is told as, its members in order. -/
def failure (e : Error) : Value :=
  .object [("error", .string e.message), ("exitCode", .number (.natural 1)),
    ("protocolVersion", .number (.natural 1)), ("result", .string "failed")]

/-- The exit code, and the line that is written. -/
def line : Except Error Response → Nat × Bytes
  | .ok response => (response.exitCode, response.bytes)
  | .error e => (1, toVec (failure e) ++ [10])

def serveRunner (input : Except Error Bytes) : Prog Error (World η γ) (Nat × Bytes) := do
  let reply ← Prog.attempt (answer serde create input)
  pure (line reply)

end

/-! ## what is read -/

/-- **A request that was cut off** is refused. -/
theorem serveRequest_torn (serde : Serde) {request : Request} (hvalid : request.validate = .ok ()) {bytes : Bytes}
    (hcut : bytes <+: toVec request.toJson) (hne : bytes ≠ toVec request.toJson) :
    ∃ e, serveRequest serde bytes = .error e := by
  have hlength : bytes.length ≤ 16384 := hcut.length_le.trans (request.length_toVec_le hvalid)
  have hfits := request.fits_toJson (Request.validate_eq_ok_iff.mp hvalid).1
  have hread : Json.fromSlice serde.float bytes = none := by
    cases request with
    | upgrade => exact Json.fromSlice_cut hfits hcut hne
    | recover version expected => cases expected <;> exact Json.fromSlice_cut hfits hcut hne
    | status => exact Json.fromSlice_cut hfits hcut hne
  have htake : bytes.take 16385 = bytes := List.take_of_length_le (by omega)
  simp only [serveRequest, htake, if_neg (by omega : ¬bytes.length > 16384), Request.parse,
    if_neg (by omega : ¬bytes.length > 65536), hread]
  exact ⟨_, rfl⟩

/-- **A worker** does one thing to its directory at most: it executes the valid request that it
read. -/
theorem serveRunner_visit (serde : Serde) (create : Prog Error γ (Runner η γ))
    (input : Except Error Bytes) (w : World η γ) :
    (∃ p, (serveRunner serde create input w).2 = { w with product := p }) ∨
    ∃ bytes request r p, input = .ok bytes ∧ serveRequest serde bytes = .ok request ∧
      create w.product = (.ok r, p) ∧ (serveRunner serde create input w).2 =
        (⟨r, w.lock, p, .execute request⟩ : Visit η γ).run w := by
  -- what is written leaves the directory alone
  have hanswer : (serveRunner serde create input w).2 = (answer serde create input w).2 := by
    rw [serveRunner, Prog.bind_run, Prog.attempt]
    cases ha : answer serde create input w with
    | mk res w' => cases res <;> rfl
  rw [hanswer]
  cases input with
  | error e => exact .inl ⟨w.product, rfl⟩
  | ok bytes =>
      cases hrequest : serveRequest serde bytes with
      | error e =>
          refine .inl ⟨w.product, ?_⟩
          rw [answer, Prog.bind_run_ok (Prog.ofExcept_ok_run bytes w), hrequest]
          rfl
      | ok request =>
          have hread : answer serde create (.ok bytes) w =
              (Runner.product create >>= fun r => r.execute request) w := by
            rw [answer, Prog.bind_run_ok (Prog.ofExcept_ok_run bytes w), hrequest]
            rfl
          have hproduct : (Runner.product create : Prog Error (World η γ) (Runner η γ)) w =
              ((create w.product).1, { w with product := (create w.product).2 }) := rfl
          rw [hread, Prog.bind_run, hproduct]
          cases hcreate : create w.product with
          | mk res p =>
              cases res with
              | ok r =>
                  refine .inr ⟨bytes, request, r, p, rfl, hrequest, rfl, ?_⟩
                  rw [Visit.run, Runner.call, Prog.bind_run]
                  show (r.execute request { w with product := p }).2 = _
                  have hfinds : (⟨r, w.lock, p, .execute request⟩ : Visit η γ).finds w =
                      { w with product := p } := rfl
                  rw [hfinds]
                  cases hrun : r.execute request { w with product := p } with
                  | mk res w' => cases res <;> rfl
              | err e => exact .inl ⟨p, rfl⟩
              | crash => exact .inl ⟨p, rfl⟩

/-! ## what is written -/

variable {serde : Serde}

theorem fits_failure (e : Error) : Json.Fits Json.maxDepth (failure e) := by
  have hone : Json.Number.Fits (.natural 1) := .natural 1 (by omega)
  exact .object (by simp [Json.Fits.string, Json.Fits.number hone])

/-- A failure names no action. -/
theorem fromJson_failure (e : Error) : Response.fromJson (failure e) = none := by
  rfl

theorem decode_of_parse {decode : Bytes → Except String Response} {bytes : Bytes}
    {response : Response} (h : Response.parse decode bytes = .ok response) :
    decode bytes = .ok response := by
  unfold Response.parse at h
  split at h
  · cases h
  · split at h
    · cases h
    · next found hdecode =>
        have hfound : found = response := by
          split at h
          · cases h
          · split at h
            · split at h
              · cases h
              · exact Except.ok.inj h
            · exact Except.ok.inj h
        rw [hdecode, hfound]

theorem fromJson_of_parse {bytes : Bytes} {response : Response}
    (h : Response.parse serde.response bytes = .ok response) :
    (Json.fromSlice serde.float bytes).bind Response.fromJson = some response := by
  have hdecode := decode_of_parse h
  unfold Serde.response at hdecode
  split at hdecode
  · next found hfound =>
      cases hdecode
      exact hfound
  · cases hdecode

/-- **A line** is accepted as the response it was written for, or not at all, however much of it
arrives. -/
theorem line_accepted {reply : Except Error Response} {bytes : Bytes} {response : Response}
    (htyped : ∀ r, reply = .ok r → r.Typed) (hcut : bytes <+: (line reply).2)
    (h : Response.parse serde.response bytes = .ok response) : reply = .ok response := by
  have hread := fromJson_of_parse h
  cases reply with
  | error e =>
      have hline : Json.fromSlice serde.float bytes = none ∨
          Json.fromSlice serde.float bytes = some (failure e) :=
        Json.fromSlice_line (fits_failure e) hcut
      rcases hline with hline | hline
      · simp [hline] at hread
      · simp [hline, fromJson_failure e] at hread
  | ok sent =>
      have hsent := htyped sent rfl
      have hline : Json.fromSlice serde.float bytes = none ∨
          Json.fromSlice serde.float bytes = some sent.toJson :=
        Json.fromSlice_line (Response.fits_toJson hsent) hcut
      rcases hline with hline | hline
      · simp [hline] at hread
      · rw [hline, Option.bind_some, Response.fromJson_toJson hsent, Option.some.injEq] at hread
        rw [hread]

/-- **Nothing torn is acted on.**  A worker that reads a valid request without its end leaves the
world as it was and exits with 1, and no part of what it writes is accepted as a response. -/
theorem serveRunner_torn (serde : Serde) (create : Prog Error γ (Runner η γ)) (request : Request)
    (hvalid : request.validate = .ok ()) (bytes : Bytes) (hcut : bytes <+: toVec request.toJson)
    (hne : bytes ≠ toVec request.toJson) (w : World η γ) :
    ∃ written, serveRunner serde create (.ok bytes) w = (.ok (1, written), w) ∧
      ∀ part response, part <+: written → Response.parse serde.response part ≠ .ok response := by
  obtain ⟨e, herror⟩ := serveRequest_torn serde hvalid hcut hne
  have hanswer : answer serde create (.ok bytes) w = (.err e, w) := by
    rw [answer, Prog.bind_run_ok (Prog.ofExcept_ok_run bytes w), herror]
    rfl
  refine ⟨(line (.error e)).2, ?_, ?_⟩
  · rw [serveRunner, Prog.bind_run_ok (Prog.attempt_run_err hanswer)]
    rfl
  · intro part response hpart h
    have htyped : ∀ r, (Except.error e : Except Error Response) = .ok r → r.Typed :=
      fun r hr => by cases hr
    have hreply := line_accepted htyped hpart h
    cases hreply

end Serve

namespace Service

/-- The brace that ends the request did not arrive. -/
theorem serveRunner_torn_refused :
    ∃ written, Serve.serveRunner plainSerde (pure (refusing "2 needs a newer host"))
        (.ok (toVec refusedRequest.toJson).dropLast) (installed "1") =
      (.ok (1, written), installed "1") ∧
    ∀ part response, part <+: written →
      Response.parse plainSerde.response part ≠ .ok response := by
  refine Serve.serveRunner_torn plainSerde _ refusedRequest
    (Request.validate_upgrade (by decide +kernel) (by decide +kernel)) _ (List.dropLast_prefix _)
    (fun h => ?_) _
  have hlength := congrArg List.length h
  rw [List.length_dropLast, Json.length_toVec] at hlength
  have hsize : 0 < Json.size refusedRequest.toJson.write := by decide +kernel
  omega

end Service

end KCarrier
