import KCarrier.Runner.Filed
import KCarrier.Serve

/-!
# KCarrier.Serve.Launch

A launch from end to end: the supervisor, the processes of its workers, and the directory they
are about.

* `Process.visit` — a worker executes the request it was sent, or leaves the directory alone;
* `launch_visits` — so a launch is a run of visits;
* `launch_backed` — a launch that is settled ends on a record which the directory holds.
-/

namespace KCarrier

open Crash
open Json (toVec)

namespace Supervisor

variable {l : Launch} {request : Request}

/-! ## who was run -/

/-- The first `n` workers of a launch. -/
def deliveries (l : Launch) (request : Request) (n : Nat) : List Delivery :=
  (List.range n).map fun i => ⟨requestAt request i, l.workers i⟩

@[simp] theorem length_deliveries (n : Nat) : (deliveries l request n).length = n := by
  simp [deliveries]

/-- One worker more. -/
theorem deliveries_succ (n : Nat) : deliveries l request (n + 1) =
    deliveries l request n ++ [⟨requestAt request n, l.workers n⟩] := by
  simp [deliveries, List.range_succ]

/-- The last delivery is that of the last worker. -/
theorem getLast?_deliveries {n : Nat} {d : Delivery}
    (h : (deliveries l request n).getLast? = some d) :
    ∃ i, n = i + 1 ∧ d = ⟨requestAt request i, l.workers i⟩ := by
  cases n with
  | zero => simp [deliveries] at h
  | succ i =>
      rw [deliveries_succ, List.getLast?_concat] at h
      exact ⟨i, rfl, (Option.some.inj h).symm⟩

/-- The workers that were run are the first ones of the launch. -/
def InOrder (l : Launch) (request : Request) (s : Site) : Prop :=
  ∃ n, s.delivered = deliveries l request n

/-- An error delivers nothing. -/
theorem failing_inOrder (e : Option Error) :
    Triple (InOrder l request) (failing e) (fun _ => InOrder l request)
      (fun _ => InOrder l request) :=
  Triple.ofExcept (fun _ _ _ h => h) fun _ _ _ h => h

/-- **Attempts** deliver one after the other. -/
theorem attempts_inOrder (n index : Nat) (response : Option Response) :
    Triple (fun s => s.delivered = deliveries l request index)
      (attempts l request n index response) (fun _ => InOrder l request)
      (fun _ => InOrder l request) := by
  induction n generalizing index response with
  | zero => exact Triple.pure fun s hs => ⟨index, hs⟩
  | succ n ih =>
      unfold attempts
      refine Triple.ite (fun _ => ?_) fun _ => Triple.pure fun s hs => ⟨index, hs⟩
      refine Triple.bind (R := fun _ s => s.delivered = deliveries l request (index + 1))
        (Triple.modify fun s hs => ?_) fun _ => ?_
      · rw [deliveries_succ, ← hs]
      refine Triple.ite (fun _ => ?_) fun _ => Triple.ite (fun _ => ?_) fun _ => ih (index + 1) _
      · refine Triple.bind ((failing_inOrder _).pre fun s hs => ⟨index + 1, hs⟩) fun _ => ?_
        refine Triple.bind (R := fun _ => InOrder l request) (Triple.modify fun s hs => hs)
          fun _ => Triple.pure fun s hs => hs
      · exact Triple.pure fun s hs => ⟨index + 1, hs⟩

/-- **A launch** delivers its requests in order. -/
theorem superviseBytes_inOrder (bytes : Bytes) (options : LaunchOptions) :
    Triple (· = ⟨none, []⟩) (superviseBytes l bytes request options) (fun _ => InOrder l request)
      (fun _ => InOrder l request) := by
  have hempty : ∀ s : Site, s = ⟨none, []⟩ → InOrder l request s := by
    rintro _ rfl
    exact ⟨0, rfl⟩
  have hcheck : ∀ x : Except Error Unit, Triple (· = (⟨none, []⟩ : Site)) (Prog.ofExcept x)
      (fun _ s => s = ⟨none, []⟩) (fun _ => InOrder l request) := fun x =>
    Triple.ofExcept (fun _ _ _ h => h) fun _ s _ h => hempty s h
  unfold superviseBytes
  refine Triple.bind (hcheck _) fun _ => Triple.bind (hcheck _) fun _ => ?_
  refine Triple.bind (hcheck _) fun _ => ?_
  refine Triple.bind (R := fun _ s => s.delivered = deliveries l request 0)
    (Triple.modify fun s hs => ?_) fun _ => attempts_inOrder _ 0 none
  subst hs
  rfl

end Supervisor

namespace Serve

open Supervisor

variable {η γ : Type}

/-! ## the process of a worker -/

/-- The process of a worker that is started in `w` with `request` on its way to it: what its
supervisor sees of it, and the world it leaves.  It may not start.  It may read its input whole,
in part or not at all, and be stopped before it writes, or when part of its line was written. -/
inductive Process (serde : Serde) (create : Prog Error γ (Runner η γ)) (request : Request)
    (w : World η γ) : Behaviour → World η γ → Prop
  | absent (output : Option Bytes) (status : Option (Option Int)) (reaped : Bool) :
      Process serde create request w ⟨false, output, status, reaped⟩ w
  | silent (input : Except Error Bytes) (output : Option Bytes) (status : Option (Option Int))
      (reaped : Bool) (hinput : ∀ bytes, input = .ok bytes → bytes <+: toVec request.toJson)
      (houtput : output = none ∨ output = some []) :
      Process serde create request w ⟨true, output, status, reaped⟩
        (serveRunner serde create input w).2
  | answered (input : Except Error Bytes) (reply : Except Error Response) (w' : World η γ) (n : Nat)
      (status : Option (Option Int)) (reaped : Bool)
      (hinput : ∀ bytes, input = .ok bytes → bytes <+: toVec request.toJson)
      (hreply : Prog.attempt (answer serde create input) w = (.ok reply, w'))
      (htyped : ∀ response, reply = .ok response → response.Typed) :
      Process serde create request w ⟨true, some ((line reply).2.take n), status, reaped⟩ w'

variable {serde : Serde} {create : Prog Error γ (Runner η γ)} {request : Request}
  {w w' : World η γ} {b : Behaviour}

/-- A request arrives whole. -/
theorem serveRequest_toVec (hvalid : request.validate = .ok ()) :
    serveRequest serde (toVec request.toJson) = .ok request := by
  have hlength := request.length_toVec_le hvalid
  have htake : (toVec request.toJson).take 16385 = toVec request.toJson :=
    List.take_of_length_le (by omega)
  simp only [serveRequest, htake, request.parse_toVec serde hvalid]
  rw [if_neg (by omega)]

/-- What was read of a request is the request, or nothing that is executed. -/
theorem serveRequest_prefix (hvalid : request.validate = .ok ()) {bytes : Bytes} {found : Request}
    (hcut : bytes <+: toVec request.toJson) (h : serveRequest serde bytes = .ok found) :
    found = request := by
  by_cases hwhole : bytes = toVec request.toJson
  · rw [hwhole, serveRequest_toVec hvalid] at h
    exact (Except.ok.inj h).symm
  · obtain ⟨e, herror⟩ := serveRequest_torn serde hvalid hcut hwhole
    rw [herror] at h
    cases h

/-- The runner of the worker visits `w` with its request. -/
def Visits (create : Prog Error γ (Runner η γ)) (request : Request) (w : World η γ)
    (v : Visit η γ) : Prop :=
  v.lock = w.lock ∧ create w.product = (.ok v.runner, v.product) ∧ v.call = .execute request

/-- **A worker** executes the request that it was sent, or leaves the directory alone. -/
theorem Process.visit (hvalid : request.validate = .ok ())
    (h : Process serde create request w b w') :
    (∃ p, w' = { w with product := p }) ∨ ∃ v, Visits create request w v ∧ w' = v.run w := by
  have hserved : ∀ input : Except Error Bytes,
      (∀ bytes, input = .ok bytes → bytes <+: toVec request.toJson) →
      (∃ p, (serveRunner serde create input w).2 = { w with product := p }) ∨
        ∃ v, Visits create request w v ∧ (serveRunner serde create input w).2 = v.run w := by
    intro input hinput
    rcases serveRunner_visit serde create input w with
      hnothing | ⟨bytes, found, r, p, hread, hfound, hcreate, hrun⟩
    · exact .inl hnothing
    · obtain rfl := serveRequest_prefix hvalid (hinput bytes hread) hfound
      exact .inr ⟨⟨r, w.lock, p, .execute found⟩, ⟨rfl, hcreate, rfl⟩, hrun⟩
  cases h with
  | absent output status reaped => exact .inl ⟨w.product, rfl⟩
  | silent input output status reaped hinput houtput => exact hserved input hinput
  | answered input reply w' n status reaped hinput hreply htyped =>
      have hworld : (serveRunner serde create input w).2 = w' := by
        rw [serveRunner, Prog.bind_run_ok hreply]
        rfl
      rw [← hworld]
      exact hserved input hinput

/-- **What is accepted** of a worker is what its runner answered. -/
theorem Process.accepted (hvalid : request.validate = .ok ())
    (h : Process serde create request w b w') {bytes : Bytes} {response : Response}
    (hspawns : b.spawns = true) (houtput : b.output = some bytes)
    (hparse : Response.parse serde.response bytes = .ok response) :
    ∃ r p, create w.product = (.ok r, p) ∧
      r.execute request { w with product := p } = (.ok response, w') := by
  cases h with
  | absent output status reaped => cases hspawns
  | silent input output status reaped hinput hsilent =>
      rcases hsilent with rfl | rfl
      · cases houtput
      · cases houtput
        have hread := fromJson_of_parse hparse
        cases hread
  | answered input reply w' n status reaped hinput hreply htyped =>
      cases houtput
      obtain rfl := line_accepted htyped (List.take_prefix n _) hparse
      have hanswer := Prog.attempt_eq_ok hreply
      cases input with
      | error e => cases hanswer
      | ok read =>
          rw [answer, Prog.bind_run_ok (Prog.ofExcept_ok_run read w)] at hanswer
          cases hrequest : serveRequest serde read with
          | error e =>
              rw [hrequest] at hanswer
              cases hanswer
          | ok found =>
              obtain rfl := serveRequest_prefix hvalid (hinput read rfl) hrequest
              rw [hrequest, Prog.bind_run_ok (Prog.ofExcept_ok_run found w)] at hanswer
              obtain ⟨r, w₁, hcreate, hexecute⟩ := Prog.bind_eq_ok hanswer
              have hproduct : (Runner.product create : Prog Error (World η γ) (Runner η γ)) w =
                  ((create w.product).1, { w with product := (create w.product).2 }) := rfl
              rw [hproduct, Prod.mk.injEq] at hcreate
              obtain ⟨hr, rfl⟩ := hcreate
              exact ⟨r, _, Prod.ext hr rfl, hexecute⟩

/-! ## the launch -/

/-- The requests of a launch are valid if the first is. -/
theorem validate_requestAt (h : request.validate = .ok ()) (i : Nat) :
    (requestAt request i).validate = .ok () := by
  unfold requestAt
  split
  · exact h
  · rw [Request.validate_eq_ok_iff] at h ⊢
    exact ⟨rfl, h.2⟩

/-- They are about the same operation. -/
theorem expected_requestAt (i : Nat) : (requestAt request i).expected = request.expected := by
  unfold requestAt
  split <;> rfl

/-- A launch that returns was asked for something valid. -/
theorem validate_of_superviseBytes {l : Launch} {bytes : Bytes} {options : LaunchOptions}
    {result : LaunchResult} {s s' : Supervisor.Site}
    (h : superviseBytes l bytes request options s = (.ok result, s')) :
    request.validate = .ok () := by
  obtain ⟨_, _, hvalid, -⟩ := Prog.bind_eq_ok h
  cases hv : request.validate with
  | ok u => rfl
  | error e =>
      rw [hv] at hvalid
      cases hvalid

/-- **A settled launch** ends on a record of the directory.  Its last worker could not take the
lock, and was the first; or the directory holds the record of the operation the request names,
with the outcome that the exit code is for. -/
theorem launch_backed (l : Launch) (serde : Serde) (hdecode : l.decode = serde.response)
    (bytes : Bytes) (request : Request) (options : LaunchOptions)
    (creates : Nat → Prog Error γ (Runner η γ)) (before after : Nat → World η γ)
    (hr : ∀ i p r p', creates i p = (.ok r, p') → r.Surroundings Error.NotReplay) (e : Expected)
    (he : request.expected = some e) (result : LaunchResult) (s : Supervisor.Site)
    (h : superviseBytes l bytes request options ⟨none, []⟩ = (.ok result, s))
    (hworkers : ∀ i < s.delivered.length, Process serde (creates i) (requestAt request i) (before i)
      (l.workers i) (after i))
    (hdone : result.recoveryFile = none) :
    ∃ i r p, s.delivered.length = i + 1 ∧ creates i (before i).product = (.ok r, p) ∧
      ((i = 0 ∧ request.isUpgrade = true ∧ result.exitCode = 2 ∧
        ∃ pid, Prog.attempt (r.perform request) { before i with product := p } =
          (.ok (.error (.locked pid)), after i)) ∨
      ∃ op outcome, (after i).disk.Files r.store.digest e op ∧ op.outcome = some outcome ∧
        result.exitCode = outcome.exitCode) := by
  have hvalid := validate_of_superviseBytes h
  have hstatus : request.isStatus = false := by
    cases request with
    | status version => cases he
    | _ => rfl
  have hended := (superviseBytes_triple l bytes options hstatus).run_ok rfl h
  obtain ⟨n, hn⟩ := (superviseBytes_inOrder bytes options).run_ok rfl h
  rcases hended.2 with ⟨-, d, response, hlast, -, hcode, hanswered, hsettles⟩ | ⟨hkept, -⟩
  · rw [hn] at hlast
    obtain ⟨i, rfl, rfl⟩ := getLast?_deliveries hlast
    have hlength : s.delivered.length = i + 1 := by rw [hn, length_deliveries]
    obtain ⟨line, status, houtput, -, hparse, -⟩ := hanswered.parses
    rw [hdecode] at hparse
    obtain ⟨r, p, hcreate, hexecute⟩ := (hworkers i (by omega)).accepted
      (validate_requestAt hvalid i) hanswered.spawned houtput hparse
    refine ⟨i, r, p, hlength, hcreate, ?_⟩
    rcases hsettles with ⟨hupgrade, hrequest, hbusy, hexit⟩ | ⟨-, hnamed⟩
    · -- only the first worker is sent the upgrade itself
      have hfirst : i = 0 := by
        by_contra hi
        rw [requestAt, if_neg hi] at hrequest
        rw [← hrequest] at hupgrade
        cases hupgrade
      obtain ⟨pid, hperform⟩ := Runner.execute_busy hexecute hbusy
      have hrequest : requestAt request i = request := hrequest
      rw [hrequest] at hperform
      exact .inl ⟨hfirst, hupgrade, hcode.trans hexit, pid, hperform⟩
    · obtain ⟨op, outcome, hop, hid, ht, ho, hexit⟩ := hnamed e he
      have hfiled := Runner.execute_filed (hr i _ r p hcreate) hexecute
        ((expected_requestAt i).trans he) hop hid ht
      exact .inr ⟨op, outcome, hfiled, ho, hcode.trans hexit.symm⟩
  · rw [hdone] at hkept
    cases hkept

/-- The same up to the lock, which a process takes with it, and the product, which goes on. -/
def Same (w w' : World η γ) : Prop := ∃ lock p, w' = { w with lock := lock, product := p }

theorem Same.refl (w : World η γ) : Same w w := ⟨w.lock, w.product, rfl⟩

/-- Worlds that differ in the lock and the product only. -/
theorem Same.trans {w₁ w₂ w₃ : World η γ} (h : Same w₁ w₂) (h' : Same w₂ w₃) : Same w₁ w₃ := by
  obtain ⟨lock, p, rfl⟩ := h
  obtain ⟨lock', p', rfl⟩ := h'
  exact ⟨lock', p', rfl⟩

/-- A visit finds what it finds of the lock and the product. -/
theorem Same.run {w w' : World η γ} (h : Same w w') (v : Visit η γ) : v.run w' = v.run w := by
  obtain ⟨lock, p, rfl⟩ := h
  rfl

/-- **A launch is a run of visits.**  When nobody else is at the directory, what the first workers
leave is left by as many visits at most, each with the request of a worker and with a runner that
was made for it. -/
theorem launch_visits (l : Launch) (serde : Serde) (bytes : Bytes) (request : Request)
    (options : LaunchOptions) (creates : Nat → Prog Error γ (Runner η γ))
    (before after : Nat → World η γ) (result : LaunchResult) (s : Supervisor.Site)
    (h : superviseBytes l bytes request options ⟨none, []⟩ = (.ok result, s))
    (hworkers : ∀ i < s.delivered.length, Process serde (creates i) (requestAt request i) (before i)
      (l.workers i) (after i))
    (halone : ∀ i, i + 1 < s.delivered.length → Same (after i) (before (i + 1))) :
    ∀ i < s.delivered.length, ∃ visits : List (Visit η γ), visits.length ≤ i + 1 ∧
      (∀ v ∈ visits, ∃ j ≤ i, v.call = .execute (requestAt request j) ∧
        ∃ p, creates j p = (.ok v.runner, v.product)) ∧
      Same (runVisits visits (before 0)) (after i) := by
  have hvalid := validate_of_superviseBytes h
  intro i
  induction i with
  | zero =>
      intro hi
      rcases (hworkers 0 hi).visit (validate_requestAt hvalid 0) with ⟨p, hafter⟩ | ⟨v, hv, hafter⟩
      · exact ⟨[], by simp, by simp, (before 0).lock, p, hafter⟩
      · refine ⟨[v], by simp, ?_, ?_⟩
        · intro v' hv'
          rw [List.mem_singleton] at hv'
          subst hv'
          exact ⟨0, Nat.le_refl 0, hv.2.2, _, hv.2.1⟩
        · rw [hafter]
          exact Same.refl _
  | succ i ih =>
      intro hi
      obtain ⟨visits, hcount, hvisits, hsame⟩ := ih (by omega)
      have hstarts := hsame.trans (halone i hi)
      have holder : ∀ v ∈ visits, ∃ j ≤ i + 1, v.call = .execute (requestAt request j) ∧
          ∃ p, creates j p = (.ok v.runner, v.product) := by
        intro v hv
        obtain ⟨j, hj, hcall⟩ := hvisits v hv
        exact ⟨j, by omega, hcall⟩
      rcases (hworkers (i + 1) hi).visit (validate_requestAt hvalid (i + 1)) with
        ⟨p, hafter⟩ | ⟨v, hv, hafter⟩
      · refine ⟨visits, by omega, holder, hstarts.trans ?_⟩
        exact ⟨(before (i + 1)).lock, p, hafter⟩
      · refine ⟨visits ++ [v], by rw [List.length_append, List.length_singleton]; omega, ?_, ?_⟩
        · intro v' hv'
          rcases List.mem_append.mp hv' with hv' | hv'
          · exact holder v' hv'
          · rw [List.mem_singleton] at hv'
            subst hv'
            exact ⟨i + 1, Nat.le_refl _, hv.2.2, _, hv.2.1⟩
        · have hrun : runVisits (visits ++ [v]) (before 0) = v.run (runVisits visits (before 0)) := by
            simp [runVisits]
          rw [hrun, hafter, hstarts.run v]
          exact Same.refl _

end Serve

namespace Service

open Supervisor

/-- A launch whose one worker answers that the upgrade is held. -/
def heldLaunch : Launch where
  decode := plainSerde.response
  sha256 _ := ""
  dir := "scratch/k-runner"
  writing := none
  removing := none
  inTime _ := true
  workers _ := ⟨true, some (refusedResponse "2 needs a newer host").bytes, some (some 2), true⟩

theorem decode_heldLaunch : heldLaunch.decode = plainSerde.response := rfl

/-- What that worker leaves. -/
def heldWorld : World Service Unit :=
  ((refusing "2 needs a newer host").execute refusedRequest (installed "1")).2

/-- The request that is refused is a valid one. -/
theorem refused_valid : refusedRequest.validate = .ok () :=
  Request.validate_upgrade (by decide +kernel) (by decide +kernel)

/-- It is held. -/
theorem execute_held : (refusing "2 needs a newer host").execute refusedRequest (installed "1") =
    (.ok (refusedResponse "2 needs a newer host"), heldWorld) :=
  Prod.ext (execute_refusing _) rfl

/-- Its response is well typed. -/
theorem held_typed : (refusedResponse "2 needs a newer host").Typed :=
  ⟨by decide, by decide, refused_typed _⟩

/-- The worker of the launch serves the request. -/
theorem heldLaunch_process : Serve.Process plainSerde (pure (refusing "2 needs a newer host"))
    refusedRequest (installed "1") (heldLaunch.workers 0) heldWorld := by
  have hanswer : Serve.answer plainSerde (pure (refusing "2 needs a newer host"))
      (.ok (toVec refusedRequest.toJson)) (installed "1") =
        (.ok (refusedResponse "2 needs a newer host"), heldWorld) := by
    rw [Serve.answer, Prog.bind_run_ok (Prog.ofExcept_ok_run _ _),
      Serve.serveRequest_toVec refused_valid]
    exact execute_held
  have hwhole : (Serve.line (.ok (refusedResponse "2 needs a newer host"))).2.take
      (refusedResponse "2 needs a newer host").bytes.length =
        (refusedResponse "2 needs a newer host").bytes := List.take_length
  have hprocess := Serve.Process.answered (.ok (toVec refusedRequest.toJson))
    (.ok (refusedResponse "2 needs a newer host")) heldWorld
    (refusedResponse "2 needs a newer host").bytes.length (some (some 2)) true
    (fun bytes h => by cases h; exact List.prefix_refl _) (Prog.attempt_run_ok hanswer)
    (fun r h => by cases h; exact held_typed)
  rw [hwhole] at hprocess
  exact hprocess

/-- The launch ends with the hold. -/
theorem heldLaunch_result : ∃ result s, superviseBytes heldLaunch [77, 90] refusedRequest
    ⟨600000, 120000, 840000, 2⟩ ⟨none, []⟩ = (.ok result, s) ∧ result.recoveryFile = none ∧
    result.exitCode = 2 ∧ s.delivered.length = 1 := by
  have hlength : (refusedResponse "2 needs a newer host").bytes.length ≤ 65536 := by
    rw [Response.length_bytes]
    decide +kernel
  have hread : heldLaunch.decode (refusedResponse "2 needs a newer host").bytes =
      .ok (refusedResponse "2 needs a newer host") := by
    rw [decode_heldLaunch]
    exact plainSerde.response_bytes held_typed
  have houtput : (heldLaunch.workers 0).output =
      some (refusedResponse "2 needs a newer host").bytes := by
    rw [heldLaunch]
  have hdelivers : Delivers heldLaunch (refusedResponse "2 needs a newer host") :=
    ⟨rfl, rfl, rfl, ⟨_, houtput, hlength, hread⟩, rfl⟩
  have hgood : (refusedResponse "2 needs a newer host").WellFormed :=
    ⟨rfl, by decide, by decide, by rintro op ⟨⟩; rfl⟩
  have hoptions : (⟨600000, 120000, 840000, 2⟩ : LaunchOptions).validate = .ok () := rfl
  have hstops := superviseBytes_stops [77, 90] refused_valid hoptions hdelivers hgood rfl
    (by decide +kernel)
  generalize superviseBytes heldLaunch [77, 90] refusedRequest ⟨600000, 120000, 840000, 2⟩
    ⟨none, []⟩ = o at hstops ⊢
  obtain ⟨res, s⟩ := o
  have hres : res = .ok ⟨2, some (refusedResponse "2 needs a newer host"), none, none, 1⟩ :=
    hstops.result rfl
  have hdelivered : s.delivered = [⟨refusedRequest, heldLaunch.workers 0⟩] := hstops.delivered
  exact ⟨_, s, by rw [hres], rfl, rfl, by rw [hdelivered]; rfl⟩

/-- The product that refuses replays nothing itself. -/
theorem refusing_surroundings : (refusing "2 needs a newer host").Surroundings Error.NotReplay :=
  surroundings 4000 _ _ (fun _ => Raises.pure _) (fun _ _ => Raises.pure _)
    (fun _ _ => Raises.pure _) fun _ _ => Raises.pure _

/-- A launch that ends with a hold. -/
theorem launch_backed_held : ∃ result s, superviseBytes heldLaunch [77, 90] refusedRequest
      ⟨600000, 120000, 840000, 2⟩ ⟨none, []⟩ = (.ok result, s) ∧
    ∃ i r p, s.delivered.length = i + 1 ∧
      (pure (refusing "2 needs a newer host") : Prog Error Unit (Runner Service Unit)) () =
        (.ok r, p) ∧
      ((i = 0 ∧ refusedRequest.isUpgrade = true ∧ result.exitCode = 2 ∧
        ∃ pid, Prog.attempt (r.perform refusedRequest) { installed "1" with product := p } =
          (.ok (.error (.locked pid)), heldWorld)) ∨
      ∃ op outcome, heldWorld.disk.Files r.store.digest ⟨"op-1", "2"⟩ op ∧
        op.outcome = some outcome ∧ result.exitCode = outcome.exitCode) := by
  obtain ⟨result, s, hrun, hdone, -, hlength⟩ := heldLaunch_result
  refine ⟨result, s, hrun, ?_⟩
  refine Serve.launch_backed heldLaunch plainSerde rfl [77, 90] refusedRequest
    ⟨600000, 120000, 840000, 2⟩ (fun _ => pure (refusing "2 needs a newer host"))
    (fun _ => installed "1") (fun _ => heldWorld) (fun i p r p' h => ?_) ⟨"op-1", "2"⟩ rfl result s
    hrun (fun i hi => ?_) hdone
  · cases h
    exact refusing_surroundings
  · obtain rfl : i = 0 := by omega
    exact heldLaunch_process

/-- The one visit of that launch. -/
theorem launch_visits_held : ∃ visits : List (Visit Service Unit), visits.length ≤ 0 + 1 ∧
    (∀ v ∈ visits, ∃ j ≤ 0, v.call = .execute (requestAt refusedRequest j) ∧
      ∃ p, (pure (refusing "2 needs a newer host") : Prog Error Unit (Runner Service Unit)) p =
        (.ok v.runner, v.product)) ∧
    Serve.Same (runVisits visits (installed "1")) heldWorld := by
  obtain ⟨result, s, hrun, -, -, hlength⟩ := heldLaunch_result
  refine Serve.launch_visits heldLaunch plainSerde [77, 90] refusedRequest
    ⟨600000, 120000, 840000, 2⟩ (fun _ => pure (refusing "2 needs a newer host"))
    (fun _ => installed "1") (fun _ => heldWorld) result s hrun (fun i hi => ?_) (fun i hi => ?_)
    0 (by omega)
  · obtain rfl : i = 0 := by omega
    exact heldLaunch_process
  · omega

end Service

end KCarrier
