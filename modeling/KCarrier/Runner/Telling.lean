import KCarrier.Runner.Answer
import KCarrier.Runner.Budget

/-!
# KCarrier.Runner.Telling

What a call tells stays within its budget.

The host, the verdict and the engine first, then every program of the runner in the order in
which a call runs them.
-/

namespace KCarrier

open Crash
open Running

namespace Budget

namespace Terms

variable {B : Budget} {η γ : Type} {T : B.Terms η γ} {V : String → Prop}

/-! ## the host and the verdict -/

/-- A call of the product. -/
theorem product_obeys {α : Type} {p : Error → Prop} {q : α → Prop} {m : Prog Error γ α}
    (h : Obeys p T.product q m) : Obeys p (T.Holds V) q (Runner.product m) :=
  h.zoom (fun _ hw => hw.product) fun _ _ hw hs => ⟨hw.files, hw.host, hs⟩

/-- A call of the host, on the directory as it is. -/
theorem hostCall_obeys (hfaults : T.runner.store.Fails T.Fatal)
    (hV : ∀ version, V version → T.Found version) {α : Type} {q : Option α → Prop}
    (name : String) {call : Host η → Prog Error η (Option α)}
    (h : ∀ disk, T.Files T.Found disk → Obeys T.Fatal T.host q (call (T.runner.host disk))) :
    Obeys T.Fatal (T.Holds V) q (T.runner.hostCall name call) := by
  have hrun : Obeys T.Fatal (T.Holds V) q (T.runner.hostRun call) := by
    intro w hw
    have hends := h w.disk (hw.files.mono hV) w.host hw.host
    unfold Runner.hostRun
    generalize call (T.runner.host w.disk) w.host = o at hends ⊢
    obtain ⟨o, t⟩ := o
    cases o <;> exact ⟨hends.1, hw.files, hends.2, hw.product⟩
  unfold Runner.hostCall
  refine (boundary_obeys hfaults _).bind fun _ _ => (note_obeys _).bind fun _ _ => ?_
  refine hrun.bind fun reply hreply => (boundary_obeys hfaults _).bind fun _ _ => ?_
  exact Obeys.pure hreply

/-- The surfaces of a predicate are those of the runner. -/
def Reads (T : B.Terms η γ) (c : Convergence (World η γ)) : Prop :=
  ∀ surface ∈ c.surfaces, ∃ s ∈ T.runner.surfaces, surface.id = s.id ∧
    surface.read = Runner.product s.read

/-- The predicate reads the surfaces of the runner, or is refused. -/
theorem convergence_obeys : Obeys T.Fatal (T.Holds V) T.Reads T.runner.convergence := by
  unfold Runner.convergence
  refine Obeys.bind (r := T.Reads) (Obeys.ofExcept (fun c hc => ?_) fun err he => ?_) fun c hc => ?_
  · have hsurfaces : c.surfaces = T.runner.surfaces.map fun s =>
        ({ id := s.id, read := Runner.product s.read } : ReadbackSurface (World η γ)) := by
      unfold Convergence.new at hc
      split at hc
      · cases hc
        rfl
      · cases hc
    intro surface hsurface
    rw [hsurfaces] at hsurface
    obtain ⟨s, hs, rfl⟩ := List.mem_map.mp hsurface
    exact ⟨s, hs, rfl, rfl⟩
  · exact fatal_brief (new_brief he)
  · refine Obeys.bind (r := fun _ => True) ?_ fun _ _ => Obeys.pure hc
    exact Obeys.modify fun w hw => ⟨hw.files, hw.host, hw.product⟩

/-- A verdict of the surfaces names the one that did not converge. -/
theorem readSurfaces_obeys {targetVersion : String} (hup : T.Upgrades targetVersion)
    {c : Convergence (World η γ)} (surfaces : List (ReadbackSurface (World η γ)))
    (hreads : ∀ surface ∈ surfaces, ∃ s ∈ T.runner.surfaces, surface.id = s.id ∧
      surface.read = Runner.product s.read) (result : PredicateResult) (sources : List String)
    (hpassed : result.passed = true) :
    Obeys T.Fatal (T.Holds V) (fun reply => ∀ verdict, reply = some verdict →
      verdict.passed = false → B.Reason
        s!"predicates refused: lifecycle surface {verdict.source} did not converge")
      (c.readSurfaces result sources surfaces) := by
  induction surfaces generalizing result sources with
  | nil =>
      refine Obeys.pure fun verdict heq hfailed => ?_
      cases heq
      exact absurd (hpassed.symm.trans hfailed) (by decide)
  | cons surface rest ih =>
      obtain ⟨s, hs, hid, hread⟩ := hreads surface (by simp)
      obtain ⟨hkeeps, hreason⟩ := hup.surface s hs
      rw [← hid] at hreason
      have hobeys : Obeys (fun _ => True) (T.Holds V) (fun _ => True) surface.read := by
        rw [hread]
        exact product_obeys (Obeys.of_keeps hkeeps Raises.any)
      unfold Convergence.readSurfaces
      refine (Obeys.attempt hobeys).bind fun reply _ => ?_
      rcases reply with err | _ | ⟨value, note⟩
      · refine Obeys.pure fun verdict heq _ => ?_
        cases heq
        exact hreason
      · exact Obeys.pure fun verdict heq => by cases heq
      · refine Obeys.ite (fun _ => ?_) fun _ => Obeys.pure fun verdict heq _ => ?_
        · exact ih (fun s' hs' => hreads s' (List.mem_cons_of_mem _ hs')) _ _ hpassed
        · cases heq
          exact hreason

/-- The verdict is about the evidence or about a surface. -/
theorem evaluate_obeys {targetVersion : String} (hup : T.Upgrades targetVersion)
    {c : Convergence (World η γ)} (hreads : T.Reads c) {evidence : Evidence}
    (hevidence : B.Shows targetVersion evidence) :
    Obeys T.Fatal (T.Holds V)
      (fun reply => ∀ text, reply = some (some text) → B.Reason s!"predicates refused: {text}")
      ((T.runner.engine c).predicates.evaluate evidence targetVersion) := by
  let I : World η γ × Observed → Prop := fun s => T.Holds V s.1
  let Said : Option (Option String) → Prop := fun reply =>
    ∀ text, reply = some (some text) → B.Reason s!"predicates refused: {text}"
  have hobserve : ∀ f, Obeys T.Fatal I (fun _ => True) (Convergence.observe f) :=
    fun f => Obeys.modify fun _ hs => hs
  have hsettle : Obeys T.Fatal I Said c.settle := by
    unfold Convergence.settle
    refine Obeys.get_bind fun s _ => ?_
    have hsurfaces := readSurfaces_obeys (V := V) (c := c) hup c.surfaces hreads
      ⟨true, "", c.clock s.1, []⟩ [] rfl
    have hworld : Obeys T.Fatal I _
        (Convergence.world (c.readSurfaces ⟨true, "", c.clock s.1, []⟩ [] c.surfaces)) :=
      hsurfaces.zoom (fun _ hs => hs) fun _ _ _ hs => hs
    refine hworld.bind fun reply hreply => ?_
    cases reply with
    | none => exact Obeys.pure nofun
    | some verdict =>
        refine (hobserve _).bind fun _ _ => Obeys.pure fun text htext => ?_
        cases hpassed : verdict.passed with
        | true => simp [hpassed] at htext
        | false =>
            simp only [hpassed, Bool.false_eq_true, if_false, Option.some.injEq] at htext
            subst htext
            exact hreply verdict rfl hpassed
  have hevaluate : Obeys T.Fatal I Said (c.evaluate T.runner.self evidence targetVersion) := by
    unfold Convergence.evaluate
    refine Obeys.bind (r := fun _ => True) (Obeys.ofExcept (fun _ _ => trivial) fun err he => ?_)
      fun _ _ => (hobserve _).bind fun _ _ => ?_
    · unfold Evidence.validate at he
      split at he
      · cases he
        exact fatal_invalid (by decide)
      · cases he
    · refine Obeys.ite (fun _ => Obeys.pure fun text htext => ?_) fun _ => ?_
      · cases htext
        exact hevidence
      · exact Obeys.ite (fun _ => Obeys.pure nofun) fun _ => hsettle
  have hzoom : Obeys T.Fatal (T.Holds V) Said
      (Prog.zoom (fun w : World η γ => (w, w.observed))
        (fun s _ => { s.1 with observed := s.2 })
        (c.evaluate T.runner.self evidence targetVersion)) :=
    hevaluate.zoom (fun _ hw => hw) fun _ _ _ hs => ⟨hs.files, hs.host, hs.product⟩
  exact hzoom

/-! ## the engine -/

/-- The calls of the engine, within the budget. -/
theorem engine_speaks {w : World η γ} (h : T.Allows w)
    (hV : ∀ version, V version → T.Found version) (c : Convergence (World η γ)) :
    Speaks (T.runner.engine c) (T.Holds V) T.Fatal B.Reason where
  brief _ := fatal_brief
  reason _ := reason_brief
  readJournal := readDisk_obeys (fun _ _ _ _ => trivial) fun _ err hd he => hd.journal err he
  append _ := append_obeys h.faults
  versions := readDisk_obeys (fun _ _ _ _ => trivial) fun _ _ hd he => hd.versions he
  promote := promote_obeys h.faults
  clear := removeDir_obeys h.faults .experiment
  fence := hostCall_obeys h.faults hV _ fun disk hd => (h.answers disk hd).fence
  quiesce := hostCall_obeys h.faults hV _ fun disk hd => (h.answers disk hd).quiesce
  stop slot := hostCall_obeys h.faults hV _ fun disk hd => (h.answers disk hd).stop slot
  start slot := hostCall_obeys h.faults hV _ fun disk hd => (h.answers disk hd).start slot
  resume := hostCall_obeys h.faults hV _ fun disk hd => (h.answers disk hd).resume

/-- **The engine of an upgrade** is given no more than the call may be. -/
theorem engine_quotes {w : World η γ} (h : T.Allows w) {v : Nat} {id targetVersion : String}
    {consented : Bool} (hrequest : T.request = .upgrade v id targetVersion consented)
    {c : Convergence (World η γ)} (hreads : T.Reads c) :
    Quotes (T.runner.engine c) (T.Holds T.Found) T.Fatal B.Reason (B.Shows targetVersion)
      targetVersion incomingPath where
  toSpeaks := engine_speaks h (fun _ hv => hv) c
  failed _ herr := herr.failed (by rw [hrequest]; rfl)
  stage := stage_obeys h.faults (.inr ⟨v, id, targetVersion, consented, hrequest, rfl⟩) _
  probe := hostCall_obeys h.faults (fun _ hv => hv) _
    (h.upgrades v id targetVersion consented hrequest).probe
  evaluate _ hevidence := evaluate_obeys (h.upgrades v id targetVersion consented hrequest) hreads
    hevidence

/-! ## the record -/

/-- What may end a call may be told. -/
theorem fatal_tells (err : Error) (h : T.Fatal err) : B.Tells err := h.toTells

/-- A program whose errors end the call tells them. -/
theorem told {σ α : Type} {I : σ → Prop} {q : α → Prop} {m : Prog Error σ α}
    (h : Obeys T.Fatal I q m) : Obeys B.Tells I q m := h.mono fatal_tells fun _ ha => ha

/-- A short error may be told. -/
theorem tells_brief {err : Error} (h : err.Brief) : B.Tells err :=
  tells_of_message h.own (Nat.le_trans h.short (Nat.le_trans (by omega) B.error_le))

/-- The record of the call, if it has one, may be shown. -/
def Filed (B : Budget) (op : Option Operation) : Prop := ∀ o, op = some o → B.Record o

/-- Looking at the record. -/
theorem readRequired_obeys : Obeys B.Tells (T.Holds V)
    (fun op => Filed B op ∧ ∀ o, op = some o → o.validate = .ok ()) Runner.readRequired := by
  unfold Runner.readRequired
  refine Obeys.get_bind fun w hw => ?_
  cases hread : w.disk.readOperation with
  | genesis => exact Obeys.pure ⟨nofun, nofun⟩
  | observed op =>
      refine Obeys.pure ⟨fun o heq => ?_, fun o heq => ?_⟩
      · cases heq
        exact hw.files.record op hread
      · cases heq
        exact (Disk.readOperation_observed_iff.mp hread).2
  | unreadable reason =>
      exact Obeys.throw (tells_invalid (hw.files.recordUnreadable reason hread).2)

/-- A transition keeps the frame of a record. -/
theorem record_advance {op : Operation} (h : B.Record op) {now : Nat} (hnow : now < 2 ^ 64)
    (phase : OperationPhase) (outcome : Option Outcome) {reason : Option String}
    (hreason : ∀ text, reason = some text → B.Reason text) :
    B.Record (Runner.advance op now phase outcome reason) where
  typed := { h.typed with updatedAtMs := hnow }
  frame := h.frame
  reason := by
    cases reason with
    | none => exact h.reason
    | some text => exact hreason text rfl

/-- What settles a record. -/
structure Settles (T : B.Terms η γ) (state : TxnState) : Prop where
  stable : T.Stable state.stable
  reason : ∀ version text, state = .rolledBack version (some text) → B.Reason text

/-- The text of a settlement may be recorded. -/
theorem Settles.settledReason {state : TxnState} (h : T.Settles state) :
    B.Reason (Runner.settledReason state) := by
  unfold Runner.settledReason
  split
  · next text => exact h.reason _ text rfl
  · exact h.stable.settled _

section Call

variable {w : World η γ} (h : T.Allows w)
include h

/-- The state of the last transaction. -/
theorem transactionState_obeys :
    Obeys T.Fatal (T.Holds T.version) T.Settles Runner.transactionState := by
  refine readDisk_obeys (fun d state hd hstate => ⟨?_, fun v text heq => ?_⟩) fun d err hd he => ?_
  · obtain ⟨_, version, _, hversion, hstable, _⟩ := transactionState_ok hstate
    rw [hstable]
    cases version with
    | none => exact h.stable _ (.inr rfl)
    | some v => exact h.stable v (.inl (hd.version .stable v hversion))
  · subst heq
    obtain ⟨entries, _, hread, -⟩ := transactionState_ok hstate
    obtain ⟨last, hlast, -, hreason⟩ := transactionState_rolledBack hstate hread
    exact hd.last entries last text hread hlast hreason
  · rcases transactionState_error_cases he with hj | ⟨place, hv⟩ | rfl
    · exact hd.journal err hj
    · exact hd.slot place err hv
    · exact fatal_invalid (by decide)

/-- Recording a phase, with its reason. -/
theorem transition_obeys {op : Option Operation} (hop : Filed B op) (phase : OperationPhase)
    (outcome : Option Outcome) {reason : Option String}
    (hreason : ∀ text, reason = some text → B.Reason text) :
    Obeys T.Fatal (T.Holds V) (Filed B) (T.runner.transition op phase outcome reason) := by
  unfold Runner.transition
  cases op with
  | none => exact Obeys.pure nofun
  | some op =>
      refine Obeys.get_bind fun s _ => ?_
      have hrecord := record_advance (hop op rfl) (h.clock s.tick) phase outcome hreason
      refine (persistOperation_obeys h.faults hrecord).bind fun _ _ => Obeys.pure fun o heq => ?_
      cases heq
      exact hrecord

/-- A transition that gives no reason, or none but short words. -/
theorem transition_brief {op : Option Operation} (hop : Filed B op) (phase : OperationPhase)
    (outcome : Option Outcome) {reason : Option String}
    (hreason : nullableLength quoted reason ≤ 64) :
    Obeys B.Tells (T.Holds V) (Filed B) (T.runner.transition op phase outcome reason) :=
  told (transition_obeys h hop phase outcome fun text heq => by
    subst heq
    exact reason_brief hreason)

/-- Settlement. -/
theorem settle_obeys : Obeys B.Tells (T.Holds T.version) (fun _ => True) T.runner.settle := by
  unfold Runner.settle
  refine readRequired_obeys.bind fun previous hprevious => ?_
  cases previous with
  | none => exact Obeys.pure trivial
  | some op =>
      refine Obeys.ite (fun _ => Obeys.pure trivial) fun _ => ?_
      refine (told (transactionState_obeys h)).bind fun state hstate => ?_
      refine Obeys.ite (fun _ => ?_) fun _ => Obeys.ite (fun _ => ?_) fun _ => Obeys.pure trivial
      · exact (transition_brief h hprevious.1 _ _ (by decide)).bind fun _ _ => Obeys.pure trivial
      · refine (told (transition_obeys h hprevious.1 _ _ fun text heq => ?_)).bind fun _ _ =>
          Obeys.pure trivial
        cases heq
        exact hstate.settledReason

/-! ## recovery -/

/-- The recovery of a call. -/
theorem recoverEngine_obeys (c : Convergence (World η γ)) :
    Obeys B.Tells (OnWorld (T.Holds T.version)) (fun _ => True) (T.runner.recoverEngine c) := by
  have hspeaks := engine_speaks h (V := T.version) (fun _ => .inl) c
  unfold Runner.recoverEngine
  refine (lift_obeys readRequired_obeys).bind fun previous _ => ?_
  split
  · refine (told (lift_obeys (transactionState_obeys h))).bind fun state _ => ?_
    refine Obeys.ite (fun _ => Obeys.throw ?_) fun _ => told hspeaks.observeSettled
    exact tells_brief (Error.brief_invalid (by decide))
  · exact told hspeaks.recover

omit h in
/-- A receipt is replayed as it is. -/
theorem prior_obeys (expected : Expected) (recover : Bool) :
    Obeys B.Tells (T.Holds V) (fun _ => True) (T.runner.prior expected recover) := by
  intro s hs
  rw [Runner.prior_run]
  cases hanswer : Runner.priorAnswer T.runner.store.digest s.disk expected recover with
  | ok u => exact ⟨trivial, hs⟩
  | error err =>
      refine ⟨kind_some.mpr ?_, hs⟩
      rcases Runner.priorAnswer_error hanswer with
        ⟨reason, hread | hread, rfl⟩ | (rfl | rfl) | ⟨op, hfound, rfl, hop, -⟩
      · exact tells_invalid (hs.files.recordUnreadable reason hread).2
      · exact tells_invalid (hs.files.receiptUnreadable _ reason hread)
      · exact tells_brief (Error.brief_invalid (by decide))
      · exact tells_brief (Error.brief_invalid (by decide))
      · refine ⟨fun hown => absurd rfl (hown op), fun o heq => ?_⟩
        cases heq
        rcases hfound with hread | hread
        · exact ⟨hs.files.record op hread, hop.valid⟩
        · exact ⟨hs.files.receipt _ op hread, hop.valid⟩

omit h in
/-- A program of the engine, from the world. -/
theorem withEngine_obeys {α : Type} {p : Error → Prop} {q : α → Prop} {I : World η γ → Prop}
    {m : Prog Error (Running (World η γ)) α} (hm : Obeys p (OnWorld I) q m) :
    Obeys p I q (Runner.withEngine m) :=
  hm.zoom (fun _ hw => hw) fun _ _ _ hs => hs

omit h in
/-- What the budget of the host is refused with is short. -/
theorem checkBudget_obeys : Obeys B.Tells (T.Holds V) (fun _ => True)
    (Prog.ofExcept (Engine.checkBudget T.runner.hostBudgetMs) : Prog Error (World η γ) Unit) := by
  refine Obeys.ofExcept (fun _ _ => trivial) fun err he => ?_
  unfold Engine.checkBudget at he
  split at he
  · cases he
    exact tells_brief (Error.brief_invalid (by decide))
  · cases he

/-- **A recovery** under the lock. -/
theorem recoverLocked_obeys (expected : Option Expected) :
    Obeys B.Tells (T.Holds T.version) (fun _ => True) (T.runner.recoverLocked expected) := by
  have hcall : Obeys B.Tells (T.Holds T.version) (fun _ => True) (do
      let c ← T.runner.convergence
      Prog.ofExcept (Engine.checkBudget T.runner.hostBudgetMs)
      Runner.withEngine (do
        T.runner.recoverEngine c
        lift T.runner.settle)) := by
    refine (told convergence_obeys).bind fun c _ => checkBudget_obeys.bind fun _ _ => ?_
    refine withEngine_obeys ?_
    exact (recoverEngine_obeys h c).bind fun _ _ => lift_obeys (settle_obeys h)
  unfold Runner.recoverLocked
  refine readRequired_obeys.bind fun _ _ => ?_
  cases expected with
  | none => exact hcall
  | some e => exact (prior_obeys e true).bind fun _ _ => hcall

/-! ## the upgrade -/

/-- The notification is told, if at all. -/
theorem hold_obeys {targetVersion : String} (hup : T.Upgrades targetVersion)
    {op : Option Operation} (hop : Filed B op) {reason : String} (hreason : B.Reason reason)
    (kind : String) :
    Obeys B.Tells (T.Holds V) (fun _ => True) (T.runner.hold op reason kind) := by
  unfold Runner.hold
  refine (told (transition_obeys h hop _ _ fun text heq => ?_)).bind fun op' _ => ?_
  · cases heq
    exact hreason
  · exact (product_obeys (hup.notify _ _)).bind fun _ _ => Obeys.pure trivial

/-- What the lookup leaves to be installed is the target. -/
def Picks (targetVersion : String) (picked : Runner.Picked) : Prop :=
  ∀ release, picked = .release release → release.version = targetVersion

/-- The gates let the release through, or hold the operation with a reason. -/
theorem gates_obeys {targetVersion : String} (hup : T.Upgrades targetVersion)
    {op : Option Operation} (hop : Filed B op) (options : UpgradeOptions) (current : String)
    {release : Release} (hrelease : release.version = targetVersion) :
    Obeys B.Tells (T.Holds V) (Picks targetVersion)
      (T.runner.gates options op current release) := by
  have hheld : ∀ {reason : String}, B.Reason reason → ∀ kind, Obeys B.Tells (T.Holds V)
      (Picks targetVersion) (do
        let outcome ← T.runner.hold op reason kind
        pure (.finished outcome)) := fun hreason kind =>
    (hold_obeys h hup hop hreason kind).bind fun _ _ => Obeys.pure nofun
  unfold Runner.gates
  refine Obeys.ite (fun _ => hheld (reason_brief (by decide)) _) fun _ => ?_
  refine Obeys.ite (fun _ => hheld (reason_brief (by decide)) _) fun _ => ?_
  rw [hrelease]
  refine (product_obeys (hup.compatibility current)).bind fun refusal hrefusal => ?_
  cases refusal with
  | some reason => exact hheld (hrefusal reason rfl) _
  | none =>
      refine Obeys.pure fun release' heq => ?_
      cases heq
      exact hrelease

/-- Looking the release up. -/
theorem pick_obeys (hupgrade : T.request.isUpgrade = true) {targetVersion : String}
    (hup : T.Upgrades targetVersion) {op : Option Operation} (hop : Filed B op)
    (options : UpgradeOptions) (current : String) :
    Obeys B.Tells (T.Holds V) (Picks targetVersion)
      (T.runner.pick (some targetVersion) options op current) := by
  have hlookup : Obeys T.Fatal (T.Holds V) (fun _ => True)
      (T.runner.lookup (some targetVersion) ⟨current, T.runner.platformKey⟩) := by
    unfold Runner.lookup Runner.ask
    refine Obeys.bind (r := fun _ => True) ?_ fun _ _ => Obeys.pure trivial
    exact (note_obeys _).bind fun _ _ => product_obeys (hup.fetch _)
  have hfailed : ∀ {reason : String} {err : Error}, B.Reason reason → B.Tells err →
      Obeys B.Tells (T.Holds V) (Picks targetVersion) (do
        let _ ← T.runner.transition op .failed (some .failed) (some reason)
        Prog.throw err) := by
    intro reason err hreason herr
    refine (told (transition_obeys h hop _ _ fun text heq => ?_)).bind fun _ _ => Obeys.throw herr
    cases heq
    exact hreason
  unfold Runner.pick
  refine (Obeys.attempt hlookup).bind fun reply hreply => ?_
  rcases reply with err | _ | release
  · have herr : T.Fatal err := hreply.2 err rfl
    refine Obeys.ite (fun _ => ?_) fun _ => hfailed (herr.reason hupgrade) herr.toTells
    exact (hold_obeys h hup hop (reason_brief (by decide)) _).bind fun _ _ => Obeys.pure nofun
  · exact (transition_brief h hop _ _ (by decide)).bind fun _ _ => Obeys.pure nofun
  · refine Obeys.ite (fun _ => ?_) fun hmatch => ?_
    · exact hfailed (reason_brief (by decide)) (tells_brief (Error.brief_invalid (by decide)))
    · exact gates_obeys h hup hop options current (by simpa using hmatch)

/-- What goes wrong with a candidate is recorded. -/
theorem bringIn_obeys (hupgrade : T.request.isUpgrade = true) {targetVersion : String}
    (hup : T.Upgrades targetVersion) {op : Option Operation} (hop : Filed B op)
    (options : UpgradeOptions) (release : Release) :
    Obeys B.Tells (T.Holds V) (Filed B) (T.runner.bringIn options op release) := by
  have hprogress : ∀ {op : Option Operation}, Filed B op → ∀ phase,
      Obeys B.Tells (T.Holds V) (Filed B) (T.runner.transition op phase none none) :=
    fun hop phase => transition_brief h hop phase none (by decide)
  have hdownload : Obeys B.Tells (T.Holds V) (fun _ => True)
      (Runner.ask "download" (T.runner.downloader release)) := by
    unfold Runner.ask
    exact (note_obeys _).bind fun _ _ => product_obeys (hup.downloader release)
  have hprepare : Obeys T.Fatal (T.Holds V) (fun _ => True) (T.runner.prepare release) := by
    unfold Runner.prepare
    refine (product_obeys (hup.prepareCandidate _ _)).bind fun reply _ => ?_
    cases reply with
    | some u => exact Obeys.pure trivial
    | none => exact Obeys.throw (fatal_invalid (by decide))
  unfold Runner.bringIn
  refine (hprogress hop _).bind fun op₁ hop₁ => hdownload.bind fun bytes _ => ?_
  refine (hprogress hop₁ _).bind fun op₂ hop₂ => (hprogress hop₂ _).bind fun op₃ hop₃ => ?_
  refine (told (write_obeys h.faults _ fun d hd => ?_)).bind fun _ _ => ?_
  · exact { hd with incoming := nofun }
  · refine (Obeys.attempt hprepare).bind fun reply hreply => ?_
    cases reply with
    | error err =>
        have herr : T.Fatal err := hreply.2 err rfl
        refine (told (transition_obeys h hop₃ _ _ fun text heq => ?_)).bind fun _ _ =>
          Obeys.throw herr.toTells
        cases heq
        exact herr.reason hupgrade
    | ok u =>
        refine Obeys.ite (fun _ => Obeys.get_bind fun s _ => ?_) fun _ => hprogress hop₃ _
        exact (appendProvenance_obeys h.faults _ _ _ _).bind fun _ _ => hprogress hop₃ _

/-- The outcome is recorded with its reason. -/
theorem conclude_obeys {targetVersion : String} (hup : T.Upgrades targetVersion)
    (c : Convergence (World η γ)) {op : Option Operation} (hop : Filed B op)
    {outcome : EngineOutcome} (houtcome : Speaks.Reasoned B.Reason outcome) :
    Obeys B.Tells (T.Holds V) (fun _ => True) (T.runner.conclude c op outcome) := by
  unfold Runner.conclude
  cases outcome with
  | promoted version =>
      refine Obeys.get_bind fun s _ => ?_
      refine (product_obeys (hup.notify _ _)).bind fun _ _ => ?_
      refine (told (write_obeys h.faults _ fun d hd => ?_)).bind fun _ _ => ?_
      · exact { hd with }
      · exact (transition_brief h hop _ _ (by decide)).bind fun _ _ => Obeys.pure trivial
  | rolledBack reason =>
      refine (product_obeys (hup.notify _ _)).bind fun _ _ => ?_
      refine (told (transition_obeys h hop _ _ fun text heq => ?_)).bind fun _ _ =>
        Obeys.pure trivial
      cases heq
      exact houtcome reason rfl
  | upToDate => exact (transition_brief h hop _ _ (by decide)).bind fun _ _ => Obeys.pure trivial

/-- What the engine fails with is recorded, too. -/
theorem carryOut_obeys {v : Nat} {id targetVersion : String} {consented : Bool}
    (hrequest : T.request = .upgrade v id targetVersion consented)
    {c : Convergence (World η γ)} (hreads : T.Reads c)
    {op : Option Operation} (hop : Filed B op) {release : Release}
    (hrelease : release.version = targetVersion) :
    Obeys B.Tells (OnWorld (T.Holds T.Found)) (fun _ => True)
      (T.runner.carryOut c op release) := by
  have hup := h.upgrades v id targetVersion consented hrequest
  have hquotes := engine_quotes h hrequest hreads
  unfold Runner.carryOut
  rw [hrelease]
  refine (Obeys.attempt hquotes.upgrade).bind fun reply hreply => ?_
  cases reply with
  | ok outcome =>
      refine (lift_obeys (note_obeys _)).bind fun _ _ => ?_
      exact lift_obeys (conclude_obeys h hup c hop (hreply.1 outcome rfl))
  | error err =>
      have herr : T.Fatal err := hreply.2 err rfl
      refine (lift_obeys (told (transition_obeys h hop _ _ fun text heq => ?_))).bind fun _ _ =>
        Obeys.throw herr.toTells
      cases heq
      exact herr.reason (by rw [hrequest]; rfl)

/-- A record is opened on a version that was found. -/
theorem openOperation_obeys {v : Nat} {id targetVersion : String} {consented : Bool}
    (hrequest : T.request = .upgrade v id targetVersion consented) {started : Nat}
    (hstarted : started < 2 ^ 64) :
    Obeys B.Tells (T.Holds T.version) (fun opened => Filed B opened.1)
      (T.runner.openOperation (some targetVersion)
        (Runner.requestOptions id consented started)) := by
  have hretire : ∀ desc {previous : Operation}, previous.validate = .ok () → B.Record previous →
      Obeys B.Tells (T.Holds T.version) (fun _ => True) (T.runner.retirePrevious desc previous) := by
    intro desc previous hvalid hprevious
    unfold Runner.retirePrevious
    refine Obeys.ite (fun _ => Obeys.throw ⟨fun hown => ?_, fun o heq => ?_⟩) fun _ => ?_
    · exact absurd rfl (hown previous)
    · cases heq
      exact ⟨hprevious, hvalid⟩
    · refine Obeys.ite (fun _ => ?_) fun _ => Obeys.pure trivial
      refine Obeys.ite (fun _ => Obeys.throw ?_) fun _ => archive_obeys h.faults hprevious
      exact tells_brief (Error.brief_invalid (by decide))
  have hopened : ∀ desc, (Runner.requestOptions id consented started).operation = some desc →
      Obeys B.Tells (T.Holds T.version) (fun opened => Filed B opened.1) (do
        let state ← Runner.transactionState
        let s ← Prog.get
        let op := Runner.newOperation desc (Runner.requestOptions id consented started)
          (some targetVersion) state.stable (T.runner.clock s.tick)
        T.runner.store.persistOperation op
        pure (some op, state.stable)) := by
    intro desc hdesc
    refine (told (transactionState_obeys h)).bind fun state hstate => Obeys.get_bind fun s _ => ?_
    have hop : B.Record (Runner.newOperation desc (Runner.requestOptions id consented started)
        (some targetVersion) state.stable (T.runner.clock s.tick)) := by
      have hroom := B.reason_le
      refine ⟨?_, hstate.stable.opened v id targetVersion consented desc started _ hrequest
        hstarted hdesc, show 4 ≤ B.reason by omega⟩
      cases hdesc
      exact ⟨show 1 < 2 ^ 32 by omega, hstarted, h.clock s.tick, List.nodup_nil⟩
    refine (told (persistOperation_obeys h.faults hop)).bind fun _ _ => Obeys.pure fun o heq => ?_
    cases heq
    exact hop
  unfold Runner.openOperation
  refine readRequired_obeys.bind fun previous hprevious => ?_
  cases previous with
  | none => exact hopened _ rfl
  | some previous =>
      have hrecord := hprevious.1 previous rfl
      have hvalid := hprevious.2 previous rfl
      exact (hretire _ hvalid hrecord).bind fun _ _ => hopened _ rfl

/-- **The drive** of an upgrade. -/
theorem driveEngine_obeys {v : Nat} {id targetVersion : String} {consented : Bool}
    (hrequest : T.request = .upgrade v id targetVersion consented) {started : Nat}
    (hstarted : started < 2 ^ 64) {c : Convergence (World η γ)} (hreads : T.Reads c) :
    Triple (OnWorld (T.Holds T.version))
      (T.runner.driveEngine c (some targetVersion) (Runner.requestOptions id consented started))
      (fun _ s => True ∧ OnWorld (T.Holds T.Found) s)
      (fun e s => Kind B.Tells e ∧ OnWorld (T.Holds T.Found) s) := by
  have hupgrade : T.request.isUpgrade = true := by
    rw [hrequest]
    rfl
  have hup := h.upgrades v id targetVersion consented hrequest
  have hloose : ∀ s, OnWorld (T.Holds T.version) s → OnWorld (T.Holds T.Found) s :=
    fun s hs => hs.loose
  unfold Runner.driveEngine
  refine (recoverEngine_obeys h c).bind_into hloose fun _ _ => ?_
  refine (lift_obeys (settle_obeys h)).bind_into hloose fun _ _ => ?_
  refine (lift_obeys (openOperation_obeys h hrequest hstarted)).bind_into hloose fun opened hop => ?_
  refine Triple.pre ?_ hloose
  refine Obeys.bind (lift_obeys (pick_obeys h hupgrade hup hop _ _)) fun picked hpicked => ?_
  cases picked with
  | finished outcome => exact Obeys.pure trivial
  | release release =>
      have hrelease := hpicked release rfl
      refine Obeys.bind (lift_obeys (bringIn_obeys h hupgrade hup hop _ release)) fun op hop' => ?_
      exact carryOut_obeys h hrequest hreads hop' hrelease

omit h in
/-- A cut-off call tells what it may, and what it keeps is kept. -/
def Cut (T : B.Terms η γ) (e : Option Error) (s : World η γ) : Prop :=
  Kind B.Tells e ∧ T.Holds T.Found s

/-- **An upgrade** under the lock. -/
theorem driveLocked_triple {v : Nat} {id targetVersion : String} {consented : Bool}
    (hrequest : T.request = .upgrade v id targetVersion consented) {started : Nat}
    (hstarted : started < 2 ^ 64) :
    Triple (T.Holds T.version) (T.runner.driveLocked (some targetVersion)
      (Runner.requestOptions id consented started))
      (fun _ s => True ∧ T.Holds T.Found s) T.Cut := by
  have hloose : ∀ s, T.Holds T.version s → T.Holds T.Found s := fun s hs => hs.loose
  unfold Runner.driveLocked
  refine readRequired_obeys.bind_into hloose fun _ _ => ?_
  refine (prior_obeys _ false).bind_into hloose fun _ _ => ?_
  refine (told convergence_obeys).bind_into hloose fun c hreads => ?_
  refine checkBudget_obeys.bind_into hloose fun _ _ => ?_
  exact Runner.withEngine_triple (driveEngine_obeys h hrequest hstarted hreads)

/-! ## the lock -/

/-- Taking the lock, or being told who has it. -/
theorem acquire_triple : Triple (· = w) T.runner.acquire (fun _ => T.Holds T.version)
    (fun e s => Kind B.Tells e ∧ T.Holds T.version s) := by
  let Found : World η γ → Prop := fun s => s.lock = w.lock ∧ T.Holds T.version s
  have hfound : ∀ s, s = w → Found s := by
    rintro s rfl
    exact ⟨rfl, h.files, h.host, h.product⟩
  have hboundary : Triple Found (T.runner.store.boundary "acquire") (fun _ => Found)
      (fun e s => Kind B.Tells e ∧ Found s) :=
    ((FileStore.boundary_raises h.faults _).and ((FileStore.boundary_triple (fun _ => trivial)
      (fun s n hs => ⟨hs.1, holds_off_tick s n hs.2⟩) _).crash fun _ hs => hs.1)).conseq
        (fun _ hs => hs) (fun _ _ hs => hs)
        fun _ _ hs => ⟨fun err he => (hs.1 err he).toTells, hs.2⟩
  unfold Runner.acquire
  refine Triple.bind ((hboundary.pre hfound).conseq (fun _ hs => hs) (fun _ _ hs => hs)
    fun _ _ hs => ⟨hs.1, hs.2.2⟩) fun _ => Triple.get_bind fun s hs => ?_
  cases hlock : s.lock with
  | free => exact Triple.modify fun s' hs' => by rw [hs']; exact ⟨hs.2.files, hs.2.host, hs.2.product⟩
  | held pid =>
      have htells := h.lock pid (hs.1.symm.trans hlock)
      exact Triple.throw fun s' hs' => ⟨kind_some.mpr htells, by rw [hs']; exact hs.2⟩
  | unreadable =>
      have htells : B.Tells (.invalid "UPGRADE_LOCK_UNREADABLE") :=
        tells_brief (Error.brief_invalid (by decide))
      exact Triple.throw fun s' hs' => ⟨kind_some.mpr htells, by rw [hs']; exact hs.2⟩

/-- Giving the lock back. -/
theorem release_obeys : Obeys B.Tells (T.Holds V) (fun _ => True) T.runner.release := by
  have hunlock : Obeys B.Tells (T.Holds V) (fun _ => True) T.runner.unlock := by
    unfold Runner.unlock
    refine (told (boundary_obeys h.faults _)).bind fun _ _ => ?_
    exact Obeys.modify fun s hs => ⟨hs.files, hs.host, hs.product⟩
  unfold Runner.release
  refine (Obeys.attempt hunlock).bind fun reply hreply => ?_
  cases reply with
  | ok u => exact Obeys.pure trivial
  | error err =>
      refine (Obeys.attempt hunlock).bind (q := fun _ => True) fun _ _ => ?_
      exact Obeys.throw (hreply.2 err rfl)

/-- **Under the lock**, from the world the call comes to. -/
theorem locked_triple {α : Type} {body : Prog Error (World η γ) α}
    (hbody : Triple (T.Holds T.version) body (fun _ s => True ∧ T.Holds T.Found s) T.Cut) :
    Triple (· = w) (T.runner.locked body) (fun _ s => True ∧ T.Holds T.Found s) T.Cut := by
  unfold Runner.locked
  refine Triple.bind ((acquire_triple h).conseq (fun _ hs => hs) (fun _ _ hs => hs)
    fun _ _ hs => ⟨hs.1, hs.2.loose⟩) fun _ => ?_
  have hreply : Triple (T.Holds T.version) (Prog.attempt body)
      (fun reply s => (∀ err, reply = .error err → B.Tells err) ∧ T.Holds T.Found s)
      T.Cut := by
    refine Triple.attempt (hbody.conseq (fun _ hs => hs) (fun _ _ hs => ⟨nofun, hs.2⟩) ?_)
    rintro (_ | err) s hs
    · exact hs
    · refine ⟨fun err' heq => ?_, hs.2⟩
      cases heq
      exact kind_some.mp hs.1
  refine Triple.bind hreply fun reply => Triple.assume fun herr => ?_
  cases reply with
  | ok a => exact Obeys.bind (release_obeys h) fun _ _ => Obeys.pure trivial
  | error err =>
      have htells : B.Tells err := herr err rfl
      refine Obeys.ite (fun _ => Obeys.throw htells) fun _ => ?_
      exact Obeys.bind (release_obeys h) fun _ _ => Obeys.throw htells

/-! ## the call -/

/-- **A request** tells what it may. -/
theorem perform_triple : Triple (· = w) (T.runner.perform T.request)
    (fun _ s => True ∧ T.Holds T.Found s) T.Cut := by
  have hstart : T.Holds T.version w := ⟨h.files, h.host, h.product⟩
  have hloose : ∀ s, T.Holds T.version s → T.Holds T.Found s := fun s hs => hs.loose
  cases hrequest : T.request with
  | status v => exact Triple.pure fun s hs => ⟨trivial, by rw [hs]; exact hstart.loose⟩
  | recover v expected =>
      have hrecover := locked_triple h ((recoverLocked_obeys h expected).into hloose)
      exact Triple.bind hrecover fun _ => Triple.pure fun _ hs => hs
  | upgrade v id targetVersion consented =>
      have hup := h.upgrades v id targetVersion consented hrequest
      have hlocked := locked_triple h (driveLocked_triple h hrequest (h.clock w.tick))
      unfold Runner.perform Runner.upgradeTo Runner.drive
      refine Triple.get_bind fun s hs => ?_
      subst hs
      refine Triple.bind (R := fun _ s => True ∧ T.Holds T.Found s) ?_ fun _ =>
        Triple.pure fun _ hs => hs
      refine Triple.get_bind fun s' hs' => ?_
      subst hs'
      refine Triple.ite (fun _ => ?_) fun _ => hlocked
      refine Triple.pre (P := T.Holds T.Found) ?_ fun s hs => by rw [hs]; exact hstart.loose
      exact Obeys.bind (product_obeys (hup.notify _ _)) fun _ _ => Obeys.pure trivial

end Call

end Terms

end Budget

end KCarrier
