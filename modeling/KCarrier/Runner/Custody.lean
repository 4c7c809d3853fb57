import KCarrier.Runner.Failures
import KCarrier.Runner.Journaled

/-!
# KCarrier.Runner.Custody

What a call keeps of the directory, by the steps that matter to it.

A call comes to the slots and the journal in three places: the recovery of its engine, the
upgrade of its engine, and the removal at the end of a rollback.  Before the upgrade it brings
its candidate in.  `Custody` asks what each of these does to `P`; the books that are kept
beside them are not what `P` is about (`OffFetch`).  From the candidate to the upgrade `Ready`
holds of the release that was let through.
-/

namespace KCarrier

open Crash
open Running

variable {η γ : Type}

namespace Runner

variable {r : Runner η γ} {c : Convergence (World η γ)} {P : World η γ → Prop}
  {Ready : Release → World η γ → Prop}

/-- What a drive has fetched: an outcome without its engine, or a candidate that is ready. -/
def Brought (P : World η γ → Prop) (Ready : Release → World η γ → Prop) :
    Fetched → World η γ → Prop
  | .inl _ => P
  | .inr (_, release) => Ready release

/-- What has to be shown about a call from `w` to keep `P`. -/
structure Custody (r : Runner η γ) (call : Call) (w : World η γ) (P : World η γ → Prop)
    (Ready : Release → World η γ → Prop) : Prop where
  off : OffLock P
  fetch : OffFetch P
  observed : ∀ w o, P w → P { w with observed := o }
  report : ∀ w file, P w → P { w with disk := { w.disk with report := file } }
  recover : ∀ c, ReadsProduct c → Keeps (OnWorld P) (r.engine c).recover
  clear : Keeps P r.store.clear
  candidate : ∀ target options, r.driven w call = some (target, options) →
    r.hooks.managedElsewhere w.product = false → ∀ operation current,
    Triple (fun w' => r.opening target options w = (.ok (operation, current), w') ∧ P w')
      (r.pick target options operation current >>= r.admitted options operation)
      (Brought P Ready) (fun _ => P)
  install : ∀ c release, ReadsProduct c → Triple (OnWorld (Ready release))
    ((r.engine c).upgrade release.version incomingPath) (fun _ => OnWorld P) (fun _ => OnWorld P)

namespace Custody

variable {call : Call} {w : World η γ}

/-- A durable step on the report. -/
theorem persistReport (h : Custody r call w P Ready) (report : ConvergenceReport) :
    Keeps P (r.store.persistReport report) := by
  have hboundary : ∀ label, Keeps P (r.store.boundary label) := fun label =>
    (FileStore.boundary_triple (fun _ => trivial : _ → True) h.fetch.receipts.tick label).crash
      fun _ hw => hw.1
  exact Triple.bind (hboundary _) fun _ => Triple.bind (R := fun _ => P)
    (Triple.modify fun w hw => h.report w _ hw) fun _ => hboundary _

theorem conclude (h : Custody r call w P Ready) (c : Convergence (World η γ))
    (op : Option Operation) (outcome : EngineOutcome) : Keeps P (r.conclude c op outcome) := by
  unfold Runner.conclude
  cases outcome with
  | promoted version =>
      refine Triple.get_bind fun w hw => Triple.pre (P := P) ?_ fun w' h => by rw [h]; exact hw
      refine Triple.bind (h.fetch.asked _) fun _ => Triple.bind (h.persistReport _) fun _ => ?_
      exact Triple.bind (h.fetch.transition op _ _ _) fun _ => Triple.pure fun _ hw => hw
  | rolledBack reason =>
      refine Triple.bind (h.fetch.asked _) fun _ => ?_
      exact Triple.bind (h.fetch.transition op _ _ _) fun _ => Triple.pure fun _ hw => hw
  | upToDate =>
      exact Triple.bind (h.fetch.transition op _ _ _) fun _ => Triple.pure fun _ hw => hw

/-- From the candidate to the outcome. -/
theorem install_keeps (h : Custody r call w P Ready) (hc : ReadsProduct c) (fetched : Fetched) :
    Triple (OnWorld (Brought P Ready fetched)) (r.install c fetched) (fun _ => OnWorld P)
      (fun _ => OnWorld P) := by
  cases fetched with
  | inl outcome => exact Triple.pure fun _ hs => hs
  | inr found =>
      unfold Runner.install carryOut
      have hreply : Triple (OnWorld (Ready found.2))
          (Prog.attempt ((r.engine c).upgrade found.2.version incomingPath))
          (fun _ => OnWorld P) (fun _ => OnWorld P) :=
        Triple.attempt ((h.install c found.2 hc).conseq (fun _ hs => hs) (fun _ _ hs => hs)
          fun e _ hs => by cases e <;> exact hs)
      refine Triple.bind hreply fun reply => ?_
      cases reply with
      | ok outcome =>
          exact Triple.bind (Keeps.lift (h.fetch.noted rfl)) fun _ =>
            Keeps.lift (h.conclude c found.1 outcome)
      | error e =>
          exact Triple.bind (Keeps.lift (h.fetch.transition _ _ _ _)) fun _ =>
            Triple.throw fun _ hs => hs

/-- A drive whose checks came to `w₁`, from its recovery to its outcome. -/
theorem driveEngine (h : Custody r call w P Ready) (hc : ReadsProduct c)
    {target : Option String} {options : UpgradeOptions}
    (hdriven : r.driven w call = some (target, options))
    (hmanaged : r.hooks.managedElsewhere w.product = false) {w₁ : World η γ}
    (hchecked : (r.acquire >>= fun _ => r.checked target options pure) w = (.ok c, w₁))
    (hw₁ : P w₁) : Triple (fun s => s = ⟨w₁, 0⟩) (r.driveEngine c target options)
      (fun _ => OnWorld P) (fun _ => OnWorld P) := by
  let Opened (opened : Option Operation × String) (w' : World η γ) : Prop :=
    r.opening target options w = (.ok opened, w') ∧ P w'
  have hopening : Triple (fun s => s = ⟨w₁, 0⟩) (do
      r.recoverEngine c
      lift r.settle
      lift (r.openOperation target options)) (fun opened => OnWorld (Opened opened))
      (fun _ => OnWorld P) := by
    have hkeeps : Keeps (OnWorld P) (do
        r.recoverEngine c
        lift r.settle
        lift (r.openOperation target options)) :=
      Triple.bind (recoverEngine_of_recover (fun _ hw => hw) ((h.recover c hc).pre fun _ hs => hs.1)) fun _ =>
        Triple.bind (Keeps.lift h.fetch.settle) fun _ =>
          Keeps.lift (h.fetch.openOperation target options)
    have hfrom : OnWorld P ⟨w₁, 0⟩ := hw₁
    refine (hkeeps.exact hfrom).conseq (fun _ hs => hs) (fun opened s hs => ⟨?_, hs.2⟩)
      fun _ _ hs => hs.2
    have hengine : withEngine (do
        r.recoverEngine c
        lift r.settle
        lift (r.openOperation target options)) w₁ = (.ok opened, s.world) := by
      unfold withEngine Prog.zoom
      simp only [hs.1]
    unfold opening
    rw [← Prog.bind_assoc, Prog.bind_run_ok hchecked]
    exact hengine
  have hcandidate : ∀ opened, Triple (OnWorld (Opened opened))
      (lift (r.pick target options opened.1 opened.2 >>= r.admitted options opened.1))
      (fun fetched => OnWorld (Brought P Ready fetched)) (fun _ => OnWorld P) := fun opened =>
    Confined.lift (h.candidate target options hdriven hmanaged opened.1 opened.2)
  rw [driveEngine_eq_fetched]
  unfold fetched
  exact Triple.bind (Triple.bind hopening hcandidate) (h.install_keeps hc)

/-- A drive from `w`, with its lock. -/
theorem drive_keeps (h : Custody r call w P Ready) {target : Option String}
    {options : UpgradeOptions} (hdriven : r.driven w call = some (target, options))
    (hmanaged : r.hooks.managedElsewhere w.product = false) (hw : P w) :
    Triple (· = w) (r.locked (r.driveLocked target options)) (fun _ => P) (fun _ => P) := by
  have hany : r.LockErrors fun _ => True := ⟨fun _ _ _ _ => trivial, trivial, fun _ => trivial⟩
  have hacquire : Triple (· = w) r.acquire (fun _ w' => r.acquire w = (.ok (), w') ∧ P w')
      (fun _ => P) :=
    ((acquire_keeps h.off).exact hw).conseq (fun _ hw' => hw') (fun _ _ hw' => hw')
      fun _ _ hw' => hw'.2
  have hchecked : Triple P (r.checked target options pure) (fun c w' => ReadsProduct c ∧ P w')
      (fun _ => P) := checked_keeps target options h.observed
  refine locked_of_acquire hany (fun _ => h.off) (fun _ => h.off) (fun _ _ _ _ hw => hw)
    (fun _ _ _ _ hw => hw) hacquire ?_
  show Triple _ (r.checked target options fun c =>
    withEngine (r.driveEngine c target options)) _ _
  rw [checked_bind]
  refine Triple.bind (Triple.after (f := fun _ => r.checked target options pure) hchecked)
    fun c => Triple.of_forall fun w₁ hw₁ => ?_
  obtain ⟨hrun, hc, hw₁⟩ := hw₁
  refine Triple.zoom fun w' hw' => ?_
  subst hw'
  exact h.driveEngine hc hdriven hmanaged hrun hw₁ _ rfl

/-- **A call** keeps `P`, whatever its entry point and wherever it is cut off. -/
theorem call_keeps (h : Custody r call w P Ready) :
    Triple (fun w' => w' = w ∧ P w') (r.call call) (fun _ => P) (fun _ => P) := by
  rintro _ ⟨rfl, hw⟩
  refine call_exact hw (fun _ => ?_) (fun target options hdriven => ?_) (fun reason _ => ?_) _ rfl
  · refine (locked_keeps h.off ?_).pre fun w' h => by rw [h]; exact hw
    refine recoverLocked_within call.expected h.observed (fun _ _ hw => hw) fun c hc => ?_
    have hrecovered := recoverEngine_of_recover (fun _ hw => hw)
      ((h.recover c hc).pre fun _ hs => hs.1)
    exact Triple.bind hrecovered fun _ => Keeps.lift h.fetch.settle
  · unfold drive
    refine Triple.get_bind fun w' hw' => ?_
    subst hw'
    cases hmanaged : r.hooks.managedElsewhere w'.product with
    | true =>
        refine Triple.pre (P := P) ?_ fun w'' h => by rw [h]; exact hw
        exact Triple.bind (h.fetch.asked _) fun _ => Triple.pure fun _ hw => hw
    | false => exact h.drive_keeps hdriven hmanaged hw
  · refine (locked_keeps h.off ?_).pre fun w' h => by rw [h]; exact hw
    exact rollbackLocked_keeps reason h.observed h.recover h.clear fun _ _ => h.fetch.asked _

end Custody

/-! ## bringing a candidate in -/

/-- Whatever `m` returns is of the kind `p`. -/
def Yields {σ α : Type} (p : α → Prop) (m : Prog Error σ α) : Prop :=
  Triple (fun _ => True) m (fun a _ => p a) (fun _ _ => True)

theorem Yields.zoom {σ τ α : Type} {p : α → Prop} {m : Prog Error σ α} {get : τ → σ}
    {set : σ → τ → τ} (h : Yields p m) : Yields p (Prog.zoom get set m) :=
  Triple.zoom fun t _ => (h (get t) trivial).mono (fun _ _ ha => ha) fun _ _ _ => trivial

/-- What the lookup of a drive to `target` finds, from a world of `R`, is offered. -/
def Offers (r : Runner η γ) (Offer : Release → Prop) (R : World η γ → Prop)
    (target : Option String) (current : String) : Prop :=
  Triple R (r.lookup target ⟨current, r.platformKey⟩)
    (fun found _ => ∀ release, found = some release → Offer release) (fun _ _ => True)

theorem offers_any {R : World η γ → Prop} {target : Option String} {current : String} :
    r.Offers (fun _ => True) R target current :=
  Triple.any.conseq (fun _ _ => trivial) (fun _ _ _ _ _ => trivial) fun _ _ _ => trivial

/-- The release that was picked, if there is one, was offered, and may be installed: with
consent, or under a policy that asks for none. -/
def Admits (r : Runner η γ) (Offer : Release → Prop) (consented : Bool) : Picked → Prop
  | .finished _ => True
  | .release release => Offer release ∧ (consented = true ∨ r.policy = .auto)

/-- **The lookup and its gates** let through nothing else. -/
theorem pick_offers {Offer : Release → Prop} {R : World η γ → Prop} {target : Option String}
    {current : String} (hoffers : r.Offers Offer R target current) (options : UpgradeOptions)
    (operation : Option Operation) :
    Triple R (r.pick target options operation current)
      (fun picked _ => r.Admits Offer options.consented picked) (fun _ _ => True) := by
  have hfinished : ∀ {α : Type} {m : Prog Error (World η γ) α} (f : α → UpgradeOutcome),
      Yields (r.Admits Offer options.consented) (m >>= fun a => pure (.finished (f a))) :=
    fun f => Triple.bind Triple.any fun _ => Triple.pure fun _ _ => trivial
  have hfails : ∀ {α : Type} {m : Prog Error (World η γ) α} {e : Error},
      Yields (r.Admits Offer options.consented) (m >>= fun _ => Prog.throw e) := fun {_ _ _} =>
    Triple.bind Triple.any fun _ => Triple.throw fun _ _ => trivial
  have hgates : ∀ release, Offer release →
      Yields (r.Admits Offer options.consented) (r.gates options operation current release) := by
    intro release hrelease
    unfold gates
    refine Triple.ite (fun _ => hfinished id) fun hnotify => ?_
    refine Triple.ite (fun _ => hfinished id) fun hconfirm => ?_
    refine Triple.bind Triple.any fun refusal => ?_
    cases refusal with
    | some reason => exact hfinished id
    | none =>
        refine Triple.pure fun _ _ => ⟨hrelease, ?_⟩
        cases hconsented : options.consented with
        | true => exact .inl rfl
        | false =>
            cases hpolicy : r.policy with
            | auto => exact .inr rfl
            | confirm => simp [hconsented, hpolicy] at hconfirm
            | notifyOnly => simp [hconsented, hpolicy] at hnotify
  unfold pick
  refine Triple.bind (R := fun reply _ => ∀ release, reply = .ok (some release) → Offer release)
    ?_ fun reply => ?_
  · refine Triple.attempt (Triple.conseq hoffers (fun _ h => h) (fun _ _ h release heq => ?_)
      fun e _ _ => ?_)
    · cases heq
      exact h release rfl
    · cases e with
      | none => trivial
      | some e => exact fun _ heq => by cases heq
  · cases reply with
    | error e =>
        exact (Triple.ite (fun _ => hfinished id) fun _ => hfails).pre fun _ _ => trivial
    | ok found =>
        cases found with
        | none => exact (hfinished fun _ => .upToDate).pre fun _ _ => trivial
        | some release =>
            refine Triple.ite (fun _ => hfails.pre fun _ _ => trivial) fun _ => ?_
            exact fun w hw => hgates release (hw release rfl) w trivial

/-- What has to be shown about the way of `release` into the directory: `Q` holds once its bytes
were written, `S` once its provenance was. -/
structure Brings (r : Runner η γ) (release : Release) (P Q S : World η γ → Prop) : Prop where
  fetch : OffFetch P
  download : ∃ p, Yields p (r.downloader release) ∧
    ∀ w bytes, p bytes → P w → Q { w with disk := { w.disk with incoming := .content bytes } }
  tick : OffTick Q
  product : ∀ w p, Q w → Q { w with product := p }
  record : ∀ w op, Q w → Q (w.record op)
  back : ∀ w, Q w → P w
  provenance : r.provenanceEnabled = true → ∀ identity now,
    Triple Q (r.store.appendProvenanceAt identity release.version none now) (fun _ => S)
      (fun _ => P)
  unproven : r.provenanceEnabled = false → ∀ w, Q w → S w
  readyTick : OffTick S
  readyRecord : ∀ w op, S w → S (w.record op)
  readyBack : ∀ w, S w → P w

/-- **Bringing a candidate in**, up to the last step before the engine. -/
theorem Brings.bringIn {release : Release} {P Q S : World η γ → Prop} (h : Brings r release P Q S)
    (options : UpgradeOptions) (op : Option Operation) :
    Triple P (r.bringIn options op release) (fun _ => S) (fun _ => P) := by
  obtain ⟨p, hyields, hincoming⟩ := h.download
  have hdownload : Triple P (ask "download" (r.downloader release) : Prog Error (World η γ) Bytes)
      (fun bytes w => p bytes ∧ P w) (fun _ => P) :=
    (Triple.and (h.fetch.ask "download" _) (Triple.bind Triple.any fun _ => hyields.zoom)).conseq
      (fun _ hw => ⟨hw, trivial⟩) (fun _ _ hw => ⟨hw.2, hw.1⟩) fun _ _ hw => hw.1
  have hwrite : ∀ bytes, p bytes → Triple P (r.store.write "incoming" fun disk =>
      { disk with incoming := .content bytes }) (fun _ => Q) (fun _ => P) := by
    intro bytes hbytes
    have hboundary : ∀ {E : World η γ → Prop}, OffTick E → ∀ label,
        Keeps E (r.store.boundary label) := fun hE label =>
      (FileStore.boundary_triple (fun _ => trivial : _ → True) hE label).crash fun _ hw => hw.1
    refine Triple.bind (hboundary h.fetch.receipts.tick _) fun _ => ?_
    refine Triple.bind (R := fun _ => Q) (Triple.modify fun w hw => hincoming w bytes hbytes hw)
      fun _ => (hboundary h.tick _).crash h.back
  have hprepare : Keeps Q (r.prepare release) := by
    unfold prepare
    refine Triple.bind (product_keeps h.product _) fun reply => ?_
    cases reply with
    | none => exact Triple.throw fun _ hw => hw
    | some u => exact Triple.pure fun _ hw => hw
  unfold Runner.bringIn
  refine Triple.bind (h.fetch.transition op _ _ _) fun op₁ => Triple.bind hdownload fun bytes => ?_
  refine Triple.assume fun hbytes => ?_
  refine Triple.bind (h.fetch.transition op₁ _ _ _) fun op₂ => ?_
  refine Triple.bind (h.fetch.transition op₂ _ _ _) fun op₃ => ?_
  refine Triple.bind (hwrite bytes hbytes) fun _ => ?_
  refine Triple.bind (Triple.crash hprepare.attempt h.back) fun reply => ?_
  have hready : ∀ op, Triple S (r.transition op .handingOver none none) (fun _ => S)
      (fun _ => P) := fun op =>
    Triple.crash (transition_keeps h.readyTick h.readyRecord _ _ _ _) h.readyBack
  cases reply with
  | error e =>
      refine Triple.bind (Triple.crash (transition_keeps h.tick h.record _ _ _ _) h.back) fun _ => ?_
      exact Triple.throw fun w hw => h.back w hw
  | ok u =>
      refine Triple.ite (fun henabled => ?_) fun hdisabled => ?_
      · refine Triple.get_bind fun w hw => Triple.pre (P := Q) ?_ fun w' h => by rw [h]; exact hw
        exact Triple.bind (h.provenance henabled _ _) fun _ => hready op₃
      · exact (hready op₃).pre (h.unproven (by simpa using hdisabled))

/-- **A candidate**: what was offered, may be installed, and was brought in. -/
theorem candidate_triple {Offer : Release → Prop} {R : World η γ → Prop}
    {target : Option String} {current : String} (hoffers : r.Offers Offer R target current)
    (hP : OffFetch P) {options : UpgradeOptions} {Q : Release → World η γ → Prop}
    (hbrings : ∀ release, Offer release → (options.consented = true ∨ r.policy = .auto) →
      Brings r release P (Q release) (Ready release)) (operation : Option Operation) :
    Triple (fun w => R w ∧ P w)
      (r.pick target options operation current >>= r.admitted options operation)
      (Brought P Ready) (fun _ => P) := by
  have hpick : Triple (fun w => R w ∧ P w) (r.pick target options operation current)
      (fun picked w => r.Admits Offer options.consented picked ∧ P w) (fun _ => P) :=
    (Triple.and (pick_offers hoffers options operation)
      (hP.pick target options operation current)).conseq (fun _ hw => hw)
      (fun _ _ hw => hw) fun _ _ hw => hw.2
  refine Triple.bind hpick fun picked => Triple.assume fun hadmits => ?_
  cases picked with
  | finished outcome => exact Triple.pure fun _ hw => hw
  | release release =>
      exact Triple.bind ((hbrings release hadmits.1 hadmits.2).bringIn options operation) fun _ =>
        Triple.pure fun _ hw => hw

end Runner

end KCarrier
