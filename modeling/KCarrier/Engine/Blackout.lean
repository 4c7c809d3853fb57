import KCarrier.Engine.Contract

/-!
# KCarrier.Engine.Blackout

What is left of the service when everything dies.

Lives of engines follow one another, each cut off wherever its environment likes, and any
of them may end in a blackout: every process of the service is gone, what is durable stays.
`Durable` is what survives all of that, and `Blackout.recover_triple` follows the next recovery
from the journal a blackout leaves.

`service_back_iff`: a recovery that nothing disturbs brings the stable service back exactly
if the last durable intent is not the promoted one.  The replay of a rollback starts the
stable slot; the replay of a promotion starts nothing.
-/

namespace KCarrier

open Crash
open Running

variable {σ α : Type}

/-! ## everything dies -/

/-- Every service process is gone. -/
def Facts.blackout (x : Facts) : Facts := { x with live := fun _ => none }

/-- What `service_settles_live` asks of an observation: a live process of the version the
stable slot holds. -/
def Facts.StableLive (x : Facts) : Prop :=
  ∃ slot version, x.live slot = some version ∧ x.slots .stable = some version

/-- A handing-over intent of the current transaction is durable: there is one since the last
staged intent. -/
def handedOver (journal : List JournalEntry) : Bool :=
  journal.foldl (fun handed entry => match entry.intent with
    | .staged => false
    | .handingOver => true
    | _ => handed) false

/-- The journal of a transaction that was handed over ends in another intent than the
staged one. -/
theorem handedOver_tail {journal : List JournalEntry} (h : handedOver journal = true) :
    ∃ last, journal.getLast? = some last ∧ last.intent ≠ .staged := by
  cases hlast : journal.getLast? with
  | none =>
      rw [List.getLast?_eq_none_iff.mp hlast] at h
      cases h
  | some last =>
      refine ⟨last, rfl, fun hstaged => ?_⟩
      obtain ⟨before, hbefore⟩ := List.getLast?_eq_some_iff.mp hlast
      rw [hbefore, handedOver, List.foldl_append] at h
      simp [hstaged] at h

/-! ## what survives -/

/-- The entries are ones an engine writes, and the stable slot holds a version. -/
structure Durable (x : Facts) : Prop where
  valid : ∀ entry ∈ x.journal, entry.validate = .ok ()
  named : ∀ entry ∈ x.journal, entry.intent ≠ .idle
  stable : (x.slots .stable).isSome = true

theorem Durable.blackout {x : Facts} (h : Durable x) : Durable x.blackout := ⟨h.valid, h.named, h.stable⟩

theorem Durable.promote {x : Facts} (h : Durable x) : Durable x.promote := by
  unfold Facts.promote
  by_cases hx : (x.slots .experiment).isSome = true
  · rw [if_pos hx]
    exact ⟨h.valid, h.named, hx⟩
  · rw [if_neg hx]
    exact h

/-- The entry of an intent validates. -/
theorem Engine.entryOf_validate (seq now : Nat) (intent : Phase) (detail : Detail) :
    (Engine.entryOf seq now intent detail).validate = .ok () := by
  simp [JournalEntry.validate, Engine.entryOf]

theorem Durable.append {x : Facts} (h : Durable x) {seq now : Nat} {intent : Phase} {detail : Detail}
    (hintent : intent ≠ .idle) : Durable (x.append (Engine.entryOf seq now intent detail)) where
  valid entry hentry := by
    rw [Facts.append, List.mem_append, List.mem_singleton] at hentry
    cases hentry with
    | inl hentry => exact h.valid entry hentry
    | inr hentry => rw [hentry, Engine.entryOf_validate]
  named entry hentry := by
    rw [Facts.append, List.mem_append, List.mem_singleton] at hentry
    cases hentry with
    | inl hentry => exact h.named entry hentry
    | inr hentry => rwa [hentry]
  stable := h.stable

section Lives

variable {view : σ → Facts}

/-- A call keeps what its effect keeps. -/
theorem Applies.keeps {f : Facts → Facts} {returned : α → Bool} {m : Prog Error σ α}
    {I : Facts → Prop} (h : Applies view f returned m) (hf : ∀ x, I x → I (f x)) :
    Keeps (fun w => I (view w)) m := by
  intro w hw
  refine (h (view w) w rfl).mono (fun a w' hw' => ?_) fun err w' hw' => ?_
  · cases hw' with
    | inl hw' => rw [hw']; exact hf _ hw
    | inr hw' => rw [hw'.2]; exact hw
  · cases hw' with
    | inl hw' => rw [hw']; exact hf _ hw
    | inr hw' => rw [hw']; exact hw

theorem Honours.encloses {e : Engine σ} (h : Honours e view) :
    Encloses e (fun w => Durable (view w)) (fun _ w => Durable (view w)) where
  definite _ _ _ hw := hw
  invalid _ _ hw := hw
  readJournal w hw := (h.readJournal (view w) w rfl).mono (fun _ _ hw' => hw'.1 ▸ hw)
    fun _ _ hw' => hw' ▸ hw
  journal intent detail hintent := by
    unfold Engine.journal
    refine Triple.bind (R := fun _ => OnWorld fun w => Durable (view w)) (Triple.get fun _ hs => hs)
      fun r => ?_
    exact Triple.bind (Confined.lift ((h.append _).keeps fun _ hx => hx.append hintent)) fun _ =>
      Triple.modify fun _ hs => hs
  versions := h.versions.keeps fun _ hx => hx
  stage version bytes := by
    obtain ⟨held, hstage⟩ := h.stage version bytes
    exact hstage.keeps fun _ hx => ⟨hx.valid, hx.named, hx.stable⟩
  promote := h.promote.keeps fun _ hx => hx.promote
  clear := h.clear.keeps fun _ hx => ⟨hx.valid, hx.named, hx.stable⟩
  fence := (h.fence.keeps fun _ hx => hx).replied
  quiesce := (h.quiesce.keeps fun _ hx => hx).replied
  stop _ := ((h.stop _).keeps fun _ hx => ⟨hx.valid, hx.named, hx.stable⟩).replied
  start _ := ((h.start _).keeps fun _ hx => ⟨hx.valid, hx.named, hx.stable⟩).replied
  probe := (h.probe.keeps fun _ hx => hx).replied
  resume := (h.resume.keeps fun _ hx => hx).replied
  evaluate _ _ := ((h.evaluate _ _).keeps fun _ hx => hx).replied

end Lives

/-- One engine, from its opening to its end, and what the end did to the service. -/
structure Life (σ : Type) where
  engine : Engine σ
  opening : Opening
  calls : List EngineCall
  aftermath : σ → σ

/-- The engine is over an environment that honours the contract, and what ended it left
everything or killed the service. -/
structure Life.Lawful (view : σ → Facts) (life : Life σ) : Prop where
  honours : Honours life.engine view
  aftermath : ∀ w, view (life.aftermath w) = view w ∨
    view (life.aftermath w) = (view w).blackout

/-- Lives after one another. -/
def outlive (lives : List (Life σ)) (w : σ) : σ :=
  lives.foldl (fun w life => life.aftermath (life.engine.session life.opening life.calls w)) w

theorem outlive_durable {view : σ → Facts} {lives : List (Life σ)}
    (h : ∀ life ∈ lives, life.Lawful view) {w : σ} (hw : Durable (view w)) :
    Durable (view (outlive lives w)) := by
  unfold outlive
  induction lives generalizing w with
  | nil => exact hw
  | cons life lives ih =>
      rw [List.foldl_cons]
      have hlife : life.Lawful view := h life List.mem_cons_self
      have hend : Durable (view (life.engine.session life.opening life.calls w)) :=
        hlife.honours.encloses.session life.opening life.calls hw
      refine ih (fun l hl => h l (List.mem_cons_of_mem _ hl)) ?_
      cases hlife.aftermath (life.engine.session life.opening life.calls w) with
      | inl hspared => rwa [hspared]
      | inr hdark =>
          rw [hdark]
          exact hend.blackout

/-! ## a recovery that nothing disturbs -/

/-- From the facts of `P`, in an environment that stays calm, the call returns and has had
its effect. -/
def Succeeds (view : σ → Facts) (calm : σ → Prop) (P : Facts → Prop) (f : Facts → Facts)
    (returned : α → Bool) (m : Prog Error σ α) : Prop :=
  ∀ x, P x → Triple (fun w => calm w ∧ view w = x) m
    (fun a w => returned a = true ∧ calm w ∧ view w = f x) (fun _ _ => False)

/-- No call of a recovery fails: an append that continues the journal, a start of a slot that
holds something, a promotion that leaves a stable slot, and whatever asks for nothing. -/
structure FaultFree (e : Engine σ) (view : σ → Facts) (calm : σ → Prop) : Prop where
  readJournal : ∀ x, Triple (fun w => calm w ∧ view w = x) e.effects.readJournal
    (fun entries w => entries = x.journal ∧ calm w ∧ view w = x) (fun _ _ => False)
  append : ∀ entry, Succeeds view calm
    (fun x => entry.validate = .ok () ∧ entry.seq = nextSeq x.journal) (Facts.append entry)
    (fun _ => true) (e.effects.append entry)
  promote : Succeeds view calm (fun x => (x.slots .stable).isSome = true) Facts.promote
    (fun _ => true) e.effects.promote
  clear : Succeeds view calm (fun _ => True) Facts.clear (fun _ => true) e.effects.clear
  fence : Succeeds view calm (fun _ => True) id Option.isSome e.host.fence
  stop : ∀ slot, Succeeds view calm (fun _ => True) (Facts.stop slot) Option.isSome
    (e.host.stop slot)
  start : ∀ slot, Succeeds view calm (fun x => (x.slots slot).isSome = true)
    (Facts.start slot) Option.isSome (e.host.start slot)
  resume : Succeeds view calm (fun _ => True) id Option.isSome e.host.resume

/-- Nothing of the service runs, and there is a version to start it from. -/
structure Facts.Dark (x : Facts) : Prop where
  dead : ∀ slot, x.live slot = none
  stable : (x.slots .stable).isSome = true

theorem Facts.Dark.not_stableLive {x : Facts} (h : x.Dark) : ¬x.StableLive := by
  intro hlive
  obtain ⟨slot, version, hslot, -⟩ := hlive
  rw [h.dead slot] at hslot
  cases hslot

/-- Ending a process leaves it dark. -/
theorem Facts.Dark.stop {x : Facts} (h : x.Dark) (slot : Slot) : (x.stop slot).Dark where
  dead s := by
    by_cases hs : s = slot
    · rw [hs]
      exact put_same _ _ _
    · exact (if_neg hs).trans (h.dead s)
  stable := h.stable

/-- A publication starts no process. -/
theorem Facts.Dark.promote {x : Facts} (h : x.Dark) : x.promote.Dark := by
  unfold Facts.promote
  by_cases hx : (x.slots .experiment).isSome = true
  · rw [if_pos hx]
    refine ⟨fun slot => ?_, hx⟩
    cases slot with
    | stable => simp [h.dead]
    | experiment => rfl
  · rw [if_neg hx]
    exact h

/-- Starting the stable slot in the dark brings the service back. -/
theorem Facts.Dark.start {x : Facts} (h : x.Dark) : (x.start .stable).StableLive := by
  obtain ⟨version, hversion⟩ := Option.isSome_iff_exists.mp h.stable
  refine ⟨.stable, version, ?_, hversion⟩
  simp [Facts.start, h.dead, hversion]

/-- Emptying the experiment slot leaves the service as it is. -/
theorem Facts.StableLive.clear {x : Facts} (h : x.StableLive) : x.clear.StableLive := h

/-- The facts at each point of the recovery from `x₀`, where `tail` is the last intent. -/
def Point.Restores (x₀ : Facts) : Point → Facts → Nat → Prop
  | .entry, x, _ => x = x₀
  | .opened t, x, seq | .fenced t, x, seq =>
      x = x₀ ∧ t = lastIntent x₀.journal ∧ seq = nextSeq x₀.journal
  | .committed, x, _ | .published, x, _ | .rest (some .promoted), x, _ =>
      lastIntent x₀.journal = some .promoted ∧ x.Dark
  | .rolling, x, _ | .rollStopped, x, _ => lastIntent x₀.journal ≠ some .promoted ∧ x.Dark
  | .rollStarted, x, _ | .restored, x, _ | .rest (some .rolledBack), x, _ =>
      lastIntent x₀.journal ≠ some .promoted ∧ x.StableLive
  | _, _, _ => False

section Recovery

variable {view : σ → Facts} {calm : σ → Prop} {x₀ : Facts} {e : Engine σ}

/-- The assertion of the outline. -/
def Restoring (view : σ → Facts) (calm : σ → Prop) (x₀ : Facts) (p : Point) (r : Running σ) :
    Prop :=
  calm r.world ∧ p.Restores x₀ (view r.world) r.seq

/-- A call on the store between two points. -/
theorem succeeds_lift {m : Prog Error σ α} {f : Facts → Facts} {P : Facts → Prop} {p q : Point}
    (h : Succeeds view calm P f (fun _ => true) m)
    (hstep : ∀ x seq, p.Restores x₀ x seq → P x ∧ q.Restores x₀ (f x) seq) :
    Triple (Restoring view calm x₀ p) (lift m) (fun _ => Restoring view calm x₀ q)
      (fun _ _ => False) := by
  refine Triple.zoom fun r hr => ?_
  obtain ⟨hP, hq⟩ := hstep _ _ hr.2
  refine (h (view r.world) hP r.world ⟨hr.1, rfl⟩).mono (fun a w hw => ⟨hw.2.1, ?_⟩)
    fun _ _ hw => hw
  show q.Restores x₀ (view w) r.seq
  rwa [hw.2.2]

/-- A host call between two points. -/
theorem succeeds_bounded {m : HostCall σ α} {f : Facts → Facts} {P : Facts → Prop} {p q : Point}
    {label : String} (h : Succeeds view calm P f Option.isSome m)
    (hstep : ∀ x seq, p.Restores x₀ x seq → P x ∧ q.Restores x₀ (f x) seq) :
    Triple (Restoring view calm x₀ p) (Engine.bounded label m)
      (fun _ => Restoring view calm x₀ q) (fun _ _ => False) := by
  unfold Engine.bounded
  refine Triple.bind (R := fun reply r => reply.isSome = true ∧ Restoring view calm x₀ q r) ?_
    fun reply => ?_
  · refine Triple.zoom fun r hr => ?_
    obtain ⟨hP, hq⟩ := hstep _ _ hr.2
    refine (h (view r.world) hP r.world ⟨hr.1, rfl⟩).mono
      (fun a w hw => ⟨hw.1, hw.2.1, ?_⟩) fun _ _ hw => hw
    show q.Restores x₀ (view w) r.seq
    rwa [hw.2.2]
  · cases reply with
    | some a => exact Triple.pure fun _ hr => hr.2
    | none => exact Triple.throw fun _ hr => (by cases hr.1)

/-- Journaling the rollback. -/
theorem succeeds_journal (h : FaultFree e view calm) {t : Option Phase} {q : Point}
    {reason : String}
    (hstep : ∀ entry : JournalEntry, t = lastIntent x₀.journal →
      ∀ seq, q.Restores x₀ (x₀.append entry) seq) :
    Triple (Restoring view calm x₀ (.fenced t)) (e.journal .rolledBack [("reason", reason)])
      (fun _ => Restoring view calm x₀ q) (fun _ _ => False) := by
  unfold Engine.journal
  refine Triple.get_bind fun r hr => ?_
  obtain ⟨hcalm, hx, ht, hseq⟩ := hr
  refine Triple.bind (R := fun _ r' => calm r'.world ∧
    ∃ entry, view r'.world = x₀.append entry) ?_ fun _ => ?_
  · refine Triple.zoom fun r' hr' => ?_
    subst hr'
    have hnext : (Engine.entryOf r'.seq (e.now r'.world) .rolledBack
        [("reason", reason)]).seq = nextSeq x₀.journal := hseq
    refine (h.append _ x₀ ⟨Engine.entryOf_validate _ _ _ _, hnext⟩ r'.world ⟨hcalm, hx⟩).mono
      (fun _ w hw => ⟨hw.2.1, _, hw.2.2⟩) fun _ _ hw => hw
  · refine Triple.modify fun r' hr' => ⟨hr'.1, ?_⟩
    obtain ⟨entry, hentry⟩ := hr'.2
    show q.Restores x₀ (view r'.world) _
    rw [hentry]
    exact hstep entry ht _

/-- **Recovery from the dark**: it returns, and whether it started the service is decided by
the last intent. -/
theorem restoringOutline (h : FaultFree e view calm) (hx₀ : Durable x₀) (hdark : x₀.Dark)
    (hopen : handedOver x₀.journal = true) :
    RecoverOutline e (Restoring view calm x₀) (fun _ _ => False) where
  stop := succeeds_bounded (h.stop .experiment) fun x _ hx => ⟨trivial, hx.1, hx.2.stop _⟩
  start := succeeds_bounded (h.start .stable) fun x _ hx => ⟨hx.2.stable, hx.1, hx.2.start⟩
  resumed := succeeds_bounded h.resume fun _ _ hx => ⟨trivial, hx⟩
  clear := succeeds_lift h.clear fun _ _ hx => ⟨trivial, hx.1, hx.2.clear⟩
  promote := succeeds_lift h.promote fun _ _ hx => ⟨hx.2.stable, hx.1, hx.2.promote⟩
  resume := succeeds_bounded h.resume fun _ _ hx => ⟨trivial, hx⟩
  read := by
    unfold Engine.readEntries
    refine Triple.bind (R := fun entries r => entries = x₀.journal ∧ calm r.world ∧
      view r.world = x₀) ?_ fun entries => ?_
    · refine Triple.zoom fun r hr => ?_
      exact (h.readJournal x₀ r.world ⟨hr.1, hr.2⟩).mono (fun _ _ hw => hw) fun _ _ hw => hw
    · refine Triple.bind (R := fun _ r => entries = x₀.journal ∧ calm r.world ∧
        view r.world = x₀) (Triple.ofExcept (fun _ _ _ hr => hr) ?_) fun _ => ?_
      · intro err r herr hr
        rw [hr.1, (validateAll_eq_ok_iff _).mpr hx₀.valid] at herr
        cases herr
      · refine Triple.pure fun r hr => ⟨hr.2.1, ?_⟩
        rw [hr.1]
        exact ⟨hr.2.2, rfl, rfl⟩
  fence _ := succeeds_bounded h.fence fun _ _ hx => ⟨trivial, hx⟩
  idle r hr := by
    obtain ⟨last, hlast, -⟩ := handedOver_tail hopen
    have htail : lastIntent x₀.journal = some last.intent := by rw [lastIntent, hlast]; rfl
    rcases hr with hr | hr
    · have ht := hr.2.2.1
      rw [htail] at ht
      cases ht
    · have ht := hr.2.2.1
      rw [htail] at ht
      exact absurd (Option.some.inj ht).symm (hx₀.named last (List.mem_of_getLast? hlast))
  commit r hr := ⟨hr.1, hr.2.2.1.symm, hr.2.1 ▸ hdark⟩
  redo r hr := ⟨hr.1, by rw [← hr.2.2.1]; decide, hr.2.1 ▸ hdark⟩
  withdraw _ := succeeds_journal h fun _ ht => by
    -- a transaction that was handed over does not end in the staged intent
    obtain ⟨last, hlast, hne⟩ := handedOver_tail hopen
    rw [lastIntent, hlast] at ht
    exact absurd (Option.some.inj ht).symm hne
  abandon t _ hfly := succeeds_journal h fun _ ht _ => by
    refine ⟨?_, hdark.dead, hdark.stable⟩
    rw [← ht]
    rcases hfly with rfl | rfl | rfl <;> decide

/-- The whole recovery, from a journal that a handed-over transaction ended. -/
theorem recover_from_dark (h : FaultFree e view calm) (hx₀ : Durable x₀) (hdark : x₀.Dark)
    (hopen : handedOver x₀.journal = true) {w : σ} (hcalm : calm w) (hw : view w = x₀) :
    ∃ r, e.recover ⟨w, 0⟩ = (.ok (), r) ∧
      ((view r.world).StableLive ↔ lastIntent x₀.journal ≠ some .promoted) := by
  have hentry : Restoring view calm x₀ .entry ⟨w, 0⟩ := ⟨hcalm, hw⟩
  obtain ⟨u, r, hrun, ended, hr⟩ :=
    (restoringOutline h hx₀ hdark hopen).recover_triple.run_of_not_fault hentry
  refine ⟨r, hrun, ?_⟩
  have hrest := hr.2
  cases ended with
  | none => exact hrest.elim
  | some p =>
      cases p with
      | promoted =>
          exact iff_of_false hrest.2.not_stableLive fun hne => hne hrest.1
      | rolledBack => exact iff_of_true hrest.2 hrest.1
      | idle => exact hrest.elim
      | staged => exact hrest.elim
      | handingOver => exact hrest.elim
      | runningExperiment => exact hrest.elim
      | readback => exact hrest.elim

end Recovery

/-! ## the rig in the dark -/

namespace Rig

/-- Every process of the rig is gone. -/
def blackout (s : Rig) : Rig := { s with facts := s.facts.blackout }

/-- A rig without a script left fails at nothing. -/
theorem succeeds {P : Facts → Prop} {f : Facts → Facts} {returned : α → Bool}
    {reply : Facts → Except Error α}
    (hreply : ∀ x, P x → ∃ a, reply x = .ok a ∧ returned a = true) :
    Succeeds Rig.facts (fun s => s.script = []) P f returned (perform f reply) := by
  intro x hx s hs
  obtain ⟨hscript, hfacts⟩ := hs
  obtain ⟨a, ha, hreturned⟩ := hreply x hx
  unfold perform
  simp only [hscript, hfacts, ha, List.headD_nil, List.tail_nil]
  exact ⟨hreturned, rfl, rfl⟩

theorem faultFree : FaultFree Rig.engine Rig.facts fun s => s.script = [] where
  readJournal x s hs := by
    obtain ⟨hscript, hfacts⟩ := hs
    show Ends _ _ (perform id (fun x => .ok x.journal) s)
    unfold perform
    simp only [hscript, hfacts, List.headD_nil, List.tail_nil]
    exact ⟨rfl, rfl, rfl⟩
  append _ := succeeds fun _ _ => ⟨(), rfl, rfl⟩
  promote := succeeds fun _ _ => ⟨(), rfl, rfl⟩
  clear := succeeds fun _ _ => ⟨(), rfl, rfl⟩
  fence := succeeds fun _ _ => ⟨some (), rfl, rfl⟩
  stop _ := succeeds fun _ _ => ⟨some (), rfl, rfl⟩
  start _ := succeeds fun _ _ => ⟨some (), rfl, rfl⟩
  resume := succeeds fun _ _ => ⟨some (), rfl, rfl⟩

/-- An upgrade of the rig that ends in the dark. -/
def lastUpgrade : Life Rig where
  engine := engine
  opening := .recover
  calls := [.upgrade "2.0.0" "artifact"]
  aftermath := blackout

/-- The rig after `n` calls of that upgrade returned and the next one killed everything. -/
def darkAfter (n : Nat) : Rig :=
  outlive [lastUpgrade] (install "1.0.0" (List.replicate n .returns ++ [.dies false]))

theorem lastUpgrade_lawful : lastUpgrade.Lawful Rig.facts := ⟨honours, fun _ => .inr rfl⟩

end Rig

/-- **After a blackout**: whatever lives an installation has had, each cut off where its
environment likes and any of them in a blackout, when the last of them ends in one after its
transaction was handed over, a recovery that nothing disturbs returns, and a live process of
the stable version is there exactly if the promoted intent is not the last durable one. -/
theorem service_back_iff (view : σ → Facts) (lives : List (Life σ))
    (h : ∀ life ∈ lives, life.Lawful view) (w₀ : σ) (hnew : (view w₀).journal = [])
    (hstable : ((view w₀).slots .stable).isSome = true) (w : σ)
    (hdark : view w = (view (outlive lives w₀)).blackout)
    (hopen : handedOver (view w).journal = true) (e : Engine σ) (calm : σ → Prop)
    (he : FaultFree e view calm) (hcalm : calm w) :
    ∃ r, e.recover ⟨w, 0⟩ = (.ok (), r) ∧
      ((view r.world).StableLive ↔ lastIntent (view w).journal ≠ some .promoted) := by
  have hstart : Durable (view w₀) := by
    refine ⟨fun entry hentry => ?_, fun entry hentry => ?_, hstable⟩
    · rw [hnew] at hentry
      cases hentry
    · rw [hnew] at hentry
      cases hentry
  have hw : Durable (view w) := by
    rw [hdark]
    exact (outlive_durable h hstart).blackout
  have hdead : (view w).Dark := by
    refine ⟨fun slot => ?_, hw.stable⟩
    rw [hdark]
    rfl
  exact recover_from_dark he hw hdead hopen hcalm rfl

namespace Rig

/-- Everything dies while the candidate is started: the next recovery starts the stable
version again. -/
theorem service_back_handing :
    ∃ r, Rig.engine.recover ⟨darkAfter 9, 0⟩ = (.ok (), r) ∧
      (r.world.facts.StableLive ↔ lastIntent (darkAfter 9).facts.journal ≠ some .promoted) :=
  service_back_iff Rig.facts [lastUpgrade] (fun life hlife => by
    rw [List.mem_singleton.mp hlife]
    exact lastUpgrade_lawful) (install "1.0.0" (List.replicate 9 .returns ++ [.dies false])) rfl rfl
    (darkAfter 9) rfl (by decide +kernel) Rig.engine _ faultFree (by decide +kernel)

/-- Everything dies once the promoted intent is durable: the next recovery returns, and
nothing runs. -/
theorem promoted_service_stays_dead :
    lastUpgrade.Lawful Rig.facts ∧ FaultFree Rig.engine Rig.facts (fun s => s.script = []) ∧
      (darkAfter 15).script = [] ∧ handedOver (darkAfter 15).facts.journal = true ∧
      ∃ r, Rig.engine.recover ⟨darkAfter 15, 0⟩ = (.ok (), r) ∧ ¬r.world.facts.StableLive := by
  refine ⟨lastUpgrade_lawful, faultFree, by decide +kernel, by decide +kernel,
    (Rig.engine.recover ⟨darkAfter 15, 0⟩).2, ?_, ?_⟩
  · have hok : (Rig.engine.recover ⟨darkAfter 15, 0⟩).1 = .ok () := by decide +kernel
    rw [← hok]
  · have hdead : ∀ slot, (Rig.engine.recover ⟨darkAfter 15, 0⟩).2.world.facts.live slot = none := by
      intro slot
      cases slot <;> decide +kernel
    intro hlive
    obtain ⟨slot, version, hslot, -⟩ := hlive
    rw [hdead slot] at hslot
    cases hslot

end Rig

end KCarrier
