import KCarrier.Runner.Truth
import KCarrier.Runner.Uncertain
import KCarrier.Runner.Vouched

/-!
# KCarrier.Runner.Fence

What is fenced off before the service is touched.

A worker that dies in a host call leaves that call outstanding, until it is over by itself or
a later worker's fence was answered, which it is only once nothing is outstanding.  The fence
is the first host call of the engine's recovery, but recovery is skipped on a settled record.
So a call may be outstanding when the service is touched without a fence, if it was left so
under a settled record: `Visit.LeavesOutstanding` says which calls do that, and
`lifecycle_fenced` that nothing else does.
-/

namespace KCarrier

open Crash
open Running

/-! ## the account of the host calls -/

/-- How a host call ended: with a value, with an error, or not at all, when the worker died in
it or stopped waiting for it. -/
inductive HostEnd where
  | answered
  | failed
  | cutOff
deriving DecidableEq, Repr

def HostEnd.of {α : Type} : Res Error (Option α) → HostEnd
  | .ok (some _) => .answered
  | .err _ => .failed
  | .ok none | .crash => .cutOff

structure HostIssue where
  call : String
  ended : HostEnd
deriving DecidableEq, Repr

/-- The state of a host, with the calls it was given so far. -/
structure Accounted (η : Type) where
  state : η
  issues : List HostIssue

variable {η γ α : Type}

/-- Pass a call on and write down how it ended. -/
def HostCall.accounted (name : String) (call : HostCall η α) : HostCall (Accounted η) α := fun h =>
  let o := call h.state
  (o.1, ⟨o.2, h.issues ++ [⟨name, .of o.1⟩]⟩)

def Host.accounted (host : Host η) : Host (Accounted η) where
  fence := HostCall.accounted "fence" host.fence
  quiesce := HostCall.accounted "quiesce" host.quiesce
  stop slot := HostCall.accounted "stop" (host.stop slot)
  start slot := HostCall.accounted "start" (host.start slot)
  probe := HostCall.accounted "probe" host.probe
  resume := HostCall.accounted "resume" host.resume

/-- The runner, its host calls written down. -/
def Runner.accounted (r : Runner η γ) : Runner (Accounted η) γ :=
  { r with host := fun disk => (r.host disk).accounted }

/-- A visit, its host calls written down. -/
def Visit.accounted (v : Visit η γ) : Visit (Accounted η) γ :=
  { v with runner := v.runner.accounted }

/-- The world, with nothing written down yet. -/
def World.accounted (w : World η γ) : World (Accounted η) γ := { w with host := ⟨w.host, []⟩ }

/-- What a run leaves, its host calls written down. -/
def runAccounted (visits : List (Visit η γ)) (w : World η γ) : World (Accounted η) γ :=
  runVisits (visits.map Visit.accounted) w.accounted

/-! ## what is outstanding -/

/-- A fence that was answered: whatever was outstanding is over. -/
def HostIssue.Drains (issue : HostIssue) : Prop := issue.call = "fence" ∧ issue.ended = .answered

/-- Every call has returned, or was over when a later fence was answered. -/
def Returned (issues : List HostIssue) : Prop :=
  ∀ before issue after, issues = before ++ issue :: after → issue.ended = .cutOff →
    ∃ fence ∈ after, fence.Drains

/-- The calls that act on the service. -/
def lifecycle : List String := ["quiesce", "stop", "start", "resume"]

/-- After the calls `old`, the calls `new` act on the service behind a fence of their own, or
with nothing outstanding. -/
def FencedAfter (old new : List HostIssue) : Prop :=
  ∀ before issue after, new = before ++ issue :: after → issue.call ∈ lifecycle →
    (∃ fence ∈ before, fence.Drains) ∨ Returned old

section

variable {old new : List HostIssue} {issue : HostIssue}

/-- Where an element of a list with one more stands. -/
theorem split_concat {β : Type} {xs before after : List β} {x y : β}
    (h : xs ++ [x] = before ++ y :: after) :
    (after = [] ∧ before = xs ∧ y = x) ∨
      ∃ rest, after = rest ++ [x] ∧ xs = before ++ y :: rest := by
  rcases List.eq_nil_or_concat after with rfl | ⟨rest, last, rfl⟩
  · obtain ⟨hbefore, hlast⟩ := List.append_inj' h rfl
    rw [List.cons.injEq] at hlast
    exact .inl ⟨rfl, hbefore.symm, hlast.1.symm⟩
  · rw [List.concat_eq_append, ← List.cons_append, ← List.append_assoc] at h
    obtain ⟨hxs, hlast⟩ := List.append_inj' h rfl
    rw [List.cons.injEq] at hlast
    exact .inr ⟨rest, by rw [List.concat_eq_append, hlast.1], hxs⟩

/-- One call more that came back. -/
theorem Returned.concat (h : Returned old) (hended : issue.ended ≠ .cutOff) :
    Returned (old ++ [issue]) := by
  intro before i after hsplit hcut
  rcases split_concat hsplit with ⟨-, -, rfl⟩ | ⟨rest, rfl, hold⟩
  · exact absurd hcut hended
  · obtain ⟨fence, hfence, hdrains⟩ := h before i rest hold hcut
    exact ⟨fence, List.mem_append_left _ hfence, hdrains⟩

/-- **A fence** that was answered leaves nothing outstanding. -/
theorem HostIssue.Drains.returned (h : issue.Drains) : Returned (old ++ [issue]) := by
  intro before i after hsplit hcut
  rcases split_concat hsplit with ⟨-, -, rfl⟩ | ⟨rest, rfl, -⟩
  · rw [h.2] at hcut
    cases hcut
  · exact ⟨issue, by simp, h⟩

/-- A call that was cut off did not come back. -/
theorem not_returned_concat (h : issue.ended = .cutOff) : ¬Returned (old ++ [issue]) := by
  intro hreturned
  obtain ⟨fence, hfence, -⟩ := hreturned old issue [] rfl h
  cases hfence

theorem fencedAfter_nil : FencedAfter old [] := by
  intro before issue after h
  simp at h

/-- One call more, behind a fence or with nothing outstanding. -/
theorem FencedAfter.concat (h : FencedAfter old new)
    (hnew : issue.call ∈ lifecycle → (∃ fence ∈ new, fence.Drains) ∨ Returned old) :
    FencedAfter old (new ++ [issue]) := by
  intro before i after hsplit hcall
  rcases split_concat hsplit with ⟨-, rfl, rfl⟩ | ⟨rest, -, hold⟩
  · exact hnew hcall
  · exact h before i rest hold hcall

end

/-! ## the assertions of a call -/

/-- The calls since `old` were fenced. -/
def Fenced (old : List HostIssue) (w : World (Accounted η) γ) : Prop :=
  ∃ new, w.host.issues = old ++ new ∧ FencedAfter old new

/-- And the service may be touched: nothing is outstanding now, behind a fence of this call or
since its start. -/
def Drained (old : List HostIssue) (w : World (Accounted η) γ) : Prop :=
  ∃ new, w.host.issues = old ++ new ∧ FencedAfter old new ∧ Returned (old ++ new) ∧
    ((∃ fence ∈ new, fence.Drains) ∨ Returned old)

/-- Where a call of the engine is cut off: the service may be touched, or the engine stops. -/
def Halts (old : List HostIssue) (e : Option Error) (w : World (Accounted η) γ) : Prop :=
  Drained old w ∨ Fenced old w ∧ Kind (fun e => e.isUncertain = true) e

section

variable {old : List HostIssue} {w : World (Accounted η) γ}

/-- Where all is drained the new calls are fenced. -/
theorem Drained.fenced (h : Drained old w) : Fenced old w := by
  obtain ⟨new, hissues, hfenced, -⟩ := h
  exact ⟨new, hissues, hfenced⟩

/-- Wherever the call breaks off its calls are fenced. -/
theorem Halts.fenced {e : Option Error} (h : Halts old e w) : Fenced old w :=
  h.elim Drained.fenced And.left

/-- Where all is drained every call came back. -/
theorem Drained.returned (h : Drained old w) : Returned w.host.issues := by
  obtain ⟨new, hissues, -, hreturned, -⟩ := h
  rw [hissues]
  exact hreturned

/-- A call has issued nothing when it starts. -/
theorem fenced_start : Fenced w.host.issues w := ⟨[], by simp, fencedAfter_nil⟩

/-- With nothing outstanding it starts drained. -/
theorem drained_start (h : Returned w.host.issues) : Drained w.host.issues w :=
  ⟨[], by simp, fencedAfter_nil, by simpa using h, .inr h⟩

/-- What one more call of the host makes of the account. -/
theorem Drained.issue (h : Drained old w) (issue : HostIssue) (state : η) :
    Fenced old { w with host := ⟨state, w.host.issues ++ [issue]⟩ } ∧
      (issue.ended ≠ .cutOff →
        Drained old { w with host := ⟨state, w.host.issues ++ [issue]⟩ }) := by
  obtain ⟨new, hissues, hfenced, hreturned, hmay⟩ := h
  have hnext : w.host.issues ++ [issue] = old ++ (new ++ [issue]) := by
    rw [hissues, List.append_assoc]
  have hfenced' : FencedAfter old (new ++ [issue]) := hfenced.concat fun _ => hmay
  refine ⟨⟨_, hnext, hfenced'⟩, fun hended => ⟨_, hnext, hfenced', ?_, ?_⟩⟩
  · rw [← List.append_assoc]
    exact hreturned.concat hended
  · exact hmay.imp (fun ⟨fence, hm, hdrains⟩ => ⟨fence, List.mem_append_left _ hm, hdrains⟩) id

/-- What a fence makes of it. -/
theorem Fenced.fence (h : Fenced old w) (ended : HostEnd) (state : η) :
    Fenced old { w with host := ⟨state, w.host.issues ++ [⟨"fence", ended⟩]⟩ } ∧
      (ended = .answered →
        Drained old { w with host := ⟨state, w.host.issues ++ [⟨"fence", ended⟩]⟩ }) := by
  obtain ⟨new, hissues, hfenced⟩ := h
  have hnext : w.host.issues ++ [⟨"fence", ended⟩] = old ++ (new ++ [⟨"fence", ended⟩]) := by
    rw [hissues, List.append_assoc]
  have hfenced' : FencedAfter old (new ++ [⟨"fence", ended⟩]) :=
    hfenced.concat fun hcall => by simp [lifecycle] at hcall
  refine ⟨⟨_, hnext, hfenced'⟩, fun hended => ⟨_, hnext, hfenced', ?_, .inl ?_⟩⟩
  · rw [← List.append_assoc]
    exact HostIssue.Drains.returned ⟨rfl, hended⟩
  · exact ⟨⟨"fence", ended⟩, by simp, rfl, hended⟩

end

/-- What is about the host's account is not about the records. -/
theorem offRecords_of_issues {P : World (Accounted η) γ → Prop}
    (hP : ∀ w w' : World (Accounted η) γ, w'.host = w.host → P w → P w') : OffRecords P where
  quiet := ⟨fun w _ => hP w _ rfl, fun w _ _ => hP w _ rfl, fun w _ => hP w _ rfl,
    fun w _ => hP w _ rfl, fun w _ _ _ _ _ => hP w _ rfl⟩
  receipts := ⟨fun w _ => hP w _ rfl, fun w _ _ _ => hP w _ rfl⟩
  record w _ := hP w _ rfl

/-- That the calls are fenced is about the account. -/
theorem fenced_offRecords (old : List HostIssue) :
    OffRecords (Fenced old : World (Accounted η) γ → Prop) :=
  offRecords_of_issues fun w w' h ⟨new, hissues, hfenced⟩ =>
    ⟨new, by rw [h]; exact hissues, hfenced⟩

/-- So is that all is drained. -/
theorem drained_offRecords (old : List HostIssue) :
    OffRecords (Drained old : World (Accounted η) γ → Prop) :=
  offRecords_of_issues fun w w' h ⟨new, hissues, hrest⟩ =>
    ⟨new, by rw [h]; exact hissues, hrest⟩

/-! ## the steps of a call -/

namespace Runner

variable {r : Runner η γ} {old : List HostIssue}

/-- The call as it is passed on, and what is written down. -/
theorem hostRun_accounted (r : Runner η γ) {name : String}
    {accounted : Host (Accounted η) → HostCall (Accounted η) α} {call : Host η → HostCall η α}
    (hcall : ∀ host, accounted (Host.accounted host) = (call host).accounted name)
    (w : World (Accounted η) γ) :
    r.accounted.hostRun accounted w = (((call (r.host w.disk)) w.host.state).1,
      { w with host := ⟨((call (r.host w.disk)) w.host.state).2, w.host.issues ++
        [⟨name, .of ((call (r.host w.disk)) w.host.state).1⟩]⟩ }) := by
  unfold Runner.hostRun Runner.accounted
  simp only [hcall]
  rfl

/-- A host call, by what one more call makes of the account and what is kept around it. -/
theorem hostCall_accounted_triple (hdies : r.DiesAtHosts) {name : String} (hname : name ∈ hostCalls)
    {accounted : Host (Accounted η) → HostCall (Accounted η) α} (call : Host η → HostCall η α)
    (hcall : ∀ host, accounted (Host.accounted host) = (call host).accounted name)
    {P Q B : World (Accounted η) γ → Prop} {F : Option Error → World (Accounted η) γ → Prop}
    (hP : Indifferent P) (hQ : Indifferent Q) (hB : Indifferent B) (hPF : ∀ e w, P w → F e w)
    (hQF : ∀ e w, Q w → F e w)
    (hBF : ∀ e w, Kind (fun e => e.isUncertain = true) e → B w → F e w)
    (hanswered : ∀ w state, P w →
      Q { w with host := ⟨state, w.host.issues ++ [⟨name, .answered⟩]⟩ })
    (hfailed : ∀ w state e, P w →
      F (some e) { w with host := ⟨state, w.host.issues ++ [⟨name, .failed⟩]⟩ })
    (hcut : ∀ w state, P w → B { w with host := ⟨state, w.host.issues ++ [⟨name, .cutOff⟩]⟩ }) :
    Triple P (r.accounted.hostCall name accounted) (Replied Q F) F := by
  have hstart : ∀ {β : Type} {m : Prog Error (World (Accounted η) γ) β}, Keeps P m →
      Triple P m (fun _ => P) F := fun h =>
    h.conseq (fun _ h => h) (fun _ _ h => h) fun e w => hPF e w
  have hrun : Triple P (r.accounted.hostRun accounted)
      (fun reply w => reply.elim (B w) fun _ => Q w) F := by
    intro w hw
    rw [r.hostRun_accounted hcall w]
    generalize (call (r.host w.disk)) w.host.state = o
    obtain ⟨o, state⟩ := o
    cases o with
    | crash => exact hBF none _ kind_none (hcut w state hw)
    | err e => exact hfailed w state e hw
    | ok reply =>
        cases reply with
        | some a => exact hanswered w state hw
        | none => exact hcut w state hw
  unfold Runner.hostCall
  refine Triple.bind (hstart (hP.boundary _ _)) fun _ => ?_
  refine Triple.bind (hstart (hP.noted rfl)) fun _ => Triple.bind hrun fun reply => ?_
  cases reply with
  | some a =>
      have hboundary := (hQ.boundary r.accounted.store s!"after:{name}").conseq (fun _ h => h)
        (fun _ _ h => h) fun e w => hQF e w
      exact Triple.bind hboundary fun _ => Triple.pure fun _ h => h
  | none =>
      refine Triple.bind (R := fun _ => B) ?_ fun _ => Triple.pure fun w h message =>
        hBF _ w (kind_some.mpr rfl) h
      refine (FileStore.boundary_dies hB.tick (hdies name hname)).conseq (fun _ h => h)
        (fun _ _ h => h) fun e w h => hBF e w ?_ h.2
      rw [h.1]
      exact kind_none

/-- **A host call** while the service may be touched. -/
theorem hostCall_drained (hdies : r.DiesAtHosts) {name : String} (hname : name ∈ hostCalls)
    {accounted : Host (Accounted η) → HostCall (Accounted η) α} (call : Host η → HostCall η α)
    (hcall : ∀ host, accounted (Host.accounted host) = (call host).accounted name) :
    Triple (Drained old : World (Accounted η) γ → Prop) (r.accounted.hostCall name accounted)
      (Replied (Drained old) (Halts old)) (Halts old) :=
  hostCall_accounted_triple hdies hname call hcall (drained_offRecords old).quiet
    (drained_offRecords old).quiet (fenced_offRecords old).quiet (fun _ _ h => .inl h)
    (fun _ _ h => .inl h) (fun _ _ he h => .inr ⟨h, he⟩)
    (fun _ state h => (h.issue _ state).2 (by simp))
    (fun _ state _ h => .inl ((h.issue _ state).2 (by simp))) fun _ state h => (h.issue _ state).1

/-- **The fence**, whatever was outstanding. -/
theorem fence_drains (hdies : r.DiesAtHosts) :
    Triple (Fenced old : World (Accounted η) γ → Prop) r.accounted.hosts.fence
      (Replied (Drained old) fun _ => Fenced old) (fun _ => Fenced old) :=
  hostCall_accounted_triple hdies (by decide) (fun host => host.fence) (fun _ => rfl)
    (fenced_offRecords old).quiet (drained_offRecords old).quiet (fenced_offRecords old).quiet
    (fun _ _ h => h) (fun _ _ h => h.fenced) (fun _ _ _ h => h)
    (fun _ state h => (h.fence _ state).2 rfl) (fun _ state _ h => (h.fence _ state).1)
    fun _ state h => (h.fence _ state).1

variable {c : Convergence (World (Accounted η) γ)}

theorem drained_aside : Aside (Drained old : World (Accounted η) γ → Prop) := fun _ _ _ h => h

/-- What the store keeps of the account. -/
theorem drained_keeps {m : Prog Error (World (Accounted η) γ) α}
    (h : Aside (Drained old : World (Accounted η) γ → Prop) →
      Keeps (Over (fun _ => True) (Drained old)) m) :
    Triple (Drained old) m (fun _ => Drained old) (Halts old) :=
  (h drained_aside).conseq (fun _ hw => ⟨trivial, hw⟩) (fun _ _ hw => hw.2) fun _ _ hw => .inl hw.2

/-- **The engine**, once the service may be touched. -/
theorem engine_drained (hdies : r.DiesAtHosts) (hc : ReadsProduct c) :
    Confined (r.accounted.engine c) (Drained old) (Halts old) := by
  have hquiet := (drained_offRecords (η := η) (γ := γ) old).quiet
  have hslots : FileStore.OffSlots fun _ => True := fun _ _ _ _ => trivial
  have hread : ∀ {β : Type} {m : Prog Error (World (Accounted η) γ) β}, Keeps (Drained old) m →
      Triple (Drained old) m (fun _ => Drained old) (Halts old) := fun h =>
    h.conseq (fun _ hw => hw) (fun _ _ hw => hw) fun _ _ hw => .inl hw
  exact {
    definite := fun err w hu h => h.elim id fun h => by
      rw [kind_some.mp h.2] at hu
      cases hu
    invalid := fun _ _ h => .inl h
    readJournal := hread FileStore.readDisk_keeps
    append := fun entry => drained_keeps fun hI =>
      FileStore.append_keeps hI (fun _ _ _ => trivial) entry
    versions := hread FileStore.readDisk_keeps
    stage := fun version bytes => drained_keeps fun hI =>
      FileStore.stage_keeps hI hslots version bytes
    promote := drained_keeps fun hI => FileStore.promote_keeps hI hslots
    clear := drained_keeps fun hI => FileStore.removeDir_keeps hI hslots .experiment
    fence := hostCall_drained hdies (by decide) (fun host => host.fence) fun _ => rfl
    quiesce := hostCall_drained hdies (by decide) (fun host => host.quiesce) fun _ => rfl
    stop := fun slot => hostCall_drained hdies (by decide) (fun host => host.stop slot) fun _ => rfl
    start := fun slot =>
      hostCall_drained hdies (by decide) (fun host => host.start slot) fun _ => rfl
    probe := hostCall_drained hdies (by decide) (fun host => host.probe) fun _ => rfl
    resume := hostCall_drained hdies (by decide) (fun host => host.resume) fun _ => rfl
    evaluate := fun evidence target =>
      (hread (evaluate_keeps hquiet.product hquiet.observed hc evidence target)).post
        fun reply w h => by
          cases reply with
          | some verdict => exact h
          | none => exact fun _ => .inl h }

/-- What is known at each point of recovery: up to its fence, nothing. -/
def drainedAt (old : List HostIssue) : Point → World (Accounted η) γ → Prop
  | .entry | .opened _ => Fenced old
  | _ => Drained old

/-- **Recovery** fences before it touches the service. -/
theorem recover_drains (hdies : r.DiesAtHosts) (hc : ReadsProduct c) :
    Triple (OnWorld (Fenced old)) (r.accounted.engine c).recover (fun _ => OnWorld (Drained old))
      (fun _ => OnWorld (Fenced old)) := by
  have hdrained : Confined (r.accounted.engine c) (Drained old) (Halts old) :=
    engine_drained hdies hc
  have hengine := hdrained.encloses.recoverOutline
  have hstops : ∀ {β : Type} {P : Running (World (Accounted η) γ) → Prop}
      {m : Prog Error (Running (World (Accounted η) γ)) β}
      {Q : β → Running (World (Accounted η) γ) → Prop},
      Triple P m Q (fun e => OnWorld (Halts old e)) →
      Triple P m Q (fun _ => OnWorld (Fenced old)) :=
    fun h => h.conseq (fun _ hs => hs) (fun _ _ hs => hs) fun _ _ hs => Halts.fenced hs
  have houtline : RecoverOutline (r.accounted.engine c) (fun p => OnWorld (drainedAt old p))
      (fun _ => OnWorld (Fenced old)) :=
    { stop := hstops hengine.stop
      start := hstops hengine.start
      resumed := hstops hengine.resumed
      clear := hstops hengine.clear
      promote := hstops hengine.promote
      resume := hstops hengine.resume
      read := readEntries_triple (P := Fenced old) (fun _ _ hs _ => hs) fun _ _ hs _ => hs
      fence := fun tail => Confined.bounded (fence_drains hdies)
      idle := fun _ hs => hs.elim id id
      commit := fun _ hs => hs
      redo := fun _ hs => hs
      withdraw := fun reason => hstops (hengine.withdraw reason)
      abandon := fun tail reason htail => hstops (hengine.abandon tail reason htail) }
  exact houtline.recover_triple.post fun _ _ ⟨_, hs⟩ => hs

/-- What may be skipped is about the journal, the record and the slots. -/
theorem skippable_congr {d d' : Disk} (hj : d'.journal = d.journal)
    (ho : d'.operation = d.operation) (hs : d'.slots = d.slots) (h : d'.Skippable) :
    d.Skippable := by
  obtain ⟨op, outcome, state, hop, hout, hstate, hrest, hv⟩ := h
  rw [Disk.readOperation_congr ho] at hop
  rw [transactionState_congr hj hs] at hstate
  exact ⟨op, outcome, state, hop, hout, hstate, hrest, hv⟩

/-- **Nothing outstanding** is what a settled record stands for. -/
theorem drained_vouches (hdies : r.DiesAtHosts) (old : List HostIssue) :
    Vouches r.accounted (fun w : World (Accounted η) γ => ¬w.disk.Skippable) (Fenced old)
      (Drained old) where
  exempt w hun := fun ⟨op, outcome, _, hop, hout, _⟩ => by
    rw [hun op hop] at hout
    cases hout
  exemptQuiet := ⟨fun _ _ h => h, fun _ _ _ h => h, fun _ _ h => h, fun _ _ h => h,
    fun _ _ hj ho _ hs h hskip => h (skippable_congr hj ho hs hskip)⟩
  exemptLock _ _ _ h := h
  recovers _ h := h
  base := fenced_offRecords old
  baseLock _ _ _ h := h
  rests := drained_offRecords old
  restsLock _ _ _ h := h
  weaken _ h := h.fenced
  recover _ hc := recover_drains hdies hc
  upgrade _ hc version bytes := ((engine_drained hdies hc).encloses.upgrade version bytes).conseq
    (fun _ hs => hs) (fun _ _ hs => hs) fun _ _ hs => Halts.fenced hs
  clear := by
    have hkeeps : Keeps (Over (fun _ => True) (Drained old))
        (r.accounted.store.clear : Prog Error (World (Accounted η) γ) Unit) :=
      FileStore.removeDir_keeps drained_aside (fun _ _ _ _ => trivial) .experiment
    exact hkeeps.conseq (fun _ h => ⟨trivial, h⟩) (fun _ _ h => h.2) fun _ _ h => h.2

end Runner

/-! ## runs -/

/-- A rollback, or an upgrade without a record, that leaves a host call outstanding where the
next call skips recovery. -/
def Visit.LeavesOutstanding (v : Visit (Accounted η) γ) (w : World (Accounted η) γ) : Prop :=
  (v.call.unrecorded ∨ ∃ reason, v.call = .rollback reason) ∧
    ¬KCarrier.Returned (v.run w).host.issues ∧ (v.run w).disk.Skippable

/-- Nothing is outstanding where recovery is skipped. -/
def Reliable (w : World (Accounted η) γ) : Prop := w.disk.Skippable → Returned w.host.issues

/-- In a reliable world no settled record hides what is outstanding. -/
theorem Reliable.vouched {w : World (Accounted η) γ} (h : Reliable w) :
    Runner.Vouched (fun w => ¬w.disk.Skippable) (Fenced w.host.issues) (Drained w.host.issues) w :=
  ⟨fenced_start, Classical.or_iff_not_imp_left.mpr fun hskip =>
    drained_start (h (Classical.not_not.mp hskip))⟩

/-- **One visit** fences its calls. -/
theorem Visit.run_fenced {v : Visit η γ} (hdies : v.runner.DiesAtHosts)
    {w : World (Accounted η) γ} (hw : Reliable w) :
    Fenced w.host.issues (v.accounted.run w) :=
  Visit.run_of_triple ((Runner.drained_vouches hdies w.host.issues).any_call v.call).call_triple
    (Reliable.vouched (w := v.accounted.finds w) hw)

/-- It leaves a reliable world, unless it leaves a call outstanding behind a record. -/
theorem Visit.run_reliable {v : Visit η γ} (hdies : v.runner.DiesAtHosts)
    {w : World (Accounted η) γ} (hw : Reliable w) (hleaves : ¬v.accounted.LeavesOutstanding w) :
    Reliable (v.accounted.run w) := by
  intro hskip
  by_cases hcall : v.call.unrecorded ∨ ∃ reason, v.call = .rollback reason
  · exact Classical.byContradiction fun hout => hleaves ⟨hcall, hout, hskip⟩
  · have hrecorded := (Runner.drained_vouches hdies w.host.issues).recorded_call v.call
      (fun hunrecorded => hcall (.inl hunrecorded))
      fun reason hrollback => absurd (.inr ⟨reason, hrollback⟩) hcall
    have hvouched := Visit.run_of_triple (v := v.accounted) (w := w) hrecorded.call_triple
      (Reliable.vouched (w := v.accounted.finds w) hw)
    exact (hvouched.2.resolve_left fun h => h hskip).returned

/-- A directory that was bootstrapped is reliable. -/
theorem World.Bootstrapped.reliable {w : World η γ} {v : String} (h : w.Bootstrapped v) :
    Reliable w.accounted := by
  rintro ⟨op, _, _, hop, _⟩
  have hfile : w.disk.operation = .content op := (Disk.readOperation_observed_iff.mp hop).1
  rw [h.operation] at hfile
  cases hfile

/-- **The service is touched behind a fence.**  In any run of calls on a bootstrapped directory,
each cut off anywhere, in which no rollback and no upgrade without a record leaves a host call
outstanding where the next call skips recovery: the next call quiesces, stops, starts and
resumes the service behind a fence of its own that was answered, or with no host call of an
earlier one outstanding. -/
theorem lifecycle_fenced (visits : List (Visit η γ)) (w : World η γ) (v : String)
    (hw : w.Bootstrapped v) (hdies : ∀ visit ∈ visits, visit.runner.DiesAtHosts)
    (hmeets : EachVisit (fun visit w => ¬visit.LeavesOutstanding w)
      (visits.map Visit.accounted) w.accounted)
    (next : Visit η γ) (hnext : next.runner.DiesAtHosts) :
    ∃ new, (next.accounted.run (runAccounted visits w)).host.issues =
        (runAccounted visits w).host.issues ++ new ∧
      FencedAfter (runAccounted visits w).host.issues new := by
  have hrun : Reliable (runAccounted visits w) := by
    have hstart := hw.reliable
    unfold runAccounted
    generalize w.accounted = w' at hstart hmeets ⊢
    induction visits generalizing w' with
    | nil => exact hstart
    | cons visit visits ih =>
        exact ih (fun v hv => hdies v (List.mem_cons_of_mem _ hv)) _
          (Visit.run_reliable (hdies visit (by simp)) hstart hmeets.1) hmeets.2
  exact Visit.run_fenced hnext hrun

namespace Service

/-- The product's controller, in whose stop command the worker dies. -/
def dyingHost (d : Disk) : Host Service := { host d with stop := fun _ s => (.crash, s) }

/-- An upgrade for `a` that a surface refuses is rolled back, and a rollback dies in its stop
command. -/
def stopOutstanding : List (Visit Service Unit) :=
  [⟨{ runner 7 Faults.clean with surfaces := [⟨"live", HostCall.reply ("other", "x")⟩] }, .free,
      (), .execute (.upgrade 1 "a" "2" true)⟩,
    ⟨{ runner 8 Faults.clean with host := dyingHost }, .free, (), .rollback "operator"⟩]

/-- The next upgrade. -/
def upgradeVisit : Visit Service Unit :=
  ⟨runner 9 Faults.clean, .free, (), .execute (.upgrade 1 "b" "3" true)⟩

/-- Without faults no call of the host fails but with the worker. -/
theorem diesAtHosts_clean {r : Runner Service Unit} (h : r.store.faults = Faults.clean) :
    r.DiesAtHosts := by
  intro name _ n e hfault
  rw [h] at hfault
  cases hfault

/-- The settled record of `a` lets the upgrade skip its fence: it parks, stops and starts the
service with the rollback's stop command outstanding. -/
theorem lifecycle_unfenced : (installed "1").Bootstrapped "1" ∧
    (∀ visit ∈ stopOutstanding ++ [upgradeVisit], visit.runner.DiesAtHosts) ∧
    ¬∃ new, (upgradeVisit.accounted.run
          (runAccounted stopOutstanding (installed "1"))).host.issues =
        (runAccounted stopOutstanding (installed "1")).host.issues ++ new ∧
      FencedAfter (runAccounted stopOutstanding (installed "1")).host.issues new := by
  have hversion : "1" ≠ "" ∧ trim "1" = "1" := by decide +kernel
  refine ⟨installed_bootstrapped hversion.1 hversion.2, fun visit hvisit => ?_, ?_⟩
  · simp only [stopOutstanding, List.cons_append, List.nil_append, List.mem_cons, List.not_mem_nil,
      or_false] at hvisit
    rcases hvisit with rfl | rfl | rfl <;> exact diesAtHosts_clean rfl
  · rintro ⟨new, hnew, hfenced⟩
    have hissued : ((upgradeVisit.accounted.run
        (runAccounted stopOutstanding (installed "1"))).host.issues.drop
          (runAccounted stopOutstanding (installed "1")).host.issues.length).take 2 =
        [⟨"probe", .answered⟩, ⟨"quiesce", .answered⟩] := by decide +kernel
    have hcut : (runAccounted stopOutstanding (installed "1")).host.issues =
        (runAccounted stopOutstanding (installed "1")).host.issues.dropLast ++
          [⟨"stop", .cutOff⟩] := by decide +kernel
    rw [hnew, List.drop_left] at hissued
    have hsplit : new = [⟨"probe", .answered⟩] ++ ⟨"quiesce", .answered⟩ :: new.drop 2 := by
      calc new = new.take 2 ++ new.drop 2 := (List.take_append_drop 2 new).symm
        _ = _ := by rw [hissued]; rfl
    rcases hfenced _ _ _ hsplit (by decide) with ⟨fence, hm, hdrains⟩ | hreturned
    · rw [List.mem_singleton.mp hm] at hdrains
      exact absurd hdrains.1 (by decide)
    · rw [hcut] at hreturned
      exact not_returned_concat rfl hreturned

/-- An upgrade with a record whose worker dies in the stop command. -/
def stopCutOff : List (Visit Service Unit) :=
  [⟨{ runner 7 Faults.clean with host := dyingHost }, .free, (),
    .execute (.upgrade 1 "a" "2" true)⟩]

/-- An upgrade after one that died in its stop. -/
theorem lifecycle_fenced_stop :
    ∃ new, (upgradeVisit.accounted.run (runAccounted stopCutOff (installed "1"))).host.issues =
        (runAccounted stopCutOff (installed "1")).host.issues ++ new ∧
      FencedAfter (runAccounted stopCutOff (installed "1")).host.issues new := by
  have hversion : "1" ≠ "" ∧ trim "1" = "1" := by decide +kernel
  refine lifecycle_fenced stopCutOff (installed "1") "1"
    (installed_bootstrapped hversion.1 hversion.2) (fun visit hvisit => ?_) ⟨?_, True.intro⟩
    upgradeVisit (diesAtHosts_clean rfl)
  · rw [List.mem_singleton.mp hvisit]
    exact diesAtHosts_clean rfl
  · rintro ⟨hcall | ⟨reason, hcall⟩, -⟩
    · exact hcall
    · cases hcall

end Service

end KCarrier
