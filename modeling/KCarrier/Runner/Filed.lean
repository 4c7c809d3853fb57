import KCarrier.Runner.Settlement

/-!
# KCarrier.Runner.Filed

Where the record of an answer stands.

A request that was settled before is answered with its receipt, and every other answer shows the
current record.  So an answer that shows the record of its request shows one that the directory
holds when the worker is done, as the current one or in the archive (`execute_filed`).
-/

namespace KCarrier

open Crash
open Running

/-- The directory holds `op` as the record of `e`. -/
def Disk.Files (digest : String → String) (d : Disk) (e : Expected) (op : Operation) : Prop :=
  op.IsFor e ∧ (d.readOperation = .observed op ∨ d.readArchive digest e.id = .observed op)

namespace Runner

variable {η γ : Type} {r : Runner η γ} {e : Expected}

/-- A receipt that is replayed is in the directory. -/
def Filed (r : Runner η γ) (e : Expected) (err : Option Error) (w : World η γ) : Prop :=
  ∀ op, err = some (.replay op) → op.outcome ≠ none ∧ w.disk.Files r.store.digest e op

theorem filed_of_kind {err : Option Error} {w : World η γ} (h : Kind Error.NotReplay err) :
    r.Filed e err w := fun op he => absurd rfl (h _ he op)

theorem filed_offLock (err : Option Error) : OffLock (r.Filed e err) := fun _ _ _ h => h

/-- The record that answers for a request is its own, and settled. -/
theorem recordAnswer_replay {missing : Except Error Unit} {record : Option Operation}
    {op : Operation} (hmissing : missing ≠ .error (.replay op))
    (h : recordAnswer e missing record = .error (.replay op)) :
    record = some op ∧ op.id = e.id ∧ op.targetVersion = e.targetVersion ∧ op.outcome ≠ none := by
  cases record with
  | none => exact absurd h hmissing
  | some current =>
      by_cases hid : current.id = e.id
      · by_cases ht : current.targetVersion = e.targetVersion
        · by_cases ho : current.outcome = none
          · simp [recordAnswer, hid, ht, ho] at h
          · rw [recordAnswer_some hid ht ho] at h
            cases h
            exact ⟨rfl, hid, ht, ho⟩
        · rw [recordAnswer_conflict hid ht] at h
          cases h
      · simp only [recordAnswer, hid, if_false] at h
        exact absurd h hmissing

theorem priorAnswer_filed {w : World η γ} {recover : Bool} {err : Error}
    (h : priorAnswer r.store.digest w.disk e recover = .error err) : r.Filed e (some err) w := by
  rintro op ⟨⟩
  have hmissing : missingAnswer recover ≠ .error (.replay op) := by
    cases recover <;> simp [missingAnswer]
  have harchived : ∀ old, w.disk.readArchive r.store.digest e.id = .observed old →
      recordAnswer e (missingAnswer recover) (some old) = .error (.replay op) →
      op.outcome ≠ none ∧ w.disk.Files r.store.digest e op := by
    intro old ha hrecord
    obtain ⟨hsame, hid, ht, ho⟩ := recordAnswer_replay hmissing hrecord
    cases hsame
    have hvalid := readOperationFile_valid (readArchive_observed ha).1
    exact ⟨ho, ⟨hvalid, hid, ht⟩, .inr ha⟩
  unfold priorAnswer at h
  cases hop : w.disk.readOperation with
  | unreadable reason => simp [hop] at h
  | genesis =>
      cases ha : w.disk.readArchive r.store.digest e.id with
      | unreadable reason => simp [hop, ha] at h
      | observed old =>
          simp only [hop, ha] at h
          exact harchived old ha h
      | genesis =>
          simp only [hop, ha] at h
          have hnone := (recordAnswer_replay hmissing h).1
          cases hnone
  | observed current =>
      cases ha : w.disk.readArchive r.store.digest e.id with
      | unreadable reason => simp [hop, ha] at h
      | observed old =>
          simp only [hop, ha] at h
          exact harchived old ha h
      | genesis =>
          simp only [hop, ha] at h
          obtain ⟨hsame, hid, ht, ho⟩ := recordAnswer_replay hmissing h
          cases hsame
          exact ⟨ho, readOperation_isFor hop hid ht, .inl hop⟩

theorem indifferent_true : Indifferent fun _ : World η γ => True where
  tick _ _ h := h
  note _ _ _ h := h
  product _ _ h := h
  observed _ _ h := h
  files _ _ _ _ _ _ h := h

/-- What raises nothing of the runner's own replays nothing. -/
theorem filed_of_raises {σ α : Type} {P : σ → Prop} {F : Option Error → σ → Prop}
    {m : Prog Error σ α} (h : Raises Error.NotReplay m)
    (hF : ∀ err s, Kind Error.NotReplay err → F err s) : Triple P m (fun _ _ => True) F :=
  h.conseq (fun _ _ => trivial) (fun _ _ h => h) fun err s herr => hF err s herr

/-- The outline of a drive that asks only where a replayed receipt is from. -/
theorem filedOutline (hr : r.Surroundings Error.NotReplay) {c : Convergence (World η γ)}
    (hc : ReadsProduct c) {desc : OperationDescriptor} {target : String} {options : UpgradeOptions}
    (hdesc : options.operation = some desc) (hid : desc.id = e.id) :
    DriveOutline r c (some target) options Error.NotReplay (Paired e) (fun _ _ _ => True)
      (fun _ _ _ => True) (fun _ err _ => Kind Error.NotReplay err) (fun _ _ => True)
      (r.Filed e) := by
  have htransition : ∀ op phase outcome reason {P : World η γ → Prop}, Triple P
      (r.transition op phase outcome reason) (fun _ _ => True) (r.Filed e) :=
    fun op phase outcome reason {_} =>
      filed_of_raises (transition_raises hr.faults hr.plain op phase outcome reason)
        fun _ _ => filed_of_kind
  have hrecover : Triple (OnWorld (Paired e)) (r.recoverEngine c) (fun _ => OnWorld (Paired e))
      (fun err => OnWorld (r.Filed e err)) :=
    ((recoverEngine_raises hr c).and (recoverEngine_keeps (paired_on e).records hc)).conseq
      (fun _ h => h) (fun _ _ h => h) fun _ _ h => filed_of_kind h.1
  have hsettle : Triple (Paired e) r.settle (fun _ => Paired e) (r.Filed e) :=
    ((settle_raises hr.faults hr.plain).and settle_paired).conseq (fun _ h => h) (fun _ _ h => h)
      fun _ _ h => filed_of_kind h.1
  have hopen : Triple (Paired e : World η γ → Prop) (r.openOperation (some target) options)
      (fun _ _ => True) (r.Filed e) := by
    refine openOperation_errors hr.faults hr.plain (some target) options
      (fun _ _ h => filed_of_kind h) ?_
    intro desc' previous w hdesc' hw hop hsame ho op herr
    cases herr
    rw [hdesc, Option.some.injEq] at hdesc'
    subst hdesc'
    have hsame := hsame.trans hid
    exact ⟨ho, readOperation_isFor hop hsame (hw _ hop hsame), .inl hop⟩
  exact {
    outside := hr.toOutside
    quietActive := fun _ _ => indifferent_true
    quietEnded := fun _ _ => indifferent_true
    quiet := fun _ => indifferent_true
    active := fun _ _ _ _ h _ => filed_of_kind h
    ended := fun _ _ _ _ h _ => filed_of_kind h
    closed := fun _ _ _ h _ => filed_of_kind h
    broken := fun _ _ h => filed_of_kind h
    start := ⟨OnWorld (Paired e), OnWorld (Paired e), hrecover,
      Triple.zoom fun s hs => hsettle s.world hs, Triple.zoom fun s hs => hopen s.world hs⟩
    progress := fun _ _ _ _ => htransition _ _ _ _
    finish := fun _ _ _ _ _ => htransition _ _ _ _
    upgrade := fun _ release _ =>
      filed_of_raises ((engine_raises hr c).upgrade release.version incomingPath) fun _ _ h => h
    abandon := fun op err reason => by
      intro w hw
      have hkeep : Triple (fun _ : World η γ => True) (r.transition op .recovering none reason)
          (fun _ _ => True) (r.Filed e) := htransition _ _ _ _
      exact (hkeep w trivial).mono (fun _ _ _ => filed_of_kind hw) fun _ _ h => h
    conclude := fun _ _ _ => htransition _ _ _ _ }

/-- A request that fails with a receipt of its operation leaves it in the directory. -/
theorem perform_filed (hr : r.Surroundings Error.NotReplay) {request : Request}
    (he : request.expected = some e) :
    Triple (fun _ : World η γ => True) (r.perform request) (fun _ _ => True) (r.Filed e) := by
  have hlocked : ∀ {α : Type} {body : Prog Error (World η γ) α},
      Triple (fun _ : World η γ => True) body (fun _ _ => True) (r.Filed e) →
      Triple (fun _ : World η γ => True) (r.locked body) (fun _ _ => True) (r.Filed e) :=
    fun hbody => locked_kind_triple hr.lockErrors (fun _ _ _ h => h) (fun _ _ _ _ h => h)
      filed_offLock (fun _ _ h _ => filed_of_kind h) (fun _ _ _ h _ => filed_of_kind h)
      (fun _ _ _ h _ => filed_of_kind h) hbody
  have hinvalid : ∀ message (w : World η γ), r.Filed e (some (.invalid message)) w :=
    fun _ _ _ h => by cases h
  cases request with
  | status version => cases he
  | recover version expected =>
      obtain rfl : expected = some e := he
      refine Triple.bind (hlocked ?_) fun _ => Triple.pure fun _ _ => trivial
      refine recoverLocked_triple (E := fun _ => True) (some e) (fun message w _ => hinvalid message w)
        (fun e' err w he' _ h => ?_) (fun _ _ _ => trivial) (fun _ _ _ => trivial)
        (fun message w _ => hinvalid message w) fun c hc => ?_
      · cases he'
        exact priorAnswer_filed h
      · refine Triple.bind (R := fun _ _ => True) ?_ fun _ => ?_
        · exact filed_of_raises (recoverEngine_raises hr c) fun _ _ => filed_of_kind
        · have hsettle : Triple (fun _ : World η γ => True) r.settle (fun _ _ => True)
              (r.Filed e) :=
            filed_of_raises (settle_raises hr.faults hr.plain) fun _ _ => filed_of_kind
          exact Triple.zoom fun s _ => hsettle s.world trivial
  | upgrade version id targetVersion consented =>
      cases he
      unfold perform upgradeTo
      refine Triple.get_bind fun w _ => ?_
      refine Triple.bind (R := fun _ _ => True) ?_ fun _ => Triple.pure fun _ _ => trivial
      unfold Runner.drive
      refine Triple.get_bind fun w' _ => ?_
      cases r.hooks.managedElsewhere w'.product with
      | true =>
          have hnotify : Raises Error.NotReplay (product (η := η) (r.hooks.notify "held"
              [("reason", "managed-elsewhere")])) := Outside.asked (hr.notify _ _)
          refine Triple.bind ((filed_of_raises hnotify fun _ _ => filed_of_kind).pre
            fun _ _ => trivial) fun _ => Triple.pure fun _ _ => trivial
      | false =>
          refine (hlocked ?_).pre fun _ _ => trivial
          refine driveLocked_triple (E := Paired ⟨id, targetVersion⟩) (some targetVersion) _
            (fun message w _ => hinvalid message w) (fun desc err w hdesc _ h => ?_)
            (fun w _ hthrough => priorAnswer_paired (hthrough _ rfl))
            (paired_on _).books.observed (fun message w _ => hinvalid message w) fun c hc =>
              (filedOutline hr hc rfl rfl).driveEngine_triple
          cases hdesc
          exact priorAnswer_filed h

/-- **An answer is on file.**  What a request is answered with about its own operation is a record
of the directory. -/
theorem execute_filed (hr : r.Surroundings Error.NotReplay) {w w' : World η γ} {request : Request}
    {response : Response} (h : r.execute request w = (.ok response, w'))
    (he : request.expected = some e) {op : Operation} (hop : response.operation = .observed op)
    (hid : op.id = e.id) (ht : op.targetVersion = e.targetVersion) :
    w'.disk.Files r.store.digest e op := by
  obtain ⟨-, result, hattempt, rfl⟩ := execute_ok h
  have hfiled : Triple (fun _ : World η γ => True) (Prog.attempt (r.perform request))
      (fun result w' => ∀ op, result = .error (.replay op) →
        w'.disk.Files r.store.digest e op) (fun _ _ => True) := by
    refine Triple.attempt ((perform_filed hr he).conseq (fun _ h => h) (fun _ _ _ op h => ?_)
      fun err _ h => ?_)
    · cases h
    · cases err with
      | none => trivial
      | some err => exact fun op herr => by cases herr; exact (h op rfl).2
  have hcurrent : w'.disk.readOperation = .observed op → w'.disk.Files r.store.digest e op :=
    fun h => ⟨readOperation_isFor h hid ht, .inl h⟩
  rw [respond_operation] at hop
  cases result with
  | ok a => exact hcurrent hop
  | error err =>
      obtain ⟨old, rfl⟩ | ⟨pid, rfl⟩ | ⟨hno, hlocked⟩ := error_cases err
      · cases hop
        exact hfiled.run_ok trivial hattempt op rfl
      · exact hcurrent hop
      · obtain ⟨word, code, hreport, -⟩ := report_error w'.disk.readOperation hno hlocked
        rw [hreport] at hop
        exact hcurrent hop

/-- The word a request comes to when it fails in nothing. -/
theorem perform_word {request : Request} {w w' : World η γ} {a : String × Nat}
    (h : r.perform request w = (.ok a, w')) : a.1 ≠ "busy" := by
  cases request with
  | status version =>
      cases h
      decide
  | recover version expected =>
      obtain ⟨_, _, -, h⟩ := Prog.bind_eq_ok h
      cases h
      decide
  | upgrade version id targetVersion consented =>
      obtain ⟨_, _, -, h⟩ := Prog.bind_eq_ok h
      obtain ⟨outcome, _, -, h⟩ := Prog.bind_eq_ok h
      cases h
      cases outcome <;> simp [answerOf]

theorem respond_result (request : Request) (result : Except Error (String × Nat))
    (read : OperationRead) : (respond request result read).result = "failed" ∨
      (respond request result read).result = (report result read).2.1 := by
  unfold respond
  dsimp only
  split
  · exact .inl rfl
  · exact .inr rfl

/-- **Busy** is the answer to a lock that is taken, and to nothing else. -/
theorem execute_busy {w w' : World η γ} {request : Request} {response : Response}
    (h : r.execute request w = (.ok response, w')) (hbusy : response.result = "busy") :
    ∃ pid, Prog.attempt (r.perform request) w = (.ok (.error (.locked pid)), w') := by
  obtain ⟨-, result, hattempt, rfl⟩ := execute_ok h
  rcases respond_result request result w'.disk.readOperation with hfailed | hword
  · rw [hfailed] at hbusy
    exact absurd hbusy (by decide)
  rw [hword] at hbusy
  cases result with
  | ok a => exact absurd hbusy (perform_word (Prog.attempt_eq_ok hattempt))
  | error err =>
      obtain ⟨old, rfl⟩ | ⟨pid, rfl⟩ | ⟨hno, hlocked⟩ := error_cases err
      · exact absurd hbusy (show ¬"replayed" = "busy" by decide)
      · exact ⟨pid, hattempt⟩
      · obtain ⟨word, code, hreport, hcases, -⟩ := report_error w'.disk.readOperation hno hlocked
        rw [hreport] at hbusy
        rcases hcases with ⟨hrequired, -⟩ | ⟨hfailed, -⟩
        · exact absurd (hrequired.symm.trans hbusy) (by decide)
        · exact absurd (hfailed.symm.trans hbusy) (by decide)

end Runner

end KCarrier
