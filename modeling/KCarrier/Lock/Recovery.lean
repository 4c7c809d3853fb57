import KCarrier.Json.Unclosed
import KCarrier.Lock.Exclusion
import KCarrier.Protocol.Wire

/-!
# KCarrier.Lock.Recovery

The lock after its owners died.

`acquireAt` and `release` are the calls of one process that has the directory to itself, on
a file system that works, so they are functions of what the directory holds: the claims, and
the bytes of the lock file.  `Left` is a state the processes of `Step` can leave behind, each
killed between any two of its file operations, and `Shows` a directory that shows it: a lock
file that was created holds as much of its record as was written.

* `sweep_dead` — the claims of dead processes go;
* `lockFile_dead` — so does their lock file, whole or cut off, at the first try;
* `lock_recovers` — so acquiring works, and releasing leaves nothing.
-/

namespace KCarrier

open Json (Value toVec)

namespace UpgradeLock

/-! ## the record -/

structure Record where
  pid : Nat
  acquiredAtMs : Nat
deriving DecidableEq, Repr

def Record.toJson (r : Record) : Value :=
  .object [("pid", .number (.natural r.pid)), ("acquiredAtMs", .number (.natural r.acquiredAtMs))]

def Record.fromJson (v : Value) : Option Record := do
  let fields ← Json.record ["pid", "acquiredAtMs"] false v
  let pid ← Json.required fields "pid" (Value.asUnsigned 32)
  let acquiredAtMs ← Json.required fields "acquiredAtMs" (Value.asUnsigned 64)
  some ⟨pid, acquiredAtMs⟩

def Record.bytes (r : Record) : Bytes := toVec r.toJson

def Record.fromSlice (serde : Serde) (bytes : Bytes) : Option Record :=
  (Json.fromSlice serde.float bytes).bind Record.fromJson

/-! ## one process alone -/

/-- The entries of `upgrade.lock.claims`, and `upgrade.lock`. -/
structure Directory where
  claims : List String
  lock : Option Bytes
deriving DecidableEq, Repr

/-- The handle of an acquired lock. -/
structure Guard where
  claim : String
  released : Bool
  retained : Bool
deriving DecidableEq, Repr

def Directory.unclaim (d : Directory) (name : String) : Directory :=
  { d with claims := d.claims.filter (· != name) }

/-- The loop over the entries of the listing. -/
def sweep (alive : Nat → Bool) (name : String) :
    List String → Directory → Except Error Unit × Directory
  | [], d => (.ok (), d)
  | other :: rest, d =>
      if other = name then
        sweep alive name rest d
      else
        match ownerOf other with
        | none => (.error (.invalid "UPGRADE_LOCK_UNREADABLE"), d)
        | some pid =>
            if alive pid then (.error (.locked pid), d)
            else sweep alive name rest (d.unclaim other)

/-- The tries for the lock file. -/
def lockFile (serde : Serde) (alive : Nat → Bool) (record : Record) :
    Nat → Directory → Except Error Unit × Directory
  | 0, d => (.error (.invalid "UPGRADE_LOCK_UNRESOLVABLE"), d)
  | tries + 1, d =>
      match d.lock with
      | none => (.ok (), { d with lock := some record.bytes })
      | some bytes =>
          match (Record.fromSlice serde bytes).filter (alive ·.pid) with
          | some held => (.error (.locked held.pid), d)
          | none => lockFile serde alive record tries { d with lock := none }

/-- `acquire_at` of process `pid`; `listing` is the order in which the claims are listed. -/
def acquireAt (serde : Serde) (alive : Nat → Bool) (pid : Nat) (uuid : String)
    (timestampMs : Nat) (listing : List String) (d : Directory) :
    Except Error Guard × Directory :=
  let name := claimName pid uuid
  let d := { d with claims := name :: d.claims }
  let attempt : Except Error Unit × Directory :=
    match sweep alive name listing d with
    | (.error e, d) => (.error e, d)
    | (.ok (), d) => lockFile serde alive ⟨pid, timestampMs⟩ 50 d
  match attempt with
  | (.error e, d) => (.error e, d.unclaim name)
  | (.ok (), d) => (.ok ⟨name, false, false⟩, d)

def retainUntilExit (guard : Guard) : Guard := { guard with retained := true }

def release (guard : Guard) (d : Directory) : Guard × Directory :=
  if guard.released ∨ guard.retained then
    (guard, d)
  else if guard.claim ∈ d.claims then
    ({ guard with released := true }, { d with lock := none }.unclaim guard.claim)
  else
    ({ guard with released := true }, d)

/-! ## what dead processes leave -/

variable {P G : Type} [DecidableEq G]

/-- What any processes made of an empty directory. -/
inductive Left (env : Contenders P G) : State P G → Prop
  | empty {s} : Initial env s → s.claims = [] → s.lock = none → Left env s
  | step {s t} : Left env s → Step env s t → Left env t

/-- The directory shows the state.  The file of the lock holds what was written of the record
of the process that created it, and all of it when the record is complete. -/
structure Directory.Shows (env : Contenders P G) (s : State P G) (d : Directory) : Prop where
  claims : ∀ entry, entry ∈ d.claims ↔ entry ∈ s.claims
  absent : s.lock = none → d.lock = none
  record : ∀ file, s.lock = some file → ∃ bytes p timestampMs, d.lock = some bytes ∧
    timestampMs < 2 ^ 64 ∧ bytes <+: Record.bytes ⟨env.pid p, timestampMs⟩ ∧
    ∀ pid, s.record file = some pid →
      pid = env.pid p ∧ bytes = Record.bytes ⟨env.pid p, timestampMs⟩

/-- The states between which a run is cut off are states of the interleaved model too. -/
theorem Left.reachable {env : Contenders P G} {s : State P G} (h : Left env s) :
    Reachable env s := by
  induction h with
  | empty hinitial => exact .initial hinitial
  | step _ hstep ih => exact ih.step hstep

/-! ## one process after the others -/

variable {env : Contenders P G} {s t : State P G} {d : Directory} {serde : Serde}
  {alive : Nat → Bool}

theorem mem_claims_of_op {g : G} (hop : Op env g s t) {entry : String} (h : entry ∈ t.claims) :
    entry ∈ s.claims ∨ ∃ g, entry = env.name g := by
  cases hop with
  | claim _ =>
      rcases List.mem_cons.mp h with rfl | h
      · exact .inr ⟨g, rfl⟩
      · exact .inl h
  | sweep _ _ => exact .inl (List.mem_of_mem_filter h)
  | forget _ => exact .inl (List.mem_of_mem_filter h)
  | unclaim _ => exact .inl (List.mem_of_mem_filter h)
  | _ => exact .inl h

/-- Every claim that is left was made by a guard. -/
theorem Left.claims (h : Left env s) {entry : String} (hentry : entry ∈ s.claims) :
    ∃ g, entry = env.name g := by
  induction h with
  | empty _ hempty _ =>
      rw [hempty] at hentry
      cases hentry
  | step _ hstep ih =>
      cases hstep with
      | op g _ hop =>
          rcases mem_claims_of_op hop hentry with hold | hnew
          · exact ih hold
          · exact hnew
      | die p => exact ih hentry

/-- The claims of dead processes go, and no other entry does. -/
theorem sweep_dead {name : String} {listing : List String}
    (h : ∀ entry ∈ listing, entry ≠ name → ∃ pid, ownerOf entry = some pid ∧ alive pid = false) :
    sweep alive name listing d =
      (.ok (), { d with claims := d.claims.filter fun c => c = name ∨ c ∉ listing }) := by
  induction listing generalizing d with
  | nil => simp [sweep]
  | cons other rest ih =>
      rw [List.forall_mem_cons] at h
      obtain ⟨hother, hrest⟩ := h
      rw [sweep]
      by_cases hname : other = name
      · have hkeep : d.claims.filter (fun c => c = name ∨ c ∉ rest) =
            d.claims.filter (fun c => c = name ∨ c ∉ other :: rest) :=
          List.filter_congr fun c _ => by
            by_cases hc : c = name <;> simp [hc, hname]
        rw [if_pos hname, ih hrest, hkeep]
      · obtain ⟨pid, howner, hdead⟩ := hother hname
        have hkeep : (d.claims.filter (· != other)).filter (fun c => c = name ∨ c ∉ rest) =
            d.claims.filter (fun c => c = name ∨ c ∉ other :: rest) := by
          rw [List.filter_filter]
          refine List.filter_congr fun c _ => ?_
          by_cases hc : c = other
          · simp [hc, hname]
          · simp [hc]
        rw [if_neg hname, howner]
        simp only [hdead, Bool.false_eq_true, if_false]
        rw [ih hrest]
        simp only [Directory.unclaim, hkeep]

theorem Record.fits_toJson {r : Record} (hpid : r.pid < 2 ^ 32) (hms : r.acquiredAtMs < 2 ^ 64) :
    Json.Fits Json.maxDepth r.toJson := by
  refine .object fun p hp => ?_
  simp only [List.mem_cons, List.not_mem_nil, or_false] at hp
  rcases hp with rfl | rfl
  · exact .number (.natural _ (by omega))
  · exact .number (.natural _ hms)

theorem Record.fromSlice_bytes {r : Record} (hpid : r.pid < 2 ^ 32)
    (hms : r.acquiredAtMs < 2 ^ 64) : Record.fromSlice serde r.bytes = some r := by
  have hpidField : Json.required [("pid", Value.number (.natural r.pid)),
      ("acquiredAtMs", .number (.natural r.acquiredAtMs))] "pid" (Value.asUnsigned 32) =
      some r.pid := Json.asUnsigned_natural hpid
  have hmsField : Json.required [("pid", Value.number (.natural r.pid)),
      ("acquiredAtMs", .number (.natural r.acquiredAtMs))] "acquiredAtMs"
      (Value.asUnsigned 64) = some r.acquiredAtMs := Json.asUnsigned_natural hms
  have hread : Record.fromJson r.toJson = some r := by
    have hfields : Json.record ["pid", "acquiredAtMs"] false r.toJson =
        some [("pid", .number (.natural r.pid)),
          ("acquiredAtMs", .number (.natural r.acquiredAtMs))] := rfl
    simp only [Record.fromJson, hfields, Option.bind_eq_bind, Option.bind_some, hpidField, hmsField]
  rw [Record.fromSlice, Record.bytes, Json.fromSlice_toVec serde.float (fits_toJson hpid hms),
    Option.bind_some, hread]

/-- A record that was not written to its end is not read at all. -/
theorem Record.fromSlice_cut {r : Record} {bytes : Bytes} (hcut : bytes <+: r.bytes)
    (hne : bytes ≠ r.bytes) : Record.fromSlice serde bytes = none := by
  have hdigits : ∀ n, '}' ∉ Nat.toDigits 10 n := Json.not_mem_toDigits (by decide)
  have hbrace : '}' ∉ Json.writeMembers [("pid", .number (.natural r.pid)),
      ("acquiredAtMs", .number (.natural r.acquiredAtMs))] := by
    have hpid : '}' ∉ Json.writeString "pid" := by decide
    have hms : '}' ∉ Json.writeString "acquiredAtMs" := by decide
    simp [Json.writeMembers, Value.write, Json.Number.write, hdigits, hpid, hms]
  rw [Record.fromSlice, Json.fromSlice_unclosed hbrace hcut hne, Option.bind_none]

/-- The lock file of a dead process goes, whole or cut off, at the first try. -/
theorem lockFile_dead {record : Record} {tries : Nat} (held : Record)
    (hlock : ∀ bytes, d.lock = some bytes → bytes <+: held.bytes)
    (hpid : held.pid < 2 ^ 32) (hms : held.acquiredAtMs < 2 ^ 64) (hdead : alive held.pid = false) :
    lockFile serde alive record (tries + 2) d =
      (.ok (), { d with lock := some record.bytes }) := by
  rw [lockFile]
  cases hfile : d.lock with
  | none => rfl
  | some bytes =>
      have hread : (Record.fromSlice serde bytes).filter (alive ·.pid) = none := by
        by_cases hwhole : bytes = held.bytes
        · rw [hwhole, Record.fromSlice_bytes hpid hms]
          simp [hdead]
        · rw [Record.fromSlice_cut (hlock bytes hfile) hwhole]
          rfl
      simp only [hread]
      rfl

/-- **Dead owners never wedge the lock.**  Whatever any processes left of their claims and of
the lock file when they died, a process that has the directory to itself acquires the lock, and
its release leaves neither the lock file nor a claim. -/
theorem lock_recovers (env : Contenders P G) (s : State P G) (hleft : Left env s)
    (hdead : ∀ p, s.dead p) (d : Directory) (hd : d.Shows env s) (serde : Serde)
    (alive : Nat → Bool) (halive : ∀ p, s.dead p → alive (env.pid p) = false)
    (pid : Nat) (uuid : String) (hfresh : claimName pid uuid ∉ d.claims) (timestampMs : Nat)
    (listing : List String)
    (hlisting : ∀ entry, entry ∈ listing ↔ entry = claimName pid uuid ∨ entry ∈ d.claims) :
    ∃ guard held, acquireAt serde alive pid uuid timestampMs listing d = (.ok guard, held) ∧
      held = ⟨[claimName pid uuid], some (Record.bytes ⟨pid, timestampMs⟩)⟩ ∧
      (release guard held).1.released = true ∧ (release guard held).2 = ⟨[], none⟩ := by
  have howners : ∀ entry ∈ listing, entry ≠ claimName pid uuid →
      ∃ pid, ownerOf entry = some pid ∧ alive pid = false := by
    intro entry hentry hne
    rcases (hlisting entry).mp hentry with rfl | hentry
    · exact absurd rfl hne
    · obtain ⟨g, rfl⟩ := hleft.claims ((hd.claims entry).mp hentry)
      exact ⟨_, ownerOf_claimName _ (env.pid_pos _) (env.pid_lt _), halive _ (hdead _)⟩
  have hswept : (claimName pid uuid :: d.claims).filter
      (fun c => c = claimName pid uuid ∨ c ∉ listing) = [claimName pid uuid] := by
    have hrest : d.claims.filter (fun c => c = claimName pid uuid ∨ c ∉ listing) = [] := by
      rw [List.filter_eq_nil_iff]
      intro c hc
      have hlisted : c ∈ listing := (hlisting c).mpr (.inr hc)
      have hne : c ≠ claimName pid uuid := fun heq => hfresh (heq ▸ hc)
      simp [hlisted, hne]
    rw [List.filter_cons, hrest]
    simp
  have hlocked : ∀ claims, lockFile serde alive ⟨pid, timestampMs⟩ 50 ⟨claims, d.lock⟩ =
      (.ok (), ⟨claims, some (Record.bytes ⟨pid, timestampMs⟩)⟩) := by
    intro claims
    cases hlock : s.lock with
    | none =>
        rw [hd.absent hlock]
        rfl
    | some file =>
        obtain ⟨bytes, p, ms, hbytes, hms, hcut, -⟩ := hd.record file hlock
        exact lockFile_dead ⟨env.pid p, ms⟩ (by simp [hbytes, hcut]) (env.pid_lt p) hms
          (halive p (hdead p))
  refine ⟨⟨claimName pid uuid, false, false⟩, _, ?_, rfl, ?_⟩
  · rw [acquireAt, sweep_dead howners]
    simp only [hswept, hlocked]
  · simp [release, Directory.unclaim]

/-- What the killed process of `left_unwritten` left: its claim, and nine bytes of its
record. -/
def unwritten : Directory := ⟨["41-a"], some ((Record.bytes ⟨41, 5⟩).take 9)⟩

/-- A process that died between creating the lock file and completing its record. -/
theorem left_unwritten : ∃ s, Left duo s ∧ (∀ p, s.dead p) ∧ unwritten.Shows duo s := by
  let fresh : State Bool Bool :=
    { claims := []
      lock := none
      files := 0
      record := fun _ => none
      stage := fun _ => .idle
      must := fun _ => []
      dead := fun _ => False }
  have hfresh : Left duo fresh := .empty ⟨fun _ => rfl, fun _ => List.not_mem_nil⟩ rfl rfl
  have hclaimed := hfresh.step (.op true id (.claim rfl))
  have hlisting := hclaimed.step (.op true id (.list rfl))
  have hlisted := hlisting.step (.op true id (.listed rfl (by decide)))
  have hcreated := hlisted.step (.op true id (.create 0 rfl (by decide) rfl))
  have hdied := (hcreated.step (.die true)).step (.die false)
  refine ⟨_, hdied, ?_, ?_⟩
  · intro p
    cases p with
    | true => exact .inl (.inr rfl)
    | false => exact .inr rfl
  · refine ⟨fun entry => Iff.rfl, fun h => (by cases h), fun file h => ?_⟩
    cases h
    exact ⟨_, true, 5, rfl, by decide, List.take_prefix _ _, fun pid h => (by cases h)⟩

theorem lock_recovers_unwritten :
    ∃ guard held, acquireAt plainSerde (fun _ => false) 7 "c" 99 ["41-a", "7-c"] unwritten =
        (.ok guard, held) ∧
      held = ⟨["7-c"], some (Record.bytes ⟨7, 99⟩)⟩ ∧
      (release guard held).1.released = true ∧ (release guard held).2 = ⟨[], none⟩ := by
  obtain ⟨s, hleft, hdead, hshows⟩ := left_unwritten
  exact lock_recovers duo s hleft hdead unwritten hshows plainSerde (fun _ => false)
    (fun _ _ => rfl) 7 "c" (by decide) 99 ["41-a", "7-c"] (by
      intro entry
      have hname : claimName 7 "c" = "7-c" := rfl
      rw [hname, unwritten]
      simp [or_comm])

end UpgradeLock

end KCarrier
