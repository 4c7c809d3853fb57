import Mathlib.Algebra.Group.Nat.Defs
import Mathlib.Logic.Function.Basic

/-!
# KCarrier.Lock

The upgrade lock at the level of single file operations.

A guard first makes its claim (a directory named `<pid>-<uuid>` under
`upgrade.lock.claims`), then lists the claims, and only then fights for the lock
file.  `Step` has one constructor for each file operation of `acquire_at`,
`retain_until_exit` and `release`, so any interleaving of guards is a run of
`Step`; a process may die between any two of them.

Creating, removing and making a directory are atomic.  A listing returns every
entry that is there throughout: `must` holds the entries a listing still owes.
Writing the record is not atomic: until it is complete the file does not parse.
-/

namespace KCarrier

namespace UpgradeLock

/-! ## claim names -/

/-- A number may carry a plus sign. -/
def unsigned : List Char → List Char
  | '+' :: rest => rest
  | cs => cs

/-- A decimal number below 2^32, as `parse::<u32>` reads it. -/
def parseU32 (cs : List Char) : Option Nat :=
  let digits := unsigned cs
  if digits ≠ [] ∧ digits.all (·.isDigit) = true ∧ Nat.ofDigitChars 10 digits 0 < 2 ^ 32 then
    some (Nat.ofDigitChars 10 digits 0)
  else
    none

/-- The process a claim belongs to: what stands before the first hyphen. -/
def ownerOf (name : String) : Option Nat :=
  (parseU32 (name.toList.takeWhile (· != '-'))).filter (0 < ·)

/-- The name of the claim of process `pid`. -/
def claimName (pid : Nat) (uuid : String) : String := s!"{pid}-{uuid}"

theorem takeWhile_digits (cs rest : List Char) (h : ∀ c ∈ cs, c.isDigit = true) :
    (cs ++ '-' :: rest).takeWhile (· != '-') = cs := by
  induction cs with
  | nil => simp
  | cons c cs ih =>
      have hc : c.isDigit = true := h c List.mem_cons_self
      have hne : c ≠ '-' := by
        intro hdash
        rw [hdash] at hc
        exact absurd hc (by decide)
      rw [List.cons_append, List.takeWhile_cons]
      simp only [bne_iff_ne, ne_eq, hne, not_false_eq_true, if_true]
      rw [ih fun d hd => h d (List.mem_cons_of_mem _ hd)]

theorem unsigned_toDigits (n : Nat) : unsigned (Nat.toDigits 10 n) = Nat.toDigits 10 n := by
  unfold unsigned
  split
  · next rest heq =>
    have hplus : '+'.isDigit = true :=
      Nat.isDigit_of_mem_toDigits (by omega) (by omega) (heq ▸ List.mem_cons_self)
    exact absurd hplus (by decide)
  · rfl

theorem parseU32_toDigits {n : Nat} (h : n < 2 ^ 32) : parseU32 (Nat.toDigits 10 n) = some n := by
  have hdigit : ∀ c ∈ Nat.toDigits 10 n, c.isDigit = true := fun c hc =>
    Nat.isDigit_of_mem_toDigits (by omega) (by omega) hc
  have hall : (Nat.toDigits 10 n).all (·.isDigit) = true := List.all_eq_true.mpr hdigit
  have hval : Nat.ofDigitChars 10 (Nat.toDigits 10 n) 0 = n :=
    Nat.ofDigitChars_toDigits (by omega) (by omega)
  unfold parseU32
  simp only [unsigned_toDigits, hval]
  rw [if_pos ⟨Nat.toDigits_ne_nil, hall, h⟩]

/-- The owner of a claim is the process that made it. -/
theorem ownerOf_claimName {pid : Nat} (uuid : String) (hpos : 0 < pid) (hlt : pid < 2 ^ 32) :
    ownerOf (claimName pid uuid) = some pid := by
  have hlist : (claimName pid uuid).toList = Nat.toDigits 10 pid ++ '-' :: uuid.toList := by
    simp [claimName, toString, String.toList_append, Nat.toList_repr]
  unfold ownerOf
  rw [hlist, takeWhile_digits _ _ fun c hc =>
    Nat.isDigit_of_mem_toDigits (by omega) (by omega) hc, parseU32_toDigits hlt]
  simp [hpos]

/-! ## guards and states -/

/-- The processes and their guards.  Claim names carry a fresh uuid, so no two guards
share one. -/
structure Contenders (P G : Type) where
  pid : P → Nat
  process : G → P
  uuid : G → String
  pid_pos : ∀ p, 0 < pid p
  pid_lt : ∀ p, pid p < 2 ^ 32
  fresh : ∀ g h, claimName (pid (process g)) (uuid g) = claimName (pid (process h)) (uuid h) →
    g = h

def Contenders.name {P G : Type} (env : Contenders P G) (g : G) : String :=
  claimName (env.pid (env.process g)) (env.uuid g)

/-- Where a guard is.  `attempt` counts the tries for the lock file. -/
inductive Stage where
  /-- `acquire_at` was not called yet -/
  | idle
  /-- the claim is made -/
  | claimed
  /-- the listing is open -/
  | scanning
  /-- the listing returned the entry of a dead process -/
  | sweeping (entry : String)
  /-- about to create the lock file -/
  | creating (attempt : Nat)
  /-- the lock file is there; about to read it -/
  | reading (attempt : Nat)
  /-- its record names no live process; about to remove it -/
  | reclaiming (attempt : Nat)
  /-- the lock file `file` is created, its record not written -/
  | writing (file : Nat)
  /-- the record is written -/
  | written
  /-- `acquire_at` returned -/
  | held
  | retained
  /-- `release` found the claim -/
  | releasing
  /-- the lock file is removed -/
  | unlocked
  /-- `acquire_at` failed; about to remove the claim -/
  | failing
  /-- released, or `acquire_at` returned an error -/
  | done
deriving DecidableEq, Repr

/-- The directory and the guards.  `lock` is the file `upgrade.lock` names, and
`record` the process each file's content parses to. -/
structure State (P G : Type) where
  claims : List String
  lock : Option Nat
  files : Nat
  record : Nat → Option Nat
  stage : G → Stage
  must : G → List String
  dead : P → Prop

variable {P G : Type} [DecidableEq G]

namespace State

def moved (s : State P G) (g : G) (x : Stage) : State P G :=
  { s with stage := Function.update s.stage g x }

/-- The claim is gone; no listing owes it any more. -/
def unclaimed (s : State P G) (name : String) : State P G :=
  { s with
    claims := s.claims.filter (· != name)
    must := fun g => (s.must g).filter (· != name) }

/-- `process_alive` may answer that `pid` is dead: no live process has it. -/
def MayReportDead (env : Contenders P G) (s : State P G) (pid : Nat) : Prop :=
  ∀ p, ¬s.dead p → env.pid p ≠ pid

end State

/-! ## steps -/

/-- The stages in which a call of `acquire_at` may fail. -/
def Stage.attempting : Stage → Bool
  | .claimed | .scanning | .sweeping _ | .creating _ | .reading _ | .reclaiming _ | .writing _
  | .written => true
  | _ => false

/-- One file operation of the guard `g`. -/
inductive Op (env : Contenders P G) (g : G) : State P G → State P G → Prop
  | claim {s} : s.stage g = .idle →
      Op env g s ({ s with claims := env.name g :: s.claims }.moved g .claimed)
  | list {s} : s.stage g = .claimed →
      Op env g s ({ s with
        must := Function.update s.must g (s.claims.filter (· != env.name g)) }.moved g .scanning)
  /-- the listing returns an entry whose process is dead -/
  | entryDead {s} (entry : String) (pid : Nat) : s.stage g = .scanning → entry ∈ s.claims →
      entry ≠ env.name g → ownerOf entry = some pid → s.MayReportDead env pid →
      Op env g s (s.moved g (.sweeping entry))
  | sweep {s} (entry : String) : s.stage g = .sweeping entry →
      Op env g s ((s.unclaimed entry).moved g .scanning)
  /-- the listing returns the entry of a live process -/
  | entryLive {s} (entry : String) : s.stage g = .scanning → entry ∈ s.claims →
      entry ≠ env.name g → Op env g s (s.moved g .failing)
  | entryUnreadable {s} (entry : String) : s.stage g = .scanning → entry ∈ s.claims →
      ownerOf entry = none → Op env g s (s.moved g .failing)
  /-- the listing ends when it has returned every entry it owes -/
  | listed {s} : s.stage g = .scanning → s.must g = [] → Op env g s (s.moved g (.creating 0))
  | create {s} (attempt : Nat) : s.stage g = .creating attempt → attempt < 50 → s.lock = none →
      Op env g s ({ s with
        lock := some s.files
        files := s.files + 1
        record := Function.update s.record s.files none }.moved g (.writing s.files))
  | exists_ {s} (attempt file : Nat) : s.stage g = .creating attempt → attempt < 50 →
      s.lock = some file → Op env g s (s.moved g (.reading attempt))
  | unresolvable {s} (attempt : Nat) : s.stage g = .creating attempt → 50 ≤ attempt →
      Op env g s (s.moved g .failing)
  | readGone {s} (attempt : Nat) : s.stage g = .reading attempt → s.lock = none →
      Op env g s (s.moved g (.creating (attempt + 1)))
  /-- the file does not parse, or its record names a dead process -/
  | readStale {s} (attempt file : Nat) : s.stage g = .reading attempt → s.lock = some file →
      (∀ pid, s.record file = some pid → s.MayReportDead env pid) →
      Op env g s (s.moved g (.reclaiming attempt))
  | readLive {s} (attempt file pid : Nat) : s.stage g = .reading attempt → s.lock = some file →
      s.record file = some pid → Op env g s (s.moved g .failing)
  | reclaim {s} (attempt file : Nat) : s.stage g = .reclaiming attempt → s.lock = some file →
      Op env g s ({ s with lock := none }.moved g (.creating (attempt + 1)))
  | reclaimGone {s} (attempt : Nat) : s.stage g = .reclaiming attempt → s.lock = none →
      Op env g s (s.moved g .failing)
  /-- the record is complete; it goes to the created file, whatever the name is by now -/
  | write {s} (file : Nat) : s.stage g = .writing file →
      Op env g s ({ s with
        record := Function.update s.record file (some (env.pid (env.process g))) }.moved g .written)
  | acquired {s} : s.stage g = .written → Op env g s (s.moved g .held)
  /-- any file operation of `acquire_at` may fail -/
  | ioError {s} : (s.stage g).attempting = true → Op env g s (s.moved g .failing)
  | forget {s} : s.stage g = .failing →
      Op env g s ((s.unclaimed (env.name g)).moved g .done)
  /-- the error of that last removal is ignored -/
  | forgetError {s} : s.stage g = .failing → Op env g s (s.moved g .done)
  | retain {s} : s.stage g = .held → Op env g s (s.moved g .retained)
  | release {s} : s.stage g = .held → env.name g ∈ s.claims → Op env g s (s.moved g .releasing)
  | releaseGone {s} : s.stage g = .held → env.name g ∉ s.claims → Op env g s (s.moved g .done)
  | unlock {s} : s.stage g = .releasing →
      Op env g s ({ s with lock := none }.moved g .unlocked)
  | unclaim {s} : s.stage g = .unlocked →
      Op env g s ((s.unclaimed (env.name g)).moved g .done)
  /-- a failed release leaves the guard as it is; it may be tried again -/
  | releaseError {s} : s.stage g = .releasing ∨ s.stage g = .unlocked →
      Op env g s (s.moved g .held)

/-- One step of the system: an operation of a live guard, or the death of a process. -/
inductive Step (env : Contenders P G) : State P G → State P G → Prop
  | op {s t} (g : G) : ¬s.dead (env.process g) → Op env g s t → Step env s t
  | die {s} (p : P) : Step env s { s with dead := fun q => s.dead q ∨ q = p }

/-- A directory nobody contends for yet, with whatever earlier processes left in it. -/
structure Initial (env : Contenders P G) (s : State P G) : Prop where
  idle : ∀ g, s.stage g = .idle
  unclaimed : ∀ g, env.name g ∉ s.claims

/-- The runs of the system. -/
inductive Reachable (env : Contenders P G) : State P G → Prop
  | initial {s} : Initial env s → Reachable env s
  | step {s t} : Reachable env s → Step env s t → Reachable env t

end UpgradeLock

end KCarrier
