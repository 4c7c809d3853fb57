import KCarrier.Crash.Triple
import KCarrier.Lock.Recovery
import KCarrier.Quarantine
import Mathlib.Data.List.Induction
import Mathlib.Data.Set.List

/-!
# KCarrier.Quarantine.Displacement

`quarantine_state` at the level of single file operations.

The state directory is its lock entries and whatever else it holds; every file operation of a
call has a `Point` where it may fail or where the worker may die, so that the states a call
passes through are the states a call that is cut off leaves.  The parents of the destination
are no part of the two places.

* `QuarantineReceipt.fromSlice_bytes` — the receipt is read as it was written;
* `normalize_resolves` — a path is resolved the same before and after the move;
* `displace_triple`, `run_triple` — what a call does to the tree, wherever it ends;
* `quarantine_converges` — sequences of calls.
-/

namespace KCarrier

open Crash
open Json (Value toVec)

/-! ## the receipt as bytes -/

namespace PathBuf

/-- An absolute path without `.` and `..`. -/
def ofNames (names : List String) : PathBuf := .rootDir :: names.map .normal

/-- What may stand between two separators. -/
structure IsName (name : String) : Prop where
  flat : '/' ∉ name.toList
  nonempty : name.toList ≠ []
  notDot : name.toList ≠ ['.']
  notDots : name.toList ≠ ['.', '.']

def Component.text : Component → List Char
  | .rootDir => []
  | .parentDir => ['.', '.']
  | .normal name => name.toList

def text : PathBuf → List Char
  | .rootDir :: rest => '/' :: ['/'].intercalate (rest.map Component.text)
  | path => ['/'].intercalate (path.map Component.text)

def component (cs : List Char) : Component :=
  if cs = ['.', '.'] then .parentDir else .normal (String.ofList cs)

def ofText (cs : List Char) : PathBuf :=
  (if cs.head? = some '/' then [Component.rootDir] else []) ++
    ((cs.splitOn '/').filter fun name => name ≠ [] ∧ name ≠ ['.']).map component

/-- A path of proper names is read back from its text. -/
theorem ofText_text {names : List String} (h : ∀ name ∈ names, IsName name) :
    ofText (text (ofNames names)) = ofNames names := by
  have htexts : (names.map Component.normal).map Component.text = names.map String.toList := by
    rw [List.map_map]
    rfl
  have hsplit : ((['/'].intercalate (names.map String.toList)).splitOn '/').filter
      (fun name => name ≠ [] ∧ name ≠ ['.']) = names.map String.toList := by
    cases names with
    | nil => decide
    | cons name rest =>
        have hflat : ∀ cs ∈ (name :: rest).map String.toList, '/' ∉ cs := by
          intro cs hcs
          obtain ⟨name, hname, rfl⟩ := List.mem_map.mp hcs
          exact (h name hname).flat
        rw [List.splitOn_intercalate '/' hflat (by simp), List.filter_eq_self]
        intro cs hcs
        obtain ⟨name, hname, rfl⟩ := List.mem_map.mp hcs
        simp [(h name hname).nonempty, (h name hname).notDot]
  have hcomponents : (names.map String.toList).map component = names.map .normal := by
    rw [List.map_map]
    refine List.map_congr_left fun name hname => ?_
    simp [component, (h name hname).notDots]
  have hroot : ('/' :: ['/'].intercalate (names.map String.toList)).splitOn '/' =
      [] :: (['/'].intercalate (names.map String.toList)).splitOn '/' := by
    simp [List.splitOn_cons_eq_if_modifyHead]
  have hempty : decide (([] : List Char) ≠ [] ∧ ([] : List Char) ≠ ['.']) = false := by decide
  rw [ofText, ofNames, text, htexts, hroot, List.filter_cons, hempty, hsplit]
  simp [hcomponents]

/-- The components of a path, as `Path::components` gives them. -/
def IsPath (path : PathBuf) : Prop :=
  ∀ c ∈ path.tail, c = .parentDir ∨ ∃ name, IsName name ∧ c = .normal name

end PathBuf

/-! ## the platform -/

/-- What a platform knows of a path and of the directories it leads through: each of them is
there or not, and what is there has one canonical path, which is absolute.  That of a name that
is not there yet is the name in the canonical path of its directory; so it stays when a
directory comes to have that name. -/
structure Resolves (p : Platform) (resolve : PathBuf → PathBuf) (path : PathBuf) : Prop where
  root : p.present [.rootDir] = .ok true
  present : ∀ q, q <+: path → ∃ there, p.present q = .ok there
  canonicalize : ∀ q, q <+: path → p.present q = .ok true → p.canonicalize q = .ok (resolve q)
  join : ∀ q name, q ++ [.normal name] <+: path → p.present (q ++ [.normal name]) = .ok false →
    resolve (q ++ [.normal name]) = resolve q ++ [.normal name]
  absolute : ∃ names, (∀ name ∈ names, PathBuf.IsName name) ∧ resolve path = .ofNames names

/-- A path that is normalized has no parent component. -/
theorem contains_of_normalize {p : Platform} {path resolved : PathBuf}
    (h : normalize p path = .ok resolved) : path.contains .parentDir = false := by
  have hreverse : path.reverse.contains .parentDir = path.contains .parentDir := by simp
  rw [normalize] at h
  cases hpath : path.reverse with
  | nil =>
      rw [hpath, normalizeFrom] at h
      cases h
  | cons last rest =>
      rw [hpath] at h hreverse
      unfold normalizeFrom at h
      by_cases hparent : (last :: rest).contains .parentDir = true
      · rw [if_pos hparent] at h
        cases h
      · rw [← hreverse]
        exact Bool.not_eq_true _ ▸ hparent

/-- A path that exists is resolved as it is. -/
theorem normalizeFrom_there {p : Platform} {names : List String}
    (h : p.present (PathBuf.ofNames names) = .ok true) :
    normalizeFrom p (PathBuf.ofNames names).reverse = p.canonicalize (PathBuf.ofNames names) := by
  have hparent : (PathBuf.ofNames names).reverse.contains .parentDir = false := by
    simp [PathBuf.ofNames]
  cases hreverse : (PathBuf.ofNames names).reverse with
  | nil => simp [PathBuf.ofNames] at hreverse
  | cons last rest =>
      rw [hreverse] at hparent
      unfold normalizeFrom
      rw [hparent, ← hreverse, List.reverse_reverse, h]
      rfl

/-- A path is resolved through the longest part of it that exists. -/
theorem normalizeFrom_resolves {p : Platform} {resolve : PathBuf → PathBuf} {path : PathBuf}
    (h : Resolves p resolve path) (names : List String)
    (hnames : PathBuf.ofNames names <+: path) :
    normalizeFrom p (PathBuf.ofNames names).reverse = .ok (resolve (PathBuf.ofNames names)) := by
  induction names using List.reverseRecOn with
  | nil => rw [normalizeFrom_there h.root, h.canonicalize _ hnames h.root]
  | append_singleton names name ih =>
      have hsnoc : PathBuf.ofNames (names ++ [name]) = PathBuf.ofNames names ++ [.normal name] := by
        simp [PathBuf.ofNames]
      obtain ⟨there, hthere⟩ := h.present _ hnames
      cases there with
      | true => rw [normalizeFrom_there hthere, h.canonicalize _ hnames hthere]
      | false =>
          have hparent : (PathBuf.ofNames (names ++ [name])).reverse.contains .parentDir =
              false := by
            simp [PathBuf.ofNames]
          have hdirectory := ih ((List.prefix_append _ _).trans (hsnoc ▸ hnames))
          have hjoin := h.join _ name (hsnoc ▸ hnames) (hsnoc ▸ hthere)
          have hreverse : (PathBuf.ofNames names ++ [Component.normal name]).reverse =
              Component.normal name :: (PathBuf.ofNames names).reverse := by simp
          rw [hsnoc] at hparent hthere ⊢
          rw [hreverse] at hparent ⊢
          unfold normalizeFrom
          rw [hparent, ← hreverse, List.reverse_reverse, hthere, hdirectory, hjoin]
          rfl

/-- A path is resolved from its longest part that is there. -/
theorem normalize_resolves {p : Platform} {resolve : PathBuf → PathBuf} {path : PathBuf}
    (h : Resolves p resolve path) (habsolute : path.isAbsolute = true) (hpath : path.IsPath)
    (hparent : path.contains .parentDir = false) : normalize p path = .ok (resolve path) := by
  obtain ⟨names, rfl⟩ : ∃ names, path = .ofNames names := by
    cases path with
    | nil => cases habsolute
    | cons head components =>
        have hhead : head = .rootDir := by simpa [PathBuf.isAbsolute] using habsolute
        have hnormal : ∀ c ∈ components, ∃ name, .normal name = c := by
          intro c hc
          rcases hpath c hc with rfl | ⟨name, -, rfl⟩
          · simp [hc] at hparent
          · exact ⟨name, rfl⟩
        have hrange : components ∈ Set.range (List.map Component.normal) := by
          rw [Set.range_list_map]
          exact hnormal
        obtain ⟨names, hnames⟩ := hrange
        exact ⟨names, by rw [hhead, PathBuf.ofNames, hnames]⟩
  exact normalizeFrom_resolves h names (List.prefix_refl _)

namespace QuarantineReceipt

def toJson (r : QuarantineReceipt) : Value :=
  .object [("formatVersion", .number (.natural r.formatVersion)), ("kind", .string r.kind),
    ("sourcePath", .string (String.ofList r.sourcePath.text)),
    ("quarantinePath", .string (String.ofList r.quarantinePath.text)),
    ("operationId", .string r.operationId), ("timestampMs", .number (.natural r.timestampMs))]

def fromJson (v : Value) : Option QuarantineReceipt := do
  let fields ← Json.record ["formatVersion", "kind", "sourcePath", "quarantinePath",
    "operationId", "timestampMs"] false v
  let formatVersion ← Json.required fields "formatVersion" (Value.asUnsigned 32)
  let kind ← Json.required fields "kind" Value.asString
  let sourcePath ← Json.required fields "sourcePath" Value.asString
  let quarantinePath ← Json.required fields "quarantinePath" Value.asString
  let operationId ← Json.required fields "operationId" Value.asString
  let timestampMs ← Json.required fields "timestampMs" (Value.asUnsigned 64)
  some ⟨formatVersion, kind, PathBuf.ofText sourcePath.toList,
    PathBuf.ofText quarantinePath.toList, operationId, timestampMs⟩

def bytes (r : QuarantineReceipt) : Bytes := toVec r.toJson

def fromSlice (serde : Serde) (bytes : Bytes) : Option QuarantineReceipt :=
  (Json.fromSlice serde.float bytes).bind fromJson

/-- The receipt of a call: its paths have no more than names, and its number is one of 64
bits. -/
structure Proper (r : QuarantineReceipt) : Prop where
  formatVersion : r.formatVersion = 1
  kind : r.kind = "k-fresh-install-quarantine"
  sourcePath : ∃ names, (∀ name ∈ names, PathBuf.IsName name) ∧ r.sourcePath = .ofNames names
  quarantinePath : ∃ names, (∀ name ∈ names, PathBuf.IsName name) ∧
    r.quarantinePath = .ofNames names
  timestampMs : r.timestampMs < 2 ^ 64

/-- A receipt is read back from its bytes. -/
theorem fromSlice_bytes {serde : Serde} {r : QuarantineReceipt} (h : r.Proper) :
    fromSlice serde r.bytes = some r := by
  obtain ⟨hversion, -, ⟨sourceNames, hsource, hsourcePath⟩, ⟨names, hnames, hpath⟩, hms⟩ := h
  have hfits : Json.Fits Json.maxDepth r.toJson := by
    refine .object fun p hp => ?_
    simp only [List.mem_cons, List.not_mem_nil, or_false] at hp
    rcases hp with rfl | rfl | rfl | rfl | rfl | rfl
    · exact .number (.natural _ (by omega))
    · exact .string _
    · exact .string _
    · exact .string _
    · exact .string _
    · exact .number (.natural _ hms)
  let fields : Json.Members Value := [("formatVersion", .number (.natural r.formatVersion)),
    ("kind", .string r.kind), ("sourcePath", .string (String.ofList r.sourcePath.text)),
    ("quarantinePath", .string (String.ofList r.quarantinePath.text)),
    ("operationId", .string r.operationId), ("timestampMs", .number (.natural r.timestampMs))]
  have hfields : Json.record ["formatVersion", "kind", "sourcePath", "quarantinePath",
      "operationId", "timestampMs"] false r.toJson = some fields := rfl
  have hversionField : Json.required fields "formatVersion" (Value.asUnsigned 32) =
      some r.formatVersion := Json.asUnsigned_natural (by omega)
  have hkindField : Json.required fields "kind" Value.asString = some r.kind := rfl
  have hsourceField : Json.required fields "sourcePath" Value.asString =
      some (String.ofList r.sourcePath.text) := rfl
  have hpathField : Json.required fields "quarantinePath" Value.asString =
      some (String.ofList r.quarantinePath.text) := rfl
  have hidField : Json.required fields "operationId" Value.asString = some r.operationId := rfl
  have hmsField : Json.required fields "timestampMs" (Value.asUnsigned 64) =
      some r.timestampMs := Json.asUnsigned_natural hms
  have hread : fromJson r.toJson = some r := by
    simp only [fromJson, hfields, Option.bind_eq_bind, Option.bind_some, hversionField, hkindField,
      hsourceField, hpathField, hidField, hmsField, String.toList_ofList]
    rw [hsourcePath, hpath, PathBuf.ofText_text hsource, PathBuf.ofText_text hnames, ← hsourcePath,
      ← hpath]
  rw [fromSlice, bytes, Json.fromSlice_toVec serde.float hfits, Option.bind_some, hread]

end QuarantineReceipt

/-! ## the site -/

namespace Displacement

variable {γ δ : Type}

/-- What a name in the state directory stands for: a file, or anything else. -/
inductive Entry (δ : Type) where
  | file (content : Bytes)
  | other (d : δ)

abbrev Entries (δ : Type) : Type := String → Option (Entry δ)

/-- A state directory: `upgrade.lock` and `upgrade.lock.claims`, and its other entries. -/
structure StateTree (δ : Type) where
  lock : UpgradeLock.Directory
  entries : Entries δ

inductive Spot (δ : Type) where
  | tree (t : StateTree δ)
  | other (d : δ)

/-- What stands at the two paths, and the product the handoff is about. -/
structure Site (γ δ : Type) where
  source : Option (StateTree δ)
  destination : Option (Spot δ)
  product : γ

def receiptName : String := "fresh-install-quarantine.json"

def Entries.set (es : Entries δ) (name : String) (entry : Option (Entry δ)) : Entries δ :=
  fun n => if n = name then entry else es n

/-- The receipt at the destination, if there is one that can be read. -/
def Spot.receipt (serde : Serde) : Spot δ → File QuarantineReceipt
  | .other _ => .absent
  | .tree t =>
      match t.entries receiptName with
      | some (.file bytes) =>
          match QuarantineReceipt.fromSlice serde bytes with
          | some r => .content r
          | none => .unreadable (serde.message bytes)
      | _ => .absent

/-! ## a call -/

/-- Where a call may be cut off, or an operation fail. -/
inductive Point where
  /-- while the two paths are looked at -/
  | looking
  /-- in `acquire_at` -/
  | locking
  /-- while the record and the journal are read -/
  | reading
  /-- while the parents of the destination are created -/
  | ensuring
  /-- before the temporary file is created -/
  | opening
  /-- after some bytes of the receipt -/
  | writing
  /-- after all of them, before the file gets its name -/
  | syncing
  /-- after that, before the directory is synced -/
  | publishing
  /-- before the temporary file of a failed write is removed -/
  | removing
  /-- before `renameat2` -/
  | moving
  /-- before the destination is looked at again -/
  | probing
  /-- before `rename` -/
  | renaming
  /-- after the move -/
  | sourceSync
  | destinationSync
  /-- while the lock is dropped -/
  | unlocking
deriving DecidableEq, Repr

/-- What the system answers to `renameat2` with `RENAME_NOREPLACE`. -/
inductive Renameat2 where
  | supported
  /-- `EINVAL` or `ENOSYS` -/
  | refused
  | fails (e : Error)
deriving DecidableEq, Repr

/-- A call of `quarantine_state`, and what it meets: the processes that are alive, the ids it
draws, the order of the claims, and its faults.  A fault in `acquire_at` or in `release`
leaves any lock entries at all. -/
structure Call (γ : Type) where
  asked : Quarantine γ
  alive : Nat → Bool
  uuid : String
  acquiredAtMs : Nat
  listing : List String
  temporary : String
  count : Nat
  renameat2 : Renameat2
  cuts : Point → Option (Fault Error)
  leftLock : UpgradeLock.Directory

def temporaryName (uuid : String) : String := ".k-write-" ++ uuid

namespace Call

variable (serde : Serde) (view : Entries δ → Disk) (c : Call γ)

/-- The operation at the point, as far as it may fail. -/
def reach (point : Point) : Prog Error (Site γ δ) Unit := Prog.raise (c.cuts point)

/-- Change the state directory at the source; one that was moved is out of reach. -/
def onTree (f : StateTree δ → StateTree δ) : Prog Error (Site γ δ) Unit :=
  Prog.modify fun s => { s with source := s.source.map f }

def setLock (lock : UpgradeLock.Directory) : Prog Error (Site γ δ) Unit :=
  onTree fun t => { t with lock := lock }

def setEntry (name : String) (entry : Option (Entry δ)) : Prog Error (Site γ δ) Unit :=
  onTree fun t => { t with entries := t.entries.set name entry }

/-- A fault leaves any lock entries. -/
def leaveLock (point : Point) : Prog Error (Site γ δ) Unit :=
  if (c.cuts point).isSome then setLock c.leftLock else pure ()

def takeLock (tree : StateTree δ) : Prog Error (Site γ δ) UpgradeLock.Guard := do
  c.leaveLock .locking
  c.reach .locking
  match UpgradeLock.acquireAt serde c.alive c.asked.self c.uuid c.acquiredAtMs c.listing
    tree.lock with
  | (.ok guard, lock) => do
      setLock lock
      pure guard
  | (.error (.locked _), lock) => do
      setLock lock
      Prog.throw (.invalid "QUARANTINE_ACTIVE_LOCK")
  | (.error e, lock) => do
      setLock lock
      Prog.throw e

/-- The guard is dropped; what goes wrong is ignored, and there is nothing to do for a directory
that was moved. -/
def dropLock (guard : UpgradeLock.Guard) : Prog Error (Site γ δ) Unit := do
  onTree fun t => { t with lock := (UpgradeLock.release guard t.lock).2 }
  c.leaveLock .unlocking
  let _ ← Prog.attempt (c.reach .unlocking)

/-- A handoff that is required has to be there; one that is there is asked for. -/
def passGate (required : Bool) (d : Disk) : Prog Error (Site γ δ) Unit :=
  match c.asked.handoff with
  | none => if required then Prog.throw (.invalid "QUARANTINE_ACTIVE_OPERATION") else pure ()
  | some call => do
      match ← Prog.attempt (Prog.zoom Site.product (fun p s => { s with product := p })
        (call d)) with
      | .ok () => pure ()
      | .error _ => Prog.throw (.invalid "QUARANTINE_ACTIVE_OPERATION")

/-- The steps of `write_durable` that may leave a temporary file. -/
def publish (receipt : QuarantineReceipt) : Prog Error (Site γ δ) Unit := do
  let tmp := temporaryName c.temporary
  c.reach .opening
  let s ← Prog.get
  if s.source.any fun t => (t.entries tmp).isSome then
    Prog.throw (.io false "File exists (os error 17)")
  else do
    setEntry tmp (some (.file (receipt.bytes.take c.count)))
    c.reach .writing
    setEntry tmp (some (.file receipt.bytes))
    c.reach .syncing
    onTree fun t =>
      { t with entries := (t.entries.set receiptName (some (.file receipt.bytes))).set tmp none }
    c.reach .publishing

/-- `write_json` of the receipt. -/
def writeReceipt (receipt : QuarantineReceipt) : Prog Error (Site γ δ) Unit := do
  match ← Prog.attempt (c.publish receipt) with
  | .ok () => pure ()
  | .error e => do
      let _ ← Prog.attempt (do
        c.reach .removing
        setEntry (temporaryName c.temporary) none)
      Prog.throw e

/-- The directory and all that is in it changes its name. -/
def move : Prog Error (Site γ δ) Unit :=
  Prog.modify fun s => { s with source := none, destination := s.source.map .tree }

/-- `rename_exclusive` on Linux. -/
def renameExclusive : Prog Error (Site γ δ) Unit := do
  c.reach .moving
  let s ← Prog.get
  match c.renameat2 with
  | .fails e => Prog.throw e
  | .supported =>
      if s.destination.isSome then Prog.throw (.io false "File exists (os error 17)") else move
  | .refused => do
      c.reach .probing
      if s.destination.isSome then
        Prog.throw (.invalid "QUARANTINE_DESTINATION_CONFLICT")
      else do
        c.reach .renaming
        move

/-- What is done under the lock. -/
def displace (source destination : PathBuf) (tree : StateTree δ) :
    Prog Error (Site γ δ) QuarantineResult := do
  c.reach .reading
  let (required, operationId) ← Prog.ofExcept (c.asked.requiresHandoff (view tree.entries))
  c.passGate required (view tree.entries)
  c.reach .ensuring
  let receipt : QuarantineReceipt :=
    ⟨1, "k-fresh-install-quarantine", source, destination, operationId, c.asked.timestampMs⟩
  c.writeReceipt receipt
  c.renameExclusive
  c.reach .sourceSync
  c.reach .destinationSync
  pure ⟨.quarantined, receipt⟩

/-- `quarantine_state`. -/
def run : Prog Error (Site γ δ) QuarantineResult := do
  if !c.asked.source.isAbsolute || !c.asked.destination.isAbsolute then
    Prog.throw invalidDestination
  else do
    let source ← Prog.ofExcept (normalize c.asked.platform c.asked.source)
    let destination ← Prog.ofExcept (normalize c.asked.platform c.asked.destination)
    if source.isPrefixOf destination then
      Prog.throw invalidDestination
    else do
      c.reach .looking
      let s ← Prog.get
      match s.destination, s.source with
      | some _, some _ => Prog.throw (.invalid "QUARANTINE_DESTINATION_CONFLICT")
      | some spot, none =>
          Prog.ofExcept (Quarantine.alreadyThere source destination (spot.receipt serde))
      | none, none =>
          pure ⟨.notFound, ⟨1, "k-fresh-install-quarantine", source, destination, "genesis",
            c.asked.timestampMs⟩⟩
      | none, some tree => do
          let guard ← c.takeLock serde tree
          match ← Prog.attempt (c.displace view source destination tree) with
          | .ok result => do
              c.dropLock guard
              pure result
          | .error e => do
              c.dropLock guard
              Prog.throw e

end Call

/-- What a sequence of calls leaves. -/
def runCalls (serde : Serde) (view : Entries δ → Disk) (calls : List (Call γ)) (s : Site γ δ) :
    Site γ δ :=
  calls.foldl (fun s c => (c.run serde view s).2) s

/-! ## what an operation does to the tree -/

/-- The write of the receipt may leave its temporary file. -/
def Call.Litters (c : Call γ) : Prop := c.cuts .writing ≠ none ∨ c.cuts .syncing ≠ none

/-- An entry the calls have nothing to do with: it is not the receipt, nor the temporary file of
a write that was cut off or that met a file of that name. -/
def Spared (calls : List (Call γ)) (es : Entries δ) (name : String) : Prop :=
  name ≠ receiptName ∧
    ∀ c ∈ calls, name = temporaryName c.temporary → ¬c.Litters ∧ es name = none

def Kept (calls : List (Call γ)) (es es' : Entries δ) : Prop :=
  ∀ name, Spared calls es name → es' name = es name

/-- The tree is at the source, and nothing at the destination. -/
structure AtSource (es : Entries δ) (s : Site γ δ) : Prop where
  destination : s.destination = none
  source : ∃ lock, s.source = some ⟨lock, es⟩

structure AtDestination (es : Entries δ) (s : Site γ δ) : Prop where
  source : s.source = none
  destination : ∃ lock, s.destination = some (.tree ⟨lock, es⟩)

theorem Kept.refl (calls : List (Call γ)) (es : Entries δ) : Kept calls es es := fun _ _ => rfl

/-- What two runs keep, the one after the other keeps. -/
theorem Kept.trans {calls calls' : List (Call γ)} {es es' es'' : Entries δ}
    (h : Kept calls es es') (h' : Kept calls' es' es'') : Kept (calls ++ calls') es es'' := by
  intro name hspared
  have hsame : es' name = es name :=
    h name ⟨hspared.1, fun c hc => hspared.2 c (List.mem_append_left _ hc)⟩
  have hspared' : Spared calls' es' name :=
    ⟨hspared.1, fun c hc heq => by
      have hc := hspared.2 c (List.mem_append_right _ hc) heq
      exact ⟨hc.1, hsame.trans hc.2⟩⟩
  rw [h' name hspared', hsame]

/-- The temporary file is not the receipt. -/
theorem temporaryName_ne (uuid : String) : temporaryName uuid ≠ receiptName := by
  intro h
  have hhead : (temporaryName uuid).toList.head? = receiptName.toList.head? := by rw [h]
  simp [temporaryName, receiptName] at hhead

section Operations

variable {serde : Serde} {view : Entries δ → Disk} {c : Call γ} {es : Entries δ}

open Call

/-- What happens to the lock happens to no entry. -/
theorem onTree_lock {f : StateTree δ → UpgradeLock.Directory}
    {F : Option Error → Site γ δ → Prop} :
    Triple (AtSource es) (onTree fun t => { t with lock := f t }) (fun _ => AtSource (γ := γ) es)
      F := by
  refine Triple.modify ?_
  intro s h
  obtain ⟨lock, hsource⟩ := h.source
  exact ⟨h.destination, f ⟨lock, es⟩, by simp [hsource]⟩

/-- What happens at the source does nothing to a tree that has moved. -/
theorem onTree_moved {f : StateTree δ → StateTree δ} {F : Option Error → Site γ δ → Prop} :
    Triple (AtDestination es) (onTree f) (fun _ => AtDestination (γ := γ) es) F := by
  refine Triple.modify ?_
  intro s h
  exact ⟨by simp [h.source], h.destination⟩

/-- An entry is written or removed. -/
theorem setEntry_triple {name : String} {entry : Option (Entry δ)}
    {F : Option Error → Site γ δ → Prop} :
    Triple (AtSource es) (setEntry name entry) (fun _ => AtSource (γ := γ) (es.set name entry))
      F := by
  refine Triple.modify ?_
  intro s h
  obtain ⟨lock, hsource⟩ := h.source
  exact ⟨h.destination, lock, by simp [hsource]⟩

/-- Leaving the lock behind leaves the tree where it is. -/
theorem leaveLock_triple {point : Point} {F : Option Error → Site γ δ → Prop} :
    Triple (AtSource es) (c.leaveLock point) (fun _ => AtSource es) F := by
  refine Triple.ite (fun _ => ?_) fun _ => Triple.pure fun _ h => h
  exact onTree_lock (f := fun _ => c.leftLock)

/-- So it does once the tree has moved. -/
theorem leaveLock_moved {point : Point} {F : Option Error → Site γ δ → Prop} :
    Triple (AtDestination es) (c.leaveLock point) (fun _ => AtDestination es) F := by
  refine Triple.ite (fun _ => ?_) fun _ => Triple.pure fun _ h => h
  exact onTree_moved (f := fun t => { t with lock := c.leftLock })

/-- An operation that does not change what is at the two paths ends where it began. -/
theorem reach_triple {P : Site γ δ → Prop} {point : Point} :
    Triple P (c.reach point) (fun _ => P) (fun _ s => P s ∧ c.cuts point ≠ none) := by
  intro s hs
  unfold Call.reach Prog.raise
  cases hcut : c.cuts point with
  | none => exact hs
  | some fault =>
      cases fault with
      | fail e => exact ⟨hs, Option.some_ne_none _⟩
      | crash => exact ⟨hs, Option.some_ne_none _⟩

/-- Taking the lock leaves the tree where it is. -/
theorem takeLock_triple {tree : StateTree δ} :
    Triple (AtSource es) (c.takeLock serde tree) (fun _ => AtSource es) (fun _ => AtSource es) := by
  refine Triple.bind leaveLock_triple fun _ => ?_
  refine Triple.bind (reach_triple.conseq (fun _ h => h) (fun _ _ h => h) fun _ _ h => h.1)
    fun _ => ?_
  have hset : ∀ lock, Triple (AtSource es) (setLock lock) (fun _ => AtSource (γ := γ) es)
      (fun _ => AtSource es) := fun lock => onTree_lock (f := fun _ => lock)
  split
  · exact (hset _).bind fun _ => Triple.pure fun _ h => h
  · exact (hset _).bind fun _ => Triple.throw fun _ h => h
  · exact (hset _).bind fun _ => Triple.throw fun _ h => h

/-- Giving the lock back leaves the tree where it is. -/
theorem dropLock_triple {guard : UpgradeLock.Guard} :
    Triple (AtSource es) (c.dropLock guard) (fun _ => AtSource es)
      (fun e s => e = none ∧ AtSource es s) := by
  refine Triple.bind onTree_lock fun _ => ?_
  refine Triple.bind leaveLock_triple fun _ => ?_
  refine Triple.bind (R := fun _ => AtSource es) ?_ fun _ => Triple.pure fun _ h => h
  refine Triple.attempt (Triple.raise (fun _ h => h) fun e s h => ?_)
  cases e with
  | some _ => exact h
  | none => exact ⟨rfl, h⟩

/-- So it does once the tree has moved. -/
theorem dropLock_moved {guard : UpgradeLock.Guard} :
    Triple (AtDestination es) (c.dropLock guard) (fun _ => AtDestination es)
      (fun e s => e = none ∧ AtDestination es s) := by
  refine Triple.bind onTree_moved fun _ => ?_
  refine Triple.bind leaveLock_moved fun _ => ?_
  refine Triple.bind (R := fun _ => AtDestination es) ?_ fun _ => Triple.pure fun _ h => h
  refine Triple.attempt (Triple.raise (fun _ h => h) fun e s h => ?_)
  cases e with
  | some _ => exact h
  | none => exact ⟨rfl, h⟩

/-- The handoff is about the product. -/
theorem passGate_triple {required : Bool} {d : Disk} :
    Triple (AtSource es) (c.passGate required d) (fun _ => AtSource es) (fun _ => AtSource es) := by
  unfold Call.passGate
  cases c.asked.handoff with
  | none => exact Triple.ite (fun _ => Triple.throw fun _ h => h) fun _ => Triple.pure fun _ h => h
  | some call =>
    refine Triple.bind (R := fun _ => AtSource es) ?_ fun answer => ?_
    · refine Triple.attempt (Triple.zoom fun s h => ?_)
      have hkept : ∀ product : γ, AtSource es { s with product := product } := fun product =>
        ⟨h.destination, h.source⟩
      generalize call d s.product = r
      obtain ⟨r, product⟩ := r
      cases r <;> exact hkept product
    · cases answer with
      | ok => exact Triple.pure fun _ h => h
      | error e => exact Triple.throw fun _ h => h

/-- The tree is at the source, with the entries kept. -/
def Stays (c : Call γ) (es : Entries δ) (s : Site γ δ) : Prop :=
  ∃ es', Kept [c] es es' ∧ AtSource es' s

/-- The tree has been moved, with the receipt in it. -/
def Moves (c : Call γ) (es : Entries δ) (receipt : QuarantineReceipt) (s : Site γ δ) : Prop :=
  ∃ es', Kept [c] es es' ∧ es' receiptName = some (.file receipt.bytes) ∧ AtDestination es' s

/-- A tree with all its entries at the source stays. -/
theorem stays_of_atSource {s : Site γ δ} (h : AtSource es s) : Stays c es s :=
  ⟨es, .refl _ _, h⟩

/-- What becomes of the temporary file does not matter, when it was one or is left as one. -/
theorem Kept.set_temporary {es' : Entries δ} (h : Kept [c] es es') {entry : Option (Entry δ)}
    (hentry : entry = none ∨ c.Litters) :
    Kept [c] es (es'.set (temporaryName c.temporary) entry) := by
  intro name hspared
  by_cases hname : name = temporaryName c.temporary
  · obtain ⟨hclean, habsent⟩ := hspared.2 c (List.mem_singleton_self c) hname
    have hnone : entry = none := hentry.resolve_right hclean
    rw [Entries.set, if_pos hname, hnone, habsent]
  · rw [Entries.set, if_neg hname]
    exact h name hspared

/-- The receipt is the call's own entry. -/
theorem Kept.set_receipt {es' : Entries δ} (h : Kept [c] es es') (entry : Option (Entry δ)) :
    Kept [c] es (es'.set receiptName entry) := by
  intro name hspared
  rw [Entries.set, if_neg hspared.1]
  exact h name hspared

/-- The operation at the point, from a state with the entries `es'`. -/
theorem reach_stays {es' : Entries δ} {point : Point}
    (h : c.cuts point ≠ none → Kept [c] es es') :
    Triple (AtSource es') (c.reach point) (fun _ => AtSource es') (fun _ => Stays c es) :=
  reach_triple.conseq (fun _ hs => hs) (fun _ _ hs => hs) fun _ _ hs => ⟨es', h hs.2, hs.1⟩

/-- The receipt gets its name when it is whole. -/
theorem publish_triple {receipt : QuarantineReceipt} :
    Triple (AtSource es) (c.publish receipt)
      (fun _ s => ∃ es', Kept [c] es es' ∧ es' receiptName = some (.file receipt.bytes) ∧
        AtSource es' s) (fun _ => Stays c es) := by
  have hes : Kept [c] es es := .refl _ _
  have hpublished : Kept [c] es ((es.set receiptName (some (.file receipt.bytes))).set
      (temporaryName c.temporary) none) := (hes.set_receipt _).set_temporary (.inl rfl)
  have hreceipt : ((es.set receiptName (some (.file receipt.bytes))).set
      (temporaryName c.temporary) none) receiptName = some (.file receipt.bytes) := by
    rw [Entries.set, if_neg (temporaryName_ne _).symm, Entries.set, if_pos rfl]
  refine Triple.bind (reach_stays fun _ => hes) fun _ => Triple.get_bind fun s hs => ?_
  refine Triple.ite (fun _ => Triple.throw ?_) fun _ => Triple.pre ?_ fun _ h => h ▸ hs
  · rintro _ rfl
    exact stays_of_atSource hs
  have hwriting : ∀ content, c.cuts .writing ≠ none →
      Kept [c] es (es.set (temporaryName c.temporary) content) := fun content hcut =>
    hes.set_temporary (.inr (.inl hcut))
  have hset : ∀ content content', (es.set (temporaryName c.temporary) content).set
      (temporaryName c.temporary) content' = es.set (temporaryName c.temporary) content' := by
    intro content content'
    funext name
    by_cases hname : name = temporaryName c.temporary <;> simp [Entries.set, hname]
  refine Triple.bind setEntry_triple fun _ => ?_
  refine Triple.bind (reach_stays (hwriting _)) fun _ => ?_
  refine Triple.bind setEntry_triple fun _ => ?_
  rw [hset]
  refine Triple.bind (reach_stays fun hcut => hes.set_temporary (.inr (.inr hcut))) fun _ => ?_
  refine Triple.bind (R := fun _ => AtSource ((es.set receiptName (some (.file receipt.bytes))).set
    (temporaryName c.temporary) none)) (Triple.modify ?_) fun _ => ?_
  · intro s h
    obtain ⟨lock, hsource⟩ := h.source
    refine ⟨h.destination, lock, ?_⟩
    have hentries : (((es.set (temporaryName c.temporary) (some (.file receipt.bytes))).set
        receiptName (some (.file receipt.bytes))).set (temporaryName c.temporary) none) =
        (es.set receiptName (some (.file receipt.bytes))).set (temporaryName c.temporary) none := by
      funext name
      by_cases hname : name = temporaryName c.temporary <;> simp [Entries.set, hname]
    simp [hsource, hentries]
  · exact (reach_stays fun _ => hpublished).post fun _ _ h => ⟨_, hpublished, hreceipt, h⟩

/-- The receipt is written through a temporary file, and nothing else is. -/
theorem writeReceipt_triple {receipt : QuarantineReceipt} :
    Triple (AtSource es) (c.writeReceipt receipt)
      (fun _ s => ∃ es', Kept [c] es es' ∧ es' receiptName = some (.file receipt.bytes) ∧
        AtSource es' s) (fun _ => Stays c es) := by
  refine Triple.bind (R := fun answer s => match answer with
    | .ok () => ∃ es', Kept [c] es es' ∧ es' receiptName = some (.file receipt.bytes) ∧
        AtSource es' s
    | .error _ => Stays c es s) ?_ fun answer => ?_
  · refine Triple.attempt (publish_triple.conseq (fun _ h => h) (fun _ _ h => h) ?_)
    intro e s h
    cases e <;> exact h
  · cases answer with
    | ok => exact Triple.pure fun _ h => h
    | error e =>
        refine Triple.bind (R := fun _ => Stays c es) ?_ fun _ => Triple.throw fun _ h => h
        refine Triple.attempt (Triple.exists_pre fun es' => Triple.assume fun hkept => ?_)
        refine Triple.bind (R := fun _ => AtSource es') ?_ fun _ => ?_
        · refine reach_triple.conseq (fun _ h => h) (fun _ _ h => h) fun e s h => ?_
          cases e <;> exact ⟨es', hkept, h.1⟩
        · exact setEntry_triple.post fun _ _ h => ⟨_, hkept.set_temporary (.inl rfl), h⟩

/-- The tree moves with all its entries. -/
theorem move_triple {F : Option Error → Site γ δ → Prop} :
    Triple (AtSource es) move (fun _ => AtDestination (γ := γ) es) F := by
  refine Triple.modify ?_
  intro s h
  obtain ⟨lock, hsource⟩ := h.source
  exact ⟨rfl, lock, by simp [hsource]⟩

/-- The directory is moved as a whole, or stays. -/
theorem renameExclusive_triple :
    Triple (AtSource es) c.renameExclusive (fun _ => AtDestination es)
      (fun _ => AtSource es) := by
  have hreach : ∀ point, Triple (AtSource es) (c.reach point) (fun _ => AtSource es)
      (fun _ => AtSource es) := fun point =>
    reach_triple.conseq (fun _ h => h) (fun _ _ h => h) fun _ _ h => h.1
  have hmove : Triple (AtSource es) move (fun _ => AtDestination (γ := γ) es)
      (fun _ => AtSource es) := move_triple
  refine Triple.bind (hreach _) fun _ => Triple.get_bind fun s hs => Triple.pre ?_ fun _ h => h ▸ hs
  cases c.renameat2 with
  | fails e => exact Triple.throw fun _ h => h
  | supported => exact Triple.ite (fun _ => Triple.throw fun _ h => h) fun _ => hmove
  | refused =>
      refine Triple.bind (hreach _) fun _ => ?_
      refine Triple.ite (fun _ => Triple.throw fun _ h => h) fun _ => ?_
      exact Triple.bind (hreach _) fun _ => hmove

/-- The receipt a call writes for a directory with the entries `es`. -/
structure IsReceipt (c : Call γ) (view : Entries δ → Disk) (es : Entries δ)
    (receipt : QuarantineReceipt) : Prop where
  absolute : c.asked.source.isAbsolute = true ∧ c.asked.destination.isAbsolute = true
  outside : receipt.sourcePath.isPrefixOf receipt.quarantinePath = false
  formatVersion : receipt.formatVersion = 1
  kind : receipt.kind = "k-fresh-install-quarantine"
  sourcePath : normalize c.asked.platform c.asked.source = .ok receipt.sourcePath
  quarantinePath : normalize c.asked.platform c.asked.destination = .ok receipt.quarantinePath
  operationId : ∃ required,
    c.asked.requiresHandoff (view es) = .ok (required, receipt.operationId)
  timestampMs : receipt.timestampMs = c.asked.timestampMs

/-- The tree stays, or it has been moved; a call that returned an error after that failed to
sync the directories. -/
def EndsEarly (c : Call γ) (view : Entries δ → Disk) (es : Entries δ) (e : Option Error)
    (s : Site γ δ) : Prop :=
  Stays c es s ∨ (∃ receipt, IsReceipt c view es receipt ∧ Moves c es receipt s) ∧
    (e = none ∨ c.cuts .sourceSync ≠ none ∨ c.cuts .destinationSync ≠ none)

/-- What a call that returned has done. -/
def EndsWell (c : Call γ) (view : Entries δ → Disk) (es : Entries δ) (result : QuarantineResult)
    (s : Site γ δ) : Prop :=
  result.status = .quarantined ∧ IsReceipt c view es result.receipt ∧ Moves c es result.receipt s

/-- A cut before the move leaves the tree at the source. -/
theorem reach_atSource {point : Point} :
    Triple (AtSource es) (c.reach point) (fun _ => AtSource es) (fun _ => AtSource es) :=
  reach_triple.conseq (fun _ h => h) (fun _ _ h => h) fun _ _ h => h.1

/-- Before the receipt is written, a call ends where it began. -/
theorem endsEarly_of_atSource {α : Type} {m : Prog Error (Site γ δ) α} {Q : α → Site γ δ → Prop}
    (h : Triple (AtSource es) m Q (fun _ => AtSource es)) :
    Triple (AtSource es) m Q (EndsEarly c view es) :=
  h.conseq (fun _ hs => hs) (fun _ _ hs => hs) fun _ _ hs => .inl (stays_of_atSource hs)

/-- **The displacement**: a receipt, and then the move. -/
theorem displace_triple {tree : StateTree δ} {source destination : PathBuf}
    (hentries : tree.entries = es)
    (habsolute : c.asked.source.isAbsolute = true ∧ c.asked.destination.isAbsolute = true)
    (houtside : source.isPrefixOf destination = false)
    (hsource : normalize c.asked.platform c.asked.source = .ok source)
    (hdestination : normalize c.asked.platform c.asked.destination = .ok destination) :
    Triple (AtSource es) (c.displace view source destination tree) (EndsWell c view es)
      (EndsEarly c view es) := by
  subst hentries
  refine Triple.bind (endsEarly_of_atSource reach_atSource) fun _ => ?_
  refine Triple.bind (R := fun answer s =>
    c.asked.requiresHandoff (view tree.entries) = .ok answer ∧ AtSource tree.entries s) ?_ ?_
  · exact Triple.ofExcept (fun _ _ heq hs => ⟨heq, hs⟩) fun _ _ _ hs =>
      .inl (stays_of_atSource hs)
  rintro ⟨required, operationId⟩
  refine Triple.assume fun hrequires => ?_
  refine Triple.bind (endsEarly_of_atSource passGate_triple) fun _ => ?_
  refine Triple.bind (endsEarly_of_atSource reach_atSource) fun _ => ?_
  have hreceipt : IsReceipt c view tree.entries
      ⟨1, "k-fresh-install-quarantine", source, destination, operationId, c.asked.timestampMs⟩ :=
    ⟨habsolute, houtside, rfl, rfl, hsource, hdestination, ⟨required, hrequires⟩, rfl⟩
  refine Triple.bind (writeReceipt_triple.conseq (fun _ h => h) (fun _ _ h => h)
    fun _ _ h => .inl h) fun _ => ?_
  refine Triple.exists_pre fun es' => Triple.assume fun hkept => Triple.assume fun hwritten => ?_
  refine Triple.bind (renameExclusive_triple.conseq (fun _ h => h) (fun _ _ h => h)
    fun _ _ h => .inl ⟨es', hkept, h⟩) fun _ => ?_
  have hmoved : ∀ s, AtDestination es' s → ∃ receipt, IsReceipt c view tree.entries receipt ∧
      Moves c tree.entries receipt s := fun s hs => ⟨_, hreceipt, es', hkept, hwritten, hs⟩
  refine Triple.bind (reach_triple.conseq (fun _ h => h) (fun _ _ h => h)
    fun _ s h => .inr ⟨hmoved s h.1, .inr (.inl h.2)⟩) fun _ => ?_
  refine Triple.bind (reach_triple.conseq (fun _ h => h) (fun _ _ h => h)
    fun _ s h => .inr ⟨hmoved s h.1, .inr (.inr h.2)⟩) fun _ => ?_
  exact Triple.pure fun s hs => ⟨rfl, hreceipt, es', hkept, hwritten, hs⟩

/-- A call that failed gives the lock back. -/
theorem dropLock_endsEarly {guard : UpgradeLock.Guard} {e : Error} :
    Triple (EndsEarly c view es (some e)) (c.dropLock guard)
      (fun _ => EndsEarly c view es (some e)) (EndsEarly c view es) := by
  rintro s (⟨es', hkept, hs⟩ | ⟨⟨receipt, hreceipt, es', hkept, hwritten, hs⟩, hcut⟩)
  · exact (dropLock_triple s hs).mono (fun _ _ h => .inl ⟨es', hkept, h⟩)
      fun _ _ h => .inl ⟨es', hkept, h.2⟩
  · exact (dropLock_moved s hs).mono
      (fun _ _ h => .inr ⟨⟨receipt, hreceipt, es', hkept, hwritten, h⟩, hcut⟩)
      fun _ _ h => .inr ⟨⟨receipt, hreceipt, es', hkept, hwritten, h.2⟩, .inl h.1⟩

/-- A call that moved the tree gives the lock back. -/
theorem dropLock_endsWell {guard : UpgradeLock.Guard} {result : QuarantineResult} :
    Triple (EndsWell c view es result) (c.dropLock guard) (fun _ => EndsWell c view es result)
      (EndsEarly c view es) := by
  rintro s ⟨hstatus, hreceipt, es', hkept, hwritten, hs⟩
  exact (dropLock_moved s hs).mono
    (fun _ _ h => ⟨hstatus, hreceipt, es', hkept, hwritten, h⟩)
    fun _ _ h => .inr ⟨⟨_, hreceipt, es', hkept, hwritten, h.2⟩, .inl h.1⟩

/-- A call that finds the directory moves it or leaves it. -/
theorem run_triple {s : Site γ δ} {tree : StateTree δ} (hsource : s.source = some tree)
    (hdestination : s.destination = none) :
    Triple (· = s) (c.run serde view) (EndsWell c view tree.entries)
      (EndsEarly c view tree.entries) := by
  have hat : AtSource tree.entries s := ⟨hdestination, tree.lock, hsource⟩
  have hearly : ∀ e, EndsEarly c view tree.entries e s := fun _ => .inl (stays_of_atSource hat)
  unfold Call.run
  refine Triple.ite (fun _ => Triple.throw (by rintro _ rfl; exact hearly _)) fun hrelative => ?_
  have habsolute : c.asked.source.isAbsolute = true ∧ c.asked.destination.isAbsolute = true := by
    simpa using hrelative
  refine Triple.bind (R := fun source s' => normalize c.asked.platform c.asked.source = .ok source ∧
    s' = s) (Triple.ofExcept (fun _ _ heq h => ⟨heq, h⟩)
      (by rintro _ _ - rfl; exact hearly _)) fun source => ?_
  refine Triple.assume fun hnormal => ?_
  refine Triple.bind (R := fun destination s' =>
    normalize c.asked.platform c.asked.destination = .ok destination ∧ s' = s)
    (Triple.ofExcept (fun _ _ heq h => ⟨heq, h⟩)
      (by rintro _ _ - rfl; exact hearly _)) fun destination => ?_
  refine Triple.assume fun hnormal' => ?_
  refine Triple.ite (fun _ => Triple.throw (by rintro _ rfl; exact hearly _)) fun hinside => ?_
  refine Triple.bind (reach_triple.conseq (fun _ h => h) (fun _ _ h => h)
    (by rintro e _ ⟨rfl, -⟩; exact hearly e)) fun _ => ?_
  refine Triple.get_bind ?_
  rintro _ rfl
  rw [hsource, hdestination]
  refine Triple.pre ?_ fun _ h => h ▸ hat
  refine Triple.bind (endsEarly_of_atSource takeLock_triple) fun guard => ?_
  refine Triple.bind (R := fun answer s => match answer with
    | .ok result => EndsWell c view tree.entries result s
    | .error e => EndsEarly c view tree.entries (some e) s) ?_ fun answer => ?_
  · have houtside : source.isPrefixOf destination = false := Bool.not_eq_true _ ▸ hinside
    have hdisplaced := @displace_triple γ δ view c tree.entries tree source destination rfl
      habsolute houtside hnormal hnormal'
    refine Triple.attempt (hdisplaced.conseq (fun _ h => h) (fun _ _ h => h) fun e s h => ?_)
    cases e <;> exact h
  · cases answer with
    | ok result => exact Triple.bind dropLock_endsWell fun _ => Triple.pure fun _ h => h
    | error e => exact Triple.bind dropLock_endsEarly fun _ => Triple.throw fun _ h => h

/-- A call that finds nothing at the source, or something at the destination, changes nothing. -/
theorem run_idle {s : Site γ δ} (h : s.source = none ∨ s.destination ≠ none) :
    (c.run serde view s).2 = s := by
  refine Triple.leaves (G := (· = s)) (P := (· = s)) ?_ rfl
  unfold Call.run
  refine Triple.ite (fun _ => Triple.throw fun _ h => h) fun _ => ?_
  refine Triple.bind (R := fun _ => (· = s))
    (Triple.ofExcept (fun _ _ _ h => h) fun _ _ _ h => h) fun source => ?_
  refine Triple.bind (R := fun _ => (· = s))
    (Triple.ofExcept (fun _ _ _ h => h) fun _ _ _ h => h) fun destination => ?_
  refine Triple.ite (fun _ => Triple.throw fun _ h => h) fun _ => ?_
  refine Triple.bind (reach_triple.conseq (fun _ h => h) (fun _ _ h => h) fun _ _ h => h.1)
    fun _ => Triple.get_bind ?_
  rintro t rfl
  cases hdestination : t.destination with
  | none =>
      have hsource : t.source = none := h.resolve_right (by simp [hdestination])
      rw [hsource]
      exact Triple.pure fun _ h => h
  | some spot =>
      cases t.source with
      | none => exact Triple.ofExcept (fun _ _ _ h => h) fun _ _ _ h => h
      | some tree => exact Triple.throw fun _ h => h

end Operations

/-! ## sequences of calls -/

/-- Where the tree of `s` may be after the calls. -/
inductive Whole (calls : List (Call γ)) (s : Site γ δ) : Site γ δ → Prop
  | absent {t} : s.source = none → t.source = none → t.destination = s.destination → Whole calls s t
  | stays {t tree tree'} : s.source = some tree → t.source = some tree' →
      Kept calls tree.entries tree'.entries → t.destination = s.destination → Whole calls s t
  | moved {t tree tree'} : s.source = some tree → s.destination = none → t.source = none →
      t.destination = some (.tree tree') → Kept calls tree.entries tree'.entries → Whole calls s t

/-- A site is whole as it is. -/
theorem Whole.refl (calls : List (Call γ)) (s : Site γ δ) : Whole calls s s := by
  cases hsource : s.source with
  | none => exact .absent hsource hsource rfl
  | some tree => exact .stays hsource hsource (.refl _ _) rfl

/-- What two runs leave whole, the one after the other does. -/
theorem Whole.trans {calls calls' : List (Call γ)} {s t u : Site γ δ} (h : Whole calls s t)
    (h' : Whole calls' t u) : Whole (calls ++ calls') s u := by
  cases h with
  | absent hs ht hdestination =>
      cases h' with
      | absent _ hu hdestination' => exact .absent hs hu (hdestination'.trans hdestination)
      | stays ht' _ _ _ => simp [ht] at ht'
      | moved ht' _ _ _ _ => simp [ht] at ht'
  | stays hs ht hkept hdestination =>
      cases h' with
      | absent ht' _ _ => simp [ht] at ht'
      | stays ht' hu hkept' hdestination' =>
          cases ht.symm.trans ht'
          exact .stays hs hu (hkept.trans hkept') (hdestination'.trans hdestination)
      | moved ht' hfree hu hmoved hkept' =>
          cases ht.symm.trans ht'
          exact .moved hs (hdestination ▸ hfree) hu hmoved (hkept.trans hkept')
  | moved hs hfree ht hmoved hkept =>
      have hsame : u.source = none ∧ u.destination = t.destination := by
        cases h' with
        | absent _ hu hdestination => exact ⟨hu, hdestination⟩
        | stays ht' _ _ _ => simp [ht] at ht'
        | moved ht' _ _ _ _ => simp [ht] at ht'
      have hweaker : Kept (calls ++ calls') _ _ := hkept.trans (.refl calls' _)
      exact .moved hs hfree hsame.1 (hsame.2.trans hmoved) hweaker

section Runs

variable {serde : Serde} {view : Entries δ → Disk} {c : Call γ} {s : Site γ δ}

/-- A tree that stays is whole. -/
theorem Stays.whole {tree : StateTree δ} (hsource : s.source = some tree)
    (hdestination : s.destination = none) {t : Site γ δ} (h : Stays c tree.entries t) :
    Whole [c] s t := by
  obtain ⟨es', hkept, hat⟩ := h
  obtain ⟨lock, ht⟩ := hat.source
  exact .stays hsource ht hkept (hat.destination.trans hdestination.symm)

/-- A tree that moves is whole. -/
theorem Moves.whole {tree : StateTree δ} (hsource : s.source = some tree)
    (hdestination : s.destination = none) {receipt : QuarantineReceipt} {t : Site γ δ}
    (h : Moves c tree.entries receipt t) : Whole [c] s t := by
  obtain ⟨es', hkept, -, hat⟩ := h
  obtain ⟨lock, ht⟩ := hat.destination
  exact .moved hsource hdestination hat.source ht hkept

/-- **One call** leaves the tree whole. -/
theorem run_whole (c : Call γ) (s : Site γ δ) : Whole [c] s (c.run serde view s).2 := by
  by_cases hidle : s.source = none ∨ s.destination ≠ none
  · rw [run_idle hidle]
    exact .refl _ _
  · rw [not_or, not_not] at hidle
    obtain ⟨tree, hsource⟩ := Option.ne_none_iff_exists'.mp hidle.1
    refine Triple.leaves ((run_triple hsource hidle.2).conseq (fun _ h => h) ?_ ?_) rfl
    · rintro result t ⟨-, -, h⟩
      exact h.whole hsource hidle.2
    · rintro e t (h | ⟨⟨receipt, -, h⟩, -⟩)
      · exact h.whole hsource hidle.2
      · exact h.whole hsource hidle.2

/-- **Any calls** leave the tree whole. -/
theorem runCalls_whole (calls : List (Call γ)) (s : Site γ δ) :
    Whole calls s (runCalls serde view calls s) := by
  induction calls generalizing s with
  | nil => exact .refl _ _
  | cons c rest ih => exact (run_whole c s).trans (ih _)

/-- What has been moved stays. -/
theorem runCalls_idle (calls : List (Call γ)) (h : s.source = none) :
    runCalls serde view calls s = s := by
  induction calls with
  | nil => rfl
  | cons c rest ih =>
      rw [runCalls, List.foldl_cons, run_idle (.inl h)]
      exact ih

/-- What a call that moved the directory has written. -/
theorem run_moves {tree : StateTree δ} (hsource : s.source = some tree)
    (hmoved : (c.run serde view s).2.source = none) :
    ∃ receipt, IsReceipt c view tree.entries receipt ∧
      Moves c tree.entries receipt (c.run serde view s).2 ∧
      ∀ result, (c.run serde view s).1 = .ok result → result = ⟨.quarantined, receipt⟩ := by
  have hfree : s.destination = none := by
    by_contra hthere
    rw [run_idle (.inr hthere), hsource] at hmoved
    cases hmoved
  have hends := @run_triple γ δ serde view c s tree hsource hfree s rfl
  generalize c.run serde view s = r at hends hmoved ⊢
  have hgone : ∀ {t : Site γ δ}, t.source = none → ¬Stays c tree.entries t := by
    rintro t ht ⟨es', -, hat⟩
    obtain ⟨lock, hlock⟩ := hat.source
    rw [ht] at hlock
    cases hlock
  obtain ⟨result, t⟩ := r
  have hearly : ∀ e, EndsEarly c view tree.entries e t →
      ∃ receipt, IsReceipt c view tree.entries receipt ∧ Moves c tree.entries receipt t := by
    rintro e (hstays | ⟨hmoves, -⟩)
    · exact absurd hstays (hgone hmoved)
    · exact hmoves
  cases result with
  | ok result =>
      obtain ⟨hstatus, hreceipt, hmoves⟩ := hends
      refine ⟨result.receipt, hreceipt, hmoves, fun result' heq => ?_⟩
      cases heq
      rw [← hstatus]
  | err e =>
      obtain ⟨receipt, hreceipt, hmoves⟩ := hearly _ hends
      exact ⟨receipt, hreceipt, hmoves, fun _ heq => by cases heq⟩
  | crash =>
      obtain ⟨receipt, hreceipt, hmoves⟩ := hearly _ hends
      exact ⟨receipt, hreceipt, hmoves, fun _ heq => by cases heq⟩

/-- A call about the two paths, on a platform that resolves them; its time has 64 bits. -/
structure Asks (resolve : PathBuf → PathBuf) (source destination : PathBuf) (c : Call γ) :
    Prop where
  asked : c.asked.source = source ∧ c.asked.destination = destination
  resolvesSource : Resolves c.asked.platform resolve source
  resolvesDestination : Resolves c.asked.platform resolve destination
  timestampMs : c.asked.timestampMs < 2 ^ 64

/-- The canonical paths a call works with are what the platform resolves the two paths to. -/
theorem IsReceipt.resolved {resolve : PathBuf → PathBuf} {source destination : PathBuf}
    (hsource : source.IsPath) (hdestination : destination.IsPath) {es : Entries δ}
    {receipt : QuarantineReceipt} (h : IsReceipt c view es receipt)
    (hc : Asks resolve source destination c) {c' : Call γ}
    (hc' : Asks resolve source destination c') :
    normalize c'.asked.platform c'.asked.source = .ok receipt.sourcePath ∧
      normalize c'.asked.platform c'.asked.destination = .ok receipt.quarantinePath := by
  have hpaths := h.absolute
  have hsourcePath := h.sourcePath
  have hquarantinePath := h.quarantinePath
  rw [hc.asked.1] at hpaths hsourcePath
  rw [hc.asked.2] at hpaths hquarantinePath
  have hparent := contains_of_normalize hsourcePath
  have hparent' := contains_of_normalize hquarantinePath
  rw [normalize_resolves hc.resolvesSource hpaths.1 hsource hparent] at hsourcePath
  rw [normalize_resolves hc.resolvesDestination hpaths.2 hdestination hparent'] at hquarantinePath
  rw [hc'.asked.1, hc'.asked.2]
  exact ⟨(normalize_resolves hc'.resolvesSource hpaths.1 hsource hparent).trans hsourcePath,
    (normalize_resolves hc'.resolvesDestination hpaths.2 hdestination hparent').trans
      hquarantinePath⟩

/-- The receipt of a call can be read back. -/
theorem IsReceipt.proper {resolve : PathBuf → PathBuf} {source destination : PathBuf}
    (hsource : source.IsPath) (hdestination : destination.IsPath) {es : Entries δ}
    {receipt : QuarantineReceipt} (h : IsReceipt c view es receipt)
    (hc : Asks resolve source destination c) : receipt.Proper := by
  have hpaths := h.absolute
  have hsourcePath := h.sourcePath
  have hquarantinePath := h.quarantinePath
  rw [hc.asked.1] at hpaths hsourcePath
  rw [hc.asked.2] at hpaths hquarantinePath
  rw [normalize_resolves hc.resolvesSource hpaths.1 hsource
    (contains_of_normalize hsourcePath)] at hsourcePath
  rw [normalize_resolves hc.resolvesDestination hpaths.2 hdestination
    (contains_of_normalize hquarantinePath)] at hquarantinePath
  obtain ⟨names, hnames, hresolved⟩ := hc.resolvesSource.absolute
  obtain ⟨names', hnames', hresolved'⟩ := hc.resolvesDestination.absolute
  exact
    { formatVersion := h.formatVersion
      kind := h.kind
      sourcePath := ⟨names, hnames, (Except.ok.inj hsourcePath).symm.trans hresolved⟩
      quarantinePath := ⟨names', hnames', (Except.ok.inj hquarantinePath).symm.trans hresolved'⟩
      timestampMs := h.timestampMs ▸ hc.timestampMs }

/-- A call that finds the directory moved answers with its receipt. -/
theorem run_alreadyQuarantined {receipt : QuarantineReceipt} {es : Entries δ}
    (habsolute : c.asked.source.isAbsolute = true ∧ c.asked.destination.isAbsolute = true)
    (hsource : normalize c.asked.platform c.asked.source = .ok receipt.sourcePath)
    (hdestination : normalize c.asked.platform c.asked.destination = .ok receipt.quarantinePath)
    (houtside : receipt.sourcePath.isPrefixOf receipt.quarantinePath = false)
    (hproper : receipt.Proper) (hat : AtDestination es s)
    (hwritten : es receiptName = some (.file receipt.bytes)) (hlooks : c.cuts .looking = none) :
    c.run serde view s = (.ok ⟨.alreadyQuarantined, receipt⟩, s) := by
  obtain ⟨lock, hmoved⟩ := hat.destination
  have hreceipt : Spot.receipt serde (.tree ⟨lock, es⟩) = .content receipt := by
    simp only [Spot.receipt, hwritten, QuarantineReceipt.fromSlice_bytes hproper]
  have hthere : Quarantine.alreadyThere receipt.sourcePath receipt.quarantinePath
      (.content receipt) = .ok ⟨.alreadyQuarantined, receipt⟩ := by
    rw [Quarantine.alreadyThere, if_pos ⟨hproper.formatVersion, hproper.kind, rfl, rfl⟩]
  have hlook : c.reach .looking s = (.ok (), s) := by
    rw [Call.reach, hlooks]
    rfl
  unfold Call.run
  simp only [habsolute, hsource, hdestination, Bool.not_true, Bool.or_self,
    Bool.false_eq_true, if_false]
  rw [Prog.bind_run_ok (Prog.ofExcept_ok_run _ _), Prog.bind_run_ok (Prog.ofExcept_ok_run _ _)]
  rw [houtside]
  rw [if_neg Bool.false_ne_true, Prog.bind_run_ok hlook, Prog.bind_run_ok (Prog.get_run s),
    hat.source, hmoved]
  simp only [hreceipt, hthere]
  rfl

end Runs

/-- **Quarantine is all or nothing, and converges.**  After any calls for the same two paths,
each of which may have been cut off anywhere, the tree is whole, at the source or at the
destination.  What a call keeps of it is every entry but those of the lock, the receipt, and a
temporary file of the receipt.  A call that returns an error has moved the tree only if it then
failed to sync the directories.  When a call has moved it, every later call that can look at the
two paths answers with the receipt that call has written. -/
theorem quarantine_converges (serde : Serde) (view : Entries δ → Disk) (calls : List (Call γ))
    (s : Site γ δ) :
    Whole calls s (runCalls serde view calls s) ∧
    ∀ c tree, (runCalls serde view calls s).source = some tree →
      (∀ e, (c.run serde view (runCalls serde view calls s)).1 = .err e →
        (c.run serde view (runCalls serde view calls s)).2.source ≠ none ∨
          c.cuts .sourceSync ≠ none ∨ c.cuts .destinationSync ≠ none) ∧
      ((c.run serde view (runCalls serde view calls s)).2.source = none →
        ∀ resolve source destination, PathBuf.IsPath source → PathBuf.IsPath destination →
          Asks resolve source destination c →
          ∃ receipt, IsReceipt c view tree.entries receipt ∧
            (∀ result, (c.run serde view (runCalls serde view calls s)).1 = .ok result →
              result = ⟨.quarantined, receipt⟩) ∧
            ∀ later c', Asks resolve source destination c' → c'.cuts .looking = none →
              (c'.run serde view (runCalls serde view later
                (c.run serde view (runCalls serde view calls s)).2)).1 =
                .ok ⟨.alreadyQuarantined, receipt⟩) := by
  refine ⟨runCalls_whole calls s, ?_⟩
  generalize runCalls serde view calls s = t
  intro c tree htree
  constructor
  · intro e herr
    by_cases hfree : t.destination = none
    · have hends := @run_triple γ δ serde view c t tree htree hfree t rfl
      generalize c.run serde view t = r at hends herr ⊢
      obtain ⟨_, u⟩ := r
      subst herr
      rcases hends with ⟨es', -, hat⟩ | ⟨-, hcut⟩
      · obtain ⟨lock, hlock⟩ := hat.source
        exact .inl (by simp [hlock])
      · exact .inr (hcut.resolve_left (by simp))
    · rw [run_idle (.inr hfree), htree]
      exact .inl (by simp)
  · intro hmoved resolve source destination hsource hdestination hc
    obtain ⟨receipt, hreceipt, ⟨es', -, hwritten, hat⟩, hresult⟩ := run_moves htree hmoved
    refine ⟨receipt, hreceipt, hresult, fun later c' hc' hlooks => ?_⟩
    have hpaths := hreceipt.resolved hsource hdestination hc hc'
    have habsolute : c'.asked.source.isAbsolute = true ∧
        c'.asked.destination.isAbsolute = true := by
      rw [hc'.asked.1, hc'.asked.2, ← hc.asked.1, ← hc.asked.2]
      exact hreceipt.absolute
    rw [runCalls_idle later hmoved, run_alreadyQuarantined habsolute hpaths.1 hpaths.2
      hreceipt.outside (hreceipt.proper hsource hdestination hc) hat hwritten hlooks]

/-- The root, and the directory at `there`. -/
def platformAt (there : PathBuf) : Platform where
  present path := .ok (path == [.rootDir] || path == there)
  canonicalize path := .ok path

def state : PathBuf := .ofNames ["state"]

def aside : PathBuf := .ofNames ["aside"]

/-- A call on a healthy host, but for its `cuts`. -/
def callAt (there : PathBuf) (cuts : Point → Option (Fault Error)) : Call Unit where
  asked := ⟨platformAt there, ⟨Faults.clean, fun id => id⟩, 7, state, aside, 2, false, none⟩
  alive _ := false
  uuid := "a"
  acquiredAtMs := 2
  listing := ["7-a"]
  temporary := "b"
  count := 0
  renameat2 := .refused
  cuts := cuts
  leftLock := ⟨[], none⟩

/-- A state directory with an artifact in it. -/
def found : Site Unit Unit where
  source := some ⟨⟨[], none⟩, fun name => if name = "artifact" then some (.file [1]) else none⟩
  destination := none
  product := ()

/-- No record and no journal. -/
def viewed : Entries Unit → Disk := fun _ =>
  ⟨.absent, .absent, fun _ => .absent, .absent, .absent, fun _ => .absent, .absent⟩

/-- A call that dies while it writes the receipt leaves one entry more. -/
theorem quarantine_litters : ¬Whole [] found (runCalls plainSerde viewed
    [callAt state fun point => if point = .writing then some .crash else none] found) := by
  have hleft : ∃ tree, (runCalls plainSerde viewed
      [callAt state fun point => if point = .writing then some .crash else none] found).source =
        some tree ∧ (tree.entries ".k-write-b").isSome = true := ⟨_, rfl, by decide +kernel⟩
  obtain ⟨left, hsource, hlittered⟩ := hleft
  rintro (⟨-, hgone, -⟩ | ⟨htree, hstays, hkept, -⟩ | ⟨-, -, hgone, -, -⟩)
  · rw [hsource] at hgone
    cases hgone
  · have hsame := hkept ".k-write-b" ⟨by decide, by simp⟩
    rw [← Option.some.inj (hsource.symm.trans hstays), ← Option.some.inj htree] at hsame
    rw [hsame] at hlittered
    cases hlittered
  · rw [hsource] at hgone
    cases hgone

/-- A platform that has the one path resolves it to itself. -/
theorem resolves_platformAt {there path : PathBuf} (name : String)
    (hname : PathBuf.IsName name) (hpath : path = .ofNames [name]) :
    Resolves (platformAt there) id path where
  root := rfl
  present := fun _ _ => ⟨_, rfl⟩
  canonicalize := fun _ _ _ => rfl
  join := fun _ _ _ _ => rfl
  absolute := ⟨[name], by simpa using hname, hpath⟩

/-- The call asks for the two paths. -/
theorem asks_callAt (there : PathBuf) (cuts : Point → Option (Fault Error)) :
    Asks id state aside (callAt there cuts) where
  asked := ⟨rfl, rfl⟩
  resolvesSource := resolves_platformAt "state" (by constructor <;> decide) rfl
  resolvesDestination := resolves_platformAt "aside" (by constructor <;> decide) rfl
  timestampMs := by
    show 2 < 2 ^ 64
    decide

/-- A call that dies after the move, and one after that. -/
theorem quarantine_converges_cutOff : ∃ receipt,
    ((callAt aside fun _ => none).run plainSerde viewed (runCalls plainSerde viewed []
      ((callAt state fun point => if point = .sourceSync then some .crash else none).run plainSerde
        viewed (runCalls plainSerde viewed [] found)).2)).1 =
      .ok ⟨.alreadyQuarantined, receipt⟩ ∧ receipt.timestampMs = 2 := by
  have hpath : state.IsPath ∧ aside.IsPath := by
    constructor <;> intro c hc <;> cases hc with
    | head => exact .inr ⟨_, by constructor <;> decide, rfl⟩
    | tail _ h => cases h
  obtain ⟨receipt, hreceipt, -, hlater⟩ := ((quarantine_converges plainSerde viewed [] found).2
    (callAt state fun point => if point = .sourceSync then some .crash else none) _ rfl).2
    (by rfl) id state aside hpath.1 hpath.2 (asks_callAt _ _)
  exact ⟨receipt, hlater [] _ (asks_callAt _ _) rfl, hreceipt.timestampMs⟩

end Displacement

end KCarrier
