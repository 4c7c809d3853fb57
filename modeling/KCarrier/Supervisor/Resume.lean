import KCarrier.Protocol.Wire
import KCarrier.Supervisor
import Mathlib.Data.List.DropRight

/-!
# KCarrier.Supervisor.Resume

`resume_runner`: a launch that starts from the files an earlier one kept.

The supervisor writes the worker and its descriptor, and `resumeRunner` reads them back:
the writer describes the recovery of any request, and the reader takes only one that names
an operation.

* `RecoveryDescriptor.fromSlice_toVec` — the descriptor is read as it was written;
* `superviseBytes_kept` — a recovery file that is reported is there, and so is the worker;
* `resume_iff` — and it can be resumed exactly when the request named an operation.
-/

namespace KCarrier

open Crash
open Json (Value toVec)

namespace Supervisor

/-! ## the descriptor -/

def RecoveryDescriptor.toJson (d : RecoveryDescriptor) : Value :=
  .object [("file", .string d.file), ("sha256", .string d.sha256),
    ("size", .number (.natural d.size)), ("request", d.request.toJson)]

def RecoveryDescriptor.fromJson (v : Value) : Option RecoveryDescriptor := do
  let fields ← Json.record ["file", "sha256", "size", "request"] false v
  let file ← Json.required fields "file" Value.asString
  let sha256 ← Json.required fields "sha256" Value.asString
  let size ← Json.required fields "size" (Value.asUnsigned 64)
  let request ← Json.required fields "request" Request.fromJson
  some ⟨file, sha256, size, request⟩

def RecoveryDescriptor.fromSlice (serde : Serde) (bytes : Bytes) :
    Except Error RecoveryDescriptor :=
  match (Json.fromSlice serde.float bytes).bind RecoveryDescriptor.fromJson with
  | none => .error (.json (serde.message bytes))
  | some descriptor => .ok descriptor

/-! ## files -/

abbrev Files : Type := Path → Option Bytes

/-- `Path::parent`: none for a path without a name. -/
def parent (path : List Char) : Option (List Char) :=
  let trimmed := path.rdropWhile (· == '/')
  if trimmed = [] then none
  else some ((trimmed.rdropWhile (· != '/')).rdropWhile (· == '/'))

/-- The files of another launch, and the directory of this one. -/
structure Desk where
  files : Files
  site : Site

def readFile (path : Path) : Prog Error Desk Bytes := fun s =>
  match s.files path with
  | some bytes => (.ok bytes, s)
  | none => (.err (.io true "No such file or directory (os error 2)"), s)

def removeFile (path : Path) : Prog Error Desk Unit := fun s =>
  match s.files path with
  | some _ => (.ok (), { s with files := fun p => if p = path then none else s.files p })
  | none => (.err (.io true "No such file or directory (os error 2)"), s)

/-! ## the resumed launch -/

/-- The artifact of a descriptor is what its size and digest say. -/
def verify (sha256 : Bytes → String) (bytes : Bytes) (size : Nat) (hash : String) :
    Except Error Unit :=
  if bytes.length ≠ size then
    .error (.invalid "SIZE_MISMATCH")
  else if sha256 bytes ≠ hash then
    .error (.invalid "SHA256_MISMATCH")
  else
    .ok ()

def isBound : Request → Bool
  | .recover _ (some _) => true
  | _ => false

def resumeRunner (serde : Serde) (l : Launch) (recoveryFile : Path) (options : LaunchOptions) :
    Prog Error Desk LaunchResult := do
  let content ← readFile recoveryFile
  let descriptor ← Prog.ofExcept (RecoveryDescriptor.fromSlice serde content)
  Prog.ofExcept descriptor.request.validate
  if !isBound descriptor.request then
    Prog.throw (.invalid "INVALID_RECOVERY_DESCRIPTOR")
  else do
    let bytes ← readFile descriptor.file
    Prog.ofExcept ((verify l.sha256 bytes descriptor.size descriptor.sha256).mapError
      fun _ => .invalid "RECOVERY_ARTIFACT_MISMATCH")
    if ((parent recoveryFile.toList).bind parent).isNone then
      Prog.throw (.invalid "INVALID_RECOVERY_DESCRIPTOR")
    else do
      let result ← Prog.zoom Desk.site (fun site s => { s with site := site })
        (superviseBytes l bytes descriptor.request options)
      if result.recoveryFile.isNone then do
        removeFile descriptor.file
        removeFile recoveryFile
        pure result
      else
        pure result

/-! ## the law -/

/-- The files that were kept, at their paths. -/
structure Untouched (l : Launch) (kept : Retained) (files : Files) : Prop where
  worker : files kept.recovery.file = some kept.worker
  descriptor : files l.recoveryFile = some (toVec kept.recovery.toJson)

/-- The launch from `path` passes every check and runs `bytes` on the recovery of what the
request named, its worker first; when it settles both files are gone, and else both stay. -/
def Resumes (serde : Serde) (l : Launch) (bytes : Bytes) (request : Request) (path : Path)
    (kept : Retained) (options : LaunchOptions) (files : Files) : Prop :=
  ∃ e result site, request.expected = some e ∧
    superviseBytes l bytes (.recover 1 (some e)) options ⟨none, []⟩ = (.ok result, site) ∧
    site.delivered.head? = some ⟨.recover 1 (some e), l.workers 0⟩ ∧
    ∃ files', resumeRunner serde l path options ⟨files, ⟨none, []⟩⟩ = (.ok result, ⟨files', site⟩) ∧
      (result.recoveryFile = none → files' path = none ∧ files' kept.recovery.file = none) ∧
      (result.recoveryFile ≠ none → files' = files)

/-- Every recovery file the launch reports can be resumed, in any later launch whose own files
work and whose time is not over before it begins. -/
def Recoverable (serde : Serde) (l : Launch) (bytes : Bytes) (request : Request)
    (options : LaunchOptions) : Prop :=
  ∀ result site path, superviseBytes l bytes request options ⟨none, []⟩ = (.ok result, site) →
    result.recoveryFile = some path → ∃ kept, site.retained = some kept ∧
      ∀ files, Untouched l kept files → ∀ (later : Launch) (again : LaunchOptions),
        later.sha256 = l.sha256 → later.writing = none → later.removing = none →
        later.inTime 0 = true → again.validate = .ok () →
        Resumes serde later bytes request path kept again files

/-- The first worker is started in time and seen to exit, and nothing is left to be done. -/
def EndsAtOnce (l : Launch) (request : Request) : Prop :=
  l.inTime 0 = true ∧ (run l.decode request (l.workers 0)).fenced = true ∧
    (request.isStatus = true ∨
      ((run l.decode request (l.workers 0)).response.any fun r => settled r request) = true)

/-! ## the descriptor is read as it was written -/

section

variable {l : Launch} {bytes : Bytes} {request : Request} {options : LaunchOptions}
  {serde : Serde} {kept : Retained} {files : Files}

theorem RecoveryDescriptor.fits_toJson {d : RecoveryDescriptor} {expected : Option Expected}
    (hsize : d.size < 2 ^ 64) (hrequest : d.request = .recover 1 expected) :
    Json.Fits Json.maxDepth d.toJson := by
  have hone : Json.Number.Fits (.natural 1) := .natural 1 (by omega)
  have hrecover : Json.Fits 126 (Request.recover 1 expected).toJson := by
    cases expected with
    | none => exact .object (by simp [Json.Fits.string, Json.Fits.number hone])
    | some e =>
        have he : Json.Fits 125 e.toJson := .object (by simp [Json.Fits.string])
        exact .object (by simp [Json.Fits.string, Json.Fits.number hone, he])
  rw [RecoveryDescriptor.toJson, hrequest]
  exact .object (by simp [Json.Fits.string, Json.Fits.number (.natural _ hsize), hrecover])

theorem RecoveryDescriptor.fromSlice_toVec {d : RecoveryDescriptor}
    {expected : Option Expected} (hsize : d.size < 2 ^ 64)
    (hrequest : d.request = .recover 1 expected) :
    RecoveryDescriptor.fromSlice serde (toVec d.toJson) = .ok d := by
  obtain ⟨file, sha256, size, request⟩ := d
  obtain rfl : request = .recover 1 expected := hrequest
  have hrecover : Request.fromJson (Request.recover 1 expected).toJson =
      some (.recover 1 expected) := by
    cases expected <;> rfl
  have hread : RecoveryDescriptor.fromJson
      (RecoveryDescriptor.toJson ⟨file, sha256, size, .recover 1 expected⟩) =
      some ⟨file, sha256, size, .recover 1 expected⟩ := by
    let fields : Json.Members Value := [("file", .string file), ("sha256", .string sha256),
      ("size", .number (.natural size)), ("request", (Request.recover 1 expected).toJson)]
    have hfields : Json.record ["file", "sha256", "size", "request"] false
        (RecoveryDescriptor.toJson ⟨file, sha256, size, .recover 1 expected⟩) = some fields := rfl
    have hfile : Json.required fields "file" Value.asString = some file := rfl
    have hsha : Json.required fields "sha256" Value.asString = some sha256 := rfl
    have hsizeField : Json.required fields "size" (Value.asUnsigned 64) = some size :=
      Json.asUnsigned_natural hsize
    have hrequestField : Json.required fields "request" Request.fromJson =
        some (.recover 1 expected) := hrecover
    simp only [RecoveryDescriptor.fromJson, hfields, Option.bind_eq_bind, Option.bind_some, hfile,
      hsha, hsizeField, hrequestField]
  rw [RecoveryDescriptor.fromSlice, Json.fromSlice_toVec serde.float (fits_toJson hsize rfl),
    Option.bind_some, hread]

/-! ## what a launch keeps -/

theorem failing_none {P : Site → Prop} :
    Triple P (failing none) (fun _ => P) (fun _ _ => False) := fun _ hs => hs

/-- A recovery file that is reported is there. -/
theorem attempts_kept (hremoving : l.removing = none) (n index : Nat)
    (response : Option Response) :
    Triple (fun s => s.retained = some kept) (attempts l request n index response)
      (fun result s => ∀ path, result.recoveryFile = some path →
        path = l.recoveryFile ∧ s.retained = some kept) (fun _ _ => False) := by
  have hunresolved : ∀ n (response : Option Response) (s : Site), s.retained = some kept →
      ∀ path, (unresolved l n response).recoveryFile = some path →
        path = l.recoveryFile ∧ s.retained = some kept := by
    intro n response s hs path hpath
    cases hpath
    exact ⟨rfl, hs⟩
  induction n generalizing index response with
  | zero => exact Triple.pure fun s hs => hunresolved _ _ s hs
  | succ n ih =>
      unfold attempts
      refine Triple.ite (fun _ => ?_) fun _ => Triple.pure fun s hs => hunresolved _ _ s hs
      refine Triple.bind (R := fun _ s => s.retained = some kept) (Triple.modify fun s hs => hs)
        fun _ => ?_
      refine Triple.ite (fun _ => ?_) fun _ => Triple.ite (fun _ => ?_) fun _ => ih _ _
      · rw [hremoving]
        refine Triple.bind failing_none fun _ => ?_
        refine Triple.bind (R := fun _ _ => True) (Triple.modify fun s _ => trivial) fun _ => ?_
        refine Triple.pure fun s _ path hpath => ?_
        cases hpath
      · exact Triple.pure fun s hs => hunresolved _ _ s hs

/-- The first worker is there, or is about to be. -/
def First (l : Launch) (request : Request) (n index : Nat) (s : Site) : Prop :=
  s.delivered.head? = some ⟨request, l.workers 0⟩ ∨
    index = 0 ∧ n ≠ 0 ∧ s.delivered = [] ∧ l.inTime 0 = true

theorem attempts_first (hremoving : l.removing = none) (n index : Nat)
    (response : Option Response) :
    Triple (First l request n index) (attempts l request n index response)
      (fun _ s => s.delivered.head? = some ⟨request, l.workers 0⟩) (fun _ _ => False) := by
  induction n generalizing index response with
  | zero =>
      refine Triple.pure ?_
      rintro s (hs | ⟨-, hne, -⟩)
      · exact hs
      · exact absurd rfl hne
  | succ n ih =>
      unfold attempts
      refine Triple.ite (fun _ => ?_) fun hlate => Triple.pure fun s hs => ?_
      · refine Triple.bind (R := fun _ s => s.delivered.head? = some ⟨request, l.workers 0⟩)
          (Triple.modify fun s hs => ?_) fun _ => ?_
        · rcases hs with hs | ⟨rfl, -, hs, -⟩
          · simp [hs]
          · simp [hs, requestAt]
        refine Triple.ite (fun _ => ?_) fun _ => Triple.ite (fun _ => ?_) fun _ => ?_
        · rw [hremoving]
          refine Triple.bind failing_none fun _ => ?_
          refine Triple.bind (R := fun _ s => s.delivered.head? = some ⟨request, l.workers 0⟩)
            (Triple.modify fun s hs => hs) fun _ => ?_
          exact Triple.pure fun s hs => hs
        · exact Triple.pure fun s hs => hs
        · exact (ih (index + 1) _).pre fun s hs => .inl hs
      · rcases hs with hs | ⟨rfl, -, -, htime⟩
        · exact hs
        · exact absurd htime hlate

/-- A launch whose checks pass and whose files work is the loop over its attempts. -/
theorem superviseBytes_eq (hrequest : request.validate = .ok ())
    (hoptions : options.validate = .ok ()) (hwriting : l.writing = none) :
    superviseBytes l bytes request options ⟨none, []⟩ =
      attempts l request (options.recoveryAttempts + 1) 0 none
        ⟨some ⟨bytes, ⟨l.file, l.sha256 bytes, bytes.length, recoverRequest request⟩⟩, []⟩ := by
  unfold superviseBytes
  rw [hrequest, hoptions, hwriting]
  rfl

theorem superviseBytes_kept (bytes : Bytes) (hrequest : request.validate = .ok ())
    (hoptions : options.validate = .ok ()) (hwriting : l.writing = none)
    (hremoving : l.removing = none) :
    ∃ result site, superviseBytes l bytes request options ⟨none, []⟩ = (.ok result, site) ∧
      ∀ path, result.recoveryFile = some path → path = l.recoveryFile ∧ site.retained =
        some ⟨bytes, ⟨l.file, l.sha256 bytes, bytes.length, recoverRequest request⟩⟩ := by
  rw [superviseBytes_eq hrequest hoptions hwriting]
  exact (attempts_kept hremoving _ _ none).run_of_not_fault rfl

theorem superviseBytes_head (bytes : Bytes) (hrequest : request.validate = .ok ())
    (hoptions : options.validate = .ok ()) (hwriting : l.writing = none)
    (hremoving : l.removing = none) (htime : l.inTime 0 = true) :
    (superviseBytes l bytes request options ⟨none, []⟩).2.delivered.head? =
      some ⟨request, l.workers 0⟩ := by
  rw [superviseBytes_eq hrequest hoptions hwriting]
  obtain ⟨result, site, hrun, hhead⟩ := (attempts_first hremoving _ _ none).run_of_not_fault
    (s := ⟨some ⟨bytes, ⟨l.file, l.sha256 bytes, bytes.length, recoverRequest request⟩⟩, []⟩)
    (.inr ⟨rfl, Nat.succ_ne_zero _, rfl, htime⟩)
  rw [hrun]
  exact hhead

/-! ## the resumed launch -/

theorem rdropWhile_name {dir name : List Char} (hname : '/' ∉ name) :
    (dir ++ name).rdropWhile (· != '/') = dir.rdropWhile (· != '/') := by
  induction name using List.reverseRecOn with
  | nil => rw [List.append_nil]
  | append_singleton name c ih =>
      simp only [List.mem_append, List.mem_singleton, not_or] at hname
      have hc : (c != '/') = true := by
        rw [bne_iff_ne]
        exact Ne.symm hname.2
      rw [← List.append_assoc, List.rdropWhile_concat, if_pos hc, ih hname.1]

/-- The directory of a file, without the slashes at its end. -/
theorem parent_append {dir name : List Char} {c : Char} (hname : '/' ∉ name ++ [c]) :
    parent (dir ++ '/' :: (name ++ [c])) = some (dir.rdropWhile (· == '/')) := by
  have hc : ¬(c == '/') = true := by
    simp only [List.mem_append, List.mem_singleton, not_or] at hname
    simpa using Ne.symm hname.2
  have htrimmed : (dir ++ '/' :: (name ++ [c])).rdropWhile (· == '/') =
      dir ++ '/' :: (name ++ [c]) := by
    have hsplit : dir ++ '/' :: (name ++ [c]) = (dir ++ '/' :: name) ++ [c] := by simp
    rw [hsplit, List.rdropWhile_concat, if_neg hc]
  have hsplit : dir ++ '/' :: (name ++ [c]) = (dir ++ ['/']) ++ (name ++ [c]) := by simp
  unfold parent
  simp only [htrimmed]
  rw [if_neg (by simp), hsplit, rdropWhile_name hname, List.rdropWhile_concat, if_neg (by decide),
    List.rdropWhile_concat, if_pos (by decide)]

/-- The file of a launch stands two directories deep at least. -/
theorem parent_recoveryFile {scratch uuid : String} (hdir : l.dir = scratch ++ "/k-runner-" ++ uuid) :
    ((parent l.recoveryFile.toList).bind parent).isSome = true := by
  have hfile : l.recoveryFile.toList = l.dir.toList ++ '/' :: ("recovery.jso".toList ++ ['n']) := by
    rw [Launch.recoveryFile, String.toList_append]
    rfl
  rw [hfile, parent_append (by decide), Option.bind_some]
  have hne : (l.dir.toList.rdropWhile (· == '/')).rdropWhile (· == '/') ≠ [] := by
    rw [List.rdropWhile_idempotent]
    intro hnil
    have hslash := List.rdropWhile_eq_nil_iff.mp hnil 'k' (by
      rw [hdir, String.toList_append, String.toList_append]
      simp)
    exact absurd hslash (by decide)
  unfold parent
  simp only [hne, if_false]
  rfl

theorem validate_recoverRequest (h : request.validate = .ok ()) :
    (recoverRequest request).validate = .ok () := by
  rw [Request.validate_eq_ok_iff] at h ⊢
  exact ⟨rfl, h.2⟩

theorem recoveryFile_ne_file : l.recoveryFile ≠ l.file := by
  intro heq
  have hlength := congrArg String.length heq
  rw [Launch.recoveryFile, Launch.file, String.length_append, String.length_append] at hlength
  exact absurd (Nat.add_left_cancel hlength) (by decide)

theorem readFile_run {path : Path} {content : Bytes} {site : Site}
    (h : files path = some content) :
    readFile path ⟨files, site⟩ = (.ok content, ⟨files, site⟩) := by
  rw [readFile]
  simp only [h]

theorem removeFile_run {path : Path} {content : Bytes} {site : Site}
    (h : files path = some content) : removeFile path ⟨files, site⟩ =
      (.ok (), ⟨fun p => if p = path then none else files p, site⟩) := by
  rw [removeFile]
  simp only [h]

/-- Every check passes on the files of a launch whose request named an operation, and what
follows is the launch of the recovery. -/
theorem resumeRunner_eq {later : Launch} {e : Expected}
    (hrequest : (Request.recover 1 (some e)).validate = .ok ()) (hlength : bytes.length < 2 ^ 64)
    (hparent : ((parent l.recoveryFile.toList).bind parent).isSome = true)
    (hsha : later.sha256 = l.sha256)
    (hfiles : Untouched l ⟨bytes, ⟨l.file, l.sha256 bytes, bytes.length, .recover 1 (some e)⟩⟩ files)
    {result : LaunchResult} {site : Site}
    (hrun : superviseBytes later bytes (.recover 1 (some e)) options ⟨none, []⟩ = (.ok result, site)) :
    resumeRunner serde later l.recoveryFile options ⟨files, ⟨none, []⟩⟩ =
      (.ok result, ⟨if result.recoveryFile.isNone then
        fun p => if p = l.recoveryFile then none else if p = l.file then none else files p
        else files, site⟩) := by
  have hverify : verify later.sha256 bytes bytes.length (l.sha256 bytes) = .ok () := by
    simp [verify, hsha]
  have hremoved : (fun p => if p = l.file then none else files p) l.recoveryFile =
      some (toVec (RecoveryDescriptor.toJson
        ⟨l.file, l.sha256 bytes, bytes.length, .recover 1 (some e)⟩)) := by
    simp only [recoveryFile_ne_file, if_false]
    exact hfiles.descriptor
  have hlaunched : Prog.zoom Desk.site (fun site s => { s with site := site })
      (superviseBytes later bytes (.recover 1 (some e)) options) ⟨files, ⟨none, []⟩⟩ =
      (.ok result, ⟨files, site⟩) := by
    rw [Prog.zoom]
    simp only [hrun]
  have hdescriptor : (Prog.ofExcept (RecoveryDescriptor.fromSlice serde (toVec
      (RecoveryDescriptor.toJson ⟨l.file, l.sha256 bytes, bytes.length, .recover 1 (some e)⟩))) :
      Prog Error Desk RecoveryDescriptor) ⟨files, ⟨none, []⟩⟩ =
      (.ok ⟨l.file, l.sha256 bytes, bytes.length, .recover 1 (some e)⟩, ⟨files, ⟨none, []⟩⟩) := by
    rw [RecoveryDescriptor.fromSlice_toVec hlength rfl]
    rfl
  unfold resumeRunner
  rw [Prog.bind_run_ok (readFile_run hfiles.descriptor), Prog.bind_run_ok hdescriptor]
  simp only [hrequest, isBound, Bool.not_true, Bool.false_eq_true, if_false]
  rw [Prog.bind_run_ok (Prog.ofExcept_ok_run () _), Prog.bind_run_ok (readFile_run hfiles.worker)]
  simp only [hverify, Except.mapError]
  rw [Prog.bind_run_ok (Prog.ofExcept_ok_run () _)]
  have hnone : ¬((parent l.recoveryFile.toList).bind parent).isNone = true := by
    rw [Option.isNone_iff_eq_none, ← ne_eq, Option.ne_none_iff_isSome]
    exact hparent
  rw [if_neg hnone, Prog.bind_run_ok hlaunched]
  by_cases hsettled : result.recoveryFile.isNone = true
  · rw [if_pos hsettled, if_pos hsettled, Prog.bind_run_ok (removeFile_run hfiles.worker),
      Prog.bind_run_ok (removeFile_run hremoved)]
    rfl
  · rw [if_neg hsettled, if_neg hsettled]
    rfl

theorem resumes_of_bound {later : Launch} {e : Expected} (hrequest : request.validate = .ok ())
    (hexpected : request.expected = some e) (hlength : bytes.length < 2 ^ 64)
    (hparent : ((parent l.recoveryFile.toList).bind parent).isSome = true)
    (hsha : later.sha256 = l.sha256) (hwriting : later.writing = none)
    (hremoving : later.removing = none) (htime : later.inTime 0 = true)
    (hoptions : options.validate = .ok ())
    (hfiles : Untouched l ⟨bytes, ⟨l.file, l.sha256 bytes, bytes.length, recoverRequest request⟩⟩
      files) :
    Resumes serde later bytes request l.recoveryFile
      ⟨bytes, ⟨l.file, l.sha256 bytes, bytes.length, recoverRequest request⟩⟩ options files := by
  have hrecover := validate_recoverRequest hrequest
  rw [recoverRequest, hexpected] at hrecover hfiles ⊢
  obtain ⟨result, site, hrun, -⟩ := superviseBytes_kept bytes hrecover hoptions hwriting
    hremoving
  have hhead := superviseBytes_head bytes hrecover hoptions hwriting hremoving htime
  rw [hrun] at hhead
  refine ⟨e, result, site, hexpected, hrun, hhead, _,
    resumeRunner_eq hrecover hlength hparent hsha hfiles hrun, fun hnone => ?_, fun hsome => ?_⟩
  · simp [hnone]
  · rw [if_neg]
    simpa using hsome

/-! ## a launch that names no operation -/

/-- Without a named operation there is one attempt. -/
theorem superviseBytes_unbound (bytes : Bytes) (hrequest : request.validate = .ok ())
    (hoptions : options.validate = .ok ()) (hwriting : l.writing = none)
    (hexpected : request.expected = none)
    (hends : ¬EndsAtOnce l request) :
    ∃ result site, superviseBytes l bytes request options ⟨none, []⟩ = (.ok result, site) ∧
      result.recoveryFile = some l.recoveryFile := by
  rw [superviseBytes_eq hrequest hoptions hwriting, attempts]
  by_cases htime : l.inTime 0 = true
  · have hgoes : ¬((run l.decode request (l.workers 0)).fenced && (request.isStatus ||
        (run l.decode request (l.workers 0)).response.any fun r => settled r request)) = true := by
      rw [Bool.and_eq_true, Bool.or_eq_true]
      exact fun h => hends ⟨htime, h⟩
    rw [if_pos htime, Prog.bind_run_ok (Prog.modify_run _ _)]
    simp only [requestAt, if_true, hgoes, hexpected, Option.isNone_none, Bool.or_true]
    exact ⟨_, _, rfl, rfl⟩
  · rw [if_neg htime]
    exact ⟨_, _, rfl, rfl⟩

theorem superviseBytes_ends (bytes : Bytes) (hrequest : request.validate = .ok ())
    (hoptions : options.validate = .ok ()) (hwriting : l.writing = none)
    (hremoving : l.removing = none) (hends : EndsAtOnce l request) :
    ∃ result site, superviseBytes l bytes request options ⟨none, []⟩ = (.ok result, site) ∧
      result.recoveryFile = none := by
  obtain ⟨htime, hfenced, hdone⟩ := hends
  rw [superviseBytes_eq hrequest hoptions hwriting, attempts]
  rw [if_pos htime, Prog.bind_run_ok (Prog.modify_run _ _)]
  have hgoes : ((run l.decode request (l.workers 0)).fenced && (request.isStatus ||
      (run l.decode request (l.workers 0)).response.any fun r => settled r request)) = true := by
    rw [Bool.and_eq_true, Bool.or_eq_true]
    exact ⟨hfenced, hdone⟩
  simp only [requestAt, if_true, hgoes, hremoving, failing]
  exact ⟨_, _, rfl, rfl⟩

/-- The recovery file of a request that named no operation is refused. -/
theorem not_recoverable (hwriting : l.writing = none) (hremoving : l.removing = none)
    (hrequest : request.validate = .ok ()) (hoptions : options.validate = .ok ())
    (hexpected : request.expected = none) (hends : ¬EndsAtOnce l request) :
    ¬Recoverable serde l bytes request options := by
  intro hrecoverable
  obtain ⟨result, site, hrun, hfile⟩ :=
    superviseBytes_unbound bytes hrequest hoptions hwriting hexpected hends
  obtain ⟨kept, hkept, hlater⟩ := hrecoverable result site _ hrun hfile
  obtain ⟨result', site', hrun', hfull⟩ :=
    superviseBytes_kept bytes hrequest hoptions hwriting hremoving
  rw [hrun] at hrun'
  cases hrun'
  obtain ⟨-, hretained⟩ := hfull _ hfile
  rw [hkept] at hretained
  cases hretained
  let files : Files := fun path =>
    if path = l.file then some bytes
    else some (toVec (RecoveryDescriptor.toJson
      ⟨l.file, l.sha256 bytes, bytes.length, recoverRequest request⟩))
  have hfiles : Untouched l
      ⟨bytes, ⟨l.file, l.sha256 bytes, bytes.length, recoverRequest request⟩⟩ files :=
    ⟨if_pos rfl, if_neg recoveryFile_ne_file⟩
  -- the same launch once more, in time
  obtain ⟨e, -, -, hsome, -⟩ := hlater files hfiles { l with inTime := fun _ => true } options rfl
    hwriting hremoving rfl hoptions
  rw [hexpected] at hsome
  cases hsome

/-- **Retained recovery files** can be resumed exactly when the request named an operation,
unless the launch reports none because its only worker ends it. -/
theorem resume_iff (serde : Serde) (l : Launch) (scratch uuid : String)
    (hdir : l.dir = scratch ++ "/k-runner-" ++ uuid) (hwriting : l.writing = none)
    (hremoving : l.removing = none) (bytes : Bytes) (hlength : bytes.length < 2 ^ 64)
    (request : Request) (hrequest : request.validate = .ok ()) (options : LaunchOptions)
    (hoptions : options.validate = .ok ()) :
    Recoverable serde l bytes request options ↔
      request.expected.isSome = true ∨ EndsAtOnce l request := by
  have hparent : ((parent l.recoveryFile.toList).bind parent).isSome = true :=
    parent_recoveryFile hdir
  constructor
  · intro hrecoverable
    rw [or_iff_not_imp_right]
    intro hends
    rw [← Option.ne_none_iff_isSome]
    intro hexpected
    exact not_recoverable hwriting hremoving hrequest hoptions hexpected hends hrecoverable
  · rintro (hbound | hends)
    · intro result site path hrun hfile
      obtain ⟨e, hexpected⟩ := Option.isSome_iff_exists.mp hbound
      obtain ⟨result', site', hrun', hkept⟩ :=
        superviseBytes_kept bytes hrequest hoptions hwriting hremoving
      rw [hrun] at hrun'
      cases hrun'
      obtain ⟨rfl, hretained⟩ := hkept path hfile
      refine ⟨_, hretained, fun files hfiles later again hsha hwrites hremoves htime hvalid => ?_⟩
      exact resumes_of_bound hrequest hexpected hlength hparent hsha hwrites hremoves htime hvalid
        hfiles
    · intro result site path hrun hfile
      obtain ⟨result', site', hrun', hnone⟩ :=
        superviseBytes_ends bytes hrequest hoptions hwriting hremoving hends
      rw [hrun] at hrun'
      cases hrun'
      rw [hnone] at hfile
      cases hfile

end

/-- A launch whose first worker writes no response. -/
def muteLaunch : Launch := { hungLaunch with dir := "scratch" ++ "/k-runner-" ++ "5f0c" }

theorem resume_iff_mute :
    Recoverable plainSerde muteLaunch [77, 90] hungRequest ⟨600000, 120000, 840000, 2⟩ ↔
      hungRequest.expected.isSome = true ∨ EndsAtOnce muteLaunch hungRequest :=
  resume_iff plainSerde muteLaunch "scratch" "5f0c" rfl rfl rfl [77, 90] (by decide) hungRequest
    (by decide +kernel) ⟨600000, 120000, 840000, 2⟩ (by decide +kernel)

/-- A recovery of whatever there is does not settle, and its recovery file is refused. -/
theorem resume_refused :
    ¬Recoverable plainSerde muteLaunch [77, 90] (.recover 1 none) ⟨600000, 120000, 840000, 2⟩ := by
  have hends : ¬EndsAtOnce muteLaunch (.recover 1 none) := by
    rintro ⟨-, -, hstatus | hdone⟩
    · cases hstatus
    · exact absurd hdone (by decide +kernel)
  exact not_recoverable rfl rfl rfl rfl rfl hends

end Supervisor

end KCarrier
