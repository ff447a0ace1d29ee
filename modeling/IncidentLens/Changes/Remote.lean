import IncidentLens.Changes.Store
import IncidentLens.Data.Json
import IncidentLens.Effects.Routine

/-!
# The environment of the change manager

The remote file system, the journal, the vault and the locks, and the calls the manager
makes on them. A file is stored under its location: the resolved directory of its path
together with its name.
-/
namespace IncidentLens.Changes
open Data Effects Function

/-- Where the directories of the remote system are, symbolic links resolved. -/
structure Layout where
  dir : RemoteScope → Path → Path
  dir_dir : ∀ scope path, dir scope (dir scope path) = dir scope path

namespace Layout

def loc (layout : Layout) (scope : RemoteScope) (path : Path) : Path := (layout.dir scope path.parent).child path.name

lemma loc_child_dir (layout : Layout) (scope : RemoteScope) (path : Path) (name : String) :
    layout.loc scope ((layout.dir scope path).child name) = (layout.dir scope path).child name := by
  simp [loc, layout.dir_dir]

end Layout

structure Entry where
  content : Bytes
  mode : ℕ
  deriving DecidableEq

/-- `(target_id, scope, path)`, the path as its text. -/
structure LockKey where
  targetId : String
  scope : String
  path : String
  deriving DecidableEq

/-- The directory and the name of a file in the vault, and the hash of its content. -/
structure BackupReference where
  directory : List Text
  name : String
  sha256 : String

structure FileMetadata where
  mode : ℕ
  isSymlink : Bool

structure CommandResult where
  exitStatus : ℤ
  stderr : String

inductive EventType
  | changesetCreated | changesetStatusChanged | changesetRolledBack

/-- The calls of the change manager. -/
inductive Op
  | connect (projectId targetId : String)
  | acquire (key : LockKey)
  | release (key : LockKey)
  | lstat (scope : RemoteScope) (path : Path)
  | realpath (path : Path)
  | readBytes (scope : RemoteScope) (path : Path) (maxBytes : ℕ)
  | copyFile (scope : RemoteScope) (source target : Path)
  | writeBytes (scope : RemoteScope) (path : Path) (content : Bytes) (mode : ℕ) (exclusive : Bool)
  | rename (scope : RemoteScope) (source target : Path)
  | removeFile (scope : RemoteScope) (path : Path)
  | runArgv (argv : List String)
  | vaultStore (targetId incidentId changesetId : String) (path : Path) (content : Bytes)
  | vaultLoad (reference : BackupReference)
  | createChangeset (cs : ChangeSet)
  | updateFileChange (changesetId fileChangeId : String) (patch : FileChangePatch)
  | transition (changesetId : String) (target : ChangeSetStatus)
  | getChangeset (changesetId : String)
  | publish (type : EventType) (changesetId : String) (status : ChangeSetStatus)
  | consume (approvalId : String) (intent : List (String × Json))

abbrev Op.Value : Op → Type
  | lstat _ _ => FileMetadata
  | realpath _ => Path
  | readBytes _ _ _ => Bytes
  | runArgv _ => CommandResult
  | vaultStore _ _ _ _ _ => BackupReference
  | vaultLoad _ => Bytes
  | getChangeset _ => Option ChangeSet
  | _ => Unit

/-- The part of the code a call comes from: the steps of `apply`, its failure handler, or
`rollback`. -/
inductive Origin
  | apply | handler | rollback
  deriving DecidableEq

structure Call where
  origin : Origin
  op : Op

abbrev Call.Value (c : Call) : Type := c.op.Value

/-- The functions and the machines outside the control plane. -/
structure Env where
  layout : Layout
  sha256 : Bytes → String
  astParse : Text → Except String Unit
  jsonLoads : Text → Except String Unit
  tomlLoads : Text → Except String Unit
  runArgv : List String → CommandResult

structure World where
  files : RemoteScope → Path → Option Entry
  journal : Journal := {}
  vault : List Text → String → Option Bytes := fun _ _ => none
  locks : List LockKey := []

namespace World

def setFile (w : World) (scope : RemoteScope) (location : Path) (entry : Option Entry) : World :=
  { w with files := update w.files scope (update (w.files scope) location entry) }

@[simp] lemma journal_setFile (w : World) (scope : RemoteScope) (location : Path)
    (entry : Option Entry) : (w.setFile scope location entry).journal = w.journal := rfl

lemma files_setFile (w : World) (scope : RemoteScope) (location : Path) (entry : Option Entry)
    (scope' : RemoteScope) (location' : Path) : (w.setFile scope location entry).files scope' location' =
      if scope' = scope ∧ location' = location then entry else w.files scope' location' := by
  unfold setFile
  by_cases hscope : scope' = scope
  · subst hscope
    simp only [update_self, update_apply, true_and]
  · simp only [update_of_ne hscope, hscope, false_and, if_false]

end World

/-- The error of a missing file: only the host transport raises a `RemotePathError`. -/
def missing (scope : RemoteScope) (path : Path) : Exc :=
  match scope with
  | .host => ⟨.remotePath, "path does not exist: " ++ path.str⟩
  | .container _ => ⟨.containerFileOperationUnsupported, "container operation failed: " ++ path.str⟩

/-- `_sanitize_segment`. -/
def sanitizeSegment (segment : String) : Text :=
  let rec dots : Text → Text
    | '.' :: '.' :: cs => '_' :: '_' :: dots cs
    | c :: cs => c :: dots cs
    | [] => []
  (dots (segment.toList.map fun c => if c = '/' then '_' else c)).map fun c => if c = '\\' then '_' else c

/-- The name of a vault file: the first 16 digits of the hash of the path. -/
def vaultName (env : Env) (path : Path) : String :=
  String.ofList ((env.sha256 path.str.toUTF8.data.toList).toList.take 16) ++ ".enc"

/-- A call that completes. Calls on files work on locations. -/
def perform (env : Env) : (op : Op) → World → Except Exc op.Value × World
  | .connect _ _, w => (.ok (), w)
  | .acquire key, w => (.ok (), { w with locks := key :: w.locks })
  | .release key, w => (.ok (), { w with locks := w.locks.erase key })
  | .lstat scope path, w =>
    let location := env.layout.loc scope path
    if env.layout.dir scope path ≠ location then (.ok ⟨0o120777, true⟩, w)
    else match w.files scope location with
      | some entry => (.ok ⟨entry.mode, false⟩, w)
      | none => (.error (missing scope path), w)
  | .realpath path, w => (.ok (env.layout.dir .host path), w)
  | .readBytes scope path maxBytes, w => match w.files scope (env.layout.loc scope path) with
    | some entry => (.ok (entry.content.take maxBytes), w)
    | none => (.error (missing scope path), w)
  | .copyFile scope source target, w => match w.files scope (env.layout.loc scope source) with
    | some entry => (.ok (), w.setFile scope (env.layout.loc scope target) (some entry))
    | none => (.error (missing scope source), w)
  | .writeBytes scope path content mode exclusive, w =>
    -- `docker cp` replaces a file whatever `exclusive` says
    if scope = .host ∧ exclusive ∧ (w.files scope (env.layout.loc scope path)).isSome then
      (.error ⟨.remotePath, "file already exists: " ++ path.str⟩, w)
    else (.ok (), w.setFile scope (env.layout.loc scope path) (some ⟨content, mode⟩))
  | .rename scope source target, w => match w.files scope (env.layout.loc scope source) with
    | some entry => (.ok (), (w.setFile scope (env.layout.loc scope source) none).setFile scope
        (env.layout.loc scope target) (some entry))
    | none => (.error (missing scope source), w)
  | .removeFile scope path, w => match w.files scope (env.layout.loc scope path) with
    | some _ => (.ok (), w.setFile scope (env.layout.loc scope path) none)
    | none => (.error (missing scope path), w)
  | .runArgv argv, w => (.ok (env.runArgv argv), w)
  | .vaultStore targetId incidentId changesetId path content, w =>
    let directory := [targetId, incidentId, changesetId].map sanitizeSegment
    (.ok ⟨directory, vaultName env path, env.sha256 content⟩, { w with
      vault := update w.vault directory
        (update (w.vault directory) (vaultName env path) (some content)) })
  | .vaultLoad reference, w => match w.vault reference.directory reference.name with
    | none => (.error ⟨.other, "No such file or directory"⟩, w)
    | some content =>
      if env.sha256 content = reference.sha256 then (.ok content, w)
      else (.error ⟨.backupIntegrity, "SHA-256 mismatch: expected " ++ reference.sha256 ++ ", got " ++
        env.sha256 content⟩, w)
  | .createChangeset cs, w => match w.journal.createChangeset cs with
    | .ok journal => (.ok (), { w with journal := journal })
    | .error e => (.error e, w)
  | .updateFileChange changesetId fileChangeId patch, w =>
    match w.journal.updateFileChange changesetId fileChangeId patch with
    | .ok journal => (.ok (), { w with journal := journal })
    | .error e => (.error e, w)
  | .transition changesetId target, w => match w.journal.transition changesetId target with
    | .ok journal => (.ok (), { w with journal := journal })
    | .error e => (.error e, w)
  | .getChangeset changesetId, w => (.ok (w.journal.get changesetId), w)
  | .publish _ _ _, w => (.ok (), w)
  | .consume _ _, w => (.ok (), w)

/-- The calls of the transport, the vault and the stores, which may raise. -/
def Op.faultable : Op → Bool
  | connect _ _ | acquire _ | release _ => false
  | _ => true

/-- The calls that raise, by their number in the run: such a call has no other effect. Calls
of the failure handler complete. -/
abbrev Faults := ℕ → Option Exc

abbrev History := Trace Call (Raising Exc Call.Value)

def respond (env : Env) (faults : Faults) (tr : History) (c : Call) (w : World) : Except Exc c.Value × World :=
  match if c.origin ≠ .handler ∧ c.op.faultable then faults tr.length else none with
  | some e => (.error e, w)
  | none => perform env c.op w

end IncidentLens.Changes
