import IncidentLens.Data.Bytes
import IncidentLens.Data.Dict
import IncidentLens.Data.DateTime

/-!
# Change sets

Paths, requests, the rows of the journal and the state machine of a change set.
-/
namespace IncidentLens.Changes
open Data

/-- A `PurePosixPath`. -/
structure Path where
  absolute : Bool
  parts : List String
  deriving DecidableEq

namespace Path

def join : List String → String
  | [] => ""
  | [part] => part
  | part :: parts => part ++ "/" ++ join parts

def str (p : Path) : String := if p.absolute then "/" ++ join p.parts else if p.parts = [] then "." else join p.parts

def parent (p : Path) : Path := { p with parts := p.parts.dropLast }

def name (p : Path) : String := p.parts.getLastD ""

/-- `p / name`. -/
def child (p : Path) (name : String) : Path := { p with parts := p.parts ++ [name] }

def isRelativeTo (p root : Path) : Bool := p.absolute = root.absolute ∧ root.parts <+: p.parts

/-- The part of the name from its last dot on, unless that is its first or last character. -/
def suffix (p : Path) : Text :=
  let extension := p.name.toList.reverse.takeWhile (· ≠ '.')
  match p.name.toList.reverse.dropWhile (· ≠ '.') with
  | '.' :: _ :: _ => if extension = [] then [] else '.' :: extension.reverse
  | _ => []

@[simp] lemma parent_child (p : Path) (name : String) : (p.child name).parent = p := by
  simp [parent, child]

@[simp] lemma name_child (p : Path) (name : String) : (p.child name).name = name := by
  simp [Path.name, child]

lemma child_inj {p q : Path} {m n : String} : p.child m = q.child n ↔ p = q ∧ m = n := by
  constructor
  · intro h
    exact ⟨by simpa using congrArg parent h, by simpa using congrArg Path.name h⟩
  · rintro ⟨rfl, rfl⟩
    rfl

end Path

/-- The characters of `str.lower` whose lower case is ASCII. -/
def lowerChar (c : Char) : Text := if c = '\u212A' then ['k'] else if c = '\u0130' then ['i', '\u0307'] else [c.toLower]

def lower (s : String) : Text := s.toList.flatMap lowerChar

inductive RemoteScope
  | host
  | container (container : String)
  deriving DecidableEq

inductive ScopeKind
  | host | container
  deriving DecidableEq

def RemoteScope.kind : RemoteScope → ScopeKind
  | host => .host
  | container _ => .container

structure TextReplacement where
  oldText : Text
  newText : Text
  expectedCount : ℕ := 1

inductive FileMutation
  | edit (expectedSha256 : String) (replacements : List TextReplacement)
  | write (expectedSha256 : Option String) (content : Bytes) (mode : Option ℕ)

/-- What all files of one request share. -/
structure OperationContext where
  incidentId : String
  projectId : String
  targetId : String
  service : String
  scope : RemoteScope
  deriving DecidableEq

/-- A `FileEditRequest` or a `FileWriteRequest`. -/
structure FileRequest extends OperationContext where
  operationId : String
  path : Path
  mutation : FileMutation

namespace FileRequest

def expectedSha256 (f : FileRequest) : Option String :=
  match f.mutation with
  | .edit expected _ => some expected
  | .write expected _ _ => expected

/-- A `FileWriteRequest` without an expected hash: the file must not exist. -/
def creates (f : FileRequest) : Bool :=
  match f.mutation with
  | .write none _ _ => true
  | _ => false

end FileRequest

structure ChangeSetRequest where
  changesetId : String
  files : List FileRequest
  verificationPlan : String
  rollbackPlan : String
  context : OperationContext
  nonempty : files ≠ []
  /-- `files_share_one_operation_context`. -/
  shared : ∀ f ∈ files, f.toOperationContext = context

inductive ChangeSetStatus
  | draft | preflighted | locallyBackedUp | remotelyBackedUp | applied | validated | verified
  | failed | rolledBack
  deriving DecidableEq

namespace ChangeSetStatus

def value : ChangeSetStatus → String
  | draft => "draft"
  | preflighted => "preflighted"
  | locallyBackedUp => "locally_backed_up"
  | remotelyBackedUp => "remotely_backed_up"
  | applied => "applied"
  | validated => "validated"
  | verified => "verified"
  | failed => "failed"
  | rolledBack => "rolled_back"

/-- `_VALID_PREDECESSORS`; there is no entry for `draft`. -/
def validPredecessors : ChangeSetStatus → List ChangeSetStatus
  | draft => []
  | preflighted => [draft]
  | locallyBackedUp => [preflighted]
  | remotelyBackedUp => [locallyBackedUp]
  | applied => [remotelyBackedUp]
  | validated => [applied]
  | verified => [validated]
  | failed => [draft, preflighted, locallyBackedUp, remotelyBackedUp, applied, validated]
  | rolledBack => [applied, validated]

/-- `_TERMINAL_STATES`. -/
def terminal : ChangeSetStatus → Bool
  | verified | failed | rolledBack => true
  | _ => false

end ChangeSetStatus

inductive RollbackResult
  | removed | restored
  deriving DecidableEq

structure FileChange where
  fileChangeId : String
  scope : ScopeKind
  remotePath : Path
  expectedSha256 : Option String
  replacementSha256 : String
  /-- `original_metadata["originally_absent"]` -/
  originallyAbsent : Bool
  /-- `original_metadata["container"]` -/
  container : Option String
  localBackupRef : Option String := none
  remoteBackupPath : Option Path := none
  tempPath : Option Path := none
  applied : Bool := false
  validationResult : Option String := none
  rollbackResult : Option RollbackResult := none

structure ChangeSet where
  changesetId : String
  incidentId : String
  projectId : String
  targetId : String
  serviceName : String
  files : List FileChange
  status : ChangeSetStatus := .draft
  verificationPlan : String
  rollbackPlan : String
  approvalId : Option String

inductive ExceptionKind
  | changeApply | changeRollback | remotePath | remoteConnection | remoteTimeout | asyncioTimeout
  | containerFileOperationUnsupported | remotePathDenied | changeSetNotFound
  | invalidChangeTransition | integrity | backupIntegrity | unicodeDecode | validation | key | approval
  | other
  deriving DecidableEq

/-- An `Exception`: its class and its text. -/
structure Exc where
  kind : ExceptionKind
  message : String
  deriving DecidableEq

/-- `_is_uncertain_failure`. -/
def Exc.isUncertainFailure (e : Exc) : Bool :=
  e.kind = .remoteTimeout ∨ e.kind = .remoteConnection ∨ e.kind = .asyncioTimeout

def changeApplyError (message : String) : Exc := ⟨.changeApply, message⟩

def changeRollbackError (message : String) : Exc := ⟨.changeRollback, message⟩

/-- A `ChangeResult`. -/
structure ChangeResult where
  changesetId : String
  status : ChangeSetStatus
  appliedFiles : List Path := []
  error : Option String := none
  uncertain : Bool := false

end IncidentLens.Changes
