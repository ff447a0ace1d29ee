import IncidentLens.Changes.Types
import IncidentLens.Data.Json

/-!
# What the change manager computes without calling anything

Path policy, protected paths, edits, validation and the names of temporary and backup files.
-/
namespace IncidentLens.Changes
open Data

structure ServiceRegistration where
  composeService : String
  allowedHostPaths : List Path := []
  allowedContainerPaths : List Path := []
  containerNames : List String := []
  protectedRemotePaths : List Path := []

namespace RemotePathPolicy

def pathsRepr (paths : List Path) : String :=
  match paths.map fun p => "PurePosixPath('" ++ p.str ++ "')" with
  | [text] => "(" ++ text ++ ",)"
  | texts => "(" ++ ", ".intercalate texts ++ ")"

def allowedRoots (registration : ServiceRegistration) : RemoteScope → List Path
  | .host => registration.allowedHostPaths
  | .container _ => registration.allowedContainerPaths

/-- `authorize` without a transport: the lexical checks. -/
def authorize (registration : ServiceRegistration) (scope : RemoteScope) (path : Path) : Except Exc Unit :=
  if ¬ path.absolute then .error ⟨.remotePathDenied, "path is not absolute: " ++ path.str⟩
  else if ".." ∈ path.parts then .error ⟨.remotePathDenied, "path contains '..': " ++ path.str⟩
  else match (match scope with
    | .host => none
    | .container container => if container ∈ registration.containerNames then none else some container) with
    | some container => .error ⟨.remotePathDenied, "unknown container: " ++ container⟩
    | none =>
      if (allowedRoots registration scope).any path.isRelativeTo then .ok ()
      else .error ⟨.remotePathDenied, "path " ++ path.str ++ " is outside allowed roots " ++
        pathsRepr (allowedRoots registration scope)⟩

def contains (registration : ServiceRegistration) (path : Path) (scope : RemoteScope) : Bool :=
  (allowedRoots registration scope).any path.isRelativeTo

end RemotePathPolicy

def isProtectedPath (path : Path) (serviceProtected : List Path) : Bool :=
  let name := lower path.name
  let endsWith (ending : String) := ending.toList.isSuffixOf name
  serviceProtected.any path.isRelativeTo
  || name ∈ [".env", "compose.yaml", "compose.yml", "dockerfile"].map String.toList
  || ("docker-compose".toList.isPrefixOf name && (endsWith ".yml" || endsWith ".yaml"))
  || path.isRelativeTo ⟨true, ["etc"]⟩
  || (endsWith ".service" && (path.isRelativeTo ⟨true, ["etc", "systemd"]⟩ ||
    path.isRelativeTo ⟨true, ["lib", "systemd"]⟩))

def isComposeYaml (path : Path) : Bool :=
  let name := lower path.name
  name ∈ ["compose.yaml", "compose.yml", "docker-compose.yml", "docker-compose.yaml"].map String.toList
  || ("docker-compose".toList.isPrefixOf name &&
    (".yml".toList.isSuffixOf name || ".yaml".toList.isSuffixOf name))

/-- The order of `sorted` on paths: that of their texts. -/
def sortedPaths (paths : List Path) : List Path := paths.insertionSort fun p q => p.str ≤ q.str

def protectedPathsIntent (sha256 : Bytes → String) (changesetId targetId service : String)
    (paths : List Path) : List (String × Json) :=
  let texts := (sortedPaths paths).map Path.str
  [("kind", .string "change"), ("changeset_id", .string changesetId), ("target_id", .string targetId),
    ("service", .string service), ("paths", .array (texts.map .string)),
    ("paths_sha256", .string (sha256 ("\n".intercalate texts).toUTF8.data.toList))]

def rollbackIntent (cs : ChangeSet) : List (String × Json) :=
  [("kind", .string "rollback"), ("changeset_id", .string cs.changesetId),
    ("target_id", .string cs.targetId), ("service", .string cs.serviceName)]

/-- The name of the remote backup, beside the file. -/
def backupPath (canonical : Path) (ts : String) : Path :=
  canonical.parent.child (canonical.name ++ ".incidentlens-backup." ++ ts)

/-- The name of the temporary file, beside the file. -/
def tempPath (canonical : Path) (changesetId : String) : Path :=
  canonical.parent.child ("." ++ canonical.name ++ ".incidentlens-tmp-" ++ changesetId)

def decodeUtf8 (content : Bytes) : Except Exc Text :=
  match String.fromUTF8? ⟨content.toArray⟩ with
  | some s => .ok s.toList
  | none => .error ⟨.unicodeDecode, "'utf-8' codec can't decode bytes"⟩

def encodeUtf8 (text : Text) : Bytes := (String.ofList text).toUTF8.data.toList

/-- `_find_occurrences`: the positions, overlapping ones included, of a nonempty `needle`. -/
def findOccurrences (needle : Text) : Text → ℕ → List ℕ
  | [], _ => []
  | c :: cs, start =>
    if needle.isPrefixOf (c :: cs) then start :: findOccurrences needle cs (start + 1)
    else findOccurrences needle cs (start + 1)

/-- A range of the original text and what replaces it. -/
structure Replacement where
  start : ℕ
  stop : ℕ
  newText : Text

/-- The order of the tuples `(start, end, new_text)`. -/
def Replacement.le (a b : Replacement) : Prop :=
  a.start < b.start ∨ a.start = b.start ∧ (a.stop < b.stop ∨ a.stop = b.stop ∧ ¬ b.newText < a.newText)

instance : DecidableRel Replacement.le := fun _ _ => by unfold Replacement.le; infer_instance

def replacementRanges (text : Text) (r : TextReplacement) : Except Exc (List Replacement) :=
  let starts := findOccurrences r.oldText text 0
  if starts.length ≠ r.expectedCount then .error (changeApplyError ("expected " ++
    toString r.expectedCount ++ " occurrences of '" ++ String.ofList r.oldText ++ "', found " ++
    toString starts.length))
  else if starts = [] then
    .error (changeApplyError ("text '" ++ String.ofList r.oldText ++ "' not found"))
  else .ok (starts.map fun start => ⟨start, start + r.oldText.length, r.newText⟩)

def overlap : List Replacement → Bool
  | a :: b :: rest => b.start < a.stop || overlap (b :: rest)
  | _ => false

/-- The text from `cursor` on, with the ranges replaced. -/
def splice (text : Text) : ℕ → List Replacement → Text
  | cursor, [] => text.drop cursor
  | cursor, r :: rest => (text.drop cursor).take (r.start - cursor) ++ r.newText ++ splice text r.stop rest

/-- `_apply_edits`. -/
def applyEdits (content : Bytes) (replacements : List TextReplacement) : Except Exc Bytes := do
  let text ← decodeUtf8 content
  let ranges ← replacements.mapM (replacementRanges text)
  let sorted := ranges.flatten.insertionSort Replacement.le
  if overlap sorted then .error (changeApplyError "overlapping replacements in edit request")
  else .ok (encodeUtf8 (splice text 0 sorted))

/-- The content a request asks for, given the content that was read. -/
def FileRequest.replacement (f : FileRequest) (original : Bytes) : Except Exc Bytes :=
  match f.mutation with
  | .edit _ replacements => applyEdits original replacements
  | .write _ content _ => .ok content

end IncidentLens.Changes
