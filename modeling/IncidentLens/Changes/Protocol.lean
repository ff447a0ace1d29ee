import IncidentLens.Changes.Manager

/-!
# The protocol of `apply`

What `apply` may call, in terms of its earlier calls and their responses: no file is
replaced before it has been surveyed, secured by a verified backup and written beside its
place, and nothing is restored that was not placed.
-/
namespace IncidentLens.Changes
open Data Effects

def Did (tr : History) (origin : Origin) (op : Op) (v : op.Value) : Prop :=
  (⟨⟨origin, op⟩, Except.ok v⟩ : Event Call (Raising Exc Call.Value)) ∈ tr

def RaisedWith (tr : History) (origin : Origin) (op : Op) (e : Exc) : Prop :=
  (⟨⟨origin, op⟩, Except.error e⟩ : Event Call (Raising Exc Call.Value)) ∈ tr

def Raised (tr : History) (origin : Origin) (op : Op) : Prop := ∃ e, RaisedWith tr origin op e

lemma Did.mono {tr tr' : History} {origin : Origin} {op : Op} {v : op.Value}
    (h : Did tr origin op v) (hsub : tr ⊆ tr') : Did tr' origin op v := hsub h

/-- The phases in which calls have effects on files: none, temporary files, the files
themselves, and their restoration. -/
def Call.stage (c : Call) : ℕ :=
  match c.origin, c.op with
  | .apply, .writeBytes .. => 1
  | .apply, .rename .. => 2
  | .apply, .updateFileChange _ _ patch => if patch.applied.isSome then 2 else 0
  | .apply, .transition _ .applied => 2
  | .apply, _ => 0
  | _, _ => 3

def UpTo (stage : ℕ) (tr : History) : Prop := ∀ e ∈ tr, e.call.stage ≤ stage

section
variable (rq : ChangeSetRequest) (ts : String)

/-- The canonical path of a requested file, as the transport has resolved it. -/
def Canonical (tr : History) (f : FileRequest) (canonical : Path) : Prop :=
  match f.scope with
  | .container _ => canonical = f.path
  | .host =>
    if f.creates then ∃ parent : Path, Did tr .apply (.realpath f.path.parent) parent ∧
      canonical = parent.child f.path.name
    else Did tr .apply (.realpath f.path) canonical

/-- A file that passed steps 1-2: its canonical path and, unless it was absent, its content. -/
def Preflighted (tr : History) (f : FileRequest) (canonical : Path) (original : Option Bytes) : Prop :=
  Canonical tr f canonical ∧ match original with
    | none => f.creates = true ∧ ∃ e : Exc, e.kind = .remotePath ∧ RaisedWith tr .apply (.lstat f.scope f.path) e
    | some content => f.creates = false ∧
        (∃ metadata : FileMetadata, metadata.isSymlink = false ∧
          Did tr .apply (.lstat f.scope f.path) metadata) ∧
        Did tr .apply (.readBytes f.scope canonical maxChangeFileBytes) content

def At (tr : History) (path canonical : Path) (original : Option Bytes) : Prop :=
  ∃ f ∈ rq.files, f.path = path ∧ Preflighted tr f canonical original

/-- A requested path whose file must not exist yet. -/
def IsNew (path : Path) : Prop := ∃ f ∈ rq.files, f.path = path ∧ f.creates = true

def Content (path : Path) (original content : Bytes) : Prop :=
  ∃ f ∈ rq.files, f.path = path ∧ f.replacement original = .ok content

def Created (tr : History) : Prop := ∃ cs, Did tr .apply (.createChangeset cs) ()

/-- The file has a remote backup, read back and recorded. -/
def Secured (tr : History) (path canonical : Path) (original : Option Bytes) : Prop :=
  ¬ IsNew rq path → ∃ content, original = some content ∧
    Did tr .apply (.copyFile rq.context.scope canonical (backupPath canonical ts)) () ∧
    Did tr .apply (.readBytes rq.context.scope (backupPath canonical ts) maxChangeFileBytes) content ∧
    ∀ f ∈ rq.files, f.path = path → Did tr .apply (.updateFileChange rq.changesetId f.operationId
      { remoteBackupPath := some (backupPath canonical ts) }) ()

/-- Everything that precedes the temporary file of a path. -/
structure Prepared (tr : History) (path canonical : Path) (original : Option Bytes) (content : Bytes) :
    Prop where
  survey : At rq tr path canonical original
  content : Content rq path (original.getD []) content
  secured : Secured rq ts tr path canonical original
  created : Created tr

/-- The canonical path belongs to two files of the request. -/
def Clash (tr : History) (canonical : Path) : Prop :=
  ¬ (rq.files.map FileRequest.path).Nodup ∨ ∃ path path' canonical' original original',
    path ≠ path' ∧ At rq tr path canonical original ∧ At rq tr path' canonical' original' ∧
      tempPath canonical rq.changesetId = tempPath canonical' rq.changesetId

structure Drafts (f : FileRequest) (change : FileChange) : Prop where
  fileChangeId : change.fileChangeId = f.operationId
  remotePath : change.remotePath = f.path
  scope : backendForChange change = .ok rq.context.scope
  originallyAbsent : change.originallyAbsent = true ↔ IsNew rq f.path
  applied : change.applied = false
  remoteBackupPath : change.remoteBackupPath = none

def Placed (tr : History) (path canonical : Path) : Prop :=
  (∃ original, At rq tr path canonical original) ∧
    Did tr .apply (.rename rq.context.scope (tempPath canonical rq.changesetId) canonical) ()

/-- The failure handler has put back what the path had before. -/
def Restored (tr : History) (path canonical : Path) : Prop :=
  (IsNew rq path ∧ Did tr .handler (.removeFile rq.context.scope canonical) ()) ∨
    ¬ IsNew rq path ∧ Did tr .handler (.rename rq.context.scope (backupPath canonical ts) canonical) ()

/-- What `apply` may call after the calls of a history. -/
def Lawful (tr : History) (c : Call) : Prop :=
  match c.origin, c.op with
  | .apply, .createChangeset cs => UpTo 0 tr ∧ cs = draft rq cs.files cs.approvalId ∧
      List.Forall₂ (Drafts rq) rq.files cs.files
  | .apply, .copyFile scope source target => UpTo 0 tr ∧ scope = rq.context.scope ∧
      target = backupPath source ts ∧ ∃ path original, ¬ IsNew rq path ∧ At rq tr path source original
  | .apply, .writeBytes scope temp content _ exclusive => UpTo 1 tr ∧ scope = rq.context.scope ∧
      exclusive = true ∧ ∃ path canonical original, Prepared rq ts tr path canonical original content ∧
        temp = tempPath canonical rq.changesetId ∧
        ((∃ content mode, Did tr .apply (.writeBytes scope temp content mode true) ()) → Clash rq tr canonical)
  | .apply, .rename scope temp canonical => UpTo 2 tr ∧ scope = rq.context.scope ∧
      temp = tempPath canonical rq.changesetId ∧ ∃ path original content mode,
        Prepared rq ts tr path canonical original content ∧
        Did tr .apply (.writeBytes scope temp content mode true) ()
  | .apply, .updateFileChange changesetId fileChangeId patch => changesetId = rq.changesetId ∧
      Created tr ∧ patch.rollbackResult = none ∧ (∃ f ∈ rq.files, fileChangeId = f.operationId) ∧
      (∀ backup, patch.remoteBackupPath = some backup → patch.applied = none ∧ UpTo 0 tr ∧
        ∃ f ∈ rq.files, fileChangeId = f.operationId ∧ ∃ canonical original,
          At rq tr f.path canonical original ∧ backup = backupPath canonical ts) ∧
      ∀ applied, patch.applied = some applied → applied = true ∧ UpTo 2 tr ∧
        ∃ f ∈ rq.files, fileChangeId = f.operationId ∧ ∃ canonical, Placed rq tr f.path canonical
  | .apply, .transition changesetId target => changesetId = rq.changesetId ∧ Created tr ∧ UpTo 2 tr ∧
      target ∈ [.preflighted, .locallyBackedUp, .remotelyBackedUp, .applied] ∧
      (target = .applied → ∃ path canonical, Placed rq tr path canonical)
  | .apply, .lstat _ _ => UpTo 0 tr
  | .apply, .readBytes _ _ _ => UpTo 0 tr
  | .apply, .removeFile _ _ => False
  | .apply, _ => True
  | .handler, .rename scope source target => scope = rq.context.scope ∧ ∃ path,
      ¬ IsNew rq path ∧ Placed rq tr path target ∧ source = backupPath target ts ∧
      (Did tr .handler (.rename scope source target) () → Clash rq tr target)
  | .handler, .removeFile scope target => scope = rq.context.scope ∧
      ((∃ path, IsNew rq path ∧ Placed rq tr path target ∧
        (Did tr .handler (.removeFile scope target) () → Clash rq tr target)) ∨
      ∃ path canonical original content mode, At rq tr path canonical original ∧
        target = tempPath canonical rq.changesetId ∧
        Did tr .apply (.writeBytes scope target content mode true) ())
  | .handler, .updateFileChange changesetId fileChangeId patch => changesetId = rq.changesetId ∧
      patch.applied = some false ∧ patch.remoteBackupPath = none ∧ ∃ f ∈ rq.files,
        fileChangeId = f.operationId ∧ ∃ canonical, Placed rq tr f.path canonical ∧ Restored rq ts tr f.path canonical
  | .handler, .transition changesetId target => changesetId = rq.changesetId ∧ Created tr ∧
      target ∈ [.rolledBack, .failed] ∧
      ∀ target', ¬ Did tr .handler (.transition rq.changesetId target') ()
  | .handler, .publish _ _ _ => True
  | _, _ => False

end
end IncidentLens.Changes
