import IncidentLens.Changes.Policy
import IncidentLens.Changes.Remote

/-!
# The change manager

`apply` and `rollback` as routines over the calls of the environment. Dictionaries keyed by
the text of a path are keyed by the path.
-/
namespace IncidentLens.Changes
open Data Effects Routine

/-- `_MAX_CHANGE_FILE_BYTES` -/
def maxChangeFileBytes : ℕ := 10 * 1024 * 1024

structure ProjectRecord where
  targets : List String
  services : List ServiceRegistration

/-- What a `ChangeManager` is constructed with. -/
structure Manager where
  env : Env
  policy : Option ServiceRegistration := none
  transport : Bool := false
  approvals : Bool := true
  events : Bool := true
  protectedPaths : List Path := []
  projects : Option (String → Except Exc ProjectRecord) := none
  sessions : Bool := false

/-- The local variables of `_apply_locked` and of the failure handler. -/
structure Locals where
  appliedFiles : List Path := []
  changesetCreated : Bool := false
  writtenTemps : List Path := []
  canonicalPaths : Dict Path Path := []
  backends : Dict Path RemoteScope := []
  originalContents : Dict Path Bytes := []
  originalModes : Dict Path ℕ := []
  newContents : Dict Path Bytes := []
  newFiles : List Path := []
  backupPaths : Dict Path Path := []
  tempPaths : Dict Path Path := []
  validationResults : Dict Path String := []
  rollbackFailures : List Path := []

abbrev M (σ α : Type) := Routine Call Call.Value Exc σ α

section
variable {σ : Type}

def call (origin : Origin) (op : Op) : M σ op.Value := fun l => .call ⟨origin, op⟩ fun r => .ret (r, l)

/-- `d[key]` -/
def lookup {α : Type} (d : Dict Path α) (key : Path) : Except Exc α :=
  match d.get? key with
  | some a => .ok a
  | none => .error ⟨.key, "'" ++ key.str ++ "'"⟩

def raise {α : Type} (e : Exc) : M σ α := throw e

/-- `_emit_changeset_event` -/
def emitChangesetEvent (m : Manager) (origin : Origin) (changesetId : String)
    (status : ChangeSetStatus) (created : Bool := false) : M σ Unit :=
  if m.events then
    let type := if created then EventType.changesetCreated
      else if status = .rolledBack then .changesetRolledBack else .changesetStatusChanged
    call origin (.publish type changesetId status)
  else pure ()

/-- `_transition` -/
def transition (m : Manager) (origin : Origin) (changesetId : String) (status : ChangeSetStatus) :
    M σ Unit := do
  call origin (.transition changesetId status)
  emitChangesetEvent m origin changesetId status

/-- `_resolve_transport_for` -/
def resolveTransportFor (m : Manager) (origin : Origin) (projectId targetId : String) : M σ Unit :=
  match m.projects with
  | some projects =>
    if m.sessions then do
      let record ← ofExcept (projects projectId)
      if targetId ∈ record.targets then call origin (.connect projectId targetId)
      else raise (changeApplyError ("target '" ++ targetId ++ "' is not registered for project '" ++ projectId ++ "'"))
    else if m.transport then pure () else raise (changeApplyError "no transport available")
  | none => if m.transport then pure () else raise (changeApplyError "no transport available")

end

/-- `_resolve_policy` -/
def resolvePolicy (m : Manager) (request : ChangeSetRequest) : Except Exc (ServiceRegistration × List Path) :=
  match m.projects with
  | some projects => match projects request.context.projectId with
    | .error e => .error e
    | .ok record =>
      match record.services.find? fun svc => svc.composeService = request.context.service with
      | some svc => .ok (svc, (record.services.flatMap ServiceRegistration.protectedRemotePaths).dedup)
      | none => .error (changeApplyError ("service '" ++ request.context.service ++
          "' not found in project '" ++ request.context.projectId ++ "'"))
  | none => match m.policy with
    | some policy => .ok (policy, m.protectedPaths)
    | none => .error (changeApplyError "no path policy available")

/-- `_file_req_by_path` -/
def fileReqByPath (request : ChangeSetRequest) (path : Path) : Except Exc FileRequest :=
  match request.files.find? fun f => f.path = path with
  | some f => .ok f
  | none => .error (changeApplyError ("no file request for path " ++ path.str))

/-- `_check_sha` -/
def checkSha (env : Env) (path : Path) (content : Bytes) (expected : String) : Except Exc Unit :=
  if env.sha256 content = expected then .ok ()
  else .error (changeApplyError ("SHA-256 mismatch for " ++ path.str ++ ": expected " ++ expected ++
    ", got " ++ env.sha256 content))

/-- `_validate_content` -/
def validateContent (env : Env) (path : Path) (content : Bytes) : Except Exc String :=
  let suffix := lower (String.ofList path.suffix)
  let parse : Option (Text → Except String Unit) :=
    if suffix = ".py".toList then some env.astParse
    else if suffix = ".json".toList then some env.jsonLoads
    else if suffix = ".toml".toList then some env.tomlLoads
    else none
  match parse with
  | none => .ok "not_validated"
  | some parse => match decodeUtf8 content with
    | .error e => .error (changeApplyError ("validation failed for " ++ path.str ++ ": " ++ e.message))
    | .ok text => match parse text with
      | .error message => .error (changeApplyError ("validation failed for " ++ path.str ++ ": " ++ message))
      | .ok () => .ok "validated"

/-- `_build_file_change`; the journal takes paths of 512 characters. -/
def buildFileChange (env : Env) (f : FileRequest) (newContents : Dict Path Bytes) (newFiles : List Path) :
    Except Exc FileChange :=
  match lookup newContents f.path with
  | .error e => .error e
  | .ok content =>
    if 512 < f.path.str.length then .error ⟨.validation, "String should have at most 512 characters"⟩
    else .ok
      { fileChangeId := f.operationId
        scope := f.scope.kind
        remotePath := f.path
        expectedSha256 := f.expectedSha256
        replacementSha256 := env.sha256 content
        originallyAbsent := f.path ∈ newFiles
        container := match f.scope with
          | .host => none
          | .container container => some container }

/-! ### The steps of `_apply_locked` -/

/-- Whether a path that is there, or is absent, may be changed as requested. -/
def checkPresence (f : FileRequest) (metadata : Option FileMetadata) : Except Exc Unit :=
  if metadata.any FileMetadata.isSymlink then
    .error (changeApplyError ("target is a symbolic link: " ++ f.path.str))
  else if f.creates then
    if metadata.isSome then .error (changeApplyError ("target already exists: " ++ f.path.str)) else .ok ()
  else
    if metadata.isNone then .error (changeApplyError ("path does not exist: " ++ f.path.str)) else .ok ()

/-- `lstat`; a `RemotePathError` says that the path is absent. -/
def lstatOrAbsent (f : FileRequest) : M Locals (Option FileMetadata) := do
  match ← attempt (call .apply (.lstat f.scope f.path)) with
  | .ok metadata => pure (some metadata)
  | .error e => if e.kind = .remotePath then pure none else raise e

/-- The canonical path, which must stay within the allowed roots. -/
def canonicalize (policy : ServiceRegistration) (f : FileRequest) (metadata : Option FileMetadata) : M Locals Path :=
  match f.scope with
  | .host => do
    let canonical ← match metadata with
      | none => do
        let parent : Path ← call .apply (.realpath f.path.parent)
        pure (parent.child f.path.name)
      | some _ => call .apply (.realpath f.path)
    if RemotePathPolicy.contains policy canonical .host then pure canonical
    else raise (changeApplyError ("resolved path " ++ canonical.str ++ " escapes allowed roots"))
  | .container _ => pure f.path

def originalMode (f : FileRequest) : ℕ :=
  match f.mutation with
  | .write _ _ (some mode) => mode
  | _ => 0o644

/-- The original content: empty for a new file, otherwise read and compared. -/
def readOriginal (m : Manager) (f : FileRequest) (canonical : Path) (metadata : Option FileMetadata) :
    M Locals Unit :=
  match metadata with
  | none => modify fun l => { l with
      newFiles := f.path :: l.newFiles
      originalContents := l.originalContents.set f.path []
      originalModes := l.originalModes.set f.path (originalMode f) }
  | some metadata => do
    let content ← call .apply (.readBytes f.scope canonical maxChangeFileBytes)
    modify fun l => { l with
      originalContents := l.originalContents.set f.path content
      originalModes := l.originalModes.set f.path metadata.mode }
    match f.expectedSha256 with
    | some expected => ofExcept (checkSha m.env f.path content expected)
    | none => pure ()

/-- Steps 1-2 for one file. -/
def preflight (m : Manager) (policy : ServiceRegistration) (f : FileRequest) : M Locals Unit := do
  modify fun l => { l with backends := l.backends.set f.path f.scope }
  let metadata ← lstatOrAbsent f
  ofExcept (checkPresence f metadata)
  ofExcept (RemotePathPolicy.authorize policy f.scope f.path)
  let canonical ← canonicalize policy f metadata
  modify fun l => { l with canonicalPaths := l.canonicalPaths.set f.path canonical }
  readOriginal m f canonical metadata

/-- Step 3 for one file. -/
def computeReplacement (f : FileRequest) : M Locals Unit := do
  let l ← get
  let original ← ofExcept (lookup l.originalContents f.path)
  let content ← ofExcept (f.replacement original)
  modify fun l => { l with newContents := l.newContents.set f.path content }

/-- Step 4 for one file. -/
def validate (m : Manager) (f : FileRequest) : M Locals Unit := do
  let l ← get
  let content ← ofExcept (lookup l.newContents f.path)
  let result ← ofExcept (validateContent m.env f.path content)
  modify fun l => { l with validationResults := l.validationResults.set f.path result }

/-- The `DRAFT` entry of the journal. -/
def draft (request : ChangeSetRequest) (files : List FileChange) (approvalId : Option String) : ChangeSet :=
  { changesetId := request.changesetId
    incidentId := request.context.incidentId
    projectId := request.context.projectId
    targetId := request.context.targetId
    serviceName := request.context.service
    files := files
    verificationPlan := request.verificationPlan
    rollbackPlan := request.rollbackPlan
    approvalId := approvalId }

/-- The journal entry is made once every file has been read, computed and validated. -/
def createDraft (m : Manager) (request : ChangeSetRequest) (approvalId : Option String) :
    M Locals Unit := do
  let l ← get
  let files ← ofExcept
    (request.files.mapM fun f => buildFileChange m.env f l.newContents l.newFiles)
  call .apply (.createChangeset (draft request files approvalId))
  modify fun l => { l with changesetCreated := true }
  emitChangesetEvent m .apply request.changesetId .draft true

/-- Step 5 for one file. -/
def backUpLocally (request : ChangeSetRequest) (f : FileRequest) : M Locals Unit := do
  let l ← get
  let ref : BackupReference ← if f.path ∈ l.newFiles then
      call .apply (.vaultStore f.targetId f.incidentId request.changesetId f.path [])
    else do
      let original ← ofExcept (lookup l.originalContents f.path)
      let ref ← call .apply (.vaultStore f.targetId f.incidentId request.changesetId f.path original)
      let loaded : Bytes ← call .apply (.vaultLoad ref)
      if loaded = original then pure ref
      else raise (changeApplyError ("local backup verification failed for " ++ f.path.str))
  call .apply (.updateFileChange request.changesetId f.operationId
    { localBackupRef := some ref.name })

/-- Step 6 for one file. -/
def backUpRemotely (request : ChangeSetRequest) (ts : String) (f : FileRequest) : M Locals Unit := do
  let l ← get
  if f.path ∈ l.newFiles then pure ()
  else do
    let canonical ← ofExcept (lookup l.canonicalPaths f.path)
    let original ← ofExcept (lookup l.originalContents f.path)
    call .apply (.copyFile f.scope canonical (backupPath canonical ts))
    let content : Bytes ← call .apply
      (.readBytes f.scope (backupPath canonical ts) maxChangeFileBytes)
    if content = original then do
      modify fun l => { l with
        backupPaths := l.backupPaths.set f.path (backupPath canonical ts) }
      call .apply (.updateFileChange request.changesetId f.operationId
        { remoteBackupPath := some (backupPath canonical ts) })
    else raise (changeApplyError ("remote backup verification failed for " ++ f.path.str))

/-- Step 7 for one file. -/
def writeTemp (request : ChangeSetRequest) (f : FileRequest) : M Locals Unit := do
  let l ← get
  let canonical ← ofExcept (lookup l.canonicalPaths f.path)
  let temp := tempPath canonical request.changesetId
  modify fun l => { l with tempPaths := l.tempPaths.set f.path temp }
  let content ← ofExcept (lookup l.newContents f.path)
  let mode ← ofExcept (lookup l.originalModes f.path)
  call .apply (.writeBytes f.scope temp content mode true)
  modify fun l => { l with writtenTemps := f.path :: l.writtenTemps }
  call .apply (.updateFileChange request.changesetId f.operationId { tempPath := some temp })

/-- Step 8 for one file. -/
def checkCompose (f : FileRequest) : M Locals Unit :=
  if isComposeYaml f.path then do
    let l ← get
    let temp ← ofExcept (lookup l.tempPaths f.path)
    if f.scope = .host then do
      let result : CommandResult ← call .apply
        (.runArgv ["docker", "compose", "-f", temp.str, "config", "-q"])
      if result.exitStatus = 0 then pure ()
      else raise (changeApplyError ("docker compose config failed for " ++ temp.str ++ ": " ++ result.stderr))
    else pure ()
  else pure ()

def consumeApproval (m : Manager) (request : ChangeSetRequest) (protectedPaths : List Path)
    (approvalId : Option String) : M Locals Unit :=
  let paths := (request.files.map FileRequest.path).filter fun path => isProtectedPath path protectedPaths
  if paths = [] then pure ()
  else match approvalId with
    | some approvalId =>
      if m.approvals then call .apply (.consume approvalId (protectedPathsIntent m.env.sha256
        request.changesetId request.context.targetId request.context.service paths))
      else raise (changeApplyError "an exact approval is required before changing a protected path")
    | none =>
      raise (changeApplyError "an exact approval is required before changing a protected path")

/-- `_recheck_originals` for one path: the cached content against the expected hash. -/
def recheckOriginal (m : Manager) (request : ChangeSetRequest) (path : Path) : M Locals Unit := do
  let l ← get
  let f ← ofExcept (fileReqByPath request path)
  match f.expectedSha256 with
  | none => pure ()
  | some expected =>
    let canonical ← ofExcept (lookup l.canonicalPaths path)
    let original ← ofExcept (lookup l.originalContents path)
    ofExcept (checkSha m.env canonical original expected)

/-- Step 10 for one path. -/
def renameIntoPlace (m : Manager) (request : ChangeSetRequest) (path : Path) : M Locals Unit := do
  let l ← get
  let f ← ofExcept (fileReqByPath request path)
  let scope ← ofExcept (lookup l.backends path)
  let temp ← ofExcept (lookup l.tempPaths path)
  let canonical ← ofExcept (lookup l.canonicalPaths path)
  call .apply (.rename scope temp canonical)
  modify fun l => { l with appliedFiles := l.appliedFiles ++ [path] }
  let result ← ofExcept (lookup l.validationResults path)
  call .apply (.updateFileChange request.changesetId f.operationId
    { applied := some true, validationResult := some result })
  if l.appliedFiles = [] then transition m .apply request.changesetId .applied else pure ()

/-- The `try` block of `_apply_locked`. -/
def applySteps (m : Manager) (request : ChangeSetRequest) (policy : ServiceRegistration)
    (protectedPaths : List Path) (approvalId : Option String) (ts : String) :
    M Locals ChangeResult := do
  request.files.forM (preflight m policy)
  request.files.forM computeReplacement
  request.files.forM (validate m)
  createDraft m request approvalId
  transition m .apply request.changesetId .preflighted
  request.files.forM (backUpLocally request)
  transition m .apply request.changesetId .locallyBackedUp
  request.files.forM (backUpRemotely request ts)
  transition m .apply request.changesetId .remotelyBackedUp
  request.files.forM (writeTemp request)
  request.files.forM checkCompose
  consumeApproval m request protectedPaths approvalId
  let l ← get
  (sortedPaths l.canonicalPaths.keys).forM (recheckOriginal m request)
  (sortedPaths l.tempPaths.keys).forM (renameIntoPlace m request)
  emitChangesetEvent m .apply request.changesetId .applied
  let l ← get
  pure { changesetId := request.changesetId, status := .applied, appliedFiles := l.appliedFiles }

/-! ### The failure handler -/

/-- Step 11 for one applied file. -/
def restoreFile (request : ChangeSetRequest) (path : Path) : M Locals Unit := do
  let l ← get
  let f ← ofExcept (fileReqByPath request path)
  let scope ← ofExcept (lookup l.backends path)
  let canonical ← ofExcept (lookup l.canonicalPaths path)
  let restored ← attempt (if path ∈ l.newFiles then do
      call .handler (.removeFile scope canonical)
      call .handler (.updateFileChange request.changesetId f.operationId
        { rollbackResult := some .removed, applied := some false })
    else do
      let backup ← ofExcept (lookup l.backupPaths path)
      call .handler (.rename scope backup canonical)
      call .handler (.updateFileChange request.changesetId f.operationId
        { rollbackResult := some .restored, applied := some false }))
  match restored with
  | .ok () => pure ()
  | .error _ => modify fun l => { l with rollbackFailures := l.rollbackFailures ++ [path] }

def removeTemp (item : Path × Path) : M Locals Unit := do
  let l ← get
  if item.1 ∈ l.appliedFiles ∨ item.1 ∉ l.writtenTemps then pure ()
  else do
    let _ ← attempt (do
      let scope ← ofExcept (lookup l.backends item.1)
      call .handler (.removeFile scope item.2))
    pure ()

/-- `_handle_failure` -/
def handleFailure (m : Manager) (request : ChangeSetRequest) (e : Exc) : M Locals ChangeResult := do
  let l ← get
  l.appliedFiles.reverse.forM (restoreFile request)
  l.tempPaths.forM removeTemp
  let l ← get
  let rolledBack : Bool := l.appliedFiles ≠ [] ∧ l.rollbackFailures = []
  if l.changesetCreated then
    if rolledBack then do
      transition m .handler request.changesetId .rolledBack
      emitChangesetEvent m .handler request.changesetId .rolledBack
    else transition m .handler request.changesetId .failed
  else pure ()
  pure
    { changesetId := request.changesetId
      status := if rolledBack then .rolledBack else .failed
      appliedFiles := if rolledBack then l.appliedFiles else []
      error := some e.message
      uncertain := e.isUncertainFailure }

/-- `_apply_locked` -/
def applyLocked (m : Manager) (request : ChangeSetRequest) (policy : ServiceRegistration)
    (protectedPaths : List Path) (approvalId : Option String) (ts : String) :
    M Locals ChangeResult := do
  match ← attempt (applySteps m request policy protectedPaths approvalId ts) with
  | .ok result => pure result
  | .error e => handleFailure m request e

def scopeLockKey : RemoteScope → String
  | .host => "host"
  | .container container => "container:" ++ container

/-- The order of the tuples `(target_id, scope, path)`. -/
def LockKey.le (a b : LockKey) : Prop :=
  a.targetId < b.targetId ∨ a.targetId = b.targetId ∧ (a.scope < b.scope ∨ a.scope = b.scope ∧ a.path ≤ b.path)

instance : DecidableRel LockKey.le := fun _ _ => by unfold LockKey.le; infer_instance

def lockKeys (request : ChangeSetRequest) : List LockKey :=
  ((request.files.map fun f => ⟨f.targetId, scopeLockKey f.scope, f.path.str⟩).dedup).insertionSort LockKey.le

/-- `apply`; `ts` is the time of the call. -/
def apply (m : Manager) (request : ChangeSetRequest) (approvalId : Option String) (transport : Bool)
    (ts : String) : M Locals ChangeResult := do
  if transport then pure ()
  else resolveTransportFor m .apply request.context.projectId request.context.targetId
  let (policy, protectedPaths) ← ofExcept (resolvePolicy m request)
  (lockKeys request).forM fun key => call .apply (.acquire key)
  let result ← attempt (applyLocked m request policy protectedPaths approvalId ts)
  (lockKeys request).reverse.forM fun key => call .apply (.release key)
  ofExcept result

/-! ### Rollback -/

/-- `interrupts_service` -/
def interruptsService (m : Manager) (cs : ChangeSet) : Bool :=
  match m.projects with
  | none => cs.files.any fun f => isProtectedPath f.remotePath []
  | some projects => match projects cs.projectId with
    | .error _ => true
    | .ok record =>
      let serviceProtected := match record.services.find? fun svc => svc.composeService = cs.serviceName with
        | some svc => svc.protectedRemotePaths
        | none => []
      cs.files.any fun f => isProtectedPath f.remotePath serviceProtected

/-- `_backend_for_change` -/
def backendForChange (f : FileChange) : Except Exc RemoteScope :=
  match f.scope with
  | .host => .ok .host
  | .container => match f.container with
    | some container => .ok (.container container)
    | none => .error (changeRollbackError ("container name missing for " ++ f.remotePath.str))

/-- The body of the loop of `rollback`. -/
def rollbackFile (changesetId : String) (f : FileChange) : M Unit Unit :=
  if f.applied then do
    let scope ← ofExcept (backendForChange f)
    let restored ← attempt (if f.originallyAbsent then do
        call .rollback (.removeFile scope f.remotePath)
        call .rollback (.updateFileChange changesetId f.fileChangeId
          { rollbackResult := some .removed, applied := some false })
      else do
        call .rollback (.rename scope (f.remoteBackupPath.getD ⟨false, []⟩) f.remotePath)
        call .rollback (.updateFileChange changesetId f.fileChangeId
          { rollbackResult := some .restored, applied := some false }))
    match restored with
    | .ok () => pure ()
    | .error e => raise (changeRollbackError ("rollback of " ++ f.remotePath.str ++ " failed: " ++ e.message))
  else pure ()

/-- `rollback` -/
def rollback (m : Manager) (changesetId : String) (approvalId : Option String) : M Unit Unit := do
  match ← call .rollback (.getChangeset changesetId) with
  | none => raise (changeRollbackError ("changeset '" ++ changesetId ++ "' not found"))
  | some cs =>
    if cs.status ≠ .applied ∧ cs.status ≠ .validated then
      raise (changeRollbackError ("cannot roll back changeset in status " ++ cs.status.value))
    else if interruptsService m cs ∧ approvalId = none then
      raise (changeRollbackError
        "an approval is required to roll back a service-interrupting changeset")
    else do
      resolveTransportFor m .rollback cs.projectId cs.targetId
      match approvalId with
      | some approvalId =>
        if m.approvals then call .rollback (.consume approvalId (rollbackIntent cs)) else pure ()
      | none => pure ()
      cs.files.reverse.forM (rollbackFile changesetId)
      transition m .rollback changesetId .rolledBack

end IncidentLens.Changes
