import IncidentLens.Effects.Routine
import IncidentLens.Logs.Redaction
import IncidentLens.RemoteOps.Actions

/-!
# Source discovery

What a run finds out about a registered service: containers that are running, the compose
configuration, the mounts of its containers and the files below its roots. Every remote operation
is a call that may be answered in any way; what the answers expose without being registered
becomes a candidate.
-/
namespace IncidentLens.Investigations.Discovery
open Data Effects Logs RemoteOps
open Effects.Routine

/-- A `PurePosixPath`, absolute or not. -/
structure RemotePath where
  root : Option PathRoot
  parts : List String
  deriving DecidableEq

namespace RemotePath

def str (p : RemotePath) : String :=
  (match p.root with
    | some .single => "/"
    | some .double => "//"
    | none => "") ++ "/".intercalate p.parts

def isRelativeTo (p : RemotePath) (root : SimplePath) : Bool := p.root = some root.root && root.parts.isPrefixOf p.parts

def parent (p : RemotePath) : RemotePath := { p with parts := p.parts.dropLast }

end RemotePath

def purePosixPath (value : String) : RemotePath where
  root := match value.toList with
    | '/' :: '/' :: '/' :: _ => some .single
    | '/' :: '/' :: _ => some .double
    | '/' :: _ => some .single
    | _ => none
  parts := ((value.toList.splitOn '/').map String.ofList).filter fun part => part ≠ "" ∧ part ≠ "."

def remotePath (p : SimplePath) : RemotePath := ⟨some p.root, p.parts⟩

inductive Exc
  | discovery (message : String)
  | value (message : String)
  | projectNotFound
  | remotePathDenied (message : String)
  | remoteFile (message : String)
  | remotePath | remoteTimeout | os
  | other (name : String)

structure SourceService extends ServiceRegistration where
  containerPathHints : List String := []
  allowedHostPaths : List SimplePath := []

structure SourceProject where
  targets : List ComposeTarget
  services : List SourceService

abbrev Registry := String → Option SourceProject

structure FileMetadata where
  path : RemotePath
  size : ℕ
  mode : ℕ
  isSymlink : Bool

/-- `stdout` is the decoded text. -/
structure CommandResult where
  exitStatus : ℤ
  stdout : String

inductive DockerRead
  | ps
  | composeConfig (target : ComposeTarget) (directory : SimplePath)
  | inspect (container : String)

/-- The calls of a discovery: on the session of a target, and the recording of evidence under a
`source_ref`. The listing of a container is `docker exec … find`, answered by its entries. -/
inductive Op
  | connect (targetId : String)
  | docker (read : DockerRead)
  | find (container : String) (path : RemotePath)
  | realpath (path : RemotePath)
  | lstat (path : RemotePath)
  | listDirectory (path : RemotePath)
  | readBytes (path : RemotePath) (maxBytes : ℕ)
  | record (sourceRef : String)

abbrev Op.Value : Op → Type
  | connect _ => Unit
  | docker _ => CommandResult
  | find _ _ => List FileMetadata
  | realpath _ => RemotePath
  | lstat _ => FileMetadata
  | listDirectory _ => List FileMetadata
  | readBytes _ _ => Bytes
  | record _ => String

inductive DiscoveryCandidate
  | container (name serviceName evidenceId : String)
  | hostPath (path : SimplePath) (serviceName evidenceId : String)

/-- The evidence ids and the candidates so far. -/
structure Found where
  evidence : List String := []
  candidates : List DiscoveryCandidate := []

abbrev Disc := Routine Op Op.Value Exc Found

def call (op : Op) : Disc (Op.Value op) := invoke op

section Registry
variable (registry : Registry)

def resolveTarget (projectId targetId : String) : Except Exc ComposeTarget :=
  match registry projectId with
  | none => .error .projectNotFound
  | some project => match project.targets.find? fun t => t.targetId = targetId with
    | some target => .ok target
    | none => .error (.value ("target '" ++ targetId ++ "' is not registered for project '" ++ projectId ++ "'"))

/-- `resolve_service` of the gateway. -/
def resolveService (projectId targetId service : String) : Except Exc SourceService := do
  let _ ← resolveTarget registry projectId targetId
  match registry projectId with
  | none => .error .projectNotFound
  | some project => match project.services.find? fun svc => svc.composeService = service with
    | some svc => .ok svc
    | none =>
      if project.services = [] ∧ service = "host" then .ok { composeService := "host" }
      else .error (.value ("service '" ++ service ++ "' not found in project '" ++ projectId ++ "'"))

/-- `_resolve_project_service` of the gateway. -/
def resolveProjectService (projectId targetId service : String) : Except Exc (ComposeTarget × SourceService) := do
  let target ← resolveTarget registry projectId targetId
  let svc ← resolveService registry projectId targetId service
  return (target, svc)

end Registry

/-- A `ValueError` of the registry is reported to the model. -/
def reported {α : Type} : Except Exc α → Except Exc α
  | .error (.value message) => .error (.discovery message)
  | x => x

section Checks
variable (run : AgentScope)

def validateContainer (svc : SourceService) (container : String) : Except Exc String :=
  if !svc.containerNames.contains container then
    .error (.discovery ("container '" ++ container ++ "' is not registered for service '" ++ svc.composeService ++ "'"))
  else if run.scope = .container &&
      (some container ≠ run.containerName || some svc.composeService ≠ run.serviceName) then
    .error (.discovery "container-scope run may only discover its own container")
  else .ok container

def assertRunScope (scope : LogScope) : Except Exc Unit :=
  if run.scope = .container && scope = .host then
    .error (.discovery "container-scope run may only discover inside its own container")
  else .ok ()

/-- `_parse_path` -/
def parsePath (value : String) : Except Exc SimplePath :=
  let path := purePosixPath value
  match path.root with
  | none => .error (.discovery ("path must be absolute: " ++ value))
  | some root =>
    if h : ".." ∈ path.parts then .error (.discovery ("path must not contain '..': " ++ value))
    else .ok ⟨root, path.parts, h⟩

def allowedPaths : LogScope → List SimplePath
  | .host => run.allowedHostPaths
  | .container => run.allowedContainerPaths

/-- `_path_allowed` -/
def pathAllowed (path : RemotePath) (scope : LogScope) : Bool :=
  allowedPaths run scope = [] || (allowedPaths run scope).any path.isRelativeTo

def validatePathInScope (path : SimplePath) (scope : LogScope) : Except Exc SimplePath :=
  if pathAllowed run (remotePath path) scope then .ok path
  else .error (.discovery ("path " ++ path.str ++ " is outside the run's allowed " ++ scope.value ++ " paths"))

end Checks

/-! ### The gateway -/

def pathsRepr (paths : List SimplePath) : String :=
  match paths.map fun p => "PurePosixPath('" ++ p.str ++ "')" with
  | [text] => "(" ++ text ++ ",)"
  | texts => "(" ++ ", ".intercalate texts ++ ")"

/-- The lexical checks of `RemotePathPolicy.authorize`: the root that the path is in. -/
def authorizeLexically (unknownContainer : Option String) (roots : List SimplePath) (path : RemotePath) :
    Except Exc SimplePath :=
  if path.root = none then .error (.remotePathDenied ("path is not absolute: " ++ path.str))
  else if ".." ∈ path.parts then .error (.remotePathDenied ("path contains '..': " ++ path.str))
  else match unknownContainer with
    | some container => .error (.remotePathDenied ("unknown container: " ++ container))
    | none => match roots.find? path.isRelativeTo with
      | some root => .ok root
      | none => .error (.remotePathDenied ("path " ++ path.str ++ " is outside allowed roots " ++ pathsRepr roots))

/-- `authorize` in the host scope, over the session. -/
def authorizeHost (svc : SourceService) (path : RemotePath) : Disc RemotePath := do
  let root ← ofExcept (authorizeLexically none svc.allowedHostPaths path)
  let canonical : RemotePath ← call (.realpath path)
  if canonical.isRelativeTo root then do
    let metadata : FileMetadata ← call (.lstat canonical)
    if metadata.isSymlink then throw (.remotePathDenied ("symlink detected at " ++ canonical.str))
    else pure canonical
  else
    throw (.remotePathDenied ("resolved path " ++ canonical.str ++ " escapes allowed root " ++ root.str))

/-- `authorize` in a container scope: the lexical checks only. -/
def authorizeContainer (svc : SourceService) (container : String) (path : RemotePath) : Except Exc RemotePath := do
  let unknown := if svc.containerNames.contains container then none else some container
  let _ ← authorizeLexically unknown svc.allowedContainerPaths path
  return path

def maxReadBytes : ℕ := 1048576

section Gateway
variable (registry : Registry) (run : AgentScope)

/-- `read` of a host file: the path that was read. -/
def gatewayRead (service : String) (path : RemotePath) (limit : ℕ) : Disc RemotePath := do
  let (target, svc) ← ofExcept (resolveProjectService registry run.projectId run.targetId service)
  call (.connect target.targetId)
  let canonical ← authorizeHost svc path
  let content : Bytes ← call (.readBytes canonical limit)
  if maxReadBytes < content.length then
    throw (.remoteFile ("response size " ++ toString content.length ++ " exceeds 1 MiB limit"))
  else do
    let _ : FileMetadata ← call (.lstat canonical)
    pure canonical

/-- `list_dir` of a host directory. -/
def gatewayListDir (service : String) (path : RemotePath) : Disc (List FileMetadata) := do
  let (target, svc) ← ofExcept (resolveProjectService registry run.projectId run.targetId service)
  call (.connect target.targetId)
  let canonical ← authorizeHost svc path
  call (.listDirectory canonical)

/-- `list_dir` of a directory in a container. -/
def gatewayListContainer (service container : String) (path : RemotePath) : Disc (List FileMetadata) := do
  let (target, svc) ← ofExcept (resolveProjectService registry run.projectId run.targetId service)
  let canonical ← ofExcept (authorizeContainer svc container path)
  call (.connect target.targetId)
  call (.find container canonical)

end Gateway

/-! ### The service -/

def recordEvidence (sourceRef : String) : Disc String := do
  let evidenceId : String ← call (.record sourceRef)
  modify fun found => { found with evidence := found.evidence ++ [evidenceId] }
  pure evidenceId

def addCandidate (candidate : DiscoveryCandidate) : Disc Unit :=
  modify fun found => { found with candidates := found.candidates ++ [candidate] }

/-- The exceptions after which a Docker read only counts as failed. -/
def Exc.isTransport : Exc → Bool
  | remoteTimeout => true
  | remotePath => true
  | os => true
  | _ => false

/-- The line breaks of `str.splitlines`; `\r\n` leaves an empty line, which has no name. -/
def isLineBreak (c : Char) : Bool :=
  (10 ≤ c.toNat && c.toNat ≤ 13) || (28 ≤ c.toNat && c.toNat ≤ 30) || c.toNat = 0x85 || c.toNat = 0x2028 ||
    c.toNat = 0x2029

def strip (s : List Char) : List Char := ((s.dropWhile isWhitespace).reverse.dropWhile isWhitespace).reverse

/-- The names that `docker ps` lists. -/
def runningNames (psOutput : String) : List String :=
  ((psOutput.toList.splitOnP isLineBreak).map fun line => String.ofList (strip line)).filter fun name => name ≠ ""

/-- `data.get(key)` of a parsed object: the last member of the name. -/
def member (key : String) : Json → Option Json
  | .object members => (members.reverse.find? fun m => m.1 = key).map Prod.snd
  | _ => none

/-- The mounts of an inspected container; what is not a list has none that are objects. -/
def inspectedMounts (parsed : Option Json) : List Json :=
  let data := match parsed with
    | some (.array (first :: _)) => some first
    | other => other
  match data.bind (member "Mounts") with
  | some (.array mounts) => mounts
  | _ => []

/-- `mount.get("Source")` where it is a path of the host. -/
def mountSource (mount : Json) : Option String :=
  match member "Source" mount with
  | some (.string source) => if "/".toList.isPrefixOf source.toList then some source else none
  | _ => none

/-- `mode & 0o170000` -/
def isRegular (mode : ℕ) : Bool :=
  let kind := mode &&& 0o170000
  kind = 0 || kind = 0o100000

def maxRegisteredContainers : ℕ := 8
def maxHostPaths : ℕ := 8
def maxListingEntries : ℕ := 100
def maxSourceFiles : ℕ := 8
def maxSourceFileBytes : ℕ := 64 * 1024

section Service
variable (registry : Registry) (jsonLoads : String → Option Json) (run : AgentScope) (svc : SourceService)

/-- `_run_docker_read` -/
def runDockerRead (read : DockerRead) (sourceRef : String) : Disc (Option String) := do
  let target ← ofExcept (reported (resolveTarget registry run.projectId run.targetId))
  let answer ← attempt (do
    call (.connect target.targetId)
    call (.docker read) : Disc CommandResult)
  match answer with
  | .error e =>
    if e.isTransport then do
      let _ ← recordEvidence sourceRef
      pure none
    else throw e
  | .ok result => do
    let _ ← recordEvidence sourceRef
    pure (if result.exitStatus = 0 then some result.stdout else none)

/-- `_collect_container_candidates` -/
def collectContainerCandidates (psOutput : String) : Disc Unit :=
  (runningNames psOutput).forM fun name =>
    if svc.containerNames.contains name then pure ()
    else do
      let evidenceId ← recordEvidence ("docker:ps:" ++ name)
      addCandidate (.container name svc.composeService evidenceId)

/-- `_discover_compose_config` -/
def discoverComposeConfig : Disc Unit := do
  let target ← ofExcept (reported (resolveTarget registry run.projectId run.targetId))
  match target.composeWorkingDirectory with
  | none => pure ()
  | some directory => do
    let config ← runDockerRead registry run (.composeConfig target directory) "docker:compose-config"
    match config with
    | none => pure ()
    | some _ => do
      let _ ← recordEvidence "docker:compose-config"
      pure ()

/-- `_discover_container_paths` -/
def discoverContainerPaths (container : String) : Disc Unit := do
  let container ← ofExcept (validateContainer run svc container)
  (svc.containerPathHints.take maxHostPaths).forM fun hint => do
    let path ← ofExcept (parsePath hint)
    if pathAllowed run (remotePath path) .container then do
      let listed ← attempt (gatewayListContainer registry run svc.composeService container (remotePath path))
      match listed with
      | .error .remotePath => pure ()
      | .error e => throw e
      | .ok _ => do
        let _ ← recordEvidence ("container:" ++ container ++ ":" ++ path.str)
        pure ()
    else pure ()

/-- `_collect_mount_candidates` -/
def collectMountCandidates (container : String) (mounts : List Json) : Disc Unit :=
  mounts.forM fun mount => match mountSource mount with
    | none => pure ()
    | some source => do
      let path ← ofExcept (parsePath source)
      if pathAllowed run (remotePath path) .host then pure ()
      else do
        let evidenceId ← recordEvidence ("container:" ++ container ++ ":mount:" ++ path.str)
        addCandidate (.hostPath path svc.composeService evidenceId)

/-- `_discover_container` -/
def discoverContainer (container : String) : Disc Unit := do
  let _ ← ofExcept (validateContainer run svc container)
  let output ← runDockerRead registry run (.inspect container) ("docker:inspect:" ++ container)
  let _ ← recordEvidence ("container:" ++ container)
  collectMountCandidates run svc container (inspectedMounts (output.bind jsonLoads))
  discoverContainerPaths registry run svc container

/-- The loop of `_collect_source_hashes`: how many files were read and hashed. -/
def hashEntries (reads : ℕ) : List FileMetadata → Disc ℕ
  | [] => pure reads
  | entry :: entries =>
    if entry.isSymlink || !isRegular entry.mode then hashEntries reads entries
    else if pathAllowed run entry.path .host then
      if maxSourceFiles ≤ reads then pure reads
      else do
        let path ← gatewayRead registry run svc.composeService entry.path (min entry.size maxSourceFileBytes)
        let _ ← recordEvidence path.str
        hashEntries (reads + 1) entries
    else hashEntries reads entries

/-- `_collect_source_hashes` -/
def collectSourceHashes (entries : List FileMetadata) : Disc Unit := do
  let reads ← hashEntries registry run svc 0 entries
  if reads = 0 then pure ()
  else do
    let _ ← recordEvidence (match entries with
      | entry :: _ => entry.path.parent.str
      | [] => "source")
    pure ()

/-- `_discover_host_path` -/
def discoverHostPath (path : SimplePath) : Disc Unit := do
  let path ← ofExcept (validatePathInScope run path .host)
  let listed ← attempt (gatewayListDir registry run svc.composeService (remotePath path))
  match listed with
  | .error .remotePath => pure ()
  | .error e => throw e
  | .ok entries => do
    let _ ← recordEvidence path.str
    collectSourceHashes registry run svc (entries.take maxListingEntries)

/-- `_discover_service` -/
def discoverService : Disc Unit :=
  match run.scope with
  | .container => do
    let container ← ofExcept (validateContainer run svc (run.containerName.getD ""))
    discoverContainerPaths registry run svc container
  | .host => do
    let psOutput ← runDockerRead registry run .ps "docker:ps"
    match psOutput with
    | none => pure ()
    | some output => collectContainerCandidates svc output
    discoverComposeConfig registry run
    (svc.containerNames.take maxRegisteredContainers).forM fun name =>
      discoverContainer registry jsonLoads run svc name
    (svc.allowedHostPaths.take maxHostPaths).forM fun path =>
      if pathAllowed run (remotePath path) .host then discoverHostPath registry run svc path else pure ()

end Service

structure Request where
  serviceName : String
  container : Option String := none
  path : Option String := none

/-- `discover`; the outcome is what was found when it returns. -/
def discover (registry : Registry) (jsonLoads : String → Option Json) (run : AgentScope) (request : Request) :
    Disc Unit := do
  let svc ← ofExcept (reported (resolveService registry run.projectId run.targetId request.serviceName))
  match request.container with
  | some container => do
    let container ← ofExcept (validateContainer run svc container)
    match run.scope with
    | .container => discoverContainerPaths registry run svc container
    | .host => discoverContainer registry jsonLoads run svc container
  | none => match request.path with
    | some path => do
      ofExcept (assertRunScope run .host)
      let parsed ← ofExcept (parsePath path)
      let _ ← ofExcept (validatePathInScope run parsed .host)
      discoverHostPath registry run svc parsed
    | none => discoverService registry jsonLoads run svc

end IncidentLens.Investigations.Discovery
