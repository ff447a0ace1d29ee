import IncidentLens.Targets.Store

/-!
# The target service

Targets of the registry are bound the first time they are listed or asked for. The id of such a binding is the
id in the registry if no other target has it at that moment, and a hash otherwise.
-/
namespace IncidentLens.Targets
open Data RemoteOps Evidence

def facadeProjectPrefix : String := "prd_"

/-- `project_id.startswith(_FACADE_PROJECT_PREFIX)` -/
def facadeOwned (projectId : String) : Bool := facadeProjectPrefix.toList.isPrefixOf projectId.toList

def internalTargetId : String := "default"

structure TargetCreate where
  name : String
  host : String
  sshUser : String
  sshPort : ℕ := 22
  authenticationRef : String
  hostKeyPolicy : HostKeyPolicy := .strict
  pinnedHostKeySha256 : Option String := none
  optionalSourcePath : Option String := none

structure TargetView where
  targetId : String
  name : String
  host : String
  sshUser : String
  sshPort : ℕ
  authenticationConfigured : Bool
  authenticationHint : String
  hostKeyPolicy : HostKeyPolicy
  pinnedHostKeySha256 : Option String
  optionalSourcePath : Option String
  version : ℕ
  createdAt : String
  updatedAt : String
  deriving DecidableEq

/-- The two stores, and every id that a binding was created with. -/
structure Facade where
  projects : Projects := .empty
  store : TargetStore := .empty
  handedOut : List (String × RegistryTarget) := []

/-- `target_store.create` -/
def Facade.bind (s : Facade) (binding : TargetBinding) : Except TargetError Facade :=
  match s.store.create binding with
  | .ok store => .ok { s with store := store, handedOut := s.handedOut ++ [(binding.targetId, binding.target)] }
  | .error e => .error e

def authenticationHint (authenticationRef : String) : String :=
  if authenticationRef = "" then ""
  else if ':' ∈ authenticationRef.toList then String.ofList (authenticationRef.toList.takeWhile (· ≠ ':'))
  else String.ofList (authenticationRef.toList.take 16)

/-- `none` where it raises `TargetNotFound`. -/
def Facade.toView (s : Facade) (binding : TargetBinding) : Option TargetView := do
  let project ← s.projects.get binding.target.projectId
  let target ← project.targets.find? fun target => target.targetId = binding.target.registryTargetId
  some {
    targetId := binding.targetId
    name := binding.name
    host := target.host
    sshUser := target.sshUser
    sshPort := target.port.getD 22
    authenticationConfigured := binding.authenticationRef ≠ ""
    authenticationHint := authenticationHint binding.authenticationRef
    hostKeyPolicy := binding.hostKeyPolicy
    pinnedHostKeySha256 := binding.pinnedHostKeySha256
    optionalSourcePath := project.localSourcePaths.head?
    version := binding.version
    createdAt := binding.createdAt
    updatedAt := binding.updatedAt }

/-- `counts[registry_target_id] == 1` -/
def globallyUnique (all : List (RegistryTarget × String)) (registryTargetId : String) : Bool :=
  (all.map fun item => item.1.registryTargetId).count registryTargetId = 1

section
variable (sha256 : Sha256)

/-- The id of a target whose id in the registry is not unique. -/
def hashedId (target : RegistryTarget) : String :=
  "tgt_" ++ sha256.short (target.projectId ++ "\x00" ++ target.registryTargetId)

def deriveFacadeId (target : RegistryTarget) (unique : Bool) : String :=
  if unique then target.registryTargetId else hashedId sha256 target

def buildExistingBinding (all : List (RegistryTarget × String)) (item : RegistryTarget × String) (now : String) :
    TargetBinding where
  targetId := deriveFacadeId sha256 item.1 (globallyUnique all item.1.registryTargetId)
  target := item.1
  name := item.2
  authenticationRef := ""
  hostKeyPolicy := .strict
  pinnedHostKeySha256 := none
  createdAt := now
  updatedAt := now

/-- The loop of `list_targets`: what is bound before it raises stays. -/
def bindExisting (all : List (RegistryTarget × String)) (now : String) :
    List (RegistryTarget × String) → List RegistryTarget → Facade → Except TargetError Unit × Facade
  | [], _, s => (.ok (), s)
  | item :: rest, bound, s =>
    if item.1 ∈ bound then bindExisting all now rest bound s
    else match s.bind (buildExistingBinding sha256 all item now) with
      | .error e => (.error e, s)
      | .ok s => bindExisting all now rest (bound ++ [item.1]) s

namespace Facade
variable (s : Facade)

def listTargets (now : String) : Except TargetError (List TargetView) × Facade :=
  let all := s.projects.listRegistryTargets
  match bindExisting sha256 all now all (s.store.list.map TargetBinding.target) s with
  | (.error e, s) => (.error e, s)
  | (.ok (), s) => (.ok (s.store.list.filterMap s.toView), s)

def bindingForAccess (targetId : String) (now : String) : Except TargetError TargetBinding × Facade :=
  match s.store.get targetId with
  | some binding => (.ok binding, s)
  | none =>
    let all := s.projects.listRegistryTargets
    match all.find? fun item =>
      deriveFacadeId sha256 item.1 (globallyUnique all item.1.registryTargetId) = targetId with
    | none => (.error .notFound, s)
    | some item =>
      let binding := buildExistingBinding sha256 all item now
      match s.bind binding with
      | .error e => (.error e, s)
      | .ok s => (.ok binding, s)

def getTarget (targetId : String) (now : String) : Except TargetError TargetView × Facade :=
  match s.bindingForAccess sha256 targetId now with
  | (.error e, s) => (.error e, s)
  | (.ok binding, s) => match s.toView binding with
    | none => (.error .notFound, s)
    | some view => (.ok view, s)

/-- The registration of the project behind a new target. -/
def internalProject (create : TargetCreate) (projectHex : String) : Registration where
  projectId := facadeProjectPrefix ++ projectHex
  displayName := create.name
  localSourcePaths := create.optionalSourcePath.toList
  targets := [{ targetId := internalTargetId, host := create.host, sshUser := create.sshUser, port := some create.sshPort }]
  services := []
  uniqueTargets := List.nodup_singleton _
  uniqueServices := List.nodup_nil

def createdBinding (create : TargetCreate) (projectHex targetHex : String) (now : String) : TargetBinding where
  targetId := "tgt_" ++ targetHex
  target := ⟨facadeProjectPrefix ++ projectHex, internalTargetId⟩
  name := create.name
  authenticationRef := create.authenticationRef
  hostKeyPolicy := create.hostKeyPolicy
  pinnedHostKeySha256 := create.pinnedHostKeySha256
  createdAt := now
  updatedAt := now

/-- The digits are those of two random identifiers. -/
def createTarget (create : TargetCreate) (projectHex targetHex : String) (now : String) :
    Except TargetError TargetView × Facade :=
  match s.projects.create (internalProject create projectHex) now with
  | .error e => (.error (.registry e), s)
  | .ok projects =>
    let s := { s with projects := projects }
    let binding := createdBinding create projectHex targetHex now
    match s.bind binding with
    | .error e => (.error e, s)
    | .ok s => match s.toView binding with
      | none => (.error .notFound, s)
      | some view => (.ok view, s)

/-- What others write to the registry in the middle of a call. -/
def meanwhile (changes : List RegistryChange) : Facade := { s with projects := changes.foldl Projects.change s.projects }

/-- The removal of a target from the registry; others may write before it is read and before it is written. -/
def removeRegistered (binding : TargetBinding) (now : String) (before between : List RegistryChange) :
    Except TargetError Unit × Facade :=
  let s := s.meanwhile before
  if facadeOwned binding.target.projectId then
    match s.projects.delete binding.target.projectId with
    | .ok projects => (.ok (), { s with projects := projects })
    -- the internal project was already gone
    | .error _ => (.ok (), s)
  else match s.projects.get binding.target.projectId with
    | none => (.error .notFound, s)
    | some record =>
      let registration : Registration := { record.toRegistration with
        targets := record.targets.filter fun target => target.targetId ≠ binding.target.registryTargetId
        uniqueTargets := record.uniqueTargets.sublist (List.filter_sublist.map _) }
      let s := s.meanwhile between
      match s.projects.replace registration now (some record.updatedAt) with
      | .ok projects => (.ok (), { s with projects := projects })
      | .error .registryUpdateConflict => (.error .versionConflict, s)
      | .error .projectNotFound => (.error .notFound, s)
      | .error e => (.error (.registry e), s)

/-- `active` are the targets of investigations that are not over. -/
def deleteTarget (targetId : String) (active : List RegistryTarget) (now : String) (before between : List RegistryChange) :
    Except TargetError Unit × Facade :=
  match s.bindingForAccess sha256 targetId now with
  | (.error e, s) => (.error e, s)
  | (.ok binding, s) =>
    if binding.target ∈ active then (.error .deleteBlocked, s)
    else { s with store := s.store.delete targetId }.removeRegistered binding now before between

end Facade

inductive FacadeMove
  | change (change : RegistryChange)
  | listTargets (now : String)
  | getTarget (targetId : String) (now : String)
  | createTarget (create : TargetCreate) (projectHex targetHex : String) (now : String)
  | deleteTarget (targetId : String) (active : List RegistryTarget) (now : String) (before between : List RegistryChange)

def Facade.step (s : Facade) : FacadeMove → Facade
  | .change change => { s with projects := s.projects.change change }
  | .listTargets now => (s.listTargets sha256 now).2
  | .getTarget targetId now => (s.getTarget sha256 targetId now).2
  | .createTarget create projectHex targetHex now => (s.createTarget create projectHex targetHex now).2
  | .deleteTarget targetId active now before between => (s.deleteTarget sha256 targetId active now before between).2

end
end IncidentLens.Targets
