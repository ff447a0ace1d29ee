import IncidentLens.Data.Table
import Mathlib.Data.List.Basic

/-!
# The project registry

A project registers its targets and services; the identifier of a target is unique within
its project only.
-/
namespace IncidentLens.RemoteOps
open Data

/-- The part of a `TargetRegistration` that a connection is made from. -/
structure TargetRegistration where
  targetId : String
  host : String
  sshUser : String
  sshConfigAlias : Option String := none
  port : Option ℕ := none
  deriving DecidableEq

structure ProjectRegistration where
  projectId : String
  targets : List TargetRegistration
  /-- The `compose_service` of each service. -/
  services : List String
  /-- `associations_must_be_unique` -/
  uniqueTargets : (targets.map TargetRegistration.targetId).Nodup
  uniqueServices : services.Nodup

/-- Instants are kept as their ISO texts. -/
structure ProjectRecord extends ProjectRegistration where
  createdAt : String
  updatedAt : String

abbrev Registry := Table fun record : ProjectRecord => record.projectId

inductive RegistryError
  | projectAlreadyExists | projectNotFound | registryUpdateConflict
  deriving DecidableEq

namespace Registry

def create (registry : Registry) (registration : ProjectRegistration) (now : String) :
    Except RegistryError Registry :=
  match registry.get registration.projectId with
  | some _ => .error .projectAlreadyExists
  | none => .ok (registry.put ⟨registration, now, now⟩)

/-- The update is conditional on `updated_at` when the caller says what it has read. -/
def replace (registry : Registry) (registration : ProjectRegistration) (now : String)
    (expectedUpdatedAt : Option String) : Except RegistryError Registry :=
  match registry.get registration.projectId with
  | none => .error .projectNotFound
  | some old =>
    if expectedUpdatedAt.all (· = old.updatedAt) then .ok (registry.put ⟨registration, old.createdAt, now⟩)
    else .error .registryUpdateConflict

def delete (registry : Registry) (projectId : String) : Except RegistryError Registry :=
  match registry.get projectId with
  | none => .error .projectNotFound
  | some _ => .ok (registry.remove projectId)

/-- The registration that is stored for a project and a target. -/
def target (registry : Registry) (projectId targetId : String) : Option TargetRegistration :=
  (registry.get projectId).bind fun record => record.targets.find? (·.targetId = targetId)

end Registry

/-- `_resolve_project_service` -/
def resolveProjectService (registry : Registry) (projectId targetId service : String) : Option TargetRegistration :=
  match registry.get projectId with
  | none => none
  | some record => match record.targets.find? (·.targetId = targetId) with
    | none => none
    | some target =>
      if service ∈ record.services ∨ record.services = [] ∧ service = "host" then some target else none

end IncidentLens.RemoteOps
