import IncidentLens.Evidence.Store
import IncidentLens.RemoteOps.Registry

/-!
# Stores of the target facade

The registry holds projects and their targets; the store of the facade holds a binding for a target at most
once, under an id no other binding has.
-/
namespace IncidentLens.Targets
open Data RemoteOps Evidence List

/-- A registration with what the facade shows of the project. -/
structure Registration extends ProjectRegistration where
  displayName : String
  localSourcePaths : List String

structure Project extends Registration where
  createdAt : String
  updatedAt : String

/-- `(project_id, registry_target_id)` -/
@[ext] structure RegistryTarget where
  projectId : String
  registryTargetId : String
  deriving DecidableEq

/-! ### The registry -/

structure Projects where
  rows : List Project
  unique : (rows.map fun project => project.projectId).Nodup

namespace Projects
variable (projects : Projects)

def empty : Projects := ⟨[], nodup_nil⟩

instance : Inhabited Projects := ⟨empty⟩

def get (projectId : String) : Option Project := projects.rows.find? fun project => project.projectId = projectId

/-- `ORDER BY project_id` -/
def list : List Project := projects.rows.insertionSort fun project project' => project.projectId ≤ project'.projectId

/-- Every registered target, with the name of its project. -/
def listRegistryTargets : List (RegistryTarget × String) :=
  projects.list.flatMap fun project => project.targets.map fun target =>
    (⟨project.projectId, target.targetId⟩, project.displayName)

def create (registration : Registration) (now : String) : Except RegistryError Projects :=
  if h : ∃ project ∈ projects.rows, project.projectId = registration.projectId then .error .projectAlreadyExists
  else .ok ⟨projects.rows ++ [⟨registration, now, now⟩], by
    rw [map_append, map_singleton, ← concat_eq_append]
    refine (nodup_concat _ _).mpr ⟨fun hmem => ?_, projects.unique⟩
    obtain ⟨project, hproject, hsame⟩ := mem_map.mp hmem
    exact h ⟨project, hproject, hsame⟩⟩

/-- A write of the row of a project. -/
def write (project : Project) : Projects :=
  ⟨replaceRow (fun project : Project => project.projectId) projects.rows project, by
    rw [map_replaceRow]
    exact projects.unique⟩

def replace (registration : Registration) (now : String) (expectedUpdatedAt : Option String) :
    Except RegistryError Projects :=
  match projects.get registration.projectId with
  | none => .error .projectNotFound
  | some old =>
    if expectedUpdatedAt.all (· = old.updatedAt) then .ok (projects.write ⟨registration, old.createdAt, now⟩)
    else .error .registryUpdateConflict

def remove (projectId : String) : Projects :=
  ⟨projects.rows.filter fun project => project.projectId ≠ projectId, projects.unique.sublist (filter_sublist.map _)⟩

def delete (projectId : String) : Except RegistryError Projects :=
  match projects.get projectId with
  | none => .error .projectNotFound
  | some _ => .ok (projects.remove projectId)

end Projects

/-- A write to the registry that does not go through the facade. -/
inductive RegistryChange
  | create (registration : Registration) (now : String)
  | replace (registration : Registration) (now : String) (expectedUpdatedAt : Option String)
  | delete (projectId : String)

def Projects.change (projects : Projects) (change : RegistryChange) : Projects :=
  let written : Except RegistryError Projects := match change with
    | .create registration now => projects.create registration now
    | .replace registration now expectedUpdatedAt => projects.replace registration now expectedUpdatedAt
    | .delete projectId => projects.delete projectId
  match written with
  | .ok projects => projects
  | .error _ => projects

/-! ### Bindings -/

inductive HostKeyPolicy
  | strict | pinned
  deriving DecidableEq

structure TargetBinding where
  targetId : String
  target : RegistryTarget
  name : String
  authenticationRef : String
  hostKeyPolicy : HostKeyPolicy
  pinnedHostKeySha256 : Option String
  version : ℕ := 1
  createdAt : String
  updatedAt : String
  deriving DecidableEq

inductive TargetError
  | alreadyExists | notFound | versionConflict | deleteBlocked
  | registry (error : RegistryError)
  deriving DecidableEq

/-- `target_facade_bindings`, with its primary key and its unique pair. -/
structure TargetStore where
  rows : List TargetBinding
  ids : (rows.map TargetBinding.targetId).Nodup
  targets : (rows.map TargetBinding.target).Nodup

namespace TargetStore
variable (store : TargetStore)

def empty : TargetStore := ⟨[], nodup_nil, nodup_nil⟩

def get (targetId : String) : Option TargetBinding := store.rows.find? fun binding => binding.targetId = targetId

/-- `ORDER BY target_id` -/
def list : List TargetBinding := store.rows.insertionSort fun binding binding' => binding.targetId ≤ binding'.targetId

def create (binding : TargetBinding) : Except TargetError TargetStore :=
  if h : ∃ row ∈ store.rows, row.targetId = binding.targetId ∨ row.target = binding.target then .error .alreadyExists
  else .ok ⟨store.rows ++ [binding],
    by
      rw [map_append, map_singleton, ← concat_eq_append]
      refine (nodup_concat _ _).mpr ⟨fun hmem => ?_, store.ids⟩
      obtain ⟨row, hrow, hsame⟩ := mem_map.mp hmem
      exact h ⟨row, hrow, .inl hsame⟩,
    by
      rw [map_append, map_singleton, ← concat_eq_append]
      refine (nodup_concat _ _).mpr ⟨fun hmem => ?_, store.targets⟩
      obtain ⟨row, hrow, hsame⟩ := mem_map.mp hmem
      exact h ⟨row, hrow, .inr hsame⟩⟩

/-- `DELETE … WHERE target_id = ?` -/
def delete (targetId : String) : TargetStore :=
  ⟨store.rows.filter fun binding => binding.targetId ≠ targetId,
    store.ids.sublist (filter_sublist.map _), store.targets.sublist (filter_sublist.map _)⟩

end TargetStore
end IncidentLens.Targets
