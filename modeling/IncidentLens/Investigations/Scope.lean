import Mathlib.Data.Set.Basic
import IncidentLens.Data.Results
import IncidentLens.Logs.Store

/-!
# Scopes

The scope of a run names a project, a target and either the host or one container, with the
paths it may touch there; no paths means any path. A host run may also work inside containers.
What a scope permits is what the checks of the tool executor let through.
-/
namespace IncidentLens.Investigations
open Logs

/-- POSIX keeps two leading slashes apart from one. -/
inductive PathRoot
  | single | double
  deriving DecidableEq

/-- An absolute `PurePosixPath` without `..`. -/
structure SimplePath where
  root : PathRoot
  parts : List String
  simple : ".." ∉ parts
  deriving DecidableEq

namespace SimplePath

def str (p : SimplePath) : String :=
  (match p.root with
    | .single => "/"
    | .double => "//") ++ "/".intercalate p.parts

def isRelativeTo (p root : SimplePath) : Bool := p.root = root.root && root.parts.isPrefixOf p.parts

/-- `/` or `//`. -/
def top (root : PathRoot) : SimplePath := ⟨root, [], List.not_mem_nil⟩

lemma isRelativeTo_iff {p q : SimplePath} : p.isRelativeTo q ↔ p.root = q.root ∧ q.parts <+: p.parts := by
  simp [isRelativeTo]

@[simp] lemma isRelativeTo_self (p : SimplePath) : p.isRelativeTo p := isRelativeTo_iff.mpr ⟨rfl, List.prefix_refl _⟩

lemma isRelativeTo_trans {p q r : SimplePath} (hpq : p.isRelativeTo q) (hqr : q.isRelativeTo r) : p.isRelativeTo r := by
  rw [isRelativeTo_iff] at *
  exact ⟨hpq.1.trans hqr.1, hqr.2.trans hpq.2⟩

lemma isRelativeTo_top (p : SimplePath) : p.isRelativeTo (top p.root) := isRelativeTo_iff.mpr ⟨rfl, List.nil_prefix⟩

lemma top_isRelativeTo {root : PathRoot} {p : SimplePath} (h : (top root).isRelativeTo p) : p = top root := by
  obtain ⟨hroot, hparts⟩ := isRelativeTo_iff.mp h
  cases p with
  | mk proot parts simple =>
    cases List.prefix_nil.mp hparts
    cases hroot
    rfl

end SimplePath

def allows (allowed : List SimplePath) (path : SimplePath) : Bool :=
  allowed = [] || allowed.any fun root => path.isRelativeTo root

/-- `_paths_subset`. -/
def pathsSubset (child parent : List SimplePath) : Bool :=
  if parent = [] then true
  else child ≠ [] && child.all fun childPath => parent.any fun parentRoot => childPath.isRelativeTo parentRoot

section Paths
variable {child parent : List SimplePath} {path : SimplePath}

lemma allows_iff : allows child path ↔ child = [] ∨ ∃ root ∈ child, path.isRelativeTo root := by simp [allows]

lemma pathsSubset_iff : pathsSubset child parent ↔
    parent = [] ∨ child ≠ [] ∧ ∀ c ∈ child, ∃ p ∈ parent, c.isRelativeTo p := by
  unfold pathsSubset
  split_ifs with h
  · simp [h]
  · simp [h]

lemma allows_subset_iff : (∀ path, allows child path → allows parent path) ↔
    parent = [] ∨ (child = [] → ∀ root, SimplePath.top root ∈ parent) ∧ ∀ c ∈ child, ∃ p ∈ parent, c.isRelativeTo p := by
  constructor
  · intro h
    refine or_iff_not_imp_left.mpr fun hparent => ⟨fun hchild root => ?_, fun c hc => ?_⟩
    · have hall := h (SimplePath.top root) (allows_iff.mpr (.inl hchild))
      obtain ⟨p, hp, hrel⟩ := (allows_iff.mp hall).resolve_left hparent
      rwa [SimplePath.top_isRelativeTo hrel] at hp
    · have hall := h c (allows_iff.mpr (.inr ⟨c, hc, c.isRelativeTo_self⟩))
      exact (allows_iff.mp hall).resolve_left hparent
  · intro h path hpath
    rw [allows_iff] at *
    refine h.imp_right fun hcover => ?_
    cases hpath with
    | inl hempty => exact ⟨_, hcover.1 hempty path.root, path.isRelativeTo_top⟩
    | inr hrel =>
      obtain ⟨c, hc, hpc⟩ := hrel
      obtain ⟨p, hp, hcp⟩ := hcover.2 c hc
      exact ⟨p, hp, SimplePath.isRelativeTo_trans hpc hcp⟩

lemma allows_of_pathsSubset (h : pathsSubset child parent) (hpath : allows child path) : allows parent path := by
  refine allows_subset_iff.mpr ?_ path hpath
  exact (pathsSubset_iff.mp h).imp_right fun hsub => ⟨fun hempty => absurd hempty hsub.1, hsub.2⟩

end Paths

/-- A container scope names its service and its container, a host scope neither. -/
structure AgentScope where
  projectId : String
  targetId : String
  scope : LogScope
  serviceName : Option String := none
  containerName : Option String := none
  allowedHostPaths : List SimplePath := []
  allowedContainerPaths : List SimplePath := []
  identity : if scope = .container then serviceName.isSome ∧ containerName.isSome
    else serviceName = none ∧ containerName = none := by decide
  deriving DecidableEq

lemma identity_host : if LogScope.host = .container then (none : Option String).isSome ∧ (none : Option String).isSome
    else (none : Option String) = none ∧ (none : Option String) = none := by
  decide

lemma identity_container (serviceName containerName : String) : if LogScope.container = .container then
    (some serviceName).isSome ∧ (some containerName).isSome else some serviceName = none ∧ some containerName = none := by
  rw [if_pos rfl]
  exact ⟨rfl, rfl⟩

structure ServiceRegistration where
  composeService : String
  containerNames : List String := []
  allowedContainerPaths : List SimplePath := []
  deriving DecidableEq

/-- `_validate_container`. -/
def validateContainer (scope : AgentScope) (svc : ServiceRegistration) (container : String) : Except String String :=
  if !svc.containerNames.contains container then
    .error ("container '" ++ container ++ "' is not registered for service '" ++ svc.composeService ++ "'")
  else if scope.scope = .container && (some container ≠ scope.containerName || some svc.composeService ≠ scope.serviceName) then
    .error "container-scope run may only operate on its own container"
  else .ok container

/-- `_assert_run_scope`. -/
def assertRunScope (run : AgentScope) (scope : LogScope) : Except String Unit :=
  if run.scope = .container && scope = .host then
    .error "container-scope run may only operate inside its own container"
  else .ok ⟨⟩

/-- `_validate_path_in_scope`. -/
def validatePathInScope (run : AgentScope) (path : SimplePath) (scope : LogScope) : Except String SimplePath :=
  let allowed := match scope with
    | .host => run.allowedHostPaths
    | .container => run.allowedContainerPaths
  if allows allowed path then .ok path
  else .error ("path " ++ path.str ++ " is outside the run's allowed " ++ scope.value ++ " paths")

/-- Where an operation takes place: a path of the host, or of a container of a registered
service. -/
inductive Place
  | host (path : SimplePath)
  | container (svc : ServiceRegistration) (name : String) (path : SimplePath)

structure RemoteOperation where
  projectId : String
  targetId : String
  place : Place

/-- The checks an operation passes before it is carried out. -/
def checkPlace (run : AgentScope) : Place → Except String SimplePath
  | .host path => do
    assertRunScope run .host
    validatePathInScope run path .host
  | .container svc name path => do
    assertRunScope run .container
    let path ← validatePathInScope run path .container
    let _ ← validateContainer run svc name
    return path

/-- The operations that a run with the scope can have carried out. -/
def AgentScope.reach (run : AgentScope) : Set RemoteOperation :=
  {op | op.projectId = run.projectId ∧ op.targetId = run.targetId ∧ ∃ path, checkPlace run op.place = .ok path}

section Reach
variable {run : AgentScope} {projectId targetId : String} {path : SimplePath}

lemma validatePathInScope_host : (∃ p, validatePathInScope run path .host = .ok p) ↔ allows run.allowedHostPaths path := by
  unfold validatePathInScope
  dsimp only
  split_ifs with h <;> simp [h]

lemma host_mem_reach : ⟨projectId, targetId, .host path⟩ ∈ run.reach ↔
    (projectId = run.projectId ∧ targetId = run.targetId) ∧ run.scope = .host ∧ allows run.allowedHostPaths path := by
  have hcheck : (∃ p, checkPlace run (.host path) = .ok p) ↔ run.scope = .host ∧ allows run.allowedHostPaths path := by
    rw [← validatePathInScope_host]
    unfold checkPlace assertRunScope
    cases run.scope <;> simp [Bind.bind, Except.bind]
  rw [AgentScope.reach, Set.mem_ofPred_eq, hcheck, and_assoc]

/-- Any container will do for a host run, only its own one for a container run. -/
def AgentScope.Owns (run : AgentScope) (svc : ServiceRegistration) (name : String) : Prop :=
  run.scope = .container → some name = run.containerName ∧ some svc.composeService = run.serviceName

lemma validateContainer_iff {svc : ServiceRegistration} {name : String} :
    (∃ c, validateContainer run svc name = .ok c) ↔ name ∈ svc.containerNames ∧ run.Owns svc name := by
  unfold validateContainer AgentScope.Owns
  split_ifs with hname hown
  · simp_all
  · have hnot : ¬ (some name = run.containerName ∧ some svc.composeService = run.serviceName) := by
      simp only [Bool.and_eq_true, Bool.or_eq_true, decide_eq_true_eq] at hown
      exact fun h => hown.2.elim (absurd h.1) (absurd h.2)
    simp_all
  · simp_all

lemma container_mem_reach {svc : ServiceRegistration} {name : String} :
    ⟨projectId, targetId, .container svc name path⟩ ∈ run.reach ↔
      (projectId = run.projectId ∧ targetId = run.targetId) ∧
        (name ∈ svc.containerNames ∧ run.Owns svc name) ∧ allows run.allowedContainerPaths path := by
  have hcheck : (∃ p, checkPlace run (.container svc name path) = .ok p) ↔
      (∃ c, validateContainer run svc name = .ok c) ∧ allows run.allowedContainerPaths path := by
    have hassert : assertRunScope run .container = .ok ⟨⟩ := by simp [assertRunScope]
    unfold checkPlace validatePathInScope
    rw [hassert]
    cases hpath : allows run.allowedContainerPaths path <;> cases hname : validateContainer run svc name <;>
      simp [hpath, hname, Bind.bind, Except.bind, pure, Except.pure]
  rw [AgentScope.reach, Set.mem_ofPred_eq, hcheck, validateContainer_iff]
  exact and_assoc.symm

end Reach
end IncidentLens.Investigations
