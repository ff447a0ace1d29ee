import IncidentLens.Data.DateTime
import IncidentLens.Investigations.Scope
import IncidentLens.RemoteOps.Registry

/-!
# Widening the registry

Projects with the containers and host paths that their services may use. A record is replaced
where its `updated_at` is still the one that was read.
-/
namespace IncidentLens.Proposals
open Data Investigations List

/-- A `PurePosixPath`; a relative one has no root. -/
structure RemotePath where
  root : Option PathRoot
  parts : List String
  deriving DecidableEq

namespace RemotePath

def str (p : RemotePath) : String :=
  match p.root with
  | some .single => "/" ++ "/".intercalate p.parts
  | some .double => "//" ++ "/".intercalate p.parts
  | none => if p.parts = [] then "." else "/".intercalate p.parts

def isAbsolute (p : RemotePath) : Bool := p.root.isSome

/-- Absolute and without `..`. -/
def isPlain (p : RemotePath) : Bool := p.isAbsolute && !p.parts.contains ".."

end RemotePath

structure ServiceRegistration where
  composeService : String
  containerNames : List String := []
  allowedHostPaths : List RemotePath := []
  deriving DecidableEq

structure ProjectRegistration where
  projectId : String
  displayName : String
  targets : List RemoteOps.TargetRegistration
  services : List ServiceRegistration
  /-- `associations_must_be_unique` -/
  uniqueServices : (services.map ServiceRegistration.composeService).Nodup := by decide
  deriving DecidableEq

/-- Instants are kept as their ISO texts. -/
structure ProjectRecord extends ProjectRegistration where
  createdAt : Text
  updatedAt : Text
  deriving DecidableEq

abbrev Projects := Table fun record : ProjectRecord => record.projectId

inductive RegistryError
  | projectAlreadyExists | projectNotFound | projectServiceNotFound
  | registryUpdateConflict | invalidContainer | invalidPath
  deriving DecidableEq

namespace Projects

def create (projects : Projects) (registration : ProjectRegistration) (now : DateTime) :
    Except RegistryError Projects :=
  match projects.get registration.projectId with
  | some _ => .error .projectAlreadyExists
  | none => .ok (projects.put ⟨registration, now.isoformat, now.isoformat⟩)

/-- The update is conditional on `updated_at` when the caller says what it has read. -/
def replace (projects : Projects) (registration : ProjectRegistration) (now : DateTime)
    (expectedUpdatedAt : Option Text) : Except RegistryError Projects :=
  match projects.get registration.projectId with
  | none => .error .projectNotFound
  | some old =>
    if expectedUpdatedAt.all (· = old.updatedAt) then
      .ok (projects.put ⟨registration, old.createdAt, now.isoformat⟩)
    else .error .registryUpdateConflict

def delete (projects : Projects) (projectId : String) : Except RegistryError Projects :=
  match projects.get projectId with
  | none => .error .projectNotFound
  | some _ => .ok (projects.remove projectId)

end Projects

/-- `_CONTAINER_NAME_RE`: the end of the pattern also matches before a last newline. -/
def isContainerName (name : String) : Bool :=
  let chars := if name.toList.getLast? = some '\n' then name.toList.dropLast else name.toList
  match chars with
  | [] => false
  | c :: cs => c.isAlphanum && cs.length ≤ 127 &&
      cs.all fun c => c.isAlphanum || c == '_' || c == '.' || c == '-'

/-- The container of an update is new and has a container's name. -/
def addContainer (container : Option String) (names : List String) : Except RegistryError (List String × Bool) :=
  match container with
  | none => .ok (names, false)
  | some container =>
    if !isContainerName container then .error .invalidContainer
    else if container ∈ names then .error .registryUpdateConflict
    else .ok (names ++ [container], true)

def addPaths : List RemotePath → List RemotePath → Bool → Except RegistryError (List RemotePath × Bool)
  | [], allowed, added => .ok (allowed, added)
  | path :: paths, allowed, added =>
    if !path.isPlain then .error .invalidPath
    else if path ∈ allowed then addPaths paths allowed added
    else addPaths paths (allowed ++ [path]) true

/-- A service of a project is replaced by one with its name. -/
def ProjectRegistration.setService (project : ProjectRegistration) (index : ℕ) (svc : ServiceRegistration)
    (h : ∀ old, project.services[index]? = some old → svc.composeService = old.composeService) :
    ProjectRegistration where
  projectId := project.projectId
  displayName := project.displayName
  targets := project.targets
  services := project.services.set index svc
  uniqueServices := by
    have hnames : (project.services.set index svc).map ServiceRegistration.composeService =
        project.services.map ServiceRegistration.composeService := by
      refine ext_getElem? fun i => ?_
      rw [map_set, getElem?_set, length_map, getElem?_map]
      split_ifs with hi hlt
      · rw [← hi, getElem?_eq_getElem hlt, Option.map_some, h _ (getElem?_eq_getElem hlt)]
      · rw [← hi, getElem?_eq_none (not_lt.mp hlt), Option.map_none]
      · rfl
    rw [hnames]
    exact project.uniqueServices

def deriveRegistrationWithUpdates (project : ProjectRegistration) (serviceName : String)
    (container : Option String) (hostPaths : List RemotePath) : Except RegistryError ProjectRegistration :=
  match project.services.findIdx? fun svc => svc.composeService = serviceName with
  | none => .error .projectServiceNotFound
  | some index => match h : project.services[index]? with
    | none => .error .projectServiceNotFound
    | some svc => do
      let (containers, addedContainer) ← addContainer container svc.containerNames
      let (paths, added) ← addPaths hostPaths svc.allowedHostPaths addedContainer
      if added then
        return project.setService index { svc with containerNames := containers, allowedHostPaths := paths }
          (by simp [h])
      else throw .registryUpdateConflict

def ProjectRegistration.allows (project : ProjectRegistration) (service : String) (path : RemotePath) : Prop :=
  ∃ svc ∈ project.services, svc.composeService = service ∧ path ∈ svc.allowedHostPaths

def ProjectRegistration.contains (project : ProjectRegistration) (service container : String) : Prop :=
  ∃ svc ∈ project.services, svc.composeService = service ∧ container ∈ svc.containerNames

lemma addContainer_ok {container : Option String} {names names' : List String} {added : Bool}
    (h : addContainer container names = .ok (names', added)) :
    (∀ c, c ∈ names' ↔ c ∈ names ∨ container = some c) ∧ (added ↔ container.isSome) := by
  cases container with
  | none =>
    cases h
    simp
  | some container =>
    simp only [addContainer] at h
    split_ifs at h
    cases h
    simp [eq_comm]

lemma addPaths_ok {paths allowed allowed' : List RemotePath} {added added' : Bool}
    (h : addPaths paths allowed added = .ok (allowed', added')) : (∀ p, p ∈ allowed' ↔ p ∈ allowed ∨ p ∈ paths) ∧
      (added' ↔ added ∨ ∃ p ∈ paths, p ∉ allowed) ∧ ∀ p ∈ paths, p.isPlain := by
  induction paths generalizing allowed added with
  | nil =>
    cases h
    simp
  | cons path paths ih =>
    simp only [addPaths] at h
    split_ifs at h with hplain hmem
    · obtain ⟨hallowed, hadded, hall⟩ := ih h
      refine ⟨fun p => ?_, ?_, ?_⟩
      · rw [hallowed, mem_cons]
        constructor
        · rintro (hp | hp)
          · exact .inl hp
          · exact .inr (.inr hp)
        · rintro (hp | rfl | hp)
          · exact .inl hp
          · exact .inl hmem
          · exact .inr hp
      · rw [hadded]
        simp [hmem]
      · exact forall_mem_cons.mpr ⟨by simpa using hplain, hall⟩
    · obtain ⟨hallowed, hadded, hall⟩ := ih h
      refine ⟨fun p => ?_, ?_, ?_⟩
      · rw [hallowed, mem_append, mem_singleton, mem_cons, or_assoc]
      · rw [hadded]
        simp [hmem]
      · exact forall_mem_cons.mpr ⟨by simpa using hplain, hall⟩

lemma addPaths_eq_ok {paths : List RemotePath} (h : ∀ p ∈ paths, p.isPlain) (allowed : List RemotePath)
    (added : Bool) : ∃ result, addPaths paths allowed added = .ok result := by
  induction paths generalizing allowed added with
  | nil => exact ⟨_, rfl⟩
  | cons path paths ih =>
    obtain ⟨hplain, hall⟩ := forall_mem_cons.mp h
    by_cases hmem : path ∈ allowed
    · simpa [addPaths, hplain, hmem] using ih hall allowed added
    · simpa [addPaths, hplain, hmem] using ih hall (allowed ++ [path]) true

section Derive
variable {project registration : ProjectRegistration} {serviceName : String} {container : Option String}
  {paths : List RemotePath}

lemma derive_ok (h : deriveRegistrationWithUpdates project serviceName container paths = .ok registration) :
    ∃ (index : ℕ) (svc svc' : ServiceRegistration), project.services[index]? = some svc ∧
      svc.composeService = serviceName ∧ svc'.composeService = serviceName ∧
      registration.services = project.services.set index svc' ∧
      (∀ p, p ∈ svc'.allowedHostPaths ↔ p ∈ svc.allowedHostPaths ∨ p ∈ paths) ∧
      (∀ c, c ∈ svc'.containerNames ↔ c ∈ svc.containerNames ∨ container = some c) ∧
      registration.projectId = project.projectId ∧
      (container = none → ∃ p ∈ paths, p ∉ svc.allowedHostPaths) ∧ ∀ p ∈ paths, p.isPlain := by
  unfold deriveRegistrationWithUpdates at h
  split at h
  · cases h
  rename_i index hindex
  split at h
  · cases h
  rename_i svc hsvc
  have hname : svc.composeService = serviceName := by
    obtain ⟨hlt, hdecide, -⟩ := findIdx?_eq_some_iff_getElem.mp hindex
    rw [getElem?_eq_getElem hlt] at hsvc
    rw [← Option.some.inj hsvc]
    simpa using hdecide
  obtain ⟨⟨containers, addedContainer⟩, hcontainers, h⟩ := bind_eq_ok_iff.mp h
  obtain ⟨⟨allowed, added⟩, hpaths, h⟩ := bind_eq_ok_iff.mp h
  obtain ⟨hcontains, hcontainer⟩ := addContainer_ok hcontainers
  obtain ⟨hallowed, hadded, hplain⟩ := addPaths_ok hpaths
  simp only at h
  split_ifs at h with hsome
  cases h
  refine ⟨index, svc, { svc with containerNames := containers, allowedHostPaths := allowed }, hsvc, hname,
    hname, rfl, hallowed, hcontains, rfl, fun hnone => ?_, hplain⟩
  rw [hadded, hcontainer, hnone] at hsome
  simpa using hsome

lemma mem_set_of_ne {α : Type*} {l : List α} {i : ℕ} {old new x : α} (hold : l[i]? = some old) (hx : x ∈ l)
    (hne : x ≠ old) : x ∈ l.set i new := by
  obtain ⟨j, hj⟩ := mem_iff_getElem?.mp hx
  refine mem_iff_getElem?.mpr ⟨j, ?_⟩
  rw [getElem?_set_ne, hj]
  rintro rfl
  exact hne (Option.some.inj (hj.symm.trans hold))

lemma ProjectRegistration.service_ext {svc svc' : ServiceRegistration} (hsvc : svc ∈ project.services)
    (hsvc' : svc' ∈ project.services) (hname : svc.composeService = svc'.composeService) : svc = svc' :=
  inj_on_of_nodup_map project.uniqueServices hsvc hsvc' hname

lemma allows_derive (h : deriveRegistrationWithUpdates project serviceName container paths = .ok registration)
    (service : String) (path : RemotePath) : registration.allows service path ↔
      project.allows service path ∨ service = serviceName ∧ path ∈ paths := by
  obtain ⟨index, svc, svc', hsvc, hname, hname', hservices, hallowed, -⟩ := derive_ok h
  have hmem := mem_of_getElem? hsvc
  unfold ProjectRegistration.allows
  rw [hservices]
  constructor
  · rintro ⟨x, hx, rfl, hpath⟩
    rcases mem_or_eq_of_mem_set hx with hx | rfl
    · exact .inl ⟨x, hx, rfl, hpath⟩
    · rcases (hallowed path).mp hpath with hold | hnew
      · exact .inl ⟨svc, hmem, hname.trans hname'.symm, hold⟩
      · exact .inr ⟨hname', hnew⟩
  · have hnew : svc' ∈ project.services.set index svc' :=
      List.mem_iff_getElem?.mpr ⟨index, List.getElem?_set_self (List.getElem?_eq_some_iff.mp hsvc).1⟩
    rintro (⟨x, hx, rfl, hpath⟩ | ⟨rfl, hpath⟩)
    · by_cases hsame : x = svc
      · exact ⟨svc', hnew, by rw [hsame, hname, hname'], (hallowed path).mpr (.inl (hsame ▸ hpath))⟩
      · exact ⟨x, mem_set_of_ne hsvc hx hsame, rfl, hpath⟩
    · exact ⟨svc', hnew, hname', (hallowed path).mpr (.inr hpath)⟩

lemma contains_derive (h : deriveRegistrationWithUpdates project serviceName container paths = .ok registration)
    {service name : String} (hname : registration.contains service name) :
    project.contains service name ∨ service = serviceName ∧ container = some name := by
  obtain ⟨index, svc, svc', hsvc, hold, hnew, hservices, -, hcontainers, -⟩ := derive_ok h
  obtain ⟨x, hx, rfl, hcontainer⟩ := hname
  rw [hservices] at hx
  rcases mem_or_eq_of_mem_set hx with hx | rfl
  · exact .inl ⟨x, hx, rfl, hcontainer⟩
  · rcases (hcontainers name).mp hcontainer with hold' | hadded
    · exact .inl ⟨svc, mem_of_getElem? hsvc, hold.trans hnew.symm, hold'⟩
    · exact .inr ⟨hnew, hadded⟩

lemma derive_paths_iff : (∃ registration, deriveRegistrationWithUpdates project serviceName none paths = .ok registration) ↔
    (∃ svc ∈ project.services, svc.composeService = serviceName) ∧ (∀ p ∈ paths, p.isPlain) ∧
      ∃ p ∈ paths, ¬ project.allows serviceName p := by
  constructor
  · rintro ⟨registration, h⟩
    obtain ⟨index, svc, svc', hsvc, hname, -, -, -, -, -, hnew, hplain⟩ := derive_ok h
    have hmem := mem_of_getElem? hsvc
    obtain ⟨p, hp, hfresh⟩ := hnew rfl
    refine ⟨⟨svc, hmem, hname⟩, hplain, p, hp, ?_⟩
    rintro ⟨other, hother, hsame, hallowed⟩
    exact hfresh (ProjectRegistration.service_ext hother hmem (hsame.trans hname.symm) ▸ hallowed)
  · rintro ⟨⟨svc, hsvc, hname⟩, hplain, p, hp, hnew⟩
    unfold deriveRegistrationWithUpdates
    split
    next hnone =>
      have hall := findIdx?_eq_none_iff.mp hnone svc hsvc
      exact absurd hname (by simpa using hall)
    next index hindex =>
      obtain ⟨hlt, hdecide, -⟩ := findIdx?_eq_some_iff_getElem.mp hindex
      split
      next hnone => exact absurd hlt (by simpa using hnone)
      next other hother =>
        obtain ⟨⟨allowed, added⟩, hpaths⟩ := addPaths_eq_ok hplain other.allowedHostPaths false
        have hadded : added = true := by
          refine (addPaths_ok hpaths).2.1.mpr (.inr ⟨p, hp, fun hold => hnew ?_⟩)
          rw [getElem?_eq_getElem hlt] at hother
          refine ⟨other, mem_of_getElem? (getElem?_eq_getElem hlt ▸ hother), ?_, hold⟩
          rw [← Option.some.inj hother]
          simpa using hdecide
        simp only [addContainer, bind, Except.bind, hpaths, hadded, if_true]
        exact ⟨_, rfl⟩

end Derive
end IncidentLens.Proposals
