import IncidentLens.Changes.Atomicity
import IncidentLens.Effects.Pairing

/-!
# The container transport beside the host transport

One request is applied on the host and, with the scope of a container, in a container that has the
same directories and files. What each transport can tell and do differs in a few places.
-/
namespace IncidentLens.Changes
open Data Effects RemotePathPolicy

def FileRequest.inContainer (f : FileRequest) (container : String) : FileRequest :=
  { f with scope := .container container }

def ChangeSetRequest.inContainer (rq : ChangeSetRequest) (container : String) : ChangeSetRequest :=
  { rq with
    files := rq.files.map fun f => f.inContainer container
    context := { rq.context with scope := .container container }
    nonempty := by simpa using rq.nonempty
    shared := by
      intro f hf
      obtain ⟨g, hg, rfl⟩ := List.mem_map.mp hf
      simp only [FileRequest.inContainer, rq.shared g hg] }

section InContainer
variable (f : FileRequest) (rq : ChangeSetRequest) (container : String)

@[simp] lemma path_inContainer : (f.inContainer container).path = f.path := rfl

@[simp] lemma operationId_inContainer : (f.inContainer container).operationId = f.operationId := rfl

@[simp] lemma scope_inContainer : (f.inContainer container).scope = .container container := rfl

@[simp] lemma changesetId_inContainer : (rq.inContainer container).changesetId = rq.changesetId := rfl

end InContainer

def Op.accesses (env : Env) : Op → List Path
  | .readBytes scope path _ => [env.layout.loc scope path]
  | .copyFile scope source target => [env.layout.loc scope source, env.layout.loc scope target]
  | op => op.touches env

/-- A change of a file without what differs between the transports. -/
def FileChange.told (f : FileChange) : FileChange :=
  { f with scope := .host, container := none, remoteBackupPath := none, tempPath := none }

def ChangeSet.told (cs : ChangeSet) : ChangeSet := { cs with files := cs.files.map FileChange.told }

def ChangeResult.told (r : ChangeResult) : ChangeSetStatus × List Path × Bool := (r.status, r.appliedFiles, r.uncertain)

section
variable (m : Manager) (rq : ChangeSetRequest) (ts container : String)

/-- The container has the directories, the files and the allowed roots of the host. -/
structure Twin (w : World) : Prop where
  directories : ∀ path, m.env.layout.dir (.container container) path = m.env.layout.dir .host path
  files : w.files (.container container) = w.files .host
  roots : ∀ policy protectedPaths, resolvePolicy m rq = .ok (policy, protectedPaths) →
    container ∈ policy.containerNames ∧ policy.allowedContainerPaths = policy.allowedHostPaths

/-- A run of `apply`. -/
abbrev ApplyRun := (Except Exc ChangeResult × Locals) × History × World

/-- What an `apply` in the container has in common with that on the host: its result, the files and the
journal that it leaves; and it reads and writes only files within the allowed roots, links resolved, with
their temporary files and backups. -/
structure Refines (host inContainer : ApplyRun) : Prop where
  result : inContainer.1.1.toOption.map ChangeResult.told = host.1.1.toOption.map ChangeResult.told
  files : inContainer.2.2.files (.container container) = host.2.2.files .host
  journal : ∀ id, (inContainer.2.2.journal.get id).map ChangeSet.told = (host.2.2.journal.get id).map ChangeSet.told
  confined : ∀ e ∈ inContainer.2.1, ∀ location ∈ e.call.op.accesses m.env,
    ∃ policy protectedPaths, resolvePolicy m rq = .ok (policy, protectedPaths) ∧ ∃ f ∈ rq.files,
      contains policy (rq.location m.env f.path) (.container container) ∧
      location ∈ [rq.location m.env f.path, rq.tempLocation m.env f.path, rq.backupLocation m.env ts f.path]

/-! ### Where the transports agree -/

section Conditions
variable (policy : ServiceRegistration) (w : World)

def Unlinked (f : FileRequest) : Prop := m.env.layout.dir rq.context.scope f.path = rq.location m.env f.path

def entryOf (f : FileRequest) : Option Entry := w.files rq.context.scope (rq.location m.env f.path)

structure Accepted (f : FileRequest) : Prop where
  unlinked : Unlinked m rq f
  presence : (entryOf m rq w f).isNone = f.creates
  authorized : authorize policy rq.context.scope f.path = .ok ()
  within : contains policy (rq.location m.env f.path) rq.context.scope
  expected : ∀ expected, f.expectedSha256 = some expected → m.env.sha256 (readable m.env rq w f) = expected

def Reached (f : FileRequest) : Prop := ∃ done rest, rq.files = done ++ f :: rest ∧ ∀ g ∈ done, Accepted m rq policy w g

def addReplacement (contents : Dict Path Bytes) (f : FileRequest) : Dict Path Bytes :=
  match f.replacement (readable m.env rq w f) with
  | .ok content => contents.set f.path content
  | .error _ => contents

/-- The replacement contents of some files, that of its last file for each path. -/
def replacements (files : List FileRequest) : Dict Path Bytes := files.foldl (addReplacement m rq w) []

/-- Everything is ready for the temporary files. -/
structure Staged : Prop where
  accepted : ∀ f ∈ rq.files, Accepted m rq policy w f
  replaced : ∀ f ∈ rq.files, ∃ content, f.replacement (readable m.env rq w f) = .ok content
  validated : ∀ f ∈ rq.files, ∀ content, (replacements m rq w rq.files).get? f.path = some content →
    ∃ result, validateContent m.env f.path content = .ok result
  short : ∀ f ∈ rq.files, f.path.str.length ≤ 512
  unused : w.journal.get rq.changesetId = none
  fresh : (rq.files.map FileRequest.operationId ++ w.journal.fileChangeIds).Nodup

/-- No temporary file is there when it is written, and compose files are valid. -/
structure Clear : Prop where
  absent : ∀ f ∈ rq.files, w.files rq.context.scope (rq.tempLocation m.env f.path) = none
  distinct : (rq.files.map fun f => rq.tempLocation m.env f.path).Nodup
  apart : ∀ f ∈ rq.files, ∀ g ∈ rq.files, rq.tempLocation m.env f.path ≠ rq.backupLocation m.env ts g.path
  composed : ∀ f ∈ rq.files, isComposeYaml f.path →
    (m.env.runArgv ["docker", "compose", "-f", (rq.tempLocation m.env f.path).str, "config", "-q"]).exitStatus = 0

/-- No file that the preflight comes to is a missing one to be created, or resolves to a place outside the
allowed roots; and nothing is in the way of the temporary files. -/
structure Portable : Prop where
  present : ∀ f, Reached m rq policy w f → Unlinked m rq f → f.creates = true → (entryOf m rq w f).isSome
  within : ∀ f, Reached m rq policy w f → Unlinked m rq f → (entryOf m rq w f).isNone = f.creates →
    authorize policy rq.context.scope f.path = .ok () →
    contains policy (rq.location m.env f.path) rq.context.scope
  clear : Staged m rq policy w → Clear m rq ts w

end Conditions
end

end IncidentLens.Changes
