import IncidentLens.Approvals.Store
import IncidentLens.Proposals.Registry

/-!
# Registry update proposals

A proposal asks for a container or for paths of one service. Its decision reads the approval
again, looks at the remote system and derives the registration that would replace the project's.
-/
namespace IncidentLens.Proposals
open Data Approvals

inductive RegistryUpdateKind
  | containerRegistration | pathExtension
  deriving DecidableEq

inductive RegistryProposalStatus
  | pending | approved | rejected | stale
  deriving DecidableEq

structure RegistryUpdateProposal where
  proposalId : String
  kind : RegistryUpdateKind
  proposedProjectId : String
  proposedTargetId : String
  proposedServiceName : String
  proposedContainerName : String
  proposedPaths : List RemotePath := []
  status : RegistryProposalStatus := .pending
  /-- `_validate_absolute_simple_paths` -/
  plainPaths : proposedPaths.all RemotePath.isPlain = true := by decide

def registryUpdateIntent (proposal : RegistryUpdateProposal) : Intent :=
  match proposal.kind with
  | .containerRegistration =>
    [("kind", .string "registry_update"),
      ("update_kind", .string "container_registration"),
      ("project_id", .string proposal.proposedProjectId),
      ("target_id", .string proposal.proposedTargetId),
      ("service", .string proposal.proposedServiceName),
      ("container", .string proposal.proposedContainerName)]
  | .pathExtension =>
    [("kind", .string "registry_update"),
      ("update_kind", .string "path_extension"),
      ("project_id", .string proposal.proposedProjectId),
      ("target_id", .string proposal.proposedTargetId),
      ("service", .string proposal.proposedServiceName),
      ("paths", .array (proposal.proposedPaths.map fun path => .string path.str))]

/-- A call of the remote side: it is answered, or fails in a way the decision expects or not. -/
inductive Attempt (α : Type)
  | done (a : α)
  | refused
  | failed

/-- What the target answers while a proposal is decided; a path is resolved at its own time. -/
structure Remote where
  session : Attempt Unit
  inspect : String → Attempt Bool
  realpath : ℕ → RemotePath → Attempt RemotePath

inductive StaleReason
  | projectGone | containerNotRunning | pathGone | registry (e : RegistryError)

inductive DecisionError
  | proposalNotFound | approvalNotFound | approvalUnavailable | approvalMismatch | remote

/-- What keeps a decision from writing the registry. -/
inductive Refusal
  | raised (e : DecisionError)
  | already (status : RegistryProposalStatus)
  | rejected
  | stale (reason : StaleReason)

structure Stores where
  proposals : Table RegistryUpdateProposal.proposalId := .empty
  approvals : Rows := .empty
  projects : Projects := .empty

/-- Only a pending proposal with an approval of its own intent goes on. -/
def authorize (sha256 : Bytes → String) (stores : Stores) (proposal : RegistryUpdateProposal)
    (approvalId : String) (now : DateTime) : Except Refusal Unit :=
  match stores.proposals.get proposal.proposalId with
  | none => .error (.raised .proposalNotFound)
  | some current =>
    if current.status ≠ .pending then .error (.already current.status)
    else match stores.approvals.get approvalId with
    | none => .error (.raised .approvalNotFound)
    | some stored => match DateTime.fromIsoformat stored.expiresAt with
      | none => .error (.raised .approvalUnavailable)
      | some expiresAt =>
        if stored.status = .rejected then .error .rejected
        else if stored.status ≠ .approved then .error (.raised .approvalUnavailable)
        else if expiresAt < now then .error (.raised .approvalUnavailable)
        else if intentSha256 sha256 (registryUpdateIntent proposal) ≠ stored.intentSha256 then
          .error (.raised .approvalMismatch)
        else .ok ()

def findTarget (project : ProjectRegistration) (targetId : String) : Option RemoteOps.TargetRegistration :=
  project.targets.find? fun target => target.targetId = targetId

def verifyContainerIdentity (project : ProjectRegistration) (remote : Remote)
    (proposal : RegistryUpdateProposal) : Attempt Bool :=
  match findTarget project proposal.proposedTargetId with
  | none => .done false
  | some _ => match remote.session with
    | .refused => .done false
    | .failed => .failed
    | .done _ => match remote.inspect proposal.proposedContainerName with
      | .refused => .done false
      | .failed => .failed
      | .done running => .done running

/-- The loop of `_canonicalize_host_paths`, from its `i`-th path on. -/
def resolvePaths (remote : Remote) : ℕ → List RemotePath → List RemotePath → Attempt (List RemotePath)
  | _, [], canonical => .done canonical
  | i, raw :: rest, canonical => match remote.realpath i raw with
    | .refused => .refused
    | .failed => .failed
    | .done resolved =>
      if !resolved.isPlain then .refused
      else resolvePaths remote (i + 1) rest
        (if resolved ∈ canonical then canonical else canonical ++ [resolved])

def canonicalizeHostPaths (project : ProjectRegistration) (remote : Remote)
    (proposal : RegistryUpdateProposal) : Attempt (List RemotePath) :=
  match findTarget project proposal.proposedTargetId with
  | none => .refused
  | some _ => match remote.session with
    | .refused => .refused
    | .failed => .refused
    | .done _ => resolvePaths remote 0 proposal.proposedPaths []

/-- `_derive_registration`, on what the target has answered. -/
def widen (project : ProjectRegistration) (remote : Remote) (proposal : RegistryUpdateProposal) :
    Except Refusal ProjectRegistration :=
  match proposal.kind with
  | .containerRegistration => match verifyContainerIdentity project remote proposal with
    | .refused => .error (.stale .containerNotRunning)
    | .failed => .error (.raised .remote)
    | .done false => .error (.stale .containerNotRunning)
    | .done true => (deriveRegistrationWithUpdates project proposal.proposedServiceName
        (some proposal.proposedContainerName) []).mapError fun e => .stale (.registry e)
  | .pathExtension => match canonicalizeHostPaths project remote proposal with
    | .refused => .error (.stale .pathGone)
    | .failed => .error (.raised .remote)
    | .done paths => (deriveRegistrationWithUpdates project proposal.proposedServiceName none
        paths).mapError fun e => .stale (.registry e)

/-- `_decide` up to the write of the registry: the project as read and what is to replace it. -/
def decideProposal (sha256 : Bytes → String) (stores : Stores) (remote : Remote)
    (proposal : RegistryUpdateProposal) (approvalId : String) (now : DateTime) :
    Except Refusal (ProjectRecord × ProjectRegistration) := do
  authorize sha256 stores proposal approvalId now
  match stores.projects.get proposal.proposedProjectId with
  | none => throw (.stale .projectGone)
  | some project =>
    let derived ← widen project.toProjectRegistration remote proposal
    return (project, derived)

end IncidentLens.Proposals
