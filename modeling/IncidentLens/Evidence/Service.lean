import IncidentLens.Effects.Runs
import IncidentLens.Evidence.Store

/-!
# The evidence service

Every kind of evidence is redacted, bounded and hashed, and gets an id from what it is about. Evidence of a
run is accepted for the incident of the run only.
-/
namespace IncidentLens.Evidence
open Data Logs Effects

def contentMaxLength : ℕ := 128 * 1024
def summaryMaxLength : ℕ := 16 * 1024
def metadataValueMaxLength : ℕ := 2000

/-- `_KIND_CONTENT_MAX`. -/
def EvidenceKind.contentMax : EvidenceKind → ℕ
  | commandOutput | fileSnapshot | diff => contentMaxLength
  | _ => summaryMaxLength

/-- What a `record_…` method makes of its arguments. -/
structure Recorded where
  kind : EvidenceKind
  content : String
  metadata : Dict String String
  typed : kind ≠ .logRecord

/-- `_redact_content`. -/
def Recorded.redacted (classes : CharClasses) (recorded : Recorded) : RedactionResult :=
  redactMessage classes recorded.content.toList recorded.kind.contentMax

def Recorded.contentRedacted (classes : CharClasses) (recorded : Recorded) : String :=
  String.ofList (recorded.redacted classes).messageRedacted

section
variable (classes : CharClasses)

/-- `_bounded_redacted`. -/
def boundedRedacted (text : String) : String :=
  String.ofList (redactMessage classes text.toList metadataValueMaxLength).messageRedacted

def recordCommandOutput (command output : String) (exitCode : ℤ) : Recorded where
  kind := .commandOutput
  content := output
  metadata := [("command", boundedRedacted classes command), ("exit_code", toString exitCode)]
  typed := by decide

def recordFileSnapshot (content : String) (sizeBytes : ℤ) (metadata : Dict String String) : Recorded where
  kind := .fileSnapshot
  content := content
  metadata := Dict.set (metadata.map fun member => (member.1, boundedRedacted classes member.2)) "size_bytes" (toString sizeBytes)
  typed := by decide

def recordDiff (diffText operation oldRef newRef : String) : Recorded where
  kind := .diff
  content := diffText
  metadata := [("operation", boundedRedacted classes operation), ("old_ref", boundedRedacted classes oldRef),
    ("new_ref", boundedRedacted classes newRef)]
  typed := by decide

def recordValidationResult (validator : String) (passed : Bool) (detail : String) : Recorded where
  kind := .validationResult
  content := detail
  metadata := [("validator", boundedRedacted classes validator), ("passed", toString passed)]
  typed := by decide

def recordChildReport (reportSummary childRunId parentRunId status stopReason : String) : Recorded where
  kind := .childReport
  content := reportSummary
  metadata := [("child_run_id", boundedRedacted classes childRunId), ("parent_run_id", boundedRedacted classes parentRunId),
    ("status", boundedRedacted classes status), ("stop_reason", boundedRedacted classes stopReason)]
  typed := by decide

def recordRegistryDiscovery (discoveryKind description : String) : Recorded where
  kind := .registryDiscovery
  content := description
  metadata := [("discovery_kind", boundedRedacted classes discoveryKind)]
  typed := by decide

def recordApprovalDecision (approvalId decision intentSummary : String) : Recorded where
  kind := .approvalDecision
  content := intentSummary
  metadata := [("approval_id", boundedRedacted classes approvalId), ("decision", boundedRedacted classes decision)]
  typed := by decide

def recordUncertainState (reason description : String) : Recorded where
  kind := .uncertainState
  content := description
  metadata := [("reason", boundedRedacted classes reason)]
  typed := by decide

end

/-- The arguments of the `record_…` methods that only one of them has. -/
inductive RecordedContent
  | commandOutput (command output : String) (exitCode : ℤ)
  | fileSnapshot (content : String) (sizeBytes : ℤ) (metadata : Dict String String)
  | diff (diffText operation oldRef newRef : String)
  | validationResult (validator : String) (passed : Bool) (detail : String)
  | childReport (reportSummary childRunId parentRunId status stopReason : String)
  | registryDiscovery (discoveryKind description : String)
  | approvalDecision (approvalId decision intentSummary : String)
  | uncertainState (reason description : String)
  deriving DecidableEq

def RecordedContent.recorded (classes : CharClasses) : RecordedContent → Recorded
  | commandOutput command output exitCode => recordCommandOutput classes command output exitCode
  | fileSnapshot content sizeBytes metadata => recordFileSnapshot classes content sizeBytes metadata
  | diff diffText operation oldRef newRef => recordDiff classes diffText operation oldRef newRef
  | validationResult validator passed detail => recordValidationResult classes validator passed detail
  | childReport reportSummary childRunId parentRunId status stopReason =>
    recordChildReport classes reportSummary childRunId parentRunId status stopReason
  | registryDiscovery discoveryKind description => recordRegistryDiscovery classes discoveryKind description
  | approvalDecision approvalId decision intentSummary => recordApprovalDecision classes approvalId decision intentSummary
  | uncertainState reason description => recordUncertainState classes reason description

/-- Whom evidence is attributed to, and what it is about. -/
structure Attribution where
  incidentId : String
  projectId : String
  targetId : String
  serviceName : String
  createdBy : String
  now : Time
  deriving DecidableEq

inductive EvidenceRequest
  | logRecord (record : LogRecord) (incidentId createdBy : String) (now : Time) (agentRunId : Option String)
  | typed (attribution : Attribution) (agentRunId : String) (sourceRef : Option String) (content : RecordedContent)
  deriving DecidableEq

namespace EvidenceRequest

def incidentId : EvidenceRequest → String
  | logRecord _ incidentId _ _ _ => incidentId
  | typed attribution _ _ _ => attribution.incidentId

def agentRunId : EvidenceRequest → Option String
  | logRecord _ _ _ _ agentRunId => agentRunId
  | typed _ agentRunId _ _ => some agentRunId

end EvidenceRequest

/-! ### Ids -/

section
variable (sha256 : Sha256) (classes : CharClasses)

def logRecordIdText (record : LogRecord) (agentRunId : Option String) : String :=
  let identity := "|".intercalate
    [record.projectId, record.targetId, record.serviceName, record.sourceKind.value, record.scope.value,
      record.sourceRef, record.cursor]
  (match agentRunId with
    | some agentRunId => agentRunId ++ "|" ++ identity
    | none => identity) ++ "|" ++ sha256.hexdigest record.messageRedacted

/-- The evidence that `create_from_log_record` creates. -/
def fromLogRecord (record : LogRecord) (incidentId createdBy : String) (now : Time) (agentRunId : Option String) : EvidenceRef where
  evidenceRefId := "ev-" ++ sha256.short (logRecordIdText sha256 record agentRunId)
  incidentId := incidentId
  evidenceKind := .logRecord
  agentRunId := agentRunId
  projectId := record.projectId
  targetId := record.targetId
  serviceName := record.serviceName
  sourceRef := some record.sourceRef
  sourceKind := some record.sourceKind
  scope := some record.scope
  cursor := some record.cursor
  contentRedacted := record.messageRedacted
  contentSha256 := sha256.hexdigest record.messageRedacted
  createdAt := now
  createdBy := createdBy

/-- The text under the id of `_derive_evidence_ref_id`. -/
def typedIdText (kind : EvidenceKind) (projectId targetId serviceName agentRunId : String) (sourceRef : Option String)
    (metadata : Dict String String) (contentSha256 : String) : String :=
  kind.value ++ "|" ++ "|".intercalate [projectId, targetId, serviceName, agentRunId, sourceRef.getD ""] ++ "|" ++
    metadataJson metadata ++ "|" ++ contentSha256

/-- The evidence that `_persist` creates. -/
def persisted (attribution : Attribution) (agentRunId : String) (sourceRef : Option String) (recorded : Recorded) : EvidenceRef where
  evidenceRefId := "ev-" ++ sha256.short (typedIdText recorded.kind attribution.projectId attribution.targetId
    attribution.serviceName agentRunId sourceRef recorded.metadata (sha256.hexdigest (recorded.contentRedacted classes)))
  incidentId := attribution.incidentId
  evidenceKind := recorded.kind
  agentRunId := some agentRunId
  projectId := attribution.projectId
  targetId := attribution.targetId
  serviceName := attribution.serviceName
  sourceRef := sourceRef
  contentRedacted := recorded.contentRedacted classes
  contentSha256 := sha256.hexdigest (recorded.contentRedacted classes)
  redactionSummary := (recorded.redacted classes).summary
  truncation := (recorded.redacted classes).truncation
  metadata := recorded.metadata
  createdAt := attribution.now
  createdBy := attribution.createdBy

def EvidenceRequest.evidence : EvidenceRequest → EvidenceRef
  | .logRecord record incidentId createdBy now agentRunId => fromLogRecord sha256 record incidentId createdBy now agentRunId
  | .typed attribution agentRunId sourceRef content => persisted sha256 classes attribution agentRunId sourceRef (content.recorded classes)

/-! ### Runs of agents and requests -/

/-- The incident and the scope of a run. -/
structure RunOwner where
  incidentId : String
  projectId : String
  targetId : String
  serviceName : Option String
  deriving DecidableEq

/-- The runs that are registered, the rows, and what was returned for every request. -/
structure EvidenceLog where
  runs : Dict String RunOwner := []
  rows : List Row := []
  answers : List (EvidenceRequest × EvidenceRef) := []

/-- `_assert_run_owned_by_incident`. -/
def ownedByIncident (runs : Dict String RunOwner) (e : EvidenceRef) : Bool :=
  match e.agentRunId with
  | none => true
  | some agentRunId => (runs.get? agentRunId).any fun owner =>
    owner.incidentId = e.incidentId && owner.projectId = e.projectId && owner.targetId = e.targetId &&
      owner.serviceName.all fun serviceName => serviceName = e.serviceName

inductive EvidenceMove
  | register (agentRunId : String) (owner : RunOwner)
  | submit (request : EvidenceRequest)

/-- A request that is not owned or not valid raises, and changes nothing. -/
def EvidenceLog.submit (s : EvidenceLog) (request : EvidenceRequest) : EvidenceLog :=
  let e := request.evidence sha256 classes
  if ownedByIncident s.runs e && e.valid then
    let (rows, found) := create sha256 s.rows e
    { s with rows := rows, answers := s.answers ++ (found.map fun found => (request, found)).toList }
  else s

def EvidenceLog.step (s : EvidenceLog) : EvidenceMove → Option EvidenceLog
  | .register agentRunId owner => match s.runs.get? agentRunId with
    | some _ => none
    | none => some { s with runs := s.runs.set agentRunId owner }
  | .submit request => some (s.submit sha256 classes request)

def evidenceLog : System EvidenceLog EvidenceMove := ⟨{}, EvidenceLog.step sha256 classes⟩

end
end IncidentLens.Evidence
