import IncidentLens.Data.Joined
import IncidentLens.Data.Json
import IncidentLens.Logs.Redaction
import IncidentLens.Logs.Store

/-!
# The evidence store

Evidence is inserted once and never changed. A row with the same id or the same dedupe key keeps a new one
out, and is returned in its place.
-/
namespace IncidentLens.Evidence
open Data Logs

/-- `hashlib.sha256` of a text in UTF-8. -/
structure Sha256 where
  hexdigest : String → String
  length_hexdigest : ∀ text, (hexdigest text).length = 64
  barless : ∀ text, '|' ∉ (hexdigest text).toList

/-- The first 24 digits, of which the ids of evidence are made. -/
def Sha256.short (sha256 : Sha256) (text : String) : String := String.ofList ((sha256.hexdigest text).toList.take 24)

inductive EvidenceKind
  | logRecord | commandOutput | fileSnapshot | diff | validationResult | childReport | registryDiscovery
  | approvalDecision | uncertainState
  deriving DecidableEq

def EvidenceKind.value : EvidenceKind → String
  | logRecord => "log_record"
  | commandOutput => "command_output"
  | fileSnapshot => "file_snapshot"
  | diff => "diff"
  | validationResult => "validation_result"
  | childReport => "child_report"
  | registryDiscovery => "registry_discovery"
  | approvalDecision => "approval_decision"
  | uncertainState => "uncertain_state"

structure EvidenceRef where
  evidenceRefId : String
  incidentId : String
  evidenceKind : EvidenceKind
  agentRunId : Option String
  projectId : String
  targetId : String
  serviceName : String
  sourceRef : Option String
  sourceKind : Option LogSourceKind := none
  scope : Option LogScope := none
  cursor : Option String := none
  contentRedacted : String
  contentSha256 : String
  redactionSummary : Summary := []
  truncation : Option TruncationInfo := none
  metadata : List (String × String) := []
  createdAt : Time
  createdBy : String
  deriving DecidableEq

/-! ### Texts of identities -/

def hex4 (n : ℕ) : List Char := [n / 4096, n / 256 % 16, n / 16 % 16, n % 16].map Json.hexDigit

/-- Escapes of `ensure_ascii=True`; characters beyond the first plane become surrogates. -/
def escapeAscii (c : Char) : List Char :=
  if c = '"' then ['\\', '"']
  else if c = '\\' then ['\\', '\\']
  else if c = '\n' then ['\\', 'n']
  else if c = '\r' then ['\\', 'r']
  else if c = '\t' then ['\\', 't']
  else if c.toNat = 8 then ['\\', 'b']
  else if c.toNat = 12 then ['\\', 'f']
  else if 32 ≤ c.toNat ∧ c.toNat < 127 then [c]
  else if c.toNat < 65536 then '\\' :: 'u' :: hex4 c.toNat
  else '\\' :: 'u' :: hex4 (0xD800 + (c.toNat - 65536) / 1024) ++ '\\' :: 'u' :: hex4 (0xDC00 + (c.toNat - 65536) % 1024)

def quoteAscii (text : String) : List Char := '"' :: text.toList.flatMap escapeAscii ++ ['"']

/-- `json.dumps(metadata, sort_keys=True)`. -/
def metadataJson (metadata : List (String × String)) : String :=
  let members := (metadata.insertionSort fun a b => a.1 ≤ b.1).map fun member =>
    quoteAscii member.1 ++ [':', ' '] ++ quoteAscii member.2
  String.ofList (['{'] ++ [',', ' '].intercalate members ++ ['}'])

/-- The text under the digest of `_derive_dedupe_key`. -/
def dedupeText (e : EvidenceRef) : String :=
  "|".intercalate
      [e.evidenceKind.value, e.agentRunId.getD "", e.projectId, e.targetId, e.serviceName, e.sourceRef.getD "",
        (e.sourceKind.map LogSourceKind.value).getD "", (e.scope.map LogScope.value).getD "", e.cursor.getD ""] ++
    "|" ++ metadataJson e.metadata ++ "|" ++ e.contentSha256

def deriveDedupeKey (sha256 : Sha256) (e : EvidenceRef) : String := sha256.hexdigest (dedupeText e)

/-! ### Rows -/

def within (least most : ℕ) (text : String) : Bool := least ≤ text.length && text.length ≤ most

/-- The bounds of the fields of an `EvidenceRef`. -/
def EvidenceRef.valid (e : EvidenceRef) : Bool :=
  within 1 120 e.evidenceRefId && within 1 120 e.incidentId && e.agentRunId.all (within 1 120) &&
    within 1 80 e.projectId && within 1 80 e.targetId && within 1 120 e.serviceName && e.sourceRef.all (within 1 500) &&
    e.cursor.all (within 1 1000) && within 64 64 e.contentSha256 && within 1 80 e.createdBy &&
    e.metadata.all fun member => within 1 120 member.1 && within 0 2000 member.2

structure Row where
  evidence : EvidenceRef
  dedupeKey : String
  deriving DecidableEq

section
variable (sha256 : Sha256) (rows : List Row) (e : EvidenceRef)

def conflicts (row : Row) : Bool := row.evidence.evidenceRefId = e.evidenceRefId || row.dedupeKey = deriveDedupeKey sha256 e

/-- `INSERT OR IGNORE`. -/
def insertOrIgnore : List Row := if rows.any (conflicts sha256 e) then rows else rows ++ [⟨e, deriveDedupeKey sha256 e⟩]

/-- `EvidenceStore.create`: the rows afterwards, and the evidence of the row that is found. -/
def create : List Row × Option EvidenceRef :=
  let rows := insertOrIgnore sha256 rows e
  (rows, (rows.find? (conflicts sha256 e)).map Row.evidence)

end

/-- `EvidenceStore.get`. -/
def getEvidence (rows : List Row) (evidenceRefId : String) : Option EvidenceRef :=
  (rows.find? fun row => row.evidence.evidenceRefId = evidenceRefId).map Row.evidence

/-- `EvidenceStore.query` by incident, oldest first; it raises for a limit out of bounds. -/
def listForIncident (rows : List Row) (incidentId : String) (limit : ℤ) : Option (List EvidenceRef) :=
  if 1 ≤ limit ∧ limit ≤ 1000 then
    some ((((rows.map Row.evidence).filter fun e => e.incidentId = incidentId).insertionSort
      fun e e' => e.createdAt ≤ e'.createdAt).take limit.toNat)
  else none

end IncidentLens.Evidence
