import IncidentLens.Data.Transaction
import IncidentLens.Evidence.Store

/-!
# Migration of the evidence store

A log-only table of an older release is renamed, its rows are inserted in the unified one and it is dropped, in one
transaction. A row is ignored where its id or its dedupe key is stored, and the rows of a renamed table that is
left over are merged before the unified table is created.
-/
namespace IncidentLens.Evidence.Migration
open Data Logs

inductive Failure
  | operationalError (message : String)
  | valueError (column : String)
  | validationError

/-! ### Tables -/

structure LogEvidence extends EvidenceRef where
  severity : Option LogSeverity := none
  eventTime : Option Time := none
  normalSignal : Option String := none
  correlationKey : Option String := none

structure LegacyRow where
  evidenceRefId : String
  incidentId : String
  evidenceKind : String
  projectId : String
  targetId : String
  serviceName : String
  sourceKind : String
  scope : String
  sourceRef : String
  cursor : String
  contentRedacted : String
  contentSha256 : String
  redactionSummaryJson : String
  severity : String
  eventTime : Option String
  normalSignal : Option String
  correlationKey : Option String
  createdAt : String
  createdBy : String

structure LegacyTable where
  rows : List LegacyRow
  uniqueIds : (rows.map LegacyRow.evidenceRefId).Nodup

structure StoredRow where
  evidence : LogEvidence
  dedupeKey : String

def StoredRow.id (row : StoredRow) : String := row.evidence.evidenceRefId

/-- The unified table: ids are its primary key and dedupe keys are unique. -/
structure EvidenceTable where
  rows : List StoredRow := []
  uniqueIds : (rows.map StoredRow.id).Nodup := by exact List.nodup_nil
  uniqueKeys : (rows.map StoredRow.dedupeKey).Nodup := by exact List.nodup_nil

/-- The table named `evidence_refs`. -/
inductive Refs
  | missing
  | legacy (table : LegacyTable)
  | current (table : EvidenceTable)

/-- `leftover` is the table named `evidence_refs_legacy`. -/
structure Database where
  refs : Refs
  leftover : Option LegacyTable := none

def legacyColumns : List String :=
  ["evidence_ref_id", "incident_id", "evidence_kind", "project_id", "target_id", "service_name", "source_kind", "scope",
    "source_ref", "cursor", "content_redacted", "content_sha256", "redaction_summary_json", "severity", "event_time",
    "normal_signal", "correlation_key", "created_at", "created_by"]

def evidenceColumns : List String :=
  ["evidence_ref_id", "incident_id", "evidence_kind", "agent_run_id", "project_id", "target_id", "service_name",
    "source_ref", "source_kind", "scope", "cursor", "content_redacted", "content_sha256", "redaction_summary_json",
    "truncation_json", "metadata_json", "severity", "event_time", "normal_signal", "correlation_key", "dedupe_key",
    "created_at", "created_by"]

/-- `PRAGMA table_info(evidence_refs)`. -/
def Refs.columns : Refs → List String
  | missing => []
  | legacy _ => legacyColumns
  | current _ => evidenceColumns

def Database.leftoverRows (db : Database) : List LegacyRow := (db.leftover.map LegacyTable.rows).getD []

/-- Every row of the log-only table, whatever its name. -/
def Database.legacyRows (db : Database) : List LegacyRow :=
  db.leftoverRows ++ match db.refs with
    | .legacy table => table.rows
    | _ => []

/-- `EvidenceStore.get`; the statement fails where the table or a column is missing. -/
def Database.get (db : Database) (evidenceRefId : String) : Option LogEvidence :=
  match db.refs with
  | .current table => (table.rows.find? fun row => row.id = evidenceRefId).map StoredRow.evidence
  | _ => none

/-! ### Rows of the older release -/

/-- The member of an enumeration with a value. -/
def byValue {α : Type} (members : List α) (value : α → String) (text : String) : Option α :=
  members.find? fun member => value member = text

lemma value_of_byValue {α : Type} {members : List α} {value : α → String} {text : String} {member : α}
    (h : byValue members value text = some member) : value member = text := by
  simpa using List.find?_some h

def evidenceKindOf : String → Option EvidenceKind :=
  byValue [.logRecord, .commandOutput, .fileSnapshot, .diff, .validationResult, .childReport, .registryDiscovery,
    .approvalDecision, .uncertainState] EvidenceKind.value

def logSourceKindOf : String → Option LogSourceKind := byValue [.file, .docker] LogSourceKind.value

def logScopeOf : String → Option LogScope := byValue [.host, .container] LogScope.value

def logSeverityOf : String → Option LogSeverity :=
  byValue [.trace, .debug, .info, .notice, .warn, .error, .critical, .unknown] LogSeverity.value

/-- `json.loads` with the validation as counts, and `datetime.fromisoformat`. -/
structure Readers where
  summary : String → Option Summary
  time : String → Option Time

section
variable (sha256 : Sha256) (readers : Readers)

/-- A value, or the `ValueError` of its column. -/
def orRaise {α : Type} (column : String) : Option α → Except Failure α
  | some a => .ok a
  | none => .error (.valueError column)

/-- `datetime.fromisoformat(row[14]) if row[14] is not None else None`. -/
def eventTimeOf : Option String → Except Failure (Option Time)
  | none => .ok none
  | some text => (orRaise "event_time" (readers.time text)).map some

/-- `_legacy_evidence_from_row`. -/
def legacyEvidenceFromRow (row : LegacyRow) : Except Failure LogEvidence := do
  let kind ← orRaise "evidence_kind" (evidenceKindOf row.evidenceKind)
  let sourceKind ← orRaise "source_kind" (logSourceKindOf row.sourceKind)
  let scope ← orRaise "scope" (logScopeOf row.scope)
  let summary ← orRaise "redaction_summary_json" (readers.summary row.redactionSummaryJson)
  let severity ← orRaise "severity" (logSeverityOf row.severity)
  let event ← eventTimeOf readers row.eventTime
  let createdAt ← orRaise "created_at" (readers.time row.createdAt)
  let e : LogEvidence :=
    { evidenceRefId := row.evidenceRefId, incidentId := row.incidentId, evidenceKind := kind, agentRunId := none,
      projectId := row.projectId, targetId := row.targetId, serviceName := row.serviceName,
      sourceRef := some row.sourceRef, sourceKind := some sourceKind, scope := some scope, cursor := some row.cursor,
      contentRedacted := row.contentRedacted, contentSha256 := row.contentSha256, redactionSummary := summary,
      createdAt := createdAt, createdBy := row.createdBy, severity := some severity, eventTime := event,
      normalSignal := row.normalSignal, correlationKey := row.correlationKey }
  if e.valid then .ok e else .error .validationError

/-- A row from which evidence can be made: its values are of the enumerations, its texts are read, and its fields are
within their bounds. -/
def LegacyRow.Readable (row : LegacyRow) : Prop := ∃ e, legacyEvidenceFromRow readers row = .ok e

def LegacyRow.dedupeKey (row : LegacyRow) : String :=
  sha256.hexdigest ("|".intercalate [row.evidenceKind, "", row.projectId, row.targetId, row.serviceName, row.sourceRef,
    row.sourceKind, row.scope, row.cursor] ++ "|" ++ metadataJson [] ++ "|" ++ row.contentSha256)

/-! ### Statements -/

/-- The row that evidence is stored in. -/
def LogEvidence.row (e : LogEvidence) : StoredRow := ⟨e, deriveDedupeKey sha256 e.toEvidenceRef⟩

/-- Whether the primary key or the unique key of a row is the one of another. -/
def StoredRow.conflicts (row' row : StoredRow) : Bool := row.id = row'.id || row.dedupeKey = row'.dedupeKey

variable {row : StoredRow}

lemma map_append_nodup {rows : List StoredRow} {field : StoredRow → String}
    (hunique : (rows.map field).Nodup) (hnone : ¬ rows.any row.conflicts)
    (hfield : ∀ row', field row' = field row → row.conflicts row') : ((rows ++ [row]).map field).Nodup := by
  rw [List.map_append, List.map_singleton, List.nodup_append]
  refine ⟨hunique, List.nodup_singleton _, ?_⟩
  intro a ha b hb hab
  obtain ⟨row', hrow', rfl⟩ := List.mem_map.mp ha
  rw [List.mem_singleton.mp hb] at hab
  exact hnone (List.any_eq_true.mpr ⟨row', hrow', hfield row' hab⟩)

lemma conflicts_of_id (row' : StoredRow) (h : row'.id = row.id) : row.conflicts row' := by
  simp [StoredRow.conflicts, h]

lemma conflicts_of_key (row' : StoredRow) (h : row'.dedupeKey = row.dedupeKey) : row.conflicts row' := by
  simp [StoredRow.conflicts, h]

/-- `INSERT OR IGNORE`. -/
def EvidenceTable.insertOrIgnore (table : EvidenceTable) (row : StoredRow) : EvidenceTable :=
  if h : table.rows.any row.conflicts then table
  else
    { rows := table.rows ++ [row]
      uniqueIds := map_append_nodup table.uniqueIds h conflicts_of_id
      uniqueKeys := map_append_nodup table.uniqueKeys h conflicts_of_key }

def insertEvidence (e : LogEvidence) (db : Database) : Except Failure Database :=
  match db.refs with
  | .missing => .error (.operationalError "no such table: evidence_refs")
  | .legacy _ => .error (.operationalError "table evidence_refs has no column named agent_run_id")
  | .current table => .ok { db with refs := .current (table.insertOrIgnore (e.row sha256)) }

def selectLegacyRows (db : Database) : Except Failure Database :=
  match db.leftover with
  | none => .error (.operationalError "no such table: evidence_refs_legacy")
  | some _ => .ok db

/-- `DROP TABLE IF EXISTS evidence_refs_legacy`. -/
def dropLegacyTable (db : Database) : Except Failure Database := .ok { db with leftover := none }

/-- `ALTER TABLE evidence_refs RENAME TO evidence_refs_legacy`, of a table that lacks `dedupe_key`. -/
def renameRefs (db : Database) : Except Failure Database :=
  match db.refs, db.leftover with
  | .legacy table, none => .ok { refs := .missing, leftover := some table }
  | .missing, _ => .error (.operationalError "no such table: evidence_refs")
  | _, _ => .error (.operationalError "there is already another table or index with this name: evidence_refs_legacy")

/-- `CREATE TABLE IF NOT EXISTS evidence_refs`. -/
def createTable (db : Database) : Except Failure Database :=
  match db.refs with
  | .missing => .ok { db with refs := .current {} }
  | _ => .ok db

/-- `CREATE INDEX IF NOT EXISTS` on columns of `evidence_refs`. -/
def createIndex (columns : List String) (db : Database) : Except Failure Database :=
  match db.refs with
  | .missing => .error (.operationalError "no such table: main.evidence_refs")
  | refs =>
    match columns.find? fun column => column ∉ refs.columns with
    | some column => .error (.operationalError ("no such column: " ++ column))
    | none => .ok db

def schemaStatements : List (Database → Except Failure Database) :=
  [createTable, createIndex ["incident_id", "created_at"], createIndex ["agent_run_id", "created_at"],
    createIndex ["evidence_kind", "created_at"], createIndex ["incident_id", "evidence_kind", "created_at"]]

/-! ### The migration -/

def executeAll : List (Database → Except Failure Database) → Script Database Failure
  | [] => .done
  | statement :: statements => .statement statement fun _ => executeAll statements

/-- The loop of `_merge_legacy_rows`. -/
def mergeRows : List LegacyRow → Script Database Failure
  | [] => .done
  | row :: rows => match legacyEvidenceFromRow readers row with
    | .error e => .raise e
    | .ok e => .statement (insertEvidence sha256 e) fun _ => mergeRows rows

def mergeLegacyRows : Script Database Failure :=
  .statement selectLegacyRows fun db =>
    (mergeRows sha256 readers db.leftoverRows).seq (.statement dropLegacyTable fun _ => .done)

/-- `_table_missing_column`, and what follows from its answer. -/
def withMissingColumn (column : String) (next : Bool → Script Database Failure) : Script Database Failure :=
  .statement .ok fun db => match db.refs with
    | .missing => next false
    | _ => .statement .ok fun db => next (column ∉ db.refs.columns)

def upgrade : Script Database Failure :=
  withMissingColumn "dedupe_key" fun isMissing =>
    if isMissing then
      .statement renameRefs fun _ => (executeAll schemaStatements).seq (mergeLegacyRows sha256 readers)
    else executeAll schemaStatements

def migrateScript : Script Database Failure :=
  .statement .ok fun db =>
    (if db.leftover.isSome then mergeLegacyRows sha256 readers else .done).seq (upgrade sha256 readers)

variable (fault : ℕ → Option Failure) (db : Database)

/-- `EvidenceStore.migrate`, with the statements that fail by themselves. -/
def migrate : Session Database × Except Failure Unit := transaction fault (migrateScript sha256 readers) db

/-- The database after a migration none of whose statements fails by itself. -/
def migrated : Database := (migrate sha256 readers (fun _ => none) db).1.committed

end
end IncidentLens.Evidence.Migration
