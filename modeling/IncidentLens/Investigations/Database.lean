import IncidentLens.Investigations.Transcript

/-!
# The tables around a run

Beside the rows of investigations, runs and tool calls a database keeps the order in which
these were created, the transcripts, the delegated tasks, and the reports of ended children
until they are delivered to their parents.
-/
namespace IncidentLens.Investigations
open Data Effects StateError

inductive ChildReportStatus
  | complete | incomplete
  deriving DecidableEq

structure ChildReport where
  agentRunId : String
  parentRunId : String
  status : ChildReportStatus
  summary : String
  findings : List String := []
  evidenceIds : List String := []
  stopReason : StopReason
  createdAt : Time
  deriving DecidableEq

/-- A persisted child report; `deliveredAt` is set once its parent has received it. -/
structure ChildReportReceipt where
  childRunId : String
  parentRunId : String
  report : ChildReport
  evidenceId : String
  deliveredAt : Option Time := none
  deriving DecidableEq

structure DelegatedTaskPackage where
  childRunId : String
  parentRunId : String
  investigationId : String
  taskPrompt : String
  evidenceIds : List String := []
  budget : AgentBudget := {}
  deriving DecidableEq

structure EvidenceRecord where
  evidenceId : String
  contentRedacted : String
  deriving DecidableEq

structure Conclusion where
  summary : String
  evidenceIds : List String
  deriving DecidableEq

structure Database extends Store where
  investigationIds : List String := []
  runIds : List String := []
  toolCallIds : List String := []
  transcripts : String → List Message := fun _ => []
  delegatedTasks : Table DelegatedTaskPackage.childRunId := .empty
  delegatedTaskIds : List String := []
  receipts : Table ChildReportReceipt.childRunId := .empty
  receiptIds : List String := []
  evidence : Table EvidenceRecord.evidenceId := .empty
  conclusions : List (String × Conclusion) := []

inductive Raised
  | store (error : StoreError)
  | evidenceBudgetExceeded
  | keyError (key : String)
  | provider
  | investigationAlreadyTerminal (id : String)
  deriving DecidableEq

abbrev DatabaseM := StateError Raised Database

/-- An operation on the rows of investigations, runs and tool calls. -/
def onStore {α : Type} (m : StoreM α) : DatabaseM α := do
  let db ← get
  let out := m.exec db.toStore
  modify fun db => { db with toStore := out.2 }
  match out.1 with
  | .ok a => pure a
  | .error e => throw (.store e)

@[simp] lemma wp_onStore {α : Type} (m : StoreM α) (Q : Except Raised α → Database → Prop)
    (db : Database) : wp (onStore m) Q db ↔
      wp m (fun r s => Q (r.mapError .store) { db with toStore := s }) db.toStore := by
  change _ ↔ Q ((m.exec db.toStore).1.mapError .store) { db with toStore := (m.exec db.toStore).2 }
  simp only [onStore, wp_bind, wp_get, wp_modify]
  cases (m.exec db.toStore).1 <;> rfl

def transaction {α : Type} (m : DatabaseM α) : DatabaseM α := do
  let db ← get
  let out := m.exec db
  match out.1 with
  | .ok a =>
    modify fun _ => out.2
    pure a
  | .error e => throw e

@[simp] lemma wp_transaction {α : Type} (m : DatabaseM α) (Q : Except Raised α → Database → Prop)
    (db : Database) : wp (transaction m) Q db ↔
      wp m (fun r db' => Q r (match r with | .ok _ => db' | .error _ => db)) db := by
  change _ ↔ Q (m.exec db).1 (match (m.exec db).1 with | .ok _ => (m.exec db).2 | .error _ => db)
  simp only [transaction, wp_bind, wp_get]
  cases (m.exec db).1 <;> rfl

/-! ### Queries -/

def listAgentRuns (db : Database) : List AgentRun := db.runIds.filterMap db.runs.get

/-- `list_agent_runs(investigation_id=…)`. -/
def listRunsOf (db : Database) (investigationId : String) : List AgentRun :=
  (listAgentRuns db).filter (·.investigationId = investigationId)

/-- `list_agent_runs(parent_run_id=…)`. -/
def listChildren (db : Database) (parentRunId : String) : List AgentRun :=
  (listAgentRuns db).filter (·.parentRunId = some parentRunId)

def listToolCalls (db : Database) : List ToolCall := db.toolCallIds.filterMap db.toolCalls.get

def listDelegatedTasks (db : Database) (parentRunId : String) : List DelegatedTaskPackage :=
  (db.delegatedTaskIds.filterMap db.delegatedTasks.get).filter (·.parentRunId = parentRunId)

def listUndeliveredReceipts (db : Database) (parentRunId : String) : List ChildReportReceipt :=
  (db.receiptIds.filterMap db.receipts.get).filter
    fun receipt => receipt.parentRunId = parentRunId ∧ receipt.deliveredAt = none

lemma get_of_mem_listAgentRuns {db : Database} {r : AgentRun} (h : r ∈ listAgentRuns db) :
    db.runs.get r.agentRunId = some r := by
  obtain ⟨id, _, hr⟩ := List.mem_filterMap.mp h
  exact db.runs.get_key hr

/-! ### Writing -/

def createInvestigation (i : Investigation) : DatabaseM PUnit := do
  match (← get).investigations.get i.investigationId with
  | some _ => throw (.store (.alreadyExists i.investigationId))
  | none => modify fun db => { db with
      investigations := db.investigations.put i
      investigationIds := db.investigationIds ++ [i.investigationId] }

/-- `create_agent_run`; a child belongs to the investigation of its parent. -/
def createAgentRun (r : AgentRun) : DatabaseM PUnit := do
  let db ← get
  if r.kind = .child then
    match r.parentRunId.bind db.runs.get with
    | none => throw (.store (.agentRunNotFound (r.parentRunId.getD "None")))
    | some parent =>
      if parent.investigationId ≠ r.investigationId then
        throw (.store (.illegalTransition parent.investigationId r.investigationId))
  match db.runs.get r.agentRunId with
  | some _ => throw (.store (.alreadyExists r.agentRunId))
  | none => modify fun db => { db with
      runs := db.runs.put r
      runIds := db.runIds ++ [r.agentRunId] }

/-- `append_transcript_message`, at the end of a run's transcript. -/
def appendMessage (agentRunId : String) (message : Message) : DatabaseM PUnit :=
  modify fun db => { db with
    transcripts := Function.update db.transcripts agentRunId (db.transcripts agentRunId ++ [message]) }

def recordEvidence (record : EvidenceRecord) : DatabaseM PUnit :=
  modify fun db => { db with evidence := db.evidence.put record }

def getEvidence (evidenceId : String) : DatabaseM EvidenceRecord := do
  match (← get).evidence.get evidenceId with
  | some record => pure record
  | none => throw (.keyError evidenceId)

/-- `put_child_report_receipt`: a receipt is persisted once. -/
def putChildReportReceipt (receipt : ChildReportReceipt) : DatabaseM PUnit := do
  match (← get).receipts.get receipt.childRunId with
  | some existing => if existing = receipt then pure ⟨⟩ else throw (.keyError receipt.childRunId)
  | none => modify fun db => { db with
      receipts := db.receipts.put receipt
      receiptIds := db.receiptIds ++ [receipt.childRunId] }

def createDelegatedTask (package : DelegatedTaskPackage) : DatabaseM PUnit := do
  match (← get).runs.get package.parentRunId with
  | none => throw (.store (.agentRunNotFound package.parentRunId))
  | some parent =>
    if parent.investigationId ≠ package.investigationId then
      throw (.store (.illegalTransition parent.investigationId package.investigationId))
    match (← get).delegatedTasks.get package.childRunId with
    | some _ => throw (.store (.alreadyExists package.childRunId))
    | none => modify fun db => { db with
        delegatedTasks := db.delegatedTasks.put package
        delegatedTaskIds := db.delegatedTaskIds ++ [package.childRunId] }

/-- `deliver_child_report_receipt`: the parent and its investigation with the evidence
attached, the notification, and the mark are written together. -/
def deliverChildReportReceipt (receipt : ChildReportReceipt) (parent : AgentRun)
    (investigation : Investigation) (notification : Message) (now : Time) : DatabaseM PUnit := do
  match (← get).receipts.get receipt.childRunId with
  | none => throw (.keyError receipt.childRunId)
  | some stored =>
    if stored.deliveredAt ≠ none then pure ⟨⟩
    else if parent.kind ≠ .parent then throw (.keyError "receipt delivery entities do not match")
    else transaction do
      onStore (updateAgentRun parent)
      onStore (updateInvestigation investigation)
      appendMessage parent.agentRunId notification
      modify fun db => { db with receipts := db.receipts.put { stored with deliveredAt := some now } }

end IncidentLens.Investigations
