import IncidentLens.Approvals.Store
import IncidentLens.Investigations.Bookings
import IncidentLens.Investigations.Service

/-!
# Resolving an approval

A call parked on an approval is resolved by a decision: a rejection cancels it, a grant executes
it and lands it on the outcome. Up to the execution, and from its end on, no other task runs in
between; while the call is being executed any other task may.
-/
namespace IncidentLens.Investigations
open Data Effects Approvals StateError

/-- `list_waiting_approval_tool_calls` -/
def listWaitingApprovalToolCalls (db : Database) : List ToolCall :=
  (listToolCalls db).filter fun c => c.status = .waitingApproval

/-- `_approval_result_block` -/
def approvalResultBlock (outcome : ToolOutcome) : ToolResultBlock :=
  let content := if outcome.summary = "" then outcome.errorRedacted.getD "" else outcome.summary
  let approvalId := outcome.approvalId.getD ""
  let content := if outcome.status = .waitingApproval ∧ approvalId ≠ "" ∧ content = "" then "approval_id=" ++ approvalId
    else content
  { toolCallId := outcome.toolCallId
    status := outcome.status
    content := String.ofList (content.toList.take 200000)
    evidenceIds := outcome.evidence.map (·.evidenceId) }

/-- `_append_approval_result`; a write that fails is passed over. -/
def appendApprovalResult (written : Bool) (agentRunId : String) (block : ToolResultBlock) : DatabaseM PUnit :=
  if written then appendMessage agentRunId ⟨.user, [.toolResult block]⟩ else pure ⟨⟩

/-- `_run_cancel_pending`, by the investigation that is found. -/
def runCancelPending (run : AgentRun) (investigation : Option Investigation) : Bool :=
  run.status = .cancelRequested || agentRunStateMachine.isTerminal run.status ||
    match investigation with
    | none => true
    | some investigation =>
      investigation.status = .cancelRequested || investigationStateMachine.isTerminal investigation.status

/-- `_RESUMABLE_RUN_STATUSES` -/
def AgentRunStatus.resumable : AgentRunStatus → Bool
  | .waitingApproval | .waitingChildren | .pausedBudget | .pausedMissingEvidence | .pausedUncertainState => true
  | _ => false

def restoreInvestigationRunning (investigationId : String) (now : Time) : DatabaseM PUnit := do
  let investigation ← onStore (getInvestigation investigationId)
  if investigation.status = .waitingApproval then transitionInvestigation investigation .running now none

/-- `_resume_after_decision` up to the loop of the run. -/
def resumeAfterDecision (agentRunId : String) (now : Time) : DatabaseM PUnit := do
  let run ← onStore (getAgentRun agentRunId)
  if run.status.resumable ∧ run.status = .waitingApproval then
    let run ← transitionRun run .running now none
    restoreInvestigationRunning run.investigationId now

/-- The run's part of `_park_uncertain_after_tool`. -/
def parkRunUncertain (run : AgentRun) (now : Time) : DatabaseM PUnit := do
  let current ← onStore (getAgentRun run.agentRunId)
  let current ← if current.status = .waitingApproval then transitionRun current .running now none else pure current
  if current.status = .running then
    let _ ← transitionRun current .pausedUncertainState now (some .uncertainState)

def parkInvestigationUncertain (run : AgentRun) (now : Time) : DatabaseM PUnit := do
  let investigation ← onStore (getInvestigation run.investigationId)
  if investigation.status = .waitingApproval then transitionInvestigation investigation .running now none
  let current ← onStore (getInvestigation run.investigationId)
  if current.status = .running then
    transitionInvestigation current .pausedUncertainState now (some .uncertainState)

/-- `_park_uncertain_after_tool` -/
def parkUncertainAfterTool (run : AgentRun) (now : Time) : DatabaseM PUnit := do
  tryCatch (parkRunUncertain run now) fun error => match error with
    | .store (.illegalTransition _ _) => pure ⟨⟩
    | error => throw error
  if run.kind = .parent then
    tryCatch (parkInvestigationUncertain run now) fun error => match error with
      | .store (.illegalTransition _ _) => pure ⟨⟩
      | .store (.investigationNotFound _) => pure ⟨⟩
      | error => throw error

inductive ApprovalAction
  | cancelled | noop | started
  deriving DecidableEq

/-- `_handle_tool_approval` up to the execution of the call. -/
def handleToolApproval (executor written : Bool) (toolCall : ToolCall) (approval : ApprovalStatus) (now : Time) :
    DatabaseM ApprovalAction := do
  if approval = .rejected then
    onStore (transitionToolCallStatus toolCall.toolCallId .cancelled id)
    appendApprovalResult written toolCall.agentRunId
      { toolCallId := toolCall.toolCallId, status := .cancelled, content := "approval rejected" }
    resumeAfterDecision toolCall.agentRunId now
    return .cancelled
  else if approval ≠ .approved ∨ executor = false then return .noop
  else
    let run ← onStore (getAgentRun toolCall.agentRunId)
    let db ← get
    if runCancelPending run (db.investigations.get run.investigationId) then
      onStore (transitionToolCallStatus toolCall.toolCallId .cancelled fun toolCall => { toolCall with
        errorRedacted := some "run cancelled before the approval could execute" })
      return .cancelled
    else
      onStore (transitionToolCallStatus toolCall.toolCallId .running id)
      return .started

/-- `_handle_tool_approval` from the end of the execution on. -/
def finishToolApproval (written : Bool) (agentRunId : String) (outcome : ToolOutcome) (now : Time) :
    DatabaseM PUnit := do
  onStore (landApproval outcome.toolCallId outcome)
  appendApprovalResult written agentRunId (approvalResultBlock outcome)
  if outcome.status = .uncertain then
    let run ← onStore (getAgentRun agentRunId)
    parkUncertainAfterTool run now
  else resumeAfterDecision agentRunId now

/-! ### Resolutions among other tasks -/

inductive Write
  | createInvestigation (i : Investigation)
  | createRun (r : AgentRun)
  | createCall (c : ToolCall)
  | moveInvestigation (investigationId : String) (target : InvestigationStatus) (now : Time)
  | moveRun (agentRunId : String) (target : AgentRunStatus) (now : Time)
  | moveCall (toolCallId : String) (target : ToolCallStatus) (approvalId : Option String)
  | updateInvestigation (i : Investigation)
  | updateRun (r : AgentRun)
  | append (agentRunId : String) (message : Message)

def createListedToolCall (c : ToolCall) : DatabaseM PUnit := do
  onStore (createToolCall c)
  modify fun db => { db with toolCallIds := db.toolCallIds ++ [c.toolCallId] }

def Write.run : Write → DatabaseM PUnit
  | createInvestigation i => Investigations.createInvestigation i
  | createRun r => createAgentRun r
  | createCall c => createListedToolCall c
  | moveInvestigation investigationId target now => onStore (transitionInvestigationStatus investigationId target now none)
  | moveRun agentRunId target now => onStore (transitionAgentRunStatus agentRunId target now none)
  | moveCall toolCallId target approvalId => onStore (transitionToolCallStatus toolCallId target fun c =>
      { c with approvalId := approvalId.orElse fun _ => c.approvalId })
  | updateInvestigation i => onStore (Investigations.updateInvestigation i)
  | updateRun r => onStore (updateAgentRun r)
  | append agentRunId message => appendMessage agentRunId message

structure Executing where
  toolCallId : String
  agentRunId : String
  approvalId : Option String

/-- An execution that was started; `late` when the run or its investigation had ended or was to be
cancelled at some time before. -/
structure Started where
  toolCallId : String
  late : Bool

/-- The database and the approvals; the calls being executed and those whose approval could not be
consumed; and, of the time before, the executions, the blocks that resolutions placed in
transcripts, and which runs and investigations had ended or were to be cancelled. -/
structure World where
  db : Database
  approvals : Rows
  executing : List Executing := []
  refused : List String := []
  started : List Started := []
  placed : List (String × ToolResultBlock) := []
  runsOver : String → Bool := fun _ => false
  investigationsOver : String → Bool := fun _ => false

def AgentRunStatus.over (status : AgentRunStatus) : Bool :=
  status = .cancelRequested || agentRunStateMachine.isTerminal status

def InvestigationStatus.over (status : InvestigationStatus) : Bool :=
  status = .cancelRequested || investigationStateMachine.isTerminal status

namespace World

def note (w : World) : World :=
  { w with
    runsOver := fun id => w.runsOver id || (w.db.runs.get id).any fun r => r.status.over
    investigationsOver := fun id => w.investigationsOver id || (w.db.investigations.get id).any fun i => i.status.over }

/-- The blocks that a task has added to the transcript of a run. -/
def added (agentRunId : String) (db db' : Database) : List (String × ToolResultBlock) :=
  (((db'.transcripts agentRunId).drop (db.transcripts agentRunId).length).flatMap Message.blocks).filterMap fun block =>
    match block with
    | .toolResult block => some (agentRunId, block)
    | _ => none

def isLate (w : World) (agentRunId : String) : Bool :=
  w.runsOver agentRunId || (w.db.runs.get agentRunId).any fun r => w.investigationsOver r.investigationId

/-- `handle_approval_decision` on the call that waits for the approval. -/
def resolve (w : World) (executor written : Bool) (toolCall : ToolCall) (approval : ApprovalStatus) (now : Time) : World :=
  let out := (handleToolApproval executor written toolCall approval now).exec w.db
  let w' := { w with db := out.2, placed := w.placed ++ added toolCall.agentRunId w.db out.2 }
  match out.1 with
  | .ok .started => { w' with
      executing := ⟨toolCall.toolCallId, toolCall.agentRunId, toolCall.approvalId⟩ :: w'.executing
      started := ⟨toolCall.toolCallId, w.isLate toolCall.agentRunId⟩ :: w'.started }
  | _ => w'

/-- The execution of a call ends with an outcome. -/
def finish (w : World) (call : Executing) (outcome : ToolOutcome) (written : Bool) (now : Time) : World :=
  let out := (finishToolApproval written call.agentRunId outcome now).exec w.db
  { w with db := out.2, placed := w.placed ++ added call.agentRunId w.db out.2 }

end World

/-- `resolve` runs up to the execution, `finish` from its end; the executor answers nothing when it
raises. `written` tells whether the transcript can be written. -/
inductive Label
  | resolve (approvalId : String) (now : Time) (written : Bool)
  | consume (toolCallId : String) (c : Consumption)
  | finish (toolCallId : String) (answer : Option ToolOutcome) (now : Time) (written : Bool)
  | cancel (investigationId : String) (now : Time)
  | cancelRun (agentRunId : String) (now : Time)
  | decide (d : Decision)
  | request (r : Approvals.Request)
  | other (write : Write)

/-- What the executor reports of a call, given whether its approval was refused. -/
def reported (refused : Bool) (toolCallId : String) (answer : ToolOutcome) : Option ToolOutcome :=
  if refused then some { answer with toolCallId := toolCallId, status := .waitingApproval, evidence := [] }
  else if answer.status.executed then some { answer with toolCallId := toolCallId }
  else none

/-- Other tasks park only calls that they execute themselves. -/
def Write.permitted (w : World) : Write → Bool
  | .moveCall toolCallId target _ => target ≠ .waitingApproval || !(w.started.map Started.toolCallId).contains toolCallId
  | _ => true

section Step
variable (sha256 : Bytes → String) (executor : Bool)

def World.advance (w : World) : Label → Option World
  | .resolve approvalId now written =>
    match w.approvals.get approvalId with
    | none => some w
    | some approval =>
      match (listWaitingApprovalToolCalls w.db).find? fun c => c.approvalId = some approvalId with
      | none => some w
      | some toolCall => some (w.resolve executor written toolCall approval.status now)
  | .consume toolCallId c =>
    if w.executing.any fun call => call.toolCallId = toolCallId ∧ call.approvalId = some c.approvalId then
      match c.read sha256 w.approvals, c.update w.approvals with
      | .ok _, .ok approvals => some { w with approvals := approvals }
      | _, _ => some { w with refused := toolCallId :: w.refused }
    else none
  | .finish toolCallId answer now written =>
    match w.executing.find? fun call => call.toolCallId = toolCallId with
    | none => none
    | some call =>
      let w' := { w with executing := w.executing.filter fun call => call.toolCallId ≠ toolCallId }
      match answer with
      | none => some w'
      | some answer => (reported (w.refused.contains toolCallId) toolCallId answer).map fun outcome =>
          w'.finish call outcome written now
  | .cancel investigationId now => some { w with db := ((Investigations.cancel investigationId now).exec w.db).2 }
  | .cancelRun agentRunId now => some { w with db := ((Investigations.cancelRun agentRunId now).exec w.db).2 }
  | .decide d => match d.select w.approvals with
    | .error _ => some w
    | .ok _ => match d.update w.approvals with
      | .error _ => some w
      | .ok approvals => some { w with approvals := approvals }
  | .request r => match create sha256 w.approvals r with
    | .error _ => some w
    | .ok approvals => some { w with approvals := approvals }
  | .other write => if write.permitted w then some { w with db := (write.run.exec w.db).2 } else none

/-- Resolutions among the other tasks, from any database. -/
def resolutions (db : Database) (approvals : Rows) : System World Label where
  init := World.note { db := db, approvals := approvals }
  step w label := (w.advance sha256 executor label).map World.note

/-- An approval that an execution consumes is stored with the hash of the intent, approved, not yet
consumed and not expired. -/
def Consumable (w : World) : Label → Prop
  | .consume _ c => ∃ row, w.approvals.get c.approvalId = some row ∧
      intentSha256 sha256 c.intent = row.intentSha256 ∧ row.status = .approved ∧ row.consumedAt = none ∧
      c.now.isoformat < row.expiresAt
  | _ => True

end Step

end IncidentLens.Investigations
