import IncidentLens.Data.Bytes
import IncidentLens.Investigations.Guard

/-!
# Tool batches

`_execute_batch` has three parts: a gate that no other task can interrupt, the concurrent
execution of the calls that passed, and a fold of their outcomes that again runs without
interruption. The first and the last are given here.
-/
namespace IncidentLens.Investigations
open Data Effects

structure ToolRequest where
  toolCallId : String
  toolName : String
  deriving DecidableEq

structure ToolOutcome where
  toolCallId : String
  status : ToolCallStatus
  evidence : List EvidenceReference := []
  summary : String := ""
  outputBytes : ℕ := 0
  approvalId : Option String := none
  errorRedacted : Option String := none
  deriving DecidableEq

structure ToolResultBlock where
  toolCallId : String
  status : ToolCallStatus
  content : String
  evidenceIds : List String := []
  deriving DecidableEq

/-- `word in text`. -/
def mentions (text word : String) : Bool := contains word.toList text.toList

def pauseStatusFor (reason : String) : AgentRunStatus :=
  if mentions reason "no-new-evidence" || mentions reason "no new evidence" then .pausedMissingEvidence
  else .pausedBudget

def stopReasonFor (reason : String) : StopReason :=
  if mentions reason "round" then .budgetRounds
  else if mentions reason "tool-call" then .budgetToolCalls
  else if mentions reason "wall-clock" || mentions reason "wall clock" then .budgetTime
  else if mentions reason "no-new-evidence" || mentions reason "no new evidence" then .budgetNoNewEvidence
  else if mentions reason "output" then .budgetOutput
  else if mentions reason "evidence budget" then .budgetEvidence
  else if mentions reason "child budget" then .budgetChildren
  else .budgetRounds

def investigationPause : AgentRunStatus → InvestigationStatus
  | .waitingApproval => .waitingApproval
  | .pausedMissingEvidence => .pausedMissingEvidence
  | .pausedUncertainState => .pausedUncertainState
  | _ => .pausedBudget

def pause (run : AgentRun) (investigation : Investigation) (runStatus : AgentRunStatus)
    (stopReason : StopReason) (now : Time) : StoreM PUnit := do
  transitionAgentRunStatus run.agentRunId runStatus now (some stopReason)
  if run.kind = .parent then
    transitionInvestigationStatus investigation.investigationId (investigationPause runStatus) now
      (some stopReason)

def pauseRound (run : AgentRun) (investigation : Investigation) (runStatus : AgentRunStatus)
    (stopReason : StopReason) (now : Time) : StoreM PUnit := do
  if run.status = .running then pause run investigation runStatus stopReason now

/-- `_load_or_create_tool_call`. -/
def loadOrCreateToolCall (run : AgentRun) (request : ToolRequest) : StoreM ToolCall := do
  match (← get).toolCalls.get request.toolCallId with
  | some toolCall => pure toolCall
  | none =>
    let toolCall : ToolCall :=
      { toolCallId := request.toolCallId, agentRunId := run.agentRunId
        toolName := request.toolName, status := .planned }
    createToolCall toolCall
    pure toolCall

/-- `_bump_usage(run, tool_calls=n)`. -/
def AgentRun.withToolCalls (run : AgentRun) (n : ℕ) : AgentRun := { run with usage := { run.usage with toolCalls := n } }

/-- `_bump_investigation_usage(investigation, tool_calls=n)`. -/
def Investigation.withToolCalls (investigation : Investigation) (n : ℕ) : Investigation :=
  { investigation with usage := { investigation.usage with toolCalls := n } }

/-- How the gate answered one request. -/
inductive Gated
  | stopped
  | resolved (block : ToolResultBlock)
  | started

def refuse (run : AgentRun) (investigation : Investigation) (reason : String) (now : Time) :
    StoreM Gated := do
  pause run investigation (pauseStatusFor reason) (stopReasonFor reason) now
  return .stopped

def admitRequest (run : AgentRun) (request : ToolRequest) : StoreM Gated := do
  let toolCall ← loadOrCreateToolCall run request
  if toolCallStateMachine.isTerminal toolCall.status then
    return .resolved ⟨request.toolCallId, toolCall.status, "tool call already resolved", []⟩
  if toolCall.status ≠ .running then
    transitionToolCallStatus toolCall.toolCallId .running id
  return .started

/-- One turn of the gate loop. Both simulated counters are set to the run's `reserved`. -/
def gateRequest (agentRunId : String) (reserved : ℕ) (request : ToolRequest) (now : Time) :
    StoreM Gated := do
  let run ← getAgentRun agentRunId
  let investigation ← getInvestigation run.investigationId
  let verdict := checkBeforeToolExecution (run.withToolCalls reserved) now
  let verdictInv := checkInvestigationBeforeToolExecution (investigation.withToolCalls reserved) now
  if verdict.1 = false then refuse run investigation verdict.2 now
  else if verdictInv.1 = false then refuse run investigation verdictInv.2 now
  else admitRequest run request

/-- The requests that start, the blocks of the resolved ones, and whether the round stops. -/
structure GateResult where
  pending : List ToolRequest := []
  terminalBlocks : List ToolResultBlock := []
  stop : Bool := false

def gateBatch (agentRunId : String) (now : Time) : ℕ → List ToolRequest → StoreM GateResult
  | _, [] => pure {}
  | reserved, request :: batch => do
    match ← gateRequest agentRunId reserved request now with
    | .stopped => pure { stop := true }
    | .resolved block =>
      let rest ← gateBatch agentRunId now (reserved + 1) batch
      pure { rest with terminalBlocks := block :: rest.terminalBlocks }
    | .started =>
      let rest ← gateBatch agentRunId now (reserved + 1) batch
      pure { rest with pending := request :: rest.pending }

/-- The gate of `_execute_batch`. -/
def gate (agentRunId : String) (batch : List ToolRequest) (now : Time) : StoreM GateResult := do
  let run ← getAgentRun agentRunId
  gateBatch agentRunId now run.usage.toolCalls batch

/-- `_append_evidence`, `none` where it raises `_EvidenceBudgetExceeded`. -/
def appendEvidence (run : AgentRun) (investigation : Investigation) (refs : List EvidenceReference) :
    Option (AgentRun × ℕ) :=
  let newRefs := refs.filter fun ref => !(run.evidence.map (·.evidenceId)).contains ref.evidenceId
  if newRefs = [] then some (run, 0)
  else if (canAcceptNewEvidence run).1 = false then none
  else if run.usage.evidenceCount + newRefs.length > run.budget.maxEvidence then none
  else if (canInvestigationAcceptNewEvidence investigation).1 = false then none
  else if investigation.usage.evidenceCount + newRefs.length > investigation.budget.maxEvidence then none
  else
    let evidence := run.evidence ++ newRefs
    some ({ run with evidence := evidence, usage := { run.usage with evidenceCount := evidence.length } },
      newRefs.length)

def recordOutcome (outcome : ToolOutcome) (toolCall : ToolCall) : ToolCall :=
  { toolCall with
    outputBytes := outcome.outputBytes
    evidenceIds := outcome.evidence.map (·.evidenceId)
    errorRedacted := outcome.errorRedacted.orElse fun _ => toolCall.errorRedacted }

/-- The outcome asks for an approval: the call parks. -/
def parkOnApproval (run : AgentRun) (investigation : Investigation) (request : ToolRequest)
    (outcome : ToolOutcome) (now : Time) : StoreM Bool := do
  transitionToolCallStatus request.toolCallId .waitingApproval
    fun toolCall => { toolCall with approvalId := outcome.approvalId.orElse fun _ => toolCall.approvalId }
  updateAgentRun run
  updateInvestigation investigation
  pauseRound run investigation .waitingApproval .pendingApproval now
  return true

/-- The run after an outcome whose evidence was attached. -/
def countRun (run : AgentRun) (outcome : ToolOutcome) : AgentRun :=
  { run with usage := { run.usage with
      toolCalls := run.usage.toolCalls + 1
      totalOutputBytes := run.usage.totalOutputBytes + outcome.outputBytes } }

def countInvestigation (investigation : Investigation) (outcome : ToolOutcome) (newEvidence : ℕ) : Investigation :=
  { investigation with usage := { investigation.usage with
      toolCalls := investigation.usage.toolCalls + 1
      totalOutputBytes := investigation.usage.totalOutputBytes + outcome.outputBytes
      evidenceCount := investigation.usage.evidenceCount + newEvidence } }

/-- The part of `_fold_tool_outcome` behind the output budgets. -/
def keepOutcome (run : AgentRun) (investigation : Investigation) (outcome : ToolOutcome) (now : Time) :
    StoreM Bool := do
  match appendEvidence run investigation outcome.evidence with
  | none =>
    pauseRound run investigation .pausedBudget .budgetEvidence now
    return true
  | some (run, newEvidence) =>
    let run := countRun run outcome
    let investigation := countInvestigation investigation outcome newEvidence
    updateAgentRun run
    updateInvestigation investigation
    if outcome.status = .uncertain then
      pauseRound run investigation .pausedUncertainState .uncertainState now
      return true
    return false

/-- `_fold_tool_outcome`; answers whether the round stops. -/
def foldToolOutcome (run : AgentRun) (investigation : Investigation) (request : ToolRequest)
    (outcome : ToolOutcome) (now : Time) : StoreM Bool := do
  if outcome.status = .waitingApproval then parkOnApproval run investigation request outcome now
  else
    transitionToolCallStatus request.toolCallId outcome.status (recordOutcome outcome)
    if (canAcceptOutput run outcome.outputBytes).1 = false ∨
        (canInvestigationAcceptOutput investigation outcome.outputBytes).1 = false then
      pauseRound run investigation .pausedBudget .budgetOutput now
      return true
    else keepOutcome run investigation outcome now

/-- The folds of `_execute_batch`, in request order. -/
def foldBatch (agentRunId : String) (outcomes : List ToolOutcome) (now : Time) : List ToolRequest → StoreM Bool
  | [] => pure false
  | request :: pending => do
    match outcomes.find? (·.toolCallId = request.toolCallId) with
    | none => throw .missingOutcome
    | some outcome =>
      let run ← getAgentRun agentRunId
      let investigation ← getInvestigation run.investigationId
      let stop ← foldToolOutcome run investigation request outcome now
      let rest ← foldBatch agentRunId outcomes now pending
      pure (stop || rest)

end IncidentLens.Investigations
