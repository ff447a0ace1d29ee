import IncidentLens.Data.Table
import IncidentLens.Effects.StateError
import IncidentLens.Investigations.StateMachine
import Mathlib.Data.Int.Notation
import Mathlib.Data.Nat.Notation

/-!
# The investigation store

Investigations, agent runs and tool calls by id. A status moves through `transition…` only;
`update…` replaces a record whose status is still the one it was read with.
-/
namespace IncidentLens.Investigations
open Data Effects

/-- Microseconds since the epoch. -/
abbrev Time := ℤ

inductive StopReason
  | completed | budgetRounds | budgetToolCalls | budgetTime | budgetOutput | budgetEvidence
  | budgetChildren | budgetNoNewEvidence | missingEvidence | pendingApproval | uncertainState
  | cancelled | failed
  deriving DecidableEq

structure InvestigationBudget where
  maxRounds : ℕ := 32
  maxToolCalls : ℕ := 64
  maxChildren : ℕ := 4
  maxWallClockSeconds : ℕ := 7200
  maxTotalOutputBytes : ℕ := 16 * 1024 * 1024
  maxEvidence : ℕ := 300
  maxNoNewEvidenceRounds : ℕ := 3
  deriving DecidableEq

structure AgentBudget where
  maxRounds : ℕ := 8
  maxToolCalls : ℕ := 16
  maxWallClockSeconds : ℕ := 1800
  maxOutputBytesPerTool : ℕ := 512 * 1024
  maxTotalOutputBytes : ℕ := 4 * 1024 * 1024
  maxEvidence : ℕ := 100
  maxNoNewEvidenceRounds : ℕ := 3
  deriving DecidableEq

structure UsageCounters where
  rounds : ℕ := 0
  toolCalls : ℕ := 0
  children : ℕ := 0
  totalOutputBytes : ℕ := 0
  evidenceCount : ℕ := 0
  consecutiveNoNewEvidenceRounds : ℕ := 0
  deriving DecidableEq

structure EvidenceReference where
  evidenceId : String
  operationId : String
  summary : String
  deriving DecidableEq

structure Investigation where
  investigationId : String
  status : InvestigationStatus
  budget : InvestigationBudget
  usage : UsageCounters
  stopReason : Option StopReason := none
  startedAt : Option Time := none
  deriving DecidableEq

inductive AgentRunKind
  | parent | child
  deriving DecidableEq

structure AgentRun where
  agentRunId : String
  investigationId : String
  parentRunId : Option String
  kind : AgentRunKind
  status : AgentRunStatus
  budget : AgentBudget
  usage : UsageCounters
  stopReason : Option StopReason := none
  evidence : List EvidenceReference := []
  startedAt : Option Time := none
  deriving DecidableEq

structure ToolCall where
  toolCallId : String
  agentRunId : String
  toolName : String
  status : ToolCallStatus
  outputBytes : ℕ := 0
  evidenceIds : List String := []
  approvalId : Option String := none
  errorRedacted : Option String := none
  deriving DecidableEq

structure Store where
  investigations : Table Investigation.investigationId := .empty
  runs : Table AgentRun.agentRunId := .empty
  toolCalls : Table ToolCall.toolCallId := .empty

inductive StoreError
  | investigationNotFound (id : String)
  | agentRunNotFound (id : String)
  | toolCallNotFound (id : String)
  | alreadyExists (id : String)
  | illegalTransition (current target : String)
  | concurrentModification (id : String)
  | missingOutcome
  deriving DecidableEq

abbrev StoreM := StateError StoreError Store

def getInvestigation (id : String) : StoreM Investigation := do
  match (← get).investigations.get id with
  | some investigation => pure investigation
  | none => throw (.investigationNotFound id)

def getAgentRun (id : String) : StoreM AgentRun := do
  match (← get).runs.get id with
  | some run => pure run
  | none => throw (.agentRunNotFound id)

def getToolCall (id : String) : StoreM ToolCall := do
  match (← get).toolCalls.get id with
  | some toolCall => pure toolCall
  | none => throw (.toolCallNotFound id)

def putInvestigation (i : Investigation) : StoreM PUnit :=
  modify fun s => { s with investigations := s.investigations.put i }

def putAgentRun (r : AgentRun) : StoreM PUnit := modify fun s => { s with runs := s.runs.put r }

def putToolCall (c : ToolCall) : StoreM PUnit := modify fun s => { s with toolCalls := s.toolCalls.put c }

def transitionInvestigationStatus (id : String) (target : InvestigationStatus) (now : Time)
    (stopReason : Option StopReason) : StoreM PUnit := do
  let current ← getInvestigation id
  if investigationStateMachine.canTransition current.status target then
    putInvestigation { current with
      status := target
      startedAt := if target = .running ∧ current.startedAt = none then some now else current.startedAt
      stopReason := stopReason.orElse fun _ => current.stopReason }
  else throw (.illegalTransition current.status.value target.value)

def transitionAgentRunStatus (id : String) (target : AgentRunStatus) (now : Time)
    (stopReason : Option StopReason) : StoreM PUnit := do
  let current ← getAgentRun id
  if agentRunStateMachine.canTransition current.status target then
    putAgentRun { current with
      status := target
      startedAt := if target = .running ∧ current.startedAt = none then some now else current.startedAt
      stopReason := stopReason.orElse fun _ => current.stopReason }
  else throw (.illegalTransition current.status.value target.value)

/-- `transition_tool_call_status`; `record` holds the optional updates. -/
def transitionToolCallStatus (id : String) (target : ToolCallStatus)
    (record : ToolCall → ToolCall) : StoreM PUnit := do
  let current ← getToolCall id
  if toolCallStateMachine.canTransition current.status target then
    putToolCall { record current with toolCallId := current.toolCallId, status := target }
  else throw (.illegalTransition current.status.value target.value)

def updateInvestigation (i : Investigation) : StoreM PUnit := do
  match (← get).investigations.get i.investigationId with
  | none => throw (.investigationNotFound i.investigationId)
  | some stored =>
    if stored.status = i.status then putInvestigation i
    else throw (.concurrentModification i.investigationId)

def updateAgentRun (r : AgentRun) : StoreM PUnit := do
  match (← get).runs.get r.agentRunId with
  | none => throw (.agentRunNotFound r.agentRunId)
  | some stored =>
    if stored.status = r.status then putAgentRun r
    else throw (.concurrentModification r.agentRunId)

def createToolCall (c : ToolCall) : StoreM PUnit := do
  match (← get).toolCalls.get c.toolCallId with
  | none => putToolCall c
  | some _ => throw (.alreadyExists c.toolCallId)

end IncidentLens.Investigations
