import Mathlib.Init

/-!
# Status tables

The lifecycles of investigations, agent runs and tool calls: one table for each, read by a
single state machine.
-/
namespace IncidentLens.Investigations

inductive InvestigationStatus
  | created | running | waitingApproval | waitingRegistryUpdate | pausedBudget
  | pausedMissingEvidence | pausedUncertainState | cancelRequested | cancelled | failed | completed
  deriving DecidableEq

inductive AgentRunStatus
  | created | running | waitingTool | waitingChildren | waitingApproval | pausedBudget
  | pausedMissingEvidence | pausedUncertainState | cancelRequested | cancelled | failed | completed
  deriving DecidableEq

inductive ToolCallStatus
  | planned | waitingApproval | running | succeeded | failed | uncertain | cancelled
  deriving DecidableEq

def InvestigationStatus.value : InvestigationStatus → String
  | created => "created"
  | running => "running"
  | waitingApproval => "waiting_approval"
  | waitingRegistryUpdate => "waiting_registry_update"
  | pausedBudget => "paused_budget"
  | pausedMissingEvidence => "paused_missing_evidence"
  | pausedUncertainState => "paused_uncertain_state"
  | cancelRequested => "cancel_requested"
  | cancelled => "cancelled"
  | failed => "failed"
  | completed => "completed"

def AgentRunStatus.value : AgentRunStatus → String
  | created => "created"
  | running => "running"
  | waitingTool => "waiting_tool"
  | waitingChildren => "waiting_children"
  | waitingApproval => "waiting_approval"
  | pausedBudget => "paused_budget"
  | pausedMissingEvidence => "paused_missing_evidence"
  | pausedUncertainState => "paused_uncertain_state"
  | cancelRequested => "cancel_requested"
  | cancelled => "cancelled"
  | failed => "failed"
  | completed => "completed"

def ToolCallStatus.value : ToolCallStatus → String
  | planned => "planned"
  | waitingApproval => "waiting_approval"
  | running => "running"
  | succeeded => "succeeded"
  | failed => "failed"
  | uncertain => "uncertain"
  | cancelled => "cancelled"

/-- A transition table with its absorbing states. -/
structure StateMachine (α : Type) [DecidableEq α] where
  transitions : α → List α
  terminal : List α
  absorbing : ∀ a ∈ terminal, transitions a = []

namespace StateMachine
variable {α : Type} [DecidableEq α] (M : StateMachine α)

def canTransition (current target : α) : Bool := (M.transitions current).contains target

def isTerminal (status : α) : Bool := M.terminal.contains status

lemma not_canTransition_of_isTerminal {current target : α} (h : M.isTerminal current = true) :
    M.canTransition current target = false := by
  rw [isTerminal, List.contains_iff_mem] at h
  rw [canTransition, M.absorbing current h]
  rfl

end StateMachine

def investigationTransitions : InvestigationStatus → List InvestigationStatus
  | .created => [.running, .failed, .cancelled]
  | .running => [.waitingApproval, .waitingRegistryUpdate, .pausedBudget, .pausedMissingEvidence,
      .pausedUncertainState, .cancelRequested, .failed, .completed]
  | .waitingApproval | .waitingRegistryUpdate | .pausedBudget | .pausedMissingEvidence
  | .pausedUncertainState => [.running, .cancelRequested, .failed]
  | .cancelRequested => [.cancelled, .failed]
  | .cancelled | .failed | .completed => []

def agentRunTransitions : AgentRunStatus → List AgentRunStatus
  | .created => [.running, .failed, .cancelled]
  | .running => [.waitingTool, .waitingChildren, .waitingApproval, .pausedBudget,
      .pausedMissingEvidence, .pausedUncertainState, .cancelRequested, .failed, .completed]
  | .waitingTool | .waitingChildren | .waitingApproval | .pausedBudget | .pausedMissingEvidence
  | .pausedUncertainState => [.running, .cancelRequested, .failed]
  | .cancelRequested => [.cancelled, .failed]
  | .cancelled | .failed | .completed => []

def toolCallTransitions : ToolCallStatus → List ToolCallStatus
  | .planned => [.waitingApproval, .running, .succeeded, .failed, .uncertain, .cancelled]
  | .waitingApproval => [.running, .failed, .cancelled]
  | .running => [.waitingApproval, .succeeded, .failed, .uncertain, .cancelled]
  | .succeeded | .failed | .uncertain | .cancelled => []

def investigationStateMachine : StateMachine InvestigationStatus :=
  ⟨investigationTransitions, [.cancelled, .failed, .completed], by decide⟩

def agentRunStateMachine : StateMachine AgentRunStatus :=
  ⟨agentRunTransitions, [.cancelled, .failed, .completed], by decide⟩

def toolCallStateMachine : StateMachine ToolCallStatus :=
  ⟨toolCallTransitions, [.succeeded, .failed, .uncertain, .cancelled], by decide⟩

end IncidentLens.Investigations
