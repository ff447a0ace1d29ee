import IncidentLens.Data.StatusTable
import IncidentLens.Effects.Runs
import IncidentLens.Investigations.Store
import IncidentLens.Logs.Redaction

/-!
# The store, statement by statement

An update is one statement of the database; a transition is a SELECT and, later, an UPDATE that
asks for the status read. The statements of any number of writers interleave freely.
-/
namespace IncidentLens.Investigations
open Data Data.RecordKind Effects InvestigationStatus ToolCallStatus AgentRunStatus

lemma InvestigationStatus.value_injective : Function.Injective InvestigationStatus.value := by
  intro a b h
  cases a <;> cases b <;> first | rfl | (revert h; decide)

lemma AgentRunStatus.value_injective : Function.Injective AgentRunStatus.value := by
  intro a b h
  cases a <;> cases b <;> first | rfl | (revert h; decide)

lemma ToolCallStatus.value_injective : Function.Injective ToolCallStatus.value := by
  intro a b h
  cases a <;> cases b <;> first | rfl | (revert h; decide)

def investigationKind : RecordKind Investigation InvestigationStatus UsageCounters Unit where
  key := Investigation.investigationId
  columns _ := ()
  status := Investigation.status
  usage := Investigation.usage
  value := value
  value_injective := value_injective
  moves := investigationStateMachine.canTransition
  terminal := investigationStateMachine.isTerminal
  absorbing _ _ h := investigationStateMachine.not_canTransition_of_isTerminal h
  admits _ _ := true

/-- The column of a run is its investigation: that of the parent for a child's run. -/
def agentRunKind : RecordKind AgentRun AgentRunStatus UsageCounters String where
  key := AgentRun.agentRunId
  columns := AgentRun.investigationId
  status := AgentRun.status
  usage := AgentRun.usage
  value := value
  value_injective := value_injective
  moves := agentRunStateMachine.canTransition
  terminal := agentRunStateMachine.isTerminal
  absorbing _ _ h := agentRunStateMachine.not_canTransition_of_isTerminal h
  admits columns run := run.kind ≠ .child ∨ run.parentRunId.bind columns = some run.investigationId

def toolCallKind : RecordKind ToolCall ToolCallStatus Unit String where
  key := ToolCall.toolCallId
  columns := ToolCall.agentRunId
  status := ToolCall.status
  usage _ := ()
  value := value
  value_injective := value_injective
  moves := toolCallStateMachine.canTransition
  terminal := toolCallStateMachine.isTerminal
  absorbing _ _ h := toolCallStateMachine.not_canTransition_of_isTerminal h
  admits _ _ := true

def investigationMove (id : String) (target : InvestigationStatus) (now : Time)
    (stopReason : Option StopReason) : investigationKind.Move where
  key := id
  target := target
  derive current := some { current with
    status := target
    startedAt := if target = .running ∧ current.startedAt = none then some now else current.startedAt
    stopReason := stopReason.orElse fun _ => current.stopReason }
  derived r r' h := by
    obtain rfl := Option.some.inj h
    exact ⟨rfl, rfl, rfl⟩

def agentRunMove (id : String) (target : AgentRunStatus) (now : Time)
    (stopReason : Option StopReason) : agentRunKind.Move where
  key := id
  target := target
  derive current := some { current with
    status := target
    startedAt := if target = .running ∧ current.startedAt = none then some now else current.startedAt
    stopReason := stopReason.orElse fun _ => current.stopReason }
  derived r r' h := by
    obtain rfl := Option.some.inj h
    exact ⟨rfl, rfl, rfl⟩

/-- The optional arguments of `transition_tool_call_status`. -/
structure ToolCallUpdates where
  outputBytes : Option ℕ := none
  evidenceIds : Option (List String) := none
  errorRedacted : Option String := none
  approvalId : Option String := none

/-- `_validate_unique_citations`. -/
def uniqueCitations (value : List String) : Bool :=
  value.all (fun citation => !citation.toList.all Logs.isWhitespace) && decide value.Nodup

/-- The bounds of the fields that a transition of a tool call may write. -/
def ToolCall.valid (c : ToolCall) : Bool :=
  decide (c.evidenceIds.length ≤ 24) && uniqueCitations c.evidenceIds &&
    (c.approvalId.all fun id => decide (id.length ≤ 120)) &&
    (c.errorRedacted.all fun text => decide (text.length ≤ 2000))

def toolCallMove (id : String) (target : ToolCallStatus) (updates : ToolCallUpdates) : toolCallKind.Move where
  key := id
  target := target
  derive current :=
    let updated := { current with
      status := target
      outputBytes := updates.outputBytes.getD current.outputBytes
      evidenceIds := updates.evidenceIds.getD current.evidenceIds
      errorRedacted := updates.errorRedacted.orElse fun _ => current.errorRedacted
      approvalId := updates.approvalId.orElse fun _ => current.approvalId }
    if updated.valid then some updated else none
  derived r r' h := by
    obtain rfl := Option.some.inj (Option.ite_none_right_eq_some.mp h).2
    exact ⟨rfl, rfl, rfl⟩

/-- The tables with the transitions under way and all that was written. -/
structure Sheets where
  investigations : Sheet Investigation InvestigationStatus Unit := {}
  runs : Sheet AgentRun AgentRunStatus String := {}
  toolCalls : Sheet ToolCall ToolCallStatus String := {}

inductive Statement
  | createInvestigation (i : Investigation)
  | updateInvestigation (i : Investigation)
  | selectInvestigation (writer : ℕ) (id : String) (target : InvestigationStatus) (now : Time)
      (stopReason : Option StopReason)
  | writeInvestigation (writer : ℕ)
  | createAgentRun (r : AgentRun)
  | updateAgentRun (r : AgentRun)
  | selectAgentRun (writer : ℕ) (id : String) (target : AgentRunStatus) (now : Time)
      (stopReason : Option StopReason)
  | writeAgentRun (writer : ℕ)
  | createToolCall (c : ToolCall)
  | selectToolCall (writer : ℕ) (id : String) (target : ToolCallStatus) (updates : ToolCallUpdates)
  | writeToolCall (writer : ℕ)

inductive Access
  | investigations (e : investigationKind.Step)
  | runs (e : agentRunKind.Step)
  | toolCalls (e : toolCallKind.Step)

def Statement.access : Statement → Access
  | .createInvestigation i => .investigations (.create i)
  | .updateInvestigation i => .investigations (.update i)
  | .selectInvestigation writer id target now stopReason =>
    .investigations (.read writer (investigationMove id target now stopReason))
  | .writeInvestigation writer => .investigations (.write writer)
  | .createAgentRun r => .runs (.create r)
  | .updateAgentRun r => .runs (.update r)
  | .selectAgentRun writer id target now stopReason =>
    .runs (.read writer (agentRunMove id target now stopReason))
  | .writeAgentRun writer => .runs (.write writer)
  | .createToolCall c => .toolCalls (.create c)
  | .selectToolCall writer id target updates => .toolCalls (.read writer (toolCallMove id target updates))
  | .writeToolCall writer => .toolCalls (.write writer)

namespace Sheets

def execute (s : Sheets) (statement : Statement) : Option Sheets :=
  match statement.access with
  | .investigations e => (investigationKind.step s.investigations e).map fun t => { s with investigations := t }
  | .runs e => (agentRunKind.step s.runs e).map fun t => { s with runs := t }
  | .toolCalls e => (toolCallKind.step s.toolCalls e).map fun t => { s with toolCalls := t }

/-- Any number of callers, whose statements may come in any order. -/
def statements : System Sheets Statement := ⟨{}, execute⟩

/-- A transition that finds the status it has read finds the usage it has read. -/
def Undisturbed (s : Sheets) (statement : Statement) : Prop :=
  match statement.access with
  | .investigations e => investigationKind.Undisturbed s.investigations e
  | .runs e => agentRunKind.Undisturbed s.runs e
  | .toolCalls e => toolCallKind.Undisturbed s.toolCalls e

structure Consistent (s : Sheets) : Prop where
  investigations : investigationKind.Consistent s.investigations
  runs : agentRunKind.Consistent s.runs
  toolCalls : toolCallKind.Consistent s.toolCalls

structure Sound (s : Sheets) : Prop where
  investigations : investigationKind.Sound s.investigations
  runs : agentRunKind.Sound s.runs
  toolCalls : toolCallKind.Sound s.toolCalls

structure Kept (s : Sheets) : Prop where
  investigations : investigationKind.Kept s.investigations
  runs : agentRunKind.Kept s.runs
  toolCalls : toolCallKind.Kept s.toolCalls

def Intact (s : Sheets) : Prop := s.Sound ∧ s.Kept

lemma Sound.execute {s t : Sheets} {statement : Statement} (h : s.Sound)
    (hstep : s.execute statement = some t) : t.Sound := by
  rw [Sheets.execute] at hstep
  split at hstep
  case h_1 e he =>
    obtain ⟨t, ht, rfl⟩ := Option.map_eq_some_iff.mp hstep
    exact ⟨h.investigations.step ht, h.runs, h.toolCalls⟩
  case h_2 e he =>
    obtain ⟨t, ht, rfl⟩ := Option.map_eq_some_iff.mp hstep
    exact ⟨h.investigations, h.runs.step ht, h.toolCalls⟩
  case h_3 e he =>
    obtain ⟨t, ht, rfl⟩ := Option.map_eq_some_iff.mp hstep
    exact ⟨h.investigations, h.runs, h.toolCalls.step ht⟩

lemma Kept.execute {s t : Sheets} {statement : Statement} (h : s.Kept) (hs : s.Sound)
    (hgood : s.Undisturbed statement) (hstep : s.execute statement = some t) : t.Kept := by
  rw [Sheets.execute] at hstep
  split at hstep
  case h_1 e he =>
    obtain ⟨t, ht, rfl⟩ := Option.map_eq_some_iff.mp hstep
    rw [Undisturbed, he] at hgood
    exact ⟨h.investigations.step hs.investigations hgood ht, h.runs, h.toolCalls⟩
  case h_2 e he =>
    obtain ⟨t, ht, rfl⟩ := Option.map_eq_some_iff.mp hstep
    rw [Undisturbed, he] at hgood
    exact ⟨h.investigations, h.runs.step hs.runs hgood ht, h.toolCalls⟩
  case h_3 e he =>
    obtain ⟨t, ht, rfl⟩ := Option.map_eq_some_iff.mp hstep
    rw [Undisturbed, he] at hgood
    exact ⟨h.investigations, h.runs, h.toolCalls.step hs.toolCalls hgood ht⟩

def runningRun : AgentRun :=
  { agentRunId := "run", investigationId := "investigation", parentRunId := none, kind := .parent,
    status := .running, budget := {}, usage := {} }

/-- A caller pauses the run; the run is written by another one before the pause is. -/
def pausing (updated : AgentRun) : List Statement :=
  [.createAgentRun runningRun, .selectAgentRun 0 "run" .pausedBudget 0 none, .updateAgentRun updated, .writeAgentRun 0]

def withEvidence : AgentRun := { runningRun with evidence := [⟨"evidence", "operation", ""⟩] }

end Sheets
end IncidentLens.Investigations
