import IncidentLens.Investigations.Children

/-!
# Starting, resuming and cancelling

`InvestigationService` up to the loops it runs: a start and a resume name the run whose loop
is entered, a cancellation only parks.
-/
namespace IncidentLens.Investigations
open Data Effects StateError

/-- `_build_parent_run`. -/
def buildParentRun (investigation : Investigation) (agentRunId : String) (budget : AgentBudget) : AgentRun where
  agentRunId := agentRunId
  investigationId := investigation.investigationId
  parentRunId := none
  kind := .parent
  status := .created
  budget := budget
  usage := {}

/-- The non-terminal parent runs that `start` looks for. -/
def openParents (db : Database) (investigationId : String) : List AgentRun :=
  (listRunsOf db investigationId).filter fun run =>
    run.parentRunId = none ∧ agentRunStateMachine.isTerminal run.status = false

/-- `start` up to the loop of the parent run; `freshId` is the identifier of a new one. -/
def start (investigationId freshId : String) (budget : AgentBudget) (now : Time) : DatabaseM String := do
  let investigation ← onStore (getInvestigation investigationId)
  if investigationStateMachine.isTerminal investigation.status then
    throw (.investigationAlreadyTerminal investigationId)
  if investigation.status ≠ .running then
    transitionInvestigation investigation .running now none
  let db ← get
  match openParents db investigationId with
  | run :: _ => return run.agentRunId
  | [] =>
    let parent := buildParentRun investigation freshId budget
    tryCatch (createAgentRun parent) fun error => match error with
      | .store (.alreadyExists _) => pure ⟨⟩
      | error => throw error
    return freshId

/-- `resume_run` up to the loop of the run. -/
def resumeRun (agentRunId : String) : DatabaseM String := do
  let _ ← onStore (getAgentRun agentRunId)
  return agentRunId

/-- `_park_run_for_cancel`. -/
def parkRunForCancel (now : Time) (run : AgentRun) : DatabaseM PUnit := do
  if agentRunStateMachine.isTerminal run.status then pure ⟨⟩
  else if run.status = .cancelRequested then pure ⟨⟩
  else if run.status = .created then
    let _ ← transitionRun run .cancelled now (some .cancelled)
  else
    let _ ← transitionRun run .cancelRequested now (some .cancelled)

def cancel (investigationId : String) (now : Time) : DatabaseM Investigation := do
  let investigation ← onStore (getInvestigation investigationId)
  if investigationStateMachine.isTerminal investigation.status then return investigation
  else
    if investigation.status = .created then
      transitionInvestigation investigation .cancelled now (some .cancelled)
    else if investigation.status ≠ .cancelRequested then
      transitionInvestigation investigation .cancelRequested now none
    let db ← get
    (listRunsOf db investigationId).forM (parkRunForCancel now)
    onStore (getInvestigation investigationId)

def cancelRun (agentRunId : String) (now : Time) : DatabaseM AgentRun := do
  let run ← onStore (getAgentRun agentRunId)
  parkRunForCancel now run
  onStore (getAgentRun agentRunId)

end IncidentLens.Investigations
