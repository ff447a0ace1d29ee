import IncidentLens.Investigations.Database

/-!
# The run loop

`_loop_step` is not interrupted between two awaits. A suspended loop is the point it waits at
with the local variables it still needs; `advance` takes it from an answer at that point to
the next await or to its return. What the awaits answer is left open.
-/
namespace IncidentLens.Investigations
open Data Effects StateError

/-! ### Delegation -/

structure ChildDelegationRequest where
  childRunId : String
  taskPrompt : String := ""
  evidenceIds : List String := []
  deriving DecidableEq

inductive DelegationRejectionKind
  | budgetChildren | budgetEnvelope | invalid
  deriving DecidableEq

structure DelegationRejected where
  reason : String
  kind : DelegationRejectionKind
  deriving DecidableEq

/-- What the orchestrator is built with. `boundedBudget` answers for the scope, the evidence
and the budget of a delegation. -/
structure Harness where
  schemas : List ToolSchema := []
  initialText : AgentRun → Investigation → String := fun _ investigation => investigation.investigationId
  boundedBudget : AgentRun → ChildDelegationRequest → Except DelegationRejected AgentBudget := fun _ _ => .ok {}

def canSpawnChild (run : AgentRun) (investigation : Investigation) : Verdict :=
  if run.kind = .child then (false, "child run must not delegate grandchildren")
  else if investigation.usage.children ≥ investigation.budget.maxChildren then
    (false, "child budget exhausted")
  else (true, "child budget available")

/-- `DelegationValidator.prepare`. -/
def Harness.prepare (h : Harness) (parent : AgentRun) (investigation : Investigation)
    (request : ChildDelegationRequest) : Except DelegationRejected DelegatedTaskPackage :=
  if parent.investigationId ≠ investigation.investigationId then
    .error ⟨"delegation investigation id must match the parent run", .invalid⟩
  else
    let verdict := canSpawnChild parent investigation
    if verdict.1 = false then
      .error ⟨verdict.2, if verdict.2 = "child budget exhausted" then .budgetChildren else .invalid⟩
    else match h.boundedBudget parent request with
      | .error rejected => .error rejected
      | .ok budget => .ok
          { childRunId := request.childRunId
            parentRunId := parent.agentRunId
            investigationId := parent.investigationId
            taskPrompt := request.taskPrompt
            evidenceIds := request.evidenceIds
            budget := budget }

def budgetStopReason (reason : String) : StopReason :=
  if mentions reason "max_rounds" then .budgetRounds
  else if mentions reason "max_tool_calls" then .budgetToolCalls
  else if mentions reason "max_wall_clock_seconds" then .budgetTime
  else if mentions reason "max_output_bytes_per_tool" then .budgetOutput
  else if mentions reason "max_total_output_bytes" then .budgetOutput
  else if mentions reason "max_evidence" then .budgetEvidence
  else if mentions reason "max_no_new_evidence_rounds" then .budgetNoNewEvidence
  else .budgetOutput

/-! ### Points, answers and strides -/

structure AgentTurnResult extends Turn where
  conclusions : List Conclusion := []
  delegation : ChildDelegationRequest := ⟨"", "", []⟩
  outputBytes : ℕ := 0

/-- What `_drain_all_children` returns to. -/
inductive AfterDrain
  | sync
  | cancel
  | pause (reason : String)
  | fail
  | stop (reason : StopReason) (conclusions : List Conclusion) (evidenceBefore : List String)

/-- The local variables of `_execute_tools` while a batch executes. -/
structure ToolRound where
  requests : List ToolRequest
  evidenceBefore : List String
  blocks : List ToolResultBlock
  batch : List ToolRequest
  gated : GateResult
  rest : List (List ToolRequest)

inductive Point
  | yielding
  | waiting
  | building (run : AgentRun) (investigation : Investigation)
  | calling (run : AgentRun) (investigation : Investigation)
  | recompacting (run : AgentRun) (investigation : Investigation)
  | executing (round : ToolRound)
  | compacting (evidenceBefore : List String) (toolCallId : String)
  | draining (wasRunning : Bool) (after : AfterDrain)

inductive Answer
  | yielded (finished : List String) (appended : Bool)
  | waited
  | built (ok : Bool)
  | turn (result : AgentTurnResult) (assistantAppended resultAppended : Bool)
  | promptTooLong (attempted : Bool)
  | providerFailed
  | compactionFailed
  | executed (outcomes : List ToolOutcome) (resultAppended : Bool)
  | compacted (status : ToolCallStatus) (content : String) (resultAppended : Bool)
  | drained

structure Loop where
  agentRunId : String
  point : Point := .yielding
  pendingChildren : List String := []

/-- Where a loop is suspended next (`none` once it returned), and the children it spawned. -/
structure Stride where
  point : Option Point
  pendingChildren : List String
  spawned : List DelegatedTaskPackage := []

/-! ### Transitions -/

def transitionRun (run : AgentRun) (target : AgentRunStatus) (now : Time)
    (stopReason : Option StopReason) : DatabaseM AgentRun := do
  onStore (transitionAgentRunStatus run.agentRunId target now stopReason)
  onStore (getAgentRun run.agentRunId)

def transitionInvestigation (investigation : Investigation) (target : InvestigationStatus) (now : Time)
    (stopReason : Option StopReason) : DatabaseM PUnit :=
  onStore (transitionInvestigationStatus investigation.investigationId target now stopReason)

/-- `_fail`. -/
def failRun (run : AgentRun) (investigation : Investigation) (now : Time) : DatabaseM PUnit := do
  let _ ← transitionRun run .failed now (some .failed)
  if run.kind = .parent then transitionInvestigation investigation .failed now (some .failed)

def pauseRun (run : AgentRun) (investigation : Investigation) (runStatus : AgentRunStatus)
    (stopReason : StopReason) (now : Time) : DatabaseM PUnit :=
  onStore (pause run investigation runStatus stopReason now)

/-- `_reload_pair`. -/
def reloadPair (agentRunId : String) : DatabaseM (AgentRun × Investigation) := do
  let run ← onStore (getAgentRun agentRunId)
  let investigation ← onStore (getInvestigation run.investigationId)
  return (run, investigation)

/-- `_sync_run_to_investigation`. -/
def syncRunToInvestigation (run : AgentRun) (investigation : Investigation) (now : Time) :
    DatabaseM PUnit := do
  if agentRunStateMachine.isTerminal run.status then pure ⟨⟩
  else if investigation.status = .completed then
    let _ ← transitionRun run .completed now (some .completed)
  else if investigation.status = .cancelled then
    if run.status = .cancelRequested then
      let _ ← transitionRun run .cancelled now (some .cancelled)
    else
      let _ ← transitionRun run .cancelRequested now (some .cancelled)
      let _ ← transitionRun run .cancelled now (some .cancelled)
  else
    let _ ← transitionRun run .failed now (some .failed)

/-! ### Child reports -/

def reportNote (receipt : ChildReportReceipt) : Message :=
  note ("Child report " ++ receipt.report.agentRunId ++ ": " ++ String.ofList (receipt.report.summary.toList.take 600))

def deliverReceipt (agentRunId : String) (now : Time) (receipt : ChildReportReceipt) :
    DatabaseM PUnit := do
  let (run, investigation) ← reloadPair agentRunId
  let evidence ← getEvidence receipt.evidenceId
  let ref : EvidenceReference := ⟨receipt.evidenceId, "child:" ++ receipt.childRunId,
    String.ofList (evidence.contentRedacted.toList.take 2000)⟩
  match appendEvidence run investigation [ref] with
  | none => throw .evidenceBudgetExceeded
  | some attached =>
    let investigation := { investigation with usage := { investigation.usage with
      evidenceCount := investigation.usage.evidenceCount + attached.2 } }
    deliverChildReportReceipt receipt attached.1 investigation (reportNote receipt) now

/-- `_deliver_pending_child_reports`. -/
def deliverPendingChildReports (agentRunId : String) (now : Time) : DatabaseM PUnit := do
  let db ← get
  (listUndeliveredReceipts db agentRunId).forM (deliverReceipt agentRunId now)

/-! ### Rounds -/

/-- `_finish_round_counters`, on an investigation that was just read. -/
def finishRoundCounters (run : AgentRun) (investigation : Investigation) (evidenceBefore : List String) :
    AgentRun × Investigation :=
  let added := run.evidence.any fun ref => !evidenceBefore.contains ref.evidenceId
  ({ run with usage := { run.usage with
      consecutiveNoNewEvidenceRounds :=
        if added then 0 else run.usage.consecutiveNoNewEvidenceRounds + 1 } },
    { investigation with usage := { investigation.usage with
      rounds := investigation.usage.rounds + 1
      consecutiveNoNewEvidenceRounds := if added then 0 else investigation.usage.consecutiveNoNewEvidenceRounds + 1 } })

/-- The end of a round: the counters are written back. -/
def closeRound (run : AgentRun) (evidenceBefore : List String) : DatabaseM AgentRun := do
  let investigation ← onStore (getInvestigation run.investigationId)
  let closed := finishRoundCounters run investigation evidenceBefore
  onStore (updateAgentRun closed.1)
  onStore (updateInvestigation closed.2)
  return closed.1

/-- `_grant_remaining_investigation_capacity`. -/
def grantRemainingInvestigationCapacity (run : AgentRun) (investigation : Investigation) : AgentRun :=
  if run.stopReason = some .budgetToolCalls then
    let remaining := investigation.budget.maxToolCalls - investigation.usage.toolCalls
    { run with budget := { run.budget with
        maxToolCalls := min 500 (max run.budget.maxToolCalls (run.usage.toolCalls + remaining)) } }
  else if run.stopReason = some .budgetRounds then
    let remaining := investigation.budget.maxRounds - investigation.usage.rounds
    { run with budget := { run.budget with
        maxRounds := min 200 (max run.budget.maxRounds (run.usage.rounds + remaining)) } }
  else run

def persistConclusion (run : AgentRun) (conclusion : Conclusion) : DatabaseM PUnit :=
  if conclusion.evidenceIds = [] then pure ⟨⟩
  else modify fun db => { db with conclusions := db.conclusions ++ [(run.agentRunId, conclusion)] }

/-- `_handle_stop`. -/
def handleStop (run : AgentRun) (investigation : Investigation) (reason : StopReason)
    (conclusions : List Conclusion) (now : Time) : DatabaseM PUnit := do
  match reason with
  | .completed =>
    if conclusions = [] ∨ ∃ conclusion ∈ conclusions, conclusion.evidenceIds = [] then
      pauseRun run investigation .pausedMissingEvidence .missingEvidence now
    else
      conclusions.forM (persistConclusion run)
      let _ ← transitionRun run .completed now (some .completed)
      if run.kind = .parent then
        transitionInvestigation investigation .completed now (some .completed)
  | .missingEvidence => pauseRun run investigation .pausedMissingEvidence .missingEvidence now
  | .pendingApproval => pauseRun run investigation .waitingApproval .pendingApproval now
  | .uncertainState => pauseRun run investigation .pausedUncertainState .uncertainState now
  | .cancelled =>
    let _ ← transitionRun run .cancelRequested now (some .cancelled)
    let _ ← transitionRun run .cancelled now (some .cancelled)
    if run.kind = .parent then
      transitionInvestigation investigation .cancelRequested now (some .cancelled)
      transitionInvestigation investigation .cancelled now (some .cancelled)
  | _ => failRun run investigation now

/-! ### Children -/

/-- `_build_child_run`. -/
def buildChildRun (package : DelegatedTaskPackage) (parent : AgentRun) : AgentRun where
  agentRunId := package.childRunId
  investigationId := package.investigationId
  parentRunId := some package.parentRunId
  kind := .child
  status := .created
  budget := package.budget
  usage := {}
  evidence := parent.evidence.filter fun ref => package.evidenceIds.contains ref.evidenceId

/-- The children a loop has spawned and not drained, and those of the current stride. -/
abbrev Spawned := List String × List DelegatedTaskPackage

/-- `_spawn_child_from_package`. -/
def spawnChildFromPackage (parent : AgentRun) (package : DelegatedTaskPackage) (spawned : Spawned) :
    DatabaseM Spawned := do
  tryCatch (createAgentRun (buildChildRun package parent)) fun error => match error with
    | .store (.alreadyExists _) => pure ⟨⟩
    | error => throw error
  if spawned.1.contains package.childRunId then return spawned
  else return (spawned.1 ++ [package.childRunId], spawned.2 ++ [package])

/-- `_spawn_delegated_packages`: packages whose child run does not exist yet. -/
def spawnDelegatedPackages (parent : AgentRun) (spawned : Spawned) : DatabaseM Spawned := do
  let db ← get
  (listDelegatedTasks db parent.agentRunId).foldlM (fun spawned package => do
    if spawned.1.contains package.childRunId then return spawned
    match (← get).runs.get package.childRunId with
    | some _ => return spawned
    | none => spawnChildFromPackage parent package spawned) spawned

/-- The re-discovery of `_resume_waiting_children`. -/
def respawnChildren (parent : AgentRun) : DatabaseM Spawned := do
  let db ← get
  (listChildren db parent.agentRunId).foldlM (fun spawned child => do
    if agentRunStateMachine.isTerminal child.status then return spawned
    match db.delegatedTasks.get child.agentRunId with
    | none => return spawned
    | some package => spawnChildFromPackage parent package spawned) ([], [])

/-- `_delegate_child`; answers whether the loop stops. -/
def delegateChild (h : Harness) (run : AgentRun) (investigation : Investigation)
    (request : ChildDelegationRequest) (spawned : Spawned) (now : Time) : DatabaseM (Bool × Spawned) := do
  match h.prepare run investigation request with
  | .error rejected =>
    if run.kind = .child then failRun run investigation now
    else if rejected.kind = .budgetChildren then
      pauseRun run investigation .pausedBudget .budgetChildren now
    else if rejected.kind = .budgetEnvelope then
      pauseRun run investigation .pausedBudget (budgetStopReason rejected.reason) now
    else failRun run investigation now
    return (true, spawned)
  | .ok package =>
    tryCatch (createDelegatedTask package) fun error => match error with
      | .store (.alreadyExists _) => pure ⟨⟩
      | error => throw error
    let investigation ← onStore (getInvestigation run.investigationId)
    onStore (updateInvestigation { investigation with usage := { investigation.usage with
      children := investigation.usage.children + 1 } })
    let spawned ← spawnChildFromPackage run package spawned
    return (false, spawned)

/-! ### Draining the children -/

/-- The rest of `_loop_step` behind a drain. -/
def conclude (run : AgentRun) (investigation : Investigation) (now : Time) : AfterDrain → DatabaseM PUnit
  | .sync => syncRunToInvestigation run investigation now
  | .cancel => do
    let _ ← transitionRun run .cancelled now (some .cancelled)
    if investigation.status = .cancelRequested then
      transitionInvestigation investigation .cancelled now (some .cancelled)
  | .pause reason => pauseRun run investigation (pauseStatusFor reason) (stopReasonFor reason) now
  | .fail => failRun run investigation now
  | .stop reason conclusions evidenceBefore => do
    handleStop run investigation reason conclusions now
    let run ← onStore (getAgentRun run.agentRunId)
    let _ ← closeRound run evidenceBefore

/-- `_drain_all_children` up to its await; without children there is none. -/
def drainAllChildren (run : AgentRun) (investigation : Investigation) (pendingChildren : List String)
    (after : AfterDrain) (now : Time) : DatabaseM Stride := do
  if pendingChildren = [] then
    conclude run investigation now after
    return ⟨none, [], []⟩
  else
    let wasRunning := run.status = .running
    if wasRunning then
      let _ ← transitionRun run .waitingChildren now none
    return ⟨some (.draining wasRunning after), pendingChildren, []⟩

/-- `_drain_all_children` behind its await. -/
def finishDrain (agentRunId : String) (wasRunning : Bool) (after : AfterDrain) (now : Time) :
    DatabaseM Stride := do
  let (run, investigation) ← reloadPair agentRunId
  onStore (updateAgentRun run)
  onStore (updateInvestigation investigation)
  if wasRunning then
    let _ ← transitionRun run .running now none
  deliverPendingChildReports agentRunId now
  let (run, investigation) ← reloadPair agentRunId
  conclude run investigation now after
  return ⟨none, [], []⟩

end IncidentLens.Investigations
