import IncidentLens.Investigations.Orchestrator

/-!
# One stride of the run loop

`advance` is `_loop_step` cut at its awaits, and `stride` the same with the handler of
`_run_loop_inner` for an evidence budget that a child report would exceed.
-/
namespace IncidentLens.Investigations
open Data Effects StateError

/-! ### Tools -/

/-- The gate lists the calls it may have created. -/
def gateCalls (agentRunId : String) (batch : List ToolRequest) (now : Time) : DatabaseM GateResult := do
  modify fun db => { db with toolCallIds := db.toolCallIds ++ batch.map (·.toolCallId) }
  onStore (gate agentRunId batch now)

/-- A loop that returns or goes on with the next round. -/
def roundEnd (stop : Bool) (spawned : Spawned) : Stride := ⟨if stop then none else some .yielding, spawned.1, spawned.2⟩

/-- `_loop_step` behind `_execute_tools`. -/
def finishTools (agentRunId : String) (requests : List ToolRequest) (evidenceBefore : List String)
    (blocks : List ToolResultBlock) (stop resultAppended : Bool) (pendingChildren : List String) :
    DatabaseM Stride := do
  if resultAppended then
    appendMessage agentRunId ⟨.user, (requests.map (blockFor blocks)).map .toolResult⟩
  let run ← onStore (getAgentRun agentRunId)
  let run ← closeRound run evidenceBefore
  if stop then return roundEnd true (pendingChildren, [])
  else
    let spawned ← spawnDelegatedPackages run (pendingChildren, [])
    return roundEnd false spawned

/-- The batches that are left; one with calls to execute is awaited. -/
def runBatches (agentRunId : String) (requests : List ToolRequest) (evidenceBefore : List String)
    (resultAppended : Bool) (pendingChildren : List String) (now : Time) :
    List (List ToolRequest) → List ToolResultBlock → DatabaseM Stride
  | [], blocks =>
    finishTools agentRunId requests evidenceBefore blocks false resultAppended pendingChildren
  | batch :: rest, blocks => do
    let gated ← gateCalls agentRunId batch now
    if gated.pending ≠ [] then
      return ⟨some (.executing ⟨requests, evidenceBefore, blocks, batch, gated, rest⟩), pendingChildren, []⟩
    else
      let blocks := blocks ++ orderedBlocks batch gated.terminalBlocks
      if gated.stop then
        finishTools agentRunId requests evidenceBefore blocks true resultAppended pendingChildren
      else runBatches agentRunId requests evidenceBefore resultAppended pendingChildren now rest blocks

/-- The rest of `_execute_tools` behind the await of a batch. -/
def afterBatch (agentRunId : String) (round : ToolRound) (outcomes : List ToolOutcome)
    (resultAppended : Bool) (pendingChildren : List String) (now : Time) : DatabaseM Stride := do
  let stop ← onStore (foldBatch agentRunId outcomes now round.gated.pending)
  let folded := round.gated.pending.filterMap fun request =>
    (outcomes.find? (·.toolCallId = request.toolCallId)).map toolResultBlock
  let blocks := round.blocks ++ orderedBlocks round.batch (round.gated.terminalBlocks ++ folded)
  if round.gated.stop || stop then
    finishTools agentRunId round.requests round.evidenceBefore blocks true resultAppended pendingChildren
  else
    runBatches agentRunId round.requests round.evidenceBefore resultAppended pendingChildren now
      round.rest blocks

/-- `_handle_manual_compact` behind its await. -/
def afterCompaction (agentRunId : String) (evidenceBefore : List String) (toolCallId : String)
    (status : ToolCallStatus) (content : String) (resultAppended : Bool) (pendingChildren : List String)
    (now : Time) : DatabaseM Stride := do
  let (run, investigation) ← reloadPair agentRunId
  if resultAppended = false then
    pauseRun run investigation .pausedUncertainState .uncertainState now
    return roundEnd true (pendingChildren, [])
  else
    appendMessage agentRunId ⟨.user, [.toolResult ⟨toolCallId, status, content, []⟩]⟩
    let _ ← closeRound run evidenceBefore
    return roundEnd false (pendingChildren, [])

/-! ### The provider's turn -/

def Harness.safe (h : Harness) (request : ToolRequest) : Bool :=
  h.schemas.any fun s => s.toolName = request.toolName && s.concurrencySafe

def afterToolless (h : Harness) (loop : Loop) (run : AgentRun) (investigation : Investigation)
    (result : AgentTurnResult) (now : Time) : DatabaseM Stride := do
  let evidenceBefore := run.evidence.map (·.evidenceId)
  match result.stopSignal with
  | some reason =>
    drainAllChildren run investigation loop.pendingChildren
      (.stop reason result.conclusions evidenceBefore) now
  | none =>
    if result.childDelegation then
      let (stop, spawned) ← delegateChild h run investigation result.delegation (loop.pendingChildren, []) now
      let run ← onStore (getAgentRun run.agentRunId)
      let _ ← closeRound run evidenceBefore
      return roundEnd stop spawned
    else
      result.conclusions.forM (persistConclusion run)
      let run ← closeRound run evidenceBefore
      if ∃ conclusion ∈ result.conclusions, conclusion.evidenceIds = [] then
        pauseRun run investigation .pausedMissingEvidence .missingEvidence now
        return roundEnd true (loop.pendingChildren, [])
      else if run.usage.consecutiveNoNewEvidenceRounds ≥ run.budget.maxNoNewEvidenceRounds then
        pauseRun run investigation .pausedMissingEvidence .budgetNoNewEvidence now
        return roundEnd true (loop.pendingChildren, [])
      else return roundEnd false (loop.pendingChildren, [])

/-- The two usage updates behind a provider turn, from the copy of the run that was held
during the await. -/
def countTurn (run : AgentRun) (outputBytes : ℕ) : DatabaseM AgentRun := do
  onStore (updateAgentRun { run with usage := { run.usage with rounds := run.usage.rounds + 1 } })
  let run ← onStore (getAgentRun run.agentRunId)
  onStore (updateAgentRun { run with usage := { run.usage with
    totalOutputBytes := run.usage.totalOutputBytes + outputBytes } })
  onStore (getAgentRun run.agentRunId)

/-- `_loop_step` from the append of the assistant message on. -/
def actOnTurn (h : Harness) (loop : Loop) (run : AgentRun) (investigation : Investigation)
    (result : AgentTurnResult) (assistantAppended resultAppended : Bool) (now : Time) :
    DatabaseM Stride := do
  if assistantAppended = false then
    pauseRun run investigation .pausedUncertainState .uncertainState now
    return roundEnd true (loop.pendingChildren, [])
  else
    appendMessage run.agentRunId (assistantMessage result.toTurn)
    let evidenceBefore := run.evidence.map (·.evidenceId)
    if result.toolRequests = [] then afterToolless h loop run investigation result now
    else match result.toolRequests.find? (·.toolName = "compact_context") with
      | some compact =>
        return ⟨some (.compacting evidenceBefore compact.toolCallId), loop.pendingChildren, []⟩
      | none =>
        runBatches run.agentRunId result.toolRequests evidenceBefore resultAppended loop.pendingChildren
          now (partitionToolBatches h.safe [] [] result.toolRequests) []

/-- `_loop_step` behind a completed provider turn. -/
def afterTurn (h : Harness) (loop : Loop) (run : AgentRun) (investigation : Investigation)
    (result : AgentTurnResult) (assistantAppended resultAppended : Bool) (now : Time) :
    DatabaseM Stride := do
  let run ← countTurn run result.outputBytes
  actOnTurn h loop run investigation result assistantAppended resultAppended now

/-- `_pause_prompt_too_long`. -/
def pausePromptTooLong (loop : Loop) (run : AgentRun) (investigation : Investigation) (now : Time) :
    DatabaseM Stride := do
  pauseRun run investigation .pausedBudget .budgetOutput now
  return roundEnd true (loop.pendingChildren, [])

/-! ### The head of the loop -/

/-- The budget checks, and the round up to the await of its request. -/
def startRound (h : Harness) (run : AgentRun) (investigation : Investigation)
    (pendingChildren : List String) (appended : Bool) (now : Time) : DatabaseM Stride := do
  let verdictInv := checkInvestigationBeforeModelTurn investigation now
  let verdict := checkBeforeModelTurn run now
  if verdictInv.1 = false then
    drainAllChildren run investigation pendingChildren (.pause verdictInv.2) now
  else if verdict.1 = false then
    drainAllChildren run investigation pendingChildren (.pause verdict.2) now
  else
    let db ← get
    if db.transcripts run.agentRunId = [] ∧ appended = false then
      pauseRun run investigation .pausedUncertainState .uncertainState now
      return roundEnd true (pendingChildren, [])
    else
      if db.transcripts run.agentRunId = [] then
        appendMessage run.agentRunId (note (h.initialText run investigation))
      return ⟨some (.building run investigation), pendingChildren, []⟩

def resumeText : String :=
  "Operator explicitly resumed this paused run. Continue from the durable checkpoint and current evidence."

/-- `_append_resume_continuation`, on a transcript. -/
def resumeContinuation (t : List Message) : List Message :=
  match t.getLast? with
  | some message => if message.role = .assistant then t ++ [note resumeText] else t
  | none => t

/-- The pause condition is evaluated again under the current budgets. -/
def renewBudget (run : AgentRun) (investigation : Investigation) : DatabaseM PUnit := do
  if run.status = .pausedMissingEvidence then
    onStore (updateAgentRun { run with usage := { run.usage with consecutiveNoNewEvidenceRounds := 0 } })
    onStore (updateInvestigation { investigation with
      usage := { investigation.usage with consecutiveNoNewEvidenceRounds := 0 } })
  else if run.status = .pausedBudget then
    onStore (updateAgentRun (grantRemainingInvestigationCapacity run investigation))

def resumePaused (run : AgentRun) (investigation : Investigation) (pendingChildren : List String)
    (appended : Bool) (now : Time) : DatabaseM Stride := do
  renewBudget run investigation
  let run ← transitionRun run .running now none
  transitionInvestigation investigation .running now none
  let db ← get
  let resumed := resumeContinuation (db.transcripts run.agentRunId)
  if resumed ≠ db.transcripts run.agentRunId ∧ appended = false then
    let (run, investigation) ← reloadPair run.agentRunId
    pauseRun run investigation .pausedUncertainState .uncertainState now
    return roundEnd true (pendingChildren, [])
  else
    modify fun db => { db with transcripts := Function.update db.transcripts run.agentRunId resumed }
    return roundEnd false (pendingChildren, [])

/-- `_resume_waiting_children`; `finished` are the children whose tasks have ended. -/
def resumeWaitingChildren (run : AgentRun) (pendingChildren : List String) (now : Time) :
    DatabaseM Stride := do
  if pendingChildren ≠ [] then return ⟨some .waiting, pendingChildren, []⟩
  else
    let spawned ← respawnChildren run
    if spawned.1 = [] then
      let _ ← transitionRun run .running now none
    return roundEnd false spawned

/-- `_loop_step` by the status of the run and of its investigation. -/
def dispatch (h : Harness) (run : AgentRun) (investigation : Investigation) (pendingChildren : List String)
    (appended : Bool) (now : Time) : DatabaseM Stride := do
  if agentRunStateMachine.isTerminal run.status then
    if run.kind = .parent ∧ run.status = .cancelled ∧ investigation.status = .cancelRequested then
      transitionInvestigation investigation .cancelled now (some .cancelled)
    return ⟨none, pendingChildren, []⟩
  else if investigationStateMachine.isTerminal investigation.status then
    drainAllChildren run investigation pendingChildren .sync now
  else match run.status with
    | .cancelRequested => drainAllChildren run investigation pendingChildren .cancel now
    | .waitingApproval => return ⟨none, pendingChildren, []⟩
    | .waitingChildren => resumeWaitingChildren run pendingChildren now
    | .pausedBudget | .pausedMissingEvidence | .pausedUncertainState =>
      resumePaused run investigation pendingChildren appended now
    | .created => do
      let _ ← transitionRun run .running now none
      return roundEnd false (pendingChildren, [])
    | _ => startRound h run investigation pendingChildren appended now

/-- `_loop_step` from its first yield on. -/
def loopHead (h : Harness) (loop : Loop) (finished : List String) (appended : Bool) (now : Time) :
    DatabaseM Stride := do
  deliverPendingChildReports loop.agentRunId now
  let (run, investigation) ← reloadPair loop.agentRunId
  let pendingChildren := loop.pendingChildren.filter fun child => !finished.contains child
  if pendingChildren ≠ loop.pendingChildren then
    onStore (updateAgentRun run)
    onStore (updateInvestigation investigation)
  dispatch h run investigation pendingChildren appended now

/-! ### The loop -/

/-- `_loop_step` from one await to the next; `none` where the answer is to another await. -/
def advance (h : Harness) (loop : Loop) (now : Time) : Point → Answer → Option (DatabaseM Stride)
  | .yielding, .yielded finished appended => some (loopHead h loop finished appended now)
  | .waiting, .waited => some (pure (roundEnd false (loop.pendingChildren, [])))
  | .building run investigation, .built ok => some do
    if ok then return ⟨some (.calling run investigation), loop.pendingChildren, []⟩
    else
      pauseRun run investigation .pausedUncertainState .uncertainState now
      return roundEnd true (loop.pendingChildren, [])
  | .calling run investigation, .turn result assistantAppended resultAppended =>
    some (afterTurn h loop run investigation result assistantAppended resultAppended now)
  | .calling run investigation, .promptTooLong attempted =>
    some (if attempted then pausePromptTooLong loop run investigation now
      else pure ⟨some (.recompacting run investigation), loop.pendingChildren, []⟩)
  | .calling run investigation, .providerFailed =>
    some (drainAllChildren run investigation loop.pendingChildren .fail now)
  | .recompacting run investigation, .turn result assistantAppended resultAppended =>
    some (afterTurn h loop run investigation result assistantAppended resultAppended now)
  | .recompacting run investigation, .promptTooLong _ =>
    some (pausePromptTooLong loop run investigation now)
  | .recompacting run investigation, .compactionFailed =>
    some (pausePromptTooLong loop run investigation now)
  -- the second provider call is made inside the handler, where nothing catches its failure
  | .recompacting _ _, .providerFailed => some (throw .provider)
  | .executing round, .executed outcomes resultAppended =>
    some (afterBatch loop.agentRunId round outcomes resultAppended loop.pendingChildren now)
  | .compacting evidenceBefore toolCallId, .compacted status content resultAppended =>
    some (afterCompaction loop.agentRunId evidenceBefore toolCallId status content resultAppended
      loop.pendingChildren now)
  | .draining wasRunning after, .drained => some (finishDrain loop.agentRunId wasRunning after now)
  | _, _ => none

/-- The handler of `_run_loop_inner`: a child report does not fit into the evidence budget. -/
def pauseOnEvidence (agentRunId : String) (pendingChildren : List String) (now : Time) :
    DatabaseM Stride := do
  let (run, investigation) ← reloadPair agentRunId
  if run.status = .waitingChildren then
    let _ ← transitionRun run .running now none
  pauseRun run investigation .pausedBudget .budgetEvidence now
  return roundEnd true (pendingChildren, [])

def stride (h : Harness) (loop : Loop) (answer : Answer) (now : Time) : Option (DatabaseM Stride) :=
  (advance h loop now loop.point answer).map fun step =>
    tryCatch step fun error => match error with
      | .evidenceBudgetExceeded => pauseOnEvidence loop.agentRunId loop.pendingChildren now
      | error => throw error

end IncidentLens.Investigations
