import IncidentLens.Investigations.Loop

/-!
# Rules for the database operations

One rule for each operation on rows: what it answers and what it writes, by the row it finds.
-/
namespace IncidentLens.Investigations
open Data Effects StateError

/-- The record after `transition_agent_run_status`. -/
def AgentRun.moved (r : AgentRun) (target : AgentRunStatus) (now : Time)
    (stopReason : Option StopReason) : AgentRun :=
  { r with
    status := target
    startedAt := if target = .running ∧ r.startedAt = none then some now else r.startedAt
    stopReason := stopReason.orElse fun _ => r.stopReason }

/-- The record after `transition_investigation_status`. -/
def Investigation.moved (i : Investigation) (target : InvestigationStatus) (now : Time)
    (stopReason : Option StopReason) : Investigation :=
  { i with
    status := target
    startedAt := if target = .running ∧ i.startedAt = none then some now else i.startedAt
    stopReason := stopReason.orElse fun _ => i.stopReason }

section Moved
variable (r : AgentRun) (target : AgentRunStatus) (i : Investigation) (goal : InvestigationStatus)
  (now : Time) (stopReason : Option StopReason)

@[simp] lemma AgentRun.moved_status : (r.moved target now stopReason).status = target := rfl
@[simp] lemma AgentRun.moved_agentRunId : (r.moved target now stopReason).agentRunId = r.agentRunId := rfl
@[simp] lemma AgentRun.moved_investigationId :
    (r.moved target now stopReason).investigationId = r.investigationId := rfl
@[simp] lemma AgentRun.moved_parentRunId : (r.moved target now stopReason).parentRunId = r.parentRunId := rfl
@[simp] lemma AgentRun.moved_kind : (r.moved target now stopReason).kind = r.kind := rfl
@[simp] lemma AgentRun.moved_usage : (r.moved target now stopReason).usage = r.usage := rfl
@[simp] lemma AgentRun.moved_evidence : (r.moved target now stopReason).evidence = r.evidence := rfl
@[simp] lemma Investigation.moved_status : (i.moved goal now stopReason).status = goal := rfl
@[simp] lemma Investigation.moved_investigationId :
    (i.moved goal now stopReason).investigationId = i.investigationId := rfl
@[simp] lemma Investigation.moved_usage : (i.moved goal now stopReason).usage = i.usage := rfl

end Moved

def Database.withRun (db : Database) (r : AgentRun) : Database := { db with runs := db.runs.put r }

def Database.withInvestigation (db : Database) (i : Investigation) : Database :=
  { db with investigations := db.investigations.put i }

def Database.withToolCall (db : Database) (c : ToolCall) : Database := { db with toolCalls := db.toolCalls.put c }

section With
variable (db : Database) (r : AgentRun) (i : Investigation)

@[simp] lemma Database.withRun_runs : (db.withRun r).runs = db.runs.put r := rfl
@[simp] lemma Database.withRun_investigations : (db.withRun r).investigations = db.investigations := rfl
@[simp] lemma Database.withRun_toolCalls : (db.withRun r).toolCalls = db.toolCalls := rfl
@[simp] lemma Database.withRun_transcripts : (db.withRun r).transcripts = db.transcripts := rfl
@[simp] lemma Database.withRun_receipts : (db.withRun r).receipts = db.receipts := rfl
@[simp] lemma Database.withInvestigation_runs : (db.withInvestigation i).runs = db.runs := rfl
@[simp] lemma Database.withInvestigation_investigations :
    (db.withInvestigation i).investigations = db.investigations.put i := rfl
@[simp] lemma Database.withInvestigation_toolCalls : (db.withInvestigation i).toolCalls = db.toolCalls := rfl
@[simp] lemma Database.withInvestigation_transcripts : (db.withInvestigation i).transcripts = db.transcripts := rfl
@[simp] lemma Database.withInvestigation_receipts : (db.withInvestigation i).receipts = db.receipts := rfl

end With

section Rules
variable {α : Type} {db : Database}

@[simp] lemma wp_getAgentRun (id : String) (Q : Except Raised AgentRun → Database → Prop) :
    wp (onStore (getAgentRun id)) Q db ↔ match db.runs.get id with
      | some r => Q (.ok r) db
      | none => Q (.error (.store (.agentRunNotFound id))) db := by
  simp only [wp_onStore, getAgentRun, wp_bind, wp_get]
  cases h : db.runs.get id <;> rfl

@[simp] lemma wp_getInvestigation (id : String) (Q : Except Raised Investigation → Database → Prop) :
    wp (onStore (getInvestigation id)) Q db ↔ match db.investigations.get id with
      | some i => Q (.ok i) db
      | none => Q (.error (.store (.investigationNotFound id))) db := by
  simp only [wp_onStore, getInvestigation, wp_bind, wp_get]
  cases h : db.investigations.get id <;> rfl

lemma wp_transitionAgentRunStatus (id : String) (target : AgentRunStatus) (now : Time)
    (stopReason : Option StopReason) (Q : Except Raised PUnit → Database → Prop) :
    wp (onStore (transitionAgentRunStatus id target now stopReason)) Q db ↔
      match db.runs.get id with
      | some r =>
        if agentRunStateMachine.canTransition r.status target then
          Q (.ok ⟨⟩) (db.withRun (r.moved target now stopReason))
        else Q (.error (.store (.illegalTransition r.status.value target.value))) db
      | none => Q (.error (.store (.agentRunNotFound id))) db := by
  simp only [wp_onStore, transitionAgentRunStatus, getAgentRun, wp_bind, wp_get]
  cases h : db.runs.get id with
  | none => rfl
  | some r =>
    by_cases hmove : agentRunStateMachine.canTransition r.status target = true
    · simp only [wp_pure, if_pos hmove]
      rfl
    · simp only [wp_pure, if_neg hmove]
      rfl

lemma wp_transitionInvestigation (i : Investigation) (target : InvestigationStatus) (now : Time)
    (stopReason : Option StopReason) (Q : Except Raised PUnit → Database → Prop) :
    wp (transitionInvestigation i target now stopReason) Q db ↔
      match db.investigations.get i.investigationId with
      | some stored =>
        if investigationStateMachine.canTransition stored.status target then
          Q (.ok ⟨⟩) (db.withInvestigation (stored.moved target now stopReason))
        else Q (.error (.store (.illegalTransition stored.status.value target.value))) db
      | none => Q (.error (.store (.investigationNotFound i.investigationId))) db := by
  simp only [transitionInvestigation, wp_onStore, transitionInvestigationStatus, getInvestigation, wp_bind, wp_get]
  cases h : db.investigations.get i.investigationId with
  | none => rfl
  | some stored =>
    by_cases hmove : investigationStateMachine.canTransition stored.status target = true
    · simp only [wp_pure, if_pos hmove]
      rfl
    · simp only [wp_pure, if_neg hmove]
      rfl

lemma wp_transitionRun (run : AgentRun) (target : AgentRunStatus) (now : Time)
    (stopReason : Option StopReason) (Q : Except Raised AgentRun → Database → Prop) :
    wp (transitionRun run target now stopReason) Q db ↔ match db.runs.get run.agentRunId with
      | some r =>
        if agentRunStateMachine.canTransition r.status target then
          Q (.ok (r.moved target now stopReason)) (db.withRun (r.moved target now stopReason))
        else Q (.error (.store (.illegalTransition r.status.value target.value))) db
      | none => Q (.error (.store (.agentRunNotFound run.agentRunId))) db := by
  rw [transitionRun, wp_bind, wp_transitionAgentRunStatus]
  cases h : db.runs.get run.agentRunId with
  | none => rfl
  | some r =>
    simp only [wp_getAgentRun, Database.withRun_runs]
    rw [← db.runs.keyed _ _ h, ← AgentRun.moved_agentRunId r target now stopReason, Table.get_put_self]

lemma wp_updateAgentRun (r : AgentRun) (Q : Except Raised PUnit → Database → Prop) :
    wp (onStore (updateAgentRun r)) Q db ↔ match db.runs.get r.agentRunId with
      | some stored =>
        if stored.status = r.status then Q (.ok ⟨⟩) (db.withRun r)
        else Q (.error (.store (.concurrentModification r.agentRunId))) db
      | none => Q (.error (.store (.agentRunNotFound r.agentRunId))) db := by
  simp only [wp_onStore, updateAgentRun, wp_bind, wp_get]
  cases h : db.runs.get r.agentRunId with
  | none => rfl
  | some stored =>
    dsimp only
    split_ifs <;> rfl

lemma wp_updateInvestigation (i : Investigation) (Q : Except Raised PUnit → Database → Prop) :
    wp (onStore (updateInvestigation i)) Q db ↔ match db.investigations.get i.investigationId with
      | some stored =>
        if stored.status = i.status then Q (.ok ⟨⟩) (db.withInvestigation i)
        else Q (.error (.store (.concurrentModification i.investigationId))) db
      | none => Q (.error (.store (.investigationNotFound i.investigationId))) db := by
  simp only [wp_onStore, updateInvestigation, wp_bind, wp_get]
  cases h : db.investigations.get i.investigationId with
  | none => rfl
  | some stored =>
    dsimp only
    split_ifs <;> rfl

lemma wp_onStore_bind {β : Type} (m : StoreM α) (f : α → StoreM β) (Q : Except Raised β → Database → Prop) :
    wp (onStore (m >>= f)) Q db ↔ wp (onStore m >>= fun a => onStore (f a)) Q db := by
  simp only [wp_onStore, wp_bind]
  unfold wp
  cases (m.exec db.toStore).1 <;> rfl

lemma wp_pauseRun (run : AgentRun) (investigation : Investigation) (runStatus : AgentRunStatus)
    (stopReason : StopReason) (now : Time) (Q : Except Raised PUnit → Database → Prop) :
    wp (pauseRun run investigation runStatus stopReason now) Q db ↔
      wp (transitionRun run runStatus now (some stopReason)) (fun r db' => match r with
        | .ok _ => wp (if run.kind = .parent then transitionInvestigation investigation
            (investigationPause runStatus) now (some stopReason) else pure ⟨⟩) Q db'
        | .error e => Q (.error e) db') db := by
  rw [pauseRun, pause, wp_onStore_bind, wp_bind, wp_transitionAgentRunStatus, wp_transitionRun]
  cases db.runs.get run.agentRunId with
  | none => rfl
  | some r =>
    dsimp only
    by_cases hkind : run.kind = .parent
    · simp only [if_pos hkind]
      rfl
    · simp only [if_neg hkind]
      rfl

lemma wp_reloadPair (agentRunId : String) (Q : Except Raised (AgentRun × Investigation) → Database → Prop) :
    wp (reloadPair agentRunId) Q db ↔ match db.runs.get agentRunId with
      | some r => match db.investigations.get r.investigationId with
        | some i => Q (.ok (r, i)) db
        | none => Q (.error (.store (.investigationNotFound r.investigationId))) db
      | none => Q (.error (.store (.agentRunNotFound agentRunId))) db := by
  rw [reloadPair, wp_bind, wp_getAgentRun]
  cases db.runs.get agentRunId with
  | none => rfl
  | some r =>
    simp only [wp_bind, wp_getInvestigation]
    cases db.investigations.get r.investigationId <;> rfl

@[simp] lemma wp_appendMessage (agentRunId : String) (message : Message)
    (Q : Except Raised PUnit → Database → Prop) :
    wp (appendMessage agentRunId message) Q db ↔ Q (.ok ⟨⟩) { db with
      transcripts := Function.update db.transcripts agentRunId (db.transcripts agentRunId ++ [message]) } :=
  Iff.rfl

/-- The record after `transition_tool_call_status`. -/
def ToolCall.moved (c : ToolCall) (target : ToolCallStatus) (record : ToolCall → ToolCall) : ToolCall :=
  { record c with toolCallId := c.toolCallId, status := target }

@[simp] lemma ToolCall.moved_status (c : ToolCall) (target : ToolCallStatus) (record : ToolCall → ToolCall) :
    (c.moved target record).status = target := rfl

@[simp] lemma ToolCall.moved_toolCallId (c : ToolCall) (target : ToolCallStatus)
    (record : ToolCall → ToolCall) : (c.moved target record).toolCallId = c.toolCallId := rfl

lemma wp_transitionToolCallStatus (id : String) (target : ToolCallStatus) (record : ToolCall → ToolCall)
    (Q : Except Raised PUnit → Database → Prop) :
    wp (onStore (transitionToolCallStatus id target record)) Q db ↔
      match db.toolCalls.get id with
      | some c =>
        if toolCallStateMachine.canTransition c.status target then
          Q (.ok ⟨⟩) (db.withToolCall (c.moved target record))
        else Q (.error (.store (.illegalTransition c.status.value target.value))) db
      | none => Q (.error (.store (.toolCallNotFound id))) db := by
  simp only [wp_onStore, transitionToolCallStatus, getToolCall, wp_bind, wp_get]
  cases h : db.toolCalls.get id with
  | none => rfl
  | some c =>
    by_cases hmove : toolCallStateMachine.canTransition c.status target = true
    · simp only [wp_pure, if_pos hmove]
      rfl
    · simp only [wp_pure, if_neg hmove]
      rfl

/-- The record `_load_or_create_tool_call` creates. -/
def ToolRequest.planned (request : ToolRequest) (run : AgentRun) : ToolCall :=
  { toolCallId := request.toolCallId, agentRunId := run.agentRunId
    toolName := request.toolName, status := .planned }

lemma wp_loadOrCreateToolCall (run : AgentRun) (request : ToolRequest)
    (Q : Except Raised ToolCall → Database → Prop) :
    wp (onStore (loadOrCreateToolCall run request)) Q db ↔
      match db.toolCalls.get request.toolCallId with
      | some c => Q (.ok c) db
      | none => Q (.ok (request.planned run)) (db.withToolCall (request.planned run)) := by
  simp only [wp_onStore, loadOrCreateToolCall, wp_bind, wp_get]
  cases h : db.toolCalls.get request.toolCallId with
  | none =>
    simp only [createToolCall, wp_bind, wp_get, h]
    rfl
  | some c => rfl

end Rules
end IncidentLens.Investigations
