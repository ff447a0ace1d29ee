import IncidentLens.Data.Dict
import IncidentLens.Data.Json
import IncidentLens.Data.Numbered

/-!
# The event store

Events are rows of one table, numbered as they are appended. Three identifiers of the payload
are copied to columns of their own, and pages are selected over these.
-/
namespace IncidentLens.Events
open Data List

inductive RuntimeEventType
  | projectCreated | projectUpdated | projectDeleted | approvalRequested | approvalApproved | approvalRejected
  | approvalConsumed | changesetCreated | changesetStatusChanged | changesetRolledBack | dockerActionRequested
  | dockerActionStarted | dockerActionCompleted | dockerActionFailed | remoteSessionConnected
  | remoteSessionDisconnected | remoteSessionFailed | remoteOperationStarted | remoteOperationCompleted
  | logSubscriptionStarted | logSubscriptionPaused | logSubscriptionResumed | logSubscriptionDeleted
  | logBatchWritten | logSourceRotated | logBackpressure | logSubscriptionError | investigationCreated
  | investigationStarted | investigationStatusChanged | investigationCompleted | investigationCancelled
  | investigationFailed | operationQueued | operationRunning | operationCancelRequested | operationSucceeded
  | operationFailed | operationCancelled | operationUncertain | agentRunStarted | agentRunStatusChanged
  | agentRunCompleted | agentRunFailed | agentRunCancelled | agentHook | agentTextDelta | agentMessageCompleted
  | modelRoundStarted | modelRoundCompleted | toolProposed | policyDecided | todoChanged | hypothesisChanged
  | conclusionCreated | contextCompacted | safetyStateChanged | toolCallStarted | toolCallStatusChanged
  | toolCallCompleted | childRunStarted | childRunCompleted | evidenceAppended | registryProposalCreated
  | registryProposalDecided | recoveryStarted | recoveryCompleted
  deriving DecidableEq

def RuntimeEventType.value : RuntimeEventType → String
  | projectCreated => "project.created"
  | projectUpdated => "project.updated"
  | projectDeleted => "project.deleted"
  | approvalRequested => "approval.requested"
  | approvalApproved => "approval.approved"
  | approvalRejected => "approval.rejected"
  | approvalConsumed => "approval.consumed"
  | changesetCreated => "changeset.created"
  | changesetStatusChanged => "changeset.status_changed"
  | changesetRolledBack => "changeset.rolled_back"
  | dockerActionRequested => "docker_action.requested"
  | dockerActionStarted => "docker_action.started"
  | dockerActionCompleted => "docker_action.completed"
  | dockerActionFailed => "docker_action.failed"
  | remoteSessionConnected => "remote_session.connected"
  | remoteSessionDisconnected => "remote_session.disconnected"
  | remoteSessionFailed => "remote_session.failed"
  | remoteOperationStarted => "remote_operation.started"
  | remoteOperationCompleted => "remote_operation.completed"
  | logSubscriptionStarted => "log.subscription_started"
  | logSubscriptionPaused => "log.subscription_paused"
  | logSubscriptionResumed => "log.subscription_resumed"
  | logSubscriptionDeleted => "log.subscription_deleted"
  | logBatchWritten => "log.batch_written"
  | logSourceRotated => "log.source_rotated"
  | logBackpressure => "log.backpressure"
  | logSubscriptionError => "log.subscription_error"
  | investigationCreated => "investigation.created"
  | investigationStarted => "investigation.started"
  | investigationStatusChanged => "investigation.status_changed"
  | investigationCompleted => "investigation.completed"
  | investigationCancelled => "investigation.cancelled"
  | investigationFailed => "investigation.failed"
  | operationQueued => "operation.queued"
  | operationRunning => "operation.running"
  | operationCancelRequested => "operation.cancel_requested"
  | operationSucceeded => "operation.succeeded"
  | operationFailed => "operation.failed"
  | operationCancelled => "operation.cancelled"
  | operationUncertain => "operation.uncertain"
  | agentRunStarted => "agent_run.started"
  | agentRunStatusChanged => "agent_run.status_changed"
  | agentRunCompleted => "agent_run.completed"
  | agentRunFailed => "agent_run.failed"
  | agentRunCancelled => "agent_run.cancelled"
  | agentHook => "agent_hook"
  | agentTextDelta => "agent.text.delta"
  | agentMessageCompleted => "agent.message.completed"
  | modelRoundStarted => "model_round.started"
  | modelRoundCompleted => "model_round.completed"
  | toolProposed => "tool.proposed"
  | policyDecided => "policy.decided"
  | todoChanged => "todo.changed"
  | hypothesisChanged => "hypothesis.changed"
  | conclusionCreated => "conclusion.created"
  | contextCompacted => "context.compacted"
  | safetyStateChanged => "safety_state.changed"
  | toolCallStarted => "tool_call.started"
  | toolCallStatusChanged => "tool_call.status_changed"
  | toolCallCompleted => "tool_call.completed"
  | childRunStarted => "child_run.started"
  | childRunCompleted => "child_run.completed"
  | evidenceAppended => "evidence.appended"
  | registryProposalCreated => "registry_proposal.created"
  | registryProposalDecided => "registry_proposal.decided"
  | recoveryStarted => "recovery.started"
  | recoveryCompleted => "recovery.completed"

def RuntimeEventType.all : List RuntimeEventType :=
  [.projectCreated, .projectUpdated, .projectDeleted, .approvalRequested, .approvalApproved, .approvalRejected,
    .approvalConsumed, .changesetCreated, .changesetStatusChanged, .changesetRolledBack,
    .dockerActionRequested, .dockerActionStarted, .dockerActionCompleted, .dockerActionFailed,
    .remoteSessionConnected, .remoteSessionDisconnected, .remoteSessionFailed, .remoteOperationStarted,
    .remoteOperationCompleted, .logSubscriptionStarted, .logSubscriptionPaused, .logSubscriptionResumed,
    .logSubscriptionDeleted, .logBatchWritten, .logSourceRotated, .logBackpressure, .logSubscriptionError,
    .investigationCreated, .investigationStarted, .investigationStatusChanged, .investigationCompleted,
    .investigationCancelled, .investigationFailed, .operationQueued, .operationRunning,
    .operationCancelRequested, .operationSucceeded, .operationFailed, .operationCancelled, .operationUncertain,
    .agentRunStarted, .agentRunStatusChanged, .agentRunCompleted, .agentRunFailed, .agentRunCancelled,
    .agentHook, .agentTextDelta, .agentMessageCompleted, .modelRoundStarted, .modelRoundCompleted,
    .toolProposed, .policyDecided, .todoChanged, .hypothesisChanged, .conclusionCreated, .contextCompacted,
    .safetyStateChanged, .toolCallStarted, .toolCallStatusChanged, .toolCallCompleted, .childRunStarted,
    .childRunCompleted, .evidenceAppended, .registryProposalCreated, .registryProposalDecided,
    .recoveryStarted, .recoveryCompleted]

/-- `RuntimeEventType(t)`. -/
def RuntimeEventType.parse (t : String) : Option RuntimeEventType := RuntimeEventType.all.find? (·.value = t)

structure RuntimeEvent where
  eventId : String
  sequence : ℕ := 0
  eventType : RuntimeEventType
  occurredAt : String
  payload : Dict String Json

/-- A row of `runtime_events`. -/
structure EventRow where
  sequence : ℕ
  eventId : String
  eventType : RuntimeEventType
  occurredAt : String
  payload : Dict String Json
  sessionId : Option String
  targetId : Option String
  investigationId : Option String

/-- The table in the order of its sequences, with the last one that was ever assigned. -/
structure EventTable where
  rows : List EventRow := []
  assigned : ℕ := 0
  increasing : rows.Pairwise fun a b => a.sequence < b.sequence := by exact List.Pairwise.nil
  bounded : ∀ row ∈ rows, row.sequence ≤ assigned := by exact List.forall_mem_nil _

def payloadString (payload : Dict String Json) (key : String) : Option String :=
  match payload.get? key with
  | some (.string s) => some s
  | _ => none

def eventFromRow (row : EventRow) : RuntimeEvent :=
  ⟨row.eventId, row.sequence, row.eventType, row.occurredAt, row.payload⟩

def rowOf (event : RuntimeEvent) (sequence : ℕ) : EventRow where
  sequence := sequence
  eventId := event.eventId
  eventType := event.eventType
  occurredAt := event.occurredAt
  payload := event.payload
  sessionId := payloadString event.payload "session_id"
  targetId := payloadString event.payload "target_id"
  investigationId := payloadString event.payload "investigation_id"

def EventTable.insert (table : EventTable) (event : RuntimeEvent) : EventTable where
  rows := table.rows ++ [rowOf event (table.assigned + 1)]
  assigned := table.assigned + 1
  increasing := by
    refine pairwise_append.mpr ⟨table.increasing, pairwise_singleton _ _, ?_⟩
    intro row hrow new hnew
    cases mem_singleton.mp hnew
    exact Nat.lt_succ_of_le (table.bounded row hrow)
  bounded := by
    intro row hrow
    rcases mem_append.mp hrow with hrow | hrow
    · exact Nat.le_succ_of_le (table.bounded row hrow)
    · cases mem_singleton.mp hrow
      exact Nat.le_refl _

/-- `append`; an identifier is unique. -/
def append (table : EventTable) (event : RuntimeEvent) : Except String (RuntimeEvent × EventTable) :=
  if table.rows.any (·.eventId = event.eventId) then .error "UNIQUE constraint failed: runtime_events.event_id"
  else .ok ({ event with sequence := table.assigned + 1 }, table.insert event)

structure PageFilter where
  sessionId : Option String := none
  targetId : Option String := none
  investigationId : Option String := none
  eventTypes : List RuntimeEventType := []
  allowedTargetIds : Option (List String) := none

/-- `column = ?`; a null column equals nothing. -/
def equals (column : Option String) (value : String) : Bool := column = some value

/-- `target_id IS NULL OR target_id IN (…)`, and `1 = 0` for an empty allow-list. -/
def admitsTarget (allowedTargetIds : Option (List String)) (targetId : Option String) : Bool :=
  match allowedTargetIds with
  | none => true
  | some ids => if ids = [] then false else targetId.all ids.contains

/-- The clauses of `list_page` beside its cursor. -/
def PageFilter.selects (filter : PageFilter) (row : EventRow) : Bool :=
  (match filter.sessionId, filter.investigationId with
    | some sessionId, some investigationId =>
      equals row.sessionId sessionId || equals row.investigationId investigationId
    | some sessionId, none => equals row.sessionId sessionId
    | none, some investigationId => equals row.investigationId investigationId
    | none, none => true) &&
  filter.targetId.all (equals row.targetId) &&
  (filter.eventTypes.isEmpty || filter.eventTypes.contains row.eventType) &&
  admitsTarget filter.allowedTargetIds row.targetId

structure RuntimeEventPage where
  items : List RuntimeEvent
  nextAfterSequence : ℕ
  hasMore : Bool
  latestSequence : ℕ
  earliestAvailableSequence : ℕ

def listPage (table : EventTable) (filter : PageFilter) (afterSequence limit : ℕ) : Except String RuntimeEventPage :=
  if limit < 1 ∨ 500 < limit then .error "invalid event page bounds"
  else
    let found := (table.rows.filter fun row => afterSequence < row.sequence && filter.selects row).take (limit + 1)
    let items := (found.take limit).map eventFromRow
    .ok
      { items := items
        nextAfterSequence := (items.getLast?.map (·.sequence)).getD afterSequence
        hasMore := limit < found.length
        latestSequence := (table.rows.getLast?.map (·.sequence)).getD 0
        earliestAvailableSequence := (table.rows.head?.map (·.sequence)).getD 0 }

/-! ### Pages -/

def selected (table : EventTable) (filter : PageFilter) (afterSequence : ℕ) : List EventRow :=
  behind EventRow.sequence filter.selects afterSequence table.rows

variable {limit : ℕ}

lemma listPage_eq (table : EventTable) (filter : PageFilter) (afterSequence : ℕ)
    (hlimit : 1 ≤ limit ∧ limit ≤ 500) : ∃ page, listPage table filter afterSequence limit = .ok page ∧
      page.items = ((selected table filter afterSequence).take limit).map eventFromRow ∧
      page.hasMore = decide (limit < (selected table filter afterSequence).length) ∧
      page.nextAfterSequence = (page.items.getLast?.map (·.sequence)).getD afterSequence := by
  have hbounds : ¬ (limit < 1 ∨ 500 < limit) := by omega
  refine ⟨_, by rw [listPage, if_neg hbounds], ?_, ?_, rfl⟩
  · change (((selected table filter afterSequence).take (limit + 1)).take limit).map eventFromRow = _
    rw [take_take, Nat.min_eq_left (Nat.le_succ limit)]
  · change decide (limit < ((selected table filter afterSequence).take (limit + 1)).length) = _
    rw [length_take, Bool.eq_iff_iff, decide_eq_true_eq, decide_eq_true_eq]
    omega

lemma listPage_between (table : EventTable) (filter : PageFilter) (afterSequence high : ℕ)
    (hlimit : 1 ≤ limit ∧ limit ≤ 500) : ∃ page, listPage table filter afterSequence limit = .ok page ∧
      Increasing RuntimeEvent.sequence page.items ∧ ∃ more, (page.hasMore && !page.items.isEmpty) = more ∧
      (more = true → ∀ event ∈ page.items, event.sequence ≤ page.nextAfterSequence) ∧
      (more = true → ∃ last, page.items.getLast? = some last ∧ page.nextAfterSequence = last.sequence) ∧
      page.items.filter (fun event => event.sequence ≤ high) ++
          (if more then (between EventRow.sequence filter.selects page.nextAfterSequence high table.rows).map eventFromRow
            else []) = (between EventRow.sequence filter.selects afterSequence high table.rows).map eventFromRow := by
  obtain ⟨page, hpage, hitems, hmore, hnext⟩ := listPage_eq table filter afterSequence hlimit
  have hsorted : Increasing EventRow.sequence (selected table filter afterSequence) := Increasing.behind table.increasing
  have hincreasing : Increasing RuntimeEvent.sequence page.items := by
    rw [hitems]
    exact pairwise_map.mpr (hsorted.sublist (take_sublist _ _))
  have hbetween : ∀ cursor, (between EventRow.sequence filter.selects cursor high table.rows).map eventFromRow =
      ((behind EventRow.sequence filter.selects cursor table.rows).map eventFromRow).filter
        fun event => event.sequence ≤ high := by
    intro cursor
    rw [← filter_le_behind, filter_map]
    rfl
  refine ⟨page, hpage, hincreasing, _, rfl, ?_⟩
  by_cases hfull : limit < (selected table filter afterSequence).length
  · obtain ⟨last, hlast⟩ : ∃ last, ((selected table filter afterSequence).take limit).getLast? = some last := by
      refine Option.ne_none_iff_exists'.mp fun hnone => ?_
      rw [getLast?_eq_none_iff, take_eq_nil_iff] at hnone
      rcases hnone with hzero | hnil
      · omega
      · rw [hnil] at hfull
        cases hfull
    have hend : page.items.getLast? = some (eventFromRow last) := by
      rw [hitems, getLast?_map, hlast, Option.map_some]
    have hcursor : page.nextAfterSequence = last.sequence := by
      rw [hnext, hend]
      rfl
    have hnonempty : page.items.isEmpty = false := by
      cases hlist : page.items with
      | nil =>
        rw [hlist] at hend
        cases hend
      | cons event items => rfl
    rw [hmore, hnonempty, hcursor, decide_eq_true hfull]
    refine ⟨fun _ event hevent => ?_, fun _ => ⟨eventFromRow last, hend, rfl⟩, ?_⟩
    · obtain ⟨before, hbefore⟩ := getLast?_eq_some_iff.mp hend
      rw [hbefore] at hevent hincreasing
      rcases mem_append.mp hevent with hevent | hevent
      · exact Nat.le_of_lt ((pairwise_append.mp hincreasing).2.2 event hevent _ (mem_singleton_self _))
      · rw [mem_singleton.mp hevent]
        exact Nat.le_refl _
    · rw [Bool.not_false, Bool.and_self, if_pos rfl, hbetween, hbetween, hitems,
        Increasing.behind_getLast table.increasing hlast, ← filter_append, ← map_append]
      rw [selected, take_append_drop]
  · rw [hmore, decide_eq_false hfull, Bool.false_and]
    refine ⟨nofun, nofun, ?_⟩
    rw [if_neg Bool.false_ne_true, append_nil, hbetween, hitems, take_of_length_le (Nat.le_of_not_lt hfull), selected]

lemma mem_listPage_insert {table : EventTable} {filter : PageFilter} {event : RuntimeEvent}
    (hlimit : 1 ≤ limit ∧ limit ≤ 500) : (∃ page, listPage (table.insert event) filter table.assigned limit = .ok page ∧
      { event with sequence := table.assigned + 1 } ∈ page.items) ↔
        filter.selects (rowOf event (table.assigned + 1)) = true := by
  have hfound : selected (table.insert event) filter table.assigned =
      [rowOf event (table.assigned + 1)].filter filter.selects := by
    have hold : table.rows.filter (fun row => table.assigned < row.sequence && filter.selects row) = [] := by
      refine filter_eq_nil_iff.mpr fun row hrow => ?_
      have := table.bounded row hrow
      simp only [Bool.and_eq_true, decide_eq_true_eq]
      omega
    simp only [selected, behind, EventTable.insert, filter_append, hold, nil_append]
    refine filter_congr fun row hrow => ?_
    cases mem_singleton.mp hrow
    simp [rowOf]
  obtain ⟨page, hpage, hitems, -, -⟩ := listPage_eq (table.insert event) filter table.assigned hlimit
  rw [hfound] at hitems
  obtain ⟨n, rfl⟩ := Nat.exists_eq_add_of_le hlimit.1
  constructor
  · rintro ⟨page', hpage', hmem⟩
    rw [hpage] at hpage'
    cases hpage'
    rw [hitems] at hmem
    by_contra hselects
    rw [filter_cons_of_neg hselects, filter_nil] at hmem
    simp at hmem
  · intro hselects
    refine ⟨page, hpage, ?_⟩
    rw [hitems, filter_cons_of_pos hselects, filter_nil, Nat.add_comm 1, take_succ_cons, map_cons]
    exact mem_cons_self

end IncidentLens.Events
