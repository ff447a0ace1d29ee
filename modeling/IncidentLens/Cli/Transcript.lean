import IncidentLens.Cli.Reducer
import IncidentLens.Data.Clusters
import IncidentLens.Data.Upserts
import IncidentLens.Operations.Store

/-!
# The transcript of the reducer

The text and tool blocks of a conversation, its todo list and its operations, under the events
of the stream. Other rows of the transcript, approvals, usage and activity are left out.
-/
namespace IncidentLens.Cli
open Data Events Operations List

namespace JsValue

/-- `a ?? b`. -/
def orElse : JsValue → JsValue → JsValue
  | .undefined, b => b
  | .null, b => b
  | a, _ => a

def isNullish : JsValue → Bool
  | .undefined => true
  | .null => true
  | _ => false

def isTruthy : JsValue → Bool
  | .undefined => false
  | .null => false
  | .boolean b => b
  | .number n => decide (n ≠ 0)
  | .string s => decide (s ≠ "")
  | .array _ => true
  | .object _ => true

/-- `a === b`; arrays and objects that came with different events are never the same. -/
def same : JsValue → JsValue → Bool
  | .undefined, .undefined => true
  | .null, .null => true
  | .boolean a, .boolean b => a == b
  | .number a, .number b => decide (a = b)
  | .string a, .string b => decide (a = b)
  | _, _ => false

/-- The string, if `typeof a === 'string'`. -/
def string? : JsValue → Option String
  | .string s => some s
  | _ => none

def ofOption (s : Option String) : JsValue := (s.map JsValue.string).getD .undefined

end JsValue

def field (event : Dict String JsValue) (key : String) : JsValue := (event.get? key).getD .undefined

def eventTypeOf (event : Dict String JsValue) : Option RuntimeEventType :=
  (field event "event_type").string?.bind RuntimeEventType.parse

structure TextBlock where
  messageId : JsValue
  blockId : JsValue
  content : String
  finalized : Option Bool := none

inductive ToolStatus
  | proposed | running | waitingApproval | succeeded | failed | uncertain
  deriving DecidableEq

@[ext]
structure ToolBlock where
  toolId : String
  toolName : JsValue
  status : ToolStatus
  error : JsValue
  summary : JsValue

inductive ConversationItem
  | text (block : TextBlock)
  | tool (block : ToolBlock)

inductive TodoStatus
  | pending | inProgress | completed
  deriving DecidableEq

structure TodoItemState where
  todoId : String
  content : String
  status : TodoStatus
  deriving DecidableEq

structure OperationView where
  operationId : String
  status : OperationStatus

def OperationView.isTerminal (operation : OperationView) : Bool :=
  decide (operation.status ∈ [OperationStatus.succeeded, .failed, .cancelled])

structure Transcript extends CliState where
  messages : List ConversationItem := []
  todos : List TodoItemState := []
  operations : Dict String OperationView := []
  activeOperationId : Option String := none

open Transcript

/-! ### Text -/

/-- The first block of a message is rewritten in its place, or a new one follows the others. -/
def putText (p : TextBlock → Bool) (update : TextBlock → TextBlock) (new : TextBlock) :
    List ConversationItem → List ConversationItem
  | [] => [.text new]
  | .text block :: messages =>
    if p block then .text (update block) :: messages else .text block :: putText p update new messages
  | item :: messages => item :: putText p update new messages

def deltaOf (event : Dict String JsValue) : String :=
  ((field event "delta").string?.orElse fun _ => (field event "text").string?).getD ""

def mergeTextDelta (messages : List ConversationItem) (event : Dict String JsValue) : List ConversationItem :=
  let messageId := field event "message_id"
  let blockId := field event "block_id"
  putText (fun block => block.messageId.same messageId && block.blockId.same blockId)
    (fun block => { block with content := block.content ++ deltaOf event }) ⟨messageId, blockId, deltaOf event, some false⟩
    messages

def finalizeMessage (messages : List ConversationItem) (event : Dict String JsValue) : List ConversationItem :=
  messages.map fun
    | .text block => .text (if block.messageId.same (field event "message_id") then { block with finalized := some true } else block)
    | item => item

/-! ### Tools -/

def changedStatus : JsValue → ToolStatus
  | .string s =>
    if s = "failed" then .failed
    else if s = "succeeded" then .succeeded
    else if s = "waiting_approval" then .waitingApproval
    else if s = "uncertain" then .uncertain
    else .running
  | _ => .running

def toolStatus : RuntimeEventType → JsValue → Option ToolStatus
  | .toolProposed, _ => some .proposed
  | .toolCallStarted, _ => some .running
  | .toolCallCompleted, _ => some .succeeded
  | .toolCallStatusChanged, status => some (changedStatus status)
  | _, _ => none

/-- `tool_id ?? tool_call_id`, if it is a string with something in it. -/
def toolIdOf (event : Dict String JsValue) : Option String :=
  ((field event "tool_id").orElse (field event "tool_call_id")).string?.filter fun id => decide (id ≠ "")

def putTool (toolId : String) (update : ToolBlock → ToolBlock) (new : ToolBlock) :
    List ConversationItem → List ConversationItem
  | [] => [.tool new]
  | .tool block :: messages =>
    if block.toolId = toolId then .tool (update block) :: messages else .tool block :: putTool toolId update new messages
  | item :: messages => item :: putTool toolId update new messages

def toolName (event : Dict String JsValue) : JsValue :=
  if (field event "tool_name").isTruthy then field event "tool_name" else .string "unknown"

def updateToolStatus (messages : List ConversationItem) (event : Dict String JsValue) (type : RuntimeEventType)
    (operationAlreadyTerminal : Bool) : List ConversationItem :=
  match toolIdOf event with
  | none => messages
  | some toolId =>
    let newStatus :=
      if operationAlreadyTerminal && decide (type ∈ [RuntimeEventType.toolProposed, .toolCallStarted]) then
        some .uncertain
      else toolStatus type (field event "status")
    match newStatus with
    | none => messages
    | some status =>
      let given := (field event "summary").orElse (field event "result")
      putTool toolId
        (fun block => { block with status := status, error := field event "error", summary := given.orElse block.summary })
        ⟨toolId, toolName event, status, field event "error", given⟩ messages

/-! ### Todos -/

def todoStatus : JsValue → TodoStatus
  | .string s => if s = "completed" then .completed else if s = "in_progress" then .inProgress else .pending
  | _ => .pending

def todoItem : JsValue → Option TodoItemState
  | .object item =>
    match field item "todo_id", field item "content" with
    | .string todoId, .string content => some ⟨todoId, content, todoStatus (field item "status")⟩
    | _, _ => none
  | _ => none

def todoItems : JsValue → List TodoItemState
  | .array items => items.filterMap todoItem
  | _ => []

def complete (todo : TodoItemState) : TodoItemState := { todo with status := .completed }

/-! ### Events -/

namespace Transcript

def operationTerminal (s : Transcript) : Bool :=
  match s.activeOperationId with
  | none => false
  | some id => decide (id ≠ "") && (s.operations.get? id).any OperationView.isTerminal

/-- An event that is not rejected. -/
def apply (s : Transcript) (event : Dict String JsValue) : Transcript :=
  let counted := { s with lastSequence := sequenceOf event }
  match eventTypeOf event with
  | some .agentTextDelta => { counted with messages := mergeTextDelta s.messages event }
  | some .agentMessageCompleted => { counted with messages := finalizeMessage s.messages event }
  | some .toolProposed => { counted with messages := updateToolStatus s.messages event .toolProposed s.operationTerminal }
  | some .toolCallStarted => { counted with messages := updateToolStatus s.messages event .toolCallStarted s.operationTerminal }
  | some .toolCallCompleted => { counted with messages := updateToolStatus s.messages event .toolCallCompleted s.operationTerminal }
  | some .toolCallStatusChanged =>
    { counted with messages := updateToolStatus s.messages event .toolCallStatusChanged s.operationTerminal }
  | some .todoChanged => { counted with todos := todoItems (field event "items") }
  | some .agentRunCompleted => { counted with todos := s.todos.map complete }
  | _ => counted

def handleStreamEvent (coerced : JsValue → JsValue → Bool) (s : Transcript) (event : Dict String JsValue) : Transcript :=
  if s.rejects coerced event then s else s.apply event

/-- The transcript under a history of events, from the start. -/
def replay (coerced : JsValue → JsValue → Bool) (events : List (Dict String JsValue)) : Transcript :=
  events.foldl (handleStreamEvent coerced) {}

end Transcript

/-! ### What a history leaves -/

/-- The events that the reducer does not reject, by a running mark. -/
def admitted (coerced : JsValue → JsValue → Bool) : JsValue → List (Dict String JsValue) → List (Dict String JsValue)
  | _, [] => []
  | mark, event :: events =>
    if lessOrEqual coerced (sequenceOf event) mark then admitted coerced mark events
    else event :: admitted coerced (sequenceOf event) events

def toolsOf (messages : List ConversationItem) : Dict String ToolBlock :=
  messages.filterMap fun
    | .tool block => some (block.toolId, block)
    | .text _ => none

def textsOf (messages : List ConversationItem) : List TextBlock :=
  messages.filterMap fun
    | .tool _ => none
    | .text block => some block

def toolStatusOf (event : Dict String JsValue) : Option ToolStatus :=
  (eventTypeOf event).bind fun type => toolStatus type (field event "status")

def summaryOf (event : Dict String JsValue) : JsValue := (field event "summary").orElse (field event "result")

def givenSummary (event : Dict String JsValue) : Option JsValue :=
  if (summaryOf event).isNullish then none else some (summaryOf event)

def reducedTools : Upsert (Dict String JsValue) String ToolBlock where
  key event := if (toolStatusOf event).isSome then toolIdOf event else none
  insert event :=
    ⟨(toolIdOf event).getD "", toolName event, (toolStatusOf event).getD .running, field event "error", summaryOf event⟩
  update block event := { block with
    status := (toolStatusOf event).getD .running
    error := field event "error"
    summary := (summaryOf event).orElse block.summary }

def saysText (event : Dict String JsValue) : Bool := decide (eventTypeOf event = some .agentTextDelta)

def sameBlock (a b : Dict String JsValue) : Bool :=
  (field a "message_id").same (field b "message_id") && (field a "block_id").same (field b "block_id")

/-- The text that the deltas of a block make up. -/
def saidBy (block : Dict String JsValue × List (Dict String JsValue)) : JsValue × String :=
  (field block.1 "message_id", block.2.foldl (fun text event => text ++ deltaOf event) (deltaOf block.1))

/-- What the text deltas of a history say, message by message. -/
def said (events : List (Dict String JsValue)) : List (JsValue × String) :=
  (clusters sameBlock (events.filter saysText)).map saidBy

/-- The texts that are shown, with their messages. -/
def shownTexts (messages : List ConversationItem) : List (JsValue × String) :=
  (textsOf messages).map fun block => (block.messageId, block.content)

def changesTodos (event : Dict String JsValue) : Bool := decide (eventTypeOf event = some .todoChanged)

def completesRun (event : Dict String JsValue) : Bool := decide (eventTypeOf event = some .agentRunCompleted)

/-- The items of the last change, completed where a run was completed after it. -/
def settledTodos (events : List (Dict String JsValue)) : List TodoItemState :=
  let items := ((events.reverse.find? changesTodos).map fun event => todoItems (field event "items")).getD []
  if (events.reverse.takeWhile fun event => !changesTodos event).any completesRun then items.map complete else items

section
variable {coerced : JsValue → JsValue → Bool} {s : Transcript} {event : Dict String JsValue}
  {events : List (Dict String JsValue)} {messages : List ConversationItem}

lemma Transcript.apply_lastSequence : (s.apply event).lastSequence = sequenceOf event := by
  unfold apply
  split <;> rfl

lemma Transcript.apply_operations : (s.apply event).operations = s.operations := by
  unfold apply
  split <;> rfl

lemma Transcript.apply_activeOperationId : (s.apply event).activeOperationId = s.activeOperationId := by
  unfold apply
  split <;> rfl

lemma Transcript.foldl_handleStreamEvent :
    events.foldl (handleStreamEvent coerced) s = (admitted coerced s.lastSequence events).foldl apply s := by
  induction events generalizing s with
  | nil => rfl
  | cons event events ih =>
    rw [foldl_cons, ih, admitted, handleStreamEvent, CliState.rejects]
    split_ifs with hrejected
    · rfl
    · rw [apply_lastSequence, foldl_cons]

lemma Transcript.replay_eq :
    replay coerced events = (admitted coerced (.number 0) events).foldl apply {} := foldl_handleStreamEvent

lemma Transcript.foldl_operations : (events.foldl apply s).operations = s.operations := by
  induction events generalizing s with
  | nil => rfl
  | cons event events ih => rw [foldl_cons, ih, apply_operations]

/-! ### Its tools -/

@[simp] lemma toolsOf_cons_text (block : TextBlock) : toolsOf (.text block :: messages) = toolsOf messages := rfl

@[simp] lemma toolsOf_cons_tool (block : ToolBlock) :
    toolsOf (.tool block :: messages) = (block.toolId, block) :: toolsOf messages := rfl

lemma toolsOf_putText (p : TextBlock → Bool) (update : TextBlock → TextBlock) (new : TextBlock) :
    toolsOf (putText p update new messages) = toolsOf messages := by
  induction messages with
  | nil => rfl
  | cons item messages ih =>
    cases item with
    | text block =>
      simp only [putText]
      split_ifs
      · rfl
      · exact ih
    | tool block => simp [putText, ih]

lemma toolsOf_finalizeMessage : toolsOf (finalizeMessage messages event) = toolsOf messages := by
  induction messages with
  | nil => rfl
  | cons item messages ih =>
    cases item with
    | text block => exact ih
    | tool block => simpa [finalizeMessage] using ih

lemma toolsOf_putTool {toolId : String} {update : ToolBlock → ToolBlock} {new : ToolBlock} (hnew : new.toolId = toolId)
    (hupdate : ∀ block, (update block).toolId = block.toolId) : toolsOf (putTool toolId update new messages) =
      (toolsOf messages).set toolId (((toolsOf messages).get? toolId).elim new update) := by
  induction messages with
  | nil =>
    subst hnew
    rfl
  | cons item messages ih =>
    cases item with
    | text block => exact ih
    | tool block =>
      simp only [putTool, toolsOf_cons_tool, Dict.set, Dict.get?]
      split_ifs with hid
      · simp [hupdate, hid]
      · simp [ih]

lemma toolsOf_updateToolStatus {type : RuntimeEventType} (htype : eventTypeOf event = some type) :
    toolsOf (updateToolStatus messages event type false) = reducedTools.step (toolsOf messages) event := by
  have hstatus : toolStatusOf event = toolStatus type (field event "status") := by
    rw [toolStatusOf, htype]
    rfl
  unfold updateToolStatus Upsert.step
  cases hid : toolIdOf event with
  | none => simp [reducedTools, hid]
  | some toolId =>
    cases hnew : toolStatus type (field event "status") with
    | none => simp [reducedTools, hstatus, hnew]
    | some status =>
      have hkey : reducedTools.key event = some toolId := by simp [reducedTools, hstatus, hnew, hid]
      simp only [hkey, Bool.false_and, Bool.false_eq_true, if_false]
      rw [toolsOf_putTool]
      · refine congrArg _ ?_
        cases (toolsOf messages).get? toolId with
        | none => simp [Upsert.put, reducedTools, summaryOf, hid, hstatus, hnew]
        | some block => simp [Upsert.put, reducedTools, summaryOf, hstatus, hnew]
      · rfl
      · intro block
        rfl

lemma reducedTools_step_of_not (hstatus : toolStatusOf event = none) (d : Dict String ToolBlock) :
    reducedTools.step d event = d := by
  simp [Upsert.step, reducedTools, hstatus]

lemma toolsOf_apply (hactive : s.activeOperationId = none) :
    toolsOf (s.apply event).messages = reducedTools.step (toolsOf s.messages) event := by
  have hterminal : s.operationTerminal = false := by rw [operationTerminal, hactive]
  unfold apply
  rw [hterminal]
  split
  case h_1 htype =>
    rw [reducedTools_step_of_not (by rw [toolStatusOf, htype]; rfl)]
    exact toolsOf_putText _ _ _
  case h_2 htype =>
    rw [reducedTools_step_of_not (by rw [toolStatusOf, htype]; rfl)]
    exact toolsOf_finalizeMessage
  case h_3 htype => exact toolsOf_updateToolStatus htype
  case h_4 htype => exact toolsOf_updateToolStatus htype
  case h_5 htype => exact toolsOf_updateToolStatus htype
  case h_6 htype => exact toolsOf_updateToolStatus htype
  case h_7 htype => rw [reducedTools_step_of_not (by rw [toolStatusOf, htype]; rfl)]
  case h_8 htype => rw [reducedTools_step_of_not (by rw [toolStatusOf, htype]; rfl)]
  case h_9 _ _ hproposed hstarted hcompleted hchanged _ _ =>
    have hstatus : toolStatusOf event = none := by
      unfold toolStatusOf
      cases htype : eventTypeOf event with
      | none => rfl
      | some type =>
        change toolStatus type (field event "status") = none
        unfold toolStatus
        split
        · exact absurd htype hproposed
        · exact absurd htype hstarted
        · exact absurd htype hcompleted
        · exact absurd htype hchanged
        · rfl
    rw [reducedTools_step_of_not hstatus]

lemma toolsOf_foldl (hactive : s.activeOperationId = none) :
    toolsOf (events.foldl apply s).messages = events.foldl reducedTools.step (toolsOf s.messages) := by
  induction events generalizing s with
  | nil => rfl
  | cons event events ih =>
    rw [foldl_cons, foldl_cons, ih (apply_activeOperationId.trans hactive), toolsOf_apply hactive]

lemma toolsOf_replay : toolsOf (replay coerced events).messages =
    reducedTools.collect (admitted coerced (.number 0) events) := by
  rw [replay_eq, toolsOf_foldl rfl]
  rfl

/-! ### Its todos -/

lemma Transcript.apply_todos : (s.apply event).todos =
    if changesTodos event then todoItems (field event "items")
    else if completesRun event then s.todos.map complete else s.todos := by
  unfold apply changesTodos completesRun
  split
  case h_9 _ _ _ _ _ _ htodos hrun =>
    rw [if_neg fun h => htodos (of_decide_eq_true h), if_neg fun h => hrun (of_decide_eq_true h)]
  all_goals
    rename_i htype
    simp [htype]

@[simp] lemma complete_complete (todo : TodoItemState) : complete (complete todo) = complete todo := rfl

lemma settledTodos_append : settledTodos (events ++ [event]) =
    if changesTodos event then todoItems (field event "items")
    else if completesRun event then (settledTodos events).map complete else settledTodos events := by
  unfold settledTodos
  rw [reverse_append, reverse_singleton, singleton_append]
  by_cases hchange : changesTodos event = true
  · simp [hchange]
  · simp only [find?_cons, hchange, takeWhile_cons]
    by_cases hcomplete : completesRun event = true
    · -- what was completed before stays so
      by_cases hbefore : ((events.reverse.takeWhile fun e => !changesTodos e).any completesRun) = true
      · simp [hcomplete, hbefore, Function.comp_def]
      · simp [hcomplete, hbefore]
    · simp [hcomplete]

lemma todos_foldl : (events.foldl apply {}).todos = settledTodos events := by
  induction events using reverseRecOn with
  | nil => rfl
  | append_singleton events event ih =>
    rw [foldl_append, foldl_cons, foldl_nil, apply_todos, settledTodos_append, ih]

lemma todos_replay : (replay coerced events).todos = settledTodos (admitted coerced (.number 0) events) := by
  rw [replay_eq, todos_foldl]

/-! ### Its texts -/

@[simp] lemma textsOf_cons_text (block : TextBlock) : textsOf (.text block :: messages) = block :: textsOf messages := rfl

@[simp] lemma textsOf_cons_tool (block : ToolBlock) : textsOf (.tool block :: messages) = textsOf messages := rfl

lemma JsValue.same_symm (a b : JsValue) (h : a.same b = true) : b.same a = true := by
  unfold JsValue.same at h ⊢
  split at h <;> simp_all

lemma JsValue.same_trans (a b c : JsValue) (hab : a.same b = true) (hbc : b.same c = true) : a.same c = true := by
  unfold JsValue.same at hab hbc ⊢
  split at hab <;> simp_all

lemma sameBlock_symm (a b : Dict String JsValue) (h : sameBlock a b = true) : sameBlock b a = true := by
  obtain ⟨hmessage, hblock⟩ := Bool.and_eq_true_iff.mp h
  exact Bool.and_eq_true_iff.mpr ⟨JsValue.same_symm _ _ hmessage, JsValue.same_symm _ _ hblock⟩

lemma sameBlock_trans (a b c : Dict String JsValue) (hab : sameBlock a b = true) (hbc : sameBlock b c = true) :
    sameBlock a c = true := by
  obtain ⟨hmessage, hblock⟩ := Bool.and_eq_true_iff.mp hab
  obtain ⟨hmessage', hblock'⟩ := Bool.and_eq_true_iff.mp hbc
  exact Bool.and_eq_true_iff.mpr
    ⟨JsValue.same_trans _ _ _ hmessage hmessage', JsValue.same_trans _ _ _ hblock hblock'⟩

/-- A text block is the cluster of its deltas. -/
def TextBlock.Says (block : TextBlock) (c : Dict String JsValue × List (Dict String JsValue)) : Prop :=
  block.messageId = field c.1 "message_id" ∧ block.blockId = field c.1 "block_id" ∧ block.content = (saidBy c).2

variable {cs : List (Dict String JsValue × List (Dict String JsValue))}

lemma says_mergeTextDelta (h : List.Forall₂ TextBlock.Says (textsOf messages) cs) :
    List.Forall₂ TextBlock.Says (textsOf (mergeTextDelta messages event)) (place sameBlock cs event) := by
  induction messages generalizing cs with
  | nil =>
    cases h
    exact .cons ⟨rfl, rfl, rfl⟩ .nil
  | cons item messages ih =>
    cases item with
    | tool block => exact ih h
    | text block =>
      rw [textsOf_cons_text] at h
      cases h with
      | @cons _ c _ cs hblock hrest =>
        obtain ⟨hmessage, hid, hcontent⟩ := hblock
        have hsame : (block.messageId.same (field event "message_id") && block.blockId.same (field event "block_id")) =
            sameBlock c.1 event := by
          rw [hmessage, hid, sameBlock]
        simp only [mergeTextDelta, putText, place, hsame]
        split_ifs with hjoins
        · refine .cons ⟨hmessage, hid, ?_⟩ hrest
          simp [hcontent, saidBy]
        · exact .cons ⟨hmessage, hid, hcontent⟩ (ih hrest)

lemma textsOf_putTool (toolId : String) (update : ToolBlock → ToolBlock) (new : ToolBlock) :
    textsOf (putTool toolId update new messages) = textsOf messages := by
  induction messages with
  | nil => rfl
  | cons item messages ih =>
    cases item with
    | text block => simp [putTool, ih]
    | tool block =>
      simp only [putTool]
      split_ifs
      · rfl
      · exact ih

lemma textsOf_updateToolStatus {type : RuntimeEventType} {operationAlreadyTerminal : Bool} :
    textsOf (updateToolStatus messages event type operationAlreadyTerminal) = textsOf messages := by
  unfold updateToolStatus
  split
  · rfl
  · dsimp only
    split
    · rfl
    · exact textsOf_putTool _ _ _

lemma says_finalizeMessage (h : List.Forall₂ TextBlock.Says (textsOf messages) cs) :
    List.Forall₂ TextBlock.Says (textsOf (finalizeMessage messages event)) cs := by
  induction messages generalizing cs with
  | nil => exact h
  | cons item messages ih =>
    cases item with
    | tool block => exact ih h
    | text block =>
      rw [textsOf_cons_text] at h
      cases h with
      | cons hblock hrest =>
        refine .cons ?_ (ih hrest)
        split_ifs
        · exact hblock
        · exact hblock

lemma says_apply (h : List.Forall₂ TextBlock.Says (textsOf s.messages) cs) :
    List.Forall₂ TextBlock.Says (textsOf (s.apply event).messages)
      (if saysText event then place sameBlock cs event else cs) := by
  unfold apply saysText
  split
  case h_1 htype =>
    simp only [htype, decide_true, if_true]
    exact says_mergeTextDelta h
  case h_9 hdelta _ _ _ _ _ _ _ =>
    rw [if_neg fun h => hdelta (of_decide_eq_true h)]
    exact h
  all_goals
    rename_i htype
    simp [htype]
  · exact says_finalizeMessage h
  · rwa [textsOf_updateToolStatus]
  · rwa [textsOf_updateToolStatus]
  · rwa [textsOf_updateToolStatus]
  · rwa [textsOf_updateToolStatus]
  · exact h
  · exact h

lemma says_foldl (h : List.Forall₂ TextBlock.Says (textsOf s.messages) cs) :
    List.Forall₂ TextBlock.Says (textsOf (events.foldl apply s).messages)
      ((events.filter saysText).foldl (place sameBlock) cs) := by
  induction events generalizing s cs with
  | nil => exact h
  | cons event events ih =>
    have hnext := @says_apply s event cs h
    rw [foldl_cons, filter_cons]
    split_ifs with hsays
    · rw [if_pos hsays] at hnext
      exact ih hnext
    · rw [if_neg hsays] at hnext
      exact ih hnext

lemma shownTexts_replay : shownTexts (replay coerced events).messages =
    said (admitted coerced (.number 0) events) := by
  have hsays := @says_foldl {} (admitted coerced (.number 0) events) [] .nil
  rw [foldl_place sameBlock_symm sameBlock_trans, ← replay_eq] at hsays
  rw [shownTexts, said]
  generalize textsOf (replay coerced events).messages = texts at hsays ⊢
  generalize clusters sameBlock ((admitted coerced (.number 0) events).filter saysText) = cs at hsays ⊢
  induction hsays with
  | nil => rfl
  | cons hblock _ ih =>
    rw [map_cons, map_cons, ih]
    obtain ⟨hmessage, -, hcontent⟩ := hblock
    rw [hmessage, hcontent]
    rfl

lemma said_of_filter (h : events.filter saysText = [event]) : said events = [saidBy (event, [])] := by
  rw [said, h, clusters, filter_nil, filter_nil, clusters, map_singleton]

end
end IncidentLens.Cli
