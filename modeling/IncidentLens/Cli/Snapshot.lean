import IncidentLens.Cli.Recovery
import IncidentLens.Cli.Transcript

/-!
# The snapshot of a recovery

After a gap the transcript is built anew from pages of the session's events behind the cursor,
from its messages, and from the operations that the events name. The requests run beside the
writes of the server, and every page is selected by the investigation to which the session is
bound when it is read.
-/
namespace IncidentLens.Cli
open Data Effects Events Operations StreamEnvelope Upsert List

/-! ### Envelopes -/

mutual

/-- `JSON.parse`; `numeral` reads the literal of a number. -/
def JsValue.ofJson (numeral : String → ℚ) : Json → JsValue
  | .null => .null
  | .bool b => .boolean b
  | .number literal => .number (numeral literal)
  | .string s => .string s
  | .array items => .array (JsValue.ofItems numeral items)
  | .object members => .object (JsValue.ofMembers numeral members)

def JsValue.ofItems (numeral : String → ℚ) : List Json → List JsValue
  | [] => []
  | item :: items => JsValue.ofJson numeral item :: JsValue.ofItems numeral items

def JsValue.ofMembers (numeral : String → ℚ) : List (String × Json) → List (String × JsValue)
  | [] => []
  | (key, value) :: members => (key, JsValue.ofJson numeral value) :: JsValue.ofMembers numeral members

end

/-- `_to_envelope`, as the client reads it. -/
def toEnvelope (numeral : String → ℚ) (event : RuntimeEvent) : StreamEnvelope where
  eventType := event.eventType
  occurredAt := event.occurredAt
  sequence := some event.sequence
  eventId := some event.eventId
  investigationId := payloadString event.payload "investigation_id"
  sessionId := payloadString event.payload "session_id"
  targetId := payloadString event.payload "target_id"
  payload := some (JsValue.ofMembers numeral event.payload)

def StreamEnvelope.get (e : StreamEnvelope) (key : String) : JsValue := field (e.payload.getD []) key

/-! ### Projections -/

/-- `[...events].sort((a, b) => a.sequence - b.sequence)`. -/
def bySequence (events : List StreamEnvelope) : List StreamEnvelope :=
  events.insertionSort fun a b => a.sequence.getD 0 ≤ b.sequence.getD 0

def latestFirst (events : List StreamEnvelope) : List StreamEnvelope :=
  events.insertionSort fun a b => b.sequence.getD 0 ≤ a.sequence.getD 0

structure ToolEventSnapshot where
  toolId : String
  toolName : String
  status : ToolStatus
  summary : Option String
  error : Option String

def StreamEnvelope.toolStatus (e : StreamEnvelope) : Option ToolStatus := Cli.toolStatus e.eventType (e.get "status")

def StreamEnvelope.toolName (e : StreamEnvelope) : Option String := (e.get "tool_name").string?

def StreamEnvelope.summary (e : StreamEnvelope) : Option String := ((e.get "summary").orElse (e.get "result")).string?

def StreamEnvelope.error (e : StreamEnvelope) : Option String := ((e.get "error").orElse (e.get "error_redacted")).string?

/-- The tools of `projectToolEvents`: only the tool events have a status. -/
def projectedTools : Upsert StreamEnvelope String ToolEventSnapshot where
  key e := if e.toolStatus.isSome then toolIdOf (e.payload.getD []) else none
  insert e :=
    ⟨(toolIdOf (e.payload.getD [])).getD "", e.toolName.getD "unknown", e.toolStatus.getD .running, e.summary, e.error⟩
  update existing e := { existing with
    toolName := e.toolName.getD existing.toolName
    status := e.toolStatus.getD .running
    summary := e.summary.orElse fun _ => existing.summary
    error := e.error.orElse fun _ => existing.error }

def projectToolEvents (events : List StreamEnvelope) : List ToolEventSnapshot :=
  (projectedTools.collect (bySequence events)).map Prod.snd

def projectTodoEvents (events : List StreamEnvelope) : List TodoItemState :=
  match (latestFirst (events.filter fun e => decide (e.eventType = .todoChanged))).head? with
  | some latest => todoItems (latest.get "items")
  | none => []

def activeOperationEventTypes : List RuntimeEventType :=
  [.operationQueued, .operationRunning, .operationCancelRequested, .operationUncertain]

/-- The operations that `resolveActiveOperation` looks up, in their order. -/
def operationCandidates (events : List StreamEnvelope) : List String :=
  (latestFirst (events.filter fun e => decide (e.eventType ∈ activeOperationEventTypes))).filterMap fun e =>
    (e.get "operation_id").string?.filter fun id => decide (id ≠ "")

structure AgentMessageView where
  messageId : String
  content : String

/-- `Array.from(new Map(items.map((item) => [key(item), item])).values())`. -/
def uniqueBy {α : Type} (key : α → String) (items : List α) : List α :=
  (items.foldl (fun d item => Dict.set d (key item) item) []).map Prod.snd

def StreamEnvelope.identity (e : StreamEnvelope) : String :=
  e.eventId.getD (e.sessionId.getD "null" ++ ":" ++ (e.sequence.map fun n => toString n).getD "null")

/-! ### The recovery -/

/-- A page that was read: what the session was bound to, and the sequences it covers. -/
structure PageRead where
  investigationId : Option String
  afterSequence : ℕ
  nextAfterSequence : ℕ

/-- The requests of a recovery and what they brought. -/
structure Gathering where
  cursor : ℕ
  afterSequence : ℕ
  hasMore : Bool := true
  events : List StreamEnvelope := []
  reads : List PageRead := []
  messages : List AgentMessageView := []
  messagesLeft : Bool := true
  /-- The operations still to be looked up, once all else has come. -/
  lookups : Option (List String) := none
  answers : List (Option OperationView) := []
  operation : Option OperationView := none

structure GapSnapshot where
  messages : List TextBlock
  tools : List ToolEventSnapshot
  todos : List TodoItemState
  operations : Dict String OperationView
  sequence : ℕ

namespace Gathering

/-- `fetchAllEvents`. -/
def fetched (g : Gathering) : List StreamEnvelope := uniqueBy identity g.events

def listed (g : Gathering) : List AgentMessageView := uniqueBy AgentMessageView.messageId g.messages

def isDone (g : Gathering) : Bool := decide (g.lookups = some [])

/-- The snapshot that `recoverFromGap` dispatches. -/
def snapshot (g : Gathering) : GapSnapshot where
  messages := g.listed.map fun m => ⟨.string m.messageId, .string m.messageId, m.content, none⟩
  tools := projectToolEvents g.fetched
  todos := projectTodoEvents g.fetched
  operations := match g.operation with
    | some operation => [(operation.operationId, operation)]
    | none => []
  sequence := computeAuthoritativeSequence g.cursor (g.fetched.filterMap (·.sequence))

/-- Messages come until a page is not full. -/
def takeMessages (g : Gathering) (page : List AgentMessageView) : Gathering :=
  { g with messages := g.messages ++ page, messagesLeft := decide (snapshotPageSize ≤ page.length) }

/-- The operations are looked up when all pages have come. -/
def settle (g : Gathering) : Option Gathering :=
  if g.hasMore || g.messagesLeft || g.lookups.isSome then none
  else some { g with lookups := some (operationCandidates g.fetched) }

/-- The answer to a lookup, which may fail; the first operation that has not ended is taken. -/
def lookUp (g : Gathering) (answer : Option OperationView) : Option Gathering :=
  match g.lookups with
  | some (_ :: rest) =>
    let asked := { g with answers := g.answers ++ [answer] }
    match answer with
    | some operation =>
      if operation.isTerminal then some { asked with lookups := some rest }
      else some { asked with lookups := some [], operation := some operation }
    | none => some { asked with lookups := some rest }
  | _ => none

end Gathering

def ToolEventSnapshot.block (tool : ToolEventSnapshot) : ToolBlock :=
  ⟨tool.toolId, .string tool.toolName, tool.status, .ofOption tool.error, .ofOption tool.summary⟩

def handleGapSnapshot (s : Transcript) (snapshot : GapSnapshot) : Transcript := { s with
  messages := snapshot.messages.map .text ++ snapshot.tools.map fun tool => .tool tool.block
  operations := snapshot.operations
  todos := snapshot.todos
  lastSequence := .number snapshot.sequence }

/-! ### A server and its session -/

/-- The events of the server and the investigations to which the session was bound, the last one first. -/
structure ServedSession where
  table : EventTable := {}
  investigations : List String := []
  recovery : Option Gathering := none

inductive ServedMove
  | append (event : RuntimeEvent)
  | bind (investigationId : String)
  | gap (cursor : ℕ)
  | fetchEvents
  | fetchMessages (page : List AgentMessageView)
  | settle
  | lookUp (answer : Option OperationView)

section
variable (numeral : String → ℚ) (sessionId : String) (allowedTargetIds : Option (List String))

/-- The filter of `list_product_events` for a session that is bound to an investigation, or to none yet. -/
def sessionFilter (investigationId : Option String) : PageFilter :=
  { sessionId := some sessionId, investigationId := investigationId, allowedTargetIds := allowedTargetIds }

/-- An event of the session: it names the session, or an investigation of it. -/
def concerns (investigations : List String) (row : EventRow) : Bool :=
  (equals row.sessionId sessionId || row.investigationId.any investigations.contains) &&
    admitsTarget allowedTargetIds row.targetId

namespace ServedSession

def history (s : ServedSession) : List EventRow := s.table.rows.filter (concerns sessionId allowedTargetIds s.investigations)

/-- A page of `fetchAllEvents`. -/
def fetchEvents (s : ServedSession) (g : Gathering) : Option Gathering :=
  match listPage s.table (sessionFilter sessionId allowedTargetIds s.investigations.head?) g.afterSequence snapshotPageSize with
  | .ok page => some { g with
      events := g.events ++ page.items.map (toEnvelope numeral)
      reads := g.reads ++ [⟨s.investigations.head?, g.afterSequence, page.nextAfterSequence⟩]
      afterSequence := page.nextAfterSequence
      hasMore := page.hasMore && !page.items.isEmpty }
  | .error _ => none

def step (s : ServedSession) : ServedMove → Option ServedSession
  | .append event => match append s.table event with
    | .ok (_, table) => some { s with table := table }
    | .error _ => none
  | .bind investigationId => some { s with investigations := investigationId :: s.investigations }
  | .gap cursor =>
    if s.recovery.all Gathering.isDone then some { s with recovery := some { cursor := cursor, afterSequence := cursor } }
    else none
  | .fetchEvents => match s.recovery with
    | some g =>
      if g.hasMore then (s.fetchEvents numeral sessionId allowedTargetIds g).map fun g' => { s with recovery := some g' }
      else none
    | none => none
  | .fetchMessages page => match s.recovery with
    | some g => if g.messagesLeft then some { s with recovery := some (g.takeMessages page) } else none
    | none => none
  | .settle => match s.recovery with
    | some g => g.settle.map fun g' => { s with recovery := some g' }
    | none => none
  | .lookUp answer => match s.recovery with
    | some g => (g.lookUp answer).map fun g' => { s with recovery := some g' }
    | none => none

end ServedSession

def servedSession : System ServedSession ServedMove := ⟨{}, ServedSession.step numeral sessionId allowedTargetIds⟩

end

/-! ### Recovery against replay -/

/-- Two transcripts show the same tools, todos, operations and texts. -/
structure Transcript.Shows (s t : Transcript) : Prop where
  tools : toolsOf s.messages = toolsOf t.messages
  todos : s.todos = t.todos
  operations : s.operations = t.operations
  texts : shownTexts s.messages = shownTexts t.messages

section
variable (numeral : String → ℚ) (coerced : JsValue → JsValue → Bool) (sessionId : String)
  (allowedTargetIds : Option (List String))

/-- The history of the session up to a sequence, as the reducer gets it. -/
def ServedSession.told (s : ServedSession) (lastSequence : ℕ) : List (Dict String JsValue) :=
  ((s.history sessionId allowedTargetIds).filter fun row => decide (row.sequence ≤ lastSequence)).map fun row =>
    (toEnvelope numeral (eventFromRow row)).flatten

/-- What the snapshot installs is what the reducer shows after the history up to its sequence,
and it was built from every event behind the cursor up to there. -/
structure ServedSession.Recovers (s : ServedSession) (g : Gathering) (stale : Transcript) : Prop where
  replayed : (handleGapSnapshot stale g.snapshot).Shows
    (Transcript.replay coerced (s.told numeral sessionId allowedTargetIds g.snapshot.sequence))
  complete : ∀ row ∈ s.history sessionId allowedTargetIds, g.cursor < row.sequence →
    row.sequence ≤ g.snapshot.sequence → toEnvelope numeral (eventFromRow row) ∈ g.fetched

/-- The events of one tool, as the reducer takes them and as they are projected: the first name
is the last one that is a string, the last error is the last one that is a string, and so on. -/
structure SameTool (told : List (Dict String JsValue)) (fetched : List StreamEnvelope) : Prop where
  name : told.head?.map toolName = some (.string ((fetched.filterMap StreamEnvelope.toolName).getLast?.getD "unknown"))
  status : told.getLast?.bind toolStatusOf = fetched.getLast?.bind StreamEnvelope.toolStatus
  summary : (told.head?.map fun first => (told.filterMap givenSummary).getLast?.getD (summaryOf first)) =
    some (.ofOption (fetched.filterMap summary).getLast?)
  error : (told.getLast?.map fun last => field last "error") = some (.ofOption (fetched.filterMap error).getLast?)

/-- The items of the last change that was fetched. -/
def latestTodos (events : List StreamEnvelope) : List TodoItemState :=
  ((events.filter fun e => decide (e.eventType = .todoChanged)).getLast?.map fun e => todoItems (e.get "items")).getD []

/-- The history that the reducer admits is told again by what the recovery was answered. -/
structure ServedSession.Retold (s : ServedSession) (g : Gathering) (admitted : List (Dict String JsValue)) : Prop where
  sameTools : reducedTools.firsts admitted = projectedTools.firsts g.events
  tools : ∀ id ∈ reducedTools.firsts admitted,
    SameTool (reducedTools.group id admitted) (projectedTools.group id g.events)
  todos : settledTodos admitted = latestTodos g.events
  operations : ∀ answer ∈ g.answers, ∀ operation, answer = some operation → operation.isTerminal = true
  texts : said admitted = g.listed.map fun m => (JsValue.string m.messageId, m.content)
  /-- Every page was read while the session was bound to the investigation of each event it covers. -/
  reads : ∀ read ∈ g.reads, ∀ row ∈ s.history sessionId allowedTargetIds, read.afterSequence < row.sequence →
    row.sequence ≤ read.nextAfterSequence →
      (sessionFilter sessionId allowedTargetIds read.investigationId).selects row = true

end

section
variable {numeral : String → ℚ} {coerced : JsValue → JsValue → Bool} {sessionId : String}
  {allowedTargetIds : Option (List String)} {s t : ServedSession} {g : Gathering}

/-! ### Lists that are in order -/

variable {α : Type} {events : List StreamEnvelope} {id : String} {told : List (Dict String JsValue)}
  {reads : List PageRead} {assigned low high : ℕ} {table : EventTable}

lemma uniqueBy_eq {key : α → String} {items : List α} (h : (items.map key).Nodup) : uniqueBy key items = items := by
  have hfold : ∀ (items : List α) (d : Dict String α), (d.keys ++ items.map key).Nodup →
      items.foldl (fun d item => Dict.set d (key item) item) d = d ++ items.map fun item => (key item, item) := by
    intro items
    induction items with
    | nil => simp
    | cons item items ih =>
      intro d hd
      have hfresh : key item ∉ d.keys := by
        intro hmem
        exact (nodup_append.mp hd).2.2 _ hmem _ mem_cons_self rfl
      rw [foldl_cons, Dict.set_of_not_mem hfresh, ih]
      · simp
      · simpa [Dict.keys] using hd
  rw [uniqueBy, hfold items [] (by simpa [Dict.keys] using h)]
  simp [Function.comp_def]

def InOrder (events : List StreamEnvelope) : Prop := events.Pairwise fun a b => a.sequence.getD 0 < b.sequence.getD 0

lemma bySequence_eq (h : InOrder events) : bySequence events = events :=
  List.Pairwise.insertionSort_eq (h.imp fun hlt => Nat.le_of_lt hlt)

lemma latestFirst_eq (h : InOrder events) : latestFirst events = events.reverse := by
  induction events with
  | nil => rfl
  | cons e events ih =>
    obtain ⟨hfirst, hrest⟩ := pairwise_cons.mp h
    have hlast : ∀ later : List StreamEnvelope, (∀ b ∈ later, e.sequence.getD 0 < b.sequence.getD 0) →
        later.orderedInsert (fun a b => b.sequence.getD 0 ≤ a.sequence.getD 0) e = later ++ [e] := by
      intro later hlater
      induction later with
      | nil => rfl
      | cons b later ih =>
        rw [orderedInsert_cons, if_neg (Nat.not_le_of_lt (hlater b mem_cons_self)),
          ih fun c hc => hlater c (mem_cons_of_mem _ hc)]
        rfl
    rw [latestFirst, insertionSort_cons, reverse_cons]
    change orderedInsert _ e (latestFirst events) = _
    rw [ih hrest, hlast]
    exact fun b hb => hfirst b (mem_reverse.mp hb)

lemma projectTodoEvents_eq (h : InOrder events) : projectTodoEvents events = latestTodos events := by
  rw [projectTodoEvents, latestTodos, latestFirst_eq (h.filter _), head?_reverse]
  cases (events.filter fun e => decide (e.eventType = .todoChanged)).getLast? <;> rfl

/-! ### Tools -/

lemma toolId_of_mem_collect : ∀ item ∈ projectedTools.collect events, item.2.toolId = item.1 := by
  refine key_of_mem_collect ?_ fun _ _ => rfl
  intro e id hkey
  simp only [projectedTools] at hkey ⊢
  split_ifs at hkey
  rw [hkey]
  rfl

lemma toolsOf_handleGapSnapshot {stale : Transcript} {snapshot : GapSnapshot} :
    toolsOf (handleGapSnapshot stale snapshot).messages = snapshot.tools.map fun tool => (tool.toolId, tool.block) := by
  simp [handleGapSnapshot, toolsOf, filterMap_append, filterMap_map, ToolEventSnapshot.block]

lemma shownTexts_handleGapSnapshot {stale : Transcript} {snapshot : GapSnapshot} :
    shownTexts (handleGapSnapshot stale snapshot).messages =
      snapshot.messages.map fun block => (block.messageId, block.content) := by
  simp [handleGapSnapshot, shownTexts, textsOf, filterMap_append, filterMap_map]

lemma reducedTools_key {event : Dict String JsValue} (h : reducedTools.key event = some id) :
    toolIdOf event = some id ∧ ∃ status, toolStatusOf event = some status := by
  simp only [reducedTools] at h
  split_ifs at h with hstatus
  exact ⟨h, Option.isSome_iff_exists.mp hstatus⟩

lemma projectedTools_key {e : StreamEnvelope} (h : projectedTools.key e = some id) :
    toolIdOf (e.payload.getD []) = some id ∧ ∃ status, e.toolStatus = some status := by
  simp only [projectedTools] at h
  split_ifs at h with hstatus
  exact ⟨h, Option.isSome_iff_exists.mp hstatus⟩

lemma getLast_status {statusOf : α → Option ToolStatus} {events : List α}
    (h : ∀ e ∈ events, ∃ status, statusOf e = some status) :
    (events.getLast?.map fun e => (statusOf e).getD .running) = events.getLast?.bind statusOf := by
  cases hlast : events.getLast? with
  | none => rfl
  | some last =>
    obtain ⟨status, hstatus⟩ := h last (mem_of_getLast? hlast)
    simp [hstatus]

lemma head_toolId {idOf : α → Option String} {events : List α} (hne : events ≠ [])
    (h : ∀ e ∈ events, idOf e = some id) : (events.head?.map fun e => (idOf e).getD "") = some id := by
  cases events with
  | nil => exact absurd rfl hne
  | cons e events => simp [h e mem_cons_self]

lemma merged_reducedTools {b : ToolBlock}
    (htold : told ≠ []) (hown : ∀ event ∈ told, reducedTools.key event = some id)
    (hb : reducedTools.merged told = some b) :
    some b.toolId = some id ∧ some b.toolName = told.head?.map toolName ∧
      some b.status = told.getLast?.bind toolStatusOf ∧
      some b.summary = (told.head?.map fun first => (told.filterMap givenSummary).getLast?.getD (summaryOf first)) ∧
      some b.error = told.getLast?.map fun last => field last "error" := by
  have hid : (reducedTools.merged told).map ToolBlock.toolId = told.head?.map fun e => (toolIdOf e).getD "" :=
    merged_head (fun _ => rfl) fun _ _ => rfl
  have hname : (reducedTools.merged told).map ToolBlock.toolName = told.head?.map toolName :=
    merged_head (fun _ => rfl) fun _ _ => rfl
  have hstatus : (reducedTools.merged told).map ToolBlock.status =
      told.getLast?.map fun e => (toolStatusOf e).getD .running :=
    merged_getLast (fun _ => rfl) fun _ _ => rfl
  have herror : (reducedTools.merged told).map ToolBlock.error = told.getLast?.map fun last => field last "error" :=
    merged_getLast (fun _ => rfl) fun _ _ => rfl
  have hsummary : (reducedTools.merged told).map ToolBlock.summary =
      told.head?.map fun first => (told.filterMap givenSummary).getLast?.getD (summaryOf first) := by
    refine merged_given ?_ ?_
    · intro e
      rw [givenSummary]
      split_ifs <;> rfl
    · intro b e
      rw [givenSummary]
      change (summaryOf e).orElse b.summary = _
      cases summaryOf e <;> rfl
  rw [hb] at hid hname hstatus herror hsummary
  refine ⟨?_, hname, ?_, hsummary, herror⟩
  · exact hid.trans (head_toolId htold fun e he => (reducedTools_key (hown e he)).1)
  · exact hstatus.trans (getLast_status fun e he => (reducedTools_key (hown e he)).2)

lemma merged_projectedTools {fetched : List StreamEnvelope} {c : ToolEventSnapshot}
    (hfetched : fetched ≠ []) (hown : ∀ e ∈ fetched, projectedTools.key e = some id)
    (hc : projectedTools.merged fetched = some c) :
    some c.toolId = some id ∧ c.toolName = (fetched.filterMap StreamEnvelope.toolName).getLast?.getD "unknown" ∧
      some c.status = fetched.getLast?.bind StreamEnvelope.toolStatus ∧
      c.summary = (fetched.filterMap StreamEnvelope.summary).getLast? ∧
      c.error = (fetched.filterMap StreamEnvelope.error).getLast? := by
  have hid : (projectedTools.merged fetched).map ToolEventSnapshot.toolId =
      fetched.head?.map fun e => (toolIdOf (e.payload.getD [])).getD "" :=
    merged_head (fun _ => rfl) fun _ _ => rfl
  have hname : (projectedTools.merged fetched).map ToolEventSnapshot.toolName =
      fetched.head?.map fun _ => (fetched.filterMap StreamEnvelope.toolName).getLast?.getD "unknown" :=
    merged_given (fun _ => rfl) fun _ _ => rfl
  have hstatus : (projectedTools.merged fetched).map ToolEventSnapshot.status =
      fetched.getLast?.map fun e => e.toolStatus.getD .running :=
    merged_getLast (fun _ => rfl) fun _ _ => rfl
  have hsummary : (projectedTools.merged fetched).bind ToolEventSnapshot.summary =
      (fetched.filterMap StreamEnvelope.summary).getLast? :=
    merged_latest (fun _ => rfl) fun _ _ => rfl
  have herror : (projectedTools.merged fetched).bind ToolEventSnapshot.error =
      (fetched.filterMap StreamEnvelope.error).getLast? :=
    merged_latest (fun _ => rfl) fun _ _ => rfl
  rw [hc] at hid hname hstatus hsummary herror
  refine ⟨?_, ?_, ?_, hsummary, herror⟩
  · exact hid.trans (head_toolId hfetched fun e he => (projectedTools_key (hown e he)).1)
  · obtain ⟨first, rest, rfl⟩ := exists_cons_of_ne_nil hfetched
    exact Option.some.inj hname
  · exact hstatus.trans (getLast_status fun e he => (projectedTools_key (hown e he)).2)

lemma merged_eq_iff {fetched : List StreamEnvelope}
    (htold : told ≠ []) (hfetched : fetched ≠ []) (hown : ∀ event ∈ told, reducedTools.key event = some id)
    (hown' : ∀ e ∈ fetched, projectedTools.key e = some id) :
    reducedTools.merged told = (projectedTools.merged fetched).map ToolEventSnapshot.block ↔ SameTool told fetched := by
  obtain ⟨b, hb⟩ := exists_merged (u := reducedTools) htold
  obtain ⟨c, hc⟩ := exists_merged (u := projectedTools) hfetched
  obtain ⟨hid, hname, hstatus, hsummary, herror⟩ := merged_reducedTools htold hown hb
  obtain ⟨hid', hname', hstatus', hsummary', herror'⟩ := merged_projectedTools hfetched hown' hc
  have hsame : b.toolId = c.toolId := Option.some.inj (hid.trans hid'.symm)
  rw [hb, hc, Option.map_some, Option.some.injEq, ToolBlock.ext_iff]
  simp only [ToolEventSnapshot.block, hsame, hname', hsummary', herror', true_and]
  constructor
  · rintro ⟨h1, h2, h3, h4⟩
    exact ⟨by rw [← hname, h1], by rw [← hstatus, ← hstatus', h2], by rw [← hsummary, h4], by rw [← herror, h3]⟩
  · rintro ⟨h1, h2, h3, h4⟩
    exact ⟨Option.some.inj (hname.trans h1), Option.some.inj (hstatus.trans (h2.trans hstatus'.symm)),
      Option.some.inj (herror.trans h4), Option.some.inj (hsummary.trans h3)⟩

lemma tools_agree_iff (h : InOrder events) :
    reducedTools.collect told = (projectToolEvents events).map (fun tool => (tool.toolId, tool.block)) ↔
      reducedTools.firsts told = projectedTools.firsts events ∧ ∀ id ∈ reducedTools.firsts told,
        SameTool (reducedTools.group id told) (projectedTools.group id events) := by
  have hrows : (projectToolEvents events).map (fun tool => (tool.toolId, tool.block)) =
      (projectedTools.collect events).map fun item => (item.1, item.2.block) := by
    rw [projectToolEvents, bySequence_eq h, map_map]
    refine map_congr_left fun item hitem => ?_
    rw [Function.comp_apply, toolId_of_mem_collect item hitem]
  rw [hrows, collect_eq_map_iff]
  refine and_congr_right fun hfirsts => forall₂_congr fun id hid => ?_
  refine @merged_eq_iff id _ _ (mem_firsts.mp hid) (mem_firsts.mp (hfirsts ▸ hid)) ?_ ?_
  · intro event hevent
    simpa using (mem_filter.mp hevent).2
  · intro e he
    simpa using (mem_filter.mp he).2

/-! ### Pages -/

def PageRead.rows (sessionId : String) (allowedTargetIds : Option (List String)) (table : EventTable) (read : PageRead) :
    List EventRow :=
  between EventRow.sequence (sessionFilter sessionId allowedTargetIds read.investigationId).selects read.afterSequence
    read.nextAfterSequence table.rows

def readRows (sessionId : String) (allowedTargetIds : Option (List String)) (table : EventTable) (reads : List PageRead) :
    List EventRow :=
  reads.flatMap fun read => read.rows sessionId allowedTargetIds table

/-- Pages from one position to another; one that moves on ends at a sequence that was assigned. -/
def Follow (assigned : ℕ) : ℕ → List PageRead → ℕ → Prop
  | low, [], high => low = high
  | low, read :: reads, high => read.afterSequence = low ∧ low ≤ read.nextAfterSequence ∧
      (read.nextAfterSequence = low ∨ read.nextAfterSequence ≤ assigned) ∧
      Follow assigned read.nextAfterSequence reads high

lemma Follow.le (h : Follow assigned low reads high) : low ≤ high := by
  induction reads generalizing low with
  | nil => exact Nat.le_of_eq h
  | cons read reads ih => exact h.2.1.trans (ih h.2.2.2)

lemma Follow.mono {assigned assigned' low high : ℕ} (h : Follow assigned low reads high)
    (hle : assigned ≤ assigned') : Follow assigned' low reads high := by
  induction reads generalizing low with
  | nil => exact h
  | cons read reads ih =>
    obtain ⟨hafter, hforward, hbound, hrest⟩ := h
    exact ⟨hafter, hforward, hbound.imp_right fun hn => hn.trans hle, ih hrest⟩

lemma Follow.append {read : PageRead}
    (h : Follow assigned low reads high) (hafter : read.afterSequence = high) (hforward : high ≤ read.nextAfterSequence)
    (hbound : read.nextAfterSequence = high ∨ read.nextAfterSequence ≤ assigned) :
    Follow assigned low (reads ++ [read]) read.nextAfterSequence := by
  induction reads generalizing low with
  | nil =>
    cases h
    exact ⟨hafter, hforward, hbound, rfl⟩
  | cons read' reads ih => exact ⟨h.1, h.2.1, h.2.2.1, ih h.2.2.2⟩

lemma Follow.within (h : Follow assigned low reads high)
    {read : PageRead} (hread : read ∈ reads) : low ≤ read.afterSequence ∧ read.nextAfterSequence ≤ high := by
  induction reads generalizing low with
  | nil => cases hread
  | cons read' reads ih =>
    obtain ⟨hafter, hforward, -, hrest⟩ := h
    rcases mem_cons.mp hread with heq | hread
    · rw [heq]
      exact ⟨hafter.ge, hrest.le⟩
    · exact ⟨hforward.trans (ih hrest hread).1, (ih hrest hread).2⟩

lemma readRows_sublist
    (h : Follow assigned low reads high) : (readRows sessionId allowedTargetIds table reads).Sublist
      (behind EventRow.sequence (fun _ => true) low table.rows) := by
  induction reads generalizing low with
  | nil => exact nil_sublist _
  | cons read reads ih =>
    obtain ⟨hafter, hforward, -, hrest⟩ := h
    have hcut := Increasing.between_append_behind table.increasing (fun _ => true) low read.nextAfterSequence
    rw [Nat.max_eq_right hforward] at hcut
    rw [readRows, flatMap_cons, ← hcut]
    refine List.Sublist.append ?_ (ih hrest)
    rw [PageRead.rows, hafter]
    have hfilter : between EventRow.sequence (sessionFilter sessionId allowedTargetIds read.investigationId).selects low
        read.nextAfterSequence table.rows =
        (between EventRow.sequence (fun _ => true) low read.nextAfterSequence table.rows).filter
          (sessionFilter sessionId allowedTargetIds read.investigationId).selects := by
      simp only [between, filter_filter]
      refine filter_congr fun row _ => ?_
      rw [Bool.eq_iff_iff]
      simp only [Bool.and_eq_true]
      tauto
    rw [hfilter]
    exact filter_sublist

lemma mem_readRows {row : EventRow}
    (h : Follow assigned low reads high) (hrow : row ∈ table.rows) (hlow : low < row.sequence) (hhigh : row.sequence ≤ high) :
    row ∈ readRows sessionId allowedTargetIds table reads ↔ ∀ read ∈ reads, read.afterSequence < row.sequence →
      row.sequence ≤ read.nextAfterSequence →
        (sessionFilter sessionId allowedTargetIds read.investigationId).selects row = true := by
  induction reads generalizing low with
  | nil =>
    cases h
    omega
  | cons read reads ih =>
    obtain ⟨hafter, hforward, -, hrest⟩ := h
    rw [readRows, flatMap_cons, mem_append, PageRead.rows, mem_between]
    simp only [forall_mem_cons]
    by_cases hcovered : row.sequence ≤ read.nextAfterSequence
    · -- the pages behind do not reach back to the row
      have hlater : row ∉ readRows sessionId allowedTargetIds table reads := by
        intro hmem
        have := (mem_behind.mp ((readRows_sublist hrest).subset hmem)).2.1
        omega
      constructor
      · rintro (⟨-, -, -, hselects⟩ | hmem)
        · refine ⟨fun _ _ => hselects, fun other hother hbehind _ => ?_⟩
          have := (hrest.within hother).1
          omega
        · exact absurd hmem hlater
      · intro hselects
        exact .inl ⟨hrow, by omega, hcovered, hselects.1 (by omega) hcovered⟩
    · rw [← readRows, ih hrest (by omega)]
      constructor
      · rintro (⟨-, -, hcovered', -⟩ | hselects)
        · exact absurd hcovered' hcovered
        · exact ⟨fun _ hcovered' => absurd hcovered' hcovered, hselects⟩
      · intro hselects
        exact .inr hselects.2

lemma readRows_insert {event : RuntimeEvent} {low high : ℕ}
    (h : Follow table.assigned low reads high) : readRows sessionId allowedTargetIds (table.insert event) reads =
      readRows sessionId allowedTargetIds table reads := by
  induction reads generalizing low with
  | nil => rfl
  | cons read reads ih =>
    obtain ⟨hafter, -, hbound, hrest⟩ := h
    simp only [readRows, flatMap_cons] at ih ⊢
    rw [ih hrest]
    refine congrArg (· ++ _) ?_
    have hnew : between EventRow.sequence (sessionFilter sessionId allowedTargetIds read.investigationId).selects
        read.afterSequence read.nextAfterSequence [rowOf event (table.assigned + 1)] = [] := by
      refine eq_nil_iff_forall_not_mem.mpr fun row hrow => ?_
      obtain ⟨hmem, hbehind, hupto, -⟩ := mem_between.mp hrow
      cases mem_singleton.mp hmem
      simp only [rowOf] at hbehind hupto
      omega
    rw [between] at hnew
    rw [PageRead.rows, PageRead.rows, between, between, EventTable.insert, filter_append, hnew, append_nil]

/-! ### Runs -/

lemma computeAuthoritativeSequence_page {low : ℕ} {page : List ℕ} (hpage : page.Pairwise (· < ·))
    (hlow : ∀ n ∈ page, low < n) : computeAuthoritativeSequence low page = page.getLast?.getD low := by
  induction page using reverseRecOn with
  | nil => rfl
  | append_singleton page n _ =>
    have hbelow : computeAuthoritativeSequence low page < n := by
      have hn := hlow n (mem_append_right _ mem_cons_self)
      have hle : computeAuthoritativeSequence low page ≤ n - 1 := by
        refine computeAuthoritativeSequence_le (by omega) fun m hm => ?_
        have := (pairwise_append.mp hpage).2.2 m hm n mem_cons_self
        omega
      omega
    rw [getLast?_concat, Option.getD_some, computeAuthoritativeSequence, foldl_append, foldl_cons, foldl_nil]
    exact if_pos hbelow

structure Gathering.Sound (numeral : String → ℚ) (sessionId : String) (allowedTargetIds : Option (List String))
    (table : EventTable) (g : Gathering) : Prop where
  follow : Follow table.assigned g.cursor g.reads g.afterSequence
  brought : g.events = (readRows sessionId allowedTargetIds table g.reads).map fun row => toEnvelope numeral (eventFromRow row)
  counted : computeAuthoritativeSequence g.cursor (g.events.filterMap (·.sequence)) = g.afterSequence
  answered : g.operation = none ↔ ∀ answer ∈ g.answers, ∀ operation, answer = some operation → operation.isTerminal = true

structure ServedSession.Sound (numeral : String → ℚ) (sessionId : String) (allowedTargetIds : Option (List String))
    (s : ServedSession) : Prop where
  unique : (s.table.rows.map EventRow.eventId).Nodup
  gathered : ∀ g, s.recovery = some g → g.Sound numeral sessionId allowedTargetIds s.table

lemma Gathering.Sound.insert {event : RuntimeEvent} (h : g.Sound numeral sessionId allowedTargetIds table) :
    g.Sound numeral sessionId allowedTargetIds (table.insert event) := by
  refine ⟨h.follow.mono (Nat.le_succ _), ?_, h.counted, h.answered⟩
  rw [readRows_insert h.follow]
  exact h.brought

lemma ServedSession.Sound.append {event stored : RuntimeEvent}
    (h : s.Sound numeral sessionId allowedTargetIds) (happend : Events.append s.table event = .ok (stored, table)) :
    ServedSession.Sound numeral sessionId allowedTargetIds { s with table := table } := by
  unfold Events.append at happend
  split_ifs at happend with hunique
  cases happend
  constructor
  · simp only [EventTable.insert, map_append, map_cons, map_nil]
    refine nodup_append.mpr ⟨h.unique, by simp, ?_⟩
    intro id hid new hnew
    rw [mem_singleton.mp hnew]
    rintro rfl
    obtain ⟨row, hrow, hsame⟩ := mem_map.mp hid
    exact hunique (any_eq_true.mpr ⟨row, hrow, by simpa [rowOf] using hsame⟩)
  · intro g hg
    exact (h.gathered g hg).insert

lemma Gathering.Sound.fetchEvents {g' : Gathering} (h : g.Sound numeral sessionId allowedTargetIds s.table)
    (hfetch : s.fetchEvents numeral sessionId allowedTargetIds g = some g') :
    g'.Sound numeral sessionId allowedTargetIds s.table := by
  unfold ServedSession.fetchEvents at hfetch
  obtain ⟨page, hpage, hitems, -, hnext⟩ := listPage_eq s.table
    (sessionFilter sessionId allowedTargetIds s.investigations.head?) g.afterSequence
    (show 1 ≤ snapshotPageSize ∧ snapshotPageSize ≤ 500 by decide)
  rw [hpage] at hfetch
  cases hfetch
  have hincreasing : Increasing EventRow.sequence ((selected s.table
      (sessionFilter sessionId allowedTargetIds s.investigations.head?) g.afterSequence).take snapshotPageSize) :=
    (Increasing.behind s.table.increasing).sublist (take_sublist _ _)
  have hnumbers : (page.items.map (toEnvelope numeral)).filterMap (·.sequence) =
      ((selected s.table (sessionFilter sessionId allowedTargetIds s.investigations.head?) g.afterSequence).take
        snapshotPageSize).map EventRow.sequence := by
    rw [hitems, map_map, filterMap_map, ← filterMap_eq_map]
    rfl
  have hend : page.nextAfterSequence = (((selected s.table
      (sessionFilter sessionId allowedTargetIds s.investigations.head?) g.afterSequence).take
        snapshotPageSize).map EventRow.sequence).getLast?.getD g.afterSequence := by
    rw [hnext, hitems, getLast?_map, getLast?_map, Option.map_map]
    rfl
  -- a page is what lies up to where it ends
  have hpaged : PageRead.rows sessionId allowedTargetIds s.table
        ⟨s.investigations.head?, g.afterSequence, page.nextAfterSequence⟩ = (selected s.table
          (sessionFilter sessionId allowedTargetIds s.investigations.head?) g.afterSequence).take snapshotPageSize ∧
      g.afterSequence ≤ page.nextAfterSequence ∧
      (page.nextAfterSequence = g.afterSequence ∨ page.nextAfterSequence ≤ s.table.assigned) := by
    rw [hend, getLast?_map]
    cases hlast : ((selected s.table (sessionFilter sessionId allowedTargetIds s.investigations.head?)
        g.afterSequence).take snapshotPageSize).getLast? with
    | none =>
      rw [getLast?_eq_none_iff.mp hlast]
      exact ⟨between_self, Nat.le_refl _, .inl rfl⟩
    | some last =>
      have hmem := mem_behind.mp (mem_of_mem_take (mem_of_getLast? hlast))
      exact ⟨Increasing.between_getLast s.table.increasing hlast, Nat.le_of_lt hmem.2.1,
        .inr (s.table.bounded last hmem.1)⟩
  obtain ⟨hrows, hforward, hbound⟩ := hpaged
  refine ⟨h.follow.append rfl hforward hbound, ?_, ?_, h.answered⟩
  · rw [readRows, flatMap_append, ← readRows, map_append, ← h.brought, flatMap_cons, flatMap_nil,
      append_nil, hrows, hitems, map_map]
    rfl
  · simp only [filterMap_append]
    rw [hnumbers, computeAuthoritativeSequence, foldl_append]
    change computeAuthoritativeSequence (computeAuthoritativeSequence g.cursor _) _ = _
    rw [h.counted, computeAuthoritativeSequence_page, hend]
    · exact pairwise_map.mpr hincreasing
    · intro n hn
      obtain ⟨row, hrow, rfl⟩ := mem_map.mp hn
      exact (mem_behind.mp (mem_of_mem_take hrow)).2.1

lemma Gathering.Sound.lookUp {g' : Gathering} {answer : Option OperationView}
    (h : g.Sound numeral sessionId allowedTargetIds table) (hlook : g.lookUp answer = some g') :
    g'.Sound numeral sessionId allowedTargetIds table := by
  unfold Gathering.lookUp at hlook
  split at hlook
  · split at hlook
    · rename_i operation
      split_ifs at hlook with hterminal
      · cases hlook
        refine ⟨h.follow, h.brought, h.counted, h.answered.trans ?_⟩
        simp [hterminal, or_imp, forall_and]
      · cases hlook
        refine ⟨h.follow, h.brought, h.counted, ?_⟩
        simp only [reduceCtorEq, false_iff]
        exact fun hall => hterminal (hall _ (mem_append_right _ mem_cons_self) operation rfl)
    · cases hlook
      refine ⟨h.follow, h.brought, h.counted, h.answered.trans ?_⟩
      simp [or_imp, forall_and]
  · cases hlook

lemma ServedSession.Sound.step {move : ServedMove} (h : s.Sound numeral sessionId allowedTargetIds)
    (hstep : s.step numeral sessionId allowedTargetIds move = some t) : t.Sound numeral sessionId allowedTargetIds := by
  cases move with
  | append event =>
    simp only [ServedSession.step] at hstep
    split at hstep
    · rename_i stored table happend
      cases hstep
      exact h.append happend
    · cases hstep
  | bind investigationId =>
    cases hstep
    exact ⟨h.unique, h.gathered⟩
  | gap cursor =>
    simp only [ServedSession.step] at hstep
    split_ifs at hstep
    cases hstep
    refine ⟨h.unique, fun g hg => ?_⟩
    cases hg
    exact ⟨rfl, rfl, rfl, by simp⟩
  | fetchEvents =>
    simp only [ServedSession.step] at hstep
    split at hstep
    · rename_i g hg
      split_ifs at hstep
      obtain ⟨g', hfetch, rfl⟩ := Option.map_eq_some_iff.mp hstep
      refine ⟨h.unique, fun q hq => ?_⟩
      cases hq
      exact (h.gathered g hg).fetchEvents hfetch
    · cases hstep
  | fetchMessages page =>
    simp only [ServedSession.step] at hstep
    split at hstep
    · rename_i g hg
      split_ifs at hstep
      cases hstep
      refine ⟨h.unique, fun q hq => ?_⟩
      cases hq
      obtain ⟨hfollow, hbrought, hcounted, hanswered⟩ := h.gathered g hg
      exact ⟨hfollow, hbrought, hcounted, hanswered⟩
    · cases hstep
  | settle =>
    simp only [ServedSession.step] at hstep
    split at hstep
    · rename_i g hg
      obtain ⟨g', hsettle, rfl⟩ := Option.map_eq_some_iff.mp hstep
      unfold Gathering.settle at hsettle
      split_ifs at hsettle
      cases hsettle
      refine ⟨h.unique, fun q hq => ?_⟩
      cases hq
      obtain ⟨hfollow, hbrought, hcounted, hanswered⟩ := h.gathered g hg
      exact ⟨hfollow, hbrought, hcounted, hanswered⟩
    · cases hstep
  | lookUp answer =>
    simp only [ServedSession.step] at hstep
    split at hstep
    · rename_i g hg
      obtain ⟨g', hlook, rfl⟩ := Option.map_eq_some_iff.mp hstep
      refine ⟨h.unique, fun q hq => ?_⟩
      cases hq
      exact (h.gathered g hg).lookUp hlook
    · cases hstep

lemma served_sound (hs : (servedSession numeral sessionId allowedTargetIds).Reached (fun _ _ => True) s) :
    s.Sound numeral sessionId allowedTargetIds := by
  refine hs.invariant ?_ fun _ _ _ hsound _ hstep => hsound.step hstep
  refine ⟨nodup_nil, fun g hg => ?_⟩
  cases hg

/-! ### The snapshot -/

lemma Gathering.Sound.sublist (h : g.Sound numeral sessionId allowedTargetIds table) :
    (readRows sessionId allowedTargetIds table g.reads).Sublist table.rows :=
  (readRows_sublist h.follow).trans filter_sublist

lemma Gathering.Sound.fetched_eq (h : g.Sound numeral sessionId allowedTargetIds table)
    (hunique : (table.rows.map EventRow.eventId).Nodup) : g.fetched = g.events := by
  refine uniqueBy_eq ?_
  rw [h.brought, map_map]
  exact (h.sublist.map EventRow.eventId).nodup hunique

lemma Gathering.Sound.inOrder (h : g.Sound numeral sessionId allowedTargetIds table) : InOrder g.events := by
  rw [InOrder, h.brought]
  exact pairwise_map.mpr (table.increasing.sublist h.sublist)

lemma Gathering.snapshot_operations : g.snapshot.operations = [] ↔ g.operation = none := by
  rw [Gathering.snapshot]
  cases g.operation <;> simp

lemma complete_iff_reads (h : g.Sound numeral sessionId allowedTargetIds s.table) :
    (∀ row ∈ s.history sessionId allowedTargetIds, g.cursor < row.sequence → row.sequence ≤ g.afterSequence →
      toEnvelope numeral (eventFromRow row) ∈ g.events) ↔
    ∀ read ∈ g.reads, ∀ row ∈ s.history sessionId allowedTargetIds, read.afterSequence < row.sequence →
      row.sequence ≤ read.nextAfterSequence →
        (sessionFilter sessionId allowedTargetIds read.investigationId).selects row = true := by
  have hbrought : ∀ row ∈ s.table.rows, toEnvelope numeral (eventFromRow row) ∈ g.events ↔
      row ∈ readRows sessionId allowedTargetIds s.table g.reads := by
    intro row hrow
    rw [h.brought, mem_map]
    constructor
    · rintro ⟨row', hrow', hsame⟩
      have hsequence : row'.sequence = row.sequence := Option.some.inj (congrArg sequence hsame)
      rwa [← Increasing.eq_of_eq s.table.increasing (h.sublist.subset hrow') hrow hsequence]
    · exact fun hmem => ⟨row, hmem, rfl⟩
  constructor
  · intro hcomplete read hread row hrow hbehind hupto
    have hrows := (mem_filter.mp hrow).1
    obtain ⟨hlow, hhigh⟩ := h.follow.within hread
    have hbetween : g.cursor < row.sequence ∧ row.sequence ≤ g.afterSequence := by omega
    have hmem := (hbrought row hrows).mp (hcomplete row hrow hbetween.1 hbetween.2)
    exact (mem_readRows h.follow hrows hbetween.1 hbetween.2).mp hmem read hread hbehind hupto
  · intro hreads row hrow hlow hhigh
    have hrows := (mem_filter.mp hrow).1
    exact (hbrought row hrows).mpr ((mem_readRows h.follow hrows hlow hhigh).mpr fun read hread hbehind hupto =>
      hreads read hread row hrow hbehind hupto)

end

def toolProposed (eventId toolCallId : String) (owner : String × Json) : RuntimeEvent :=
  ⟨eventId, 0, .toolProposed, "2026-01-01T00:00:00+00:00",
    [owner, ("tool_call_id", .string toolCallId), ("tool_name", .string "host_read"), ("summary", .string "read a file")]⟩

def wholeSession : List ServedMove :=
  [.append (toolProposed "evt-1" "tc-1" ("session_id", .string "as-1")),
    .append ⟨"evt-2", 0, .agentTextDelta, "2026-01-01T00:00:01+00:00",
      [("session_id", .string "as-1"), ("message_id", .string "msg-1"), ("text", .string "done")]⟩,
    .gap 0, .fetchEvents, .fetchMessages [⟨"msg-1", "done"⟩], .settle]

end IncidentLens.Cli
