import IncidentLens.Cli.Transcript
import IncidentLens.Logs.Redaction

/-!
# Projecting a transcript

The texts of a run's transcript are stored as messages of the session, and sent in pieces as events.
Each call goes over the whole transcript.
-/
namespace IncidentLens.AgentSessions
open Data Effects Logs List Regex

inductive MessageRole
  | user | assistant
  deriving DecidableEq

inductive Block
  | text (text : List Char)
  | other
  deriving DecidableEq

structure TranscriptMessage where
  sequence : ℕ
  role : MessageRole
  blocks : List Block
  createdAt : ℕ

/-- A row of `agent_messages`. -/
structure MessageRow where
  sessionId : String
  investigationId : Option String := none
  agentRunId : Option String := none
  role : MessageRole
  contentRedacted : List Char
  transcriptSequence : Option ℕ := none
  createdAt : ℕ
  deriving DecidableEq

structure AgentRun where
  agentRunId : String
  investigationId : String

inductive ProductEvent
  | textDelta (sessionId messageId runId : String) (text : List Char)
  | messageCompleted (sessionId messageId runId : String) (transcriptSequence : ℕ)

inductive ProjectionError
  | messageNotFound | messageConflict

/-- `json.loads`, where the keys of an object are distinct; which numbers are true; and the digest that names
a message. -/
structure Python where
  classes : CharClasses
  loads : List Char → Option Json
  isTrueNumber : String → Bool
  assistantMessageId : String → ℕ → String

structure Projector where
  transcripts : Dict String (List TranscriptMessage) := []
  messages : Dict String MessageRow := []
  events : List ProductEvent := []

open Projector

def strip (s : List Char) : List Char := ((s.dropWhile isWhitespace).reverse.dropWhile isWhitespace).reverse

/-- `sep.join(parts)`. -/
def joinLines (parts : List (List Char)) : List Char := intercalate ['\n'] parts

/-! ### The text of a message -/

namespace Python
variable (python : Python)

def isTrue : Json → Bool
  | .null => false
  | .bool b => b
  | .number text => python.isTrueNumber text
  | .string s => s ≠ ""
  | .array items => !items.isEmpty
  | .object members => !members.isEmpty

/-- The stripped summary of an object, if it has one. -/
def summaryOf : Json → Option (List Char)
  | .object members => match Dict.get? members "summary" with
    | some (.string summary) => some (strip summary.toList)
    | _ => none
  | _ => none

def summariesAt (payload : Dict String Json) (key : String) : List (List Char) :=
  match payload.get? key with
  | some (.array items) => items.filterMap summaryOf
  | _ => []

/-- `payload.get("stop") or payload.get("stop_signal")`. -/
def stopOf (payload : Dict String Json) : Option Json :=
  match payload.get? "stop" with
  | some stop => if python.isTrue stop then some stop else payload.get? "stop_signal"
  | none => payload.get? "stop_signal"

/-- `_product_agent_text`. -/
def productAgentText (content : List Char) : List Char :=
  match python.loads content with
  | some (.object payload) =>
    let summaries := summariesAt payload "conclusions" ++ summariesAt payload "hypotheses" ++
      ((python.stopOf payload).bind summaryOf).toList
    joinLines (summaries.filter fun summary => !summary.isEmpty)
  | _ => strip content

def redact (text : List Char) : List Char := (redactMessage python.classes text 20000).messageRedacted

/-- What is shown of a message of the transcript. -/
def productText (m : TranscriptMessage) : List Char :=
  python.productAgentText (joinLines (m.blocks.filterMap fun
    | .text text => some text
    | .other => none))

/-- Messages of the user, and those without a text, are passed over. -/
def shows (m : TranscriptMessage) : Bool := m.role = .assistant && !(python.productText m).isEmpty

end Python

/-- `text[offset : offset + 160]`, for the offsets of `range(0, len(text), 160)`. -/
def chunks (text : List Char) : List (List Char) :=
  (range ((text.length + 159) / 160)).map fun k => (text.drop (160 * k)).take 160

/-! ### The store -/

namespace Projector

/-- `append_message`. -/
def appendMessage (w : Projector) (messageId : String) (row : MessageRow) : Except ProjectionError Projector :=
  match w.messages.get? messageId with
  | none => .ok { w with messages := w.messages.set messageId row }
  | some existing => if existing = row then .ok w else .error .messageConflict

/-- `bind_message`. -/
def bindMessage (w : Projector) (messageId investigationId agentRunId : String) (sequence : ℕ) :
    Except ProjectionError Projector :=
  match w.messages.get? messageId with
  | none => .error .messageNotFound
  | some row => .ok { w with
      messages := w.messages.set messageId
        { row with investigationId := some investigationId, agentRunId := some agentRunId, transcriptSequence := some sequence } }

variable (python : Python) (sessionId : String) (run : AgentRun) (userMessageId : Option String)

/-- The row that a message of the transcript is stored as. -/
def rowOf (m : TranscriptMessage) : MessageRow where
  sessionId := sessionId
  investigationId := some run.investigationId
  agentRunId := some run.agentRunId
  role := .assistant
  contentRedacted := python.redact (python.productText m)
  transcriptSequence := some m.sequence
  createdAt := m.createdAt

/-- The events of a message; each piece is redacted once more. -/
def eventsOf (m : TranscriptMessage) : List ProductEvent :=
  let messageId := python.assistantMessageId run.agentRunId m.sequence
  (chunks (python.redact (python.productText m))).map
      (fun chunk => .textDelta sessionId messageId run.agentRunId (python.redact chunk)) ++
    [.messageCompleted sessionId messageId run.agentRunId m.sequence]

/-- The body of the loop, with what it counts. -/
def projectMessage (w : Projector) (m : TranscriptMessage) : Except ProjectionError (Projector × ℕ) :=
  match m.role with
  | .user => match userMessageId with
    | some messageId =>
      if messageId ≠ "" ∧ m.sequence = 1 then
        (w.bindMessage messageId run.investigationId run.agentRunId m.sequence).map fun w => (w, 0)
      else .ok (w, 0)
    | none => .ok (w, 0)
  | .assistant =>
    if (python.productText m).isEmpty then .ok (w, 0)
    else
      (w.appendMessage (python.assistantMessageId run.agentRunId m.sequence) (rowOf python sessionId run m)).map fun w =>
        ({ w with events := w.events ++ eventsOf python sessionId run m }, 1)

def projectMessages : Projector → List TranscriptMessage → Projector × Except ProjectionError ℕ
  | w, [] => (w, .ok 0)
  | w, m :: ms => match projectMessage python sessionId run userMessageId w m with
    | .error e => (w, .error e)
    | .ok (w, k) =>
      let (w, count) := projectMessages w ms
      (w, count.map (k + ·))

/-- `project_run`. -/
def projectRun (w : Projector) : Projector × Except ProjectionError ℕ :=
  projectMessages python sessionId run userMessageId w ((w.transcripts.get? run.agentRunId).getD [])

end Projector

inductive ProjectorMove
  | append (runId : String) (m : TranscriptMessage)
  | userMessage (messageId : String) (row : MessageRow)
  | project (sessionId : String) (run : AgentRun) (userMessageId : Option String)

/-- Transcripts grow, and the sequences of each are distinct. -/
def Projector.step (python : Python) (w : Projector) : ProjectorMove → Option Projector
  | .append runId m =>
    let transcript := (w.transcripts.get? runId).getD []
    if m.sequence ∈ transcript.map TranscriptMessage.sequence then none
    else some { w with transcripts := w.transcripts.set runId (transcript ++ [m]) }
  | .userMessage messageId row =>
    if row.role = .user then
      match w.appendMessage messageId row with
      | .ok w => some w
      | .error _ => none
    else none
  | .project sessionId run userMessageId => some (w.projectRun python sessionId run userMessageId).1

def projector (python : Python) : System Projector ProjectorMove := ⟨{}, step python⟩

/-! ### What is told -/

/-- The deltas of a message, in the order in which they were emitted. -/
def deltasOf (messageId : String) (events : List ProductEvent) : List (List Char) :=
  events.filterMap fun
    | .textDelta _ id _ text => if id = messageId then some text else none
    | .messageCompleted .. => none

def wireDelta : ProductEvent → Option (Dict String Cli.JsValue)
  | .textDelta sessionId messageId runId text => some
    [("event_type", .string "agent.text.delta"), ("session_id", .string sessionId), ("message_id", .string messageId),
      ("run_id", .string runId), ("text", .string (String.ofList text))]
  | .messageCompleted .. => none

def shown (events : List ProductEvent) : List Cli.ConversationItem := (events.filterMap wireDelta).foldl Cli.mergeTextDelta []

def textOf (messageId : String) (items : List Cli.ConversationItem) : Option String :=
  items.findSome? fun
    | .text block => if block.messageId.same (.string messageId) then some block.content else none
    | .tool _ => none

/-- The deltas of every stored message make up its text, once, and the CLI shows it. -/
structure Projector.Faithful (w : Projector) : Prop where
  deltas : ∀ messageId row, w.messages.get? messageId = some row → row.role = .assistant →
    (deltasOf messageId w.events).flatten = row.contentRedacted
  shown : ∀ messageId row, w.messages.get? messageId = some row → row.role = .assistant → row.contentRedacted ≠ [] →
    textOf messageId (shown w.events) = some (String.ofList row.contentRedacted)

/-- A transcript is projected when none of its messages has been, and no piece of a text is redacted any further. -/
def Unprojected (python : Python) (w : Projector) : ProjectorMove → Prop
  | .project _ run _ => ∀ m ∈ (w.transcripts.get? run.agentRunId).getD [], python.shows m = true →
    w.messages.get? (python.assistantMessageId run.agentRunId m.sequence) = none ∧
      ∀ chunk ∈ chunks (python.redact (python.productText m)), python.redact chunk = chunk
  | _ => True

/-! ### The pieces of a text -/

lemma flatten_pieces (size count : ℕ) (text : List Char) :
    ((range count).map fun k => (text.drop (size * k)).take size).flatten = text.take (size * count) := by
  induction count with
  | zero => simp
  | succ count ih =>
    rw [range_succ, map_append, flatten_append, ih, map_singleton, flatten_singleton, Nat.mul_succ, take_add]

lemma flatten_chunks (text : List Char) : (chunks text).flatten = text := by
  rw [chunks, flatten_pieces, take_of_length_le]
  omega

section
variable {python : Python} {sessionId messageId : String} {run : AgentRun} {userMessageId : Option String}
  {events : List ProductEvent} {w w' : Projector} {m : TranscriptMessage}

lemma deltasOf_append (messageId : String) (events more : List ProductEvent) :
    deltasOf messageId (events ++ more) = deltasOf messageId events ++ deltasOf messageId more :=
  filterMap_append

lemma deltasOf_eventsOf (python : Python) (sessionId : String) (run : AgentRun) (m : TranscriptMessage) (messageId : String) :
    deltasOf messageId (eventsOf python sessionId run m) =
      if python.assistantMessageId run.agentRunId m.sequence = messageId then
        (chunks (python.redact (python.productText m))).map python.redact else [] := by
  rw [eventsOf, deltasOf_append]
  have hcompleted : ∀ sequence, deltasOf messageId [.messageCompleted sessionId
      (python.assistantMessageId run.agentRunId m.sequence) run.agentRunId sequence] = [] := fun _ => rfl
  rw [hcompleted, append_nil]
  unfold deltasOf
  rw [filterMap_map]
  split_ifs with hid
  · simp [hid]
  · simp [hid]

/-! ### What the CLI accumulates -/

/-- Blocks that were put together of deltas without a block. -/
def Unblocked (items : List Cli.ConversationItem) : Prop := ∀ block, .text block ∈ items → block.blockId = .undefined

lemma textOf_cons_text (messageId : String) (block : Cli.TextBlock) (items : List Cli.ConversationItem) :
    textOf messageId (.text block :: items) =
      if block.messageId.same (.string messageId) then some block.content else textOf messageId items := by
  unfold textOf
  rw [findSome?_cons]
  dsimp only
  split_ifs <;> rfl

lemma textOf_cons_tool (messageId : String) (block : Cli.ToolBlock) (items : List Cli.ConversationItem) :
    textOf messageId (.tool block :: items) = textOf messageId items := rfl

lemma same_string {value : Cli.JsValue} {id other : String} (h : value.same (.string id) = true) :
    value.same (.string other) = decide (id = other) := by
  cases value with
  | string s =>
    have hs : s = id := of_decide_eq_true h
    rw [hs]
    rfl
  | _ => cases h

lemma textOf_putText {items : List Cli.ConversationItem} (hitems : Unblocked items) (id other text : String) :
    textOf other (Cli.putText (fun block => block.messageId.same (.string id) && block.blockId.same .undefined)
      (fun block => { block with content := block.content ++ text }) ⟨.string id, .undefined, text, some false⟩ items) =
      if id = other then some ((textOf other items).getD "" ++ text) else textOf other items := by
  induction items with
  | nil =>
    rw [Cli.putText, textOf_cons_text]
    by_cases hid : id = other
    · simp [Cli.JsValue.same, textOf, hid]
    · simp [Cli.JsValue.same, hid]
  | cons item items ih =>
    have hrest := ih fun block hblock => hitems block (mem_cons_of_mem _ hblock)
    cases item with
    | tool block =>
      rw [Cli.putText, textOf_cons_tool, textOf_cons_tool]
      · exact hrest
      · exact fun _ h => by cases h
    | text block =>
      have hblock : block.blockId.same .undefined = true := by
        rw [hitems block mem_cons_self]
        rfl
      rw [Cli.putText, hblock, Bool.and_true, textOf_cons_text]
      by_cases hsame : block.messageId.same (.string id) = true
      · rw [if_pos hsame, textOf_cons_text]
        dsimp only
        rw [same_string hsame]
        by_cases hid : id = other
        · simp [hid]
        · simp [hid]
      · rw [if_neg hsame, textOf_cons_text, hrest]
        by_cases hid : id = other
        · subst hid
          simp [hsame]
        · simp [hid]

lemma Unblocked.putText {items : List Cli.ConversationItem} (hitems : Unblocked items) (id text : String) :
    Unblocked (Cli.putText (fun block => block.messageId.same (.string id) && block.blockId.same .undefined)
      (fun block => { block with content := block.content ++ text }) ⟨.string id, .undefined, text, some false⟩ items) := by
  induction items with
  | nil =>
    intro block hblock
    cases mem_singleton.mp hblock
    rfl
  | cons item items ih =>
    have hrest := ih fun block hblock => hitems block (mem_cons_of_mem _ hblock)
    cases item with
    | tool tool =>
      intro block hblock
      rw [Cli.putText] at hblock
      · rcases mem_cons.mp hblock with h | h
        · cases h
        · exact hrest block h
      · exact fun _ h => by cases h
    | text first =>
      intro block hblock
      rw [Cli.putText] at hblock
      split_ifs at hblock
      · rcases mem_cons.mp hblock with h | h
        · cases h
          exact hitems first mem_cons_self
        · exact hitems block (mem_cons_of_mem _ h)
      · rcases mem_cons.mp hblock with h | h
        · cases h
          exact hitems first mem_cons_self
        · exact hrest block h

lemma textOf_shown (events : List ProductEvent) : Unblocked (shown events) ∧ ∀ messageId,
    textOf messageId (shown events) =
      if deltasOf messageId events = [] then none else some (String.ofList (deltasOf messageId events).flatten) := by
  induction events using reverseRecOn with
  | nil => exact ⟨fun _ h => absurd h not_mem_nil, fun _ => rfl⟩
  | append_singleton events event ih =>
    obtain ⟨hunblocked, htext⟩ := ih
    cases event with
    | messageCompleted sessionId id runId sequence =>
      have hshown : shown (events ++ [.messageCompleted sessionId id runId sequence]) = shown events := by
        rw [shown, filterMap_append]
        exact congrArg (foldl Cli.mergeTextDelta []) (append_nil _)
      refine ⟨hshown ▸ hunblocked, fun messageId => ?_⟩
      have hdeltas : deltasOf messageId [.messageCompleted sessionId id runId sequence] = [] := rfl
      rw [hshown, deltasOf_append, hdeltas, append_nil]
      exact htext messageId
    | textDelta sessionId id runId text =>
      have hshown : shown (events ++ [.textDelta sessionId id runId text]) =
          Cli.putText (fun block => block.messageId.same (.string id) && block.blockId.same .undefined)
            (fun block => { block with content := block.content ++ String.ofList text })
            ⟨.string id, .undefined, String.ofList text, some false⟩ (shown events) := by
        rw [shown, filterMap_append, foldl_append]
        rfl
      rw [hshown]
      refine ⟨hunblocked.putText id _, fun messageId => ?_⟩
      rw [textOf_putText hunblocked, deltasOf_append, htext]
      by_cases hid : id = messageId
      · have hdeltas : deltasOf messageId [.textDelta sessionId id runId text] = [text] := by
          simp [deltasOf, hid]
        have hsome : deltasOf messageId events ++ [text] ≠ [] := by simp
        rw [hdeltas, if_pos hid, if_neg hsome, flatten_append, flatten_singleton, String.ofList_append]
        split_ifs with hnone
        · rw [hnone]
          rfl
        · rfl
      · have hdeltas : deltasOf messageId [.textDelta sessionId id runId text] = [] := by simp [deltasOf, hid]
        rw [hdeltas, if_neg hid, append_nil]

/-! ### Every run -/

/-- What holds of a store whose transcripts are projected once. -/
structure Told (w : Projector) : Prop where
  deltas : ∀ messageId row, w.messages.get? messageId = some row → row.role = .assistant →
    (deltasOf messageId w.events).flatten = row.contentRedacted
  fresh : ∀ messageId, w.messages.get? messageId = none → deltasOf messageId w.events = []
  sequences : ∀ runId transcript, w.transcripts.get? runId = some transcript →
    (transcript.map TranscriptMessage.sequence).Nodup

lemma Told.faithful (hw : Told w) : w.Faithful := by
  refine ⟨hw.deltas, fun messageId row hget hrole hcontent => ?_⟩
  have hdeltas := hw.deltas messageId row hget hrole
  rw [(textOf_shown w.events).2, if_neg, hdeltas]
  intro hnone
  rw [hnone] at hdeltas
  exact hcontent hdeltas.symm

lemma Told.bindMessage {investigationId agentRunId : String} {sequence : ℕ} (hw : Told w)
    (h : w.bindMessage messageId investigationId agentRunId sequence = .ok w') : Told w' := by
  unfold Projector.bindMessage at h
  split at h
  · cases h
  · rename_i row hrow
    cases h
    refine ⟨fun other changed hget hrole => ?_, fun other hget => ?_, hw.sequences⟩
    · rw [Dict.get?_set] at hget
      split_ifs at hget with hid
      · cases hget
        exact hid ▸ hw.deltas messageId row hrow hrole
      · exact hw.deltas other changed hget hrole
    · rw [Dict.get?_set] at hget
      split_ifs at hget
      exact hw.fresh other hget

lemma Told.emit (hw : Told w) (hfresh : w.messages.get? (python.assistantMessageId run.agentRunId m.sequence) = none)
    (hchunks : ∀ chunk ∈ chunks (python.redact (python.productText m)), python.redact chunk = chunk) :
    Told { w with
      messages := w.messages.set (python.assistantMessageId run.agentRunId m.sequence) (rowOf python sessionId run m)
      events := w.events ++ eventsOf python sessionId run m } := by
  have hpieces : (chunks (python.redact (python.productText m))).map python.redact =
      chunks (python.redact (python.productText m)) := (map_congr_left hchunks).trans (map_id _)
  refine ⟨fun other row hget hrole => ?_, fun other hget => ?_, hw.sequences⟩
  · dsimp only at hget ⊢
    rw [Dict.get?_set] at hget
    rw [deltasOf_append, deltasOf_eventsOf, hpieces, flatten_append]
    split_ifs at hget ⊢ with hid
    · cases hget
      rw [← hid, hw.fresh _ hfresh, flatten_chunks, flatten_nil, nil_append, rowOf]
    · rw [flatten_nil, append_nil]
      exact hw.deltas other row hget hrole
  · dsimp only at hget ⊢
    rw [Dict.get?_set] at hget
    split_ifs at hget with hid
    rw [deltasOf_append, deltasOf_eventsOf, if_neg hid, append_nil]
    exact hw.fresh other hget

/-- A message that is stored already came from another place of the transcript. -/
def Elsewhere (python : Python) (run : AgentRun) (w : Projector) (m : TranscriptMessage) : Prop :=
  ∀ row, w.messages.get? (python.assistantMessageId run.agentRunId m.sequence) = some row →
    row.transcriptSequence ≠ some m.sequence

lemma Told.projectMessage {count : ℕ} (hw : Told w) (hchunks : python.shows m = true →
      ∀ chunk ∈ chunks (python.redact (python.productText m)), python.redact chunk = chunk)
    (helsewhere : python.shows m = true → Elsewhere python run w m)
    (h : projectMessage python sessionId run userMessageId w m = .ok (w', count)) :
    Told w' ∧ ∀ other : TranscriptMessage, other.sequence ≠ m.sequence → Elsewhere python run w other →
      Elsewhere python run w' other := by
  unfold Projector.projectMessage at h
  split at h
  · split at h
    · split_ifs at h with hfirst
      · rename_i id
        cases hbind : w.bindMessage id run.investigationId run.agentRunId m.sequence with
        | error e =>
          rw [hbind] at h
          cases h
        | ok bound =>
          rw [hbind] at h
          cases h
          refine ⟨hw.bindMessage hbind, fun other hne hother row hget => ?_⟩
          unfold Projector.bindMessage at hbind
          split at hbind
          · cases hbind
          · cases hbind
            rw [Dict.get?_set] at hget
            split_ifs at hget
            · cases hget
              intro hsequence
              exact hne (Option.some.inj hsequence).symm
            · exact hother row hget
      · cases h
        exact ⟨hw, fun _ _ h => h⟩
    · cases h
      exact ⟨hw, fun _ _ h => h⟩
  · rename_i hrole
    split_ifs at h with hempty
    · cases h
      exact ⟨hw, fun _ _ h => h⟩
    · have hshows : python.shows m = true := by simp [Python.shows, hrole, hempty]
      unfold appendMessage at h
      split at h
      · rename_i hfresh
        cases h
        refine ⟨hw.emit hfresh (hchunks hshows), fun other hne hother row hget => ?_⟩
        dsimp only at hget
        rw [Dict.get?_set] at hget
        split_ifs at hget with hid
        · cases hget
          intro hsequence
          exact hne (Option.some.inj hsequence).symm
        · exact hother row hget
      · rename_i existing hexisting
        split_ifs at h with hsame
        · refine absurd ?_ (helsewhere hshows existing hexisting)
          rw [hsame]
          rfl
        · cases h

lemma Told.projectMessages {ms : List TranscriptMessage} (hw : Told w)
    (hunique : (ms.map TranscriptMessage.sequence).Nodup) (hchunks : ∀ m ∈ ms, python.shows m = true →
      ∀ chunk ∈ chunks (python.redact (python.productText m)), python.redact chunk = chunk)
    (helsewhere : ∀ m ∈ ms, python.shows m = true → Elsewhere python run w m) :
    Told (Projector.projectMessages python sessionId run userMessageId w ms).1 := by
  induction ms generalizing w with
  | nil => exact hw
  | cons m ms ih =>
    rw [map_cons, nodup_cons] at hunique
    rw [Projector.projectMessages]
    cases hnext : Projector.projectMessage python sessionId run userMessageId w m with
    | error e => exact hw
    | ok next =>
      obtain ⟨next, count⟩ := next
      obtain ⟨htold, hothers⟩ := hw.projectMessage (hchunks m mem_cons_self) (helsewhere m mem_cons_self) hnext
      refine ih htold hunique.2 (fun other hother => hchunks other (mem_cons_of_mem _ hother)) fun other hother hshows => ?_
      refine hothers other (fun hsequence => ?_) (helsewhere other (mem_cons_of_mem _ hother) hshows)
      exact hunique.1 (hsequence ▸ mem_map_of_mem hother)

lemma Told.step {move : ProjectorMove} (hw : Told w) (hgood : Unprojected python w move)
    (h : w.step python move = some w') : Told w' := by
  cases move with
  | append runId m =>
    simp only [Projector.step] at h
    split_ifs at h with hpresent
    cases h
    refine ⟨hw.deltas, hw.fresh, fun other transcript hget => ?_⟩
    dsimp only at hget
    rw [Dict.get?_set] at hget
    split_ifs at hget
    · cases hget
      rw [map_append, map_singleton, ← concat_eq_append]
      refine List.Nodup.concat hpresent ?_
      cases hold : w.transcripts.get? runId with
      | none => exact nodup_nil
      | some old => exact hw.sequences runId old hold
    · exact hw.sequences other transcript hget
  | userMessage messageId row =>
    simp only [Projector.step] at h
    split_ifs at h with huser
    unfold appendMessage at h
    split at h
    · rename_i stored hstored
      split at hstored
      · cases hstored
        cases h
        refine ⟨fun other changed hget hrole => ?_, fun other hget => ?_, hw.sequences⟩
        · rw [Dict.get?_set] at hget
          split_ifs at hget
          · cases hget
            rw [huser] at hrole
            cases hrole
          · exact hw.deltas other changed hget hrole
        · rw [Dict.get?_set] at hget
          split_ifs at hget
          exact hw.fresh other hget
      · split_ifs at hstored
        cases hstored
        cases h
        exact hw
    · cases h
  | project sessionId run userMessageId =>
    cases h
    unfold projectRun
    have hunique : ((w.transcripts.get? run.agentRunId).getD []).map TranscriptMessage.sequence |>.Nodup := by
      cases htranscript : w.transcripts.get? run.agentRunId with
      | none => exact nodup_nil
      | some transcript => exact hw.sequences _ transcript htranscript
    refine hw.projectMessages hunique (fun m hm hshows => (hgood m hm hshows).2) fun m hm hshows row hget => ?_
    rw [(hgood m hm hshows).1] at hget
    cases hget

end

/-- Over every run in which nothing is projected twice. -/
theorem projected_once_faithful (python : Python) (w : Projector) (hw : (projector python).Reached (Unprojected python) w) :
    w.Faithful := by
  have htold : Told w := by
    refine hw.invariant ?_ fun _ _ _ htold hgood hstep => htold.step hgood hstep
    refine ⟨fun _ _ hget => ?_, fun _ _ => rfl, fun _ _ hget => ?_⟩
    · cases hget
    · cases hget
  exact htold.faithful

/-- Texts that are not JSON, and the digest of one message. -/
def plainPython : Python where
  classes := .ascii
  loads _ := none
  isTrueNumber _ := true
  assistantMessageId runId sequence := if runId = "run-1" ∧ sequence = 2 then "msg_8e3ce43262a363248e3aee50" else "msg_"

def firstRun : AgentRun := ⟨"run-1", "inv-1"⟩

def question : TranscriptMessage := ⟨1, .user, [.text "Symptom: slow".toList], 1⟩

def answer (text : List Char) : TranscriptMessage := ⟨2, .assistant, [.text text], 2⟩

/-- A text whose first piece ends in front of what looks like an address. -/
def border : List Char := replicate 160 'x' ++ "1.2.3.4".toList

lemma border_text : plainPython.productText (answer border) = border := by decide +kernel

/-- What is left of a transcript that is projected once. -/
def answered (text : List Char) : Projector where
  transcripts := [("run-1", [question, answer text])]
  messages := [("msg_8e3ce43262a363248e3aee50", rowOf plainPython "ses-1" firstRun (answer text))]
  events := eventsOf plainPython "ses-1" firstRun (answer text)

lemma runFrom_answer (text : List Char) (hshown : plainPython.productText (answer text) = text) (hne : text ≠ []) :
    (projector plainPython).runFrom {}
      [.append "run-1" question, .append "run-1" (answer text), .project "ses-1" firstRun none] = some (answered text) := by
  have hempty : ¬ (plainPython.productText (answer text)).isEmpty = true := by
    rw [hshown]
    simpa using hne
  have hprojected : projectMessage plainPython "ses-1" firstRun none ⟨[("run-1", [question, answer text])], [], []⟩
      (answer text) = .ok (answered text, 1) := by
    dsimp only [projectMessage, answer]
    exact (if_neg hempty).trans rfl
  have hmessages : (projectMessages plainPython "ses-1" firstRun none ⟨[("run-1", [question, answer text])], [], []⟩
      [question, answer text]).1 = answered text := by
    rw [projectMessages]
    change (projectMessages plainPython "ses-1" firstRun none _ [answer text]).1 = answered text
    rw [projectMessages, hprojected]
    rfl
  exact congrArg some hmessages

lemma unfaithful_of_deltas {w : Projector} {messageId : String} {content : List Char} {deltas : List (List Char)}
    (h : (w.messages.get? messageId).map MessageRow.contentRedacted = some content ∧
      (w.messages.get? messageId).map MessageRow.role = some .assistant ∧ deltasOf messageId w.events = deltas ∧
        deltas.flatten ≠ content) : (w.messages.get? messageId).map MessageRow.contentRedacted = some content ∧
      deltasOf messageId w.events = deltas ∧ ¬ w.Faithful := by
  obtain ⟨hcontent, hrole, hdeltas, hne⟩ := h
  refine ⟨hcontent, hdeltas, fun hfaithful => ?_⟩
  obtain ⟨row, hget, rfl⟩ := Option.map_eq_some_iff.mp hcontent
  rw [hget] at hrole
  exact hne (hdeltas ▸ hfaithful.deltas _ row hget (Option.some.inj hrole))

/-- Characters with which no match but that of an address begins. -/
def idle : List Char := ['x', '.', '1', '2', '3', '4']

lemma idle_not_starts {c : Char} (hc : c ∈ idle) : pemKeyRe.starts c = false ∧ (bearerRe .ascii).starts c = false ∧
    (basicRe .ascii).starts c = false ∧ urlSecretRe.starts c = false ∧ (secretKvRe .ascii).starts c = false := by
  have hidle : idle.all (fun c => !pemKeyRe.starts c && !(bearerRe .ascii).starts c && !(basicRe .ascii).starts c &&
      !urlSecretRe.starts c && !(secretKvRe .ascii).starts c) = true := by decide
  simpa [and_assoc] using all_eq_true.mp hidle c hc

lemma redact_idle {text : List Char} (hidle : ∀ c ∈ text, c ∈ idle)
    (hlength : ((ipv6Re .ascii).sub (fun _ => redactedIp) ((ipv4Re .ascii).sub (fun _ => redactedIp) text)).length ≤ 20000) :
    plainPython.redact text = (ipv6Re .ascii).sub (fun _ => redactedIp) ((ipv4Re .ascii).sub (fun _ => redactedIp) text) := by
  have hat : '@' ∉ text := fun hmem => absurd (hidle _ hmem) (by decide)
  have hemail : (emailRe .ascii).sub (fun _ => redactedEmail) text = text :=
    sub_of_ends_eq_nil _ fun _ v hv => emailRe_eq_nil .ascii fun hmem => hat (hv.subset hmem)
  have hredacted : (redacted .ascii text).1 =
      (ipv6Re .ascii).sub (fun _ => redactedIp) ((ipv4Re .ascii).sub (fun _ => redactedIp) text) := by
    simp only [redacted, applyPattern_fst, applySecretKv_fst]
    rw [sub_of_not_starts _ fun c hc => (idle_not_starts (hidle c hc)).1,
      sub_of_not_starts _ fun c hc => (idle_not_starts (hidle c hc)).2.1,
      sub_of_not_starts _ fun c hc => (idle_not_starts (hidle c hc)).2.2.1,
      sub_of_not_starts _ fun c hc => (idle_not_starts (hidle c hc)).2.2.2.1,
      sub_of_not_starts _ fun c hc => (idle_not_starts (hidle c hc)).2.2.2.2, hemail]
  rw [← hredacted] at hlength ⊢
  exact truncate_of_fits hlength

lemma redact_xs (n : ℕ) (hn : n ≤ 20000) : plainPython.redact (replicate n 'x') = replicate n 'x' := by
  have hipv4 : (ipv4Re .ascii).sub (fun _ => redactedIp) (replicate n 'x') = replicate n 'x' :=
    sub_of_not_starts _ fun c hc => eq_of_mem_replicate hc ▸ by decide
  have hipv6 : (ipv6Re .ascii).sub (fun _ => redactedIp) (replicate n 'x') = replicate n 'x' :=
    sub_of_not_starts _ fun c hc => eq_of_mem_replicate hc ▸ by decide
  rw [redact_idle, hipv4, hipv6]
  · exact fun c hc => eq_of_mem_replicate hc ▸ by decide
  · rw [hipv4, hipv6, length_replicate]
    exact hn

lemma redact_border : plainPython.redact border = border := by
  have hskip {r : Regex} (hr : r.starts 'x' = false) (htail : r.scan (some 'x') "1.2.3.4".toList = "1.2.3.4".toList.map .inl) :
      r.sub (fun _ => redactedIp) border = border := by
    rw [sub, border, scan_of_not_starts fun c hc => eq_of_mem_replicate hc ▸ hr]
    have hlast : (replicate 160 'x').getLast?.or none = some 'x' := by
      rw [getLast?_replicate]
      rfl
    rw [hlast, htail, ← map_append, replaced_map_inl]
  have hipv4 : (ipv4Re .ascii).sub (fun _ => redactedIp) border = border := hskip (by decide) rfl
  have hipv6 : (ipv6Re .ascii).sub (fun _ => redactedIp) border = border := hskip (by decide) rfl
  rw [redact_idle, hipv4, hipv6]
  · intro c hc
    rcases mem_append.mp hc with hx | haddress
    · exact eq_of_mem_replicate hx ▸ by decide
    · exact (by decide : "1.2.3.4".toList ⊆ idle) haddress
  · rw [hipv4, hipv6, border, length_append, length_replicate]
    decide

/-- Projected again after a resume, a text is sent twice; and a piece is redacted though its text is not. -/
theorem projected_twice : (∃ w, (projector plainPython).runFrom {}
      [.append "run-1" question, .append "run-1" (answer "Disk full.".toList), .project "ses-1" firstRun none,
        .project "ses-1" firstRun none] = some w ∧
    (w.messages.get? "msg_8e3ce43262a363248e3aee50").map MessageRow.contentRedacted = some "Disk full.".toList ∧
    deltasOf "msg_8e3ce43262a363248e3aee50" w.events = ["Disk full.".toList, "Disk full.".toList] ∧ ¬ w.Faithful) ∧
    ∃ w, (projector plainPython).runFrom {}
      [.append "run-1" question, .append "run-1" (answer border), .project "ses-1" firstRun none] = some w ∧
    (w.messages.get? "msg_8e3ce43262a363248e3aee50").map MessageRow.contentRedacted = some border ∧
    deltasOf "msg_8e3ce43262a363248e3aee50" w.events = [replicate 160 'x', "[REDACTED_IP]".toList] ∧ ¬ w.Faithful := by
  have hborder : border ≠ [] := append_ne_nil_of_right_ne_nil _ (by decide)
  have hrun := runFrom_answer border border_text hborder
  refine ⟨⟨_, rfl, unfaithful_of_deltas (by decide +kernel)⟩,
    ⟨answered border, hrun, unfaithful_of_deltas ⟨?_, rfl, ?_, by decide +kernel⟩⟩⟩
  · have hrow : (answered border).messages.get? "msg_8e3ce43262a363248e3aee50" =
        some (rowOf plainPython "ses-1" firstRun (answer border)) := rfl
    rw [hrow, Option.map_some, rowOf, border_text, redact_border]
  · have hchunks : chunks border = [replicate 160 'x', "1.2.3.4".toList] := by decide +kernel
    have haddress : plainPython.redact "1.2.3.4".toList = "[REDACTED_IP]".toList := by decide +kernel
    have hid : plainPython.assistantMessageId firstRun.agentRunId (answer border).sequence =
        "msg_8e3ce43262a363248e3aee50" := by rfl
    rw [answered, deltasOf_eventsOf, if_pos hid, border_text, redact_border, hchunks, map_cons, map_singleton,
      redact_xs 160 (by decide), haddress]

/-- A transcript that is projected once. -/
theorem projected_faithfully : ∃ w, (projector plainPython).runFrom {}
    [.append "run-1" question, .append "run-1" (answer "Disk full.".toList), .project "ses-1" firstRun none] = some w ∧
    w.Faithful := by
  refine ⟨_, rfl, projected_once_faithful plainPython _ (.next (.project "ses-1" firstRun none)
    (.next (.append "run-1" (answer "Disk full.".toList)) (.next (.append "run-1" question) .start trivial rfl) trivial rfl)
    ?_ rfl)⟩
  intro m hm hshows
  rcases mem_cons.mp hm with rfl | hm
  · cases hshows
  · cases mem_singleton.mp hm
    refine ⟨rfl, ?_⟩
    decide +kernel

end IncidentLens.AgentSessions
