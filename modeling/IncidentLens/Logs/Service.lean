import IncidentLens.Logs.Store

/-!
# From raw lines to log records

A raw line becomes a record that carries the context of its subscription and only redacted
text. Its dedupe key is the digest of that context, its cursor and its redacted message.
-/
namespace IncidentLens.Logs
open Data

structure LogSubscription where
  subscriptionId : String
  projectId : String
  targetId : String
  serviceName : String
  sourceKind : LogSourceKind
  scope : LogScope
  sourceRef : String

structure ParsedLogLine where
  severity : LogSeverity
  message : String
  messageIsRaw : Bool

/-- The parser, the redactor and the digest that records are made with. -/
structure Pipeline where
  parseLogLine : String → ParsedLogLine
  redactMessage : String → String
  sha256 : String → String

/-- `s.split(sep, 1)[0]`. -/
def beforeFirst (sep s : List Char) : List Char :=
  match find? sep s with
  | some i => s.take i
  | none => s

/-- The part of a docker cursor that survives a reconnect; other cursors as they are. -/
def dockerDedupeComponent (cursor : String) : String :=
  if "docker:time=".toList.isPrefixOf cursor.toList then
    String.ofList (beforeFirst ":seq=".toList (cursor.toList.drop "docker:time=".length))
  else cursor

def redactedText (pipeline : Pipeline) (raw : RawLogLine) : String :=
  let parsed := pipeline.parseLogLine raw.text
  if parsed.messageIsRaw then pipeline.redactMessage raw.text else pipeline.redactMessage parsed.message

def dedupeSource (pipeline : Pipeline) (subscription : LogSubscription) (raw : RawLogLine) : String :=
  "|".intercalate
    [subscription.projectId, subscription.targetId, subscription.serviceName, subscription.sourceKind.value,
      subscription.scope.value, subscription.sourceRef,
      if subscription.sourceKind = .docker then dockerDedupeComponent raw.cursor else raw.cursor,
      redactedText pipeline raw]

def recordFromRaw (pipeline : Pipeline) (subscription : LogSubscription) (raw : RawLogLine) (logId : String)
    (now : Time) : LogRecord where
  logId := logId
  subscriptionId := some subscription.subscriptionId
  projectId := subscription.projectId
  targetId := subscription.targetId
  serviceName := subscription.serviceName
  sourceKind := subscription.sourceKind
  scope := subscription.scope
  sourceRef := subscription.sourceRef
  cursor := raw.cursor
  dedupeKey := pipeline.sha256 (dedupeSource pipeline subscription raw)
  observedAt := now
  severity := (pipeline.parseLogLine raw.text).severity
  messageRedacted := redactedText pipeline raw

/-- One record for each line, under the ids drawn for them. -/
def processRawLines (pipeline : Pipeline) (subscription : LogSubscription) (rawLines : List RawLogLine)
    (logIds : List String) (now : Time) : List LogRecord :=
  List.zipWith (fun raw logId => recordFromRaw pipeline subscription raw logId now) rawLines logIds

def dedupeKey (pipeline : Pipeline) (subscription : LogSubscription) (raw : RawLogLine) : String :=
  pipeline.sha256 (dedupeSource pipeline subscription raw)

section Records
variable (pipeline : Pipeline) (subscription : LogSubscription) (now : Time) {rawLines : List RawLogLine}
  {logIds : List String}

lemma logIds_processRawLines (h : logIds.length = rawLines.length) :
    (processRawLines pipeline subscription rawLines logIds now).map LogRecord.logId = logIds := by
  induction rawLines generalizing logIds with
  | nil => simpa [processRawLines] using (List.length_eq_zero_iff.mp h).symm
  | cons raw rawLines ih =>
    cases logIds with
    | nil => simp at h
    | cons logId logIds =>
      have h := @ih logIds (by simpa using h)
      simp only [processRawLines, List.zipWith_cons_cons, List.map_cons] at h ⊢
      rw [h]
      rfl

lemma mem_processRawLines (h : logIds.length = rawLines.length) {raw : RawLogLine} (hraw : raw ∈ rawLines) :
    ∃ record ∈ processRawLines pipeline subscription rawLines logIds now,
      record.dedupeKey = dedupeKey pipeline subscription raw := by
  induction rawLines generalizing logIds with
  | nil => cases hraw
  | cons first rawLines ih =>
    cases logIds with
    | nil => simp at h
    | cons logId logIds =>
      rcases List.mem_cons.mp hraw with rfl | hraw
      · exact ⟨_, List.mem_cons_self, rfl⟩
      · obtain ⟨record, hrecord, hkey⟩ := @ih logIds (by simpa using h) hraw
        exact ⟨record, List.mem_cons_of_mem _ hrecord, hkey⟩

lemma streamSequence_processRawLines {record : LogRecord}
    (h : record ∈ processRawLines pipeline subscription rawLines logIds now) : record.streamSequence = 0 := by
  induction rawLines generalizing logIds with
  | nil => cases h
  | cons raw rawLines ih =>
    cases logIds with
    | nil => cases h
    | cons logId logIds =>
      rcases List.mem_cons.mp h with rfl | h
      · rfl
      · exact ih h

end Records
end IncidentLens.Logs
