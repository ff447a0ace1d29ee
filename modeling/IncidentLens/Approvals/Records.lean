import IncidentLens.Approvals.Store
import IncidentLens.Data.JsonSorted
import IncidentLens.Data.Keyset

/-!
# Approval records

`create_request` writes a record as a row, the backfill of `migrate` fills the columns of every row in from its
intent, and `get` and `list_page` make records of rows. Links, risk, preview and downstream status are derived each
time, from the columns and from the intent.
-/
namespace IncidentLens.Approvals.Records
open Data DateTime

/-- The fields that link an approval to what it is about. -/
inductive Link
  | project | target | service | session | investigation | agentRun | toolCall | changeset | proposal
  deriving DecidableEq

def Link.all : List Link :=
  [.project, .target, .service, .session, .investigation, .agentRun, .toolCall, .changeset, .proposal]

def Link.key : Link → String
  | project => "project_id"
  | target => "target_id"
  | service => "service"
  | session => "session_id"
  | investigation => "investigation_id"
  | agentRun => "agent_run_id"
  | toolCall => "tool_call_id"
  | changeset => "changeset_id"
  | proposal => "proposal_id"

def Link.maxLength : Link → ℕ
  | project => 80
  | _ => 120

/-- The links by which a decision has something to do downstream. -/
def Link.downstream : List Link := [.session, .investigation, .agentRun, .toolCall, .changeset, .proposal]

abbrev Links := Link → Option String

/-- `_string`. -/
def string (value : Option String) : Option String := value.filter fun s => decide (s ≠ "")

/-- `_string(intent.get(key))`. -/
def intentString (intent : Dict String Json) (key : String) : Option String :=
  match intent.get? key with
  | some (.string s) => string (some s)
  | _ => none

/-- A link that is given, or else that of the intent. -/
def linked (intent : Dict String Json) (given : Links) : Links := fun k =>
  (string (given k)).orElse fun _ => intentString intent k.key

def approvalRequired : String := "approval_required"

/-- The fields of an intent that `_safe_preview_from_intent` shows, with their names in the preview. -/
def previewFields : List (String × String) :=
  [("security_preview", "preview"), ("impact", "impact"), ("verification_plan", "verification"),
    ("rollback_plan", "rollback")]

def previewField (intent : Dict String Json) (field : String × String) : Option (String × Json) :=
  match intent.get? field.1 with
  | some (.string s) => some (field.2, .string s)
  | _ => none

def safePreviewFromIntent (intent : Dict String Json) : Dict String Json :=
  match intent.get? "preview" with
  | some (.object preview) => preview
  | _ => previewFields.filterMap (previewField intent)

def initialDownstreamStatus (links : Links) : DownstreamStatus :=
  if Link.downstream.any fun k => (string (links k)).isSome then .pending else .notApplicable

def deriveRisk (intent : Dict String Json) (stored : Option String) : String :=
  match intentString intent "risk" with
  | some intentRisk =>
    if stored = none ∨ stored = some approvalRequired then intentRisk else (string stored).getD intentRisk
  | none => (string stored).getD approvalRequired

def deriveDownstreamStatus (intent : Dict String Json) (links : Links) (storedStatus : Option DownstreamStatus)
    (downstreamUpdatedAt : Option Text) : DownstreamStatus :=
  match storedStatus with
  | none => initialDownstreamStatus links
  | some stored =>
    if stored = .notApplicable ∧ initialDownstreamStatus links = .pending ∧ downstreamUpdatedAt = none ∧
        Link.downstream.any (fun k => (intentString intent k.key).isSome) = true then .pending
    else stored

structure ApprovalRecord where
  approvalId : String
  intentSha256 : String
  intent : Dict String Json
  intentSummary : String
  status : ApprovalStatus
  links : Links
  risk : String
  preview : Dict String Json
  createdAt : DateTime
  expiresAt : DateTime
  decidedAt : Option DateTime := none
  consumedAt : Option DateTime := none
  decisionActor : Option String := none
  decisionReason : Option String := none
  decisionRouteKey : Option String := none
  decisionIdempotencyKey : Option String := none
  decisionRequestSha256 : Option String := none
  downstreamStatus : DownstreamStatus
  downstreamErrorCode : Option String := none
  downstreamUpdatedAt : Option DateTime := none

def within (maxLength : ℕ) (s : String) : Bool := decide (1 ≤ s.length ∧ s.length ≤ maxLength)

/-- The checks of the model. -/
def ApprovalRecord.valid (r : ApprovalRecord) : Bool :=
  within 120 r.approvalId && within 64 r.intentSha256 && within 1000 r.intentSummary &&
    Link.all.all (fun k => (r.links k).all (within k.maxLength)) && within 80 r.risk &&
    r.decisionActor.all (within 200) && r.decisionReason.all (within 1000) && r.decisionRouteKey.all (within 200) &&
    r.decisionIdempotencyKey.all (within 200) && r.decisionRequestSha256.all (within 64) &&
    r.downstreamErrorCode.all (within 120)

/-- A row of `approvals`: the columns that say how it was decided, and the others. -/
structure Row extends ApprovalRow where
  intentSummary : String
  links : Links
  risk : String
  previewJson : Text

def Row.intentJson (row : Row) : Text := Json.dumps (.object row.intent)

/-- The columns of a record. -/
def ApprovalRecord.row (r : ApprovalRecord) : Row where
  approvalId := r.approvalId
  intentSha256 := r.intentSha256
  intent := r.intent
  intentSummary := r.intentSummary
  status := r.status
  links := r.links
  risk := r.risk
  previewJson := Json.dumps (.object r.preview)
  createdAt := r.createdAt.isoformat
  expiresAt := r.expiresAt.isoformat
  decidedAt := r.decidedAt.map isoformat
  consumedAt := r.consumedAt.map isoformat
  decisionActor := r.decisionActor
  decisionReason := r.decisionReason
  decisionRouteKey := r.decisionRouteKey
  decisionIdempotencyKey := r.decisionIdempotencyKey
  decisionRequestSha256 := r.decisionRequestSha256
  downstreamStatus := r.downstreamStatus
  downstreamErrorCode := r.downstreamErrorCode
  downstreamUpdatedAt := r.downstreamUpdatedAt.map isoformat

structure ApprovalStore where
  rows : List Row
  unique : (rows.map fun row => row.approvalId).Nodup

namespace ApprovalStore

def empty : ApprovalStore := ⟨[], List.nodup_nil⟩

lemma unique_mapRows (s : ApprovalStore) {f : Row → Row} (h : ∀ row, (f row).approvalId = row.approvalId) :
    ((s.rows.map f).map fun row => row.approvalId).Nodup := by
  rw [List.map_map]
  exact (List.map_congr_left fun row _ => h row) ▸ s.unique

/-- An update of the rows that leaves their ids. -/
def mapRows (s : ApprovalStore) (f : Row → Row) (h : ∀ row, (f row).approvalId = row.approvalId) : ApprovalStore :=
  ⟨s.rows.map f, s.unique_mapRows h⟩

lemma unique_insert (s : ApprovalStore) {row : Row} (h : row.approvalId ∉ s.rows.map fun row => row.approvalId) :
    ((s.rows ++ [row]).map fun row => row.approvalId).Nodup := by
  rw [List.map_append, List.map_singleton]
  exact List.nodup_append.mpr ⟨s.unique, List.nodup_singleton _, fun a ha b hb hab =>
    h (List.mem_singleton.mp hb ▸ hab ▸ ha)⟩

end ApprovalStore

/-! ### Creating -/

def previousDay : ℕ × ℕ × ℕ → ℕ × ℕ × ℕ
  | (year, month, day) =>
    if 1 < day then (year, month, day - 1)
    else if 1 < month then (year, month - 1, daysInMonth year (month - 1))
    else (year - 1, 12, 31)

/-- `d + timedelta(minutes=n)`, `none` on overflow. -/
def addTimedelta (d : DateTime) (n : ℤ) : Option DateTime :=
  let minutes : ℤ := d.hour * 60 + d.minute + n
  let days := minutes / 1440
  let date := if 0 ≤ days then nextDay^[days.toNat] (d.year, d.month, d.day)
    else previousDay^[(-days).toNat] (d.year, d.month, d.day)
  let minute := (minutes % 1440).toNat
  make? date.1 date.2.1 date.2.2 (minute / 60) (minute % 60) d.second d.microsecond

section
variable (numbers : Json.Numbers)

/-- The arguments of `create_request`; an intent and a preview are JSON objects. -/
structure CreateRequest where
  approvalId : String
  intentSha256 : String
  intent : Dict String Json
  intentSummary : String
  now : DateTime
  ttlMinutes : ℤ := defaultTtlMinutes
  links : Links := fun _ => none
  risk : String := approvalRequired
  preview : Option (Dict String Json) := none
  intent_valid : Json.Valid numbers (.object intent)
  preview_valid : ∀ p ∈ preview, Json.Valid numbers (.object p)

variable {numbers}

/-- `preview or _safe_preview_from_intent(intent)`. -/
def CreateRequest.shownPreview (r : CreateRequest numbers) : Dict String Json :=
  match r.preview with
  | none | some [] => safePreviewFromIntent r.intent
  | some preview => preview

/-- The record that is created, expiring at a time. -/
def CreateRequest.record (r : CreateRequest numbers) (expiresAt : DateTime) : ApprovalRecord where
  approvalId := r.approvalId
  intentSha256 := r.intentSha256
  intent := r.intent
  intentSummary := r.intentSummary
  status := .pending
  links := linked r.intent r.links
  risk := ((string (some r.risk)).orElse fun _ => intentString r.intent "risk").getD approvalRequired
  preview := r.shownPreview
  createdAt := r.now
  expiresAt := expiresAt
  downstreamStatus := initialDownstreamStatus r.links

/-- `create_request`; `none` where it raises. -/
def createRequest (s : ApprovalStore) (r : CreateRequest numbers) : Option (ApprovalRecord × ApprovalStore) :=
  (addTimedelta r.now r.ttlMinutes).bind fun expiresAt =>
    if (r.record expiresAt).valid then
      if h : (r.record expiresAt).row.approvalId ∉ s.rows.map fun row => row.approvalId then
        some (r.record expiresAt, ⟨s.rows ++ [(r.record expiresAt).row], s.unique_insert h⟩)
      else none
    else none

/-! ### Reading -/

def objectOf : Option Json → Option (Dict String Json)
  | some (.object members) => some members
  | _ => none

/-- `datetime.fromisoformat(value) if value else None`; `none` where it raises. -/
def readStamp : Option Text → Option (Option DateTime)
  | none | some [] => some none
  | some text => (fromIsoformat text).map some

variable (numbers)

def Row.readPreview (row : Row) : Dict String Json :=
  (objectOf (Json.loads numbers (if row.previewJson = [] then "{}".toList else row.previewJson))).getD []

/-- `_record_from_row`; `none` where it raises. -/
def recordFromRow (row : Row) : Option ApprovalRecord := do
  let intent ← objectOf (Json.loads numbers row.intentJson)
  let downstreamUpdatedAt ← readStamp row.downstreamUpdatedAt
  let createdAt ← fromIsoformat row.createdAt
  let expiresAt ← fromIsoformat row.expiresAt
  let decidedAt ← readStamp row.decidedAt
  let consumedAt ← readStamp row.consumedAt
  let record : ApprovalRecord := {
    approvalId := row.approvalId
    intentSha256 := row.intentSha256
    intent := intent
    intentSummary := row.intentSummary
    status := row.status
    links := linked intent row.links
    risk := deriveRisk intent (string (some row.risk))
    preview := row.readPreview numbers
    createdAt := createdAt
    expiresAt := expiresAt
    decidedAt := decidedAt
    consumedAt := consumedAt
    decisionActor := string row.decisionActor
    decisionReason := string row.decisionReason
    decisionRouteKey := string row.decisionRouteKey
    decisionIdempotencyKey := string row.decisionIdempotencyKey
    decisionRequestSha256 := string row.decisionRequestSha256
    downstreamStatus := deriveDownstreamStatus intent (linked intent row.links) (some row.downstreamStatus)
      (downstreamUpdatedAt.map isoformat)
    downstreamErrorCode := string row.downstreamErrorCode
    downstreamUpdatedAt := downstreamUpdatedAt }
  if record.valid then some record else none

def ApprovalStore.get (s : ApprovalStore) (approvalId : String) : Option ApprovalRecord :=
  (s.rows.find? fun row => decide (row.approvalId = approvalId)).bind (recordFromRow numbers)

/-! ### The backfill -/

def Row.filled (row : Row) (intent : Dict String Json) : Row := { row with
  links := linked intent row.links
  risk := deriveRisk intent (string (some row.risk))
  previewJson := if row.previewJson = [] ∨ row.previewJson = "{}".toList then
    Json.dumps (.object (safePreviewFromIntent intent)) else row.previewJson
  downstreamStatus := deriveDownstreamStatus intent (linked intent row.links) (some row.downstreamStatus)
    (row.downstreamUpdatedAt.filter fun text => decide (text ≠ [])) }

def Row.backfilled (row : Row) : Row := row.filled ((objectOf (Json.loads numbers row.intentJson)).getD [])

lemma Row.approvalId_backfilled (row : Row) : (row.backfilled numbers).approvalId = row.approvalId := rfl

/-- `migrate` where the table has all its columns: `_backfill_rows`, nothing where it raises. -/
def ApprovalStore.migrate (s : ApprovalStore) : Option ApprovalStore :=
  if s.rows.all fun row => (objectOf (Json.loads numbers row.intentJson)).isSome then
    some (s.mapRows (Row.backfilled numbers) (Row.approvalId_backfilled numbers))
  else none

/-- So many runs of `migrate`. -/
def ApprovalStore.migrations : ℕ → ApprovalStore → Option ApprovalStore
  | 0, s => some s
  | n + 1, s => (s.migrate numbers).bind (ApprovalStore.migrations n)

/-! ### Runs -/

def Row.updated (condition : ApprovalRow → Bool) (set : ApprovalRow → ApprovalRow) (row : Row) : Row :=
  if condition row.toApprovalRow then { row with toApprovalRow := set row.toApprovalRow } else row

lemma Row.approvalId_updated {condition : ApprovalRow → Bool} {set : ApprovalRow → ApprovalRow}
    (h : ∀ row, (set row).approvalId = row.approvalId) (row : Row) :
    (row.updated condition set).approvalId = row.approvalId := by
  unfold Row.updated
  split_ifs
  · exact h row.toApprovalRow
  · rfl

/-- An update of the columns that say how an approval was decided. -/
def ApprovalStore.updateWhere (s : ApprovalStore) (condition : ApprovalRow → Bool) (set : ApprovalRow → ApprovalRow)
    (h : ∀ row, (set row).approvalId = row.approvalId) : ApprovalStore :=
  s.mapRows (Row.updated condition set) (Row.approvalId_updated h)

lemma Decision.approvalId_set (d : Decision) (row : ApprovalRow) : (d.set row).approvalId = row.approvalId := rfl

lemma Consumption.approvalId_set (c : Consumption) (row : ApprovalRow) : (c.set row).approvalId = row.approvalId := rfl

lemma Downstream.approvalId_set (m : Downstream) (row : ApprovalRow) : (m.set row).approvalId = row.approvalId := rfl

/-- What is done to the store; where a call raises, the store is as before. -/
inductive Operation
  | create (r : CreateRequest numbers)
  | migrate
  | decide (d : Decision)
  | consume (c : Consumption)
  | markDownstream (m : Downstream)

variable {numbers}

def ApprovalStore.step (s : ApprovalStore) : Operation numbers → ApprovalStore
  | .create r => ((createRequest s r).map Prod.snd).getD s
  | .migrate => (s.migrate numbers).getD s
  | .decide d => s.updateWhere (fun row => row.approvalId = d.approvalId ∧ row.status = .pending ∧
      d.now.isoformat < row.expiresAt) d.set (Decision.approvalId_set d)
  | .consume c => s.updateWhere (fun row => row.approvalId = c.approvalId ∧ row.status = .approved ∧
      row.consumedAt = none ∧ c.now.isoformat < row.expiresAt) c.set (Consumption.approvalId_set c)
  | .markDownstream m => s.updateWhere (fun row => row.approvalId = m.approvalId) m.set (Downstream.approvalId_set m)

def run (operations : List (Operation numbers)) : ApprovalStore := operations.foldl ApprovalStore.step .empty

end
end IncidentLens.Approvals.Records
