import IncidentLens.Data.Bytes
import IncidentLens.Data.DateTime
import IncidentLens.Data.Json
import IncidentLens.Data.Table

/-!
# The approval store and service

Approvals are rows of one table. A decision reads the row and then updates it under a
condition, a consumption compares the hash of its intent and then updates under another;
other statements can run between the two. `sha256` is the digest function.
-/
namespace IncidentLens.Approvals
open Data

inductive ApprovalStatus
  | pending | approved | rejected | consumed
  deriving DecidableEq

def ApprovalStatus.value : ApprovalStatus → String
  | pending => "pending"
  | approved => "approved"
  | rejected => "rejected"
  | consumed => "consumed"

inductive DownstreamStatus
  | notApplicable | pending | processing | processed | failed
  deriving DecidableEq

/-- An intent: the members of a JSON object. -/
abbrev Intent := List (String × Json)

def canonicalIntent (intent : Intent) : Bytes := (String.ofList (Json.dumps (.object intent))).toUTF8.data.toList

def intentSha256 (sha256 : Bytes → String) (intent : Intent) : String := sha256 (canonicalIntent intent)

structure ApprovalRow where
  approvalId : String
  intentSha256 : String
  intent : Intent
  status : ApprovalStatus
  createdAt : Text
  expiresAt : Text
  decidedAt : Option Text := none
  consumedAt : Option Text := none
  decisionActor : Option String := none
  decisionReason : Option String := none
  decisionRouteKey : Option String := none
  decisionIdempotencyKey : Option String := none
  decisionRequestSha256 : Option String := none
  downstreamStatus : DownstreamStatus := .notApplicable
  downstreamErrorCode : Option String := none
  downstreamUpdatedAt : Option Text := none

abbrev Rows := Table ApprovalRow.approvalId

inductive ApprovalError
  | notFound | alreadyDecided (status : ApprovalStatus) | expired (expiresAt : Text)
  | unavailable | mismatch | duplicate | overflow | invalidTimestamp

def ApprovalError.text (approvalId : String) : ApprovalError → String
  | notFound => "Approval '" ++ approvalId ++ "' not found"
  | alreadyDecided status => "Approval '" ++ approvalId ++ "' is already " ++ status.value
  | expired expiresAt => "Approval '" ++ approvalId ++ "' expired at " ++ String.ofList expiresAt
  | unavailable => "Approval '" ++ approvalId ++ "' cannot be consumed: not approved, already consumed, or expired"
  | mismatch => "Intent hash does not match the approved canonical parameters"
  | duplicate => "UNIQUE constraint failed: approvals.approval_id"
  | overflow => "date value out of range"
  | invalidTimestamp => "Invalid isoformat string"

/-- `UPDATE approvals SET … WHERE approval_id = ? AND …`; `none` when no row was updated. -/
def updateWhere (rows : Rows) (approvalId : String) (condition : ApprovalRow → Bool)
    (set : ApprovalRow → ApprovalRow) : Option Rows :=
  match rows.get approvalId with
  | none => none
  | some row => if condition row then some (rows.put (set row)) else none

def defaultTtlMinutes : ℕ := 15

structure Request where
  approvalId : String
  intent : Intent
  now : DateTime
  ttlMinutes : ℕ := defaultTtlMinutes
  downstreamStatus : DownstreamStatus := .notApplicable

/-- `request` and `create_request`. -/
def create (sha256 : Bytes → String) (rows : Rows) (r : Request) : Except ApprovalError Rows :=
  match r.now.addMinutes r.ttlMinutes with
  | none => .error .overflow
  | some expiresAt => match rows.get r.approvalId with
    | some _ => .error .duplicate
    | none => .ok (rows.put
        { approvalId := r.approvalId
          intentSha256 := intentSha256 sha256 r.intent
          intent := r.intent
          status := .pending
          createdAt := r.now.isoformat
          expiresAt := expiresAt.isoformat
          downstreamStatus := r.downstreamStatus })

inductive Verdict
  | approve | reject
  deriving DecidableEq

def Verdict.status : Verdict → ApprovalStatus
  | approve => .approved
  | reject => .rejected

/-- A call of `approve` or `reject`. -/
structure Decision where
  approvalId : String
  verdict : Verdict
  now : DateTime
  actor : Option String := none
  reason : Option String := none
  routeKey : Option String := none
  idempotencyKey : Option String := none
  requestSha256 : Option String := none

/-- The read of `_decide` and the checks on it. -/
def Decision.select (d : Decision) (rows : Rows) : Except ApprovalError Unit :=
  match rows.get d.approvalId with
  | none => .error .notFound
  | some row => match DateTime.fromIsoformat row.expiresAt with
    | none => .error .invalidTimestamp
    | some expiresAt =>
      if row.status ≠ .pending then .error (.alreadyDecided row.status)
      else if ¬ d.now < expiresAt then .error (.expired row.expiresAt)
      else .ok ()

def Decision.set (d : Decision) (row : ApprovalRow) : ApprovalRow :=
  { row with
    status := d.verdict.status
    decidedAt := some d.now.isoformat
    decisionActor := d.actor
    decisionReason := d.reason
    decisionRouteKey := d.routeKey
    decisionIdempotencyKey := d.idempotencyKey
    decisionRequestSha256 := d.requestSha256
    downstreamErrorCode := none }

/-- The conditional update of `_decide`, and the error it raises when no row was updated. -/
def Decision.update (d : Decision) (rows : Rows) : Except ApprovalError Rows :=
  match updateWhere rows d.approvalId
      (fun row => row.status = .pending ∧ d.now.isoformat < row.expiresAt) d.set with
  | some rows => .ok rows
  | none => match rows.get d.approvalId with
    | none => .error .notFound
    | some refreshed =>
      if refreshed.status ≠ .pending then .error (.alreadyDecided refreshed.status)
      else .error (.expired refreshed.expiresAt)

/-- A call of `consume`. -/
structure Consumption where
  approvalId : String
  intent : Intent
  now : DateTime

/-- The read of `ApprovalService.consume` and the comparison of the hashes. -/
def Consumption.read (sha256 : Bytes → String) (c : Consumption) (rows : Rows) : Except ApprovalError Unit :=
  match rows.get c.approvalId with
  | none => .error .notFound
  | some existing =>
    if intentSha256 sha256 c.intent ≠ existing.intentSha256 then .error .mismatch
    else .ok ()

def Consumption.set (c : Consumption) (row : ApprovalRow) : ApprovalRow :=
  { row with status := .consumed, consumedAt := some c.now.isoformat }

/-- The conditional update of `ApprovalStore.consume`. -/
def Consumption.update (c : Consumption) (rows : Rows) : Except ApprovalError Rows :=
  match updateWhere rows c.approvalId
      (fun row => row.status = .approved ∧ row.consumedAt = none ∧ c.now.isoformat < row.expiresAt)
      c.set with
  | some rows => .ok rows
  | none => .error .unavailable

structure Downstream where
  approvalId : String
  status : DownstreamStatus
  errorCode : Option String
  now : DateTime

def Downstream.set (m : Downstream) (row : ApprovalRow) : ApprovalRow :=
  { row with
    downstreamStatus := m.status
    downstreamErrorCode := m.errorCode
    downstreamUpdatedAt := some m.now.isoformat }

/-- `mark_downstream`. -/
def Downstream.update (m : Downstream) (rows : Rows) : Rows :=
  (updateWhere rows m.approvalId (fun _ => true) m.set).getD rows

lemma updateWhere_eq_some {rows rows' : Rows} {approvalId : String}
    {condition : ApprovalRow → Bool} {set : ApprovalRow → ApprovalRow}
    (h : updateWhere rows approvalId condition set = some rows') :
    ∃ row, rows.get approvalId = some row ∧ condition row = true ∧ rows' = rows.put (set row) := by
  unfold updateWhere at h
  cases hrow : rows.get approvalId with
  | none => simp [hrow] at h
  | some row =>
    simp only [hrow, Option.ite_none_right_eq_some, Option.some.injEq] at h
    exact ⟨row, rfl, h.1, h.2.symm⟩

end IncidentLens.Approvals
