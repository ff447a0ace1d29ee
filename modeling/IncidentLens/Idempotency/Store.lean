import IncidentLens.Data.DateTime
import IncidentLens.Data.Table

/-!
# The idempotency store

A mutation under an idempotency key reserves the key, runs, and then stores its response or
re-arms the lease of its reservation: three transactions, each on the one row of the key.
Expiry is decided by comparing texts of timestamps.
-/
namespace IncidentLens.Idempotency
open Data

inductive IdempotencyState
  | inProgress | completed
  deriving DecidableEq

inductive ReservationStatus
  | reserved | replay | conflict | inProgress
  deriving DecidableEq

structure Reservation where
  status : ReservationStatus
  statusCode : Option ℤ := none
  responseJson : Option String := none
  deriving DecidableEq

/-- The primary key of `api_idempotency_keys`. -/
structure RecordKey where
  principalId : String
  method : String
  routeKey : String
  idempotencyKey : String
  deriving DecidableEq

structure IdempotencyRecord where
  key : RecordKey
  requestSha256 : String
  state : IdempotencyState
  statusCode : Option ℤ
  responseJson : Option String
  createdAt : Text
  completedAt : Option Text
  expiresAt : Text
  deriving DecidableEq

abbrev Rows := Table IdempotencyRecord.key

def reservationLease : ℕ := 5

def failedReservationLease : ℕ := 1

def completedRetention : ℕ := 24 * 60

inductive IdempotencyError
  | keyRequired | conflict | inProgress | noResponseBody | overflow
  deriving DecidableEq

/-- `DELETE FROM api_idempotency_keys WHERE expires_at <= ?`. -/
def pruneExpired (rows : Rows) (now : DateTime) : Rows := rows.filter fun row => decide (now.isoformat < row.expiresAt)

def existingReservation (row : IdempotencyRecord) (requestSha256 : String) : Reservation :=
  match row.state with
  | .completed =>
    if row.requestSha256 = requestSha256 then ⟨.replay, row.statusCode, row.responseJson⟩
    else { status := .conflict }
  | .inProgress => { status := .inProgress }

/-- The row inserted by `reserve`. -/
def reservedRow (key : RecordKey) (requestSha256 : String) (now expiresAt : DateTime) : IdempotencyRecord where
  key := key
  requestSha256 := requestSha256
  state := .inProgress
  statusCode := none
  responseJson := none
  createdAt := now.isoformat
  completedAt := none
  expiresAt := expiresAt.isoformat

/-- `reserve`; what raises is rolled back. -/
def reserve (rows : Rows) (key : RecordKey) (requestSha256 : String) (now : DateTime) :
    Except IdempotencyError (Reservation × Rows) :=
  match now.addMinutes reservationLease with
  | none => .error .overflow
  | some expiresAt =>
    let rows := pruneExpired rows now
    match rows.get key with
    | none => .ok ({ status := .reserved }, rows.put (reservedRow key requestSha256 now expiresAt))
    | some row => .ok (existingReservation row requestSha256, rows)

/-- `UPDATE … WHERE … AND state = 'in_progress'`. -/
def updateInProgress (rows : Rows) (key : RecordKey) (set : IdempotencyRecord → IdempotencyRecord) : Rows :=
  match rows.get key with
  | some row => if row.state = .inProgress then rows.put (set row) else rows
  | none => rows

def markCompleted (rows : Rows) (key : RecordKey) (statusCode : ℤ) (responseJson : String) (now : DateTime) :
    Except IdempotencyError Rows :=
  match now.addMinutes completedRetention with
  | none => .error .overflow
  | some expiresAt => .ok (updateInProgress rows key fun row => { row with
      state := .completed
      statusCode := some statusCode
      responseJson := some responseJson
      completedAt := some now.isoformat
      expiresAt := expiresAt.isoformat })

def rearmLease (rows : Rows) (key : RecordKey) (now : DateTime) : Except IdempotencyError Rows :=
  match now.addMinutes failedReservationLease with
  | none => .error .overflow
  | some expiresAt => .ok (updateInProgress rows key fun row => { row with expiresAt := expiresAt.isoformat })

/-! ### `execute_idempotent` -/

def keyChar (c : Char) : Bool := c.isAlphanum || c == '.' || c == '_' || c == ':' || c == '-'

def validKey (key : String) : Bool := decide (1 ≤ key.length ∧ key.length ≤ 200) && key.toList.all keyChar

structure Request where
  key : RecordKey
  requestSha256 : String
  deriving DecidableEq

/-- Up to the action: `none` when it is to be run, the stored response when it is replayed. -/
def beginIdempotent (rows : Rows) (request : Request) (now : DateTime) :
    Except IdempotencyError (Option (ℤ × String)) × Rows :=
  if validKey request.key.idempotencyKey = false then (.error .keyRequired, rows)
  else match reserve rows request.key request.requestSha256 now with
    | .error e => (.error e, rows)
    | .ok (reservation, rows) => match reservation.status with
      | .replay => match reservation.responseJson with
        | none => (.error .noResponseBody, rows)
        | some responseJson => (.ok (some (reservation.statusCode.getD 200, responseJson)), rows)
      | .conflict => (.error .conflict, rows)
      | .inProgress => (.error .inProgress, rows)
      | .reserved => (.ok none, rows)

inductive Outcome
  | returned (statusCode : ℤ) (responseJson : String)
  | raised

/-- `_rearm_after_failure`: an error of the store is swallowed. -/
def rearmAfterFailure (rows : Rows) (key : RecordKey) (now : DateTime) : Rows :=
  match rearmLease rows key now with
  | .ok rows => rows
  | .error _ => rows

/-- From the end of the action on. -/
def endIdempotent (rows : Rows) (key : RecordKey) (outcome : Outcome) (now : DateTime) :
    Except IdempotencyError Unit × Rows :=
  match outcome with
  | .raised => (.ok (), rearmAfterFailure rows key now)
  | .returned statusCode responseJson =>
    if 200 ≤ statusCode ∧ statusCode < 300 then
      match markCompleted rows key statusCode responseJson now with
      | .error e => (.error e, rows)
      | .ok rows => (.ok (), rows)
    else (.ok (), rearmAfterFailure rows key now)

/-! ### Rows after an operation -/

lemma get_pruneExpired {rows : Rows} {now : DateTime} {key : RecordKey} {row : IdempotencyRecord} :
    (pruneExpired rows now).get key = some row ↔ rows.get key = some row ∧ now.isoformat < row.expiresAt := by
  simp [pruneExpired, Table.get_filter, decide_eq_true_eq]

lemma get_updateInProgress (rows : Rows) (key : RecordKey) {set : IdempotencyRecord → IdempotencyRecord}
    (hset : ∀ row, (set row).key = row.key) (k : RecordKey) : (updateInProgress rows key set).get k =
      if k = key then (rows.get k).map fun row => if row.state = .inProgress then set row else row
      else rows.get k := by
  unfold updateInProgress
  by_cases hk : k = key
  · subst hk
    rw [if_pos rfl]
    cases hrow : rows.get k with
    | none => simp [hrow]
    | some row =>
      by_cases hstate : row.state = .inProgress
      · have hkey : (set row).key = k := (hset row).trans (rows.keyed _ _ hrow)
        simp [hstate, Table.get_put, hkey]
      · simp [hstate, hrow]
  · rw [if_neg hk]
    cases hrow : rows.get key with
    | none => rfl
    | some row =>
      have hkey : (set row).key = key := (hset row).trans (rows.keyed _ _ hrow)
      by_cases hstate : row.state = .inProgress
      · simp [hstate, Table.get_put, hkey, hk]
      · simp [hstate]

lemma get_updateInProgress_self {rows : Rows} {key : RecordKey} {set : IdempotencyRecord → IdempotencyRecord}
    (hset : ∀ row, (set row).key = row.key) {stored : IdempotencyRecord} (hstored : rows.get key = some stored)
    (hstate : stored.state = .inProgress) : (updateInProgress rows key set).get key = some (set stored) := by
  rw [get_updateInProgress rows key hset, if_pos rfl, hstored, Option.map_some, if_pos hstate]

end IncidentLens.Idempotency
