import IncidentLens.Data.Dict
import IncidentLens.Data.Table
import IncidentLens.Effects.Runs

/-!
# The log subscription manager

Subscriptions are rows of the log store; those that run have a reader and a writer task. The
manager's coroutines share its state and may be interleaved wherever one of them awaits: `create`
while the source is validated, `pause` and `delete` while the tasks they have cancelled unwind, and
a reader that gives up, while its event is published and while its writer unwinds.
-/
namespace IncidentLens.Logs
open Data Effects

inductive LogSubscriptionStatus
  | active | paused | error | deleted
  deriving DecidableEq

/-- A row of `log_subscriptions`; where its lines come from plays no part here. -/
structure SubscriptionRow where
  subscriptionId : String
  optInStreaming : Bool
  status : LogSubscriptionStatus
  lastErrorRedacted : Option String := none
  deriving DecidableEq

/-- The rows, by `created_at`. -/
structure SubscriptionTable where
  rows : List SubscriptionRow := []
  unique : (rows.map SubscriptionRow.subscriptionId).Nodup := by exact List.nodup_nil

inductive SubscriptionError
  | keyError (subscriptionId : String)
  | invalidSubscriptionTransition (subscriptionId : String) (current status : LogSubscriptionStatus)
  | integrityError

namespace SubscriptionTable

def getSubscription (t : SubscriptionTable) (subscriptionId : String) : Option SubscriptionRow :=
  t.rows.find? fun row => row.subscriptionId = subscriptionId

/-- `UPDATE … WHERE subscription_id = ?`. -/
def put (t : SubscriptionTable) (row : SubscriptionRow) : SubscriptionTable where
  rows := replaceRow SubscriptionRow.subscriptionId t.rows row
  unique := by
    rw [map_replaceRow]
    exact t.unique

def createSubscription (t : SubscriptionTable) (subscriptionId : String) : Except SubscriptionError SubscriptionTable :=
  if h : subscriptionId ∈ t.rows.map SubscriptionRow.subscriptionId then .error .integrityError
  else .ok
    { rows := t.rows ++ [{ subscriptionId, optInStreaming := true, status := .active }]
      unique := by
        rw [List.map_append, List.map_singleton, ← List.concat_eq_append]
        exact List.Nodup.concat h t.unique }

def transitionStatus (t : SubscriptionTable) (subscriptionId : String) (status : LogSubscriptionStatus)
    (allowedFrom : List LogSubscriptionStatus) : Except SubscriptionError SubscriptionTable :=
  match t.getSubscription subscriptionId with
  | none => .error (.keyError subscriptionId)
  | some row =>
    if row.status ∈ allowedFrom then .ok (t.put { row with status })
    else .error (.invalidSubscriptionTransition subscriptionId row.status status)

def pauseSubscription (t : SubscriptionTable) (subscriptionId : String) : Except SubscriptionError SubscriptionTable :=
  t.transitionStatus subscriptionId .paused [.active]

def resumeSubscription (t : SubscriptionTable) (subscriptionId : String) : Except SubscriptionError SubscriptionTable :=
  t.transitionStatus subscriptionId .active [.paused, .error]

def deleteSubscription (t : SubscriptionTable) (subscriptionId : String) : Except SubscriptionError SubscriptionTable :=
  match t.getSubscription subscriptionId with
  | none => .error (.keyError subscriptionId)
  | some row => .ok (t.put { row with status := .deleted })

def listActiveOptInSubscriptions (t : SubscriptionTable) : List SubscriptionRow :=
  t.rows.filter fun row => row.status = .active ∧ row.optInStreaming = true

def status (t : SubscriptionTable) (subscriptionId : String) : Option LogSubscriptionStatus :=
  (t.getSubscription subscriptionId).map SubscriptionRow.status

end SubscriptionTable

/-! ### Tasks and coroutines -/

inductive TaskKind
  | reader | writer
  deriving DecidableEq

/-- `_SubscriptionTasks`. -/
structure SubscriptionTasks where
  reader : ℕ
  writer : ℕ
  deriving DecidableEq

/-- How far a task has come: its loop, the event of its last failure, the end of its writer, or on its
way out after it was cancelled. -/
inductive TaskStage
  | looping
  | emitting
  | tearing (tasks : SubscriptionTasks)
  | cancelled
  deriving DecidableEq

structure SubscriptionTask where
  taskId : ℕ
  subscriptionId : String
  kind : TaskKind
  stage : TaskStage := .looping
  deriving DecidableEq

/-- What a coroutine does when the tasks that it has cancelled have ended. -/
inductive Continuation
  | pause (subscriptionId : String)
  | delete (subscriptionId : String)
  | closeAll (rest : List String)
  deriving DecidableEq

inductive Pending
  | validating
  | restoring (rest : List String)
  | stopping (tasks : SubscriptionTasks) (next : Continuation)
  deriving DecidableEq

structure LogSubscriptionManager where
  table : SubscriptionTable
  running : Dict String SubscriptionTasks := []
  failures : Dict String ℕ := []
  tasks : List SubscriptionTask := []
  nextTask : ℕ := 0
  pending : List Pending := []

inductive ManagerMove
  | create (optInStreaming : Bool)
  /-- The source is valid, and the row is stored under a new id. -/
  | validated (subscriptionId : String)
  | rejected
  | pause (subscriptionId : String)
  | resume (subscriptionId : String)
  | delete (subscriptionId : String)
  | startActiveOptIn
  | restored (rest : List String)
  | closeAll
  /-- The cancelled tasks have ended. -/
  | stopped (tasks : SubscriptionTasks) (next : Continuation)
  /-- A poll or a stream ends well. -/
  | read (taskId : ℕ)
  /-- It raises; `suspends` says whether publishing the event of a last failure suspends the reader. -/
  | readFailed (taskId : ℕ) (error : String) (suspends : Bool)
  | emitted (taskId : ℕ)
  /-- A batch is not persisted. -/
  | writeFailed (taskId : ℕ)
  | ended (taskId : ℕ)
  | crash

namespace LogSubscriptionManager

def task? (s : LogSubscriptionManager) (taskId : ℕ) : Option SubscriptionTask :=
  s.tasks.find? fun task => task.taskId = taskId

def setStage (s : LogSubscriptionManager) (taskIds : List ℕ) (stage : TaskStage) : LogSubscriptionManager :=
  { s with tasks := s.tasks.map fun task => if task.taskId ∈ taskIds then { task with stage } else task }

/-- `task.cancel()`. -/
def cancel (s : LogSubscriptionManager) (taskIds : List ℕ) : LogSubscriptionManager := s.setStage taskIds .cancelled

def finish (s : LogSubscriptionManager) (taskId : ℕ) : LogSubscriptionManager :=
  { s with tasks := s.tasks.filter fun task => task.taskId ≠ taskId }

/-- `asyncio.gather` returns when none of the tasks is left. -/
def gathered (s : LogSubscriptionManager) (taskIds : List ℕ) : Bool := taskIds.all fun taskId => (s.task? taskId).isNone

/-- A reader and a writer task for the subscription. -/
def launch (s : LogSubscriptionManager) (subscriptionId : String) : LogSubscriptionManager :=
  { s with
    failures := s.failures.pop subscriptionId
    running := s.running.set subscriptionId ⟨s.nextTask, s.nextTask + 1⟩
    tasks := s.tasks ++ [{ taskId := s.nextTask, subscriptionId, kind := .reader },
      { taskId := s.nextTask + 1, subscriptionId, kind := .writer }]
    nextTask := s.nextTask + 2 }

/-- `_start`. -/
def start (s : LogSubscriptionManager) (subscriptionId : String) : Except SubscriptionError LogSubscriptionManager :=
  match s.table.getSubscription subscriptionId with
  | none => .error (.keyError subscriptionId)
  | some _ => .ok (if (s.running.get? subscriptionId).isSome then s else s.launch subscriptionId)

/-- The rest of a coroutine that raises is not run. -/
def orElse (s : LogSubscriptionManager) : Except SubscriptionError LogSubscriptionManager → LogSubscriptionManager
  | .ok t => t
  | .error _ => s

/-- What `_stop` does before it waits, when the subscription runs. -/
def stop (s : LogSubscriptionManager) (subscriptionId : String) (tasks : SubscriptionTasks) (next : Continuation) :
    LogSubscriptionManager :=
  let s := { s with running := s.running.pop subscriptionId }.cancel [tasks.reader, tasks.writer]
  { s with pending := .stopping tasks next :: s.pending }

def closeRest (s : LogSubscriptionManager) : List String → LogSubscriptionManager
  | [] => s
  | subscriptionId :: rest =>
    match s.running.get? subscriptionId with
    | none => s.closeRest rest
    | some tasks => s.stop subscriptionId tasks (.closeAll rest)

def proceed (s : LogSubscriptionManager) : Continuation → LogSubscriptionManager
  | .pause subscriptionId =>
    match s.table.pauseSubscription subscriptionId with
    | .ok table => { s with table }
    | .error _ => s
  | .delete subscriptionId =>
    match s.table.deleteSubscription subscriptionId with
    | .ok table => { s with table }
    | .error _ => s
  | .closeAll rest => s.closeRest rest

/-- `_stop` and what comes after it. -/
def stopThen (s : LogSubscriptionManager) (subscriptionId : String) (next : Continuation) : LogSubscriptionManager :=
  match s.running.get? subscriptionId with
  | none => s.proceed next
  | some tasks => s.stop subscriptionId tasks next

def resume (s : LogSubscriptionManager) (subscriptionId : String) : LogSubscriptionManager :=
  match s.table.resumeSubscription subscriptionId with
  | .error _ => s
  | .ok table => orElse { s with table } (start { s with table } subscriptionId)

/-- `start_active_opt_in`, from its next subscription on. -/
def restore (maxActive : ℕ) (s : LogSubscriptionManager) : List String → LogSubscriptionManager
  | [] => s
  | subscriptionId :: rest =>
    if s.running.length ≥ maxActive then s
    else match s.start subscriptionId with
      | .error _ => s
      | .ok t => { t with pending := .restoring rest :: t.pending }

/-- `_teardown_running`, called by a reader. -/
def teardownRunning (s : LogSubscriptionManager) (task : SubscriptionTask) : LogSubscriptionManager :=
  match s.running.get? task.subscriptionId with
  | none => s.finish task.taskId
  | some tasks =>
    ({ s with running := s.running.pop task.subscriptionId }.cancel [tasks.writer]).setStage [task.taskId] (.tearing tasks)

/-- `mark_subscription_error` and what the reader does after it. -/
def giveUp (s : LogSubscriptionManager) (task : SubscriptionTask) (row : SubscriptionRow) (error : String) (suspends : Bool) :
    LogSubscriptionManager :=
  let s := { s with table := s.table.put { row with status := .error, lastErrorRedacted := some error } }
  if suspends then s.setStage [task.taskId] .emitting else s.teardownRunning task

/-- `_record_failure`. -/
def recordFailure (maxFailures : ℕ) (s : LogSubscriptionManager) (task : SubscriptionTask) (error : String) (suspends : Bool) :
    LogSubscriptionManager :=
  match s.table.getSubscription task.subscriptionId with
  | none => s
  | some row =>
    if row.status = .deleted then s
    else
      let count := (s.failures.get? task.subscriptionId).getD 0 + 1
      let s := { s with failures := s.failures.set task.subscriptionId count }
      if count < maxFailures then s else s.giveUp task row error suspends

/-- A task that was cancelled ends; a reader that gave up ends when its writer has, and cancels the reader
of the entry if that is another one. -/
def unwind (s : LogSubscriptionManager) (task : SubscriptionTask) : Option LogSubscriptionManager :=
  match task.stage with
  | .looping | .emitting => none
  | .cancelled => some (s.finish task.taskId)
  | .tearing tasks =>
    if s.gathered [tasks.writer] then
      if tasks.reader = task.taskId ∨ s.gathered [tasks.reader] then some (s.finish task.taskId)
      else some (s.cancel [tasks.reader])
    else none

def wake (s : LogSubscriptionManager) (p : Pending) : Option LogSubscriptionManager :=
  if p ∈ s.pending then some { s with pending := s.pending.erase p } else none

variable (maxActive maxFailures : ℕ)

def step (s : LogSubscriptionManager) : ManagerMove → Option LogSubscriptionManager
  | .create optInStreaming =>
    if optInStreaming = false ∨ s.running.length ≥ maxActive then some s
    else some { s with pending := .validating :: s.pending }
  | .validated subscriptionId =>
    (s.wake .validating).map fun s => match s.table.createSubscription subscriptionId with
      | .error _ => s
      | .ok table => orElse { s with table } (start { s with table } subscriptionId)
  | .rejected => s.wake .validating
  | .pause subscriptionId => some (s.stopThen subscriptionId (.pause subscriptionId))
  | .resume subscriptionId => some (s.resume subscriptionId)
  | .delete subscriptionId => some (s.stopThen subscriptionId (.delete subscriptionId))
  | .startActiveOptIn =>
    some (s.restore maxActive (s.table.listActiveOptInSubscriptions.map SubscriptionRow.subscriptionId))
  | .restored rest => (s.wake (.restoring rest)).map fun s => s.restore maxActive rest
  | .closeAll => some (s.closeRest s.running.keys)
  | .stopped tasks next =>
    if s.gathered [tasks.reader, tasks.writer] then (s.wake (.stopping tasks next)).map fun s => s.proceed next else none
  | .read taskId => (s.task? taskId).bind fun task =>
    if task.kind = .reader ∧ task.stage = .looping then
      some { s with failures := s.failures.pop task.subscriptionId }
    else none
  | .readFailed taskId error suspends => (s.task? taskId).bind fun task =>
    if task.kind = .reader ∧ task.stage = .looping then some (s.recordFailure maxFailures task error suspends) else none
  | .emitted taskId => (s.task? taskId).bind fun task =>
    if task.kind = .reader ∧ task.stage = .emitting then some (s.teardownRunning task) else none
  -- the writer logs the error and waits for the next lines
  | .writeFailed taskId => (s.task? taskId).bind fun task =>
    if task.kind = .writer ∧ task.stage = .looping then some s else none
  | .ended taskId => (s.task? taskId).bind fun task => s.unwind task
  | .crash => some { table := s.table }

end LogSubscriptionManager

end IncidentLens.Logs
