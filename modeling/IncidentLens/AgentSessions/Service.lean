import IncidentLens.Data.Dict
import IncidentLens.Operations.Cancellation

/-!
# Agent sessions

A message is stored and queued as an operation; the handler of the operation binds the session to an
investigation and starts it. Owners, titles, targets and what is projected back are left out.
-/
namespace IncidentLens.AgentSessions
open Data Effects Operations
open Investigations (InvestigationStatus investigationStateMachine)

inductive AgentSessionStatus
  | idle | active | waitingApproval | paused | cancelRequested | cancelled | failed | completed
  deriving DecidableEq

structure AgentSession where
  investigationId : Option String := none
  status : AgentSessionStatus := .idle

structure AgentMessage where
  sessionId : String
  content : List Char

inductive Action
  | message | resume
  deriving DecidableEq

/-- `request_payload`. -/
structure Payload where
  action : Action
  messageId : String

structure Investigation where
  symptom : List Char
  status : InvestigationStatus := .created

/-- `_session_status`. -/
def sessionStatus : InvestigationStatus → AgentSessionStatus
  | .created | .running => .active
  | .waitingApproval => .waitingApproval
  | .waitingRegistryUpdate | .pausedBudget | .pausedMissingEvidence | .pausedUncertainState => .paused
  | .cancelRequested => .cancelRequested
  | .cancelled => .cancelled
  | .failed => .failed
  | .completed => .completed

/-- The kinds for which a handler is registered. -/
def registered : OperationKind → Bool
  | .agentMessage | .rollback | .targetTest => true
  | .investigationStart | .reportGenerate => false

/-- How far the handler of an agent message has come. -/
inductive Phase
  | entered
  | bound (investigationId : String)
  | working (investigationId : String)

/-- Operations of a session that had been created when its cancellation returned, and those of them that
started or went on afterwards; messages in the order in which they were accepted, and in the order in
which an investigation was created for them. -/
structure Record where
  barred : List String := []
  worked : List String := []
  accepted : List String := []
  delivered : List String := []

structure Service (n : ℕ) where
  control : Control n := {}
  sessions : Dict String AgentSession := []
  messages : Dict String AgentMessage := []
  payloads : Dict String Payload := []
  investigations : Dict String Investigation := []
  accepting : Bool := true
  phases : Fin n → Phase := fun _ => .entered
  record : Record := {}

inductive ServiceMove (n : ℕ)
  | createSession (sessionId : String)
  | acceptMessage (sessionId messageId operationId targetId : String) (content : List Char) (now : ℕ)
  /-- With the latest message of the user, or a fresh id. -/
  | resume (sessionId messageId operationId targetId : String) (now : ℕ)
  | cancel (sessionId : String)
  | dispatch (move : ControlMove n)
  | bind (i : Fin n) (fresh : String)
  | start (i : Fin n)
  | work (i : Fin n)
  /-- An investigation moves on. -/
  | settle (investigationId : String) (target : InvestigationStatus)
  | refuse

namespace Service
variable {n : ℕ}

/-- The agent message that worker `i` handles. -/
def handled (w : Service n) (i : Fin n) : Option Operation :=
  w.control.process.bind fun p => match p.workers i with
    | .handling op => if op.kind = .agentMessage then some op else none
    | _ => none

def note (w : Service n) (op : Operation) : Record :=
  { w.record with
    worked := if op.operationId ∈ w.record.barred then op.operationId :: w.record.worked else w.record.worked }

def dispatch (w : Service n) (move : ControlMove n) : Option (Service n) :=
  (w.control.step registered move).map fun control => { w with control := control }

def agentOperation (sessionId operationId targetId : String) (investigationId : Option String) (now : ℕ) : Operation where
  operationId := operationId
  kind := .agentMessage
  targetId := targetId
  sessionId := some sessionId
  investigationId := investigationId
  createdAt := now
  updatedAt := now

/-- `enqueue`, for an agent message. -/
def enqueue (w : Service n) (sessionId operationId targetId : String) (payload : Payload) (investigationId : Option String)
    (now : ℕ) : Option (Service n) :=
  (w.dispatch (.create (agentOperation sessionId operationId targetId investigationId now))).map fun w =>
    { w with payloads := w.payloads.set operationId payload }

def acceptMessage (w : Service n) (sessionId messageId operationId targetId : String) (content : List Char) (now : ℕ) :
    Option (Service n) :=
  match w.sessions.get? sessionId, w.messages.get? messageId with
  | some session, none =>
    let stored : Service n := { w with messages := w.messages.set messageId ⟨sessionId, content⟩ }
    (stored.enqueue sessionId operationId targetId ⟨.message, messageId⟩ session.investigationId now).map fun w =>
      { w with
        sessions := w.sessions.set sessionId { session with status := .active }
        record := { w.record with accepted := w.record.accepted ++ [operationId] } }
  | _, _ => none

def resume (w : Service n) (sessionId messageId operationId targetId : String) (now : ℕ) : Option (Service n) :=
  match w.sessions.get? sessionId with
  | some session =>
    (w.enqueue sessionId operationId targetId ⟨.resume, messageId⟩ session.investigationId now).map fun w =>
      { w with sessions := w.sessions.set sessionId { session with status := .active } }
  | none => none

/-- `InvestigationService.cancel`. -/
def cancelInvestigation (row : Investigation) : Investigation :=
  if investigationStateMachine.isTerminal row.status then row
  else match row.status with
    | .created => { row with status := .cancelled }
    | _ => { row with status := .cancelRequested }

def operationsOf (w : Service n) (sessionId : String) : List Operation :=
  w.control.table.rows.filter fun row => row.kind = .agentMessage && row.sessionId = some sessionId

def bar (w : Service n) (sessionId : String) : Record :=
  { w.record with barred := (w.operationsOf sessionId).map Operation.operationId ++ w.record.barred }

def cancel (w : Service n) (sessionId : String) : Option (Service n) :=
  match w.sessions.get? sessionId with
  | none => none
  | some session => match session.investigationId with
    | none => some { w with
        sessions := w.sessions.set sessionId { session with status := .cancelled }
        record := w.bar sessionId }
    | some investigationId => match w.investigations.get? investigationId with
      | none => none
      | some row =>
        let cancelled := cancelInvestigation row
        some { w with
          investigations := w.investigations.set investigationId cancelled
          sessions := w.sessions.set sessionId ⟨some investigationId, sessionStatus cancelled.status⟩
          record := w.bar sessionId }

/-- `create_investigation`; the symptom has at most 2000 characters, and one at least. -/
def createInvestigation (maxActive : ℕ) (w : Service n) (fresh : String) (symptom : List Char) : Option (Service n) :=
  if w.accepting ∧ (w.investigations.filter fun item => !investigationStateMachine.isTerminal item.2.status).length < maxActive
      ∧ w.investigations.get? fresh = none ∧ 1 ≤ symptom.length ∧ symptom.length ≤ 2000 then
    some { w with investigations := w.investigations.set fresh { symptom := symptom } }
  else none

/-- The investigation of the session that a handler goes on with, if any. -/
def reusable (w : Service n) (session : AgentSession) (action : Action) : Option (Option String) :=
  match session.investigationId with
  | none => if action = .message then some none else none
  | some investigationId => match w.investigations.get? investigationId with
    | none => none
    | some row =>
      if investigationStateMachine.isTerminal row.status then if action = .message then some none else none
      else some (some investigationId)

/-- The handler, up to `start`. -/
def bind (maxActive : ℕ) (w : Service n) (i : Fin n) (fresh : String) : Option (Service n) := do
  let op ← w.handled i
  let payload ← w.payloads.get? op.operationId
  let sessionId ← op.sessionId
  let session ← w.sessions.get? sessionId
  let message ← w.messages.get? payload.messageId
  if message.sessionId ≠ sessionId then none
  else match w.phases i with
    | .entered => match w.reusable session payload.action with
      | none => none
      | some (some investigationId) => some { w with
          phases := Function.update w.phases i (.bound investigationId)
          record := w.note op }
      | some none => (w.createInvestigation maxActive fresh message.content).map fun created =>
          { created with
            sessions := created.sessions.set sessionId ⟨some fresh, .active⟩
            phases := Function.update created.phases i (.bound fresh)
            record := { created.note op with delivered := created.record.delivered ++ [op.operationId] } }
    | _ => none

/-- `InvestigationService.start`, up to the loop. -/
def start (w : Service n) (i : Fin n) : Option (Service n) := do
  let op ← w.handled i
  match w.phases i with
  | .bound investigationId =>
    let row ← w.investigations.get? investigationId
    if row.status = .running ∨ investigationStateMachine.canTransition row.status .running = true then
      some { w with
        investigations := w.investigations.set investigationId { row with status := .running }
        phases := Function.update w.phases i (.working investigationId)
        record := w.note op }
    else none
  | _ => none

def work (w : Service n) (i : Fin n) : Option (Service n) := do
  let op ← w.handled i
  match w.phases i with
  | .working _ => some { w with record := w.note op }
  | _ => none

def settle (w : Service n) (investigationId : String) (target : InvestigationStatus) : Option (Service n) := do
  let row ← w.investigations.get? investigationId
  if investigationStateMachine.canTransition row.status target then
    some { w with investigations := w.investigations.set investigationId { row with status := target } }
  else none

/-- A handler of an agent message returns when its loop has ended. -/
def mayReturn (w : Service n) (i : Fin n) : Bool := (w.handled i).isNone || (w.phases i matches .working _)

/-- `sync_investigation`, when a handler is about to return. -/
def sync (w : Service n) (i : Fin n) : Service n :=
  match (w.handled i).bind Operation.sessionId, w.phases i with
  | some sessionId, .working investigationId => match w.investigations.get? investigationId with
    | some row => { w with sessions := w.sessions.set sessionId ⟨some investigationId, sessionStatus row.status⟩ }
    | none => w
  | _, _ => w

/-- What the dispatcher does. -/
def dispatched (w : Service n) (move : ControlMove n) : Option (Service n) :=
  match move with
  | .start i => (w.dispatch move).map fun w => match w.handled i with
    | some op => { w with phases := Function.update w.phases i .entered, record := w.note op }
    | none => w
  | .finish i (.returned _) _ => if w.mayReturn i then (w.sync i).dispatch move else none
  | _ => w.dispatch move

def step (maxActive : ℕ) (w : Service n) : ServiceMove n → Option (Service n)
  | .createSession sessionId =>
    if w.sessions.get? sessionId = none then some { w with sessions := w.sessions.set sessionId {} } else none
  | .acceptMessage sessionId messageId operationId targetId content now =>
    w.acceptMessage sessionId messageId operationId targetId content now
  | .resume sessionId messageId operationId targetId now => w.resume sessionId messageId operationId targetId now
  | .cancel sessionId => w.cancel sessionId
  | .dispatch move => w.dispatched move
  | .bind i fresh => w.bind maxActive i fresh
  | .start i => w.start i
  | .work i => w.work i
  | .settle investigationId target => w.settle investigationId target
  | .refuse => some { w with accepting := false }

end Service

/-- Requests, the dispatcher and its handlers, in any order. -/
def service (n maxActive : ℕ) : System (Service n) (ServiceMove n) := ⟨{}, Service.step maxActive⟩

end IncidentLens.AgentSessions
