import IncidentLens.Idempotency.Fencing

/-!
# Sends of the session controller

A send resolves its session, takes the key of a pending send or a new one, and asks the server. Whatever the
answer is, it comes later, and requests reach the server at any time and more than once.
-/
namespace IncidentLens.Cli.Sending
open Data Effects Idempotency

structure AgentSession where
  sessionId : String
  targetId : String
  deriving DecidableEq

structure PendingSend where
  sessionId : String
  idempotencyKey : String
  deriving DecidableEq

/-- A `sendMessage` request. -/
structure SentMessage where
  sessionId : String
  idempotencyKey : String
  content : String
  deriving DecidableEq

/-- What a call of `sendNaturalLanguage` awaits. -/
inductive SendPhase
  | fetching (sessionId : String)
  | creating (targetId : String)
  | persisting (session : AgentSession)
  | resolved (session : AgentSession)
  | requested (message : SentMessage)
  | over
  deriving DecidableEq

structure Send where
  text : String
  phase : SendPhase
  deriving DecidableEq

structure SessionController where
  target : Option String := none
  session : Option AgentSession := none
  pendingSend : Option PendingSend := none
  sends : List Send := []

/-- `resolveSession` up to its first await. -/
def SessionController.resolveSession (c : SessionController) (target : String) : SendPhase :=
  match c.pendingSend with
  | some pending => match c.session with
    | some session => if session.sessionId = pending.sessionId then .resolved session else .fetching pending.sessionId
    | none => .fetching pending.sessionId
  | none => match c.session with
    | some session => if session.targetId = target then .resolved session else .creating target
    | none => .creating target

/-- The pending key, if it is for this session. -/
def SessionController.pendingKey (c : SessionController) (sessionId : String) : Option String :=
  (c.pendingSend.filter fun pending => pending.sessionId = sessionId).map PendingSend.idempotencyKey

/-- A request with the failed attempts that no success with their keys has followed. -/
structure Attempt where
  message : SentMessage
  unanswered : List SentMessage

/-- The controller, what it has sent, and what the server has made of it. -/
structure Exchange where
  controller : SessionController := {}
  attempts : List Attempt := []
  failures : List SentMessage := []
  rows : Rows := .empty
  running : List SentMessage := []
  executed : List (SentMessage × String) := []

namespace Exchange
variable (s : Exchange)

def requests : List SentMessage := s.attempts.map Attempt.message

def withController (controller : SessionController) : Exchange := { s with controller := controller }

def phase? (i : ℕ) : Option SendPhase := s.controller.sends[i]?.map Send.phase

def setPhase (i : ℕ) (phase : SendPhase) : Exchange :=
  s.withController { s.controller with sends := s.controller.sends.modify i fun send => { send with phase := phase } }

end Exchange

inductive ExchangeMove
  | sync (target : Option String) (session : Option AgentSession)
  | select (session : AgentSession)
  | submit (text : String)
  | fetched (i : ℕ) (targetId : Option String)
  | created (i : ℕ) (sessionId : Option String)
  | persisted (i : ℕ) (saved : Bool)
  | request (i : ℕ) (freshKey : String)
  | accepted (i : ℕ)
  | failed (i : ℕ)
  | arrive (j : ℕ) (now : DateTime)
  | finish (j : ℕ) (outcome : Outcome) (now : DateTime)
  | prune (now : DateTime)

def messageRoute : String := "/api/v1/agent-sessions/\x7bsession_id\x7d/messages"

section
variable (principalId : String) (requestSha256 : String → String → String)

def recordKey (message : SentMessage) : RecordKey := ⟨principalId, "POST", messageRoute, message.idempotencyKey⟩

/-- The request as the server sees it: the session is in the path, the content in the body, and both are hashed. -/
def serverRequest (message : SentMessage) : Request :=
  ⟨recordKey principalId message, requestSha256 message.sessionId message.content⟩

namespace Exchange
variable (s : Exchange)

/-- The key is picked when the session is resolved. -/
def request (i : ℕ) (send : Send) (session : AgentSession) (freshKey : String) : Option Exchange :=
  let sent := fun key : String =>
    let message : SentMessage := ⟨session.sessionId, key, send.text⟩
    { s.setPhase i (.requested message) with attempts := s.attempts ++ [⟨message, s.failures⟩] }
  match s.controller.pendingKey session.sessionId with
  | some key => some (sent key)
  | none => if s.requests.any fun message => message.idempotencyKey = freshKey then none else some (sent freshKey)

def accepted (i : ℕ) (message : SentMessage) : Exchange :=
  let s := s.setPhase i .over
  { s with
    controller := { s.controller with pendingSend := none }
    failures := s.failures.filter fun failure => failure.idempotencyKey ≠ message.idempotencyKey }

def failed (i : ℕ) (message : SentMessage) : Exchange :=
  let s := s.setPhase i .over
  { s with
    controller := { s.controller with pendingSend := some ⟨message.sessionId, message.idempotencyKey⟩ }
    failures := s.failures ++ [message] }

/-- `execute_idempotent` up to the action. -/
def arrive (message : SentMessage) (now : DateTime) : Exchange :=
  match beginIdempotent s.rows (serverRequest principalId requestSha256 message) now with
  | (.ok none, rows) => { s with rows := rows, running := s.running ++ [message] }
  | (_, rows) => { s with rows := rows }

/-- The end of the action of a message. -/
def finish (message : SentMessage) (outcome : Outcome) (now : DateTime) : Exchange :=
  { s with
    rows := (endIdempotent s.rows (recordKey principalId message) outcome now).2
    executed := s.executed ++ (outcome.answers (serverRequest principalId requestSha256 message)).map
      fun answer => (message, answer.responseJson) }

def step : ExchangeMove → Option Exchange
  | .sync target session => some (s.withController { s.controller with target := target, session := session })
  | .select session => some (s.withController { s.controller with session := some session })
  | .submit text => s.controller.target.map fun target =>
    s.withController { s.controller with sends := s.controller.sends ++ [⟨text, s.controller.resolveSession target⟩] }
  | .fetched i targetId => match s.phase? i with
    | some (.fetching sessionId) => some (s.setPhase i (match targetId with
      | some targetId => .resolved ⟨sessionId, targetId⟩
      | none => .over))
    | _ => none
  | .created i sessionId => match s.phase? i with
    | some (.creating target) => match sessionId with
      | some sessionId =>
        let s := s.setPhase i (.persisting ⟨sessionId, target⟩)
        some (s.withController { s.controller with target := some target, session := some ⟨sessionId, target⟩ })
      | none => some (s.setPhase i .over)
    | _ => none
  | .persisted i saved => match s.phase? i with
    | some (.persisting session) => some (s.setPhase i (if saved then .resolved session else .over))
    | _ => none
  | .request i freshKey => match s.controller.sends[i]? with
    | some ⟨text, .resolved session⟩ => s.request i ⟨text, .resolved session⟩ session freshKey
    | _ => none
  | .accepted i => match s.phase? i with
    | some (.requested message) => some (s.accepted i message)
    | _ => none
  | .failed i => match s.phase? i with
    | some (.requested message) => some (s.failed i message)
    | _ => none
  | .arrive j now => s.requests[j]?.map fun message => s.arrive principalId requestSha256 message now
  | .finish j outcome now => s.running[j]?.map fun message =>
    { s.finish principalId requestSha256 message outcome now with running := s.running.eraseIdx j }
  | .prune now => some { s with rows := pruneExpired s.rows now }

end Exchange

def exchange : System Exchange ExchangeMove := ⟨{}, Exchange.step principalId requestSha256⟩

end
end IncidentLens.Cli.Sending
