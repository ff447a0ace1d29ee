import IncidentLens.RemoteOps.Sessions

/-!
# Calls of the session manager

Calls of `SessionManager` are interleaved at their awaits. Only `connect` takes the lock of its target; the other
calls read the maps, await and go on with what they have read.
-/
namespace IncidentLens.RemoteOps.Lifecycle
open Data Effects

structure ContainerSession where
  sessionId : ℕ
  parentSessionId : ℕ
  container : String
  process : ℕ

/-- What is awaited while a host is closed: the end of a child, with the ids of those that are left, or of the
transport. -/
inductive Stage
  | child (current : ContainerSession) (pending : List ℕ)
  | transport

/-- `dead` says whether the manager had closed the transport before it asked. -/
inductive ConnectPhase
  | waiting
  | checking (existing : HostSession) (dead : Bool)
  | closing (existing : HostSession) (stage : Stage)
  | opening (existing : Option HostSession)

inductive Call
  | connect (targetId : String) (phase : ConnectPhase)
  | spawnContainerSession (host : HostSession) (container : String)
  | closeContainerSession (child : ContainerSession)
  | disconnect (session : HostSession) (stage : Stage)
  | closeAll (session : HostSession) (stage : Stage) (rest : List HostSession)

/-- The manager with its calls, and what it has opened, closed and returned so far. A session that `connect` has
returned is kept with whether its transport was closed by then. -/
structure SessionManager where
  sessions : Dict String HostSession := []
  containerSessions : Dict ℕ ContainerSession := []
  locks : String → Option ℕ := fun _ => none
  calls : ℕ → Option Call := fun _ => none
  hosts : List HostSession := []
  spawned : List ContainerSession := []
  closedTransports : List ℕ := []
  closedProcesses : List ℕ := []
  returned : List (HostSession × Bool) := []
  /-- `close_all` has returned, and no call has started since. -/
  closedAll : Bool := false
  /-- The identifiers from here on are fresh. -/
  next : ℕ := 0

inductive ManagerEvent
  | connect (i : ℕ) (targetId : String)
  | acquire (i : ℕ)
  | spawnContainerSession (i : ℕ) (hostSessionId : ℕ) (container : String)
  | closeContainerSession (i : ℕ) (sessionId : ℕ)
  | disconnect (i : ℕ) (targetId : String)
  | closeAll (i : ℕ)
  /-- What a call awaits returns, or raises; for `is_alive`, its answer. -/
  | resume (i : ℕ) (ok : Bool)

namespace SessionManager
variable (m : SessionManager)

def setCall (i : ℕ) (call : Option Call) : SessionManager := { m with calls := Function.update m.calls i call }

def release (targetId : String) : SessionManager := { m with locks := Function.update m.locks targetId none }

/-- `connect` ends, and returns the session if there is one. -/
def endConnect (i : ℕ) (targetId : String) (session : Option HostSession) : SessionManager :=
  { (m.release targetId).setCall i none with
    returned := m.returned ++ session.toList.map fun session => (session, decide (session.transport ∈ m.closedTransports)) }

def findHostBySessionId (sessionId : ℕ) : Option HostSession :=
  (m.sessions.map Prod.snd).find? fun session => session.sessionId = sessionId

/-- `to_close` -/
def childrenOf (hostSessionId : ℕ) : List ℕ :=
  (m.containerSessions.filter fun item => item.2.parentSessionId = hostSessionId).map Prod.fst

/-- The loop of `_close_children_for_host` up to its next await; `none` for a `KeyError`. -/
def closeNext : List ℕ → Option (SessionManager × Stage)
  | [] => some (m, .transport)
  | sessionId :: pending => (m.containerSessions.get? sessionId).map fun child =>
    ({ m with containerSessions := m.containerSessions.pop sessionId }, .child child pending)

/-- The awaited end of a child or of a transport. -/
def closed (session : HostSession) : Stage → SessionManager
  | .child current _ => { m with closedProcesses := current.process :: m.closedProcesses }
  | .transport => { m with closedTransports := session.transport :: m.closedTransports }

/-- The loop of `close_all` over the sessions it has found. -/
def closeRest (i : ℕ) : List HostSession → SessionManager
  | [] => { m with sessions := [], containerSessions := [], closedAll := true }.setCall i none
  | session :: rest => match m.closeNext (m.childrenOf session.sessionId) with
    | none => m.setCall i none
    | some (m, stage) => m.setCall i (some (.closeAll session stage rest))

def register (targetId : String) : SessionManager × HostSession :=
  let session : HostSession := ⟨m.next, targetId, m.next⟩
  ({ m with
      sessions := m.sessions.set targetId session
      hosts := m.hosts ++ [session]
      next := m.next + 1 }, session)

def registerChild (host : HostSession) (container : String) : SessionManager :=
  let child : ContainerSession := ⟨m.next, host.sessionId, container, m.next⟩
  { m with
    containerSessions := m.containerSessions.set child.sessionId child
    spawned := m.spawned ++ [child]
    next := m.next + 1 }

/-- What an await of `connect` is followed by. -/
def resumeConnect (i : ℕ) (targetId : String) (ok : Bool) : ConnectPhase → Option SessionManager
  | .waiting => none
  | .checking existing dead =>
    -- a transport that was closed before it was asked is not alive
    if ok then if dead then none else some (m.endConnect i targetId (some existing))
    else match m.closeNext (m.childrenOf existing.sessionId) with
      | none => some (m.endConnect i targetId none)
      | some (m, stage) => some (m.setCall i (some (.connect targetId (.closing existing stage))))
  | .closing existing stage =>
    if ok then match stage with
      | .child _ pending => match (m.closed existing stage).closeNext pending with
        | none => some ((m.closed existing stage).endConnect i targetId none)
        | some (m, stage) => some (m.setCall i (some (.connect targetId (.closing existing stage))))
      | .transport => some ((m.closed existing stage).setCall i (some (.connect targetId (.opening (some existing)))))
    else some (m.endConnect i targetId none)
  | .opening _ =>
    if ok then some ((m.register targetId).1.endConnect i targetId (some (m.register targetId).2))
    else some (m.endConnect i targetId none)

def resumeDisconnect (i : ℕ) (session : HostSession) (ok : Bool) : Stage → SessionManager
  | .child current pending =>
    if ok then match (m.closed session (.child current pending)).closeNext pending with
      | none => (m.closed session (.child current pending)).setCall i none
      | some (m, stage) => m.setCall i (some (.disconnect session stage))
    else m.setCall i none
  | .transport => if ok then (m.closed session .transport).setCall i none else m.setCall i none

def resumeCloseAll (i : ℕ) (session : HostSession) (rest : List HostSession) (ok : Bool) : Stage → SessionManager
  | .child current pending =>
    if ok then match (m.closed session (.child current pending)).closeNext pending with
      | none => (m.closed session (.child current pending)).setCall i none
      | some (m, stage) => m.setCall i (some (.closeAll session stage rest))
    else m.setCall i none
  | .transport => if ok then (m.closed session .transport).closeRest i rest else m.setCall i none

/-- A call starts under a number that no call in flight has. -/
def start (i : ℕ) (call : SessionManager → Option SessionManager) : Option SessionManager :=
  match m.calls i with
  | some _ => none
  | none => call { m with closedAll := false }

def step : ManagerEvent → Option SessionManager
  | .connect i targetId => m.start i fun m => some (m.setCall i (some (.connect targetId .waiting)))
  | .acquire i => match m.calls i with
    | some (.connect targetId .waiting) => match m.locks targetId with
      | some _ => none
      | none =>
        let m := { m with locks := Function.update m.locks targetId (some i) }
        some (m.setCall i (some (.connect targetId (match m.sessions.get? targetId with
          | some existing => .checking existing (decide (existing.transport ∈ m.closedTransports))
          | none => .opening none))))
    | _ => none
  | .spawnContainerSession i hostSessionId container => m.start i fun m =>
    match m.findHostBySessionId hostSessionId with
    | none => some m
    | some host => some (m.setCall i (some (.spawnContainerSession host container)))
  | .closeContainerSession i sessionId => m.start i fun m =>
    match m.containerSessions.get? sessionId with
    | none => some m
    | some child => some ({ m with containerSessions := m.containerSessions.pop sessionId }.setCall i
        (some (.closeContainerSession child)))
  | .disconnect i targetId => m.start i fun m =>
    match m.sessions.get? targetId with
    | none => some m
    | some session =>
      let m := { m with sessions := m.sessions.pop targetId }
      match m.closeNext (m.childrenOf session.sessionId) with
      | none => some m
      | some (m, stage) => some (m.setCall i (some (.disconnect session stage)))
  | .closeAll i => m.start i fun m => some (m.closeRest i (m.sessions.map Prod.snd))
  | .resume i ok => match m.calls i with
    | none => none
    | some (.connect targetId phase) => m.resumeConnect i targetId ok phase
    | some (.spawnContainerSession host container) =>
      some (if ok then (m.registerChild host container).setCall i none else m.setCall i none)
    | some (.closeContainerSession child) =>
      some (if ok then { m with closedProcesses := child.process :: m.closedProcesses }.setCall i none else m.setCall i none)
    | some (.disconnect session stage) => some (m.resumeDisconnect i session ok stage)
    | some (.closeAll session stage rest) => some (m.resumeCloseAll i session rest ok stage)

end SessionManager

def manager : System SessionManager ManagerEvent := ⟨{}, SessionManager.step⟩

end IncidentLens.RemoteOps.Lifecycle
