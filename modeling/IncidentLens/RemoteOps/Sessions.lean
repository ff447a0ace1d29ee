import IncidentLens.Data.Dict
import IncidentLens.Effects.Runs
import IncidentLens.RemoteOps.Registry
import Mathlib.Order.Nat

/-!
# Sessions

The session manager keeps one session for a `target_id`, whatever project the target belongs
to, and returns it as long as its transport is alive. An operation of the gateway resolves its
target in the registry and runs on the transport of the session it is given.
-/
namespace IncidentLens.RemoteOps
open Data Effects Function Option

structure HostSession where
  sessionId : ℕ
  targetId : String
  transport : ℕ

structure ContainerSession where
  sessionId : ℕ
  parentSessionId : ℕ
  container : String

/-- A connection, and the project and the registration it was opened for. -/
structure Transport where
  openedFor : String × TargetRegistration
  alive : Bool

/-- An operation of the gateway with the target it has resolved. -/
structure Operation where
  projectId : String
  target : TargetRegistration

/-- Where `SessionManager.connect` stands while it holds the lock of a target. -/
inductive Connecting
  | checking (session : HostSession)
  | closing (session : HostSession)
  | opening

/-- An operation that has got its transport, with the registration stored at that moment. -/
structure Served where
  projectId : String
  targetId : String
  stored : Option TargetRegistration
  transport : ℕ

structure RemoteState where
  registry : Registry := default
  sessions : Dict String HostSession := []
  containerSessions : List ContainerSession := []
  transports : ℕ → Option Transport := fun _ => none
  connecting : String → Option (Operation × Connecting) := fun _ => none
  /-- The identifiers from here on are fresh. -/
  next : ℕ := 0
  served : List Served := []

inductive RemoteEvent
  | create (registration : ProjectRegistration) (now : String)
  | replace (registration : ProjectRegistration) (now : String) (expectedUpdatedAt : Option String)
  | delete (projectId : String)
  | disconnect (targetId : String)
  | closeAll
  /-- A connection breaks down, or answers again. -/
  | liveness (transport : ℕ) (alive : Bool)
  | spawnContainerSession (hostSessionId : ℕ) (targetId : String) (container : String)
  | closeContainerSession (sessionId : ℕ)
  /-- An operation is resolved and calls `connect`. -/
  | operate (projectId targetId service : String)
  /-- `is_alive` answers. -/
  | check (targetId : String)
  /-- `close` returns or raises. -/
  | close (targetId : String) (ok : Bool)
  /-- `RemoteTransportFactory.connect` returns or raises. -/
  | open (targetId : String) (ok : Bool)

namespace RemoteState

def openedFor (s : RemoteState) (transport : ℕ) : Option (String × TargetRegistration) :=
  (s.transports transport).map Transport.openedFor

def isAlive (s : RemoteState) (transport : ℕ) : Bool :=
  match s.transports transport with
  | some t => t.alive
  | none => false

def setAlive (s : RemoteState) (transport : ℕ) (alive : Bool) : RemoteState :=
  { s with
    transports := update s.transports transport
      ((s.transports transport).map fun t => { t with alive := alive }) }

def closeTransports (s : RemoteState) (transports : List ℕ) : RemoteState :=
  transports.foldl (fun s transport => s.setAlive transport false) s

/-- `_close_children_for_host` -/
def closeChildren (s : RemoteState) (hostSessionId : ℕ) : RemoteState :=
  { s with containerSessions := s.containerSessions.filter (·.parentSessionId ≠ hostSessionId) }

def setConnecting (s : RemoteState) (targetId : String) (c : Option (Operation × Connecting)) : RemoteState :=
  { s with connecting := update s.connecting targetId c }

/-- The operation gets its transport. -/
def serve (s : RemoteState) (op : Operation) (transport : ℕ) : RemoteState :=
  { s with
    connecting := update s.connecting op.target.targetId none
    served := ⟨op.projectId, op.target.targetId, s.registry.target op.projectId op.target.targetId,
      transport⟩ :: s.served }

/-- A new session on a new transport. -/
def openTransport (s : RemoteState) (op : Operation) : RemoteState :=
  { s with
    transports := update s.transports s.next (some ⟨(op.projectId, op.target), true⟩)
    sessions := s.sessions.set op.target.targetId ⟨s.next, op.target.targetId, s.next⟩
    next := s.next + 1 }

/-- A change of the registry; an exception leaves it as it is. -/
def setRegistry (s : RemoteState) (registry : Except RegistryError Registry) : RemoteState :=
  match registry with
  | .ok registry => { s with registry := registry }
  | .error _ => s

end RemoteState

/-- What can happen next; `none` for an answer to a call that is not being made. -/
def remoteStep (s : RemoteState) : RemoteEvent → Option RemoteState
  | .create registration now => some (s.setRegistry (s.registry.create registration now))
  | .replace registration now expected => some (s.setRegistry (s.registry.replace registration now expected))
  | .delete projectId => some (s.setRegistry (s.registry.delete projectId))
  | .disconnect targetId => match s.sessions.get? targetId with
    | none => some s
    | some session => some (({ s with sessions := s.sessions.pop targetId }.closeChildren
        session.sessionId).setAlive session.transport false)
  | .closeAll => some { s.closeTransports (s.sessions.map fun item => item.2.transport) with
      sessions := []
      containerSessions := [] }
  | .liveness transport alive => some (s.setAlive transport alive)
  | .spawnContainerSession hostSessionId targetId container => match s.sessions.get? targetId with
    | some session =>
      if session.sessionId = hostSessionId then some { s with
        containerSessions := ⟨s.next, hostSessionId, container⟩ :: s.containerSessions
        next := s.next + 1 }
      else none
    | none => none
  | .closeContainerSession sessionId => some { s with
      containerSessions := s.containerSessions.filter (·.sessionId ≠ sessionId) }
  | .operate projectId targetId service =>
    match resolveProjectService s.registry projectId targetId service with
    | none => some s
    | some target => match s.connecting target.targetId with
      -- the lock of the target is taken
      | some _ => none
      | none => some (s.setConnecting target.targetId (some (⟨projectId, target⟩,
          match s.sessions.get? target.targetId with
          | some session => .checking session
          | none => .opening)))
  | .check targetId => match s.connecting targetId with
    | some (op, .checking session) =>
      if s.isAlive session.transport then some (s.serve op session.transport)
      else some ((s.closeChildren session.sessionId).setConnecting targetId (some (op, .closing session)))
    | _ => none
  | .close targetId ok => match s.connecting targetId with
    | some (op, .closing session) =>
      if ok then some ((s.setAlive session.transport false).setConnecting targetId (some (op, .opening)))
      else some (s.setConnecting targetId none)
    | _ => none
  | .open targetId ok => match s.connecting targetId with
    | some (op, .opening) =>
      if ok then some ((s.openTransport op).serve op s.next)
      else some (s.setConnecting targetId none)
    | _ => none

def remoteOps : System RemoteState RemoteEvent where
  init := {}
  step := remoteStep

/-- The transport was opened for the registration stored for the project and the target. -/
def Served.Right (s : RemoteState) (e : Served) : Prop :=
  ∃ target, e.stored = some target ∧ s.openedFor e.transport = some (e.projectId, target)

/-- Every operation runs on the target that is registered for it. -/
def RightlyServed (s : RemoteState) : Prop := ∀ e ∈ s.served, e.Right s

/-- The transport an operation is about to get was opened for the registration that its
project has for the target now. -/
def Fits (s : RemoteState) (op : Operation) (openedFor : Option (String × TargetRegistration)) : Prop :=
  ∃ target, s.registry.target op.projectId op.target.targetId = some target ∧ openedFor = some (op.projectId, target)

/-- A session that is alive is returned only to an operation it fits, and a connection that
has been opened still fits its operation. -/
def Fitting (s : RemoteState) : RemoteEvent → Prop
  | .check targetId => ∀ op session, s.connecting targetId = some (op, .checking session) →
      s.isAlive session.transport = true → Fits s op (s.openedFor session.transport)
  | .open targetId ok => ∀ op, ok = true → s.connecting targetId = some (op, .opening) →
      Fits s op (some (op.projectId, op.target))
  | _ => True

section Frame
variable {s : RemoteState}

/-- Two states that differ in the liveness of transports at most. -/
structure SameButLiveness (s s' : RemoteState) : Prop where
  openedFor : s'.openedFor = s.openedFor
  registry : s'.registry = s.registry
  sessions : s'.sessions = s.sessions
  connecting : s'.connecting = s.connecting
  next : s'.next = s.next
  served : s'.served = s.served

lemma sameButLiveness_setAlive (s : RemoteState) (transport : ℕ) (alive : Bool) :
    SameButLiveness s (s.setAlive transport alive) := by
  refine ⟨?_, rfl, rfl, rfl, rfl, rfl⟩
  funext id
  unfold RemoteState.openedFor RemoteState.setAlive
  by_cases hid : id = transport
  · subst hid
    simp only [update_self, map_map, comp_def]
  · simp only [update_of_ne hid]

lemma sameButLiveness_closeTransports (transports : List ℕ) (s : RemoteState) :
    SameButLiveness s (s.closeTransports transports) := by
  induction transports generalizing s with
  | nil => exact ⟨rfl, rfl, rfl, rfl, rfl, rfl⟩
  | cons transport transports ih =>
    have h := ih (s.setAlive transport false)
    have hset := sameButLiveness_setAlive s transport false
    exact ⟨h.openedFor.trans hset.openedFor, h.registry, h.sessions, h.connecting, h.next, h.served⟩

lemma openedFor_setRegistry (registry : Except RegistryError Registry) (s : RemoteState) :
    (s.setRegistry registry).openedFor = s.openedFor ∧ (s.setRegistry registry).sessions = s.sessions ∧
      (s.setRegistry registry).connecting = s.connecting ∧ (s.setRegistry registry).next = s.next ∧
      (s.setRegistry registry).served = s.served := by
  cases registry with
  | ok registry => exact ⟨rfl, rfl, rfl, rfl, rfl⟩
  | error e => exact ⟨rfl, rfl, rfl, rfl, rfl⟩

end Frame

/-- Every transport that is in use has been opened. -/
structure Fresh (s : RemoteState) : Prop where
  fresh : ∀ id, s.next ≤ id → s.openedFor id = none
  sessions : ∀ targetId session, s.sessions.get? targetId = some session → (s.openedFor session.transport).isSome
  checking : ∀ targetId op session, s.connecting targetId = some (op, .checking session) →
    (s.openedFor session.transport).isSome
  served : ∀ e ∈ s.served, (s.openedFor e.transport).isSome

lemma Fresh.keep {s s' : RemoteState} (h : Fresh s) (hopened : s'.openedFor = s.openedFor) (hnext : s.next ≤ s'.next)
    (hsessions : ∀ targetId session, s'.sessions.get? targetId = some session → s.sessions.get? targetId = some session)
    (hchecking : ∀ targetId op session, s'.connecting targetId = some (op, .checking session) →
      s.connecting targetId = some (op, .checking session) ∨ s.sessions.get? targetId = some session)
    (hserved : s'.served = s.served) : Fresh s' := by
  refine ⟨?_, ?_, ?_, ?_⟩
  · intro id hid
    rw [hopened]
    exact h.fresh id (Nat.le_trans hnext hid)
  · intro targetId session hsession
    rw [hopened]
    exact h.sessions targetId session (hsessions targetId session hsession)
  · intro targetId op session hconnecting
    rw [hopened]
    rcases hchecking targetId op session hconnecting with hold | hsession
    · exact h.checking targetId op session hold
    · exact h.sessions targetId session hsession
  · rw [hopened, hserved]
    exact h.served

/-- What a step does to the operations served, and when it fits. -/
structure Serves (s : RemoteState) (e : RemoteEvent) (s' : RemoteState) : Prop where
  fresh : Fresh s'
  opened : ∀ id, (s.openedFor id).isSome → s'.openedFor id = s.openedFor id
  serves : s'.served = s.served ∧ Fitting s e ∨ ∃ op transport,
    s'.served = ⟨op.projectId, op.target.targetId, s.registry.target op.projectId op.target.targetId,
      transport⟩ :: s.served ∧ (Fitting s e ↔ Fits s op (s'.openedFor transport))

variable {e : RemoteEvent} {s : RemoteState}

lemma Fresh.serves_keep {s s' : RemoteState} (h : Fresh s)
    (hopened : s'.openedFor = s.openedFor) (hnext : s.next ≤ s'.next)
    (hsessions : ∀ targetId session, s'.sessions.get? targetId = some session → s.sessions.get? targetId = some session)
    (hchecking : ∀ targetId op session, s'.connecting targetId = some (op, .checking session) →
      s.connecting targetId = some (op, .checking session) ∨ s.sessions.get? targetId = some session)
    (hserved : s'.served = s.served) (hfitting : Fitting s e) : Serves s e s' :=
  ⟨h.keep hopened hnext hsessions hchecking hserved, fun _ _ => by rw [hopened], .inl ⟨hserved, hfitting⟩⟩

lemma checking_setConnecting {targetId : String}
    {c : Option (Operation × Connecting)} (hc : ∀ op session, c ≠ some (op, .checking session)) :
    ∀ targetId' op session, (s.setConnecting targetId c).connecting targetId' = some (op, .checking session) →
      s.connecting targetId' = some (op, .checking session) := by
  intro targetId' op session h
  unfold RemoteState.setConnecting at h
  by_cases htarget : targetId' = targetId
  · subst htarget
    simp only [update_self] at h
    exact absurd h (hc op session)
  · simpa only [update_of_ne htarget] using h

lemma Fresh.serves_setRegistry (h : Fresh s) (registry : Except RegistryError Registry) (hfitting : Fitting s e) :
    Serves s e (s.setRegistry registry) := by
  obtain ⟨hopened, hsessions, hconnecting, hnext, hserved⟩ := openedFor_setRegistry registry s
  refine h.serves_keep hopened hnext.ge ?_ ?_ hserved hfitting
  · rw [hsessions]
    exact fun _ _ => id
  · rw [hconnecting]
    exact fun _ _ _ => .inl

lemma Fresh.serves_serve {s t : RemoteState} {op : Operation} {transport : ℕ}
    (ht : Fresh t) (hopened : ∀ id, (s.openedFor id).isSome → t.openedFor id = s.openedFor id)
    (hserved : t.served = s.served) (hregistry : t.registry = s.registry)
    (htransport : (t.openedFor transport).isSome)
    (hfitting : Fitting s e ↔ Fits s op (t.openedFor transport)) : Serves s e (t.serve op transport) := by
  refine ⟨⟨ht.fresh, ht.sessions, ?_, ?_⟩, hopened, .inr ⟨op, transport, ?_, hfitting⟩⟩
  · intro targetId op' session hchecking
    refine ht.checking targetId op' session (checking_setConnecting (c := none) ?_ targetId op' session hchecking)
    rintro op session ⟨⟩
  · exact List.forall_mem_cons.mpr ⟨htransport, ht.served⟩
  · simp only [RemoteState.serve, hserved, hregistry]

lemma openedFor_openTransport (s : RemoteState) (op : Operation) (id : ℕ) : (s.openTransport op).openedFor id =
      if id = s.next then some (op.projectId, op.target) else s.openedFor id := by
  unfold RemoteState.openedFor RemoteState.openTransport
  by_cases hid : id = s.next
  · simp [hid]
  · simp [hid]

lemma Fresh.openedFor_next (h : Fresh s) {id : ℕ} (hid : (s.openedFor id).isSome) : id ≠ s.next := by
  rintro rfl
  rw [h.fresh s.next le_rfl] at hid
  cases hid

lemma Fresh.openTransport (h : Fresh s) (op : Operation) : Fresh (s.openTransport op) := by
  have hkeep : ∀ id, (s.openedFor id).isSome → ((s.openTransport op).openedFor id).isSome := by
    intro id hid
    rwa [openedFor_openTransport, if_neg (h.openedFor_next hid)]
  refine ⟨?_, ?_, ?_, ?_⟩
  · intro id hid
    have hlt : s.next < id := hid
    rw [openedFor_openTransport, if_neg hlt.ne']
    exact h.fresh id hlt.le
  · intro targetId session hsession
    have hset : (s.sessions.set op.target.targetId ⟨s.next, op.target.targetId, s.next⟩).get? targetId =
      some session := hsession
    rw [Dict.get?_set] at hset
    split_ifs at hset with htarget
    · obtain rfl := some.inj hset
      simp [openedFor_openTransport]
    · exact hkeep _ (h.sessions targetId session hset)
  · exact fun targetId op' session hchecking => hkeep _ (h.checking targetId op' session hchecking)
  · exact fun e he => hkeep _ (h.served e he)

lemma step_serves {s s' : RemoteState} (e : RemoteEvent) (h : Fresh s)
    (hstep : remoteStep s e = some s') : Serves s e s' := by
  cases e with
  | create registration now =>
    obtain rfl := some.inj hstep
    exact h.serves_setRegistry _ trivial
  | replace registration now expected =>
    obtain rfl := some.inj hstep
    exact h.serves_setRegistry _ trivial
  | delete projectId =>
    obtain rfl := some.inj hstep
    exact h.serves_setRegistry _ trivial
  | disconnect targetId =>
    simp only [remoteStep] at hstep
    cases hsession : s.sessions.get? targetId with
    | none =>
      simp only [hsession, some.injEq] at hstep
      subst hstep
      exact h.serves_keep rfl le_rfl (fun _ _ => id) (fun _ _ _ => .inl) rfl trivial
    | some session =>
      simp only [hsession, some.injEq] at hstep
      subst hstep
      have hsame := sameButLiveness_setAlive (({ s with
        sessions := s.sessions.pop targetId } : RemoteState).closeChildren session.sessionId)
        session.transport false
      refine h.serves_keep hsame.openedFor le_rfl ?_ (fun _ _ _ => .inl) rfl trivial
      intro targetId' session' hsession'
      have hpop : (s.sessions.pop targetId).get? targetId' = some session' := hsession'
      rw [Dict.get?_pop] at hpop
      split_ifs at hpop
      exact hpop
  | closeAll =>
    obtain rfl := some.inj hstep
    have hsame := sameButLiveness_closeTransports (s.sessions.map fun item => item.2.transport) s
    refine h.serves_keep hsame.openedFor hsame.next.ge ?_ ?_ hsame.served trivial
    · rintro targetId session ⟨⟩
    · intro targetId op session hchecking
      exact .inl (hsame.connecting ▸ hchecking)
  | liveness transport alive =>
    obtain rfl := some.inj hstep
    exact h.serves_keep (sameButLiveness_setAlive s transport alive).openedFor le_rfl (fun _ _ => id)
      (fun _ _ _ => .inl) rfl trivial
  | spawnContainerSession hostSessionId targetId container =>
    simp only [remoteStep] at hstep
    cases hsession : s.sessions.get? targetId with
    | none => simp [hsession] at hstep
    | some session =>
      simp only [hsession] at hstep
      split_ifs at hstep
      obtain rfl := some.inj hstep
      exact h.serves_keep rfl (Nat.le_succ _) (fun _ _ => id) (fun _ _ _ => .inl) rfl trivial
  | closeContainerSession sessionId =>
    obtain rfl := some.inj hstep
    exact h.serves_keep rfl le_rfl (fun _ _ => id) (fun _ _ _ => .inl) rfl trivial
  | operate projectId targetId service =>
    simp only [remoteStep] at hstep
    cases hresolve : resolveProjectService s.registry projectId targetId service with
    | none =>
      simp only [hresolve, some.injEq] at hstep
      subst hstep
      exact h.serves_keep rfl le_rfl (fun _ _ => id) (fun _ _ _ => .inl) rfl trivial
    | some target =>
      simp only [hresolve] at hstep
      cases hlock : s.connecting target.targetId with
      | some holder => simp [hlock] at hstep
      | none =>
        simp only [hlock, some.injEq] at hstep
        subst hstep
        refine h.serves_keep rfl le_rfl (fun _ _ => id) ?_ rfl trivial
        intro targetId' op session hchecking
        unfold RemoteState.setConnecting at hchecking
        by_cases htarget : targetId' = target.targetId
        · subst htarget
          simp only [update_self, some.injEq, Prod.mk.injEq] at hchecking
          cases hsession : s.sessions.get? target.targetId with
          | none => simp [hsession] at hchecking
          | some session' =>
            simp only [hsession, Connecting.checking.injEq] at hchecking
            exact .inr (by rw [hchecking.2])
        · exact .inl (by simpa only [update_of_ne htarget] using hchecking)
  | check targetId =>
    simp only [remoteStep] at hstep
    cases hconnecting : s.connecting targetId with
    | none => simp [hconnecting] at hstep
    | some holder =>
      obtain ⟨op, c⟩ := holder
      cases c with
      | checking session =>
        have hfitting : Fitting s (.check targetId) ↔
            (s.isAlive session.transport = true → Fits s op (s.openedFor session.transport)) := by
          simp only [Fitting, hconnecting, some.injEq, Prod.mk.injEq, Connecting.checking.injEq]
          constructor
          · exact fun hall => hall op session ⟨rfl, rfl⟩
          · rintro hfits _ _ ⟨rfl, rfl⟩
            exact hfits
        simp only [hconnecting] at hstep
        split_ifs at hstep with halive
        · obtain rfl := some.inj hstep
          exact h.serves_serve (fun _ _ => rfl) rfl rfl (h.checking targetId op session hconnecting)
            (by rw [hfitting, forall_prop_of_true halive])
        · obtain rfl := some.inj hstep
          refine h.serves_keep rfl le_rfl (fun _ _ => id) ?_ rfl (hfitting.mpr fun h => absurd h halive)
          intro targetId' op' session' hchecking
          refine .inl (checking_setConnecting (s := s.closeChildren session.sessionId) ?_ targetId' op'
            session' hchecking)
          rintro _ _ ⟨⟩
      | closing session => simp [hconnecting] at hstep
      | opening => simp [hconnecting] at hstep
  | close targetId ok =>
    simp only [remoteStep] at hstep
    cases hconnecting : s.connecting targetId with
    | none => simp [hconnecting] at hstep
    | some holder =>
      obtain ⟨op, c⟩ := holder
      cases c with
      | closing session =>
        simp only [hconnecting] at hstep
        split_ifs at hstep with hok
        · obtain rfl := some.inj hstep
          have hsame := sameButLiveness_setAlive s session.transport false
          refine h.serves_keep hsame.openedFor le_rfl (fun _ _ => id) ?_ rfl trivial
          intro targetId' op' session' hchecking
          refine .inl (checking_setConnecting (s := s.setAlive session.transport false) ?_ targetId' op'
            session' hchecking)
          rintro _ _ ⟨⟩
        · obtain rfl := some.inj hstep
          refine h.serves_keep rfl le_rfl (fun _ _ => id) ?_ rfl trivial
          intro targetId' op' session' hchecking
          refine .inl (checking_setConnecting ?_ targetId' op' session' hchecking)
          rintro _ _ ⟨⟩
      | checking session => simp [hconnecting] at hstep
      | opening => simp [hconnecting] at hstep
  | «open» targetId ok =>
    simp only [remoteStep] at hstep
    cases hconnecting : s.connecting targetId with
    | none => simp [hconnecting] at hstep
    | some holder =>
      obtain ⟨op, c⟩ := holder
      cases c with
      | opening =>
        simp only [hconnecting] at hstep
        split_ifs at hstep with hok
        · obtain rfl := some.inj hstep
          refine (h.openTransport op).serves_serve ?_ rfl rfl (by simp [openedFor_openTransport]) ?_
          · intro id hid
            rw [openedFor_openTransport, if_neg (h.openedFor_next hid)]
          · rw [openedFor_openTransport, if_pos rfl]
            simp only [Fitting, hconnecting, some.injEq, Prod.mk.injEq, and_true]
            constructor
            · exact fun hall => hall op hok rfl
            · rintro hfits _ - rfl
              exact hfits
        · obtain rfl := some.inj hstep
          refine h.serves_keep rfl le_rfl (fun _ _ => id) ?_ rfl fun _ htrue => absurd htrue hok
          intro targetId' op' session' hchecking
          refine .inl (checking_setConnecting ?_ targetId' op' session' hchecking)
          rintro _ _ ⟨⟩
      | checking session => simp [hconnecting] at hstep
      | closing session => simp [hconnecting] at hstep

lemma fresh_init : Fresh {} := by
  refine ⟨fun _ _ => rfl, ?_, ?_, ?_⟩
  · rintro targetId session ⟨⟩
  · rintro targetId op session ⟨⟩
  · rintro e ⟨⟩

lemma fresh_of_reached (h : remoteOps.Reached (fun _ _ => True) s) : Fresh s := by
  have hkeep : ∀ s e t, Fresh s → True → remoteOps.step s e = some t → Fresh t :=
    fun _ e _ hfresh _ hstep => (step_serves e hfresh hstep).fresh
  exact h.invariant fresh_init hkeep

lemma rightlyServed_step {s s' : RemoteState} (h : Fresh s)
    (hstep : remoteStep s e = some s') : RightlyServed s' ↔ RightlyServed s ∧ Fitting s e := by
  obtain ⟨-, hopened, hserves⟩ := step_serves e h hstep
  have hright : ∀ served ∈ s.served, (served.Right s' ↔ served.Right s) := by
    intro served hmem
    unfold Served.Right
    rw [hopened served.transport (h.served served hmem)]
  rcases hserves with ⟨hserved, hfitting⟩ | ⟨op, transport, hserved, hfitting⟩
  · unfold RightlyServed
    rw [hserved]
    constructor
    · exact fun hall => ⟨fun served hmem => (hright served hmem).mp (hall served hmem), hfitting⟩
    · exact fun hall served hmem => (hright served hmem).mpr (hall.1 served hmem)
  · rw [hfitting]
    unfold RightlyServed
    rw [hserved]
    constructor
    · intro hall
      refine ⟨?_, hall _ List.mem_cons_self⟩
      exact fun served hmem => (hright served hmem).mp (hall served (List.mem_cons_of_mem _ hmem))
    · rintro ⟨hall, hfits⟩ served hmem
      rcases List.mem_cons.mp hmem with rfl | hmem
      · exact hfits
      · exact (hright served hmem).mpr (hall served hmem)

def webTarget (host : String) : TargetRegistration := { targetId := "web-1", host := host, sshUser := "ops" }

def webProject (projectId host : String) : ProjectRegistration where
  projectId := projectId
  targets := [webTarget host]
  services := ["web"]
  uniqueTargets := by simp
  uniqueServices := by simp

/-- An operation of each project, one after the other. -/
def twoProjects : List RemoteEvent :=
  [.create (webProject "blog" "10.0.0.1") "2026-01-01T00:00:00+00:00",
    .create (webProject "shop" "10.0.0.2") "2026-01-01T00:00:01+00:00",
    .operate "blog" "web-1" "web", .open "web-1" true, .operate "shop" "web-1" "web", .check "web-1"]

end IncidentLens.RemoteOps
