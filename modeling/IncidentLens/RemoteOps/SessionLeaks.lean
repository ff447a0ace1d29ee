import IncidentLens.RemoteOps.SessionManager

/-!
# What the session manager opens is closed

Every transport and every process of a container is reachable, in the hands of a call, or closed, as long as nothing
is closed under the hands of another call, `close_all` runs alone, and no end of a process or a transport raises.
-/
namespace IncidentLens.RemoteOps.Lifecycle
open Data Effects SessionManager Call Dict List Function ManagerEvent Option

def Stage.pending : Stage → List ℕ
  | .child _ pending => pending
  | .transport => []

def Stage.current : Stage → Option ContainerSession
  | .child current _ => some current
  | .transport => none

/-- The host that a call is closing, and how far it is. -/
def Call.closing : Call → Option (HostSession × Stage)
  | .connect _ (.closing session stage) | .disconnect session stage | .closeAll session stage _ => some (session, stage)
  | _ => none

def Call.current : Call → Option ContainerSession
  | .closeContainerSession child => some child
  | .connect _ (.closing _ stage) | .disconnect _ stage | .closeAll _ stage _ => stage.current
  | _ => none

namespace SessionManager
variable (m : SessionManager)

/-- What was opened is in the maps, in the hands of a call, or closed; `connect` returns nothing that is closed; and
after `close_all` everything is closed. -/
structure LeaksNothing : Prop where
  hosts : ∀ s ∈ m.hosts, s.transport ∈ m.closedTransports ∨ (∃ targetId, m.sessions.get? targetId = some s) ∨
    ∃ i stage, m.calls i = some (.disconnect s stage)
  children : ∀ c ∈ m.spawned, c.process ∈ m.closedProcesses ∨ (∃ sessionId, m.containerSessions.get? sessionId = some c) ∨
    ∃ i call, m.calls i = some call ∧ call.current = some c
  returned : ∀ e ∈ m.returned, e.2 = false
  closedAll : m.closedAll = true → (∀ i, m.calls i = none) →
    (∀ s ∈ m.hosts, s.transport ∈ m.closedTransports) ∧ ∀ c ∈ m.spawned, c.process ∈ m.closedProcesses

/-- No `close_all` is under way. -/
def NoCloseAll : Prop := ∀ i session stage rest, m.calls i ≠ some (.closeAll session stage rest)

/-- Nothing closes what another call works with, `close_all` runs alone, and nothing raises when it is closed. -/
def Orderly : ManagerEvent → Prop
  | .connect _ _ | .spawnContainerSession _ _ _ => m.NoCloseAll
  | .acquire _ => True
  | .closeContainerSession _ sessionId => m.NoCloseAll ∧ ∀ i call session stage, m.calls i = some call →
      call.closing = some (session, stage) → sessionId ∉ stage.pending
  | .disconnect _ targetId => m.NoCloseAll ∧ ∀ i existing,
      (∀ dead, m.calls i ≠ some (.connect targetId (.checking existing dead))) ∧
      ∀ stage, m.calls i ≠ some (.connect targetId (.closing existing stage))
  | .closeAll _ => ∀ i, m.calls i = none
  | .resume i ok => ∀ call, m.calls i = some call → (call.current.isSome ∨ call.closing.isSome → ok = true) ∧
      ∀ host container, call = .spawnContainerSession host container → ok = true →
        m.sessions.get? host.targetId = some host ∧ host.transport ∉ m.closedTransports ∧
          ∀ j call stage, m.calls j = some call → call.closing ≠ some (host, stage)

end SessionManager

/-- The ids are those of the children of a host, each once. -/
def ChildrenOf (containerSessions : Dict ℕ ContainerSession) (s : HostSession) (pending : List ℕ) : Prop :=
  pending.Nodup ∧ ∀ sessionId, sessionId ∈ pending ↔
    ∃ c, containerSessions.get? sessionId = some c ∧ c.parentSessionId = s.sessionId

namespace SessionManager
variable (m : SessionManager)

def Relies (i : ℕ) : Call → Prop
  | .connect _ .waiting => True
  | .connect targetId (.checking existing dead) => m.locks targetId = some i ∧ m.sessions.get? targetId = some existing ∧
      (dead = false → existing.transport ∉ m.closedTransports)
  | .connect targetId (.closing existing stage) => m.locks targetId = some i ∧ m.sessions.get? targetId = some existing ∧
      ChildrenOf m.containerSessions existing stage.pending
  | .connect targetId (.opening none) => m.locks targetId = some i ∧ m.sessions.get? targetId = none
  | .connect targetId (.opening (some existing)) => m.locks targetId = some i ∧ existing ∈ m.hosts ∧
      (m.sessions.get? targetId = none ∨ m.sessions.get? targetId = some existing) ∧
      existing.transport ∈ m.closedTransports ∧ ChildrenOf m.containerSessions existing []
  | .spawnContainerSession _ _ => True
  | .closeContainerSession _ => True
  | .disconnect session stage => session ∈ m.hosts ∧ m.sessions.get? session.targetId ≠ some session ∧
      ChildrenOf m.containerSessions session stage.pending ∧ ∀ j stage', m.calls j = some (.disconnect session stage') → j = i
  | .closeAll session stage rest => ChildrenOf m.containerSessions session stage.pending ∧
      (∀ j call, m.calls j = some call → j = i) ∧
      (∀ targetId s, m.sessions.get? targetId = some s → s.transport ∈ m.closedTransports ∨ s ∈ session :: rest) ∧
      (∀ sessionId c, m.containerSessions.get? sessionId = some c → ∃ s ∈ session :: rest, s.sessionId = c.parentSessionId) ∧
      ∀ s ∈ session :: rest, s ∈ m.hosts

/-- A host that is still to be closed: it is mapped, or a `disconnect` has it. -/
def Holds (s : HostSession) : Prop :=
  m.sessions.get? s.targetId = some s ∨ ∃ i stage, m.calls i = some (.disconnect s stage)

structure Sound : Prop where
  hostIds : ∀ s ∈ m.hosts, s.sessionId < m.next ∧ s.transport = s.sessionId
  hostEq : ∀ s ∈ m.hosts, ∀ s' ∈ m.hosts, s.sessionId = s'.sessionId → s = s'
  sessions : ∀ targetId s, m.sessions.get? targetId = some s → s ∈ m.hosts ∧ s.targetId = targetId
  keys : m.containerSessions.keys.Nodup
  hostKeys : m.sessions.keys.Nodup
  containers : ∀ sessionId c, m.containerSessions.get? sessionId = some c → sessionId < m.next
  closedIds : ∀ x ∈ m.closedTransports, x < m.next
  hosts : ∀ s ∈ m.hosts, s.transport ∈ m.closedTransports ∨ m.Holds s
  children : ∀ c ∈ m.spawned, c.process ∈ m.closedProcesses ∨ (∃ sessionId, m.containerSessions.get? sessionId = some c) ∨
    ∃ i call, m.calls i = some call ∧ call.current = some c
  parents : ∀ sessionId c, m.containerSessions.get? sessionId = some c → ∃ s, m.Holds s ∧ s.sessionId = c.parentSessionId
  relies : ∀ i call, m.calls i = some call → m.Relies i call
  returned : ∀ e ∈ m.returned, e.2 = false
  closedAll : m.closedAll = true → (∀ targetId, m.sessions.get? targetId = none) ∧
    (∀ sessionId, m.containerSessions.get? sessionId = none) ∧ ∀ i, m.calls i = none

end SessionManager

variable {m : SessionManager}

lemma Call.closing_cases {call : Call} {s : HostSession} {stage : Stage} (h : call.closing = some (s, stage)) :
    (∃ targetId, call = .connect targetId (.closing s stage)) ∨ call = .disconnect s stage ∨
      ∃ rest, call = .closeAll s stage rest := by
  cases call with
  | connect targetId phase =>
    cases phase with
    | closing existing stage' =>
      cases h
      exact .inl ⟨targetId, rfl⟩
    | waiting => cases h
    | checking existing dead => cases h
    | opening existing => cases h
  | spawnContainerSession host container => cases h
  | closeContainerSession child => cases h
  | disconnect session stage' =>
    cases h
    exact .inr (.inl rfl)
  | closeAll session stage' rest =>
    cases h
    exact .inr (.inr ⟨rest, rfl⟩)

/-! ### Children of a host -/

section
variable {containerSessions : Dict ℕ ContainerSession} {s : HostSession} {pending : List ℕ}

lemma childrenOf_spec (hkeys : m.containerSessions.keys.Nodup) (s : HostSession) :
    ChildrenOf m.containerSessions s (m.childrenOf s.sessionId) := by
  refine ⟨hkeys.sublist (filter_sublist.map _), fun sessionId => ?_⟩
  simp only [childrenOf, List.mem_map, mem_filter, decide_eq_true_eq]
  constructor
  · rintro ⟨item, ⟨hmem, hparent⟩, rfl⟩
    exact ⟨item.2, get?_of_mem hkeys hmem, hparent⟩
  · rintro ⟨c, hget, hparent⟩
    exact ⟨(sessionId, c), ⟨mem_of_get? hget, hparent⟩, rfl⟩

/-- What the next round of closing children leaves. -/
inductive Popped (containerSessions : Dict ℕ ContainerSession) : List ℕ → Dict ℕ ContainerSession → Stage → Prop
  | empty : Popped containerSessions [] containerSessions .transport
  | child {sessionId : ℕ} {rest : List ℕ} {c : ContainerSession} (hget : containerSessions.get? sessionId = some c) :
    Popped containerSessions (sessionId :: rest) (containerSessions.pop sessionId) (.child c rest)

lemma closeNext_eq (h : ChildrenOf m.containerSessions s pending) : ∃ containerSessions stage,
    m.closeNext pending = some ({ m with containerSessions := containerSessions }, stage) ∧
      Popped m.containerSessions pending containerSessions stage := by
  cases pending with
  | nil => exact ⟨_, _, rfl, .empty⟩
  | cons sessionId rest =>
    obtain ⟨c, hget, -⟩ := (h.2 sessionId).mp mem_cons_self
    refine ⟨_, _, ?_, .child hget⟩
    rw [closeNext, hget]
    rfl

variable {stage : Stage} {left : Dict ℕ ContainerSession}

lemma Popped.sub (h : Popped containerSessions pending left stage) {sessionId : ℕ} {c : ContainerSession}
    (hget : left.get? sessionId = some c) : containerSessions.get? sessionId = some c := by
  cases h with
  | empty => exact hget
  | child hc =>
    rw [get?_pop] at hget
    split_ifs at hget
    exact hget

lemma Popped.keys (h : Popped containerSessions pending left stage) (hkeys : containerSessions.keys.Nodup) : left.keys.Nodup := by
  cases h with
  | empty => exact hkeys
  | child hc => exact hkeys.sublist ((pop_sublist _ _).map _)

lemma Popped.cases (h : Popped containerSessions pending left stage) {sessionId : ℕ} {c : ContainerSession}
    (hget : containerSessions.get? sessionId = some c) :
    left.get? sessionId = some c ∨ left.get? sessionId = none ∧ sessionId ∈ pending ∧ stage.current = some c := by
  cases h with
  | empty => exact .inl hget
  | @child popped rest c' hc =>
    rw [get?_pop]
    by_cases hsame : popped = sessionId
    · subst hsame
      rw [hc] at hget
      exact .inr ⟨if_pos rfl, mem_cons_self, hget⟩
    · rw [if_neg hsame]
      exact .inl hget

lemma Popped.childrenOf (h : Popped containerSessions pending left stage) (hchildren : ChildrenOf containerSessions s pending) :
    ChildrenOf left s stage.pending := by
  cases h with
  | empty => exact hchildren
  | @child sessionId rest c hc =>
    obtain ⟨hnot, hnodup⟩ := nodup_cons.mp hchildren.1
    refine ⟨hnodup, fun sessionId' => ?_⟩
    rw [get?_pop]
    by_cases hsame : sessionId = sessionId'
    · subst hsame
      rw [if_pos rfl]
      exact iff_of_false hnot (by rintro ⟨c, ⟨⟩, -⟩)
    · rw [if_neg hsame, ← hchildren.2 sessionId']
      exact ⟨mem_cons_of_mem _, fun hmem => (mem_cons.mp hmem).resolve_left (Ne.symm hsame)⟩

lemma ChildrenOf.keep (h : ChildrenOf containerSessions s pending)
    (hsub : ∀ sessionId c, left.get? sessionId = some c → containerSessions.get? sessionId = some c)
    (hleft : ∀ sessionId ∈ pending, ∀ c, containerSessions.get? sessionId = some c → left.get? sessionId = some c) :
    ChildrenOf left s pending := by
  refine ⟨h.1, fun sessionId => ⟨fun hmem => ?_, ?_⟩⟩
  · obtain ⟨c, hget, hparent⟩ := (h.2 sessionId).mp hmem
    exact ⟨c, hleft sessionId hmem c hget, hparent⟩
  · rintro ⟨c, hget, hparent⟩
    exact (h.2 sessionId).mpr ⟨c, hsub sessionId c hget, hparent⟩

end

/-! ### Calls that go on -/

def Call.host : Call → Option HostSession
  | .connect _ (.checking existing _) => some existing
  | call => call.closing.map Prod.fst

lemma Call.host_of_closing {call : Call} {s : HostSession} {stage : Stage} (h : call.closing = some (s, stage)) :
    call.host = some s := by
  rcases closing_cases h with ⟨t, rfl⟩ | rfl | ⟨rest, rfl⟩ <;> rfl

namespace SessionManager

variable {s : HostSession} {i : ℕ} {call : Call}

lemma Sound.eq_of_target (h : m.Sound) {targetId targetId' : String}
    (hs : m.sessions.get? targetId = some s) (hs' : m.sessions.get? targetId' = some s) : targetId = targetId' :=
  (h.sessions _ _ hs).2.symm.trans (h.sessions _ _ hs').2

/-- Who has a host in hand: a `connect` that holds the lock of its target, the one `disconnect` that took it out of
the map, or `close_all`. -/
theorem Sound.host_cases (h : m.Sound) (hcall : m.calls i = some call) (hhost : call.host = some s) :
    (∃ targetId, m.locks targetId = some i ∧ m.sessions.get? targetId = some s) ∨
      (s ∈ m.hosts ∧ m.sessions.get? s.targetId ≠ some s ∧ ∀ j stage, m.calls j = some (.disconnect s stage) → j = i) ∧
        (∃ stage, call = .disconnect s stage) ∨ ∃ stage rest, call = .closeAll s stage rest := by
  have hrelies := h.relies i call hcall
  cases call with
  | connect targetId phase =>
    cases phase with
    | checking existing dead =>
      cases hhost
      exact .inl ⟨targetId, hrelies.1, hrelies.2.1⟩
    | closing existing stage =>
      cases hhost
      exact .inl ⟨targetId, hrelies.1, hrelies.2.1⟩
    | waiting => cases hhost
    | opening existing => cases hhost
  | spawnContainerSession host container => cases hhost
  | closeContainerSession child => cases hhost
  | disconnect session stage =>
    cases hhost
    exact .inr (.inl ⟨⟨hrelies.1, hrelies.2.1, hrelies.2.2.2⟩, stage, rfl⟩)
  | closeAll session stage rest =>
    cases hhost
    exact .inr (.inr ⟨stage, rest, rfl⟩)

lemma Sound.hosts_ne (h : m.Sound) {i j : ℕ} {call call' : Call} {s s' : HostSession} (hcall : m.calls i = some call)
    (hcall' : m.calls j = some call') (hhost : call.host = some s) (hhost' : call'.host = some s') (hne : i ≠ j) :
    s.sessionId ≠ s'.sessionId := by
  intro hid
  rcases h.host_cases hcall hhost with ⟨t, hlock, hs⟩ | ⟨⟨hmem, hout, honly⟩, stage, rfl⟩ | ⟨stage, rest, rfl⟩
  · rcases h.host_cases hcall' hhost' with ⟨t', hlock', hs'⟩ | ⟨⟨hmem', hout', -⟩, -⟩ | ⟨stage', rest', rfl⟩
    · obtain rfl := h.hostEq s (h.sessions t s hs).1 s' (h.sessions t' s' hs').1 hid
      obtain rfl := h.eq_of_target hs hs'
      exact hne (some.inj (hlock.symm.trans hlock'))
    · obtain rfl := h.hostEq s (h.sessions t s hs).1 s' hmem' hid
      exact hout' ((h.sessions t s hs).2 ▸ hs)
    · exact hne ((h.relies j _ hcall').2.1 i call hcall)
  · rcases h.host_cases hcall' hhost' with ⟨t', hlock', hs'⟩ | ⟨⟨hmem', -, -⟩, stage', rfl⟩ | ⟨stage', rest', rfl⟩
    · obtain rfl := h.hostEq s hmem s' (h.sessions t' s' hs').1 hid
      exact hout ((h.sessions t' s hs').2 ▸ hs')
    · obtain rfl := h.hostEq s hmem s' hmem' hid
      exact hne (honly j stage' hcall').symm
    · exact hne ((h.relies j _ hcall').2.1 i _ hcall)
  · exact hne ((h.relies i _ hcall).2.1 j call' hcall').symm

lemma Sound.childrenOf (h : m.Sound) {stage : Stage} (hcall : m.calls i = some call)
    (hclosing : call.closing = some (s, stage)) : ChildrenOf m.containerSessions s stage.pending := by
  have hrelies := h.relies i call hcall
  rcases closing_cases hclosing with ⟨t, rfl⟩ | rfl | ⟨rest, rfl⟩
  · exact hrelies.2.2
  · exact hrelies.2.2.1
  · exact hrelies.1

lemma Sound.closedHost (h : m.Sound) {stage : Stage} (hcall : m.calls i = some call)
    (hclosing : call.closing = some (s, stage)) : (∀ x ∈ s.transport :: m.closedTransports, x < m.next) ∧
      ∀ x ∈ s.transport :: m.closedTransports, x ∈ m.closedTransports ∨
        ∀ j targetId s', j ≠ i → m.calls j = some (.connect targetId (.checking s' false)) → s'.transport ≠ x := by
  have hmem : s ∈ m.hosts := by
    have hrelies := h.relies i call hcall
    rcases closing_cases hclosing with ⟨t, rfl⟩ | rfl | ⟨rest, rfl⟩
    · exact (h.sessions _ _ hrelies.2.1).1
    · exact hrelies.1
    · exact hrelies.2.2.2.2 s mem_cons_self
  have hhost := h.hostIds s hmem
  refine ⟨fun x hx => ?_, fun x hx => ?_⟩
  · rcases mem_cons.mp hx with rfl | hx
    · rw [hhost.2]
      exact hhost.1
    · exact h.closedIds x hx
  · refine (mem_cons.mp hx).symm.imp_right fun hx => ?_
    rintro j targetId s' hji hj hsame
    have hs' := (h.sessions _ _ (h.relies j _ hj).2.1).1
    have hne := h.hosts_ne hj hcall rfl (host_of_closing hclosing) hji
    rw [← (h.hostIds s' hs').2, ← hhost.2, hsame, hx] at hne
    exact hne rfl

lemma Sound.notClosedAll (h : m.Sound) (hcall : m.calls i = some call) : m.closedAll = false := by
  cases hall : m.closedAll with
  | false => rfl
  | true =>
    rw [(h.closedAll hall).2.2 i] at hcall
    cases hcall

def went (m : SessionManager) (i : ℕ) (call? : Option Call) (sessions : Dict String HostSession)
    (containerSessions : Dict ℕ ContainerSession) (closedTransports closedProcesses : List ℕ) : SessionManager :=
  { m with
    sessions := sessions
    containerSessions := containerSessions
    closedTransports := closedTransports
    closedProcesses := closedProcesses
    calls := update m.calls i call? }

lemma calls_went (m : SessionManager) (i : ℕ) (call? : Option Call) (sessions : Dict String HostSession)
    (containerSessions : Dict ℕ ContainerSession) (closedTransports closedProcesses : List ℕ) (j : ℕ) :
    (m.went i call? sessions containerSessions closedTransports closedProcesses).calls j = if j = i then call? else m.calls j :=
  update_apply ..

/-- A call goes on. It may have taken a host or a child out of the maps, which it has in hand now, and what it awaited
is closed. -/
structure GoesOn (m : SessionManager) (i : ℕ) (call? : Option Call) (sessions : Dict String HostSession)
    (containerSessions : Dict ℕ ContainerSession) (closedTransports closedProcesses : List ℕ) : Prop where
  mapped : ∀ targetId s, sessions.get? targetId = some s → m.sessions.get? targetId = some s
  unmapped : ∀ targetId s, m.sessions.get? targetId = some s → sessions.get? targetId = some s ∨
    sessions.get? targetId = none ∧ ∃ stage, call? = some (.disconnect s stage)
  spared : ∀ j call targetId s, j ≠ i → m.calls j = some call → call.host = some s → m.sessions.get? targetId = some s →
    sessions.get? targetId = some s
  sub : ∀ sessionId c, containerSessions.get? sessionId = some c → m.containerSessions.get? sessionId = some c
  keys : containerSessions.keys.Nodup
  hostKeys : sessions.keys.Nodup
  transports : ∀ x ∈ m.closedTransports, x ∈ closedTransports
  processes : ∀ x ∈ m.closedProcesses, x ∈ closedProcesses
  closedIds : ∀ x ∈ closedTransports, x < m.next
  host : ∀ s stage, m.calls i = some (.disconnect s stage) → (∃ stage', call? = some (.disconnect s stage')) ∨
    s.transport ∈ closedTransports ∧
      ∀ sessionId c, containerSessions.get? sessionId = some c → c.parentSessionId ≠ s.sessionId
  current : ∀ call c, m.calls i = some call → call.current = some c → c.process ∈ closedProcesses
  popped : ∀ sessionId c, m.containerSessions.get? sessionId = some c → containerSessions.get? sessionId = some c ∨
    ∃ call, call? = some call ∧ call.current = some c
  alive : ∀ x ∈ closedTransports, x ∈ m.closedTransports ∨
    ∀ j targetId s, j ≠ i → m.calls j = some (.connect targetId (.checking s false)) → s.transport ≠ x
  pending : ∀ j call s stage sessionId c, j ≠ i → m.calls j = some call → call.closing = some (s, stage) →
    sessionId ∈ stage.pending → m.containerSessions.get? sessionId = some c → containerSessions.get? sessionId = some c
  disconnects : ∀ s stage, call? = some (.disconnect s stage) → (∃ stage', m.calls i = some (.disconnect s stage')) ∨
    m.sessions.get? s.targetId = some s
  alone : ∀ j s stage rest, j ≠ i → m.calls j ≠ some (.closeAll s stage rest)

section
variable {i : ℕ} {call? : Option Call} {sessions : Dict String HostSession} {containerSessions : Dict ℕ ContainerSession}
  {closedTransports closedProcesses : List ℕ}

lemma GoesOn.holds (hstep : m.GoesOn i call? sessions containerSessions closedTransports closedProcesses) {s : HostSession}
    (hheld : m.Holds s) : (m.went i call? sessions containerSessions closedTransports closedProcesses).Holds s ∨
      s.transport ∈ closedTransports ∧
        ∀ sessionId c, containerSessions.get? sessionId = some c → c.parentSessionId ≠ s.sessionId := by
  rcases hheld with hmapped | ⟨j, stage, hj⟩
  · rcases hstep.unmapped _ _ hmapped with hleft | ⟨-, stage, hcall⟩
    · exact .inl (.inl hleft)
    · exact .inl (.inr ⟨i, stage, (update_self ..).trans hcall⟩)
  · by_cases hji : j = i
    · subst hji
      rcases hstep.host s stage hj with ⟨stage', hcall⟩ | hclosed
      · exact .inl (.inr ⟨j, stage', (update_self ..).trans hcall⟩)
      · exact .inr hclosed
    · exact .inl (.inr ⟨j, stage, (update_of_ne hji ..).trans hj⟩)

lemma GoesOn.relies (hstep : m.GoesOn i call? sessions containerSessions closedTransports closedProcesses) (h : m.Sound)
    {j : ℕ} {call : Call} (hji : j ≠ i) (hj : m.calls j = some call) :
    (m.went i call? sessions containerSessions closedTransports closedProcesses).Relies j call := by
  have hrelies := h.relies j call hj
  have hkeep : ∀ s stage, call.closing = some (s, stage) → ChildrenOf containerSessions s stage.pending :=
    fun s stage hclosing => (h.childrenOf hj hclosing).keep hstep.sub fun sessionId hmem c hget =>
      hstep.pending j call s stage sessionId c hji hj hclosing hmem hget
  cases call with
  | connect targetId phase =>
    cases phase with
    | waiting => trivial
    | checking existing dead =>
      refine ⟨hrelies.1, hstep.spared j _ targetId existing hji hj rfl hrelies.2.1, fun hdead hmem => ?_⟩
      subst hdead
      rcases hstep.alive _ hmem with hold | hne
      · exact hrelies.2.2 rfl hold
      · exact hne j targetId existing hji hj rfl
    | closing existing stage =>
      exact ⟨hrelies.1, hstep.spared j _ targetId existing hji hj rfl hrelies.2.1, hkeep existing stage rfl⟩
    | opening existing =>
      have hnone : m.sessions.get? targetId = none → sessions.get? targetId = none := by
        intro hnone
        cases hget : sessions.get? targetId with
        | none => rfl
        | some s =>
          rw [hstep.mapped _ _ hget] at hnone
          cases hnone
      cases existing with
      | none => exact ⟨hrelies.1, hnone hrelies.2⟩
      | some existing =>
        obtain ⟨hlock, hhost, hmapped, hclosed, hchildren⟩ := hrelies
        refine ⟨hlock, hhost, ?_, hstep.transports _ hclosed, hchildren.keep hstep.sub ?_⟩
        · rcases hmapped with hout | hmapped
          · exact .inl (hnone hout)
          · exact (hstep.unmapped _ _ hmapped).elim .inr fun hout => .inl hout.1
        · rintro sessionId ⟨⟩
  | spawnContainerSession host container => trivial
  | closeContainerSession child => trivial
  | disconnect s stage =>
    obtain ⟨hhost, hout, -, honly⟩ := hrelies
    refine ⟨hhost, fun hmapped => hout (hstep.mapped _ _ hmapped), hkeep s stage rfl, fun k stage' hk => ?_⟩
    by_cases hki : k = i
    · subst hki
      rw [calls_went, if_pos rfl] at hk
      rcases hstep.disconnects s stage' hk with ⟨stage'', hk'⟩ | hmapped
      · exact honly k stage'' hk'
      · exact absurd hmapped hout
    · rw [calls_went, if_neg hki] at hk
      exact honly k stage' hk
  | closeAll s stage rest => exact absurd hj (hstep.alone j s stage rest hji)

lemma Sound.goesOn (h : m.Sound) (hopen : m.closedAll = false)
    (hstep : m.GoesOn i call? sessions containerSessions closedTransports closedProcesses)
    (hself : ∀ call, call? = some call →
      (m.went i call? sessions containerSessions closedTransports closedProcesses).Relies i call) :
    (m.went i call? sessions containerSessions closedTransports closedProcesses).Sound := by
  refine ⟨h.hostIds, h.hostEq, fun targetId s hs => h.sessions targetId s (hstep.mapped _ _ hs), hstep.keys, hstep.hostKeys,
    fun sessionId c hget => h.containers sessionId c (hstep.sub sessionId c hget), hstep.closedIds, fun s hs => ?_,
    fun c hc => ?_, fun sessionId c hget => ?_, fun j call hj => ?_, h.returned, fun hall => ?_⟩
  · rcases h.hosts s hs with hclosed | hheld
    · exact .inl (hstep.transports _ hclosed)
    · exact (hstep.holds hheld).elim .inr fun hclosed => .inl hclosed.1
  · rcases h.children c hc with hclosed | ⟨sessionId, hget⟩ | ⟨j, call, hj, hcurrent⟩
    · exact .inl (hstep.processes _ hclosed)
    · rcases hstep.popped sessionId c hget with hleft | ⟨call, hcall, hcurrent⟩
      · exact .inr (.inl ⟨sessionId, hleft⟩)
      · exact .inr (.inr ⟨i, call, (update_self ..).trans hcall, hcurrent⟩)
    · by_cases hji : j = i
      · subst hji
        exact .inl (hstep.current call c hj hcurrent)
      · exact .inr (.inr ⟨j, call, (update_of_ne hji ..).trans hj, hcurrent⟩)
  · obtain ⟨s, hheld, hid⟩ := h.parents sessionId c (hstep.sub sessionId c hget)
    rcases hstep.holds hheld with hheld' | ⟨-, hnone⟩
    · exact ⟨s, hheld', hid⟩
    · exact absurd hid.symm (hnone sessionId c hget)
  · by_cases hji : j = i
    · subst hji
      rw [calls_went, if_pos rfl] at hj
      exact hself call hj
    · rw [calls_went, if_neg hji] at hj
      exact hstep.relies h hji hj
  · rw [show m.closedAll = true from hall] at hopen
    cases hopen

end

lemma Sound.alone (h : m.Sound) {i : ℕ} {call : Call} (hcall : m.calls i = some call) (j : ℕ) (s : HostSession) (stage : Stage)
    (rest : List HostSession) (hji : j ≠ i) : m.calls j ≠ some (.closeAll s stage rest) :=
  fun hj => hji ((h.relies j _ hj).2.1 i call hcall).symm

section
variable {i : ℕ} {call? : Option Call} {closedTransports closedProcesses : List ℕ}

lemma goesOn_idle (h : m.Sound) (htransports : ∀ x ∈ m.closedTransports, x ∈ closedTransports)
    (hclosedIds : ∀ x ∈ closedTransports, x < m.next) (hprocesses : ∀ x ∈ m.closedProcesses, x ∈ closedProcesses)
    (hhost : ∀ s stage, m.calls i = some (.disconnect s stage) → (∃ stage', call? = some (.disconnect s stage')) ∨
      s.transport ∈ closedTransports ∧
        ∀ sessionId c, m.containerSessions.get? sessionId = some c → c.parentSessionId ≠ s.sessionId)
    (hcurrent : ∀ call c, m.calls i = some call → call.current = some c → c.process ∈ closedProcesses)
    (halive : ∀ x ∈ closedTransports, x ∈ m.closedTransports ∨
      ∀ j targetId s, j ≠ i → m.calls j = some (.connect targetId (.checking s false)) → s.transport ≠ x)
    (hdisconnects : ∀ s stage, call? = some (.disconnect s stage) → ∃ stage', m.calls i = some (.disconnect s stage'))
    (halone : ∀ j s stage rest, j ≠ i → m.calls j ≠ some (.closeAll s stage rest)) :
    m.GoesOn i call? m.sessions m.containerSessions closedTransports closedProcesses where
  mapped _ _ hs := hs
  unmapped _ _ hs := .inl hs
  spared _ _ _ _ _ _ _ hs := hs
  sub _ _ hget := hget
  keys := h.keys
  hostKeys := h.hostKeys
  transports := htransports
  processes := hprocesses
  closedIds := hclosedIds
  host := hhost
  current := hcurrent
  popped _ _ hget := .inl hget
  alive := halive
  pending _ _ _ _ _ _ _ _ _ _ hget := hget
  disconnects s stage hcall := .inl (hdisconnects s stage hcall)
  alone := halone

lemma Sound.setCall (h : m.Sound) (hopen : m.closedAll = false)
    (hbefore : ∀ call, m.calls i = some call → call.current = none ∧ ∀ s stage, call ≠ .disconnect s stage)
    (hafter : ∀ call, call? = some call → m.Relies i call ∧ (∀ s stage, call ≠ .disconnect s stage) ∧
      ∀ s stage rest, call ≠ .closeAll s stage rest)
    (halone : ∀ j s stage rest, j ≠ i → m.calls j ≠ some (.closeAll s stage rest)) : (m.setCall i call?).Sound := by
  refine h.goesOn hopen (goesOn_idle h (fun _ hx => hx) h.closedIds (fun _ hx => hx) (fun s stage hi => ?_) (fun call c hi hc => ?_)
    (fun _ hx => .inl hx) (fun s stage hcall => ?_) halone) fun call hcall => ?_
  · exact absurd rfl ((hbefore _ hi).2 s stage)
  · rw [(hbefore call hi).1] at hc
    cases hc
  · exact absurd rfl ((hafter _ hcall).2.1 s stage)
  · obtain ⟨hrelies, hdisconnect, hcloseAll⟩ := hafter call hcall
    cases call with
    | connect targetId phase =>
      cases phase with
      | opening existing => cases existing <;> exact hrelies
      | waiting => exact hrelies
      | checking existing dead => exact hrelies
      | closing existing stage => exact hrelies
    | spawnContainerSession host container => trivial
    | closeContainerSession child => trivial
    | disconnect s stage => exact absurd rfl (hdisconnect s stage)
    | closeAll s stage rest => exact absurd rfl (hcloseAll s stage rest)

lemma Sound.closedContainer (h : m.Sound) {child : ContainerSession} (hcall : m.calls i = some (.closeContainerSession child)) :
    Sound ({ m with closedProcesses := child.process :: m.closedProcesses }.setCall i none) := by
  refine h.goesOn (h.notClosedAll hcall) (goesOn_idle h (fun _ hx => hx) h.closedIds (fun _ hx => mem_cons_of_mem _ hx)
    (fun s stage hi => ?_) (fun call c hi hc => ?_) (fun _ hx => .inl hx) (fun s stage hnone => ?_)
    (h.alone hcall)) fun call hnone => ?_
  · rw [hcall] at hi
    cases hi
  · rw [hcall] at hi
    cases hi
    cases hc
    exact mem_cons_self
  · cases hnone
  · cases hnone

variable {s : HostSession} {pending : List ℕ} {left : Dict ℕ ContainerSession} {stage : Stage} {call : Call}

lemma goesOn_next (h : m.Sound) (hpopped : Popped m.containerSessions pending left stage)
    (hchildren : ChildrenOf m.containerSessions s pending) (hcurrent' : call.current = stage.current)
    (hprocesses : ∀ x ∈ m.closedProcesses, x ∈ closedProcesses)
    (hhost : ∀ s stage, m.calls i = some (.disconnect s stage) → ∃ stage', call = .disconnect s stage')
    (hcurrent : ∀ call c, m.calls i = some call → call.current = some c → c.process ∈ closedProcesses)
    (hothers : ∀ j call s', j ≠ i → m.calls j = some call → call.host = some s' → s'.sessionId ≠ s.sessionId)
    (hdisconnects : ∀ s stage, call = .disconnect s stage → ∃ stage', m.calls i = some (.disconnect s stage'))
    (halone : ∀ j s stage rest, j ≠ i → m.calls j ≠ some (.closeAll s stage rest)) :
    m.GoesOn i (some call) m.sessions left m.closedTransports closedProcesses where
  mapped _ _ hs := hs
  unmapped _ _ hs := .inl hs
  spared _ _ _ _ _ _ _ hs := hs
  sub _ _ hget := hpopped.sub hget
  keys := hpopped.keys h.keys
  hostKeys := h.hostKeys
  transports _ hx := hx
  processes := hprocesses
  closedIds := h.closedIds
  host s stage hi := by
    obtain ⟨stage', rfl⟩ := hhost s stage hi
    exact .inl ⟨stage', rfl⟩
  current := hcurrent
  popped sessionId c hget := (hpopped.cases hget).imp_right fun hgone => ⟨call, rfl, hcurrent'.trans hgone.2.2⟩
  alive _ hx := .inl hx
  pending j call' s' stage' sessionId c hji hj hclosing hmem hget := by
    refine (hpopped.cases hget).resolve_right fun hgone => ?_
    obtain ⟨c₁, hget₁, hparent₁⟩ := ((h.childrenOf hj hclosing).2 sessionId).mp hmem
    obtain ⟨c₂, hget₂, hparent₂⟩ := (hchildren.2 sessionId).mp hgone.2.1
    rw [hget₁] at hget₂
    cases hget₂
    exact hothers j call' s' hji hj (host_of_closing hclosing) (hparent₁.symm.trans hparent₂)
  disconnects s stage hcall := .inl (hdisconnects s stage (some.inj hcall))
  alone := halone

end

/-! ### connect -/

lemma Sound.relock (h : m.Sound) {locks : String → Option ℕ} {returned : List (HostSession × Bool)}
    (hkeep : ∀ j targetId call, m.calls j = some call → m.locks targetId = some j → locks targetId = some j)
    (hreturned : ∀ e ∈ returned, e.2 = false) {closedAll : Bool} (hall : closedAll = true → m.closedAll = true) :
    Sound { m with locks := locks, returned := returned, closedAll := closedAll } := by
  refine ⟨h.hostIds, h.hostEq, h.sessions, h.keys, h.hostKeys, h.containers, h.closedIds, h.hosts, h.children, h.parents,
    fun j call hj => ?_, hreturned, fun hclosed => h.closedAll (hall hclosed)⟩
  have hrelies := h.relies j call hj
  cases call with
  | connect targetId phase =>
    have hlock := fun h => hkeep j targetId _ hj h
    cases phase with
    | waiting => trivial
    | checking existing dead => exact hrelies.imp_left hlock
    | closing existing stage => exact hrelies.imp_left hlock
    | opening existing => cases existing <;> exact hrelies.imp_left hlock
  | spawnContainerSession host container => trivial
  | closeContainerSession child => trivial
  | disconnect s stage => exact hrelies
  | closeAll s stage rest => exact hrelies

variable {i : ℕ} {targetId : String} {m' : SessionManager} {session : HostSession}

lemma Sound.endConnect (h : m.Sound) {phase : ConnectPhase}
    (hcall : m.calls i = some (.connect targetId phase)) (hcurrent : (connect targetId phase).current = none)
    (hlock : m.locks targetId = some i) {session : Option HostSession}
    (hsession : ∀ s ∈ session, s.transport ∉ m.closedTransports) : (m.endConnect i targetId session).Sound := by
  have hended : (m.setCall i none).Sound := by
    refine h.setCall (h.notClosedAll hcall) (fun call hi => ?_) (fun call hnone => ?_) (h.alone hcall)
    · rw [hcall] at hi
      cases hi
      exact ⟨hcurrent, fun s stage => Call.noConfusion⟩
    · cases hnone
  refine hended.relock (fun j targetId' call hj hlock' => ?_) (fun e he => ?_) id
  · by_cases htarget : targetId' = targetId
    · subst htarget
      have hji : j = i := some.inj (hlock'.symm.trans hlock)
      subst hji
      cases (update_self ..).symm.trans hj
    · exact (update_of_ne htarget ..).trans hlock'
  · rcases mem_append.mp he with hold | hnew
    · exact h.returned e hold
    · obtain ⟨s, hs, rfl⟩ := mem_map.mp hnew
      exact decide_eq_false (hsession s (mem_toList.mp hs))

lemma Sound.register (h : m.Sound) (hopen : m.closedAll = false) (hfree : m.locks targetId = none)
    (halone : m.NoCloseAll) (hold : ∀ s, m.sessions.get? targetId = some s →
      s.transport ∈ m.closedTransports ∧ ChildrenOf m.containerSessions s []) {returned : List (HostSession × Bool)}
    (hreturned : ∀ e ∈ returned, e.2 = false) : Sound { (m.register targetId).1 with returned := returned } := by
  have hnew : ∀ s ∈ m.hosts, s ≠ ⟨m.next, targetId, m.next⟩ := by
    rintro s hs rfl
    exact lt_irrefl _ (h.hostIds _ hs).1
  have hhosts : ∀ s, s ∈ (m.register targetId).1.hosts ↔ s ∈ m.hosts ∨ s = ⟨m.next, targetId, m.next⟩ := by
    intro s
    exact mem_append.trans (or_congr_right mem_singleton)
  have hget : ∀ targetId', (m.register targetId).1.sessions.get? targetId' =
      if targetId = targetId' then some ⟨m.next, targetId, m.next⟩ else m.sessions.get? targetId' :=
    fun targetId' => get?_set _ _ _ _
  have hholds : ∀ s, m.Holds s → m.sessions.get? targetId = some s ∨
      Holds { (m.register targetId).1 with returned := returned } s := by
    rintro s (hmapped | hcall)
    · by_cases htarget : targetId = s.targetId
      · exact .inl (htarget ▸ hmapped)
      · exact .inr (.inl ((hget _).trans ((if_neg htarget).trans hmapped)))
    · exact .inr (.inr hcall)
  refine ⟨fun s hs => ?_, fun s hs s' hs' hid => ?_, fun targetId' s hs => ?_, h.keys,
    nodup_keys_set h.hostKeys _ _, fun sessionId c hc => ?_, fun x hx => ?_,
    fun s hs => ?_, h.children, fun sessionId c hc => ?_, fun j call hj => ?_, hreturned, fun hall => ?_⟩
  · rcases (hhosts s).mp hs with hs | rfl
    · exact ⟨Nat.lt_succ_of_lt (h.hostIds s hs).1, (h.hostIds s hs).2⟩
    · exact ⟨Nat.lt_succ_self _, rfl⟩
  · rcases (hhosts s).mp hs with hs | rfl <;> rcases (hhosts s').mp hs' with hs' | rfl
    · exact h.hostEq s hs s' hs' hid
    · exact absurd (h.hostIds s hs).1 (hid ▸ lt_irrefl _)
    · exact absurd (h.hostIds s' hs').1 (hid ▸ lt_irrefl _)
    · rfl
  · have hs := (hget targetId').symm.trans hs
    split_ifs at hs with htarget
    · cases hs
      exact ⟨(hhosts _).mpr (.inr rfl), htarget⟩
    · exact (h.sessions targetId' s hs).imp_left fun hmem => (hhosts s).mpr (.inl hmem)
  · exact Nat.lt_succ_of_lt (h.containers sessionId c hc)
  · exact Nat.lt_succ_of_lt (h.closedIds x hx)
  · rcases (hhosts s).mp hs with hs | rfl
    · rcases h.hosts s hs with hclosed | hheld
      · exact .inl hclosed
      · exact (hholds s hheld).elim (fun hmapped => .inl (hold s hmapped).1) .inr
    · exact .inr (.inl ((hget targetId).trans (if_pos rfl)))
  · obtain ⟨s, hheld, hid⟩ := h.parents sessionId c hc
    rcases hholds s hheld with hmapped | hheld'
    · cases ((hold s hmapped).2.2 sessionId).mpr ⟨c, hc, hid.symm⟩
    · exact ⟨s, hheld', hid⟩
  · have hrelies := h.relies j call hj
    have hkept : ∀ targetId', m.locks targetId' = some j →
        (m.register targetId).1.sessions.get? targetId' = m.sessions.get? targetId' := by
      intro targetId' hlock
      refine (hget targetId').trans (if_neg ?_)
      rintro rfl
      rw [hfree] at hlock
      cases hlock
    cases call with
    | connect targetId' phase =>
      cases phase with
      | waiting => trivial
      | checking existing dead => exact ⟨hrelies.1, (hkept _ hrelies.1).trans hrelies.2.1, hrelies.2.2⟩
      | closing existing stage => exact ⟨hrelies.1, (hkept _ hrelies.1).trans hrelies.2.1, hrelies.2.2⟩
      | opening existing =>
        cases existing with
        | none => exact ⟨hrelies.1, (hkept _ hrelies.1).trans hrelies.2⟩
        | some existing =>
          obtain ⟨hlock, hhost, hmapped, hrest⟩ := hrelies
          exact ⟨hlock, (hhosts _).mpr (.inl hhost), hmapped.imp (hkept _ hlock).trans (hkept _ hlock).trans, hrest⟩
    | spawnContainerSession host container => trivial
    | closeContainerSession child => trivial
    | disconnect s stage =>
      obtain ⟨hhost, hout, hrest⟩ := hrelies
      refine ⟨(hhosts s).mpr (.inl hhost), fun hmapped => ?_, hrest⟩
      have hmapped := (hget s.targetId).symm.trans hmapped
      split_ifs at hmapped with htarget
      · exact hnew s hhost (some.inj hmapped).symm
      · exact hout hmapped
    | closeAll s stage rest => exact absurd hj (halone j s stage rest)
  · rw [show m.closedAll = true from hall] at hopen
    cases hopen

lemma Sound.resumeConnect (h : m.Sound) {ok : Bool} {phase : ConnectPhase}
    (hcall : m.calls i = some (.connect targetId phase))
    (hgood : (connect targetId phase).current.isSome ∨ (connect targetId phase).closing.isSome → ok = true)
    (hstep : m.resumeConnect i targetId ok phase = some m') : m'.Sound := by
  have hrelies := h.relies i _ hcall
  have hopen := h.notClosedAll hcall
  have hdisconnect : ∀ {P : HostSession → Stage → Prop} s stage, m.calls i = some (.disconnect s stage) → P s stage := by
    intro P s stage hi
    rw [hcall] at hi
    cases hi
  cases phase with
  | waiting => cases hstep
  | checking existing dead =>
    obtain ⟨hlock, hmapped, halive⟩ := hrelies
    cases ok with
    | true =>
      cases dead with
      | true => cases hstep
      | false =>
        cases hstep
        refine h.endConnect hcall rfl hlock ?_
        rintro s ⟨⟩
        exact halive rfl
    | false =>
      have hchildren := childrenOf_spec h.keys existing
      obtain ⟨left, stage, hnext, hpopped⟩ := closeNext_eq hchildren
      simp only [SessionManager.resumeConnect, hnext] at hstep
      cases hstep
      refine h.goesOn hopen (goesOn_next h hpopped hchildren rfl (fun _ hx => hx) hdisconnect (fun call c hi hc => ?_)
        (fun j call s hji hj hhost => h.hosts_ne hj hcall hhost rfl hji) (fun s stage => Call.noConfusion) (h.alone hcall)) ?_
      · rw [hcall] at hi
        cases hi
        cases hc
      · rintro call ⟨⟩
        exact ⟨hlock, hmapped, hpopped.childrenOf hchildren⟩
  | closing existing stage =>
    obtain ⟨hlock, hmapped, hchildren⟩ := hrelies
    obtain rfl := hgood (.inr rfl)
    cases stage with
    | child c pending =>
      obtain ⟨left, stage, hnext, hpopped⟩ := @closeNext_eq (m.closed existing (.child c pending)) existing pending hchildren
      simp only [SessionManager.resumeConnect, hnext] at hstep
      cases hstep
      refine h.goesOn hopen (goesOn_next h hpopped hchildren rfl (fun _ hx => mem_cons_of_mem _ hx) hdisconnect
        (fun call c' hi hc => ?_) (fun j call s hji hj hhost => h.hosts_ne hj hcall hhost rfl hji)
        (fun s stage => Call.noConfusion) (h.alone hcall)) ?_
      · rw [hcall] at hi
        cases hi
        cases hc
        exact mem_cons_self
      · rintro call ⟨⟩
        exact ⟨hlock, hmapped, hpopped.childrenOf hchildren⟩
    | transport =>
      cases hstep
      have hhost := (h.sessions _ _ hmapped).1
      obtain ⟨hids, halive⟩ := h.closedHost hcall rfl
      refine h.goesOn hopen (goesOn_idle h (fun _ hx => mem_cons_of_mem _ hx) hids (fun _ hx => hx) hdisconnect
        (fun call c hi hc => ?_) halive (fun s stage heq => Call.noConfusion (some.inj heq)) (h.alone hcall)) ?_
      · rw [hcall] at hi
        cases hi
        cases hc
      · rintro call ⟨⟩
        exact ⟨hlock, hhost, .inr hmapped, mem_cons_self, hchildren⟩
  | opening existing =>
    have hlock : m.locks targetId = some i := by
      cases existing with
      | none => exact hrelies.1
      | some existing => exact hrelies.1
    have hended : (m.endConnect i targetId none).Sound := h.endConnect hcall rfl hlock fun s hs => absurd hs (not_mem_none s)
    cases ok with
    | false =>
      cases hstep
      exact hended
    | true =>
      cases hstep
      refine hended.register hopen (update_self ..) (fun j s stage rest hj => ?_) (fun s hs => ?_) fun e he => ?_
      · by_cases hji : j = i
        · subst hji
          cases (update_self ..).symm.trans hj
        · exact h.alone hcall j s stage rest hji ((update_of_ne hji ..).symm.trans hj)
      · cases existing with
        | none =>
          cases hrelies.2.symm.trans hs
        | some existing =>
          obtain ⟨-, -, hmapped, hrest⟩ := hrelies
          rcases hmapped with hout | hmapped
          · cases hout.symm.trans hs
          · cases hmapped.symm.trans hs
            exact hrest
      · rcases mem_append.mp he with hold | hnew
        · exact h.returned e hold
        · cases mem_singleton.mp hnew
          exact decide_eq_false fun hmem => lt_irrefl _ (h.closedIds _ hmem)

/-! ### Containers -/

lemma Sound.registerChild (h : m.Sound) (hopen : m.closedAll = false) {host : HostSession}
    (hmapped : m.sessions.get? host.targetId = some host) (hlive : host.transport ∉ m.closedTransports)
    (hclosing : ∀ j call stage, m.calls j = some call → call.closing ≠ some (host, stage)) (halone : m.NoCloseAll)
    (container : String) : (m.registerChild host container).Sound := by
  have hhost := (h.sessions _ _ hmapped).1
  have hget : ∀ sessionId, (m.registerChild host container).containerSessions.get? sessionId =
      if m.next = sessionId then some ⟨m.next, host.sessionId, container, m.next⟩ else m.containerSessions.get? sessionId :=
    fun sessionId => get?_set _ _ _ _
  have hold : ∀ sessionId c, m.containerSessions.get? sessionId = some c →
      (m.registerChild host container).containerSessions.get? sessionId = some c := by
    intro sessionId c hc
    exact (hget sessionId).trans ((if_neg (h.containers sessionId c hc).ne').trans hc)
  have hchildren : ∀ s pending, s ∈ m.hosts → s ≠ host → ChildrenOf m.containerSessions s pending →
      ChildrenOf (m.registerChild host container).containerSessions s pending := by
    intro s pending hs hne hchildren
    refine ⟨hchildren.1, fun sessionId => ⟨fun hmem => ?_, ?_⟩⟩
    · obtain ⟨c, hc, hparent⟩ := (hchildren.2 sessionId).mp hmem
      exact ⟨c, hold sessionId c hc, hparent⟩
    · rintro ⟨c, hc, hparent⟩
      have hc := (hget sessionId).symm.trans hc
      split_ifs at hc
      · cases hc
        exact absurd (h.hostEq s hs host hhost hparent.symm) hne
      · exact (hchildren.2 sessionId).mpr ⟨c, hc, hparent⟩
  refine ⟨fun s hs => (h.hostIds s hs).imp_left Nat.lt_succ_of_lt, h.hostEq, h.sessions, nodup_keys_set h.keys _ _, h.hostKeys,
    fun sessionId c hc => ?_, fun x hx => Nat.lt_succ_of_lt (h.closedIds x hx), h.hosts, fun c hc => ?_, fun sessionId c hc => ?_,
    fun j call hj => ?_, h.returned, fun hall => ?_⟩
  · have hc := (hget sessionId).symm.trans hc
    split_ifs at hc with hsame
    · exact hsame ▸ Nat.lt_succ_self _
    · exact Nat.lt_succ_of_lt (h.containers sessionId c hc)
  · rcases mem_append.mp hc with hc | hc
    · rcases h.children c hc with hclosed | ⟨sessionId, hmem⟩ | hcall
      · exact .inl hclosed
      · exact .inr (.inl ⟨sessionId, hold sessionId c hmem⟩)
      · exact .inr (.inr hcall)
    · cases mem_singleton.mp hc
      exact .inr (.inl ⟨m.next, (hget _).trans (if_pos rfl)⟩)
  · have hc := (hget sessionId).symm.trans hc
    split_ifs at hc
    · cases hc
      exact ⟨host, .inl hmapped, rfl⟩
    · exact h.parents sessionId c hc
  · have hrelies := h.relies j call hj
    cases call with
    | connect targetId phase =>
      cases phase with
      | waiting => trivial
      | checking existing dead => exact hrelies
      | closing existing stage =>
        obtain ⟨hlock, hexisting, hpending⟩ := hrelies
        refine ⟨hlock, hexisting, hchildren existing _ (h.sessions _ _ hexisting).1 ?_ hpending⟩
        rintro rfl
        exact hclosing j _ stage hj rfl
      | opening existing =>
        cases existing with
        | none => exact hrelies
        | some existing =>
          obtain ⟨hlock, hexisting, hplace, hclosed, hnone⟩ := hrelies
          refine ⟨hlock, hexisting, hplace, hclosed, hchildren existing _ hexisting ?_ hnone⟩
          rintro rfl
          exact hlive hclosed
    | spawnContainerSession host container => trivial
    | closeContainerSession child => trivial
    | disconnect s stage =>
      obtain ⟨hs, hout, hpending, honly⟩ := hrelies
      refine ⟨hs, hout, hchildren s _ hs ?_ hpending, honly⟩
      rintro rfl
      exact hclosing j _ stage hj rfl
    | closeAll s stage rest => exact absurd hj (halone j s stage rest)
  · rw [show m.closedAll = true from hall] at hopen
    cases hopen

lemma Sound.closeContainer (h : m.Sound) (hopen : m.closedAll = false) {i sessionId : ℕ} (hfree : m.calls i = none)
    {child : ContainerSession} (hget : m.containerSessions.get? sessionId = some child) (halone : m.NoCloseAll)
    (hpending : ∀ j call s stage, m.calls j = some call → call.closing = some (s, stage) → sessionId ∉ stage.pending) :
    Sound ({ m with containerSessions := m.containerSessions.pop sessionId }.setCall i (some (.closeContainerSession child))) := by
  have hleft : ∀ sessionId' c, m.containerSessions.get? sessionId' = some c → sessionId ≠ sessionId' →
      (m.containerSessions.pop sessionId).get? sessionId' = some c := by
    intro sessionId' c hc hne
    rw [get?_pop, if_neg hne, hc]
  have hfresh : ∀ {P : Prop} call, m.calls i = some call → P := by
    intro P call hi
    rw [hfree] at hi
    cases hi
  refine h.goesOn hopen ⟨fun _ _ hs => hs, fun _ _ hs => .inl hs, fun _ _ _ _ _ _ _ hs => hs, fun sessionId' c hc => ?_,
    h.keys.sublist ((pop_sublist _ _).map _), h.hostKeys, fun _ hx => hx, fun _ hx => hx, h.closedIds,
    fun s stage hi => hfresh _ hi, fun call c hi _ => hfresh call hi, fun sessionId' c hc => ?_, fun _ hx => .inl hx,
    fun j call s stage sessionId' c hji hj hclosing hmem hc => ?_,
    fun s stage hcall => ?_, fun j s stage rest _ => halone j s stage rest⟩ ?_
  · rw [get?_pop] at hc
    split_ifs at hc
    exact hc
  · by_cases hsame : sessionId = sessionId'
    · subst hsame
      rw [hget] at hc
      cases hc
      exact .inr ⟨_, rfl, rfl⟩
    · exact .inl (hleft sessionId' c hc hsame)
  · refine hleft sessionId' c hc ?_
    rintro rfl
    exact hpending j call s stage hj hclosing hmem
  · cases hcall
  · rintro call ⟨⟩
    trivial

/-! ### disconnect -/

lemma Sound.disconnect (h : m.Sound) (hopen : m.closedAll = false) (hfree : m.calls i = none)
    (hmapped : m.sessions.get? targetId = some session) (halone : m.NoCloseAll)
    (hspared : ∀ j existing, (∀ dead, m.calls j ≠ some (.connect targetId (.checking existing dead))) ∧
      ∀ stage, m.calls j ≠ some (.connect targetId (.closing existing stage))) :
    ∃ left stage, closeNext { m with sessions := m.sessions.pop targetId }
          (SessionManager.childrenOf { m with sessions := m.sessions.pop targetId } session.sessionId) =
        some ({ m with sessions := m.sessions.pop targetId, containerSessions := left }, stage) ∧
      Sound ({ m with sessions := m.sessions.pop targetId, containerSessions := left }.setCall i
        (some (.disconnect session stage))) := by
  have hhost := h.sessions _ _ hmapped
  have hchildren := childrenOf_spec h.keys session
  obtain ⟨left, stage, hnext, hpopped⟩ := @closeNext_eq { m with sessions := m.sessions.pop targetId } session _ hchildren
  refine ⟨left, stage, hnext, ?_⟩
  have hfresh : ∀ {P : Prop} call, m.calls i = some call → P := by
    intro P call hi
    rw [hfree] at hi
    cases hi
  have hkept : ∀ j call targetId' s, m.calls j = some call → call.host = some s → m.sessions.get? targetId' = some s →
      (m.sessions.pop targetId).get? targetId' = some s := by
    intro j call targetId' s hj hcall hs
    rw [get?_pop, hs]
    refine if_neg ?_
    rintro rfl
    rcases h.host_cases hj hcall with ⟨t, hlock, hs'⟩ | ⟨⟨-, hout, -⟩, -⟩ | ⟨stage', rest, rfl⟩
    · cases call with
      | connect t' phase =>
        have hrelies := h.relies j _ hj
        cases phase with
        | checking existing dead =>
          cases hcall
          obtain rfl := h.eq_of_target hrelies.2.1 hs
          exact (hspared j _).1 dead hj
        | closing existing stage' =>
          cases hcall
          obtain rfl := h.eq_of_target hrelies.2.1 hs
          exact (hspared j _).2 stage' hj
        | waiting => cases hcall
        | opening existing => cases hcall
      | spawnContainerSession host container => cases hcall
      | closeContainerSession child => cases hcall
      | disconnect s' stage' =>
        cases hcall
        exact (h.relies j _ hj).2.1 ((h.sessions _ _ hs).2 ▸ hs)
      | closeAll s' stage' rest => exact halone j s' stage' rest hj
    · exact hout ((h.sessions _ _ hs).2 ▸ hs)
    · exact halone j s stage' rest hj
  have hother : ∀ j call s, m.calls j = some call → call.host = some s → s.sessionId ≠ session.sessionId := by
    intro j call s hj hcall hid
    have hs : s ∈ m.hosts := by
      rcases h.host_cases hj hcall with ⟨t, -, hs⟩ | ⟨⟨hs, -⟩, -⟩ | ⟨stage', rest, rfl⟩
      · exact (h.sessions _ _ hs).1
      · exact hs
      · exact absurd hj (halone j s stage' rest)
    obtain rfl := h.hostEq s hs session hhost.1 hid
    have hgone := hkept j call targetId s hj hcall hmapped
    rw [get?_pop, if_pos rfl] at hgone
    cases hgone
  refine h.goesOn hopen ⟨fun targetId' s hs => ?_, fun targetId' s hs => ?_, fun j call targetId' s _ => hkept j call targetId' s,
    fun _ _ hc => hpopped.sub hc, hpopped.keys h.keys, h.hostKeys.sublist ((pop_sublist _ _).map _),
    fun _ hx => hx, fun _ hx => hx, h.closedIds, fun s stage hi => hfresh _ hi, fun call c hi _ => hfresh call hi,
    fun sessionId c hc => ?_, fun _ hx => .inl hx, fun j call s stage' sessionId c hji hj hclosing hmem hc => ?_,
    fun s stage' hcall => ?_, fun j s stage rest _ => halone j s stage rest⟩ ?_
  · rw [get?_pop] at hs
    split_ifs at hs
    exact hs
  · rw [get?_pop]
    by_cases hsame : targetId = targetId'
    · subst hsame
      rw [hmapped] at hs
      cases hs
      exact .inr ⟨if_pos rfl, stage, rfl⟩
    · rw [if_neg hsame]
      exact .inl hs
  · exact (hpopped.cases hc).imp_right fun hgone => ⟨_, rfl, hgone.2.2⟩
  · refine (hpopped.cases hc).resolve_right fun hgone => ?_
    obtain ⟨c₁, hget₁, hparent₁⟩ := ((h.childrenOf hj hclosing).2 sessionId).mp hmem
    obtain ⟨c₂, hget₂, hparent₂⟩ := (hchildren.2 sessionId).mp hgone.2.1
    rw [hget₁] at hget₂
    cases hget₂
    exact hother j call s hj (host_of_closing hclosing) (hparent₁.symm.trans hparent₂)
  · cases hcall
    exact .inr (hhost.2.symm ▸ hmapped)
  · rintro call ⟨⟩
    refine ⟨hhost.1, ?_, hpopped.childrenOf hchildren, fun j stage' hj => ?_⟩
    · change (m.sessions.pop targetId).get? session.targetId ≠ some session
      rw [hhost.2, get?_pop, if_pos rfl]
      exact (some_ne_none session).symm
    · rw [calls_went] at hj
      split_ifs at hj with hji
      · exact hji
      · exact absurd (hhost.2.symm ▸ hmapped) (h.relies j _ hj).2.1

lemma Sound.resumeDisconnect (h : m.Sound) {stage : Stage}
    (hcall : m.calls i = some (.disconnect session stage)) : (m.resumeDisconnect i session true stage).Sound := by
  obtain ⟨hhost, hout, hchildren, honly⟩ := h.relies i _ hcall
  have hopen := h.notClosedAll hcall
  have hsame : ∀ s stage', m.calls i = some (.disconnect s stage') → s = session ∧ stage' = stage := by
    intro s stage' hi
    rw [hcall] at hi
    cases hi
    exact ⟨rfl, rfl⟩
  cases stage with
  | child c pending =>
    obtain ⟨left, stage, hnext, hpopped⟩ := @closeNext_eq (m.closed session (.child c pending)) session pending hchildren
    simp only [SessionManager.resumeDisconnect, hnext]
    refine h.goesOn hopen (goesOn_next h hpopped hchildren rfl (fun _ hx => mem_cons_of_mem _ hx) (fun s stage' hi => ?_)
      (fun call c' hi hc => ?_) (fun j call s hji hj hhost => h.hosts_ne hj hcall hhost rfl hji) (fun s stage' heq => ?_)
      (h.alone hcall)) ?_
    · obtain ⟨rfl, -⟩ := hsame s stage' hi
      exact ⟨stage, rfl⟩
    · rw [hcall] at hi
      cases hi
      cases hc
      exact mem_cons_self
    · cases heq
      exact ⟨_, hcall⟩
    · rintro call ⟨⟩
      refine ⟨hhost, hout, hpopped.childrenOf hchildren, fun j stage' hj => ?_⟩
      rw [calls_went] at hj
      split_ifs at hj with hji
      · exact hji
      · exact honly j stage' hj
  | transport =>
    obtain ⟨hids, halive⟩ := h.closedHost hcall rfl
    refine h.goesOn hopen (goesOn_idle h (fun _ hx => mem_cons_of_mem _ hx) hids (fun _ hx => hx) (fun s stage' hi => ?_)
      (fun call c hi hc => ?_) halive (fun s stage heq => absurd heq (some_ne_none _).symm) (h.alone hcall))
      fun call heq => absurd heq (some_ne_none _).symm
    · obtain ⟨rfl, -⟩ := hsame s stage' hi
      refine .inr ⟨mem_cons_self, fun sessionId c hc hparent => ?_⟩
      cases (hchildren.2 sessionId).mpr ⟨c, hc, hparent⟩
    · rw [hcall] at hi
      cases hi
      cases hc

/-! ### close_all -/

lemma Sound.closeRest (h : m.Sound) (hopen : m.closedAll = false) (hfree : ∀ j, m.calls j = none)
    {rest : List HostSession}
    (hmapped : ∀ targetId s, m.sessions.get? targetId = some s → s.transport ∈ m.closedTransports ∨ s ∈ rest)
    (hparents : ∀ sessionId c, m.containerSessions.get? sessionId = some c → ∃ s ∈ rest, s.sessionId = c.parentSessionId)
    (hhosts : ∀ s ∈ rest, s ∈ m.hosts) : (m.closeRest i rest).Sound := by
  have hfresh : ∀ {P : Prop} j call, m.calls j = some call → P := by
    intro P j call hj
    rw [hfree] at hj
    cases hj
  cases rest with
  | nil =>
    have hnone : ∀ sessionId, m.containerSessions.get? sessionId = none := by
      intro sessionId
      cases hc : m.containerSessions.get? sessionId with
      | none => rfl
      | some c =>
        obtain ⟨s, hs, -⟩ := hparents sessionId c hc
        cases hs
    have hcalls : ∀ j, (m.closeRest i []).calls j = none := by
      intro j
      refine (update_apply ..).trans ?_
      split_ifs
      · rfl
      · exact hfree j
    refine ⟨h.hostIds, h.hostEq, fun targetId s hs => absurd hs (some_ne_none s).symm, nodup_nil, nodup_nil,
      fun sessionId c hc => absurd hc (some_ne_none c).symm, h.closedIds, fun s hs => ?_, fun c hc => ?_,
      fun sessionId c hc => absurd hc (some_ne_none c).symm, fun j call hj => ?_, h.returned,
      fun _ => ⟨fun _ => rfl, fun _ => rfl, hcalls⟩⟩
    · rcases h.hosts s hs with hclosed | hs | ⟨j, stage, hj⟩
      · exact .inl hclosed
      · exact .inl ((hmapped _ _ hs).resolve_right not_mem_nil)
      · exact hfresh j _ hj
    · rcases h.children c hc with hclosed | ⟨sessionId, hget⟩ | ⟨j, call, hj, -⟩
      · exact .inl hclosed
      · cases (hnone sessionId).symm.trans hget
      · exact hfresh j _ hj
    · cases (hcalls j).symm.trans hj
  | cons s rest =>
    have hchildren := childrenOf_spec h.keys s
    obtain ⟨left, stage, hnext, hpopped⟩ := closeNext_eq hchildren
    simp only [SessionManager.closeRest, hnext]
    refine h.goesOn hopen (goesOn_next h hpopped hchildren rfl (fun _ hx => hx) (fun s stage hi => hfresh _ _ hi)
      (fun call c hi _ => hfresh _ _ hi) (fun j call s _ hj _ => hfresh _ _ hj) (fun s stage => Call.noConfusion)
      fun j s stage rest _ hj => hfresh _ _ hj) ?_
    rintro call ⟨⟩
    refine ⟨hpopped.childrenOf hchildren, fun j call hj => ?_, hmapped, fun sessionId c hc => hparents sessionId c (hpopped.sub hc),
      hhosts⟩
    rw [calls_went] at hj
    split_ifs at hj with hji
    · exact hji
    · exact hfresh _ _ hj

lemma closeRest_setCall (m : SessionManager) (i : ℕ) (rest : List HostSession) :
    (m.setCall i none).closeRest i rest = m.closeRest i rest := by
  cases rest with
  | nil => simp only [closeRest, setCall, update_idem]
  | cons s rest =>
    have hnext : ∀ pending, (m.setCall i none).closeNext pending =
        (m.closeNext pending).map fun next => (next.1.setCall i none, next.2) := by
      intro pending
      cases pending with
      | nil => rfl
      | cons sessionId pending =>
        simp only [closeNext, setCall]
        cases m.containerSessions.get? sessionId <;> rfl
    have hids : (m.setCall i none).childrenOf s.sessionId = m.childrenOf s.sessionId := rfl
    simp only [closeRest, hids, hnext]
    cases m.closeNext (m.childrenOf s.sessionId) with
    | none => simp only [map_none, setCall, update_idem]
    | some next => simp only [map_some, setCall, update_idem]

lemma Sound.resumeCloseAll (h : m.Sound) {stage : Stage} {rest : List HostSession}
    (hcall : m.calls i = some (.closeAll session stage rest)) : (m.resumeCloseAll i session rest true stage).Sound := by
  obtain ⟨hchildren, halone, hmapped, hparents, hhosts⟩ := h.relies i _ hcall
  have hopen := h.notClosedAll hcall
  have hdisconnect : ∀ {P : Prop} s stage, m.calls i = some (.disconnect s stage) → P := by
    intro P s stage hi
    rw [hcall] at hi
    cases hi
  cases stage with
  | child c pending =>
    obtain ⟨left, stage, hnext, hpopped⟩ := @closeNext_eq (m.closed session (.child c pending)) session pending hchildren
    simp only [SessionManager.resumeCloseAll, hnext]
    refine h.goesOn hopen (goesOn_next h hpopped hchildren rfl (fun _ hx => mem_cons_of_mem _ hx)
      (fun s stage hi => hdisconnect s stage hi) (fun call c' hi hc => ?_) (fun j call s hji hj _ => absurd (halone j call hj) hji)
      (fun s stage => Call.noConfusion) (h.alone hcall)) ?_
    · rw [hcall] at hi
      cases hi
      cases hc
      exact mem_cons_self
    · rintro call ⟨⟩
      refine ⟨hpopped.childrenOf hchildren, fun j call hj => ?_, hmapped,
        fun sessionId c hc => hparents sessionId c (hpopped.sub hc), hhosts⟩
      rw [calls_went] at hj
      split_ifs at hj with hji
      · exact hji
      · exact halone j call hj
  | transport =>
    have hended : ((m.closed session .transport).setCall i none).Sound := by
      obtain ⟨hids, halive⟩ := h.closedHost hcall rfl
      refine h.goesOn hopen (goesOn_idle h (fun _ hx => mem_cons_of_mem _ hx) hids (fun _ hx => hx)
        (fun s stage hi => hdisconnect s stage hi) (fun call c hi hc => ?_) halive
        (fun s stage heq => absurd heq (some_ne_none _).symm) (h.alone hcall))
        fun call heq => absurd heq (some_ne_none _).symm
      rw [hcall] at hi
      cases hi
      cases hc
    have hfree : ∀ j, ((m.closed session .transport).setCall i none).calls j = none := by
      intro j
      refine (update_apply ..).trans ?_
      split_ifs with hji
      · rfl
      · cases hj : m.calls j with
        | none => exact hj
        | some call => exact absurd (halone j call hj) hji
    simp only [SessionManager.resumeCloseAll, ← closeRest_setCall (m.closed session .transport)]
    refine hended.closeRest hopen hfree (fun targetId s hs => ?_) (fun sessionId c hc => ?_) fun s hs =>
      hhosts s (mem_cons_of_mem _ hs)
    · rcases hmapped targetId s hs with hclosed | hmem
      · exact .inl (mem_cons_of_mem _ hclosed)
      · rcases mem_cons.mp hmem with rfl | hmem
        · exact .inl mem_cons_self
        · exact .inr hmem
    · obtain ⟨s, hmem, hid⟩ := hparents sessionId c hc
      rcases mem_cons.mp hmem with rfl | hmem
      · cases (hchildren.2 sessionId).mpr ⟨c, hc, hid.symm⟩
      · exact ⟨s, hmem, hid⟩

/-! ### Steps -/

lemma start_cases {call : SessionManager → Option SessionManager} (hstart : m.start i call = some m') :
    m.calls i = none ∧ call { m with closedAll := false } = some m' := by
  cases hcall : m.calls i with
  | some running =>
    rw [start, hcall] at hstart
    cases hstart
  | none =>
    rw [start, hcall] at hstart
    exact ⟨rfl, hstart⟩

lemma Sound.opened (h : m.Sound) : Sound { m with closedAll := false } :=
  h.relock (fun _ _ _ _ hlock => hlock) h.returned fun hall => absurd hall Bool.false_ne_true

lemma Sound.begin (h : m.Sound) (hopen : m.closedAll = false) (hfree : m.calls i = none) (halone : m.NoCloseAll)
    {call : Call} (hrelies : m.Relies i call) (hnot : call.host = none) : (m.setCall i (some call)).Sound := by
  refine h.setCall hopen (fun before hi => ?_) (fun after heq => ?_) fun j s stage rest _ => halone j s stage rest
  · rw [hfree] at hi
    cases hi
  · cases heq
    refine ⟨hrelies, ?_, ?_⟩
    · rintro s stage rfl
      cases hnot
    · rintro s stage rest rfl
      cases hnot

lemma Sound.acquire (h : m.Sound) (hcall : m.calls i = some (.connect targetId .waiting))
    (hfree : m.locks targetId = none) : Sound ({ m with locks := update m.locks targetId (some i) }.setCall i
      (some (.connect targetId (match m.sessions.get? targetId with
        | some existing => .checking existing (decide (existing.transport ∈ m.closedTransports))
        | none => .opening none)))) := by
  have hlocked : Sound { m with locks := update m.locks targetId (some i) } := by
    refine h.relock (fun j targetId' call _ hlock => ?_) h.returned id
    by_cases htarget : targetId' = targetId
    · rw [htarget, hfree] at hlock
      cases hlock
    · exact (update_of_ne htarget ..).trans hlock
  refine hlocked.setCall (h.notClosedAll hcall) (fun call hi => ?_) (fun call heq => ?_) (h.alone hcall)
  · cases hcall.symm.trans hi
    exact ⟨rfl, fun s stage => Call.noConfusion⟩
  · cases heq
    refine ⟨?_, fun s stage => Call.noConfusion, fun s stage rest => Call.noConfusion⟩
    cases hget : m.sessions.get? targetId with
    | none => exact ⟨update_self .., hget⟩
    | some existing => exact ⟨update_self .., hget, of_decide_eq_false⟩

lemma Sound.resume (h : m.Sound) {ok : Bool} {call : Call} (hcall : m.calls i = some call)
    (hgood : m.Orderly (.resume i ok)) (hstep : m.step (.resume i ok) = some m') : m'.Sound := by
  have hopen := h.notClosedAll hcall
  obtain ⟨hends, hspawn⟩ := hgood call hcall
  simp only [step, hcall] at hstep
  cases call with
  | connect targetId phase => exact h.resumeConnect hcall hends hstep
  | spawnContainerSession host container =>
    have hended : (m.setCall i none).Sound := by
      refine h.setCall hopen (fun before hi => ?_) (fun after heq => absurd heq (some_ne_none after).symm) (h.alone hcall)
      cases hcall.symm.trans hi
      exact ⟨rfl, fun s stage => Call.noConfusion⟩
    cases ok with
    | false =>
      cases hstep
      exact hended
    | true =>
      cases hstep
      obtain ⟨hmapped, hlive, hclosing⟩ := hspawn host container rfl rfl
      refine hended.registerChild hopen hmapped hlive (fun j other stage hj => ?_) (fun j s stage rest hj => ?_) container
      · by_cases hji : j = i
        · subst hji
          cases (update_self ..).symm.trans hj
        · exact hclosing j other stage ((update_of_ne hji ..).symm.trans hj)
      · by_cases hji : j = i
        · subst hji
          cases (update_self ..).symm.trans hj
        · exact h.alone hcall j s stage rest hji ((update_of_ne hji ..).symm.trans hj)
  | closeContainerSession child =>
    obtain rfl := hends (.inl rfl)
    cases hstep
    exact h.closedContainer hcall
  | disconnect session stage =>
    obtain rfl := hends (.inr rfl)
    cases hstep
    exact h.resumeDisconnect hcall
  | closeAll session stage rest =>
    obtain rfl := hends (.inr rfl)
    cases hstep
    exact h.resumeCloseAll hcall

lemma Sound.step (h : m.Sound) {e : ManagerEvent} (hgood : m.Orderly e) (hstep : m.step e = some m') : m'.Sound := by
  cases e with
  | connect i targetId =>
    simp only [SessionManager.step] at hstep
    obtain ⟨hfree, hcall⟩ := start_cases hstep
    cases hcall
    exact h.opened.begin rfl hfree hgood trivial rfl
  | acquire i =>
    simp only [SessionManager.step] at hstep
    split at hstep
    next targetId hcall =>
      split at hstep
      next => cases hstep
      next hlock =>
        cases hstep
        exact h.acquire hcall hlock
    next => cases hstep
  | spawnContainerSession i hostSessionId container =>
    simp only [SessionManager.step] at hstep
    obtain ⟨hfree, hcall⟩ := start_cases hstep
    cases hhost : findHostBySessionId { m with closedAll := false } hostSessionId with
    | none =>
      simp only [hhost] at hcall
      cases hcall
      exact h.opened
    | some host =>
      simp only [hhost] at hcall
      cases hcall
      exact h.opened.begin rfl hfree hgood trivial rfl
  | closeContainerSession i sessionId =>
    simp only [SessionManager.step] at hstep
    obtain ⟨hfree, hcall⟩ := start_cases hstep
    cases hget : m.containerSessions.get? sessionId with
    | none =>
      simp only [hget] at hcall
      cases hcall
      exact h.opened
    | some child =>
      simp only [hget] at hcall
      cases hcall
      exact h.opened.closeContainer rfl hfree hget hgood.1 fun j call s stage hj hclosing => hgood.2 j call s stage hj hclosing
  | disconnect i targetId =>
    simp only [SessionManager.step] at hstep
    obtain ⟨hfree, hcall⟩ := start_cases hstep
    cases hget : m.sessions.get? targetId with
    | none =>
      simp only [hget] at hcall
      cases hcall
      exact h.opened
    | some session =>
      obtain ⟨left, stage, hnext, hsound⟩ := h.opened.disconnect rfl hfree hget hgood.1 hgood.2
      dsimp only at hnext
      simp only [hget, hnext] at hcall
      cases hcall
      exact hsound
  | closeAll i =>
    simp only [SessionManager.step] at hstep
    obtain ⟨-, hcall⟩ := start_cases hstep
    cases hcall
    refine h.opened.closeRest rfl hgood (fun targetId s hs => .inr ?_) (fun sessionId c hc => ?_) fun s hs => ?_
    · exact mem_map.mpr ⟨_, mem_of_get? hs, rfl⟩
    · obtain ⟨s, hmapped | ⟨j, stage, hj⟩, hid⟩ := h.parents sessionId c hc
      · exact ⟨s, mem_map.mpr ⟨_, mem_of_get? hmapped, rfl⟩, hid⟩
      · cases (hgood j).symm.trans hj
    · obtain ⟨item, hmem, rfl⟩ := mem_map.mp hs
      exact (h.sessions item.1 item.2 (get?_of_mem h.hostKeys hmem)).1
  | resume i ok =>
    cases hcall : m.calls i with
    | none => simp only [SessionManager.step, hcall, reduceCtorEq] at hstep
    | some call => exact h.resume hcall hgood hstep

lemma Sound.leaksNothing (h : m.Sound) : m.LeaksNothing := by
  refine ⟨fun s hs => ?_, h.children, h.returned, fun hall _ => ?_⟩
  · rcases h.hosts s hs with hclosed | hmapped | hcall
    · exact .inl hclosed
    · exact .inr (.inl ⟨_, hmapped⟩)
    · exact .inr (.inr hcall)
  · obtain ⟨hsessions, hcontainers, hcalls⟩ := h.closedAll hall
    constructor
    · intro s hs
      rcases h.hosts s hs with hclosed | hmapped | ⟨i, stage, hcall⟩
      · exact hclosed
      · cases (hsessions _).symm.trans hmapped
      · cases (hcalls i).symm.trans hcall
    · intro c hc
      rcases h.children c hc with hclosed | ⟨sessionId, hget⟩ | ⟨i, call, hcall, -⟩
      · exact hclosed
      · cases (hcontainers sessionId).symm.trans hget
      · cases (hcalls i).symm.trans hcall

lemma sound_init : manager.init.Sound where
  hostIds _ hs := absurd hs not_mem_nil
  hostEq _ hs := absurd hs not_mem_nil
  sessions _ _ hs := absurd hs (some_ne_none _).symm
  keys := nodup_nil
  hostKeys := nodup_nil
  containers _ _ hc := absurd hc (some_ne_none _).symm
  closedIds _ hx := absurd hx not_mem_nil
  hosts _ hs := absurd hs not_mem_nil
  children _ hc := absurd hc not_mem_nil
  parents _ _ hc := absurd hc (some_ne_none _).symm
  relies _ _ hcall := absurd hcall (some_ne_none _).symm
  returned _ he := absurd he not_mem_nil
  closedAll hall := absurd hall Bool.false_ne_true

/-- In every run of orderly steps nothing is leaked. -/
theorem reached_leaksNothing (h : manager.Reached SessionManager.Orderly m) : m.LeaksNothing := by
  have hsound : m.Sound := h.invariant sound_init fun _ _ _ hsound hgood hstep => hsound.step hgood hstep
  exact hsound.leaksNothing

/-- A target is connected, and `close_all` closes it. -/
def afterCloseAll : SessionManager :=
  let m : SessionManager := { locks := update (update (fun _ => none) "web" (some 0)) "web" none }
  { m with
    calls := update (update (update (update (update (fun _ => none)
      0 (some (.connect "web" .waiting))) 0 (some (.connect "web" (.opening none)))) 0 none)
      1 (some (.closeAll ⟨0, "web", 0⟩ .transport []))) 1 none
    hosts := [⟨0, "web", 0⟩]
    closedTransports := [0]
    returned := [(⟨0, "web", 0⟩, false)]
    closedAll := true
    next := 1 }

theorem afterCloseAll_leaksNothing : afterCloseAll.LeaksNothing := by
  refine reached_leaksNothing ?_
  have hstart : manager.Reached SessionManager.Orderly manager.init := .start
  have hconnect := hstart.next (connect 0 "web")
    (fun i s stage rest hcall => absurd hcall (some_ne_none _).symm) rfl
  have hacquire := hconnect.next (acquire 0) trivial rfl
  have hopen := hacquire.next (resume 0 true) (by
    intro call hcall
    cases hcall
    exact ⟨fun _ => rfl, fun host container => Call.noConfusion⟩) rfl
  have hcloseAll := hopen.next (closeAll 1) (by
    intro i
    by_cases hi : i = 0
    · subst hi
      rfl
    · exact (update_of_ne hi ..).trans ((update_of_ne hi ..).trans (update_of_ne hi ..))) rfl
  exact hcloseAll.next (resume 1 true) (by
    intro call hcall
    cases hcall
    exact ⟨fun _ => rfl, fun host container => Call.noConfusion⟩) rfl

/-- While `close_all` awaits the end of one target another is connected, and then dropped; and a `connect` returns the
session that `disconnect` has closed after it was found alive. -/
theorem dropped_and_closed : (∃ m, manager.runFrom {} [.connect 0 "web", .acquire 0, .resume 0 true, .closeAll 1,
      .connect 2 "db", .acquire 2, .resume 2 true, .resume 1 true] = some m ∧
      (m.calls 0 = none ∧ m.calls 1 = none ∧ m.calls 2 = none) ∧ m.closedAll = true ∧
      ∃ s ∈ m.hosts, s.transport ∉ m.closedTransports ∧ m.sessions = []) ∧
    ∃ m, manager.runFrom {} [.connect 0 "web", .acquire 0, .resume 0 true, .connect 1 "web", .acquire 1, .disconnect 2 "web",
      .resume 2 true, .resume 1 true] = some m ∧ ∃ e ∈ m.returned, e.2 = true := by
  refine ⟨⟨_, rfl, ⟨rfl, rfl, rfl⟩, rfl, ⟨1, "db", 1⟩, ?_, ?_, rfl⟩, _, rfl, (⟨0, "web", 0⟩, true), ?_, rfl⟩
  · exact mem_cons_of_mem _ mem_cons_self
  · exact fun hmem => absurd (mem_singleton.mp hmem) Nat.one_ne_zero
  · exact mem_cons_of_mem _ mem_cons_self

end SessionManager
end IncidentLens.RemoteOps.Lifecycle
