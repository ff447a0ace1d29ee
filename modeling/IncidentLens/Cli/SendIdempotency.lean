import IncidentLens.Cli.SessionController

/-!
# Keys of messages

While a failed message is pending its key goes to whatever is sent next. As long as that is the message itself,
and nothing else ends meanwhile, every key stands for one message.
-/
namespace IncidentLens.Cli.Sending
open Data Effects Idempotency Exchange List

section
variable (principalId : String) (requestSha256 : String → String → String)

/-- The row of a message is of a request with the same hash, and a response in it is that of the message. -/
structure AnswersMessage (s : Exchange) (message : SentMessage) (row : IdempotencyRecord) : Prop where
  noConflict : (existingReservation row (requestSha256 message.sessionId message.content)).status ≠ .conflict
  hash : row.requestSha256 = requestSha256 message.sessionId message.content
  replay : row.state = .completed → ∃ e ∈ s.executed, row.responseJson = some e.2 ∧
    e.1.sessionId = message.sessionId ∧ e.1.content = message.content

/-- Every key stands for one message, and a message that failed is sent again with its key. -/
structure OneMessagePerKey (s : Exchange) : Prop where
  sameMessage : ∀ m ∈ s.requests, ∀ m' ∈ s.requests, m.idempotencyKey = m'.idempotencyKey →
    m.sessionId = m'.sessionId ∧ m.content = m'.content
  retried : ∀ attempt ∈ s.attempts, ∀ failure ∈ attempt.unanswered, failure.content = attempt.message.content →
    attempt.message.idempotencyKey = failure.idempotencyKey
  answered : ∀ m ∈ s.requests, ∀ row, s.rows.get (recordKey principalId m) = some row → AnswersMessage requestSha256 s m row

/-- While a message is pending nothing but itself goes out, and nothing with another key ends. -/
def Careful (s : Exchange) : ExchangeMove → Prop
  | .request i _ => ∀ text session pending, s.controller.sends[i]? = some ⟨text, .resolved session⟩ →
      s.controller.pendingSend = some pending → session.sessionId = pending.sessionId ∧
        ∀ m ∈ s.requests, m.idempotencyKey = pending.idempotencyKey → m.content = text
  | .accepted i | .failed i => ∀ message pending, s.phase? i = some (.requested message) →
      s.controller.pendingSend = some pending → pending.idempotencyKey = message.idempotencyKey
  | _ => True

/-- A row is of a message, and a response in it of an action under the same key. -/
def ServedRow (requests : List SentMessage) (executed : List (SentMessage × String)) (key : RecordKey) (row : IdempotencyRecord) :
    Prop :=
  ∃ m ∈ requests, key = recordKey principalId m ∧ row.requestSha256 = requestSha256 m.sessionId m.content ∧
    (row.state = .completed → ∃ e ∈ executed, recordKey principalId e.1 = key ∧ row.responseJson = some e.2)

/-- The rows come from requests that were sent, and their responses from actions of these. -/
structure ServedFrom (s : Exchange) : Prop where
  rows : ∀ key row, s.rows.get key = some row → ServedRow principalId requestSha256 s.requests s.executed key row
  running : ∀ m ∈ s.running, m ∈ s.requests
  executed : ∀ e ∈ s.executed, e.1 ∈ s.requests

/-- What is pending was sent, and all that failed has its key. -/
structure Tidy (s : Exchange) : Prop where
  sameMessage : ∀ m ∈ s.requests, ∀ m' ∈ s.requests, m.idempotencyKey = m'.idempotencyKey →
    m.sessionId = m'.sessionId ∧ m.content = m'.content
  retried : ∀ attempt ∈ s.attempts, ∀ failure ∈ attempt.unanswered, failure.content = attempt.message.content →
    attempt.message.idempotencyKey = failure.idempotencyKey
  pending : ∀ pending, s.controller.pendingSend = some pending →
    ∃ m ∈ s.requests, m.idempotencyKey = pending.idempotencyKey ∧ m.sessionId = pending.sessionId
  failures : ∀ failure ∈ s.failures, ∃ pending, s.controller.pendingSend = some pending ∧
    failure.idempotencyKey = pending.idempotencyKey
  sent : ∀ i m, s.phase? i = some (.requested m) → m ∈ s.requests

variable {principalId requestSha256} {s t : Exchange}

/-! ### The controller -/

/-- Nothing but the phases of sends, the target and the session is changed, and nothing becomes a request. -/
structure Quiet (s t : Exchange) : Prop where
  attempts : t.attempts = s.attempts
  failures : t.failures = s.failures
  pendingSend : t.controller.pendingSend = s.controller.pendingSend
  sent : ∀ i m, t.phase? i = some (.requested m) → s.phase? i = some (.requested m)

lemma Tidy.quiet (h : Tidy s) (hquiet : Quiet s t) : Tidy t := by
  have hrequests : t.requests = s.requests := congrArg (map Attempt.message) hquiet.attempts
  constructor
  · rw [hrequests]
    exact h.sameMessage
  · rw [hquiet.attempts]
    exact h.retried
  · rw [hquiet.pendingSend, hrequests]
    exact h.pending
  · rw [hquiet.failures, hquiet.pendingSend]
    exact h.failures
  · intro i m hm
    rw [hrequests]
    exact h.sent i m (hquiet.sent i m hm)

lemma phase?_setPhase (s : Exchange) (i : ℕ) (phase : SendPhase) (k : ℕ) :
    (s.setPhase i phase).phase? k = if i = k then (s.phase? k).map fun _ => phase else s.phase? k := by
  rw [phase?, setPhase, withController, phase?, getElem?_modify]
  by_cases hk : i = k
  · rw [if_pos hk]
    cases s.controller.sends[k]? <;> simp [hk]
  · rw [if_neg hk]
    cases s.controller.sends[k]? <;> simp [hk]

lemma quiet_setPhase (s : Exchange) (i : ℕ) (phase : SendPhase) (hphase : ∀ m, phase ≠ .requested m) :
    Quiet s (s.setPhase i phase) := by
  refine ⟨rfl, rfl, rfl, fun k m hm => ?_⟩
  rw [phase?_setPhase] at hm
  split_ifs at hm
  · obtain ⟨_, -, hsame⟩ := Option.map_eq_some_iff.mp hm
    exact absurd hsame (hphase m)
  · exact hm

lemma resolveSession_ne_requested (c : SessionController) (target : String) (m : SentMessage) :
    c.resolveSession target ≠ .requested m := by
  unfold SessionController.resolveSession
  split
  · split
    · split_ifs <;> exact SendPhase.noConfusion
    · exact SendPhase.noConfusion
  · split
    · split_ifs <;> exact SendPhase.noConfusion
    · exact SendPhase.noConfusion

lemma quiet_submit (s : Exchange) (text target : String) : Quiet s
    (s.withController { s.controller with sends := s.controller.sends ++ [⟨text, s.controller.resolveSession target⟩] }) := by
  refine ⟨rfl, rfl, rfl, fun i m hm => ?_⟩
  simp only [phase?, withController, getElem?_append] at hm ⊢
  split_ifs at hm
  · exact hm
  · obtain ⟨send, hsend, hphase⟩ := Option.map_eq_some_iff.mp hm
    obtain rfl := mem_singleton.mp (mem_of_getElem? hsend)
    exact absurd hphase (resolveSession_ne_requested _ _ m)

lemma Tidy.request {i : ℕ} {text freshKey : String} {session : AgentSession} (h : Tidy s)
    (hsend : s.controller.sends[i]? = some ⟨text, .resolved session⟩) (hcareful : Careful s (.request i freshKey))
    (hstep : s.request i ⟨text, .resolved session⟩ session freshKey = some t) : Tidy t := by
  have hphase : ∀ (key : String) k m, (s.setPhase i (.requested ⟨session.sessionId, key, text⟩)).phase? k = some (.requested m) →
      m ∈ s.requests ++ [⟨session.sessionId, key, text⟩] := by
    intro key k m hm
    rw [phase?_setPhase] at hm
    split_ifs at hm
    · obtain ⟨_, -, hsame⟩ := Option.map_eq_some_iff.mp hm
      cases hsame
      exact mem_append_right _ (mem_singleton_self _)
    · exact mem_append_left _ (h.sent k m hm)
  have hsent : ∀ key : String, (s.attempts ++ [(⟨⟨session.sessionId, key, text⟩, s.failures⟩ : Attempt)]).map Attempt.message =
      s.requests ++ [⟨session.sessionId, key, text⟩] := fun key => map_append
  -- what is left to show of a key is that it stands for this message only, and that it is that of the failures
  have htidy : ∀ key, (∀ m ∈ s.requests, m.idempotencyKey = key → m.sessionId = session.sessionId ∧ m.content = text) →
      (∀ failure ∈ s.failures, failure.content = text → key = failure.idempotencyKey) →
      Tidy { s.setPhase i (.requested ⟨session.sessionId, key, text⟩) with
        attempts := s.attempts ++ [⟨⟨session.sessionId, key, text⟩, s.failures⟩] } := by
    intro key hsame hretried
    constructor
    · simp only [requests, hsent]
      intro m hm m' hm' hkey
      rcases mem_append.mp hm with hm | hm <;> rcases mem_append.mp hm' with hm' | hm'
      · exact h.sameMessage m hm m' hm' hkey
      · cases mem_singleton.mp hm'
        exact hsame m hm hkey
      · cases mem_singleton.mp hm
        exact (hsame m' hm' hkey.symm).imp Eq.symm Eq.symm
      · cases mem_singleton.mp hm
        cases mem_singleton.mp hm'
        exact ⟨rfl, rfl⟩
    · intro attempt hattempt
      rcases mem_append.mp hattempt with hattempt | hattempt
      · exact h.retried attempt hattempt
      · cases mem_singleton.mp hattempt
        exact hretried
    · simp only [requests, hsent]
      intro pending hpending
      obtain ⟨m, hm, hsession⟩ := h.pending pending hpending
      exact ⟨m, mem_append_left _ hm, hsession⟩
    · exact h.failures
    · simp only [requests, hsent]
      exact hphase key
  unfold Exchange.request at hstep
  cases hpending : s.controller.pendingSend with
  | none =>
    have hkey : s.controller.pendingKey session.sessionId = none := by
      rw [SessionController.pendingKey, hpending]
      rfl
    have hnone : ∀ failure ∈ s.failures, failure.content = text → freshKey = failure.idempotencyKey := by
      intro failure hfailure
      obtain ⟨pending, hsome, -⟩ := h.failures failure hfailure
      rw [hpending] at hsome
      cases hsome
    rw [hkey] at hstep
    split_ifs at hstep with hfresh
    cases hstep
    refine htidy freshKey (fun m hm hsame => ?_) hnone
    exact absurd (any_eq_true.mpr ⟨m, hm, decide_eq_true hsame⟩) hfresh
  | some pending =>
    obtain ⟨hsession, hcontent⟩ := hcareful text session pending hsend hpending
    have hkey : s.controller.pendingKey session.sessionId = some pending.idempotencyKey := by
      rw [SessionController.pendingKey, hpending, Option.filter_some, if_pos (decide_eq_true hsession.symm)]
      rfl
    rw [hkey] at hstep
    cases hstep
    refine htidy pending.idempotencyKey (fun m hm hsame => ⟨?_, hcontent m hm hsame⟩) fun failure hfailure _ => ?_
    · obtain ⟨m', hm', hkey', hsession'⟩ := h.pending pending hpending
      rw [hsession, ← hsession']
      exact (h.sameMessage m hm m' hm' (hsame.trans hkey'.symm)).1
    · obtain ⟨pending', hpending', hsame⟩ := h.failures failure hfailure
      cases hpending.symm.trans hpending'
      exact hsame.symm

lemma Tidy.accepted {i : ℕ} {message : SentMessage} (h : Tidy s) (hphase : s.phase? i = some (.requested message))
    (hcareful : Careful s (.accepted i)) : Tidy (s.accepted i message) := by
  have hquiet := h.quiet (quiet_setPhase s i .over fun _ => SendPhase.noConfusion)
  refine ⟨hquiet.sameMessage, hquiet.retried, ?_, ?_, hquiet.sent⟩
  · intro pending hpending
    cases hpending
  · intro failure hfailure
    obtain ⟨hfailure, hother⟩ := mem_filter.mp hfailure
    obtain ⟨pending, hpending, hsame⟩ := h.failures failure hfailure
    exact absurd (hsame.trans (hcareful message pending hphase hpending)) (of_decide_eq_true hother)

lemma Tidy.failed {i : ℕ} {message : SentMessage} (h : Tidy s) (hphase : s.phase? i = some (.requested message))
    (hcareful : Careful s (.failed i)) : Tidy (s.failed i message) := by
  have hquiet := h.quiet (quiet_setPhase s i .over fun _ => SendPhase.noConfusion)
  refine ⟨hquiet.sameMessage, hquiet.retried, ?_, ?_, hquiet.sent⟩
  · intro pending hpending
    cases hpending
    exact ⟨message, h.sent i message hphase, rfl, rfl⟩
  · intro failure hfailure
    refine ⟨_, rfl, ?_⟩
    rcases mem_append.mp hfailure with hold | hnew
    · obtain ⟨pending, hpending, hsame⟩ := h.failures failure hold
      exact hsame.trans (hcareful message pending hphase hpending)
    · rw [mem_singleton.mp hnew]

lemma Tidy.step {move : ExchangeMove} (h : Tidy s) (hcareful : Careful s move)
    (hstep : s.step principalId requestSha256 move = some t) : Tidy t := by
  cases move with
  | sync target session =>
    cases hstep
    exact h.quiet ⟨rfl, rfl, rfl, fun _ _ hm => hm⟩
  | select session =>
    cases hstep
    exact h.quiet ⟨rfl, rfl, rfl, fun _ _ hm => hm⟩
  | submit text =>
    obtain ⟨target, -, rfl⟩ := Option.map_eq_some_iff.mp hstep
    exact h.quiet (quiet_submit s text target)
  | fetched i targetId =>
    simp only [Exchange.step] at hstep
    split at hstep
    · cases hstep
      refine h.quiet (quiet_setPhase s i _ fun m => ?_)
      cases targetId <;> exact SendPhase.noConfusion
    · cases hstep
  | created i sessionId =>
    simp only [Exchange.step] at hstep
    split at hstep
    next target _ =>
      cases sessionId with
      | some sessionId =>
        cases hstep
        have hquiet := quiet_setPhase s i (.persisting ⟨sessionId, target⟩) fun _ => SendPhase.noConfusion
        exact h.quiet ⟨rfl, rfl, rfl, hquiet.sent⟩
      | none =>
        cases hstep
        exact h.quiet (quiet_setPhase s i _ fun _ => SendPhase.noConfusion)
    · cases hstep
  | persisted i saved =>
    simp only [Exchange.step] at hstep
    split at hstep
    · cases hstep
      refine h.quiet (quiet_setPhase s i _ fun m => ?_)
      cases saved <;> exact SendPhase.noConfusion
    · cases hstep
  | request i freshKey =>
    simp only [Exchange.step] at hstep
    split at hstep
    · exact h.request ‹_› hcareful hstep
    · cases hstep
  | accepted i =>
    simp only [Exchange.step] at hstep
    split at hstep
    · cases hstep
      exact h.accepted ‹_› hcareful
    · cases hstep
  | failed i =>
    simp only [Exchange.step] at hstep
    split at hstep
    · cases hstep
      exact h.failed ‹_› hcareful
    · cases hstep
  | arrive j now =>
    obtain ⟨message, -, rfl⟩ := Option.map_eq_some_iff.mp hstep
    unfold arrive
    split
    · exact h.quiet ⟨rfl, rfl, rfl, fun _ _ hm => hm⟩
    · exact h.quiet ⟨rfl, rfl, rfl, fun _ _ hm => hm⟩
  | finish j outcome now =>
    obtain ⟨message, -, rfl⟩ := Option.map_eq_some_iff.mp hstep
    exact h.quiet ⟨rfl, rfl, rfl, fun _ _ hm => hm⟩
  | prune now =>
    cases hstep
    exact h.quiet ⟨rfl, rfl, rfl, fun _ _ hm => hm⟩

/-! ### The server -/

lemma ServedRow.mono {requests requests' : List SentMessage} {executed executed' : List (SentMessage × String)} {key : RecordKey}
    {row : IdempotencyRecord} (h : ServedRow principalId requestSha256 requests executed key row)
    (hrequests : ∀ m ∈ requests, m ∈ requests') (hexecuted : ∀ e ∈ executed, e ∈ executed') :
    ServedRow principalId requestSha256 requests' executed' key row := by
  obtain ⟨m, hm, hkey, hhash, hresponse⟩ := h
  refine ⟨m, hrequests m hm, hkey, hhash, fun hstate => ?_⟩
  obtain ⟨e, he, hsame⟩ := hresponse hstate
  exact ⟨e, hexecuted e he, hsame⟩

lemma ServedFrom.grow (h : ServedFrom principalId requestSha256 s) (hrows : t.rows = s.rows) (hrunning : t.running = s.running)
    (hexecuted : t.executed = s.executed) (hrequests : ∀ m ∈ s.requests, m ∈ t.requests) :
    ServedFrom principalId requestSha256 t := by
  constructor
  · rw [hrows, hexecuted]
    exact fun key row hrow => (h.rows key row hrow).mono hrequests fun _ he => he
  · rw [hrunning]
    exact fun m hm => hrequests m (h.running m hm)
  · rw [hexecuted]
    exact fun e he => hrequests e.1 (h.executed e he)

lemma ServedFrom.prune (h : ServedFrom principalId requestSha256 s) (now : DateTime) :
    ServedFrom principalId requestSha256 { s with rows := pruneExpired s.rows now } :=
  ⟨fun key row hrow => h.rows key row (get_pruneExpired.mp hrow).1, h.running, h.executed⟩

lemma ServedFrom.arrive {message : SentMessage} (h : ServedFrom principalId requestSha256 s) (hmessage : message ∈ s.requests)
    (now : DateTime) : ServedFrom principalId requestSha256 (s.arrive principalId requestSha256 message now) := by
  unfold Exchange.arrive
  have hbegun := beginIdempotent_begun s.rows (serverRequest principalId requestSha256 message) now
  generalize beginIdempotent s.rows (serverRequest principalId requestSha256 message) now = begun at hbegun
  cases hbegun with
  | refused e => exact h
  | occupied e => exact h.prune now
  | replayed row stored completed same responseJson body => exact h.prune now
  | started expiresAt lease free =>
    have hprune := h.prune now
    refine ⟨fun key row hrow => ?_, fun m hm => ?_, h.executed⟩
    · rw [Table.get_put] at hrow
      split_ifs at hrow with hkey
      · cases hrow
        exact ⟨message, hmessage, hkey, rfl, fun hstate => by cases hstate⟩
      · exact hprune.rows key row hrow
    · rcases mem_append.mp hm with hold | hnew
      · exact h.running m hold
      · rw [mem_singleton.mp hnew]
        exact hmessage

lemma ServedFrom.update (h : ServedFrom principalId requestSha256 s) {key : RecordKey} {set : IdempotencyRecord → IdempotencyRecord}
    {executed : List (SentMessage × String)} (hexecuted : ∀ e ∈ s.executed, e ∈ executed) (hkey : ∀ row, (set row).key = row.key)
    (hhash : ∀ row, (set row).requestSha256 = row.requestSha256)
    (hresponse : ∀ row, row.state = .inProgress → (set row).state = .completed →
      ∃ e ∈ executed, recordKey principalId e.1 = key ∧ (set row).responseJson = some e.2) {k : RecordKey} {row : IdempotencyRecord}
    (hrow : (updateInProgress s.rows key set).get k = some row) : ServedRow principalId requestSha256 s.requests executed k row := by
  rw [get_updateInProgress s.rows key hkey] at hrow
  split_ifs at hrow with hsame
  · obtain ⟨stored, hstored, hset⟩ := Option.map_eq_some_iff.mp hrow
    obtain ⟨m, hm, hof, hsha, hold⟩ := h.rows k stored hstored
    split_ifs at hset with hstate
    · subst hset hsame
      exact ⟨m, hm, hof, (hhash stored).trans hsha, hresponse stored hstate⟩
    · subst hset
      exact ServedRow.mono ⟨m, hm, hof, hsha, hold⟩ (fun _ hm => hm) hexecuted
  · exact (h.rows k row hrow).mono (fun _ hm => hm) hexecuted

lemma ServedFrom.finish {message : SentMessage} (h : ServedFrom principalId requestSha256 s) (hmessage : message ∈ s.requests)
    (outcome : Outcome) (now : DateTime) :
    ServedFrom principalId requestSha256 (s.finish principalId requestSha256 message outcome now) := by
  have hexecuted : ∀ e ∈ s.executed, e ∈ (s.finish principalId requestSha256 message outcome now).executed :=
    fun e he => mem_append_left _ he
  refine ⟨fun key row hrow => ?_, h.running, fun e he => ?_⟩
  · have hsettled := endIdempotent_settled s.rows (recordKey principalId message) outcome now
    change (endIdempotent s.rows (recordKey principalId message) outcome now).2.get key = some row at hrow
    generalize (endIdempotent s.rows (recordKey principalId message) outcome now).2 = rows at hsettled hrow
    cases hsettled with
    | same => exact (h.rows key row hrow).mono (fun _ hm => hm) hexecuted
    | completed statusCode responseJson expiresAt success =>
      refine h.update hexecuted ?_ ?_ (fun _ _ _ => ?_) hrow
      · exact fun _ => rfl
      · exact fun _ => rfl
      refine ⟨(message, responseJson), mem_append_right _ ?_, rfl, rfl⟩
      rw [success.1, Outcome.answers, if_pos success.2]
      exact mem_singleton_self _
    | rearmed expiresAt =>
      refine h.update hexecuted ?_ ?_ (fun stored hstate hcompleted => ?_) hrow
      · exact fun _ => rfl
      · exact fun _ => rfl
      rw [hstate] at hcompleted
      cases hcompleted
  · rcases mem_append.mp he with hold | hnew
    · exact h.executed e hold
    · obtain ⟨answer, -, rfl⟩ := mem_map.mp hnew
      exact hmessage

lemma request_requests {i : ℕ} {send : Send} {session : AgentSession} {freshKey : String}
    (hstep : s.request i send session freshKey = some t) : t.rows = s.rows ∧ t.running = s.running ∧
      t.executed = s.executed ∧ ∀ m ∈ s.requests, m ∈ t.requests := by
  have hgrow : ∀ attempt : Attempt, ∀ m ∈ s.requests, m ∈ (s.attempts ++ [attempt]).map Attempt.message := by
    intro attempt m hm
    rw [map_append]
    exact mem_append_left _ hm
  unfold request at hstep
  split at hstep
  · cases hstep
    exact ⟨rfl, rfl, rfl, hgrow _⟩
  · split_ifs at hstep
    cases hstep
    exact ⟨rfl, rfl, rfl, hgrow _⟩

lemma ServedFrom.step {move : ExchangeMove} (h : ServedFrom principalId requestSha256 s)
    (hstep : s.step principalId requestSha256 move = some t) : ServedFrom principalId requestSha256 t := by
  have hsent : ∀ {t : Exchange}, t.rows = s.rows → t.running = s.running → t.executed = s.executed → t.attempts = s.attempts →
      ServedFrom principalId requestSha256 t := by
    intro t hrows hrunning hexecuted hattempts
    refine h.grow hrows hrunning hexecuted fun m hm => ?_
    rw [requests, hattempts]
    exact hm
  cases move with
  | sync target session =>
    cases hstep
    exact hsent rfl rfl rfl rfl
  | select session =>
    cases hstep
    exact hsent rfl rfl rfl rfl
  | submit text =>
    obtain ⟨target, -, rfl⟩ := Option.map_eq_some_iff.mp hstep
    exact hsent rfl rfl rfl rfl
  | fetched i targetId =>
    simp only [Exchange.step] at hstep
    split at hstep
    · cases hstep
      exact hsent rfl rfl rfl rfl
    · cases hstep
  | created i sessionId =>
    simp only [Exchange.step] at hstep
    split at hstep
    · cases sessionId <;> cases hstep <;> exact hsent rfl rfl rfl rfl
    · cases hstep
  | persisted i saved =>
    simp only [Exchange.step] at hstep
    split at hstep
    · cases hstep
      exact hsent rfl rfl rfl rfl
    · cases hstep
  | request i freshKey =>
    simp only [Exchange.step] at hstep
    split at hstep
    · obtain ⟨hrows, hrunning, hexecuted, hrequests⟩ := request_requests hstep
      exact h.grow hrows hrunning hexecuted hrequests
    · cases hstep
  | accepted i =>
    simp only [Exchange.step] at hstep
    split at hstep
    · cases hstep
      exact hsent rfl rfl rfl rfl
    · cases hstep
  | failed i =>
    simp only [Exchange.step] at hstep
    split at hstep
    · cases hstep
      exact hsent rfl rfl rfl rfl
    · cases hstep
  | arrive j now =>
    obtain ⟨message, hmessage, rfl⟩ := Option.map_eq_some_iff.mp hstep
    exact h.arrive (mem_of_getElem? hmessage) now
  | finish j outcome now =>
    obtain ⟨message, hmessage, rfl⟩ := Option.map_eq_some_iff.mp hstep
    have hfinish := h.finish (h.running message (mem_of_getElem? hmessage)) outcome now
    exact ⟨hfinish.rows, fun m hm => h.running m (mem_of_mem_eraseIdx hm), hfinish.executed⟩
  | prune now =>
    cases hstep
    exact h.prune now

/-! ### Runs -/

lemma idempotencyKey_of_recordKey {m m' : SentMessage} (h : recordKey principalId m = recordKey principalId m') :
    m.idempotencyKey = m'.idempotencyKey :=
  congrArg RecordKey.idempotencyKey h

lemma Tidy.oneMessagePerKey (htidy : Tidy s) (hserved : ServedFrom principalId requestSha256 s) :
    OneMessagePerKey principalId requestSha256 s := by
  refine ⟨htidy.sameMessage, htidy.retried, fun m hm row hrow => ?_⟩
  obtain ⟨m', hm', hkey, hhash, hresponse⟩ := hserved.rows _ row hrow
  obtain ⟨hsession, hcontent⟩ := htidy.sameMessage m hm m' hm' (idempotencyKey_of_recordKey hkey)
  have hsame : row.requestSha256 = requestSha256 m.sessionId m.content := by rw [hhash, hsession, hcontent]
  refine ⟨?_, hsame, fun hstate => ?_⟩
  · unfold existingReservation
    cases hstate : row.state with
    | completed => simp [hsame]
    | inProgress => simp
  · obtain ⟨e, he, hof, hjson⟩ := hresponse hstate
    obtain ⟨hsession', hcontent'⟩ := htidy.sameMessage e.1 (hserved.executed e he) m hm (idempotencyKey_of_recordKey hof)
    exact ⟨e, he, hjson, hsession', hcontent'⟩

variable (principalId requestSha256)

/-- In every run in which only the pending message goes out while there is one, and nothing else ends
meanwhile, a key stands for one message and a retry has the key of what failed. -/
theorem reached_oneMessagePerKey (s : Exchange) (hs : (exchange principalId requestSha256).Reached Careful s) :
    OneMessagePerKey principalId requestSha256 s := by
  have hinv : Tidy s ∧ ServedFrom principalId requestSha256 s := by
    have hstep : ∀ s e t, Tidy s ∧ ServedFrom principalId requestSha256 s → Careful s e →
        (exchange principalId requestSha256).step s e = some t → Tidy t ∧ ServedFrom principalId requestSha256 t :=
      fun _ _ _ h hcareful hstep => ⟨h.1.step hcareful hstep, h.2.step hstep⟩
    refine hs.invariant ⟨?_, ?_⟩ hstep
    · refine ⟨?_, ?_, ?_, ?_, ?_⟩
      · rintro m ⟨⟩
      · rintro attempt ⟨⟩
      · rintro pending ⟨⟩
      · rintro failure ⟨⟩
      · rintro i m ⟨⟩
    · refine ⟨?_, ?_, ?_⟩
      · rintro key row ⟨⟩
      · rintro m ⟨⟩
      · rintro e ⟨⟩
  exact hinv.1.oneMessagePerKey hinv.2

end

def joined (sessionId content : String) : String := sessionId ++ "/" ++ content

/-- A message is sent and the server takes it, but the answer is lost; then a text is sent again. -/
def answerLost (again : String) : List ExchangeMove :=
  [.sync (some "tgt-prod") (some ⟨"ses-1", "tgt-prod"⟩), .submit "restart checkout", .request 0 "key-1", .arrive 0 (minute 0),
    .finish 0 (.returned 202 "queued: restart checkout") (minute 1), .failed 0, .submit again, .request 1 "key-2"]

/-- The key of the lost answer is sent again, and the answer is replayed. -/
theorem message_retried : ∃ s, (exchange "operator" joined).runFrom {} (answerLost "restart checkout") = some s ∧
    s.requests.map SentMessage.idempotencyKey = ["key-1", "key-1"] ∧ OneMessagePerKey "operator" joined s := by
  have hsync : (exchange "operator" joined).Reached Careful _ :=
    .next (ExchangeMove.sync (some "tgt-prod") (some ⟨"ses-1", "tgt-prod"⟩)) .start trivial rfl
  have hsent := hsync.next (ExchangeMove.submit "restart checkout") trivial rfl
  have hrequested := hsent.next (ExchangeMove.request 0 "key-1") (by rintro text session pending - ⟨⟩) rfl
  have harrived := hrequested.next (ExchangeMove.arrive 0 (minute 0)) trivial rfl
  have hfinished := harrived.next (ExchangeMove.finish 0 (.returned 202 "queued: restart checkout") (minute 1)) trivial rfl
  have hfailed := hfinished.next (ExchangeMove.failed 0) (by rintro message pending - ⟨⟩) rfl
  have hagain := hfailed.next (ExchangeMove.submit "restart checkout") trivial rfl
  have hretried := hagain.next (ExchangeMove.request 1 "key-2") (by
    rintro text session pending ⟨⟩ ⟨⟩
    refine ⟨rfl, fun m hm _ => ?_⟩
    rw [mem_singleton.mp hm]) rfl
  exact ⟨_, rfl, rfl, reached_oneMessagePerKey "operator" joined _ hretried⟩

/-- Another text takes the key of the lost answer, and the server refuses it. -/
theorem other_text_refused : ∃ s, (exchange "operator" joined).runFrom {} (answerLost "what about payments?") = some s ∧
    s.requests.map (fun m => (m.idempotencyKey, m.content)) = [("key-1", "restart checkout"), ("key-1", "what about payments?")] ∧
    ¬ OneMessagePerKey "operator" joined s := by
  refine ⟨_, rfl, rfl, fun h => ?_⟩
  have hrefused := (h.answered ⟨"ses-1", "key-1", "what about payments?"⟩ (mem_cons_of_mem _ mem_cons_self) _ rfl).noConflict
  exact hrefused rfl

end IncidentLens.Cli.Sending
