import IncidentLens.Investigations.Resolution

/-!
# Resolutions agree with the store

An approved call leaves its waiting status for good when its execution is started, so it is
started once, and what is over stays over. A block that is placed in the transcript shows the
status on which the call has landed, unless the approval could not be consumed: then the call has
failed and the block still waits.
-/
namespace IncidentLens.Investigations
open Data Effects Approvals StateError Walks InvestigationStatus List

section Statuses

lemma AgentRunStatus.over_of_canTransition {status target : AgentRunStatus}
    (hmove : agentRunStateMachine.canTransition status target = true) (h : status.over = true) : target.over = true := by
  revert hmove h
  cases status <;> cases target <;> decide

lemma InvestigationStatus.over_of_canTransition {status target : InvestigationStatus}
    (hmove : investigationStateMachine.canTransition status target = true) (h : status.over = true) :
    target.over = true := by
  revert hmove h
  cases status <;> cases target <;> decide

def ToolCallStatus.settled (status : ToolCallStatus) : Bool := status ≠ .planned && status ≠ .waitingApproval

/-- What becomes of a call: it stays on its terminal status, and settled if it is held. -/
structure Leads (held : Prop) (status status' : ToolCallStatus) : Prop where
  terminal : toolCallStateMachine.isTerminal status = true → status' = status
  settled : held → status.settled = true → status'.settled = true

variable {held : Prop}

lemma Leads.refl (status : ToolCallStatus) : Leads held status status := ⟨fun _ => rfl, fun _ h => h⟩

lemma Leads.trans {a b c : ToolCallStatus} (h : Leads held a b) (h' : Leads held b c) : Leads held a c := by
  refine ⟨fun ha => ?_, fun hheld ha => h'.settled hheld (h.settled hheld ha)⟩
  have hb := h.terminal ha
  rw [← hb] at ha
  rw [h'.terminal ha, hb]

lemma leads_of_canTransition {status target : ToolCallStatus}
    (hmove : toolCallStateMachine.canTransition status target = true) (htarget : held → target ≠ .waitingApproval) :
    Leads held status target := by
  refine ⟨fun hterminal => ?_, fun hheld _ => ?_⟩
  · rw [StateMachine.not_canTransition_of_isTerminal _ hterminal] at hmove
    cases hmove
  · have hplanned : target ≠ .planned := by
      rintro rfl
      revert hmove
      cases status <;> decide
    simp [ToolCallStatus.settled, hplanned, htarget hheld]

end Statuses

structure Advances (held : String → Prop) (s s' : Store) : Prop where
  runs : ∀ id r, s.runs.get id = some r → ∃ r', s'.runs.get id = some r' ∧ (r.status.over = true → r'.status.over = true)
  investigations : ∀ id i, s.investigations.get id = some i →
    ∃ i', s'.investigations.get id = some i' ∧ (i.status.over = true → i'.status.over = true)
  calls : ∀ id c, s.toolCalls.get id = some c → ∃ c', s'.toolCalls.get id = some c' ∧ Leads (held id) c.status c'.status

section Stores
variable {held : String → Prop} {s t u : Store}

lemma Advances.refl (s : Store) : Advances held s s :=
  ⟨fun _ r hr => ⟨r, hr, id⟩, fun _ i hi => ⟨i, hi, id⟩, fun _ c hc => ⟨c, hc, .refl _⟩⟩

lemma Advances.trans (h : Advances held s t) (h' : Advances held t u) : Advances held s u := by
  refine ⟨fun id r hr => ?_, fun id i hi => ?_, fun id c hc => ?_⟩
  · obtain ⟨r', hr', hover⟩ := h.runs id r hr
    obtain ⟨r'', hr'', hover'⟩ := h'.runs id r' hr'
    exact ⟨r'', hr'', hover' ∘ hover⟩
  · obtain ⟨i', hi', hover⟩ := h.investigations id i hi
    obtain ⟨i'', hi'', hover'⟩ := h'.investigations id i' hi'
    exact ⟨i'', hi'', hover' ∘ hover⟩
  · obtain ⟨c', hc', hleads⟩ := h.calls id c hc
    obtain ⟨c'', hc'', hleads'⟩ := h'.calls id c' hc'
    exact ⟨c'', hc'', hleads.trans hleads'⟩

lemma advances_putRun {r r' : AgentRun} (hr : s.runs.get r'.agentRunId = some r)
    (hover : r.status.over = true → r'.status.over = true) : Advances held s { s with runs := s.runs.put r' } := by
  refine ⟨fun id stored hstored => ?_, fun _ i hi => ⟨i, hi, id⟩, fun _ c hc => ⟨c, hc, .refl _⟩⟩
  by_cases hid : id = r'.agentRunId
  · subst hid
    rw [hr] at hstored
    cases hstored
    exact ⟨r', s.runs.get_put_self r', hover⟩
  · exact ⟨stored, by rw [← hstored]; exact s.runs.get_put_of_ne hid, fun h => h⟩

lemma advances_putInvestigation {i i' : Investigation} (hi : s.investigations.get i'.investigationId = some i)
    (hover : i.status.over = true → i'.status.over = true) :
    Advances held s { s with investigations := s.investigations.put i' } := by
  refine ⟨fun _ r hr => ⟨r, hr, id⟩, fun id stored hstored => ?_, fun _ c hc => ⟨c, hc, .refl _⟩⟩
  by_cases hid : id = i'.investigationId
  · subst hid
    rw [hi] at hstored
    cases hstored
    exact ⟨i', s.investigations.get_put_self i', hover⟩
  · exact ⟨stored, by rw [← hstored]; exact s.investigations.get_put_of_ne hid, fun h => h⟩

lemma advances_putCall {c d : ToolCall} (hc : s.toolCalls.get d.toolCallId = some c)
    (hleads : Leads (held d.toolCallId) c.status d.status) :
    Advances held s { s with toolCalls := s.toolCalls.put d } := by
  refine ⟨fun _ r hr => ⟨r, hr, id⟩, fun _ i hi => ⟨i, hi, id⟩, fun id stored hstored => ?_⟩
  by_cases hid : id = d.toolCallId
  · subst hid
    rw [hc] at hstored
    cases hstored
    exact ⟨d, s.toolCalls.get_put_self d, hleads⟩
  · exact ⟨stored, by rw [← hstored]; exact s.toolCalls.get_put_of_ne hid, .refl _⟩

variable (held)

lemma transitionToolCallStatus_advances {toolCallId : String} {target : ToolCallStatus} {record : ToolCall → ToolCall}
    (htarget : held toolCallId → target ≠ .waitingApproval) (s : Store) :
    wp (transitionToolCallStatus toolCallId target record) (fun r t => Advances held s t ∧ t.runs = s.runs ∧
      t.investigations = s.investigations ∧
      (r = .ok ⟨⟩ → ∃ c, t.toolCalls.get toolCallId = some c ∧ c.status = target)) s := by
  simp only [transitionToolCallStatus, getToolCall, wp_bind, wp_get]
  cases hc : s.toolCalls.get toolCallId with
  | none => exact ⟨.refl s, rfl, rfl, by rintro ⟨⟩⟩
  | some c =>
    have hkey : c.toolCallId = toolCallId := s.toolCalls.keyed _ _ hc
    by_cases hmove : toolCallStateMachine.canTransition c.status target = true
    · simp only [wp_pure, if_pos hmove, putToolCall, wp_modify]
      refine ⟨advances_putCall (d := { record c with toolCallId := c.toolCallId, status := target }) (hkey ▸ hc)
        (leads_of_canTransition hmove (hkey ▸ htarget)), trivial, trivial, fun _ => ?_⟩
      refine ⟨{ record c with toolCallId := c.toolCallId, status := target }, ?_, rfl⟩
      rw [← hkey]
      exact s.toolCalls.get_put_self _
    · simp only [wp_pure, if_neg hmove, wp_throw]
      exact ⟨.refl s, trivial, trivial, by rintro ⟨⟩⟩

lemma updateAgentRun_advances (r : AgentRun) (s : Store) :
    wp (updateAgentRun r) (fun _ t => Advances held s t ∧ t.toolCalls = s.toolCalls) s := by
  simp only [updateAgentRun, wp_bind, wp_get]
  cases hr : s.runs.get r.agentRunId with
  | none => exact ⟨.refl s, rfl⟩
  | some stored =>
    dsimp only
    split_ifs with hstatus
    · exact ⟨advances_putRun hr (by rw [hstatus]; exact id), rfl⟩
    · exact ⟨.refl s, rfl⟩

lemma updateInvestigation_advances (i : Investigation) (s : Store) :
    wp (updateInvestigation i) (fun _ t => Advances held s t ∧ t.toolCalls = s.toolCalls) s := by
  simp only [updateInvestigation, wp_bind, wp_get]
  cases hi : s.investigations.get i.investigationId with
  | none => exact ⟨.refl s, rfl⟩
  | some stored =>
    dsimp only
    split_ifs with hstatus
    · exact ⟨advances_putInvestigation hi (by rw [hstatus]; exact id), rfl⟩
    · exact ⟨.refl s, rfl⟩

lemma appendToolOutcomeEvidence_advances (run : AgentRun) (outcome : ToolOutcome) (s : Store) :
    wp (appendToolOutcomeEvidence run outcome) (fun _ t => Advances held s t ∧ t.toolCalls = s.toolCalls) s := by
  unfold appendToolOutcomeEvidence
  split_ifs
  · exact ⟨.refl s, rfl⟩
  · exact ⟨.refl s, rfl⟩
  · rw [wp_bind]
    refine wp_mono (updateAgentRun_advances held _ s) ?_
    rintro r t ⟨hadvances, hcalls⟩
    cases r with
    | error e => exact ⟨hadvances, hcalls⟩
    | ok _ =>
      simp only [getInvestigation, wp_bind, wp_get]
      cases t.investigations.get run.investigationId with
      | none => exact ⟨hadvances, hcalls⟩
      | some investigation =>
        simp only [wp_pure]
        refine wp_mono (updateInvestigation_advances held _ t) ?_
        rintro _ u ⟨hadvances', hcalls'⟩
        exact ⟨hadvances.trans hadvances', hcalls'.trans hcalls⟩

lemma landApproval_advances {toolCallId : String} {outcome : ToolOutcome} (hexecuted : outcome.status.executed = true)
    (s : Store) : wp (landApproval toolCallId outcome) (fun r t => Advances held s t ∧
      (r = .ok ⟨⟩ → ∃ c, t.toolCalls.get toolCallId = some c ∧ c.status = outcome.status)) s := by
  have hwait : outcome.status ≠ .waitingApproval := by
    rintro h
    rw [h] at hexecuted
    cases hexecuted
  simp only [landApproval, getToolCall, wp_bind, wp_get]
  cases hc : s.toolCalls.get toolCallId with
  | none => exact ⟨.refl s, by rintro ⟨⟩⟩
  | some toolCall =>
    simp only [wp_pure, if_neg hwait, wp_bind]
    refine wp_mono (transitionToolCallStatus_advances held (fun _ => hwait) s) ?_
    rintro r t ⟨hadvances, -, -, hlanded⟩
    cases r with
    | error e => exact ⟨hadvances, by rintro ⟨⟩⟩
    | ok _ =>
      obtain ⟨c, hc, hstatus⟩ := hlanded rfl
      simp only [getAgentRun, wp_bind, wp_get]
      cases t.runs.get toolCall.agentRunId with
      | none => exact ⟨hadvances, by rintro ⟨⟩⟩
      | some run =>
        simp only [wp_pure]
        refine wp_mono (appendToolOutcomeEvidence_advances held run outcome t) ?_
        rintro _ u ⟨hadvances', hcalls⟩
        exact ⟨hadvances.trans hadvances', fun _ => ⟨c, hcalls ▸ hc, hstatus⟩⟩

end Stores

/-! ### Tasks on the database -/

/-- What tasks make of the database: rows advance and transcripts grow. -/
structure Forward (held : String → Prop) (db db' : Database) : Prop where
  rows : Advances held db.toStore db'.toStore
  transcripts : ∀ id, db.transcripts id <+: db'.transcripts id

/-- Runs and investigations are written, calls and transcripts are not. -/
structure Quiet (db db' : Database) : Prop where
  rows : ∀ held, Advances held db.toStore db'.toStore
  calls : db'.toolCalls = db.toolCalls
  transcripts : db'.transcripts = db.transcripts

section Databases
variable {held : String → Prop} {db db' db'' : Database} {α : Type}

lemma Forward.refl (db : Database) : Forward held db db := ⟨.refl _, fun _ => prefix_refl _⟩

lemma Forward.trans (h : Forward held db db') (h' : Forward held db' db'') : Forward held db db'' :=
  ⟨h.rows.trans h'.rows, fun id => (h.transcripts id).trans (h'.transcripts id)⟩

lemma Quiet.refl (db : Database) : Quiet db db := ⟨fun _ => .refl _, rfl, rfl⟩

lemma Quiet.trans (h : Quiet db db') (h' : Quiet db' db'') : Quiet db db'' :=
  ⟨fun held => (h.rows held).trans (h'.rows held), h'.calls.trans h.calls, h'.transcripts.trans h.transcripts⟩

lemma Quiet.forward (h : Quiet db db') : Forward held db db' := ⟨h.rows held, fun _ => h.transcripts ▸ prefix_refl _⟩

def quietly : Invariant Quiet := ⟨fun _ => True, fun _ _ _ _ => trivial⟩

/-- A routine all of whose writes are quiet. -/
abbrev Hushed (m : DatabaseM α) : Prop := Walks quietly m fun _ => True

variable {m : DatabaseM α} {agentRunId : String} {c : ToolCall} {s : Store}

lemma hushed_of_wp (h : ∀ db, wp m (fun _ db' => Quiet db db') db) : Hushed m := fun db _ =>
  wp_mono (h db) fun _ _ hquiet => ⟨.single hquiet, fun _ _ => trivial⟩

lemma Hushed.quiet (h : Hushed m) (db : Database) : wp m (fun _ db' => Quiet db db') db := by
  refine wp_mono (h db trivial) ?_
  rintro _ db' ⟨hsteps, -⟩
  induction hsteps with
  | refl => exact .refl db
  | tail _ hstep ih => exact ih.trans hstep

lemma hushed_getAgentRun (id : String) : Hushed (onStore (getAgentRun id)) := by
  refine hushed_of_wp fun db => (wp_getAgentRun id _).mpr ?_
  cases db.runs.get id <;> exact .refl db

lemma hushed_getInvestigation (id : String) : Hushed (onStore (getInvestigation id)) := by
  refine hushed_of_wp fun db => (wp_getInvestigation id _).mpr ?_
  cases db.investigations.get id <;> exact .refl db

lemma quiet_withRun {r r' : AgentRun} (hr : db.runs.get r'.agentRunId = some r)
    (hover : r.status.over = true → r'.status.over = true) : Quiet db (db.withRun r') :=
  ⟨fun _ => advances_putRun hr hover, rfl, rfl⟩

lemma quiet_withInvestigation {i i' : Investigation} (hi : db.investigations.get i'.investigationId = some i)
    (hover : i.status.over = true → i'.status.over = true) : Quiet db (db.withInvestigation i') :=
  ⟨fun _ => advances_putInvestigation hi hover, rfl, rfl⟩

lemma hushed_transitionAgentRunStatus (id : String) (target : AgentRunStatus) (now : Time)
    (stopReason : Option StopReason) : Hushed (onStore (transitionAgentRunStatus id target now stopReason)) := by
  refine hushed_of_wp fun db => (wp_transitionAgentRunStatus id target now stopReason _).mpr ?_
  cases hr : db.runs.get id with
  | none => exact .refl db
  | some r =>
    dsimp only
    split_ifs with hmove
    · have hself : db.runs.get (r.moved target now stopReason).agentRunId = some r := db.runs.get_key hr
      exact quiet_withRun hself (AgentRunStatus.over_of_canTransition hmove)
    · exact .refl db

lemma hushed_transitionRun (run : AgentRun) (target : AgentRunStatus) (now : Time)
    (stopReason : Option StopReason) : Hushed (transitionRun run target now stopReason) :=
  bind (hushed_transitionAgentRunStatus _ _ _ _) fun _ _ => hushed_getAgentRun _

lemma hushed_transitionInvestigation (i : Investigation) (target : InvestigationStatus) (now : Time)
    (stopReason : Option StopReason) : Hushed (transitionInvestigation i target now stopReason) := by
  refine hushed_of_wp fun db => (wp_transitionInvestigation i target now stopReason _).mpr ?_
  cases hi : db.investigations.get i.investigationId with
  | none => exact .refl db
  | some stored =>
    dsimp only
    split_ifs with hmove
    · have hself : db.investigations.get (stored.moved target now stopReason).investigationId = some stored :=
        db.investigations.get_key hi
      exact quiet_withInvestigation hself (over_of_canTransition hmove)
    · exact .refl db

lemma hushed_resumeAfterDecision (agentRunId : String) (now : Time) : Hushed (resumeAfterDecision agentRunId now) := by
  refine bind (hushed_getAgentRun _) fun run _ => ite (fun _ => ?_) fun _ => pure trivial
  refine bind (hushed_transitionRun _ _ _ _) fun run _ => ?_
  refine bind (hushed_getInvestigation _) fun investigation _ => ?_
  exact ite (fun _ => hushed_transitionInvestigation _ _ _ _) fun _ => pure trivial

lemma hushed_parkRunUncertain (run : AgentRun) (now : Time) : Hushed (parkRunUncertain run now) := by
  have hpause : ∀ current : AgentRun, Hushed (if current.status = .running then do
      let _ ← transitionRun current .pausedUncertainState now (some .uncertainState)
    else pure ⟨⟩ : DatabaseM PUnit) := fun current =>
    ite (fun _ => bind (hushed_transitionRun _ _ _ _) fun _ _ => pure trivial) fun _ => pure trivial
  refine bind (hushed_getAgentRun _) fun current _ => ?_
  by_cases hwaiting : current.status = .waitingApproval
  · simp only [if_pos hwaiting]
    exact bind (hushed_transitionRun _ _ _ _) fun current _ => hpause current
  · simp only [if_neg hwaiting, pure_bind]
    exact hpause current

lemma hushed_parkInvestigationUncertain (run : AgentRun) (now : Time) :
    Hushed (parkInvestigationUncertain run now) := by
  refine bind (hushed_getInvestigation _) fun investigation _ => ?_
  refine optional (fun _ => hushed_transitionInvestigation _ _ _ _) ?_
  refine bind (hushed_getInvestigation _) fun current _ => ?_
  exact ite (fun _ => hushed_transitionInvestigation _ _ _ _) fun _ => pure trivial

lemma hushed_parkUncertainAfterTool (run : AgentRun) (now : Time) : Hushed (parkUncertainAfterTool run now) := by
  refine bind (tryCatch (hushed_parkRunUncertain run now) ?_) fun _ _ => ite (fun _ => ?_) fun _ =>
    pure trivial
  · intro error
    split
    · exact pure trivial
    · exact throw _
  · refine tryCatch (hushed_parkInvestigationUncertain run now) ?_
    intro error
    split
    · exact pure trivial
    · exact pure trivial
    · exact throw _

lemma hushed_parkRunForCancel (now : Time) (run : AgentRun) : Hushed (parkRunForCancel now run) := by
  refine ite (fun _ => pure trivial) fun _ => ite (fun _ => pure trivial) fun _ => ?_
  refine ite (fun _ => ?_) fun _ => ?_
  · exact bind (hushed_transitionRun _ _ _ _) fun _ _ => pure trivial
  · exact bind (hushed_transitionRun _ _ _ _) fun _ _ => pure trivial

lemma hushed_get : Hushed (get : DatabaseM Database) := hushed_of_wp fun db => .refl db

lemma hushed_cancel (investigationId : String) (now : Time) : Hushed (cancel investigationId now) := by
  have hruns : Hushed (do
      let db ← get
      (listRunsOf db investigationId).forM (parkRunForCancel now)
      onStore (getInvestigation investigationId) : DatabaseM Investigation) := by
    refine bind hushed_get fun db _ => ?_
    refine bind (forM _ fun run _ => hushed_parkRunForCancel now run) fun _ _ => ?_
    exact hushed_getInvestigation _
  refine bind (hushed_getInvestigation _) fun investigation _ => ite (fun _ => pure trivial) fun _ => ?_
  refine ite (fun _ => ?_) fun _ => optional (fun _ => hushed_transitionInvestigation _ _ _ _) hruns
  exact bind (hushed_transitionInvestigation _ _ _ _) fun _ _ => hruns

lemma hushed_cancelRun (agentRunId : String) (now : Time) : Hushed (cancelRun agentRunId now) := by
  refine bind (hushed_getAgentRun _) fun run _ => ?_
  exact bind (hushed_parkRunForCancel now run) fun _ _ => hushed_getAgentRun _

/-! ### The parts of a resolution -/

lemma added_of_transcripts (h : db'.transcripts = db.transcripts) : World.added agentRunId db db' = [] := by
  rw [World.added, h, drop_length]
  rfl

lemma mem_added_of_append {block : ToolResultBlock} {p : String × ToolResultBlock}
    (h : db'.transcripts agentRunId = db.transcripts agentRunId ++ [⟨.user, [.toolResult block]⟩])
    (hp : p ∈ World.added agentRunId db db') : p = (agentRunId, block) := by
  rw [World.added, h, drop_left] at hp
  simpa using hp

/-- A block of a resolution shows the status on which the call has landed, and stands in the transcript. -/
def Landed (db : Database) (p : String × ToolResultBlock) : Prop :=
  (∃ c, db.toolCalls.get p.2.toolCallId = some c ∧ c.status = p.2.status ∧
    toolCallStateMachine.isTerminal c.status = true) ∧
  ∃ message ∈ db.transcripts p.1, .toolResult p.2 ∈ message.blocks

lemma Landed.forward {p : String × ToolResultBlock} (h : Landed db p) (hforward : Forward held db db') :
    Landed db' p := by
  obtain ⟨⟨c, hc, hstatus, hterminal⟩, message, hmessage, hblock⟩ := h
  obtain ⟨c', hc', hleads⟩ := hforward.rows.calls _ c hc
  have hsame := hleads.terminal hterminal
  exact ⟨⟨c', hc', hsame.trans hstatus, hsame ▸ hterminal⟩, message, (hforward.transcripts _).subset hmessage, hblock⟩

/-- What a part of a resolution does to the database. -/
structure Part (held : String → Prop) (agentRunId : String) (db db' : Database) : Prop where
  forward : Forward held db db'
  landed : ∀ p ∈ World.added agentRunId db db', Landed db' p

lemma part_of_transcripts (h : Forward held db db') (ht : db'.transcripts = db.transcripts) :
    Part held agentRunId db db' := ⟨h, by simp [added_of_transcripts ht]⟩

lemma Part.quiet (h : Part held agentRunId db db') (hquiet : Quiet db' db'') : Part held agentRunId db db'' := by
  refine ⟨h.forward.trans hquiet.forward, fun p hp => ?_⟩
  have hp' : p ∈ World.added agentRunId db db' := by
    rw [World.added, hquiet.transcripts] at hp
    exact hp
  exact (h.landed p hp').forward (@Quiet.forward held _ _ hquiet)

lemma prefix_append (transcripts : String → List Message) (agentRunId : String) (message : Message) (id : String) :
    transcripts id <+: Function.update transcripts agentRunId (transcripts agentRunId ++ [message]) id := by
  by_cases hid : id = agentRunId
  · rw [hid, Function.update_self]
    exact List.prefix_append _ _
  · rw [Function.update_of_ne hid]

lemma part_of_append {block : ToolResultBlock} (written : Bool)
    (hforward : Forward held db db') (ht : db'.transcripts = db.transcripts)
    (hc : db'.toolCalls.get block.toolCallId = some c) (hstatus : c.status = block.status)
    (hterminal : toolCallStateMachine.isTerminal c.status = true) :
    wp (appendApprovalResult written agentRunId block) (fun _ => Part held agentRunId db) db' := by
  cases written with
  | false => exact part_of_transcripts hforward ht
  | true =>
    have happended : Function.update db'.transcripts agentRunId (db'.transcripts agentRunId ++
        [⟨.user, [.toolResult block]⟩]) agentRunId = db.transcripts agentRunId ++ [⟨.user, [.toolResult block]⟩] := by
      rw [Function.update_self, ht]
    refine (wp_appendMessage agentRunId _ _).mpr ⟨hforward.trans ⟨.refl _, prefix_append _ _ _⟩, fun p hp => ?_⟩
    rw [mem_added_of_append happended hp]
    refine ⟨⟨c, hc, hstatus, hterminal⟩, ⟨.user, [.toolResult block]⟩, ?_, mem_singleton.mpr rfl⟩
    have hmem : (⟨.user, [.toolResult block]⟩ : Message) ∈ Function.update db'.transcripts agentRunId
        (db'.transcripts agentRunId ++ [⟨.user, [.toolResult block]⟩]) agentRunId := by
      rw [happended]
      exact mem_append_right _ (mem_singleton.mpr rfl)
    exact hmem

lemma terminal_of_executed {status : ToolCallStatus} (h : status.executed = true) :
    toolCallStateMachine.isTerminal status = true := by
  revert h
  cases status <;> decide

lemma finishToolApproval_part (held : String → Prop) (written : Bool) (agentRunId : String) {outcome : ToolOutcome}
    (hexecuted : outcome.status.executed = true) (now : Time) (db : Database) :
    wp (finishToolApproval written agentRunId outcome now) (fun _ => Part held agentRunId db) db := by
  rw [finishToolApproval, wp_bind, wp_onStore]
  refine wp_mono (landApproval_advances held hexecuted db.toStore) ?_
  rintro r s ⟨hadvances, hlanded⟩
  have hforward : Forward held db { db with toStore := s } := ⟨hadvances, fun _ => prefix_refl _⟩
  cases r with
  | error e => exact part_of_transcripts hforward rfl
  | ok _ =>
    obtain ⟨c, hc, hstatus⟩ := hlanded rfl
    have hterminal := terminal_of_executed hexecuted
    rw [← hstatus] at hterminal
    refine wp_bind _ _ _ _ |>.mpr (wp_mono (part_of_append written hforward rfl hc hstatus hterminal) ?_)
    intro r db' hpart
    cases r with
    | error e => exact hpart
    | ok _ =>
      have hrest : Hushed (if outcome.status = .uncertain then do
          let run ← onStore (getAgentRun agentRunId)
          parkUncertainAfterTool run now
        else resumeAfterDecision agentRunId now) :=
        ite (fun _ => bind (hushed_getAgentRun _) fun run _ => hushed_parkUncertainAfterTool run now)
          fun _ => hushed_resumeAfterDecision _ _
      exact wp_mono (hrest.quiet db') fun _ _ hquiet => hpart.quiet hquiet

/-- What precedes the execution of a waiting call: the execution is only started when nothing is
over, and then the call is settled. -/
theorem handleToolApproval_part (held : String → Prop) (executor written : Bool) {toolCall : ToolCall}
    (approval : ApprovalStatus) (now : Time) (db : Database) :
    wp (handleToolApproval executor written toolCall approval now) (fun r db' =>
      Part held toolCall.agentRunId db db' ∧ (r = .ok .started →
        (∃ c, db'.toolCalls.get toolCall.toolCallId = some c ∧ c.status = .running) ∧
        ∃ run investigation, db.runs.get toolCall.agentRunId = some run ∧ run.status.over = false ∧
          db.investigations.get run.investigationId = some investigation ∧ investigation.status.over = false)) db := by
  unfold handleToolApproval
  split_ifs with hrejected hskip
  · rw [wp_bind, wp_onStore]
    refine wp_mono (transitionToolCallStatus_advances held (fun _ => by decide) db.toStore) ?_
    rintro r s ⟨hadvances, -, -, hlanded⟩
    have hforward : Forward held db { db with toStore := s } := ⟨hadvances, fun _ => prefix_refl _⟩
    cases r with
    | error e => exact ⟨part_of_transcripts hforward rfl, by rintro ⟨⟩⟩
    | ok _ =>
      obtain ⟨c, hc, hstatus⟩ := hlanded rfl
      have hterminal : toolCallStateMachine.isTerminal c.status = true := hstatus ▸ rfl
      refine wp_bind _ _ _ _ |>.mpr (wp_mono (part_of_append written hforward rfl hc hstatus hterminal) ?_)
      intro r db' hpart
      cases r with
      | error e => exact ⟨hpart, by rintro ⟨⟩⟩
      | ok _ =>
        rw [wp_bind]
        refine wp_mono ((hushed_resumeAfterDecision _ _).quiet db') ?_
        intro r db'' hquiet
        cases r with
        | error e => exact ⟨hpart.quiet hquiet, by rintro ⟨⟩⟩
        | ok _ => exact ⟨hpart.quiet hquiet, by rintro ⟨⟩⟩
  · exact ⟨part_of_transcripts (.refl db) rfl, by rintro ⟨⟩⟩
  · rw [wp_bind, wp_getAgentRun]
    cases hrun : db.runs.get toolCall.agentRunId with
    | none => exact ⟨part_of_transcripts (.refl db) rfl, by rintro ⟨⟩⟩
    | some run =>
      simp only [wp_bind, wp_get]
      split_ifs with hpending
      · rw [wp_bind, wp_onStore]
        refine wp_mono (transitionToolCallStatus_advances held (fun _ => by decide) db.toStore) ?_
        rintro r s ⟨hadvances, -, -, -⟩
        have hforward : Forward held db { db with toStore := s } := ⟨hadvances, fun _ => prefix_refl _⟩
        cases r with
        | error e => exact ⟨part_of_transcripts hforward rfl, by rintro ⟨⟩⟩
        | ok _ => exact ⟨part_of_transcripts hforward rfl, by rintro ⟨⟩⟩
      · rw [wp_bind, wp_onStore]
        refine wp_mono (transitionToolCallStatus_advances held (fun _ => by decide) db.toStore) ?_
        rintro r s ⟨hadvances, -, -, hlanded⟩
        have hforward : Forward held db { db with toStore := s } := ⟨hadvances, fun _ => prefix_refl _⟩
        cases r with
        | error e => exact ⟨part_of_transcripts hforward rfl, by rintro ⟨⟩⟩
        | ok _ =>
          refine ⟨part_of_transcripts hforward rfl, fun _ => ⟨hlanded rfl, run, ?_⟩⟩
          cases hinvestigation : db.investigations.get run.investigationId with
          | none => simp [runCancelPending, hinvestigation] at hpending
          | some investigation =>
            simp only [runCancelPending, hinvestigation, Bool.not_eq_true, Bool.or_eq_false_iff] at hpending
            obtain ⟨⟨hcancel, hterminal⟩, hcancel', hterminal'⟩ := hpending
            refine ⟨investigation, rfl, ?_, rfl, ?_⟩
            · simp [AgentRunStatus.over, hcancel, hterminal]
            · simp [InvestigationStatus.over, hcancel', hterminal']

/-! ### Other tasks -/

lemma Hushed.forward (h : Hushed m) (db : Database) : Forward held db (m.exec db).2 := (h.quiet db).forward

lemma advances_newRun {r : AgentRun} (hr : s.runs.get r.agentRunId = none) :
    Advances held s { s with runs := s.runs.put r } := by
  refine ⟨fun id stored hstored => ⟨stored, ?_, fun h => h⟩, fun _ i hi => ⟨i, hi, id⟩, fun _ c hc => ⟨c, hc, .refl _⟩⟩
  have hid : id ≠ r.agentRunId := by
    rintro rfl
    rw [hr] at hstored
    cases hstored
  rw [← hstored]
  exact s.runs.get_put_of_ne hid

lemma advances_newInvestigation {i : Investigation} (hi : s.investigations.get i.investigationId = none) :
    Advances held s { s with investigations := s.investigations.put i } := by
  refine ⟨fun _ r hr => ⟨r, hr, id⟩, fun id stored hstored => ⟨stored, ?_, fun h => h⟩, fun _ c hc => ⟨c, hc, .refl _⟩⟩
  have hid : id ≠ i.investigationId := by
    rintro rfl
    rw [hi] at hstored
    cases hstored
  rw [← hstored]
  exact s.investigations.get_put_of_ne hid

lemma advances_newCall (hc : s.toolCalls.get c.toolCallId = none) :
    Advances held s { s with toolCalls := s.toolCalls.put c } := by
  refine ⟨fun _ r hr => ⟨r, hr, id⟩, fun _ i hi => ⟨i, hi, id⟩, fun id stored hstored => ⟨stored, ?_, .refl _⟩⟩
  have hid : id ≠ c.toolCallId := by
    rintro rfl
    rw [hc] at hstored
    cases hstored
  rw [← hstored]
  exact s.toolCalls.get_put_of_ne hid

lemma forward_onStore {m : StoreM α} {db : Database} (h : wp m (fun _ => Advances held db.toStore) db.toStore) :
    Forward held db ((onStore m).exec db).2 := by
  have hforward : wp (onStore m) (fun _ => Forward held db) db := by
    rw [wp_onStore]
    exact wp_mono h fun _ _ hadvances => ⟨hadvances, fun _ => prefix_refl _⟩
  exact hforward

lemma write_forward {write : Write}
    (hmove : ∀ toolCallId approvalId, write = .moveCall toolCallId .waitingApproval approvalId → ¬ held toolCallId)
    (db : Database) : Forward held db (write.run.exec db).2 := by
  cases write with
  | createInvestigation i =>
    have h : wp (createInvestigation i) (fun _ => Forward held db) db := by
      simp only [createInvestigation, wp_bind, wp_get]
      cases hi : db.investigations.get i.investigationId with
      | some _ => exact .refl db
      | none => exact ⟨advances_newInvestigation hi, fun _ => prefix_refl _⟩
    exact h
  | createRun r =>
    have h : wp (createAgentRun r) (fun _ => Forward held db) db := by
      simp only [createAgentRun, wp_bind, wp_get]
      cases hr : db.runs.get r.agentRunId with
      | some _ =>
        split_ifs with hkind
        · cases r.parentRunId.bind db.runs.get with
          | none => exact .refl db
          | some parent =>
            dsimp only
            split_ifs
            · exact .refl db
            · exact .refl db
        · exact .refl db
      | none =>
        have hnew : Forward held db { db with runs := db.runs.put r, runIds := db.runIds ++ [r.agentRunId] } :=
          ⟨advances_newRun hr, fun _ => prefix_refl _⟩
        split_ifs with hkind
        · cases r.parentRunId.bind db.runs.get with
          | none => exact .refl db
          | some parent =>
            dsimp only
            split_ifs
            · exact .refl db
            · exact hnew
        · exact hnew
    exact h
  | createCall c =>
    have h : wp (createListedToolCall c) (fun _ => Forward held db) db := by
      simp only [createListedToolCall, createToolCall, wp_bind, wp_onStore, wp_get]
      cases hc : db.toolCalls.get c.toolCallId with
      | some _ => exact .refl db
      | none => exact ⟨advances_newCall hc, fun _ => prefix_refl _⟩
    exact h
  | moveInvestigation investigationId target now =>
    have h : Hushed (transitionInvestigation ⟨investigationId, .created, {}, {}, none, none⟩ target now none) :=
      hushed_transitionInvestigation _ _ _ _
    exact h.forward db
  | moveRun agentRunId target now => exact (hushed_transitionAgentRunStatus agentRunId target now none).forward db
  | moveCall toolCallId target approvalId =>
    have htarget : held toolCallId → target ≠ .waitingApproval := by
      rintro hheld rfl
      exact hmove toolCallId approvalId rfl hheld
    exact forward_onStore (wp_mono (transitionToolCallStatus_advances held htarget db.toStore) fun _ _ h => h.1)
  | updateInvestigation i =>
    exact forward_onStore (wp_mono (updateInvestigation_advances held i db.toStore) fun _ _ h => h.1)
  | updateRun r => exact forward_onStore (wp_mono (updateAgentRun_advances held r db.toStore) fun _ _ h => h.1)
  | append agentRunId message => exact ⟨.refl _, prefix_append _ _ _⟩

lemma mem_waiting (h : c ∈ listWaitingApprovalToolCalls db) :
    db.toolCalls.get c.toolCallId = some c ∧ c.status = .waitingApproval := by
  rw [listWaitingApprovalToolCalls, mem_filter, listToolCalls, mem_filterMap] at h
  obtain ⟨⟨id, -, hid⟩, hstatus⟩ := h
  have hkey : c.toolCallId = id := db.toolCalls.keyed id c hid
  exact ⟨hkey ▸ hid, of_decide_eq_true hstatus⟩

end Databases

/-! ### Runs -/

def World.Held (w : World) (toolCallId : String) : Prop := toolCallId ∈ w.started.map Started.toolCallId

/-- Each call was started once and nothing was over at that time; what was over is; and each block
stands in its transcript and shows what is stored. -/
structure World.Kept (w : World) : Prop where
  settled : ∀ id, w.Held id → ∃ c, w.db.toolCalls.get id = some c ∧ c.status.settled = true
  once : (w.started.map Started.toolCallId).Nodup
  timely : ∀ x ∈ w.started, x.late = false
  landed : ∀ p ∈ w.placed, Landed w.db p
  runs : ∀ id, w.runsOver id = true → ∃ r, w.db.runs.get id = some r ∧ r.status.over = true
  investigations : ∀ id, w.investigationsOver id = true → ∃ i, w.db.investigations.get id = some i ∧ i.status.over = true
  consumed : w.refused = []

namespace World.Kept
variable {w w' : World}

variable {db : Database}

lemma forward (h : w.Kept) (hforward : Forward w.Held w.db db)
    {blocks : List (String × ToolResultBlock)} (hlanded : ∀ p ∈ blocks, Landed db p) :
    Kept { w with db := db, placed := w.placed ++ blocks } where
  settled id hid := by
    obtain ⟨c, hc, hsettled⟩ := h.settled id hid
    obtain ⟨c', hc', hleads⟩ := hforward.rows.calls id c hc
    exact ⟨c', hc', hleads.settled hid hsettled⟩
  once := h.once
  timely := h.timely
  landed p hp := by
    rcases mem_append.mp hp with hp | hp
    · exact (h.landed p hp).forward hforward
    · exact hlanded p hp
  runs id hid := by
    obtain ⟨r, hr, hover⟩ := h.runs id hid
    obtain ⟨r', hr', hover'⟩ := hforward.rows.runs id r hr
    exact ⟨r', hr', hover' hover⟩
  investigations id hid := by
    obtain ⟨i, hi, hover⟩ := h.investigations id hid
    obtain ⟨i', hi', hover'⟩ := hforward.rows.investigations id i hi
    exact ⟨i', hi', hover' hover⟩
  consumed := h.consumed

lemma write (h : w.Kept) (hforward : Forward w.Held w.db db) : Kept { w with db := db } := by
  have hkept : Kept { w with db := db, placed := w.placed ++ [] } := h.forward hforward nofun
  rw [append_nil] at hkept
  exact hkept

lemma of_eq (h : w.Kept) (approvals : Rows) (executing : List Executing) :
    Kept { w with approvals := approvals, executing := executing } :=
  ⟨h.settled, h.once, h.timely, h.landed, h.runs, h.investigations, h.consumed⟩

lemma part (h : w.Kept) {agentRunId : String} (hpart : Part w.Held agentRunId w.db db) :
    Kept { w with db := db, placed := w.placed ++ World.added agentRunId w.db db } :=
  h.forward hpart.forward hpart.landed

lemma note (h : w.Kept) : w.note.Kept where
  settled := h.settled
  once := h.once
  timely := h.timely
  landed := h.landed
  runs id hid := by
    rcases (Bool.or_eq_true _ _).mp hid with hid | hid
    · exact h.runs id hid
    · exact (Option.any_eq_true _ _).mp hid
  investigations id hid := by
    rcases (Bool.or_eq_true _ _).mp hid with hid | hid
    · exact h.investigations id hid
    · exact (Option.any_eq_true _ _).mp hid
  consumed := h.consumed

lemma not_runsOver (h : w.Kept) {run : AgentRun} (hrun : w.db.runs.get run.agentRunId = some run)
    (hopen : run.status.over = false) : w.runsOver run.agentRunId = false := by
  cases hover : w.runsOver run.agentRunId with
  | false => rfl
  | true =>
    obtain ⟨r, hr, hr'⟩ := h.runs _ hover
    rw [hrun] at hr
    cases hr
    rw [hopen] at hr'
    cases hr'

lemma not_investigationsOver (h : w.Kept) {i : Investigation}
    (hi : w.db.investigations.get i.investigationId = some i) (hopen : i.status.over = false) :
    w.investigationsOver i.investigationId = false := by
  cases hover : w.investigationsOver i.investigationId with
  | false => rfl
  | true =>
    obtain ⟨stored, hstored, hstored'⟩ := h.investigations _ hover
    rw [hi] at hstored
    cases hstored
    rw [hopen] at hstored'
    cases hstored'

lemma not_isLate (h : w.Kept) {agentRunId : String} {run : AgentRun} {i : Investigation}
    (hrun : w.db.runs.get agentRunId = some run) (hopen : run.status.over = false)
    (hi : w.db.investigations.get run.investigationId = some i) (hopen' : i.status.over = false) :
    w.isLate agentRunId = false := by
  have hkey : run.agentRunId = agentRunId := w.db.runs.keyed _ _ hrun
  have hkey' : i.investigationId = run.investigationId := w.db.investigations.keyed _ _ hi
  have hover := h.not_runsOver (hkey ▸ hrun) hopen
  have hover' := h.not_investigationsOver (hkey' ▸ hi) hopen'
  rw [hkey] at hover
  rw [hkey'] at hover'
  rw [World.isLate, hover, hrun, Option.any_some, hover', Bool.or_false]

lemma not_held (h : w.Kept) {c : ToolCall} (hc : w.db.toolCalls.get c.toolCallId = some c)
    (hwaiting : c.status = .waitingApproval) : ¬ w.Held c.toolCallId := by
  intro hheld
  obtain ⟨c', hc', hsettled⟩ := h.settled _ hheld
  rw [hc] at hc'
  cases hc'
  rw [hwaiting] at hsettled
  cases hsettled

lemma start (h : w.Kept) (call : Executing) {toolCallId : String} {late : Bool} (hlate : late = false)
    (hheld : ¬ w.Held toolCallId) (hc : ∃ c, w.db.toolCalls.get toolCallId = some c ∧ c.status.settled = true) :
    Kept { w with executing := call :: w.executing, started := ⟨toolCallId, late⟩ :: w.started } where
  settled id hid := by
    rcases mem_cons.mp hid with rfl | hid
    · exact hc
    · exact h.settled id hid
  once := nodup_cons.mpr ⟨hheld, h.once⟩
  timely x hx := by
    rcases mem_cons.mp hx with rfl | hx
    · exact hlate
    · exact h.timely x hx
  landed := h.landed
  runs := h.runs
  investigations := h.investigations
  consumed := h.consumed

lemma resolve (h : w.Kept) (executor written : Bool) {toolCall : ToolCall}
    (hcall : toolCall ∈ listWaitingApprovalToolCalls w.db) (approval : ApprovalStatus) (now : Time) :
    (w.resolve executor written toolCall approval now).Kept := by
  obtain ⟨hstored, hwaiting⟩ := mem_waiting hcall
  obtain ⟨hpart, hstart⟩ := @handleToolApproval_part w.Held executor written toolCall approval now w.db
  have hkept := h.part hpart
  unfold World.resolve
  dsimp only
  split
  · rename_i hout
    obtain ⟨⟨c, hc, hrunning⟩, run, investigation, hrun, hopen, hinvestigation, hopen'⟩ := hstart hout
    have hlate := h.not_isLate hrun hopen hinvestigation hopen'
    exact hkept.start _ hlate (h.not_held hstored hwaiting) ⟨c, hc, by rw [hrunning]; rfl⟩
  · exact hkept

lemma finish (h : w.Kept) (call : Executing) {outcome : ToolOutcome} (hexecuted : outcome.status.executed = true)
    (written : Bool) (now : Time) : (w.finish call outcome written now).Kept :=
  h.part (finishToolApproval_part w.Held written call.agentRunId hexecuted now w.db)

end World.Kept

section Runs
variable (sha256 : Bytes → String) (executor : Bool)

lemma reported_executed {toolCallId : String} {answer outcome : ToolOutcome}
    (h : reported false toolCallId answer = some outcome) : outcome.status.executed = true := by
  simp only [reported, Bool.false_eq_true, if_false] at h
  split_ifs at h with hexecuted
  cases h
  exact hexecuted

lemma consumes {w : World} {toolCallId : String} {c : Consumption} (h : Consumable sha256 w (.consume toolCallId c)) :
    c.read sha256 w.approvals = .ok () ∧ ∃ approvals, c.update w.approvals = .ok approvals := by
  obtain ⟨row, hrow, hintent, happroved, hconsumed, hnow⟩ := h
  refine ⟨?_, w.approvals.put (c.set row), ?_⟩
  · rw [Consumption.read, hrow]
    exact if_neg (not_not.mpr hintent)
  · have hcondition : decide (row.status = .approved ∧ row.consumedAt = none ∧ c.now.isoformat < row.expiresAt) = true :=
      decide_eq_true ⟨happroved, hconsumed, hnow⟩
    rw [Consumption.update, updateWhere, hrow]
    simp only [hcondition, if_true]

lemma World.Kept.advance {w w' : World} (h : w.Kept) {label : Label} (hgood : Consumable sha256 w label)
    (hstep : w.advance sha256 executor label = some w') : w'.Kept := by
  cases label with
  | resolve approvalId now written =>
    simp only [World.advance] at hstep
    split at hstep
    · cases hstep
      exact h
    · split at hstep
      · cases hstep
        exact h
      · rename_i toolCall hfind
        cases hstep
        exact h.resolve executor written (mem_of_find?_eq_some hfind) _ now
  | consume toolCallId c =>
    obtain ⟨hread, approvals, hupdate⟩ := consumes sha256 hgood
    simp only [World.advance, hread, hupdate] at hstep
    split_ifs at hstep
    cases hstep
    exact h.of_eq approvals w.executing
  | finish toolCallId answer now written =>
    simp only [World.advance] at hstep
    split at hstep
    · cases hstep
    · rename_i call hfind
      have hkept := h.of_eq w.approvals (w.executing.filter fun call => call.toolCallId ≠ toolCallId)
      cases answer with
      | none =>
        cases hstep
        exact hkept
      | some answer =>
        obtain ⟨outcome, hreported, hw⟩ := Option.map_eq_some_iff.mp hstep
        rw [h.consumed] at hreported
        rw [← hw]
        exact hkept.finish call (reported_executed hreported) written now
  | cancel investigationId now =>
    cases hstep
    exact h.write ((hushed_cancel investigationId now).forward w.db)
  | cancelRun agentRunId now =>
    cases hstep
    exact h.write ((hushed_cancelRun agentRunId now).forward w.db)
  | decide d =>
    simp only [World.advance] at hstep
    split at hstep
    · cases hstep
      exact h
    · split at hstep
      · cases hstep
        exact h
      · cases hstep
        exact h.of_eq _ w.executing
  | request r =>
    simp only [World.advance] at hstep
    split at hstep
    · cases hstep
      exact h
    · cases hstep
      exact h.of_eq _ w.executing
  | other write =>
    simp only [World.advance] at hstep
    split_ifs at hstep with hpermitted
    cases hstep
    refine h.write (write_forward (fun toolCallId approvalId hwrite hheld => ?_) w.db)
    simp only [hwrite, Write.permitted, ne_eq, not_true_eq_false, decide_false, Bool.false_or, Bool.not_eq_true',
      contains_eq_mem, decide_eq_false_iff_not] at hpermitted
    exact hpermitted hheld

/-- Each call is executed at most once, nothing was over when it was started, and each block that a
resolution has placed in a transcript shows the stored status of its call. -/
structure World.Agrees (w : World) : Prop where
  once : (w.started.map Started.toolCallId).Nodup
  timely : ∀ x ∈ w.started, x.late = false
  agrees : ∀ p ∈ w.placed, ∃ c, w.db.toolCalls.get p.2.toolCallId = some c ∧ c.status = p.2.status

lemma World.Kept.agrees {w : World} (h : w.Kept) : w.Agrees where
  once := h.once
  timely := h.timely
  agrees p hp := by
    obtain ⟨⟨c, hc, hstatus, -⟩, -⟩ := h.landed p hp
    exact ⟨c, hc, hstatus⟩

lemma kept_init (db : Database) (approvals : Rows) : World.Kept { db := db, approvals := approvals } :=
  ⟨nofun, .nil, nofun, nofun, nofun, nofun, rfl⟩

end Runs

/-- A parent run and its call, parked on an approval. -/
def parked : Database where
  investigations := Table.empty.put ⟨"inv-1", .waitingApproval, {}, {}, none, none⟩
  runs := Table.empty.put ⟨"run-1", "inv-1", none, .parent, .waitingApproval, {}, {}, none, [], none⟩
  toolCalls := Table.empty.put
    { toolCallId := "call-1", agentRunId := "run-1", toolName := "shell_exec", status := .waitingApproval
      approvalId := some "apv-1" }
  investigationIds := ["inv-1"]
  runIds := ["run-1"]
  toolCallIds := ["call-1"]

def clock (minute : Fin 60) : DateTime := newYear minute

/-- The approval of the call, granted and not yet consumed. -/
def granted : Rows := Table.empty.put
  { approvalId := "apv-1", intentSha256 := "sha-1", intent := [], status := .approved, createdAt := (clock 0).isoformat
    expiresAt := (clock 15).isoformat, decidedAt := some (clock 14).isoformat }

/-- The resolution of the call, whose approval is consumed at some minute. -/
def executedAt (minute : Fin 60) (answer : ToolOutcome) : List Label :=
  [.resolve "apv-1" 0 true, .consume "call-1" ⟨"apv-1", [], clock minute⟩, .finish "call-1" (some answer) 1 true]

def uptime : ToolOutcome := { toolCallId := "call-1", status := .succeeded, summary := "up 3 days" }

/-- The runs of the call. -/
abbrev shellRuns : System World Label := resolutions (fun _ => "sha-1") true parked granted

end IncidentLens.Investigations
