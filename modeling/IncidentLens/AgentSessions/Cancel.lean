import IncidentLens.AgentSessions.Service

/-!
# Cancelling a session

A cancellation reaches the investigation to which the session is bound. It does not reach operations that
are queued for the session, so they must have ended before.
-/
namespace IncidentLens.AgentSessions
open Data Effects Operations Option
open Investigations (investigationStateMachine)

/-- Nothing of a session that had been cancelled was started or went on. -/
def Service.NeverRuns {n : ℕ} (w : Service n) : Prop := w.record.worked = []

/-- A session is cancelled when its operations have ended. -/
def WhenEnded {n : ℕ} (w : Service n) : ServiceMove n → Prop
  | .cancel sessionId => ∀ op ∈ w.operationsOf sessionId, operationStateMachine.isTerminal op.status = true
  | _ => True

structure Rested {n : ℕ} (w : Service n) : Prop where
  sound : w.control.Sound
  ended : ∀ operationId ∈ w.record.barred, ∃ row, w.control.table.get operationId = some row ∧
    operationStateMachine.isTerminal row.status = true
  idle : w.NeverRuns

section
variable {n maxActive : ℕ} {w w' : Service n} {i : Fin n} {op : Operation} {move : ControlMove n} {control : Control n}

lemma handled_inFlight (hs : w.control.Sound) (h : w.handled i = some op) :
    ∃ row, w.control.table.get op.operationId = some row ∧ InFlight row.status := by
  obtain ⟨p, hprocess, hworker⟩ := bind_eq_some_iff.mp h
  split at hworker
  · rename_i held hhandling
    split_ifs at hworker
    cases hworker
    obtain ⟨row, hrow, -, hflight⟩ := (hs.process p hprocess).held i op (by rw [hhandling]; rfl)
    exact ⟨row, hrow, hflight⟩
  · cases hworker

lemma Rested.note_eq (hw : Rested w) (h : w.handled i = some op) : w.note op = w.record := by
  unfold Service.note
  rw [if_neg]
  intro hbarred
  obtain ⟨row, hrow, hterminal⟩ := hw.ended _ hbarred
  obtain ⟨row', hrow', hflight⟩ := handled_inFlight hw.sound h
  cases hrow.symm.trans hrow'
  rcases hflight with hrunning | hrequested
  · rw [hrunning] at hterminal
    cases hterminal
  · rw [hrequested] at hterminal
    cases hterminal

lemma Rested.dispatch (hw : Rested w) (h : w.dispatch move = some w') : Rested w' := by
  obtain ⟨control, hcontrol, rfl⟩ := map_eq_some_iff.mp h
  refine ⟨hw.sound.step hcontrol, fun operationId hbarred => ?_, hw.idle⟩
  obtain ⟨row, hget, hterminal⟩ := hw.ended operationId hbarred
  obtain ⟨row', hget', hmove⟩ := RowStep.of_step hw.sound hcontrol hget
  exact ⟨row', hget', by rw [hmove.legal.absorbed hterminal]; exact hterminal⟩

lemma Rested.congr (hw : Rested w) (hcontrol : w'.control = w.control) (hbarred : w'.record.barred = w.record.barred)
    (hworked : w'.record.worked = w.record.worked) : Rested w' := by
  refine ⟨hcontrol ▸ hw.sound, ?_, hworked.trans hw.idle⟩
  rw [hbarred, hcontrol]
  exact hw.ended

lemma Rested.enqueue {sessionId operationId targetId : String} {payload : Payload} {investigationId : Option String}
    {now : ℕ} (hw : Rested w) (h : w.enqueue sessionId operationId targetId payload investigationId now = some w') :
    Rested w' := by
  obtain ⟨queued, hqueued, rfl⟩ := map_eq_some_iff.mp h
  exact (hw.dispatch hqueued).congr rfl rfl rfl

lemma Rested.cancel {sessionId : String} (hw : Rested w) (hended : WhenEnded w (.cancel sessionId))
    (h : w.cancel sessionId = some w') : Rested w' := by
  have hbar : ∀ operationId ∈ (w.bar sessionId).barred, ∃ row, w.control.table.get operationId = some row ∧
      operationStateMachine.isTerminal row.status = true := by
    intro operationId hmem
    rcases List.mem_append.mp hmem with hnew | hold
    · obtain ⟨op, hop, rfl⟩ := List.mem_map.mp hnew
      exact ⟨op, OperationTable.get_of_mem (List.mem_filter.mp hop).1, hended op hop⟩
    · exact hw.ended operationId hold
  unfold Service.cancel at h
  split at h
  · cases h
  · split at h
    · cases h
      exact ⟨hw.sound, hbar, hw.idle⟩
    · split at h
      · cases h
      · cases h
        exact ⟨hw.sound, hbar, hw.idle⟩

lemma Rested.bind {fresh : String} (hw : Rested w) (h : w.bind maxActive i fresh = some w') : Rested w' := by
  unfold Service.bind at h
  obtain ⟨op, hop, h⟩ := bind_eq_some_iff.mp h
  obtain ⟨payload, -, h⟩ := bind_eq_some_iff.mp h
  obtain ⟨sessionId, -, h⟩ := bind_eq_some_iff.mp h
  obtain ⟨session, -, h⟩ := bind_eq_some_iff.mp h
  obtain ⟨message, -, h⟩ := bind_eq_some_iff.mp h
  split_ifs at h
  split at h
  · split at h
    · cases h
    · cases h
      rw [hw.note_eq hop]
      exact hw.congr rfl rfl rfl
    · obtain ⟨created, hcreated, rfl⟩ := map_eq_some_iff.mp h
      unfold Service.createInvestigation at hcreated
      split_ifs at hcreated
      cases hcreated
      have hworked : (w.note op).worked = w.record.worked := congrArg Record.worked (hw.note_eq hop)
      exact hw.congr rfl rfl hworked
  · cases h

lemma Rested.start (hw : Rested w) (h : w.start i = some w') : Rested w' := by
  unfold Service.start at h
  obtain ⟨op, hop, h⟩ := bind_eq_some_iff.mp h
  split at h
  · obtain ⟨row, -, h⟩ := bind_eq_some_iff.mp h
    split_ifs at h
    cases h
    rw [hw.note_eq hop]
    exact hw.congr rfl rfl rfl
  · cases h

lemma Rested.work (hw : Rested w) (h : w.work i = some w') : Rested w' := by
  unfold Service.work at h
  obtain ⟨op, hop, h⟩ := bind_eq_some_iff.mp h
  split at h
  · cases h
    rw [hw.note_eq hop]
    exact hw.congr rfl rfl rfl
  · cases h

lemma Rested.sync (hw : Rested w) (i : Fin n) : Rested (w.sync i) := by
  unfold Service.sync
  split
  · split
    · exact hw.congr rfl rfl rfl
    · exact hw
  · exact hw

lemma Rested.dispatched (hw : Rested w) (h : w.dispatched move = some w') : Rested w' := by
  unfold Service.dispatched at h
  split at h
  · obtain ⟨started, hstarted, rfl⟩ := map_eq_some_iff.mp h
    have hrested := hw.dispatch hstarted
    split
    · rename_i op hop
      rw [hrested.note_eq hop]
      exact hrested.congr rfl rfl rfl
    · exact hrested
  · split_ifs at h
    exact (hw.sync _).dispatch h
  · exact hw.dispatch h

lemma Rested.step {m : ServiceMove n} (hw : Rested w) (hgood : WhenEnded w m) (h : w.step maxActive m = some w') :
    Rested w' := by
  cases m with
  | createSession sessionId =>
    simp only [Service.step] at h
    split_ifs at h
    cases h
    exact hw.congr rfl rfl rfl
  | acceptMessage sessionId messageId operationId targetId content now =>
    simp only [Service.step, Service.acceptMessage] at h
    split at h
    · obtain ⟨queued, hqueued, rfl⟩ := map_eq_some_iff.mp h
      have hstored : Rested { w with messages := w.messages.set messageId ⟨sessionId, content⟩ } := hw.congr rfl rfl rfl
      exact (hstored.enqueue hqueued).congr rfl rfl rfl
    · cases h
  | resume sessionId messageId operationId targetId now =>
    simp only [Service.step, Service.resume] at h
    split at h
    · obtain ⟨queued, hqueued, rfl⟩ := map_eq_some_iff.mp h
      exact (hw.enqueue hqueued).congr rfl rfl rfl
    · cases h
  | cancel sessionId => exact hw.cancel hgood h
  | dispatch move => exact hw.dispatched h
  | bind i fresh => exact hw.bind h
  | start i => exact hw.start h
  | work i => exact hw.work h
  | settle investigationId target =>
    simp only [Service.step, Service.settle] at h
    obtain ⟨row, -, h⟩ := bind_eq_some_iff.mp h
    split_ifs at h
    cases h
    exact hw.congr rfl rfl rfl
  | refuse =>
    cases h
    exact hw.congr rfl rfl rfl

end

lemma sound_empty {n : ℕ} : ({} : Control n).Sound := by
  constructor
  · constructor
    · intro operationId row hget
      cases hget
    · rintro operationId (hmem | hmem) <;> cases hmem
  · intro p hp
    cases hp

/-- Over every run in which sessions are cancelled only when their operations have ended. -/
theorem cancelled_sessions_never_run (n maxActive : ℕ) (w : Service n)
    (hw : (service n maxActive).Reached WhenEnded w) : w.NeverRuns := by
  have hrested : Rested w := by
    refine hw.invariant ?_ fun _ _ _ hrested hgood hstep => hrested.step hgood hstep
    exact ⟨sound_empty, fun _ h => absurd h List.not_mem_nil, rfl⟩
  exact hrested.idle

/-- A message is cancelled with its session before it is claimed: its investigation is created and started. -/
theorem queued_message_runs : ∃ w : Service 1, (service 1 4).runFrom {}
      [.dispatch (.boot noInvestigations 0), .createSession "ses-1",
        .acceptMessage "ses-1" "msg-1" "op-1" "web" "slow".toList 1, .cancel "ses-1", .dispatch (.claim 0 2),
        .dispatch (.start 0), .bind 0 "inv-1", .start 0] = some w ∧
    (w.investigations.get? "inv-1").map Investigation.status = some .running ∧
    w.record.worked = ["op-1", "op-1", "op-1"] ∧ ¬ w.NeverRuns := by
  refine ⟨_, rfl, rfl, rfl, fun h => ?_⟩
  cases h

def dealtWith : List (ServiceMove 1) :=
  [.dispatch (.boot noInvestigations 0), .createSession "ses-1",
    .acceptMessage "ses-1" "msg-1" "op-1" "web" "slow".toList 1, .dispatch (.claim 0 2), .dispatch (.start 0),
    .bind 0 "inv-1", .start 0, .work 0, .dispatch (.finish 0 (.returned none) 3)]

/-- A session whose message has been dealt with. -/
theorem ended_session_rests : ∃ w w' : Service 1, (service 1 4).runFrom {} dealtWith = some w ∧
    w.step 4 (.cancel "ses-1") = some w' ∧ w'.record.barred = ["op-1"] ∧ w'.NeverRuns := by
  have hrests : ∀ w w' : Service 1, (service 1 4).runFrom {} dealtWith = some w → w.step 4 (.cancel "ses-1") = some w' →
      WhenEnded w (.cancel "ses-1") → w'.NeverRuns := by
    intro w w' hrun hstep hended
    refine cancelled_sessions_never_run 1 4 w' (.next (.cancel "ses-1") ?_ hended hstep)
    refine System.Reached.runFrom .start dealtWith (fun w move hmove => ?_) hrun
    simp only [dealtWith, List.mem_cons, List.not_mem_nil, or_false] at hmove
    rcases hmove with rfl | rfl | rfl | rfl | rfl | rfl | rfl | rfl | rfl <;> exact trivial
  refine ⟨_, _, rfl, rfl, rfl, hrests _ _ rfl rfl fun op hop => ?_⟩
  rw [List.mem_singleton.mp hop]
  rfl

end IncidentLens.AgentSessions
