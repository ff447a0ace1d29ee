import IncidentLens.Operations.Attempts

/-!
# Requests to cancel

A request may reach an operation in the queue, while its handler runs, or when the process that ran it
is gone. Who asked for what, and which handlers have ended, is kept beside the store and the processes.
-/
namespace IncidentLens.Operations
open Effects Investigations OperationTable Control List

namespace Control
variable {n : ℕ}

def operationAt (s : Control n) (i : Fin n) : Option Operation := s.process.bind fun p => (p.workers i).operation

def ending (s : Control n) : ControlMove n → Option (String × HandlerOutcome)
  | .finish i outcome _ => (s.operationAt i).map fun op => (op.operationId, outcome)
  | _ => none

end Control

def ControlMove.request {n : ℕ} : ControlMove n → Option String
  | .cancel operationId _ => some operationId
  | _ => none

/-- Accepted requests, operations whose handler has ended, and those whose handler returned successfully. -/
structure Watched (n : ℕ) where
  control : Control n := {}
  requested : List String := []
  ended : List String := []
  returned : List String := []

def Watched.step {n : ℕ} (handlers : OperationKind → Bool) (w : Watched n) (move : ControlMove n) : Option (Watched n) :=
  (w.control.step handlers move).map fun control =>
    { control := control
      requested := move.request.toList ++ w.requested
      ended := ((w.control.ending move).map Prod.fst).toList ++ w.ended
      returned := match w.control.ending move with
        | some (operationId, .returned none) => operationId :: w.returned
        | _ => w.returned }

def watched (n : ℕ) (handlers : OperationKind → Bool) : System (Watched n) (ControlMove n) := ⟨{}, Watched.step handlers⟩

/-- A transition of the table, or the return of interrupted work to the queue. -/
def Legal (before after : OperationStatus) : Prop :=
  after = before ∨ operationStateMachine.canTransition before after = true ∨ before = .running ∧ after = .queued

/-- Worker `i` of a process that goes on holds the operation. -/
def Control.Held {n : ℕ} (s : Control n) (operationId : String) : Prop :=
  ∃ p, s.process = some p ∧ p.active = true ∧ ∃ i a, (p.workers i).operation = some a ∧ a.operationId = operationId

/-- Every step is legal; what returned successfully is not recorded as failed, and what was requested is
cancelled if its handler has not ended; a handler that has ended leaves a terminal status; and until then
a request waits for its handler, or for the next process to cancel it. -/
structure Watched.EndsCorrectly {n : ℕ} (handlers : OperationKind → Bool) (w : Watched n) : Prop where
  legal : ∀ move w', w.step handlers move = some w' → ∀ operationId row, w.control.table.get operationId = some row →
    ∃ row', w'.control.table.get operationId = some row' ∧ Legal row.status row'.status
  succeeded : ∀ operationId ∈ w.returned, ∃ row, w.control.table.get operationId = some row ∧ row.status = .succeeded
  cancelled : ∀ operationId ∈ w.requested, operationId ∉ w.ended → ∃ row, w.control.table.get operationId = some row ∧
    (row.status = .cancelRequested ∨ row.status = .cancelled)
  terminal : ∀ operationId ∈ w.ended, ∃ row, w.control.table.get operationId = some row ∧
    operationStateMachine.isTerminal row.status = true
  settles : ∀ operationId row, w.control.table.get operationId = some row → row.status = .cancelRequested →
    w.control.Held operationId ∨ (∀ p, w.control.process = some p → p.active = false) ∧
      ∀ linked now, ∃ row', (w.control.table.recover linked now).get operationId = some row' ∧ row'.status = .cancelled

/-- No handler returns successfully once its operation is to be cancelled. -/
def Uncrossed {n : ℕ} (w : Watched n) (move : ControlMove n) : Prop :=
  ∀ operationId, w.control.ending move = some (operationId, .returned none) →
    ∀ row, w.control.table.get operationId = some row → row.status ≠ .cancelRequested

/-! ### What each step does -/

section
variable {n : ℕ} {s s' : Control n} {p : Process n} {t : OperationTable} {handlers : OperationKind → Bool}
  {move : ControlMove n} {operationId : String} {row : Operation} {before after : OperationStatus}

def recordedAs (before : OperationStatus) : HandlerOutcome → OperationStatus
  | .returned none => if before = .running then .succeeded else .failed
  | _ => .failed

structure RowStep (s : Control n) (move : ControlMove n) (operationId : String) (before after : OperationStatus) : Prop where
  legal : Legal before after
  ended : ∀ outcome, s.ending move = some (operationId, outcome) → InFlight before ∧ after = recordedAs before outcome
  requested : move.request = some operationId → after = .cancelRequested ∨ after = .cancelled
  pending : before = .cancelRequested → (∀ outcome, s.ending move ≠ some (operationId, outcome)) →
    after = .cancelRequested ∨ after = .cancelled

lemma RowStep.plain (hending : s.ending move = none) (hrequest : move.request = none) (hlegal : Legal before after)
    (hpending : before = .cancelRequested → after = .cancelRequested ∨ after = .cancelled) :
    RowStep s move operationId before after := by
  refine ⟨hlegal, fun outcome h => ?_, fun h => ?_, fun h _ => hpending h⟩
  · rw [hending] at h
    cases h
  · rw [hrequest] at h
    cases h

lemma RowStep.same (hending : s.ending move = none) (hrequest : move.request = none) :
    RowStep s move operationId before before := .plain hending hrequest (.inl rfl) .inl

lemma RowStep.asked (hending : s.ending move = none) (hlegal : Legal before after)
    (hafter : after = .cancelRequested ∨ after = .cancelled) : RowStep s move operationId before after := by
  refine ⟨hlegal, fun outcome h => ?_, fun _ => hafter, fun _ _ => hafter⟩
  rw [hending] at h
  cases h

lemma legal_result (decision : Decision) (status : OperationStatus) : Legal status (decision.result status) := by
  cases decision with
  | keep => exact .inl rfl
  | move target =>
    simp only [Decision.result]
    split_ifs with hlegal
    · exact .inr (.inl hlegal)
    · exact .inl rfl
  | requeue =>
    simp only [Decision.result]
    split_ifs with hrunning
    · exact .inr (.inr ⟨hrunning, rfl⟩)
    · exact .inl rfl

lemma get_pass_follow {rule : Operation → Decision} {count now : ℕ} (hget : t.get operationId = some row) :
    ∃ row', ((t.listNonTerminal.take count).foldl (fun t op => t.follow op.operationId now (rule op)) t).get operationId =
        some row' ∧ (row'.status = (rule row).result row.status ∨ row' = row) := by
  obtain ⟨row', hrow', -, hrel⟩ := (@rel_foldl t operationId
    (fun t op => t.follow op.operationId now (rule op)) (fun op op' => op'.status = (rule op).result op.status)
    (fun t op h => by
      obtain ⟨op', hmoved, hstatus, -⟩ := follow_spec h now (rule op)
      exact ⟨op', hmoved, hstatus⟩)
    (t.listNonTerminal.take count)
    (nodup_listNonTerminal.sublist ((take_sublist _ _).map _))
    (fun op hop => get_of_mem
      (mem_listNonTerminal.mp (mem_of_mem_take hop)).1)).2 row hget
  refine ⟨row', hrow', ?_⟩
  split_ifs at hrel
  · exact .inl hrel
  · exact .inr hrel

lemma RowStep.pass {rule : Operation → Decision} {count now : ℕ} (hget : t.get operationId = some row)
    (hrule : row.status = .cancelRequested → rule row = .keep ∨ rule row = .move .cancelled)
    (hending : s.ending move = none) (hrequest : move.request = none) :
    ∃ row', ((t.listNonTerminal.take count).foldl (fun t op => t.follow op.operationId now (rule op)) t).get operationId =
        some row' ∧ RowStep s move operationId row.status row'.status := by
  obtain ⟨row', hrow', hstatus | hsame⟩ := @get_pass_follow t operationId row rule count now hget
  · refine ⟨row', hrow', .plain hending hrequest (hstatus ▸ legal_result _ _) fun hrequested => ?_⟩
    rw [hstatus]
    rcases hrule hrequested with hdecision | hdecision
    · rw [hdecision]
      exact .inl hrequested
    · rw [hdecision, hrequested]
      exact .inr rfl
  · exact ⟨row', hrow', by rw [hsame]; exact .same hending hrequest⟩

lemma sweepUpTo_eq (count now : ℕ) (t : OperationTable) : t.sweepUpTo count now =
    (t.listNonTerminal.take count).foldl (fun t op => t.follow op.operationId now (sweepDecision op)) t := by
  rw [sweepUpTo]
  congr 1
  funext t op
  exact sweepRow_eq now t op

lemma recoverUpTo_eq (count : ℕ) (linked : OperationTable.Investigations) (now : ℕ) (t : OperationTable) :
    t.recoverUpTo count linked now =
      (t.listNonTerminal.take count).foldl (fun t op => t.follow op.operationId now (recoveryDecision linked op)) t := by
  rw [recoverUpTo]
  congr 1
  funext t op
  exact classify_eq linked now t op

lemma sweepDecision_of_requested (h : row.status = .cancelRequested) :
    sweepDecision row = .keep ∨ sweepDecision row = .move .cancelled :=
  .inl (sweepDecision_of_ne (by rw [h]; decide))

lemma recoveryDecision_of_requested {linked : OperationTable.Investigations} (h : row.status = .cancelRequested) :
    recoveryDecision linked row = .keep ∨ recoveryDecision linked row = .move .cancelled := by
  right
  rw [recoveryDecision, h]

lemma conclude_eq {op : Operation} (hget : t.get op.operationId = some row) (hflight : InFlight row.status)
    (outcome : HandlerOutcome) (now : ℕ) :
    conclude t op outcome now = t.tryTransition op.operationId (recordedAs row.status outcome) now := by
  unfold conclude
  cases outcome with
  | raised => rfl
  | returned errorCode =>
    cases errorCode with
    | some code =>
      simp only [Option.isSome_some, if_true, recordedAs, tryTransition]
      cases t.transition op.operationId .failed now <;> rfl
    | none =>
      simp only [Option.isSome_none, Bool.false_eq_true, if_false, recordedAs]
      rcases hflight with hrunning | hrequested
      · have hlegal : operationStateMachine.canTransition .running .succeeded = true := rfl
        simp [tryTransition, transition, hget, hrunning, hlegal]
      · have hnot : operationStateMachine.canTransition .cancelRequested .succeeded = false := rfl
        have hne : OperationStatus.cancelRequested ≠ .running := by decide
        simp [transition, hget, hrequested, hnot, hne]

lemma conclude_status {op : Operation} (hget : t.get op.operationId = some row) (hflight : InFlight row.status)
    (outcome : HandlerOutcome) (now : ℕ) : ∃ row', t.Moved (conclude t op outcome now) row row' ∧
      row'.status = recordedAs row.status outcome ∧ Legal row.status row'.status := by
  have hid := operationId_of_get hget
  rw [conclude_eq hget hflight, ← hid]
  obtain ⟨row', hmoved, hstatus⟩ := tryTransition_spec (hid.symm ▸ hget)
    (recordedAs row.status outcome) now
  have hlegal : operationStateMachine.canTransition row.status (recordedAs row.status outcome) = true := by
    rcases hflight with hrunning | hrequested
    · rw [hrunning]
      unfold recordedAs
      split <;> rfl
    · rw [hrequested]
      unfold recordedAs
      split <;> rfl
  rw [if_pos hlegal] at hstatus
  exact ⟨row', hmoved, hstatus, .inr (.inl (hstatus ▸ hlegal))⟩

lemma recordedAs_cases (before : OperationStatus) (outcome : HandlerOutcome) :
    recordedAs before outcome = .succeeded ∨ recordedAs before outcome = .failed := by
  unfold recordedAs
  split
  · split_ifs
    · exact .inl rfl
    · exact .inr rfl
  · exact .inr rfl

lemma RowStep.moved {t' : OperationTable} {op op' : Operation} (hmoved : t.Moved t' op op')
    (hstep : RowStep s move op.operationId op.status op'.status) (hending : ∀ other outcome, other ≠ op.operationId →
      s.ending move ≠ some (other, outcome)) (hrequest : ∀ other, other ≠ op.operationId → move.request ≠ some other)
    (hget : t.get operationId = some row) :
    ∃ row', t'.get operationId = some row' ∧ RowStep s move operationId row.status row'.status := by
  rw [hmoved.get]
  split_ifs with hid
  · rw [hid, hmoved.before] at hget
    cases hget
    exact ⟨op', rfl, hid ▸ hstep⟩
  · refine ⟨row, hget, .inl rfl, fun outcome h => ?_, fun h => ?_, fun h _ => .inl h⟩
    · exact absurd h (hending _ outcome hid)
    · exact absurd h (hrequest _ hid)

lemma RowStep.of_stepAlive (hs : s.Sound) (hprocess : s.process = some p)
    (hstep : s.stepAlive handlers p move = some s') (hget : s.table.get operationId = some row) :
    ∃ row', s'.table.get operationId = some row' ∧ RowStep s move operationId row.status row'.status := by
  have hp := hs.process p hprocess
  cases move with
  | create op =>
    simp only [stepAlive] at hstep
    split at hstep
    · rename_i table hcreate
      cases hstep
      obtain ⟨hnone, htable⟩ := create_eq_ok hcreate
      refine ⟨row, ?_, .same rfl rfl⟩
      rw [htable, if_neg]
      · exact hget
      · rintro rfl
        rw [hnone] at hget
        cases hget
    · cases hstep
  | cancel requestedId now =>
    simp only [stepAlive] at hstep
    split at hstep
    · rename_i table hcancel
      cases hstep
      obtain ⟨op, op', hop, hmoved, hcases⟩ := cancel_eq_ok hcancel
      have hid := operationId_of_get hop
      refine RowStep.moved hmoved ?_ (fun _ _ _ h => by cases h) (fun other hne h => ?_) hget
      · rcases hcases with ⟨hold, hnew⟩ | ⟨hold, hnew⟩ | ⟨hsame, hover⟩
        · rw [hold, hnew]
          exact .asked rfl (.inr (.inl rfl)) (.inl rfl)
        · rw [hold, hnew]
          exact .asked rfl (.inr (.inl rfl)) (.inr rfl)
        · rw [hsame]
          exact .asked rfl (.inl rfl) hover
      · cases h
        exact hne hid.symm
    · cases hstep
  | claim i now =>
    simp only [stepAlive] at hstep
    split at hstep
    · split at hstep
      · rename_i claimed table hclaim
        cases hstep
        obtain ⟨op, hqueued, hrunning, hmoved, -⟩ := claimNext_eq_some hclaim
        refine RowStep.moved hmoved ?_ (fun _ _ _ h => by cases h) (fun _ _ h => by cases h) hget
        rw [hqueued, hrunning]
        exact .plain rfl rfl (.inr (.inl rfl)) fun h => by cases h
      · cases hstep
    · cases hstep
  | start i =>
    simp only [stepAlive] at hstep
    split at hstep
    · cases hstep
      exact ⟨row, hget, .same rfl rfl⟩
    · cases hstep
  | heartbeat i now =>
    simp only [stepAlive] at hstep
    split at hstep
    · rename_i op hhandling
      cases hstep
      obtain ⟨held, hheld, -⟩ := hp.held i op (by rw [hhandling]; rfl)
      obtain ⟨held', hstatus, hmoved⟩ := heartbeat_spec hheld now
      refine RowStep.moved hmoved ?_ (fun _ _ _ h => by cases h) (fun _ _ h => by cases h) hget
      rw [hstatus]
      exact .same rfl rfl
    · cases hstep
  | finish i outcome now =>
    simp only [stepAlive] at hstep
    split at hstep
    · rename_i op hhandling
      cases hstep
      have hop : (p.workers i).operation = some op := by
        rw [hhandling]
        rfl
      obtain ⟨held, hheld, -, hflight⟩ := hp.held i op hop
      have hid := operationId_of_get hheld
      obtain ⟨held', hmoved, hstatus, hlegal⟩ := conclude_status hheld hflight outcome now
      have hending : s.ending (.finish i outcome now) = some (op.operationId, outcome) := by
        simp [ending, operationAt, hprocess, hop]
      refine RowStep.moved hmoved ⟨hlegal, fun other h => ?_, fun h => (by cases h), fun _ h => ?_⟩
        (fun other _ hne h => ?_) (fun _ _ h => by cases h) hget
      · rw [hending, hid] at h
        cases h
        exact ⟨hflight, hstatus⟩
      · exact absurd (hid ▸ hending) (h outcome)
      · rw [hending, ← hid] at h
        cases h
        exact hne rfl
    · cases hstep
  | stop =>
    cases hstep
    exact ⟨row, hget, .same rfl rfl⟩
  | interrupt i =>
    simp only [stepAlive] at hstep
    split at hstep
    · cases hstep
      exact ⟨row, hget, .same rfl rfl⟩
    · cases hstep
  | sweep count now =>
    simp only [stepAlive] at hstep
    split_ifs at hstep
    cases hstep
    rw [sweepUpTo_eq]
    exact RowStep.pass hget sweepDecision_of_requested rfl rfl
  | die =>
    cases hstep
    exact ⟨row, hget, .same rfl rfl⟩
  | boot linked now => cases hstep
  | dieInRecovery count linked now => cases hstep

lemma RowStep.of_step (hs : s.Sound) (hstep : s.step handlers move = some s')
    (hget : s.table.get operationId = some row) :
    ∃ row', s'.table.get operationId = some row' ∧ RowStep s move operationId row.status row'.status := by
  unfold step at hstep
  split at hstep
  · rename_i p hprocess
    exact RowStep.of_stepAlive hs hprocess hstep hget
  · split at hstep
    · cases hstep
      rw [recover_eq, recoverUpTo_eq]
      exact RowStep.pass hget recoveryDecision_of_requested rfl rfl
    · cases hstep
      rw [recoverUpTo_eq]
      exact RowStep.pass hget recoveryDecision_of_requested rfl rfl
    · cases hstep

/-! ### Who holds what -/

/-- Every operation in flight is held, as long as the process goes on. -/
def Busy (s : Control n) : Prop :=
  ∀ p, s.process = some p → p.active = true → ∀ operationId row, s.table.get operationId = some row →
    InFlight row.status → ∃ i a, (p.workers i).operation = some a ∧ a.operationId = operationId

lemma not_inFlight_result (linked : OperationTable.Investigations) (row : Operation) :
    ¬ InFlight ((recoveryDecision linked row).result row.status) := by
  unfold recoveryDecision InFlight
  cases hstatus : row.status with
  | running =>
    dsimp only
    cases row.kind with
    | agentMessage =>
      rcases reconcileDecision_cases linked row with hdecision | hdecision | hdecision <;> simp only [hdecision] <;> decide
    | investigationStart =>
      rcases reconcileDecision_cases linked row with hdecision | hdecision | hdecision <;> simp only [hdecision] <;> decide
    | _ =>
      dsimp only
      decide
  | _ =>
    dsimp only
    decide

lemma get_recover {linked : OperationTable.Investigations} {now : ℕ} :
    (t.get operationId = none → (t.recover linked now).get operationId = none) ∧
      ∀ row, t.get operationId = some row → ∃ row', (t.recover linked now).get operationId = some row' ∧
        ¬ InFlight row'.status ∧ (row.status = .cancelRequested → row'.status = .cancelled) := by
  obtain ⟨hnone, hsome⟩ := Ledger.get_passAll (recoveryDecision linked)
    (fun _ => recoveryDecision_of_terminal) now ⟨t, []⟩ operationId
  change (_ → ((⟨t, []⟩ : Ledger).recover linked now).table.get operationId = none) at hnone
  change ∀ before, _ → ∃ row, ((⟨t, []⟩ : Ledger).recover linked now).table.get operationId = some row ∧ _ at hsome
  rw [Ledger.recover_table] at hnone
  refine ⟨hnone, fun row hget => ?_⟩
  obtain ⟨row', hrow', hstatus, -⟩ := hsome row hget
  rw [Ledger.recover_table] at hrow'
  refine ⟨row', hrow', ?_, fun hrequested => ?_⟩
  · rw [hstatus]
    exact not_inFlight_result linked row
  · rw [hstatus, recoveryDecision, hrequested]
    rfl

lemma Busy.moved {t' : OperationTable} {op op' : Operation} {history : History} (hs : Busy s)
    (hmoved : s.table.Moved t' op op') (hflight : InFlight op'.status → InFlight op.status) :
    Busy { s with table := t', history := history } := by
  intro p hp hactive operationId row hget hrow
  rw [hmoved.get] at hget
  split_ifs at hget with hid
  · cases hget
    exact hs p hp hactive operationId op (hid ▸ hmoved.before) (hflight hrow)
  · exact hs p hp hactive operationId row hget hrow

lemma Busy.stepAlive (hs : s.Sound) (hbusy : Busy s) (hprocess : s.process = some p)
    (hstep : s.stepAlive handlers p move = some s') : Busy s' := by
  have hp := hs.process p hprocess
  cases move with
  | create op =>
    simp only [stepAlive] at hstep
    split at hstep
    · rename_i table hcreate
      cases hstep
      obtain ⟨hnone, htable⟩ := create_eq_ok hcreate
      intro q hq hactive operationId row hget hflight
      rw [htable] at hget
      split_ifs at hget
      · cases hget
        rcases hflight with h | h <;> cases h
      · exact hbusy q hq hactive operationId row hget hflight
    · cases hstep
  | cancel requestedId now =>
    simp only [stepAlive] at hstep
    split at hstep
    · rename_i table hcancel
      cases hstep
      obtain ⟨op, op', -, hmoved, hcases⟩ := cancel_eq_ok hcancel
      refine hbusy.moved hmoved fun hflight => ?_
      rcases hcases with ⟨hold, -⟩ | ⟨-, hnew⟩ | ⟨hsame, -⟩
      · exact .inl hold
      · rw [hnew] at hflight
        rcases hflight with h | h <;> cases h
      · rw [← hsame]
        exact hflight
    · cases hstep
  | claim i now =>
    simp only [stepAlive] at hstep
    split at hstep
    · rename_i hactive hpolling
      split at hstep
      · rename_i claimed table hclaim
        cases hstep
        obtain ⟨op, -, -, hmoved, -⟩ := claimNext_eq_some hclaim
        intro q hq _ operationId row hget hflight
        cases hq
        rw [hmoved.get] at hget
        simp only [Process.hold, operation_update]
        split_ifs at hget with hid
        · refine ⟨i, claimed, ?_, ?_⟩
          · rw [if_pos rfl]
            rfl
          · rw [hmoved.same, hid]
        · obtain ⟨j, a, ha, hsame⟩ := hbusy p hprocess hactive operationId row hget hflight
          refine ⟨j, a, ?_, hsame⟩
          rw [if_neg]
          · exact ha
          · intro hj
            rw [hj, hpolling] at ha
            cases ha
      · cases hstep
    · cases hstep
  | start i =>
    simp only [stepAlive] at hstep
    split at hstep
    · rename_i op hclaimed
      cases hstep
      intro q hq hactive operationId row hget hflight
      cases hq
      obtain ⟨j, a, ha, hsame⟩ := hbusy p hprocess hactive operationId row hget hflight
      refine ⟨j, a, ?_, hsame⟩
      rw [operation_update]
      split_ifs with hj
      · rw [hj, hclaimed] at ha
        exact ha
      · exact ha
    · cases hstep
  | heartbeat i now =>
    simp only [stepAlive] at hstep
    split at hstep
    · rename_i op hhandling
      cases hstep
      obtain ⟨held, hheld, -⟩ := hp.held i op (by rw [hhandling]; rfl)
      obtain ⟨held', hstatus, hmoved⟩ := heartbeat_spec hheld now
      exact hbusy.moved hmoved fun hflight => hstatus ▸ hflight
    · cases hstep
  | finish i outcome now =>
    simp only [stepAlive] at hstep
    split at hstep
    · rename_i op hhandling
      cases hstep
      have hop : (p.workers i).operation = some op := by
        rw [hhandling]
        rfl
      obtain ⟨held, hheld, -, hflight⟩ := hp.held i op hop
      have hid := operationId_of_get hheld
      obtain ⟨held', hmoved, hstatus, -⟩ := conclude_status hheld hflight outcome now
      intro q hq hactive operationId row hget hrow
      cases hq
      rw [hmoved.get] at hget
      split_ifs at hget with hsame
      · cases hget
        rw [hstatus] at hrow
        rcases recordedAs_cases held.status outcome with hrecorded | hrecorded <;> rw [hrecorded] at hrow <;>
          rcases hrow with h | h <;> cases h
      · obtain ⟨j, a, ha, haid⟩ := hbusy p hprocess hactive operationId row hget hrow
        refine ⟨j, a, ?_, haid⟩
        simp only [Process.release, operation_update]
        rw [if_neg]
        · exact ha
        · intro hj
          rw [hj, hop] at ha
          cases ha
          exact hsame (haid.symm.trans hid.symm)
    · cases hstep
  | stop =>
    cases hstep
    intro q hq hactive
    cases hq
    cases hactive
  | interrupt i =>
    simp only [stepAlive] at hstep
    split at hstep
    · rename_i op hidle hhandling
      cases hstep
      intro q hq hactive
      cases hq
      change p.active = true at hactive
      rw [hidle] at hactive
      cases hactive
    · cases hstep
  | sweep count now =>
    simp only [stepAlive] at hstep
    split_ifs at hstep with hidle
    cases hstep
    intro q hq hactive
    rw [hprocess] at hq
    cases hq
    rw [hidle.1] at hactive
    cases hactive
  | die =>
    cases hstep
    intro q hq
    cases hq
  | boot linked now => cases hstep
  | dieInRecovery count linked now => cases hstep

lemma Busy.step (hs : s.Sound) (hbusy : Busy s) (hstep : s.step handlers move = some s') : Busy s' := by
  unfold Control.step at hstep
  split at hstep
  · rename_i p hprocess
    exact hbusy.stepAlive hs hprocess hstep
  · rename_i hdead
    split at hstep
    · rename_i linked now
      cases hstep
      intro p hp _ operationId row hget hflight
      obtain ⟨hnone, hsome⟩ := @get_recover s.table operationId linked now
      cases hbefore : s.table.get operationId with
      | none =>
        rw [hnone hbefore] at hget
        cases hget
      | some before =>
        obtain ⟨row', hrow', hidle, -⟩ := hsome before hbefore
        cases hget.symm.trans hrow'
        exact absurd hflight hidle
    · cases hstep
      intro p hp
      rw [hdead] at hp
      cases hp
    · cases hstep

/-! ### Every run -/

/-- What holds of every run whose handlers return successfully only while nobody asked to cancel. -/
structure Settled (w : Watched n) : Prop where
  sound : w.control.Sound
  busy : Busy w.control
  succeeded : ∀ operationId ∈ w.returned, ∃ row, w.control.table.get operationId = some row ∧ row.status = .succeeded
  cancelled : ∀ operationId ∈ w.requested, operationId ∉ w.ended → ∃ row, w.control.table.get operationId = some row ∧
    (row.status = .cancelRequested ∨ row.status = .cancelled)
  terminal : ∀ operationId ∈ w.ended, ∃ row, w.control.table.get operationId = some row ∧
    operationStateMachine.isTerminal row.status = true

lemma Legal.absorbed (h : Legal before after) (hterminal : operationStateMachine.isTerminal before = true) :
    after = before := by
  rcases h with hsame | hmove | ⟨hrunning, -⟩
  · exact hsame
  · rw [operationStateMachine.not_canTransition_of_isTerminal hterminal] at hmove
    cases hmove
  · rw [hrunning] at hterminal
    cases hterminal

lemma Control.Sound.ending_row {outcome : HandlerOutcome} (hs : s.Sound)
    (h : s.ending move = some (operationId, outcome)) : ∃ row, s.table.get operationId = some row := by
  cases move with
  | finish i result now =>
    obtain ⟨op, hop, hid⟩ := Option.map_eq_some_iff.mp h
    obtain ⟨p, hprocess, hheld⟩ := Option.bind_eq_some_iff.mp hop
    obtain ⟨row, hrow, -⟩ := (hs.process p hprocess).held i op hheld
    cases hid
    exact ⟨row, hrow⟩
  | _ => cases h

lemma request_row (hstep : s.step handlers move = some s') (h : move.request = some operationId) :
    ∃ row, s.table.get operationId = some row := by
  cases move with
  | cancel requestedId now =>
    cases h
    unfold step at hstep
    split at hstep
    · simp only [stepAlive] at hstep
      split at hstep
      · rename_i table hcancel
        obtain ⟨op, -, hop, -⟩ := cancel_eq_ok hcancel
        exact ⟨op, hop⟩
      · cases hstep
    · cases hstep
  | _ => cases h

lemma Settled.step {w w' : Watched n} (hw : Settled w) (hgood : Uncrossed w move)
    (hstep : w.step handlers move = some w') : Settled w' := by
  obtain ⟨control, hcontrol, rfl⟩ := Option.map_eq_some_iff.mp hstep
  have hrow : ∀ operationId row, w.control.table.get operationId = some row →
      ∃ row', control.table.get operationId = some row' ∧
        RowStep w.control move operationId row.status row'.status :=
    fun operationId row hget => RowStep.of_step hw.sound hcontrol hget
  have hended : ∀ operationId outcome, w.control.ending move = some (operationId, outcome) →
      ∃ row row', w.control.table.get operationId = some row ∧ control.table.get operationId = some row' ∧
        InFlight row.status ∧ row'.status = recordedAs row.status outcome := by
    intro operationId outcome h
    obtain ⟨row, hget⟩ := hw.sound.ending_row h
    obtain ⟨row', hget', hmove⟩ := hrow operationId row hget
    obtain ⟨hflight, hstatus⟩ := hmove.ended outcome h
    exact ⟨row, row', hget, hget', hflight, hstatus⟩
  have hkept : ∀ operationId row, w.control.table.get operationId = some row →
      operationStateMachine.isTerminal row.status = true →
      ∃ row', control.table.get operationId = some row' ∧ row'.status = row.status := by
    intro operationId row hget hterminal
    obtain ⟨row', hget', hmove⟩ := hrow operationId row hget
    exact ⟨row', hget', hmove.legal.absorbed hterminal⟩
  refine ⟨hw.sound.step hcontrol, hw.busy.step hw.sound hcontrol, ?_, ?_, ?_⟩
  · intro operationId hmem
    have hcases : w.control.ending move = some (operationId, .returned none) ∨ operationId ∈ w.returned := by
      dsimp only at hmem
      split at hmem
      · rename_i id hending
        rcases mem_cons.mp hmem with hsame | hmem
        · rw [hsame]
          exact .inl hending
        · exact .inr hmem
      · exact .inr hmem
    rcases hcases with hending | hmem
    · obtain ⟨row, row', hget, hget', hflight, hstatus⟩ := hended operationId _ hending
      refine ⟨row', hget', ?_⟩
      have hrunning : row.status = .running := hflight.resolve_right (hgood operationId hending row hget)
      rw [hstatus, recordedAs, if_pos hrunning]
    · obtain ⟨row, hget, hstatus⟩ := hw.succeeded operationId hmem
      obtain ⟨row', hget', hsame⟩ := hkept operationId row hget (by rw [hstatus]; rfl)
      exact ⟨row', hget', hsame.trans hstatus⟩
  · intro operationId hmem hnot
    have hopen : ∀ outcome, w.control.ending move ≠ some (operationId, outcome) := by
      intro outcome h
      refine hnot (mem_append_left _ ?_)
      rw [h]
      exact mem_singleton_self _
    rcases mem_append.mp hmem with hnew | hmem
    · have hrequest : move.request = some operationId := by simpa using hnew
      obtain ⟨row, hget⟩ := request_row hcontrol hrequest
      obtain ⟨row', hget', hmove⟩ := hrow operationId row hget
      exact ⟨row', hget', hmove.requested hrequest⟩
    · obtain ⟨row, hget, hstatus⟩ := hw.cancelled operationId hmem fun h => hnot (mem_append_right _ h)
      obtain ⟨row', hget', hmove⟩ := hrow operationId row hget
      refine ⟨row', hget', ?_⟩
      rcases hstatus with hrequested | hcancelled
      · exact hmove.pending hrequested hopen
      · right
        rw [hmove.legal.absorbed (by rw [hcancelled]; rfl), hcancelled]
  · intro operationId hmem
    rcases mem_append.mp hmem with hnew | hmem
    · obtain ⟨⟨id, outcome⟩, hending, rfl⟩ : ∃ e, w.control.ending move = some e ∧ e.1 = operationId := by
        simpa using hnew
      obtain ⟨row, row', -, hget', -, hstatus⟩ := hended id outcome hending
      refine ⟨row', hget', ?_⟩
      rcases recordedAs_cases row.status outcome with h | h <;> rw [hstatus, h] <;> rfl
    · obtain ⟨row, hget, hterminal⟩ := hw.terminal operationId hmem
      obtain ⟨row', hget', hsame⟩ := hkept operationId row hget hterminal
      exact ⟨row', hget', hsame ▸ hterminal⟩

lemma Settled.endsCorrectly {w : Watched n} (hw : Settled w) : w.EndsCorrectly handlers := by
  refine ⟨fun move w' hstep operationId row hget => ?_, hw.succeeded, hw.cancelled, hw.terminal, ?_⟩
  · obtain ⟨control, hcontrol, rfl⟩ := Option.map_eq_some_iff.mp hstep
    obtain ⟨row', hget', hmove⟩ := RowStep.of_step hw.sound hcontrol hget
    exact ⟨row', hget', hmove.legal⟩
  · intro operationId row hget hrequested
    by_cases halive : ∃ p, w.control.process = some p ∧ p.active = true
    · obtain ⟨p, hprocess, hactive⟩ := halive
      exact .inl ⟨p, hprocess, hactive, hw.busy p hprocess hactive operationId row hget (.inr hrequested)⟩
    · refine .inr ⟨fun p hprocess => ?_, fun linked now => ?_⟩
      · rw [Bool.eq_false_iff]
        exact fun hactive => halive ⟨p, hprocess, hactive⟩
      · obtain ⟨row', hrow', -, hcancelled⟩ := (@get_recover w.control.table operationId linked now).2 row hget
        exact ⟨row', hrow', hcancelled hrequested⟩

end

/-- Over all processes, whatever they come to, as long as no handler returns successfully after a request. -/
theorem requests_end_correctly (n : ℕ) (handlers : OperationKind → Bool) (w : Watched n)
    (hw : (watched n handlers).Reached Uncrossed w) : w.EndsCorrectly handlers := by
  have hsettled : Settled w := by
    refine hw.invariant ?_ fun _ _ _ hsettled hgood hstep => hsettled.step hgood hstep
    constructor
    · constructor
      · constructor
        · intro operationId row hget
          cases hget
        · rintro operationId (hmem | hmem) <;> cases hmem
      · intro p hp
        cases hp
    · intro p hp
      cases hp
    · exact fun _ h => absurd h not_mem_nil
    · exact fun _ h => absurd h not_mem_nil
    · exact fun _ h => absurd h not_mem_nil
  exact hsettled.endsCorrectly

/-- A request that arrives while the handler runs, and the handler fails. -/
theorem requested_test_ends : ∃ w : Watched 1,
    (watched 1 fun _ => true).runFrom {} [.boot noInvestigations 0, .create (operationOf "op-1" .targetTest), .claim 0 1,
      .start 0, .cancel "op-1" 2, .finish 0 .raised 3] = some w ∧ w.EndsCorrectly fun _ => true := by
  refine ⟨_, rfl, requests_end_correctly 1 (fun _ => true) _ (.next (.finish 0 .raised 3) (.next (.cancel "op-1" 2)
    (.next (.start 0) (.next (.claim 0 1) (.next (.create (operationOf "op-1" .targetTest))
      (.next (.boot noInvestigations 0) .start ?_ rfl) ?_ rfl) ?_ rfl) ?_ rfl) ?_ rfl) ?_ rfl)⟩ <;>
    exact fun _ h => by cases h

/-- The same request, and the handler returns successfully: the operation is recorded as failed. -/
theorem successful_test_failed : ∃ w : Watched 1,
    (watched 1 fun _ => true).runFrom {} [.boot noInvestigations 0, .create (operationOf "op-1" .targetTest), .claim 0 1,
      .start 0, .cancel "op-1" 2, .finish 0 (.returned none) 3] = some w ∧
    w.returned = ["op-1"] ∧ (w.control.table.get "op-1").map Operation.status = some .failed ∧
    ¬ w.EndsCorrectly fun _ => true := by
  refine ⟨_, rfl, rfl, rfl, fun hends => ?_⟩
  obtain ⟨row, hget, hstatus⟩ := hends.succeeded "op-1" (mem_singleton_self _)
  cases hget
  cases hstatus

end IncidentLens.Operations
