import IncidentLens.Operations.Dispatcher

/-!
# Attempts, shutdown and recovery

Each claim of an operation is an attempt with a row of its own, closed when the operation ends. What
is still running when a process goes is moved by the sweep of its shutdown, or by the recovery of the
next process, or by both.
-/
namespace IncidentLens.Operations
open Effects Investigations OperationTable
open List hiding get_of_mem

/-! ### What becomes of a row -/

inductive Decision
  | keep
  | move (target : OperationStatus)
  | requeue
  deriving DecidableEq

/-- `_reconcile_agent_kind`. -/
def reconcileDecision (linked : OperationTable.Investigations) (op : Operation) : Decision :=
  match op.investigationId with
  | none => .move .failed
  | some investigationId => match linked investigationId with
    | none => .move .failed
    | some (status, runs) =>
      if investigationStateMachine.isTerminal status then .move (if status = .completed then .succeeded else .failed)
      else if !runs.isEmpty && runs.all agentRunStateMachine.isTerminal then
        .move (if runs.contains .completed then .succeeded else .failed)
      else .requeue

/-- `_classify`. -/
def recoveryDecision (linked : OperationTable.Investigations) (op : Operation) : Decision :=
  match op.status with
  | .cancelRequested => .move .cancelled
  | .running => match op.kind with
    | .rollback => .move .uncertain
    | .targetTest => .requeue
    | .agentMessage | .investigationStart => reconcileDecision linked op
    | .reportGenerate => .requeue
  | _ => .keep

/-- `_sweep_running`. -/
def sweepDecision (op : Operation) : Decision :=
  if op.status = .running then if op.kind = .rollback then .move .uncertain else .requeue else .keep

/-- The status that a decision leads to, as far as it is legal. -/
def Decision.result : Decision → OperationStatus → OperationStatus
  | .keep, status => status
  | .move target, status => if operationStateMachine.canTransition status target then target else status
  | .requeue, status => if status = .running then .queued else status

namespace OperationTable
variable {t : OperationTable} {op : Operation} {now : ℕ}

def follow (t : OperationTable) (operationId : String) (now : ℕ) : Decision → OperationTable
  | .keep => t
  | .move target => t.tryTransition operationId target now
  | .requeue => t.tryRequeue operationId now

lemma classify_eq (linked : Investigations) (now : ℕ) (t : OperationTable) (op : Operation) :
    classify linked now t op = t.follow op.operationId now (recoveryDecision linked op) := by
  have hagent : reconcileAgentKind linked now t op = t.follow op.operationId now (reconcileDecision linked op) := by
    unfold reconcileAgentKind reconcileDecision
    cases op.investigationId with
    | none => rfl
    | some investigationId =>
      dsimp only
      cases linked investigationId with
      | none => rfl
      | some found =>
        obtain ⟨status, runs⟩ := found
        dsimp only
        by_cases hover : investigationStateMachine.isTerminal status = true
        · rw [if_pos hover, if_pos hover]
          rfl
        · rw [if_neg hover, if_neg hover]
          by_cases hruns : (!runs.isEmpty && runs.all agentRunStateMachine.isTerminal) = true
          · rw [if_pos hruns, if_pos hruns]
            rfl
          · rw [if_neg hruns, if_neg hruns]
            rfl
  unfold classify recoveryDecision
  cases op.status with
  | running =>
    dsimp only
    cases op.kind <;> first | exact hagent | rfl
  | _ => rfl

lemma sweepRow_eq (now : ℕ) (t : OperationTable) (op : Operation) :
    sweepRow now t op = t.follow op.operationId now (sweepDecision op) := by
  unfold sweepRow sweepDecision
  split_ifs <;> rfl

lemma follow_spec (h : t.get op.operationId = some op) (now : ℕ) (decision : Decision) :
    ∃ op', Moved t (t.follow op.operationId now decision) op op' ∧ op'.status = decision.result op.status ∧
      (decision = .keep → op' = op) := by
  cases decision with
  | keep => exact ⟨op, .refl h, rfl, fun _ => rfl⟩
  | move target =>
    obtain ⟨op', hmoved, hstatus⟩ := tryTransition_spec h target now
    exact ⟨op', hmoved, hstatus, fun hkeep => by cases hkeep⟩
  | requeue =>
    unfold follow tryRequeue requeue
    simp only [h]
    by_cases hrunning : op.status = .running
    · simp only [hrunning, if_true, Decision.result]
      exact ⟨_, .put h rfl rfl, rfl, fun hkeep => by cases hkeep⟩
    · simp only [hrunning, if_false, Decision.result]
      exact ⟨op, .refl h, rfl, fun hkeep => by cases hkeep⟩

end OperationTable

/-! ### The rows of the attempts -/

structure OperationAttempt where
  operationId : String
  status : OperationStatus := .running
  claimedBy : String
  startedAt : ℕ
  finishedAt : Option ℕ := none
  deriving DecidableEq

inductive AttemptEnd
  | ended (status : OperationStatus)
  /-- Its operation was put back into the queue. -/
  | interrupted
  deriving DecidableEq

/-- A row, and what the attempt came to, which the store does not keep. -/
structure Tried where
  attempt : OperationAttempt
  came : Option AttemptEnd := none
  deriving DecidableEq

structure Ledger where
  table : OperationTable := {}
  attempts : List Tried := []

open Ledger

namespace Tried

/-- `operation_id = ? AND status = 'running'`. -/
def marked (operationId : String) (a : Tried) : Bool := a.attempt.operationId = operationId && a.attempt.status = .running

/-- The end of its operation closes an attempt that is marked running. -/
def close (operationId : String) (target : OperationStatus) (now : ℕ) (a : Tried) : Tried :=
  if a.marked operationId then
    { attempt := { a.attempt with status := target, finishedAt := some now }, came := some (a.came.getD (.ended target)) }
  else a

/-- Putting its operation back leaves the row of an attempt as it is. -/
def interrupt (operationId : String) (a : Tried) : Tried :=
  if a.marked operationId then { a with came := some (a.came.getD .interrupted) } else a

end Tried

namespace Ledger

def create (L : Ledger) (op : Operation) : Except OperationError Ledger :=
  match L.table.create { op with status := .queued, claimToken := none, claimedAt := none, finishedAt := none } with
  | .ok table => .ok { L with table := table }
  | .error e => .error e

def claim (L : Ledger) (operationId claimToken : String) (now : ℕ) : Except OperationError Ledger :=
  match L.table.claim operationId claimToken now with
  | .ok (_, table) => .ok
    { table := table
      attempts := L.attempts ++ [⟨{ operationId := operationId, claimedBy := claimToken, startedAt := now }, none⟩] }
  | .error e => .error e

def transition (L : Ledger) (operationId : String) (target : OperationStatus) (now : ℕ) : Except OperationError Ledger :=
  match L.table.transition operationId target now with
  | .ok table => .ok
    { table := table
      attempts :=
        if operationStateMachine.isTerminal target then L.attempts.map (Tried.close operationId target now)
        else L.attempts }
  | .error e => .error e

def requeue (L : Ledger) (operationId : String) (now : ℕ) : Except OperationError Ledger :=
  match L.table.requeue operationId now with
  | .ok table => .ok { table := table, attempts := L.attempts.map (Tried.interrupt operationId) }
  | .error e => .error e

def cancel (L : Ledger) (operationId : String) (now : ℕ) : Except OperationError Ledger :=
  match L.table.get operationId with
  | none => .error .notFound
  | some op => match op.status with
    | .cancelRequested | .cancelled => .ok L
    | .queued => L.transition operationId .cancelled now
    | .running => L.transition operationId .cancelRequested now
    | .succeeded | .failed | .uncertain => .error .notCancellable

def follow (L : Ledger) (operationId : String) (now : ℕ) : Decision → Ledger
  | .keep => L
  | .move target => (L.transition operationId target now).toOption.getD L
  | .requeue => (L.requeue operationId now).toOption.getD L

/-- `count` rows are passed. -/
def pass (rule : Operation → Decision) (count now : ℕ) (L : Ledger) : Ledger :=
  (L.table.listNonTerminal.take count).foldl (fun L op => L.follow op.operationId now (rule op)) L

def passAll (rule : Operation → Decision) (now : ℕ) (L : Ledger) : Ledger :=
  L.pass rule L.table.listNonTerminal.length now

/-- `_sweep_running`. -/
def sweepRunning (now : ℕ) (L : Ledger) : Ledger := L.passAll sweepDecision now

/-- `recover`. -/
def recover (linked : OperationTable.Investigations) (now : ℕ) (L : Ledger) : Ledger :=
  L.passAll (recoveryDecision linked) now

end Ledger

inductive LedgerMove
  | create (op : Operation)
  | claim (operationId claimToken : String) (now : ℕ)
  /-- A handler ends, and its outcome is recorded. -/
  | finish (operationId : String) (succeeded : Bool) (now : ℕ)
  | cancel (operationId : String) (now : ℕ)
  | heartbeat (operationId : String) (now : ℕ)
  | sweep (count now : ℕ)
  | recover (count : ℕ) (linked : OperationTable.Investigations) (now : ℕ)

def Ledger.step (L : Ledger) : LedgerMove → Option Ledger
  | .create op => (L.create op).toOption
  | .claim operationId claimToken now => (L.claim operationId claimToken now).toOption
  | .finish operationId succeeded now =>
    (L.transition operationId (if succeeded then .succeeded else .failed) now).toOption
  | .cancel operationId now => (L.cancel operationId now).toOption
  | .heartbeat operationId now => some { L with table := L.table.heartbeat operationId now }
  | .sweep count now => some (L.pass sweepDecision count now)
  | .recover count linked now => some (L.pass (recoveryDecision linked) count now)

/-- Processes work on one store, in any order. -/
def ledger : System Ledger LedgerMove := ⟨{}, step⟩

/-! ### What a shutdown and a crash should leave -/

namespace Ledger

def status (L : Ledger) (operationId : String) : Option OperationStatus := (L.table.get operationId).map Operation.status

/-- The grace of a stop expires, and the next process recovers. -/
def afterStop (linked : OperationTable.Investigations) (swept recovered : ℕ) (L : Ledger) : Ledger :=
  (L.sweepRunning swept).recover linked recovered

/-- The process dies, and the next one recovers. -/
def afterCrash (linked : OperationTable.Investigations) (recovered : ℕ) (L : Ledger) : Ledger := L.recover linked recovered

/-- The attempts of an operation that are marked running. -/
def marked (L : Ledger) (operationId : String) : List Tried := L.attempts.filter (Tried.marked operationId)

/-- At most one attempt of an operation is marked running, and a finished one carries its outcome. -/
structure AttemptsRight (L : Ledger) : Prop where
  single : ∀ operationId, (L.marked operationId).length ≤ 1
  faithful : ∀ a ∈ L.attempts, a.attempt.status ≠ .running → a.came = some (.ended a.attempt.status)

def Agree (linked : OperationTable.Investigations) (swept recovered : ℕ) (L : Ledger) : Prop :=
  ∀ operationId, (L.afterStop linked swept recovered).status operationId = (L.afterCrash linked recovered).status operationId

end Ledger

/-- The linked investigation exists and goes on, and so does one of its runs, if it has any. -/
def LiveAgent (linked : OperationTable.Investigations) (op : Operation) : Prop :=
  ∃ investigationId status runs, op.investigationId = some investigationId ∧ linked investigationId = some (status, runs) ∧
    investigationStateMachine.isTerminal status = false ∧
      (runs = [] ∨ ∃ run ∈ runs, agentRunStateMachine.isTerminal run = false)

/-- Every agent operation that is running has live work behind it. -/
def AgentsLive (linked : OperationTable.Investigations) (L : Ledger) : Prop :=
  ∀ row ∈ L.table.rows, row.status = .running → row.kind = .agentMessage ∨ row.kind = .investigationStart →
    LiveAgent linked row

/-- An operation that was put back is neither claimed again nor cancelled. -/
def OnceClaimed (L : Ledger) : LedgerMove → Prop
  | .claim operationId _ _ => L.marked operationId = []
  | .cancel operationId _ => L.status operationId = some .queued → L.marked operationId = []
  | _ => True

/-! ### The statuses -/

section
variable {L L' : Ledger} {linked : OperationTable.Investigations} {rule : Operation → Decision} {op row : Operation}
  {operationId : String} {now : ℕ}

lemma Ledger.follow_table (L : Ledger) (operationId : String) (now : ℕ) (decision : Decision) :
    (L.follow operationId now decision).table = L.table.follow operationId now decision := by
  cases decision with
  | keep => rfl
  | move target =>
    simp only [follow, transition, OperationTable.follow, OperationTable.tryTransition]
    cases L.table.transition operationId target now <;> rfl
  | requeue =>
    simp only [follow, requeue, OperationTable.follow, OperationTable.tryRequeue]
    cases L.table.requeue operationId now <;> rfl

lemma Ledger.pass_table (rule : Operation → Decision) (count now : ℕ) (L : Ledger) : (L.pass rule count now).table =
      (L.table.listNonTerminal.take count).foldl (fun t op => t.follow op.operationId now (rule op)) L.table :=
  (foldl_hom table fun L op => (L.follow_table op.operationId now (rule op)).symm).symm

lemma Ledger.recover_table (linked : OperationTable.Investigations) (now : ℕ) (L : Ledger) :
    (L.recover linked now).table = L.table.recover linked now := by
  rw [recover, passAll, pass_table, take_length, OperationTable.recover]
  congr 1
  funext t op
  exact (classify_eq linked now t op).symm

lemma recoveryDecision_of_terminal (h : operationStateMachine.isTerminal op.status = true) :
    recoveryDecision linked op = .keep := by
  unfold recoveryDecision
  cases hstatus : op.status with
  | running =>
    rw [hstatus] at h
    cases h
  | cancelRequested =>
    rw [hstatus] at h
    cases h
  | _ => rfl

lemma sweepDecision_of_ne (h : op.status ≠ .running) : sweepDecision op = .keep := by
  rw [sweepDecision, if_neg h]

lemma sweepDecision_of_terminal (h : operationStateMachine.isTerminal op.status = true) :
    sweepDecision op = .keep := by
  refine sweepDecision_of_ne fun hrunning => ?_
  rw [hrunning] at h
  cases h

lemma Ledger.get_passAll (rule : Operation → Decision)
    (hended : ∀ op, operationStateMachine.isTerminal op.status = true → rule op = .keep)
    (now : ℕ) (L : Ledger) (operationId : String) :
    (L.table.get operationId = none → (L.passAll rule now).table.get operationId = none) ∧
      ∀ before, L.table.get operationId = some before → ∃ row, (L.passAll rule now).table.get operationId = some row ∧
          row.status = (rule before).result before.status ∧ (rule before = .keep → row = before) := by
  have hpass := @rel_foldl L.table operationId
    (fun t op => t.follow op.operationId now (rule op))
    (fun op op' => op'.status = (rule op).result op.status ∧ (rule op = .keep → op' = op))
    (fun t op hget => follow_spec hget now (rule op))
    (L.table.listNonTerminal.take L.table.listNonTerminal.length)
    (by rw [take_length]; exact nodup_listNonTerminal)
    (by
      rw [take_length]
      exact fun op hop => get_of_mem (mem_listNonTerminal.mp hop).1)
  rw [← pass_table] at hpass
  refine ⟨hpass.1, fun before hbefore => ?_⟩
  obtain ⟨row, hrow, -, hrel⟩ := hpass.2 before hbefore
  simp only [take_length, mem_listNonTerminal] at hrel
  split_ifs at hrel with hmem
  · exact ⟨row, hrow, hrel.1, hrel.2⟩
  · have hterminal : operationStateMachine.isTerminal before.status = true := by
      by_contra hopen
      exact hmem ⟨mem_of_get hbefore, by simpa using hopen⟩
    subst hrel
    rw [hended row hterminal]
    exact ⟨row, hrow, rfl, fun _ => rfl⟩

lemma Ledger.status_afterCrash (linked : OperationTable.Investigations) (recovered : ℕ) (L : Ledger)
    (operationId : String) : (L.afterCrash linked recovered).status operationId =
      (L.table.get operationId).map fun row => (recoveryDecision linked row).result row.status := by
  obtain ⟨hnone, hsome⟩ := get_passAll (recoveryDecision linked)
    (fun _ => recoveryDecision_of_terminal) recovered L operationId
  unfold status afterCrash recover
  cases hget : L.table.get operationId with
  | none =>
    rw [hnone hget]
    rfl
  | some before =>
    obtain ⟨row, hrow, hstatus, -⟩ := hsome before hget
    rw [hrow]
    exact congrArg some hstatus

lemma Ledger.status_afterStop (linked : OperationTable.Investigations) (swept recovered : ℕ) (L : Ledger)
    (operationId : String) : (L.afterStop linked swept recovered).status operationId =
      (L.table.get operationId).map fun row => if row.status = .running then (sweepDecision row).result row.status
        else (recoveryDecision linked row).result row.status := by
  obtain ⟨hnone, hsome⟩ := get_passAll sweepDecision (fun _ => sweepDecision_of_terminal) swept L
    operationId
  rw [afterStop]
  change ((L.sweepRunning swept).afterCrash linked recovered).status operationId = _
  rw [status_afterCrash, sweepRunning]
  cases hget : L.table.get operationId with
  | none =>
    rw [hnone hget]
    rfl
  | some before =>
    obtain ⟨row, hrow, hstatus, hkeep⟩ := hsome before hget
    rw [hrow, Option.map_some, Option.map_some]
    by_cases hrunning : before.status = .running
    · rw [if_pos hrunning, ← hstatus]
      have hmoved : row.status = .uncertain ∨ row.status = .queued := by
        rw [hstatus, hrunning, sweepDecision, if_pos hrunning]
        split_ifs
        · exact .inl rfl
        · exact .inr rfl
      rcases hmoved with hmoved | hmoved
      · simp only [recoveryDecision, hmoved, Decision.result]
      · simp only [recoveryDecision, hmoved, Decision.result]
    · rw [if_neg hrunning, hkeep (sweepDecision_of_ne hrunning)]

lemma reconcileDecision_eq_requeue : reconcileDecision linked op = .requeue ↔ LiveAgent linked op := by
  unfold reconcileDecision LiveAgent
  cases hid : op.investigationId with
  | none => simp
  | some investigationId =>
    cases hfound : linked investigationId with
    | none => simp [hfound]
    | some found =>
      obtain ⟨status, runs⟩ := found
      simp only [hfound]
      by_cases hover : investigationStateMachine.isTerminal status = true
      · rw [if_pos hover]
        constructor
        · intro h
          cases h
        · rintro ⟨_, _, _, hsame, hfound', hopen, -⟩
          cases hsame
          cases hfound.symm.trans hfound'
          rw [hover] at hopen
          cases hopen
      · rw [if_neg hover]
        have hruns : (!runs.isEmpty && runs.all agentRunStateMachine.isTerminal) = true ↔
            ¬ (runs = [] ∨ ∃ run ∈ runs, agentRunStateMachine.isTerminal run = false) := by
          simp [not_or]
        constructor
        · intro h
          refine ⟨investigationId, status, runs, rfl, hfound, by simpa using hover, ?_⟩
          by_contra hnot
          rw [if_pos (hruns.mpr hnot)] at h
          cases h
        · rintro ⟨_, _, _, hsame, hfound', -, hlive⟩
          cases hsame
          cases hfound.symm.trans hfound'
          rw [if_neg fun hall => hruns.mp hall hlive]

lemma sweep_eq_recovery (hrunning : row.status = .running) :
    (sweepDecision row).result .running = (recoveryDecision linked row).result .running ↔
      (row.kind = .agentMessage ∨ row.kind = .investigationStart → LiveAgent linked row) := by
  have hagent : .queued = (reconcileDecision linked row).result .running ↔ LiveAgent linked row := by
    rw [← reconcileDecision_eq_requeue]
    constructor
    · intro hsame
      cases hdecision : reconcileDecision linked row with
      | requeue => rfl
      | keep =>
        rw [hdecision] at hsame
        cases hsame
      | move target =>
        rw [hdecision, Decision.result] at hsame
        split_ifs at hsame with hlegal
        rw [← hsame] at hlegal
        exact absurd hlegal (by decide)
    · intro hsame
      rw [hsame]
      rfl
  unfold sweepDecision recoveryDecision
  rw [if_pos hrunning]
  simp only [hrunning]
  cases hkind : row.kind with
  | agentMessage => simpa [Decision.result] using hagent
  | investigationStart => simpa [Decision.result] using hagent
  | _ => simp [Decision.result]

lemma Ledger.agree_iff (linked : OperationTable.Investigations) (swept recovered : ℕ) (L : Ledger) :
    L.Agree linked swept recovered ↔ AgentsLive linked L := by
  unfold Ledger.Agree AgentsLive
  constructor
  · intro hagree row hrow hrunning
    have hsame := hagree row.operationId
    rw [status_afterStop, status_afterCrash, get_of_mem hrow, Option.map_some,
      Option.map_some, if_pos hrunning, hrunning] at hsame
    exact (sweep_eq_recovery hrunning).mp (Option.some.inj hsame)
  · intro hlive operationId
    rw [status_afterStop, status_afterCrash]
    cases hget : L.table.get operationId with
    | none => rfl
    | some row =>
      rw [Option.map_some, Option.map_some]
      by_cases hrunning : row.status = .running
      · rw [if_pos hrunning, hrunning, (sweep_eq_recovery hrunning).mpr (hlive row (mem_of_get hget) hrunning)]
      · rw [if_neg hrunning]

end
/-! ### The attempts -/

/-- The attempts marked running, by the status of their operation. -/
def Fits : OperationStatus → List Tried → Prop
  | .queued, attempts => attempts.length ≤ 1
  | .running, attempts | .cancelRequested, attempts => ∃ a, attempts = [a] ∧ a.came = none
  | _, attempts => attempts = []

/-- What holds of a store whose operations are claimed once. -/
structure Kept (L : Ledger) : Prop where
  fits : ∀ operationId row, L.table.get operationId = some row → Fits row.status (L.marked operationId)
  unknown : ∀ operationId, L.table.get operationId = none → L.marked operationId = []
  faithful : ∀ a ∈ L.attempts, a.attempt.status ≠ .running → a.came = some (.ended a.attempt.status)

section
variable {L L' : Ledger} {linked : OperationTable.Investigations} {rule : Operation → Decision} {op op' row : Operation}
  {operationId other : String} {now : ℕ} {target : OperationStatus} {a : Tried}

lemma Kept.attemptsRight (hL : Kept L) : L.AttemptsRight := by
  refine ⟨fun operationId => ?_, hL.faithful⟩
  cases hget : L.table.get operationId with
  | none => simp [hL.unknown operationId hget]
  | some row =>
    have hfits := hL.fits operationId row hget
    cases hstatus : row.status with
    | queued =>
      rw [hstatus] at hfits
      exact hfits
    | running =>
      rw [hstatus] at hfits
      obtain ⟨a, ha, -⟩ := hfits
      simp [ha]
    | cancelRequested =>
      rw [hstatus] at hfits
      obtain ⟨a, ha, -⟩ := hfits
      simp [ha]
    | _ =>
      rw [hstatus] at hfits
      simp [show L.marked operationId = [] from hfits]

lemma Kept.moved (hL : Kept L) (hmoved : L.table.Moved L'.table op op')
    (hothers : ∀ other, other ≠ op.operationId → L'.marked other = L.marked other)
    (hfits : Fits op'.status (L'.marked op.operationId))
    (hfaithful : ∀ a ∈ L'.attempts, a.attempt.status ≠ .running → a.came = some (.ended a.attempt.status)) :
    Kept L' := by
  refine ⟨fun operationId row hget => ?_, fun operationId hget => ?_, hfaithful⟩
  · rw [hmoved.get] at hget
    split_ifs at hget with hid
    · cases hget
      exact hid ▸ hfits
    · rw [hothers operationId hid]
      exact hL.fits operationId row hget
  · rw [hmoved.get] at hget
    split_ifs at hget with hid
    rw [hothers operationId hid]
    exact hL.unknown operationId hget

lemma Tried.marked_iff : a.marked operationId = true ↔ a.attempt.operationId = operationId ∧ a.attempt.status = .running := by
  simp [Tried.marked]

lemma Tried.marked_close (htarget : target ≠ .running) :
    (a.close operationId target now).marked other = (decide (other ≠ operationId) && a.marked other) := by
  unfold Tried.close
  by_cases hmarked : a.marked operationId = true
  · rw [if_pos hmarked]
    have hid := (Tried.marked_iff.mp hmarked).1
    simp only [Tried.marked, hid, htarget, decide_false, Bool.and_false]
    by_cases hother : other = operationId
    · simp [hother]
    · simp [Ne.symm hother]
  · rw [if_neg hmarked]
    by_cases hother : other = operationId
    · simp [hother, hmarked]
    · simp [hother]

lemma Tried.marked_interrupt : (a.interrupt operationId).marked other = a.marked other := by
  unfold Tried.interrupt
  split_ifs <;> rfl

lemma marked_close (htarget : target ≠ .running) (table : OperationTable) (other : String) :
    marked ⟨table, L.attempts.map (Tried.close operationId target now)⟩ other =
      if other = operationId then [] else L.marked other := by
  unfold marked
  rw [filter_map]
  split_ifs with hother
  · rw [map_eq_nil_iff, filter_eq_nil_iff]
    intro a _
    simp [Tried.marked_close htarget, hother]
  · have hkept : ∀ a : Tried, a.marked other = true → a.close operationId target now = a := by
      intro a ha
      rw [Tried.close, if_neg]
      intro hmarked
      exact hother ((Tried.marked_iff.mp ha).1.symm.trans (Tried.marked_iff.mp hmarked).1)
    have hsame : (Tried.marked other ∘ Tried.close operationId target now) = Tried.marked other := by
      funext a
      simp [Tried.marked_close htarget, hother]
    rw [hsame]
    refine (map_congr_left fun a ha => ?_).trans (map_id _)
    exact hkept a (mem_filter.mp ha).2

lemma marked_interrupt (table : OperationTable) (other : String) :
    marked ⟨table, L.attempts.map (Tried.interrupt operationId)⟩ other =
      (L.marked other).map (Tried.interrupt operationId) := by
  unfold marked
  rw [filter_map]
  congr 2
  funext a
  exact Tried.marked_interrupt

lemma Kept.ended (hL : Kept L) (h : L.transition operationId target now = .ok L')
    (hterminal : operationStateMachine.isTerminal target = true)
    (hopen : L.status operationId = some .queued → L.marked operationId = []) : Kept L' := by
  unfold Ledger.transition at h
  cases hmove : L.table.transition operationId target now with
  | error e =>
    rw [hmove] at h
    cases h
  | ok table =>
    rw [hmove, if_pos hterminal] at h
    cases h
    obtain ⟨op, op', hget, hlegal, hstatus, hmoved⟩ := transition_eq_ok hmove
    have hid := operationId_of_get hget
    have htarget : target ≠ .running := by
      intro hrunning
      rw [hrunning] at hterminal
      cases hterminal
    refine hL.moved hmoved (fun other hother => ?_) ?_ ?_
    · rw [marked_close htarget, if_neg (hid ▸ hother)]
    · rw [marked_close htarget, if_pos hid, hstatus]
      revert hterminal
      cases target <;> simp [Fits, operationStateMachine, StateMachine.isTerminal]
    · -- an attempt that was marked came to nothing yet
      have hfresh : ∀ a ∈ L.attempts, a.marked operationId = true → a.came = none := by
        intro a ha hmarked
        have hmem : a ∈ L.marked operationId := mem_filter.mpr ⟨ha, hmarked⟩
        have hfits := hL.fits operationId op hget
        cases hbefore : op.status with
        | queued =>
          rw [hopen (by simp [status, hget, hbefore])] at hmem
          cases hmem
        | running =>
          rw [hbefore] at hfits
          obtain ⟨b, hb, hcame⟩ := hfits
          rw [hb, mem_singleton] at hmem
          rw [hmem, hcame]
        | cancelRequested =>
          rw [hbefore] at hfits
          obtain ⟨b, hb, hcame⟩ := hfits
          rw [hb, mem_singleton] at hmem
          rw [hmem, hcame]
        | _ =>
          rw [hbefore] at hfits
          rw [show L.marked operationId = [] from hfits] at hmem
          cases hmem
      intro a ha hclosed
      obtain ⟨b, hb, rfl⟩ := mem_map.mp ha
      unfold Tried.close at hclosed ⊢
      split_ifs at hclosed ⊢ with hmarked
      · simp [hfresh b hb hmarked]
      · exact hL.faithful b hb hclosed

lemma Kept.requested (hL : Kept L) (h : L.transition operationId .cancelRequested now = .ok L')
    (hrunning : L.status operationId = some .running) : Kept L' := by
  unfold Ledger.transition at h
  cases hmove : L.table.transition operationId .cancelRequested now with
  | error e =>
    rw [hmove] at h
    cases h
  | ok table =>
    rw [hmove] at h
    cases h
    obtain ⟨op, op', hget, -, hstatus, hmoved⟩ := transition_eq_ok hmove
    have hid := operationId_of_get hget
    have hbefore : op.status = .running := by simpa [status, hget] using hrunning
    have hfits := hL.fits operationId op hget
    rw [hbefore] at hfits
    refine hL.moved hmoved (fun other _ => rfl) ?_ hL.faithful
    rw [hstatus, hid]
    exact hfits

lemma Kept.requeued (hL : Kept L) (h : L.requeue operationId now = .ok L') : Kept L' := by
  unfold Ledger.requeue at h
  cases hmove : L.table.requeue operationId now with
  | error e =>
    rw [hmove] at h
    cases h
  | ok table =>
    rw [hmove] at h
    cases h
    obtain ⟨op, op', hget, hrunning, hstatus, hmoved⟩ := requeue_eq_ok hmove
    have hid := operationId_of_get hget
    have hfits := hL.fits operationId op hget
    rw [hrunning] at hfits
    obtain ⟨b, hb, -⟩ := hfits
    refine hL.moved hmoved (fun other hother => ?_) ?_ ?_
    · rw [marked_interrupt]
      refine (map_congr_left fun a ha => ?_).trans (map_id _)
      rw [Tried.interrupt, if_neg]
      · rfl
      · intro hmarked
        have hother' := (Tried.marked_iff.mp (mem_filter.mp ha).2).1
        exact hother (hother'.symm.trans ((Tried.marked_iff.mp hmarked).1.trans hid.symm))
    · rw [marked_interrupt, hid, hb, hstatus]
      exact le_refl 1
    · intro a ha hclosed
      obtain ⟨c, hc, rfl⟩ := mem_map.mp ha
      unfold Tried.interrupt at hclosed ⊢
      split_ifs at hclosed ⊢ with hmarked
      · exact absurd (Tried.marked_iff.mp hmarked).2 hclosed
      · exact hL.faithful c hc hclosed

/-- Only what is in flight is brought to an end. -/
def EndsWhatRuns (rule : Operation → Decision) : Prop :=
  ∀ op target, rule op = .move target → operationStateMachine.isTerminal target = true ∧ op.status ≠ .queued

lemma endsWhatRuns_sweep : EndsWhatRuns sweepDecision := by
  intro op target h
  unfold sweepDecision at h
  split_ifs at h with hrunning hkind
  cases h
  exact ⟨rfl, by rw [hrunning]; decide⟩

lemma reconcileDecision_cases (linked : OperationTable.Investigations) (op : Operation) :
    reconcileDecision linked op = .move .failed ∨ reconcileDecision linked op = .move .succeeded ∨
      reconcileDecision linked op = .requeue := by
  unfold reconcileDecision
  split
  · exact .inl rfl
  · split
    · exact .inl rfl
    · split_ifs
      · exact .inr (.inl rfl)
      · exact .inl rfl
      · exact .inr (.inl rfl)
      · exact .inl rfl
      · exact .inr (.inr rfl)

lemma endsWhatRuns_recovery (linked : OperationTable.Investigations) : EndsWhatRuns (recoveryDecision linked) := by
  intro op target h
  unfold recoveryDecision at h
  cases hstatus : op.status with
  | cancelRequested =>
    rw [hstatus] at h
    cases h
    exact ⟨rfl, by simp⟩
  | running =>
    rw [hstatus] at h
    refine ⟨?_, by simp⟩
    have hagent : reconcileDecision linked op = .move target → operationStateMachine.isTerminal target = true := by
      intro h
      rcases reconcileDecision_cases linked op with hdecision | hdecision | hdecision
      · rw [hdecision] at h
        cases h
        rfl
      · rw [hdecision] at h
        cases h
        rfl
      · rw [hdecision] at h
        cases h
    cases hkind : op.kind with
    | rollback =>
      simp only [hkind] at h
      cases h
      rfl
    | agentMessage =>
      simp only [hkind] at h
      exact hagent h
    | investigationStart =>
      simp only [hkind] at h
      exact hagent h
    | targetTest =>
      simp only [hkind] at h
      cases h
    | reportGenerate =>
      simp only [hkind] at h
      cases h
  | _ =>
    rw [hstatus] at h
    cases h

lemma Kept.follow (hL : Kept L) (hends : EndsWhatRuns rule) (hget : L.table.get op.operationId = some op) :
    Kept (L.follow op.operationId now (rule op)) := by
  cases hdecision : rule op with
  | keep => exact hL
  | move target =>
    obtain ⟨hterminal, hbusy⟩ := hends op target hdecision
    simp only [Ledger.follow]
    cases hmove : L.transition op.operationId target now with
    | error e => exact hL
    | ok L' =>
      refine hL.ended hmove hterminal fun hqueued => absurd ?_ hbusy
      simpa [status, hget] using hqueued
  | requeue =>
    simp only [Ledger.follow]
    cases hmove : L.requeue op.operationId now with
    | error e => exact hL
    | ok L' => exact hL.requeued hmove

lemma Kept.foldl (hends : EndsWhatRuns rule) {ops : List Operation}
    (hunique : (ops.map Operation.operationId).Nodup) (hL : Kept L)
    (hpresent : ∀ op ∈ ops, L.table.get op.operationId = some op) :
    Kept (ops.foldl (fun L op => L.follow op.operationId now (rule op)) L) := by
  induction ops generalizing L with
  | nil => exact hL
  | cons op ops ih =>
    rw [map_cons, nodup_cons] at hunique
    have hget := hpresent op mem_cons_self
    obtain ⟨op', hmoved, -⟩ := follow_spec hget now (rule op)
    refine ih hunique.2 (hL.follow hends hget) fun other hother => ?_
    rw [follow_table, hmoved.get, if_neg]
    · exact hpresent other (mem_cons_of_mem _ hother)
    · intro hid
      exact hunique.1 (hid ▸ mem_map_of_mem hother)

lemma Kept.pass (hL : Kept L) (hends : EndsWhatRuns rule) (count now : ℕ) : Kept (L.pass rule count now) := by
  refine Kept.foldl hends ?_ hL fun op hop => ?_
  · exact nodup_listNonTerminal.sublist ((take_sublist _ _).map _)
  · exact get_of_mem (mem_listNonTerminal.mp (mem_of_mem_take hop)).1

lemma Kept.create (hL : Kept L) (h : L.create op = .ok L') : Kept L' := by
  unfold Ledger.create at h
  split at h
  · rename_i table hcreate
    cases h
    obtain ⟨hnone, hget⟩ := create_eq_ok hcreate
    refine ⟨fun operationId row hrow => ?_, fun operationId habsent => ?_, hL.faithful⟩
    · rw [hget] at hrow
      split_ifs at hrow with hid
      · cases hrow
        change (L.marked operationId).length ≤ 1
        rw [hid, hL.unknown _ hnone]
        exact Nat.zero_le 1
      · exact hL.fits operationId row hrow
    · rw [hget] at habsent
      split_ifs at habsent
      exact hL.unknown operationId habsent
  · cases h

lemma Kept.claim {claimToken : String} (hL : Kept L) (h : L.claim operationId claimToken now = .ok L')
    (honce : L.marked operationId = []) : Kept L' := by
  unfold Ledger.claim at h
  split at h
  · rename_i claimed table hclaim
    cases h
    obtain ⟨op, hget, -, hrunning, hmoved, -⟩ := claim_eq_ok hclaim
    have hid := operationId_of_get hget
    have hmarked : ∀ other, marked
        ⟨table, L.attempts ++ [⟨{ operationId := operationId, claimedBy := claimToken, startedAt := now }, none⟩]⟩ other =
        L.marked other ++ if operationId = other then
          [⟨{ operationId := operationId, claimedBy := claimToken, startedAt := now }, none⟩] else [] := by
      intro other
      rw [marked, filter_append]
      congr 1
      split_ifs with hother
      · simp [Tried.marked, hother]
      · simp [Tried.marked, hother]
    refine hL.moved hmoved (fun other hother => ?_) ?_ fun a ha hclosed => ?_
    · rw [hmarked, if_neg (hid ▸ Ne.symm hother), append_nil]
    · rw [hmarked, hid, if_pos rfl, honce, hrunning]
      exact ⟨_, rfl, rfl⟩
    · rcases mem_append.mp ha with ha | ha
      · exact hL.faithful a ha hclosed
      · rw [mem_singleton.mp ha] at hclosed
        exact absurd rfl hclosed
  · cases h

lemma Kept.cancel (hL : Kept L) (h : L.cancel operationId now = .ok L')
    (honce : L.status operationId = some .queued → L.marked operationId = []) : Kept L' := by
  unfold Ledger.cancel at h
  cases hget : L.table.get operationId with
  | none =>
    simp only [hget] at h
    cases h
  | some op =>
    simp only [hget] at h
    cases hstatus : op.status with
    | queued =>
      rw [hstatus] at h
      exact hL.ended h rfl honce
    | running =>
      rw [hstatus] at h
      exact hL.requested h (by simp [status, hget, hstatus])
    | cancelRequested =>
      rw [hstatus] at h
      cases h
      exact hL
    | cancelled =>
      rw [hstatus] at h
      cases h
      exact hL
    | _ =>
      rw [hstatus] at h
      cases h

lemma Kept.finish {succeeded : Bool} (hL : Kept L)
    (h : L.transition operationId (if succeeded then .succeeded else .failed) now = .ok L') : Kept L' := by
  refine hL.ended h (by cases succeeded <;> rfl) fun hqueued => ?_
  -- a queued operation has no outcome
  unfold Ledger.transition at h
  split at h
  · rename_i table hmove
    obtain ⟨op, -, hget, hlegal, -⟩ := transition_eq_ok hmove
    have hbefore : op.status = .queued := by simpa [status, hget] using hqueued
    rw [hbefore] at hlegal
    cases succeeded <;> exact absurd hlegal (by decide)
  · cases h

lemma Kept.heartbeat (hL : Kept L) (operationId : String) (now : ℕ) :
    Kept { L with table := L.table.heartbeat operationId now } := by
  cases hget : L.table.get operationId with
  | none =>
    rw [OperationTable.heartbeat, hget]
    exact hL
  | some op =>
    obtain ⟨op', hstatus, hmoved⟩ := heartbeat_spec hget now
    have hid := operationId_of_get hget
    refine hL.moved hmoved (fun _ _ => rfl) ?_ hL.faithful
    rw [hstatus, hid]
    exact hL.fits operationId op hget

lemma Kept.step {move : LedgerMove} (hL : Kept L) (hgood : OnceClaimed L move) (h : L.step move = some L') :
    Kept L' := by
  have hok : ∀ {r : Except OperationError Ledger}, r.toOption = some L' → r = .ok L' := by
    intro r hr
    cases r with
    | error e => cases hr
    | ok moved =>
      cases hr
      rfl
  cases move with
  | create op => exact hL.create (hok h)
  | claim operationId claimToken now => exact hL.claim (hok h) hgood
  | finish operationId succeeded now => exact hL.finish (hok h)
  | cancel operationId now => exact hL.cancel (hok h) hgood
  | heartbeat operationId now =>
    cases h
    exact hL.heartbeat operationId now
  | sweep count now =>
    cases h
    exact hL.pass endsWhatRuns_sweep count now
  | recover count linked now =>
    cases h
    exact hL.pass (endsWhatRuns_recovery linked) count now

end

/-- Stop and crash leave every operation alike exactly when all agent work that runs is live; and while
no operation is taken up twice, either way its attempts are right. -/
theorem shutdown_and_crash_agree (L : Ledger) (linked : OperationTable.Investigations) (swept recovered : ℕ) :
    (L.Agree linked swept recovered ↔ AgentsLive linked L) ∧ (ledger.Reached OnceClaimed L →
        (L.afterStop linked swept recovered).AttemptsRight ∧ (L.afterCrash linked recovered).AttemptsRight) := by
  refine ⟨L.agree_iff linked swept recovered, fun hL => ?_⟩
  have hkept : Kept L := by
    refine hL.invariant ?_ fun _ _ _ hkept hgood hstep => hkept.step hgood hstep
    refine ⟨fun _ _ hget => ?_, fun _ _ => rfl, fun _ ha => ?_⟩
    · cases hget
    · cases ha
  have hswept : Kept (L.sweepRunning swept) := hkept.pass endsWhatRuns_sweep _ swept
  exact ⟨(hswept.pass (endsWhatRuns_recovery linked) _ recovered).attemptsRight,
    (hkept.pass (endsWhatRuns_recovery linked) _ recovered).attemptsRight⟩

def operationOf (operationId : String) (kind : OperationKind) : Operation where
  operationId := operationId
  kind := kind
  targetId := "web"
  createdAt := 0
  updatedAt := 0

/-- A connection test in flight is put back either way. -/
theorem target_test_agrees : ∃ L : Ledger,
    ledger.runFrom {} [.create (operationOf "op-1" .targetTest), .claim "op-1" "dispatcher:0" 1] = some L ∧
      (L.Agree noInvestigations 2 3 ↔ AgentsLive noInvestigations L) ∧
      (L.afterStop noInvestigations 2 3).AttemptsRight ∧ (L.afterCrash noInvestigations 3).AttemptsRight := by
  refine ⟨_, rfl, (shutdown_and_crash_agree _ noInvestigations 2 3).1, (shutdown_and_crash_agree _ noInvestigations 2 3).2 ?_⟩
  exact .next (.claim "op-1" "dispatcher:0" 1) (.next (.create (operationOf "op-1" .targetTest)) .start trivial rfl) rfl rfl

/-- A message to an agent that has no investigation yet is queued again after a stop and failed after a
crash; and a connection test that was put back and claimed again has two attempts that are marked running. -/
theorem agent_message_disagrees :
    (∃ L : Ledger,
      ledger.runFrom {} [.create (operationOf "op-1" .agentMessage), .claim "op-1" "dispatcher:0" 1] = some L ∧
        (L.afterStop noInvestigations 2 3).status "op-1" = some .queued ∧
        (L.afterCrash noInvestigations 3).status "op-1" = some .failed ∧ ¬ L.Agree noInvestigations 2 3) ∧
    ∃ L : Ledger,
      ledger.runFrom {} [.create (operationOf "op-1" .targetTest), .claim "op-1" "dispatcher:0" 1, .sweep 1 2,
        .recover 1 noInvestigations 3, .claim "op-1" "dispatcher:0" 4] = some L ∧
        ((L.afterCrash noInvestigations 5).marked "op-1").length = 2 ∧
        ¬ (L.afterCrash noInvestigations 5).AttemptsRight := by
  refine ⟨⟨_, rfl, rfl, rfl, fun hagree => ?_⟩, ⟨_, rfl, rfl, fun hright => ?_⟩⟩
  · have hsame := hagree "op-1"
    change some OperationStatus.queued = some .failed at hsame
    cases hsame
  · have hsingle := hright.single "op-1"
    change 2 ≤ 1 at hsingle
    omega

end IncidentLens.Operations
