import IncidentLens.Data.Table
import IncidentLens.Investigations.StateMachine
import Mathlib.Data.List.Sort

/-!
# Durable operations

The rows of `operations`, the statements that move them, and the classification of what a
dead process left behind. What is written for people to read is left out.
-/
namespace IncidentLens.Operations
open Investigations List

inductive OperationKind
  | agentMessage | targetTest | investigationStart | rollback | reportGenerate
  deriving DecidableEq

inductive OperationStatus
  | queued | running | cancelRequested | succeeded | failed | cancelled | uncertain
  deriving DecidableEq

def operationTransitions : OperationStatus → List OperationStatus
  | .queued => [.running, .cancelRequested, .cancelled]
  | .running => [.succeeded, .failed, .cancelRequested, .uncertain]
  | .cancelRequested => [.cancelled, .failed, .uncertain]
  | .succeeded | .failed | .cancelled | .uncertain => []

def operationStateMachine : StateMachine OperationStatus :=
  ⟨operationTransitions, [.succeeded, .failed, .cancelled, .uncertain], by decide⟩

structure Operation where
  operationId : String
  kind : OperationKind
  status : OperationStatus := .queued
  targetId : String
  sessionId : Option String := none
  investigationId : Option String := none
  claimToken : Option String := none
  claimedAt : Option ℕ := none
  createdAt : ℕ
  updatedAt : ℕ
  finishedAt : Option ℕ := none
  deriving DecidableEq

/-- The rows in the order of their insertion. -/
structure OperationTable where
  rows : List Operation := []
  unique : (rows.map Operation.operationId).Nodup := by exact List.nodup_nil

inductive OperationError
  | notFound | alreadyExists | notClaimable | illegalTransition | concurrentUpdate | notCancellable

namespace OperationTable

def get (t : OperationTable) (operationId : String) : Option Operation :=
  t.rows.find? fun row => row.operationId = operationId

/-- `UPDATE operations SET … WHERE operation_id = ?`. -/
def put (t : OperationTable) (op : Operation) : OperationTable where
  rows := t.rows.map fun row => if row.operationId = op.operationId then op else row
  unique := by
    rw [map_map]
    refine Eq.mpr (congrArg List.Nodup (map_congr_left fun row _ => ?_)) t.unique
    simp only [Function.comp_apply]
    split_ifs with hid
    · exact hid.symm
    · rfl

def create (t : OperationTable) (op : Operation) : Except OperationError OperationTable :=
  if h : op.operationId ∈ t.rows.map Operation.operationId then .error .alreadyExists
  else .ok
    { rows := t.rows ++ [op]
      unique := by
        rw [map_append, map_singleton, ← concat_eq_append]
        exact List.Nodup.concat h t.unique }

def oldestFirst (rows : List Operation) : List Operation := rows.insertionSort fun a b => a.createdAt ≤ b.createdAt

def listQueued (t : OperationTable) (limit : ℕ) : List Operation :=
  (oldestFirst (t.rows.filter fun row => row.status = .queued)).take limit

def listNonTerminal (t : OperationTable) : List Operation :=
  oldestFirst (t.rows.filter fun row => !operationStateMachine.isTerminal row.status)

def claim (t : OperationTable) (operationId claimToken : String) (now : ℕ) :
    Except OperationError (Operation × OperationTable) :=
  match t.get operationId with
  | none => .error .notFound
  | some op =>
    if op.status = .queued then
      let claimed := { op with status := .running, claimToken := some claimToken, claimedAt := some now, updatedAt := now }
      .ok (claimed, t.put claimed)
    else .error .notClaimable

/-- The row is read and updated in one go. -/
def transition (t : OperationTable) (operationId : String) (target : OperationStatus) (now : ℕ) :
    Except OperationError OperationTable :=
  match t.get operationId with
  | none => .error .notFound
  | some op =>
    if operationStateMachine.canTransition op.status target then
      .ok (t.put { op with
        status := target
        finishedAt := if operationStateMachine.isTerminal target then some now else op.finishedAt
        updatedAt := now })
    else .error .illegalTransition

def requeue (t : OperationTable) (operationId : String) (now : ℕ) : Except OperationError OperationTable :=
  match t.get operationId with
  | none => .error .notFound
  | some op =>
    if op.status = .running then
      .ok (t.put { op with status := .queued, claimToken := none, claimedAt := none, updatedAt := now })
    else .error .concurrentUpdate

/-- A running row is touched, and any other left alone. -/
def heartbeat (t : OperationTable) (operationId : String) (now : ℕ) : OperationTable :=
  match t.get operationId with
  | none => t
  | some op => if op.status = .running then t.put { op with claimedAt := some now, updatedAt := now } else t

def cancel (t : OperationTable) (operationId : String) (now : ℕ) : Except OperationError OperationTable :=
  match t.get operationId with
  | none => .error .notFound
  | some op => match op.status with
    | .cancelRequested | .cancelled => .ok t
    | .queued => t.transition operationId .cancelled now
    | .running => t.transition operationId .cancelRequested now
    | .succeeded | .failed | .uncertain => .error .notCancellable

/-! ### Best-effort moves -/

def tryTransition (t : OperationTable) (operationId : String) (target : OperationStatus) (now : ℕ) : OperationTable :=
  match t.transition operationId target now with
  | .ok moved => moved
  | .error _ => t

def tryRequeue (t : OperationTable) (operationId : String) (now : ℕ) : OperationTable :=
  match t.requeue operationId now with
  | .ok moved => moved
  | .error _ => t

/-- The investigations with the statuses of their runs. -/
abbrev Investigations := String → Option (InvestigationStatus × List AgentRunStatus)

def reconcileAgentKind (linked : Investigations) (now : ℕ) (t : OperationTable) (op : Operation) : OperationTable :=
  match op.investigationId with
  | none => t.tryTransition op.operationId .failed now
  | some investigationId => match linked investigationId with
    | none => t.tryTransition op.operationId .failed now
    | some (status, runs) =>
      if investigationStateMachine.isTerminal status then
        t.tryTransition op.operationId (if status = .completed then .succeeded else .failed) now
      else if !runs.isEmpty && runs.all agentRunStateMachine.isTerminal then
        t.tryTransition op.operationId (if runs.contains .completed then .succeeded else .failed) now
      else t.tryRequeue op.operationId now

def classify (linked : Investigations) (now : ℕ) (t : OperationTable) (op : Operation) : OperationTable :=
  match op.status with
  | .cancelRequested => t.tryTransition op.operationId .cancelled now
  | .running => match op.kind with
    | .rollback => t.tryTransition op.operationId .uncertain now
    | .targetTest => t.tryRequeue op.operationId now
    | .agentMessage | .investigationStart => reconcileAgentKind linked now t op
    | .reportGenerate => t.tryRequeue op.operationId now
  | _ => t

/-- `recover`, as far as it comes: `count` rows are classified. -/
def recoverUpTo (count : ℕ) (linked : Investigations) (now : ℕ) (t : OperationTable) : OperationTable :=
  (t.listNonTerminal.take count).foldl (classify linked now) t

def recover (linked : Investigations) (now : ℕ) (t : OperationTable) : OperationTable :=
  t.listNonTerminal.foldl (classify linked now) t

def sweepRow (now : ℕ) (t : OperationTable) (op : Operation) : OperationTable :=
  if op.status = .running then
    if op.kind = .rollback then t.tryTransition op.operationId .uncertain now
    else t.tryRequeue op.operationId now
  else t

/-- `_sweep_running`, as far as it comes. -/
def sweepUpTo (count : ℕ) (now : ℕ) (t : OperationTable) : OperationTable :=
  (t.listNonTerminal.take count).foldl (sweepRow now) t

/-! ### Reading a changed table -/

section
variable {t : OperationTable} {op row : Operation} {operationId : String}

lemma get_put (t : OperationTable) (op : Operation) (operationId : String) : (t.put op).get operationId =
      (t.get operationId).map fun row => if row.operationId = op.operationId then op else row :=
  Data.find?_replaceRow Operation.operationId t.rows op operationId

lemma operationId_of_get (h : t.get operationId = some row) : row.operationId = operationId := by
  simpa using find?_some h

lemma mem_of_get (h : t.get operationId = some row) : row ∈ t.rows := mem_of_find?_eq_some h

lemma get_of_mem (h : row ∈ t.rows) : t.get row.operationId = some row := Data.find?_of_nodup t.unique h

lemma get_put_self (h : t.get op.operationId = some row) : (t.put op).get op.operationId = some op := by
  rw [get_put, h, Option.map_some, operationId_of_get h, if_pos rfl]

lemma get_put_of_ne (h : operationId ≠ op.operationId) : (t.put op).get operationId = t.get operationId := by
  rw [get_put]
  cases hget : t.get operationId with
  | none => rfl
  | some row =>
    rw [Option.map_some, operationId_of_get hget, if_neg h]

end

/-! ### What each statement does -/

/-- One row was moved and every other is as it was. -/
structure Moved (t t' : OperationTable) (op op' : Operation) : Prop where
  before : t.get op.operationId = some op
  same : op'.operationId = op.operationId
  kind : op'.kind = op.kind
  get : ∀ operationId, t'.get operationId = if operationId = op.operationId then some op' else t.get operationId

section
variable {t t' : OperationTable} {op op' row : Operation} {operationId : String} {now : ℕ}

lemma Moved.refl (h : t.get op.operationId = some op) : Moved t t op op := by
  refine ⟨h, rfl, rfl, fun operationId => ?_⟩
  split_ifs with hid
  · rw [hid, h]
  · rfl

lemma Moved.put (h : t.get operationId = some op) (hsame : op'.operationId = op.operationId)
    (hkind : op'.kind = op.kind) : Moved t (t.put op') op op' := by
  have hid := operationId_of_get h
  subst hid
  refine ⟨h, hsame, hkind, fun other => ?_⟩
  split_ifs with hother
  · rw [hother, ← hsame]
    exact get_put_self (hsame ▸ h)
  · exact get_put_of_ne (hsame ▸ hother)

lemma claim_eq_ok {claimToken : String} (h : t.claim operationId claimToken now = .ok (op', t')) :
    ∃ op, t.get operationId = some op ∧ op.status = .queued ∧ op'.status = .running ∧ Moved t t' op op' ∧
      op'.sessionId = op.sessionId ∧ op'.targetId = op.targetId := by
  unfold claim at h
  cases hget : t.get operationId with
  | none => simp [hget] at h
  | some op =>
    simp only [hget] at h
    split_ifs at h with hqueued
    cases h
    exact ⟨op, rfl, hqueued, rfl, .put hget rfl rfl, rfl, rfl⟩

lemma transition_eq_ok {target : OperationStatus} (h : t.transition operationId target now = .ok t') :
    ∃ op op', t.get operationId = some op ∧ operationStateMachine.canTransition op.status target = true ∧
      op'.status = target ∧ Moved t t' op op' := by
  unfold transition at h
  cases hget : t.get operationId with
  | none => simp [hget] at h
  | some op =>
    simp only [hget] at h
    split_ifs at h with hlegal <;> cases h
    · exact ⟨op, _, rfl, hlegal, rfl, .put hget rfl rfl⟩
    · exact ⟨op, _, rfl, hlegal, rfl, .put hget rfl rfl⟩

lemma requeue_eq_ok (h : t.requeue operationId now = .ok t') :
    ∃ op op', t.get operationId = some op ∧ op.status = .running ∧ op'.status = .queued ∧ Moved t t' op op' := by
  unfold requeue at h
  cases hget : t.get operationId with
  | none => simp [hget] at h
  | some op =>
    simp only [hget] at h
    split_ifs at h with hrunning
    cases h
    exact ⟨op, _, rfl, hrunning, rfl, .put hget rfl rfl⟩

lemma heartbeat_spec (h : t.get operationId = some op) (now : ℕ) :
    ∃ op', op'.status = op.status ∧ Moved t (t.heartbeat operationId now) op op' := by
  have hid := operationId_of_get h
  subst hid
  unfold heartbeat
  simp only [h]
  split_ifs with hrunning
  · refine ⟨_, ?_, Moved.put h rfl rfl⟩
    rfl
  · exact ⟨op, rfl, .refl h⟩

lemma cancel_eq_ok (h : t.cancel operationId now = .ok t') :
    ∃ op op', t.get operationId = some op ∧ Moved t t' op op' ∧
      ((op.status = .running ∧ op'.status = .cancelRequested) ∨ (op.status = .queued ∧ op'.status = .cancelled) ∨
        op' = op ∧ (op.status = .cancelRequested ∨ op.status = .cancelled)) := by
  unfold cancel at h
  cases hget : t.get operationId with
  | none => simp [hget] at h
  | some op =>
    have hid := operationId_of_get hget
    simp only [hget] at h
    cases hstatus : op.status with
    | queued =>
      simp only [hstatus] at h
      obtain ⟨op₁, op', hget', -, htarget, hmoved⟩ := transition_eq_ok h
      cases hget.symm.trans hget'
      exact ⟨op, op', rfl, hmoved, .inr (.inl ⟨hstatus, htarget⟩)⟩
    | running =>
      simp only [hstatus] at h
      obtain ⟨op₁, op', hget', -, htarget, hmoved⟩ := transition_eq_ok h
      cases hget.symm.trans hget'
      exact ⟨op, op', rfl, hmoved, .inl ⟨hstatus, htarget⟩⟩
    | cancelRequested =>
      simp only [hstatus] at h
      cases h
      exact ⟨op, op, rfl, .refl (hid ▸ hget), .inr (.inr ⟨rfl, .inl hstatus⟩)⟩
    | cancelled =>
      simp only [hstatus] at h
      cases h
      exact ⟨op, op, rfl, .refl (hid ▸ hget), .inr (.inr ⟨rfl, .inr hstatus⟩)⟩
    | _ => simp [hstatus] at h

lemma tryTransition_spec (h : t.get op.operationId = some op) (target : OperationStatus) (now : ℕ) :
    ∃ op', Moved t (t.tryTransition op.operationId target now) op op' ∧
      op'.status = if operationStateMachine.canTransition op.status target then target else op.status := by
  unfold tryTransition transition
  simp only [h]
  by_cases hlegal : operationStateMachine.canTransition op.status target = true
  · simp only [hlegal, if_true]
    exact ⟨_, .put h rfl rfl, rfl⟩
  · simp only [hlegal]
    exact ⟨op, .refl h, rfl⟩

lemma tryRequeue_spec (h : t.get op.operationId = some op) (now : ℕ) :
    ∃ op', Moved t (t.tryRequeue op.operationId now) op op' := by
  unfold tryRequeue requeue
  simp only [h]
  by_cases hrunning : op.status = .running
  · simp only [hrunning, if_true]
    exact ⟨_, .put h rfl rfl⟩
  · simp only [hrunning, if_false]
    exact ⟨op, .refl h⟩

lemma reconcileAgentKind_spec (linked : Investigations) (now : ℕ) (h : t.get op.operationId = some op) :
    ∃ op', Moved t (reconcileAgentKind linked now t op) op op' := by
  have htry : ∀ target, ∃ op', Moved t (t.tryTransition op.operationId target now) op op' := by
    intro target
    obtain ⟨op', hmoved, -⟩ := tryTransition_spec h target now
    exact ⟨op', hmoved⟩
  unfold reconcileAgentKind
  split
  · exact htry _
  · split
    · exact htry _
    · split_ifs
      · exact htry _
      · exact htry _
      · exact htry _
      · exact htry _
      · exact tryRequeue_spec h now

def recovered : OperationStatus → OperationStatus
  | .running => .uncertain
  | .cancelRequested => .cancelled
  | status => status

def swept : OperationStatus → OperationStatus
  | .running => .uncertain
  | status => status

lemma classify_spec (linked : Investigations) (now : ℕ) (h : t.get op.operationId = some op) :
    ∃ op', Moved t (classify linked now t op) op op' ∧ (op.kind = .rollback → op'.status = recovered op.status) := by
  unfold classify
  cases hstatus : op.status with
  | cancelRequested =>
    obtain ⟨op', hmoved, htarget⟩ := tryTransition_spec h .cancelled now
    rw [hstatus] at htarget
    exact ⟨op', hmoved, fun _ => htarget⟩
  | running =>
    cases hkind : op.kind with
    | rollback =>
      obtain ⟨op', hmoved, htarget⟩ := tryTransition_spec h .uncertain now
      rw [hstatus] at htarget
      exact ⟨op', hmoved, fun _ => htarget⟩
    | agentMessage =>
      obtain ⟨op', hmoved⟩ := reconcileAgentKind_spec linked now h
      exact ⟨op', hmoved, fun hrollback => by cases hrollback⟩
    | investigationStart =>
      obtain ⟨op', hmoved⟩ := reconcileAgentKind_spec linked now h
      exact ⟨op', hmoved, fun hrollback => by cases hrollback⟩
    | targetTest =>
      obtain ⟨op', hmoved⟩ := tryRequeue_spec h now
      exact ⟨op', hmoved, fun hrollback => by cases hrollback⟩
    | reportGenerate =>
      obtain ⟨op', hmoved⟩ := tryRequeue_spec h now
      exact ⟨op', hmoved, fun hrollback => by cases hrollback⟩
  | _ => exact ⟨op, .refl h, fun _ => hstatus⟩

lemma sweepRow_spec (now : ℕ) (h : t.get op.operationId = some op) :
    ∃ op', Moved t (sweepRow now t op) op op' ∧ (op.kind = .rollback → op'.status = swept op.status) := by
  unfold sweepRow
  by_cases hrunning : op.status = .running
  · rw [if_pos hrunning]
    split_ifs with hkind
    · obtain ⟨op', hmoved, htarget⟩ := tryTransition_spec h .uncertain now
      rw [hrunning] at htarget ⊢
      exact ⟨op', hmoved, fun _ => htarget⟩
    · obtain ⟨op', hmoved⟩ := tryRequeue_spec h now
      exact ⟨op', hmoved, fun hrollback => absurd hrollback hkind⟩
  · rw [if_neg hrunning]
    refine ⟨op, .refl h, fun _ => ?_⟩
    cases hstatus : op.status with
    | running => exact absurd hstatus hrunning
    | _ => rfl

variable {f : OperationTable → Operation → OperationTable}

lemma rel_foldl {R : Operation → Operation → Prop}
    (hf : ∀ t op, t.get op.operationId = some op → ∃ op', Moved t (f t op) op op' ∧ R op op')
    {ops : List Operation} (hunique : (ops.map Operation.operationId).Nodup)
    (hpresent : ∀ op ∈ ops, t.get op.operationId = some op) :
    (t.get operationId = none → (ops.foldl f t).get operationId = none) ∧
      ∀ before, t.get operationId = some before → ∃ row, (ops.foldl f t).get operationId = some row ∧
        row.kind = before.kind ∧ if before ∈ ops then R before row else row = before := by
  induction ops generalizing t with
  | nil => exact ⟨id, fun before hbefore => ⟨before, hbefore, rfl, by simp⟩⟩
  | cons op ops ih =>
    rw [map_cons, nodup_cons] at hunique
    obtain ⟨op', hmoved, hrel⟩ := hf t op (hpresent op mem_cons_self)
    have hrest : ∀ other ∈ ops, (f t op).get other.operationId = some other := by
      intro other hother
      rw [hmoved.get, if_neg]
      · exact hpresent other (mem_cons_of_mem _ hother)
      · intro hid
        exact hunique.1 (hid ▸ mem_map_of_mem hother)
    obtain ⟨hnone, hsome⟩ := ih hunique.2 hrest
    rw [hmoved.get] at hnone hsome
    rw [foldl_cons]
    constructor
    · intro habsent
      refine hnone ?_
      rw [if_neg]
      · exact habsent
      · intro hid
        rw [hid, hmoved.before] at habsent
        cases habsent
    · intro before hbefore
      by_cases hid : operationId = op.operationId
      · rw [if_pos hid] at hsome
        rw [hid, hmoved.before] at hbefore
        cases hbefore
        obtain ⟨row, hrow, hkind, hlast⟩ := hsome op' rfl
        have hnot : op' ∉ ops := by
          intro hmem
          exact hunique.1 (hmoved.same ▸ mem_map_of_mem hmem)
        rw [if_neg hnot] at hlast
        subst hlast
        exact ⟨row, hrow, hmoved.kind, by rw [if_pos mem_cons_self]; exact hrel⟩
      · rw [if_neg hid] at hsome
        obtain ⟨row, hrow, hkind, hlast⟩ := hsome before hbefore
        have hne : before ≠ op := by
          intro heq
          exact hid (heq ▸ (operationId_of_get hbefore).symm)
        refine ⟨row, hrow, hkind, ?_⟩
        simpa only [mem_cons, hne, false_or] using hlast

lemma get_foldl {g : OperationStatus → OperationStatus} (hf : ∀ t op, t.get op.operationId = some op →
      ∃ op', Moved t (f t op) op op' ∧ (op.kind = .rollback → op'.status = g op.status))
    {ops : List Operation} (hunique : (ops.map Operation.operationId).Nodup)
    (hpresent : ∀ op ∈ ops, t.get op.operationId = some op) :
    (t.get operationId = none → (ops.foldl f t).get operationId = none) ∧
      ∀ before, t.get operationId = some before → ∃ row, (ops.foldl f t).get operationId = some row ∧
        row.kind = before.kind ∧
          (before.kind = .rollback → row.status = if before ∈ ops then g before.status else before.status) := by
  obtain ⟨hnone, hsome⟩ := @rel_foldl t operationId f (fun op op' => op.kind = .rollback → op'.status = g op.status) hf
    ops hunique hpresent
  refine ⟨hnone, fun before hbefore => ?_⟩
  obtain ⟨row, hrow, hkind, hrel⟩ := hsome before hbefore
  refine ⟨row, hrow, hkind, fun hrollback => ?_⟩
  split_ifs at hrel ⊢ with hmem
  · exact hrel hrollback
  · rw [hrel]

lemma mem_oldestFirst {rows : List Operation} : op ∈ oldestFirst rows ↔ op ∈ rows := (perm_insertionSort _ rows).mem_iff

lemma mem_listNonTerminal :
    op ∈ t.listNonTerminal ↔ op ∈ t.rows ∧ operationStateMachine.isTerminal op.status = false := by
  rw [listNonTerminal, mem_oldestFirst, mem_filter, Bool.not_eq_true']

lemma nodup_listNonTerminal : (t.listNonTerminal.map Operation.operationId).Nodup := by
  have hperm := (perm_insertionSort (fun a b : Operation => a.createdAt ≤ b.createdAt)
    (t.rows.filter fun row => !operationStateMachine.isTerminal row.status)).map Operation.operationId
  refine hperm.nodup_iff.mpr ?_
  exact t.unique.sublist (filter_sublist.map _)

lemma get_pass {g : OperationStatus → OperationStatus} (hf : ∀ t op, t.get op.operationId = some op →
      ∃ op', Moved t (f t op) op op' ∧ (op.kind = .rollback → op'.status = g op.status)) (count : ℕ) :
    (t.get operationId = none → ((t.listNonTerminal.take count).foldl f t).get operationId = none) ∧
      ∀ before, t.get operationId = some before →
        ∃ row, ((t.listNonTerminal.take count).foldl f t).get operationId = some row ∧ row.kind = before.kind ∧
          (before.kind = .rollback →
            row.status = if before ∈ t.listNonTerminal.take count then g before.status else before.status) := by
  refine get_foldl hf ?_ ?_
  · exact nodup_listNonTerminal.sublist ((take_sublist _ _).map _)
  · intro op hop
    exact get_of_mem (mem_listNonTerminal.mp (mem_of_mem_take hop)).1

lemma recover_eq (linked : Investigations) (now : ℕ) (t : OperationTable) :
    t.recover linked now = t.recoverUpTo t.listNonTerminal.length linked now := by
  rw [recover, recoverUpTo, take_length]

lemma create_eq_ok (h : t.create op = .ok t') : t.get op.operationId = none ∧
    ∀ operationId, t'.get operationId = if operationId = op.operationId then some op else t.get operationId := by
  unfold create at h
  split_ifs at h with hpresent
  cases h
  have hnone : t.get op.operationId = none := by
    refine find?_eq_none.mpr fun row hrow hid => hpresent ?_
    rw [← of_decide_eq_true hid]
    exact mem_map_of_mem hrow
  refine ⟨hnone, fun operationId => ?_⟩
  rw [get, find?_append]
  change (t.get operationId).or _ = _
  split_ifs with hid
  · subst hid
    simp [hnone]
  · have hlast : [op].find? (fun row => decide (row.operationId = operationId)) = none := by
      simp [Ne.symm hid]
    rw [hlast, Option.or_none]

end
end OperationTable
end IncidentLens.Operations
