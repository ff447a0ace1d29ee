import IncidentLens.Effects.Runs
import IncidentLens.Operations.Store
import Mathlib.Data.List.Count
import Mathlib.Logic.Function.Basic

/-!
# The dispatcher

Workers claim queued operations and run their handlers. Processes come and go over one table: a
process first classifies what the one before it left, and dies at any moment; on the way out it
may still drain its handlers, cancel those that do not end, and sweep.
-/
namespace IncidentLens.Operations
open Effects OperationTable Function

inductive Worker
  | polling
  | claimed (op : Operation)
  | handling (op : Operation)
  | stopped

def Worker.operation : Worker → Option Operation
  | .claimed op | .handling op => some op
  | .polling | .stopped => none

structure Process (n : ℕ) where
  active : Bool := true
  activeSessions : List String := []
  activeDangerousTargets : List String := []
  workers : Fin n → Worker := fun _ => .polling

/-- What a handler ends with; a failure of its own has an error code. -/
inductive HandlerOutcome
  | returned (errorCode : Option String)
  | raised

namespace Process
variable {n : ℕ}

def serializationBlocked (p : Process n) (op : Operation) : Bool :=
  op.sessionId.any p.activeSessions.contains || (op.kind = .rollback && p.activeDangerousTargets.contains op.targetId)

/-- `_claim_next`, without the bookkeeping. -/
def claimNext (handlers : OperationKind → Bool) (p : Process n) (t : OperationTable) (worker : String) (now : ℕ) :
    Option (Operation × OperationTable) :=
  (t.listQueued 100).findSome? fun op =>
    if !handlers op.kind then none
    else if p.serializationBlocked op then none
    else match t.claim op.operationId worker now with
    | .error _ => none
    | .ok (claimed, moved) => if claimed.status = .running then some (claimed, moved) else none

def hold (p : Process n) (i : Fin n) (op : Operation) : Process n where
  active := p.active
  activeSessions := op.sessionId.toList ++ p.activeSessions
  activeDangerousTargets :=
    if op.kind = .rollback then op.targetId :: p.activeDangerousTargets else p.activeDangerousTargets
  workers := update p.workers i (.claimed op)

/-- `_release`. -/
def release (p : Process n) (i : Fin n) (op : Operation) : Process n where
  active := p.active
  activeSessions := p.activeSessions.filter fun s => op.sessionId ≠ some s
  activeDangerousTargets :=
    if op.kind = .rollback then p.activeDangerousTargets.filter fun target => target ≠ op.targetId
    else p.activeDangerousTargets
  workers := update p.workers i (if p.active then .polling else .stopped)

end Process

/-- The end of `_execute`. -/
def conclude (t : OperationTable) (op : Operation) (outcome : HandlerOutcome) (now : ℕ) : OperationTable :=
  let safeTransitionFailed := t.tryTransition op.operationId .failed now
  match outcome with
  | .raised => safeTransitionFailed
  | .returned errorCode =>
    match t.transition op.operationId (if errorCode.isSome then .failed else .succeeded) now with
    | .ok moved => moved
    | .error _ => safeTransitionFailed

/-- What has happened, over all processes: handlers that were started, operations whose outcome
was recorded, and those whose cancellation was requested while they were running. -/
structure History where
  started : List String := []
  recorded : List String := []
  cancelRequests : List String := []

structure Control (n : ℕ) where
  table : OperationTable := {}
  process : Option (Process n) := none
  history : History := {}

inductive ControlMove (n : ℕ)
  | create (op : Operation)
  | cancel (operationId : String) (now : ℕ)
  | boot (linked : OperationTable.Investigations) (now : ℕ)
  | dieInRecovery (count : ℕ) (linked : OperationTable.Investigations) (now : ℕ)
  | claim (i : Fin n) (now : ℕ)
  | start (i : Fin n)
  | heartbeat (i : Fin n) (now : ℕ)
  | finish (i : Fin n) (outcome : HandlerOutcome) (now : ℕ)
  | stop
  | interrupt (i : Fin n)
  | sweep (count : ℕ) (now : ℕ)
  | die

namespace Control
variable {n : ℕ}

def hasOutcome (t : OperationTable) (operationId : String) : Bool :=
  (t.get operationId).any fun row => row.status = .succeeded || row.status = .failed

def isRunning (t : OperationTable) (operationId : String) : Bool :=
  (t.get operationId).any fun row => row.status = .running

/-- The moves of a live process. -/
def stepAlive (handlers : OperationKind → Bool) (s : Control n) (p : Process n) : ControlMove n → Option (Control n)
  | .create op => match s.table.create { op with status := .queued, claimToken := none, claimedAt := none, finishedAt := none } with
    | .ok table => some { s with table := table }
    | .error _ => none
  | .cancel operationId now => match s.table.cancel operationId now with
    | .ok table => some { s with
        table := table
        history := { s.history with
          cancelRequests := (if isRunning s.table operationId then [operationId] else []) ++ s.history.cancelRequests } }
    | .error _ => none
  | .claim i now => match p.active, p.workers i with
    | true, .polling => match p.claimNext handlers s.table ("dispatcher:" ++ toString i.val) now with
      | some (op, table) => some { s with table := table, process := some (p.hold i op) }
      | none => none
    | _, _ => none
  | .start i => match p.workers i with
    | .claimed op => some { s with
        process := some { p with workers := update p.workers i (.handling op) }
        history := { s.history with started := op.operationId :: s.history.started } }
    | _ => none
  | .heartbeat i now => match p.workers i with
    | .handling op => some { s with table := s.table.heartbeat op.operationId now }
    | _ => none
  | .finish i outcome now => match p.workers i with
    | .handling op =>
      let table := conclude s.table op outcome now
      some { s with
        table := table
        process := some (p.release i op)
        history := { s.history with
          recorded := (if hasOutcome table op.operationId then [op.operationId] else []) ++ s.history.recorded } }
    | _ => none
  | .stop => some { s with process := some { p with active := false } }
  | .interrupt i => match p.active, p.workers i with
    | false, .handling op => some { s with process := some (p.release i op) }
    | _, _ => none
  | .sweep count now =>
    if p.active = false ∧ ∀ i, (p.workers i).operation = none then some { s with table := s.table.sweepUpTo count now }
    else none
  | .die => some { s with process := none }
  | .boot .. | .dieInRecovery .. => none

def step (handlers : OperationKind → Bool) (s : Control n) (move : ControlMove n) : Option (Control n) :=
  match s.process with
  | some p => s.stepAlive handlers p move
  | none => match move with
    | .boot linked now => some { s with table := s.table.recover linked now, process := some {} }
    | .dieInRecovery count linked now => some { s with table := s.table.recoverUpTo count linked now }
    | _ => none

end Control

def control (n : ℕ) (handlers : OperationKind → Bool) : System (Control n) (ControlMove n) := ⟨{}, Control.step handlers⟩

/-- Two operations that may be in flight together. -/
structure Operation.Apart (a b : Operation) : Prop where
  sessions : ∀ session, a.sessionId = some session → b.sessionId ≠ some session
  targets : a.kind = .rollback → b.kind = .rollback → a.targetId ≠ b.targetId

/-- Rollbacks start at most once; what is in flight is apart; and once a process has recovered,
a rollback that was started and is not in flight has its outcome recorded, or it is uncertain,
or cancelled if that was requested while it was running. -/
structure Control.Guarded {n : ℕ} (s : Control n) : Prop where
  once : ∀ operationId op, s.table.get operationId = some op → op.kind = .rollback →
    s.history.started.count operationId ≤ 1
  apart : ∀ p, s.process = some p → ∀ i j, i ≠ j → ∀ a b, (p.workers i).operation = some a →
    (p.workers j).operation = some b → a.Apart b
  parked : ∀ p, s.process = some p → p.active = true → ∀ operationId op, s.table.get operationId = some op →
    op.kind = .rollback → operationId ∈ s.history.started → operationId ∉ s.history.recorded →
    (∀ i a, (p.workers i).operation = some a → a.operationId ≠ operationId) →
      op.status = if operationId ∈ s.history.cancelRequests then .cancelled else .uncertain

/-! ### What holds of every rollback -/

structure RollbackSound (row : Operation) (h : History) : Prop where
  once : h.started.count row.operationId ≤ 1
  queued : row.status = .queued → row.operationId ∉ h.started
  requests : row.status = .cancelRequested → row.operationId ∈ h.cancelRequests
  requested : row.operationId ∉ h.recorded → row.operationId ∈ h.cancelRequests →
    row.status = .cancelRequested ∨ row.status = .cancelled
  unrequested : row.operationId ∈ h.started → row.operationId ∉ h.recorded → row.operationId ∉ h.cancelRequests →
    row.status = .running ∨ row.status = .uncertain

structure TableSound (t : OperationTable) (h : History) : Prop where
  rollbacks : ∀ operationId row, t.get operationId = some row → row.kind = .rollback → RollbackSound row h
  known : ∀ operationId, operationId ∈ h.started ∨ operationId ∈ h.cancelRequests → ∃ row, t.get operationId = some row

def InFlight (status : OperationStatus) : Prop := status = .running ∨ status = .cancelRequested

structure ProcessSound {n : ℕ} (p : Process n) (t : OperationTable) (started : List String) : Prop where
  held : ∀ i a, (p.workers i).operation = some a →
    ∃ row, t.get a.operationId = some row ∧ row.kind = a.kind ∧ InFlight row.status
  fresh : ∀ i a, p.workers i = .claimed a → a.kind = .rollback → a.operationId ∉ started
  apart : ∀ i j, i ≠ j → ∀ a b, (p.workers i).operation = some a → (p.workers j).operation = some b →
    a.operationId ≠ b.operationId ∧ a.Apart b
  keys : ∀ i a, (p.workers i).operation = some a →
    (∀ session, a.sessionId = some session → session ∈ p.activeSessions) ∧
      (a.kind = .rollback → a.targetId ∈ p.activeDangerousTargets)
  working : p.active = true → ∀ operationId row, t.get operationId = some row → row.kind = .rollback →
    InFlight row.status → ∃ i a, (p.workers i).operation = some a ∧ a.operationId = operationId

structure Control.Sound {n : ℕ} (s : Control n) : Prop where
  table : TableSound s.table s.history
  process : ∀ p, s.process = some p → ProcessSound p s.table s.history.started

section
variable {n : ℕ} {s : Control n} {p : Process n} {t t' : OperationTable} {h : History} {op op' row : Operation}
  {operationId : String}

lemma Control.Sound.guarded (hs : s.Sound) : s.Guarded := by
  constructor
  · intro operationId op hget hkind
    have hid := operationId_of_get hget
    exact hid ▸ (hs.table.rollbacks operationId op hget hkind).once
  · intro p hp i j hij a b ha hb
    exact ((hs.process p hp).apart i j hij a b ha hb).2
  · intro p hp hactive operationId op hget hkind hstarted hunrecorded hnot
    have hid := operationId_of_get hget
    subst hid
    have hrow := hs.table.rollbacks _ op hget hkind
    have hidle : ¬ InFlight op.status := by
      intro hflight
      obtain ⟨i, a, ha, hid⟩ := (hs.process p hp).working hactive _ op hget hkind hflight
      exact hnot i a ha hid
    split_ifs with hcancel
    · exact (hrow.requested hunrecorded hcancel).resolve_left fun hreq => hidle (.inr hreq)
    · exact (hrow.unrequested hstarted hunrecorded hcancel).resolve_left fun hrun => hidle (.inl hrun)

lemma RollbackSound.move (hrow : RollbackSound op h) (hid : op'.operationId = op.operationId)
    (hqueued : op'.status ≠ .queued ∨ op'.status = op.status)
    (hrequests : op'.status = .cancelRequested → op.status = .cancelRequested)
    (hrequested : op.status = .cancelRequested ∨ op.status = .cancelled →
      op'.status = .cancelRequested ∨ op'.status = .cancelled)
    (hrun : op.status = .running ∨ op.status = .uncertain → op'.status = .running ∨ op'.status = .uncertain) :
    RollbackSound op' h := by
  refine ⟨?_, ?_, ?_, ?_, ?_⟩ <;> rw [hid]
  · exact hrow.once
  · intro hnew
    rcases hqueued with hne | hsame
    · exact absurd hnew hne
    · exact hrow.queued (hsame ▸ hnew)
  · exact fun hnew => hrow.requests (hrequests hnew)
  · exact fun hunrecorded hcancel => hrequested (hrow.requested hunrecorded hcancel)
  · exact fun hstarted hunrecorded hnot => hrun (hrow.unrequested hstarted hunrecorded hnot)

lemma TableSound.moved (ht : TableSound t h) (hmoved : t.Moved t' op op')
    (hnew : op.kind = .rollback → RollbackSound op h → RollbackSound op' h) : TableSound t' h := by
  constructor
  · intro operationId row hget hkind
    rw [hmoved.get] at hget
    split_ifs at hget with hid
    · cases hget
      have hrollback := hmoved.kind ▸ hkind
      exact hnew hrollback (ht.rollbacks _ op hmoved.before hrollback)
    · exact ht.rollbacks operationId row hget hkind
  · intro operationId hknown
    rw [hmoved.get]
    split_ifs with hid
    · exact ⟨op', rfl⟩
    · exact ht.known operationId hknown

lemma RollbackSound.congr {h' : History} (hrow : RollbackSound row h)
    (hcount : h'.started.count row.operationId = h.started.count row.operationId)
    (hrecorded : row.operationId ∈ h'.recorded ↔ row.operationId ∈ h.recorded)
    (hcancel : row.operationId ∈ h'.cancelRequests ↔ row.operationId ∈ h.cancelRequests) : RollbackSound row h' := by
  have hstarted : row.operationId ∈ h'.started ↔ row.operationId ∈ h.started := by
    rw [← List.count_pos_iff, hcount, List.count_pos_iff]
  constructor
  · rw [hcount]
    exact hrow.once
  · rw [hstarted]
    exact hrow.queued
  · rw [hcancel]
    exact hrow.requests
  · rw [hrecorded, hcancel]
    exact hrow.requested
  · rw [hstarted, hrecorded, hcancel]
    exact hrow.unrequested

lemma TableSound.create (ht : TableSound t h) (hqueued : op.status = .queued) (hcreate : t.create op = .ok t') :
    TableSound t' h := by
  obtain ⟨hnone, hget⟩ := create_eq_ok hcreate
  have hunknown : ∀ ids : List String, (op.operationId ∈ ids → ∃ row, t.get op.operationId = some row) →
      op.operationId ∉ ids := by
    intro ids hknown hmem
    obtain ⟨row, hrow⟩ := hknown hmem
    rw [hnone] at hrow
    cases hrow
  have hstarted := hunknown h.started fun hmem => ht.known _ (.inl hmem)
  have hcancel := hunknown h.cancelRequests fun hmem => ht.known _ (.inr hmem)
  constructor
  · intro operationId row hrow hkind
    rw [hget] at hrow
    split_ifs at hrow with hid
    · cases hrow
      constructor
      · rw [List.count_eq_zero.mpr hstarted]
        exact Nat.zero_le 1
      · exact fun _ => hstarted
      · intro hrequests
        rw [hqueued] at hrequests
        cases hrequests
      · exact fun _ hmem => absurd hmem hcancel
      · exact fun hmem => absurd hmem hstarted
    · exact ht.rollbacks operationId row hrow hkind
  · intro operationId hknown
    rw [hget]
    split_ifs with hid
    · exact ⟨op, rfl⟩
    · exact ht.known operationId hknown

variable {started : List String} {now : ℕ} {handlers : OperationKind → Bool} {i : Fin n}

lemma ProcessSound.create (hp : ProcessSound p t started) (hqueued : op.status = .queued)
    (hcreate : t.create op = .ok t') : ProcessSound p t' started := by
  obtain ⟨hnone, hget⟩ := create_eq_ok hcreate
  refine ⟨?_, hp.fresh, hp.apart, hp.keys, ?_⟩
  · intro i a ha
    obtain ⟨row, hrow, hkind, hflight⟩ := hp.held i a ha
    refine ⟨row, ?_, hkind, hflight⟩
    rw [hget, if_neg]
    · exact hrow
    · intro hid
      rw [hid, hnone] at hrow
      cases hrow
  · intro hactive operationId row hrow hkind hflight
    rw [hget] at hrow
    split_ifs at hrow with hid
    · cases hrow
      rcases hflight with hrun | hreq
      · rw [hqueued] at hrun
        cases hrun
      · rw [hqueued] at hreq
        cases hreq
    · exact hp.working hactive operationId row hrow hkind hflight

lemma ProcessSound.moved (hp : ProcessSound p t started) (hmoved : t.Moved t' op op')
    (hflight : InFlight op.status ↔ InFlight op'.status) : ProcessSound p t' started := by
  refine ⟨?_, hp.fresh, hp.apart, hp.keys, ?_⟩
  · intro i a ha
    obtain ⟨row, hrow, hkind, hrunning⟩ := hp.held i a ha
    rw [hmoved.get]
    split_ifs with hid
    · rw [hid, hmoved.before] at hrow
      cases hrow
      exact ⟨op', rfl, hmoved.kind.trans hkind, hflight.mp hrunning⟩
    · exact ⟨row, hrow, hkind, hrunning⟩
  · intro hactive operationId row hrow hkind hrunning
    rw [hmoved.get] at hrow
    split_ifs at hrow with hid
    · cases hrow
      exact hp.working hactive operationId op (hid ▸ hmoved.before) (hmoved.kind ▸ hkind) (hflight.mpr hrunning)
    · exact hp.working hactive operationId row hrow hkind hrunning

lemma Control.Sound.cancel (hs : s.Sound) (hcancel : s.table.cancel operationId now = .ok t') :
    Control.Sound { s with
      table := t'
      history := { s.history with
        cancelRequests := (if isRunning s.table operationId then [operationId] else []) ++ s.history.cancelRequests } } := by
  obtain ⟨op, op', hget, hmoved, hcases⟩ := cancel_eq_ok hcancel
  have hid := operationId_of_get hget
  subst hid
  have hrunning : isRunning s.table op.operationId = decide (op.status = .running) := by
    rw [isRunning, hget, Option.any_some]
  rw [hrunning]
  have hflight : InFlight op.status ↔ InFlight op'.status := by
    unfold InFlight
    rcases hcases with ⟨hold, hnew⟩ | ⟨hold, hnew⟩ | ⟨hsame, -⟩
    · simp [hold, hnew]
    · simp [hold, hnew]
    · rw [hsame]
  constructor
  · by_cases hrun : op.status = .running
    · -- the request is entered for this row only
      have hnew : op'.status = .cancelRequested := by
        rcases hcases with ⟨-, hnew⟩ | ⟨hqueued, -⟩ | ⟨-, hover⟩
        · exact hnew
        · rw [hrun] at hqueued
          cases hqueued
        · simp [hrun] at hover
      simp only [hrun, decide_true, if_true, List.singleton_append]
      constructor
      · intro other row hrow hkind
        rw [hmoved.get] at hrow
        split_ifs at hrow with hid
        · cases hrow
          have hold := hs.table.rollbacks _ op hmoved.before (hmoved.kind ▸ hkind)
          have hmem : op'.operationId ∈ op.operationId :: s.history.cancelRequests := by
            rw [hmoved.same]
            exact List.mem_cons_self
          constructor
          · rw [hmoved.same]
            exact hold.once
          · intro hqueued
            rw [hnew] at hqueued
            cases hqueued
          · exact fun _ => hmem
          · exact fun _ _ => .inl hnew
          · exact fun _ _ hnot => absurd hmem hnot
        · have hne : row.operationId ≠ op.operationId := by
            rw [operationId_of_get hrow]
            exact hid
          refine (hs.table.rollbacks other row hrow hkind).congr rfl Iff.rfl ?_
          simp [hne]
      · intro other hknown
        rw [hmoved.get]
        split_ifs with hid
        · exact ⟨op', rfl⟩
        · refine hs.table.known other (hknown.imp_right fun hmem => ?_)
          exact (List.mem_cons.mp hmem).resolve_left hid
    · simp only [hrun, decide_false]
      refine hs.table.moved hmoved fun _ hold => ?_
      rcases hcases with ⟨hrunning, -⟩ | ⟨hqueued, hnew⟩ | ⟨hsame, -⟩
      · exact absurd hrunning hrun
      · exact hold.move hmoved.same (by simp [hnew]) (by simp [hnew]) (by simp [hqueued]) (by simp [hqueued])
      · rw [hsame]
        exact hold
  · intro p hp
    exact (hs.process p hp).moved hmoved hflight

/-! ### Passes over the table -/

lemma recovered_sound (hrow : RollbackSound op h) (hid : op'.operationId = op.operationId)
    (hstatus : op'.status = recovered op.status) : RollbackSound op' h := by
  refine hrow.move hid ?_ ?_ ?_ ?_ <;> rw [hstatus] <;> cases op.status <;> simp [recovered]

lemma swept_sound (hrow : RollbackSound op h) (hid : op'.operationId = op.operationId)
    (hstatus : op'.status = swept op.status) : RollbackSound op' h := by
  refine hrow.move hid ?_ ?_ ?_ ?_ <;> rw [hstatus] <;> cases op.status <;> simp [swept]

lemma TableSound.pass {f : OperationTable → Operation → OperationTable} {g : OperationStatus → OperationStatus}
    (ht : TableSound t h) (hf : ∀ t op, t.get op.operationId = some op →
      ∃ op', OperationTable.Moved t (f t op) op op' ∧ (op.kind = .rollback → op'.status = g op.status))
    (hg : ∀ op op' : Operation, RollbackSound op h → op'.operationId = op.operationId → op'.status = g op.status →
      RollbackSound op' h) (count : ℕ) : TableSound ((t.listNonTerminal.take count).foldl f t) h := by
  constructor
  · intro operationId row hrow hkind
    obtain ⟨hnone, hsome⟩ := @get_pass t operationId f g hf count
    cases hget : t.get operationId with
    | none =>
      rw [hnone hget] at hrow
      cases hrow
    | some before =>
      obtain ⟨after, hafter, hsame, hstatus⟩ := hsome before hget
      rw [hafter] at hrow
      cases hrow
      have hrollback := hsame ▸ hkind
      have hold := ht.rollbacks operationId before hget hrollback
      have hid : row.operationId = before.operationId := by
        rw [operationId_of_get hafter, operationId_of_get hget]
      have hlast := hstatus hrollback
      split_ifs at hlast
      · exact hg before row hold hid hlast
      · exact hold.move hid (.inr hlast) (by simp [hlast]) (by simp [hlast]) (by simp [hlast])
  · intro operationId hknown
    obtain ⟨before, hget⟩ := ht.known operationId hknown
    obtain ⟨after, hafter, -⟩ := (@get_pass t operationId f g hf count).2 before hget
    exact ⟨after, hafter⟩

lemma TableSound.recoverUpTo (ht : TableSound t h) (count : ℕ) (linked : OperationTable.Investigations) (now : ℕ) :
    TableSound (t.recoverUpTo count linked now) h :=
  ht.pass (fun _ _ => classify_spec linked now) (fun _ _ => recovered_sound) count

lemma TableSound.sweepUpTo (ht : TableSound t h) (count now : ℕ) : TableSound (t.sweepUpTo count now) h :=
  ht.pass (fun _ _ => sweepRow_spec now) (fun _ _ => swept_sound) count

lemma not_inFlight_recover {linked : OperationTable.Investigations}
    (hrow : (t.recover linked now).get operationId = some row) (hkind : row.kind = .rollback) :
    ¬ InFlight row.status := by
  rw [recover_eq] at hrow
  obtain ⟨hnone, hsome⟩ := @get_pass t operationId (classify linked now)
    recovered (fun _ _ => classify_spec linked now) t.listNonTerminal.length
  rw [List.take_length] at hnone hsome
  rw [recoverUpTo, List.take_length] at hrow
  cases hget : t.get operationId with
  | none =>
    rw [hnone hget] at hrow
    cases hrow
  | some before =>
    obtain ⟨after, hafter, hsame, hstatus⟩ := hsome before hget
    rw [hafter] at hrow
    cases hrow
    have hlast := hstatus (hsame ▸ hkind)
    split_ifs at hlast with hmem
    · rw [hlast]
      cases before.status <;> simp [recovered, InFlight]
    · -- a row that is not listed is terminal
      have hterminal : operationStateMachine.isTerminal before.status = true := by
        by_contra hlive
        exact hmem (mem_listNonTerminal.mpr
          ⟨mem_of_get hget, Bool.eq_false_iff.mpr hlive⟩)
      rw [hlast]
      rintro (hrun | hreq)
      · rw [hrun] at hterminal
        cases hterminal
      · rw [hreq] at hterminal
        cases hterminal

lemma ProcessSound.boot {linked : OperationTable.Investigations} :
    ProcessSound ({} : Process n) (t.recover linked now) started := by
  constructor
  · intro i a ha
    cases ha
  · intro i a ha
    cases ha
  · intro i j _ a b ha
    cases ha
  · intro i a ha
    cases ha
  · intro _ operationId row hrow hkind hflight
    exact absurd hflight (not_inFlight_recover hrow hkind)

lemma ProcessSound.of_idle (hactive : p.active = false)
    (hidle : ∀ i, (p.workers i).operation = none) : ProcessSound p t started := by
  have hnone : ∀ i a, (p.workers i).operation ≠ some a := by
    intro i a ha
    rw [hidle i] at ha
    cases ha
  constructor
  · exact fun i a ha => absurd ha (hnone i a)
  · intro i a ha
    refine absurd ?_ (hnone i a)
    rw [ha]
    rfl
  · exact fun i _ _ a _ ha => absurd ha (hnone i a)
  · exact fun i a ha => absurd ha (hnone i a)
  · intro htrue
    rw [hactive] at htrue
    cases htrue

/-! ### Claiming, starting and finishing -/

lemma claimNext_eq_some {worker : String} (hclaim : p.claimNext handlers t worker now = some (op', t')) :
    ∃ op, op.status = .queued ∧ op'.status = .running ∧ t.Moved t' op op' ∧ op'.sessionId = op.sessionId ∧
      op'.targetId = op.targetId ∧ p.serializationBlocked op = false := by
  obtain ⟨listed, hlisted, hnext⟩ := List.exists_of_findSome?_eq_some hclaim
  have hmem : listed ∈ t.rows := (List.mem_filter.mp (mem_oldestFirst.mp (List.mem_of_mem_take hlisted))).1
  split_ifs at hnext with hhandler hblocked
  cases hout : t.claim listed.operationId worker now with
  | error e => simp [hout] at hnext
  | ok out =>
    obtain ⟨claimed, moved⟩ := out
    simp only [hout] at hnext
    split_ifs at hnext with hrunning
    cases hnext
    obtain ⟨op, hget, hqueued, hstatus, hmoved, hsession, htarget⟩ := claim_eq_ok hout
    rw [get_of_mem hmem] at hget
    cases hget
    exact ⟨listed, hqueued, hstatus, hmoved, hsession, htarget, by simpa using hblocked⟩

lemma serializationBlocked_eq_false (hblocked : p.serializationBlocked op = false) :
    (∀ session, op.sessionId = some session → session ∉ p.activeSessions) ∧
      (op.kind = .rollback → op.targetId ∉ p.activeDangerousTargets) := by
  rw [Process.serializationBlocked, Bool.or_eq_false_iff] at hblocked
  constructor
  · intro session hsession hmem
    rw [hsession, Option.any_some, List.contains_eq_mem, decide_eq_false_iff_not] at hblocked
    exact hblocked.1 hmem
  · intro hkind hmem
    rw [List.contains_eq_mem, Bool.and_eq_false_iff, decide_eq_false_iff_not, decide_eq_false_iff_not] at hblocked
    rcases hblocked.2 with hother | hnot
    · exact hother hkind
    · exact hnot hmem

lemma Operation.Apart.symm {a b : Operation} (hab : a.Apart b) : b.Apart a :=
  ⟨fun session hb ha => hab.sessions session ha hb, fun hb ha htarget => hab.targets ha hb htarget.symm⟩

lemma operation_update (workers : Fin n → Worker) (i j : Fin n) (worker : Worker) :
    (update workers i worker j).operation = if j = i then worker.operation else (workers j).operation := by
  rw [update_apply]
  split_ifs <;> rfl

lemma Control.Sound.claim {worker : String} (hs : s.Sound)
    (hprocess : s.process = some p) (hpolling : p.workers i = .polling)
    (hclaim : p.claimNext handlers s.table worker now = some (op', t')) :
    Control.Sound { s with table := t', process := some (p.hold i op') } := by
  obtain ⟨op, hqueued, hrunning, hmoved, hsession, htarget, hblocked⟩ := claimNext_eq_some hclaim
  obtain ⟨hsessions, htargets⟩ := serializationBlocked_eq_false hblocked
  have hp := hs.process p hprocess
  -- what is in flight is another operation
  have hother : ∀ j a, (p.workers j).operation = some a → a.operationId ≠ op.operationId := by
    intro j a ha hid
    obtain ⟨row, hrow, -, hflight⟩ := hp.held j a ha
    rw [hid, hmoved.before] at hrow
    cases hrow
    rcases hflight with hrun | hreq
    · rw [hqueued] at hrun
      cases hrun
    · rw [hqueued] at hreq
      cases hreq
  have hapart : ∀ j a, (p.workers j).operation = some a → op'.Apart a := by
    intro j a ha
    obtain ⟨hsession', htarget'⟩ := hp.keys j a ha
    constructor
    · intro session hop hsame
      exact hsessions session (hsession ▸ hop) (hsession' session hsame)
    · intro hop hkind hsame
      rw [htarget] at hsame
      exact htargets (hmoved.kind ▸ hop) (hsame ▸ htarget' hkind)
  refine ⟨?_, ?_⟩
  · refine hs.table.moved hmoved fun _ hold => ?_
    exact hold.move hmoved.same (by simp [hrunning]) (by simp [hrunning]) (by simp [hqueued]) (by simp [hqueued])
  · intro q hq
    cases hq
    refine ⟨?_, ?_, ?_, ?_, ?_⟩
    · intro j a ha
      rw [Process.hold, operation_update] at ha
      split_ifs at ha with hj
      · cases ha
        refine ⟨op', ?_, rfl, .inl hrunning⟩
        rw [hmoved.get, hmoved.same, if_pos rfl]
      · obtain ⟨row, hrow, hkind, hflight⟩ := hp.held j a ha
        refine ⟨row, ?_, hkind, hflight⟩
        rw [hmoved.get, if_neg (hother j a ha)]
        exact hrow
    · intro j a ha hkind
      simp only [Process.hold, update_apply] at ha
      split_ifs at ha with hj
      · cases ha
        have hrow := hs.table.rollbacks _ op hmoved.before (hmoved.kind ▸ hkind)
        rw [hmoved.same]
        exact hrow.queued hqueued
      · exact hp.fresh j a ha hkind
    · intro j k hjk a b ha hb
      simp only [Process.hold, operation_update] at ha hb
      split_ifs at ha with hj
      · cases ha
        rw [if_neg (fun hk => hjk (hj.trans hk.symm))] at hb
        exact ⟨hmoved.same ▸ (hother k b hb).symm, hapart k b hb⟩
      · split_ifs at hb with hk
        · cases hb
          exact ⟨hmoved.same ▸ hother j a ha, (hapart j a ha).symm⟩
        · exact hp.apart j k hjk a b ha hb
    · intro j a ha
      rw [Process.hold, operation_update] at ha
      split_ifs at ha with hj
      · cases ha
        constructor
        · intro session hsession
          simp [Process.hold, hsession]
        · intro hkind
          simp [Process.hold, hkind]
      · obtain ⟨hkeys, hdangerous⟩ := hp.keys j a ha
        constructor
        · intro session hsession
          exact List.mem_append_right _ (hkeys session hsession)
        · intro hkind
          simp only [Process.hold]
          split_ifs
          · exact List.mem_cons_of_mem _ (hdangerous hkind)
          · exact hdangerous hkind
    · intro hactive operationId row hrow hkind hflight
      simp only [Process.hold, operation_update]
      rw [hmoved.get] at hrow
      split_ifs at hrow with hid
      · cases hrow
        refine ⟨i, op', ?_, ?_⟩
        · rw [if_pos rfl]
          rfl
        · rw [hmoved.same, hid]
      · obtain ⟨j, a, ha, hsame⟩ := hp.working hactive operationId row hrow hkind hflight
        refine ⟨j, a, ?_, hsame⟩
        rw [if_neg]
        · exact ha
        · intro hj
          rw [hj, hpolling] at ha
          cases ha

lemma Control.Sound.start (hs : s.Sound) (hprocess : s.process = some p) (hclaimed : p.workers i = .claimed op) :
    Control.Sound { s with
      process := some { p with workers := update p.workers i (.handling op) }
      history := { s.history with started := op.operationId :: s.history.started } } := by
  have hp := hs.process p hprocess
  have hop : (p.workers i).operation = some op := by
    rw [hclaimed]
    rfl
  obtain ⟨row, hrow, hkind, hflight⟩ := hp.held i op hop
  have hsame : ∀ j, (update p.workers i (.handling op) j).operation = (p.workers j).operation := by
    intro j
    rw [operation_update]
    split_ifs with hj
    · rw [hj, hop]
      rfl
    · rfl
  constructor
  · constructor
    · intro operationId other hget hrollback
      have hother := hs.table.rollbacks operationId other hget hrollback
      have hid := operationId_of_get hget
      by_cases hne : other.operationId = op.operationId
      · -- the rollback that starts has not started before
        rw [← hid, hne, hrow] at hget
        cases hget
        have hfresh := hp.fresh i op hclaimed (hkind ▸ hrollback)
        constructor
        · rw [hne, List.count_cons_self, List.count_eq_zero.mpr hfresh]
        · intro hqueued
          rcases hflight with hrun | hreq
          · rw [hqueued] at hrun
            cases hrun
          · rw [hqueued] at hreq
            cases hreq
        · exact hother.requests
        · exact hother.requested
        · intro _ _ hnot
          rcases hflight with hrun | hreq
          · exact .inl hrun
          · exact absurd (hother.requests hreq) hnot
      · exact hother.congr (List.count_cons_of_ne (Ne.symm hne)) Iff.rfl Iff.rfl
    · rintro operationId (hmem | hcancel)
      · rcases List.mem_cons.mp hmem with hsame | hmem
        · rw [hsame]
          exact ⟨row, hrow⟩
        · exact hs.table.known operationId (.inl hmem)
      · exact hs.table.known operationId (.inr hcancel)
  · intro q hq
    cases hq
    constructor
    · intro j a ha
      rw [hsame] at ha
      exact hp.held j a ha
    · intro j a ha hrollback
      simp only [update_apply] at ha
      split_ifs at ha with hj
      have hheld : (p.workers j).operation = some a := by
        rw [ha]
        rfl
      intro hmem
      rcases List.mem_cons.mp hmem with hid | hmem
      · exact (hp.apart j i hj a op hheld hop).1 hid
      · exact hp.fresh j a ha hrollback hmem
    · intro j k hjk a b ha hb
      rw [hsame] at ha hb
      exact hp.apart j k hjk a b ha hb
    · intro j a ha
      rw [hsame] at ha
      exact hp.keys j a ha
    · intro hactive operationId other hget hrollback hrunning
      simp only [hsame]
      exact hp.working hactive operationId other hget hrollback hrunning

lemma conclude_spec (hget : t.get op.operationId = some row) (hflight : InFlight row.status)
    (outcome : HandlerOutcome) (now : ℕ) :
    ∃ row', t.Moved (conclude t op outcome now) row row' ∧ (row'.status = .succeeded ∨ row'.status = .failed) := by
  have hid := operationId_of_get hget
  rw [← hid] at hget
  have hfailed : ∃ row', t.Moved (t.tryTransition row.operationId .failed now) row row' ∧
      (row'.status = .succeeded ∨ row'.status = .failed) := by
    obtain ⟨row', hmoved, hstatus⟩ := tryTransition_spec hget .failed now
    refine ⟨row', hmoved, .inr ?_⟩
    rcases hflight with hrun | hreq
    · rw [hrun] at hstatus
      exact hstatus
    · rw [hreq] at hstatus
      exact hstatus
  unfold conclude
  rw [← hid]
  cases outcome with
  | raised => exact hfailed
  | returned errorCode =>
    dsimp only
    cases hmove : t.transition row.operationId (if errorCode.isSome then .failed else .succeeded) now with
    | error e => exact hfailed
    | ok moved =>
      obtain ⟨before, row', hbefore, -, hstatus, hmoved⟩ := transition_eq_ok hmove
      rw [hget] at hbefore
      cases hbefore
      refine ⟨row', hmoved, ?_⟩
      rw [hstatus]
      split_ifs
      · exact .inr rfl
      · exact .inl rfl

lemma ProcessSound.release (hp : ProcessSound p t started) (hop : (p.workers i).operation = some op)
    (hothers : ∀ operationId, operationId ≠ op.operationId → t'.get operationId = t.get operationId)
    (hended : p.active = true → ∀ row, t'.get op.operationId = some row → ¬ InFlight row.status) :
    ProcessSound (p.release i op) t' started := by
  have hfree : ∀ j, ((p.release i op).workers j).operation = if j = i then none else (p.workers j).operation := by
    intro j
    simp only [Process.release, operation_update]
    split_ifs <;> rfl
  constructor
  · intro j a ha
    rw [hfree] at ha
    split_ifs at ha with hj
    obtain ⟨row, hrow, hkind, hflight⟩ := hp.held j a ha
    refine ⟨row, ?_, hkind, hflight⟩
    rw [hothers _ (hp.apart j i hj a op ha hop).1]
    exact hrow
  · intro j a ha hrollback
    simp only [Process.release, update_apply] at ha
    split_ifs at ha with hj
    exact hp.fresh j a ha hrollback
  · intro j k hjk a b ha hb
    rw [hfree] at ha hb
    split_ifs at ha hb
    exact hp.apart j k hjk a b ha hb
  · intro j a ha
    rw [hfree] at ha
    split_ifs at ha with hj
    obtain ⟨hkeys, hdangerous⟩ := hp.keys j a ha
    have hapart := (hp.apart j i hj a op ha hop).2
    constructor
    · intro session hsession
      refine List.mem_filter.mpr ⟨hkeys session hsession, ?_⟩
      simpa using hapart.sessions session hsession
    · intro hrollback
      simp only [Process.release]
      split_ifs with hkind
      · refine List.mem_filter.mpr ⟨hdangerous hrollback, ?_⟩
        simpa using hapart.targets hrollback hkind
      · exact hdangerous hrollback
  · intro hactive operationId row hrow hrollback hflight
    by_cases hid : operationId = op.operationId
    · subst hid
      exact absurd hflight (hended hactive row hrow)
    · rw [hothers operationId hid] at hrow
      obtain ⟨j, a, ha, hsame⟩ := hp.working hactive operationId row hrow hrollback hflight
      refine ⟨j, a, ?_, hsame⟩
      rw [hfree, if_neg]
      · exact ha
      · intro hj
        rw [hj, hop] at ha
        cases ha
        exact hid hsame.symm

lemma Control.Sound.finish (hs : s.Sound) (hprocess : s.process = some p)
    (hhandling : p.workers i = .handling op) (outcome : HandlerOutcome) (now : ℕ) :
    Control.Sound { s with
      table := conclude s.table op outcome now
      process := some (p.release i op)
      history := { s.history with
        recorded := (if hasOutcome (conclude s.table op outcome now) op.operationId then [op.operationId] else []) ++
          s.history.recorded } } := by
  have hp := hs.process p hprocess
  have hop : (p.workers i).operation = some op := by
    rw [hhandling]
    rfl
  obtain ⟨row, hrow, hkind, hflight⟩ := hp.held i op hop
  have hid := operationId_of_get hrow
  obtain ⟨row', hmoved, hended⟩ := conclude_spec hrow hflight outcome now
  have houtcome : hasOutcome (conclude s.table op outcome now) op.operationId = true := by
    rw [hasOutcome, hmoved.get, if_pos hid.symm]
    simpa using hended
  rw [if_pos houtcome, List.singleton_append]
  constructor
  · constructor
    · intro operationId other hget hrollback
      rw [hmoved.get] at hget
      split_ifs at hget with hsame
      · cases hget
        have hold := hs.table.rollbacks _ row hmoved.before (hmoved.kind ▸ hrollback)
        have hmem : row'.operationId ∈ op.operationId :: s.history.recorded := by
          rw [hmoved.same, hid]
          exact List.mem_cons_self
        constructor
        · rw [hmoved.same]
          exact hold.once
        · intro hqueued
          rw [hqueued] at hended
          simp at hended
        · intro hrequests
          rw [hrequests] at hended
          simp at hended
        · exact fun hnot => absurd hmem hnot
        · exact fun _ hnot => absurd hmem hnot
      · have hne : other.operationId ≠ op.operationId := by
          rw [operationId_of_get hget, ← hid]
          exact hsame
        refine (hs.table.rollbacks operationId other hget hrollback).congr rfl ?_ Iff.rfl
        simp [hne]
    · intro operationId hknown
      rw [hmoved.get]
      split_ifs with hsame
      · exact ⟨row', rfl⟩
      · exact hs.table.known operationId hknown
  · intro q hq
    cases hq
    refine hp.release hop ?_ ?_
    · intro operationId hne
      rw [hmoved.get, if_neg (hid ▸ hne)]
    · intro _ after hafter
      rw [hmoved.get, if_pos hid.symm] at hafter
      cases hafter
      rcases hended with hsucceeded | hfailed
      · simp [InFlight, hsucceeded]
      · simp [InFlight, hfailed]

lemma Control.Sound.stepAlive {s' : Control n} {move : ControlMove n} (hs : s.Sound)
    (hprocess : s.process = some p) (hstep : s.stepAlive handlers p move = some s') : s'.Sound := by
  have hp := hs.process p hprocess
  cases move with
  | create op =>
    simp only [Control.stepAlive] at hstep
    split at hstep
    · rename_i table hcreate
      cases hstep
      refine ⟨hs.table.create rfl hcreate, fun q hq => ?_⟩
      exact (hs.process q hq).create rfl hcreate
    · cases hstep
  | cancel operationId now =>
    simp only [Control.stepAlive] at hstep
    split at hstep
    · rename_i table hcancel
      cases hstep
      exact hs.cancel hcancel
    · cases hstep
  | claim i now =>
    simp only [Control.stepAlive] at hstep
    split at hstep
    · rename_i hactive hpolling
      split at hstep
      · rename_i claimed table hclaim
        cases hstep
        exact hs.claim hprocess hpolling hclaim
      · cases hstep
    · cases hstep
  | start i =>
    simp only [Control.stepAlive] at hstep
    split at hstep
    · rename_i op hclaimed
      cases hstep
      exact hs.start hprocess hclaimed
    · cases hstep
  | heartbeat i now =>
    simp only [Control.stepAlive] at hstep
    split at hstep
    · rename_i op hhandling
      cases hstep
      obtain ⟨row, hrow, -⟩ := hp.held i op (by rw [hhandling]; rfl)
      obtain ⟨row', hstatus, hmoved⟩ := heartbeat_spec hrow _
      constructor
      · refine hs.table.moved hmoved fun _ hold => ?_
        exact hold.move hmoved.same (.inr hstatus) (by simp [hstatus]) (by simp [hstatus]) (by simp [hstatus])
      · intro q hq
        exact (hs.process q hq).moved hmoved (by rw [hstatus])
    · cases hstep
  | finish i outcome now =>
    simp only [Control.stepAlive] at hstep
    split at hstep
    · rename_i op hhandling
      cases hstep
      exact hs.finish hprocess hhandling outcome now
    · cases hstep
  | stop =>
    cases hstep
    refine ⟨hs.table, fun q hq => ?_⟩
    cases hq
    exact ⟨hp.held, hp.fresh, hp.apart, hp.keys, fun hactive => by cases hactive⟩
  | interrupt i =>
    simp only [Control.stepAlive] at hstep
    split at hstep
    · rename_i op hactive hhandling
      cases hstep
      refine ⟨hs.table, fun q hq => ?_⟩
      cases hq
      refine hp.release (by rw [hhandling]; rfl) (fun _ _ => rfl) fun htrue => ?_
      rw [hactive] at htrue
      cases htrue
    · cases hstep
  | sweep count now =>
    simp only [Control.stepAlive] at hstep
    split_ifs at hstep with hidle
    cases hstep
    refine ⟨hs.table.sweepUpTo count now, fun q hq => ?_⟩
    rw [hprocess] at hq
    cases hq
    exact .of_idle hidle.1 hidle.2
  | die =>
    cases hstep
    refine ⟨hs.table, fun q hq => ?_⟩
    cases hq
  | boot linked now => cases hstep
  | dieInRecovery count linked now => cases hstep

lemma Control.Sound.step {s' : Control n} {move : ControlMove n} (hs : s.Sound)
    (hstep : s.step handlers move = some s') : s'.Sound := by
  unfold Control.step at hstep
  split at hstep
  · rename_i p hprocess
    exact hs.stepAlive hprocess hstep
  · rename_i hdead
    split at hstep
    · rename_i linked now
      cases hstep
      constructor
      · rw [recover_eq]
        exact hs.table.recoverUpTo _ linked now
      · intro q hq
        cases hq
        exact .boot
    · rename_i count linked now
      cases hstep
      refine ⟨hs.table.recoverUpTo count linked now, fun q hq => ?_⟩
      rw [hdead] at hq
      cases hq
    · cases hstep

end

/-- Over all processes, whatever they come to. -/
theorem rollbacks_guarded (n : ℕ) (handlers : OperationKind → Bool) (s : Control n)
    (hs : (control n handlers).Reached (fun _ _ => True) s) : s.Guarded := by
  have hsound : s.Sound := by
    refine hs.invariant ?_ fun _ _ _ hsound _ hstep => hsound.step hstep
    constructor
    · constructor
      · intro operationId row hget
        cases hget
      · rintro operationId (hmem | hmem) <;> cases hmem
    · intro p hp
      cases hp
  exact hsound.guarded

def rollbackOf (operationId targetId : String) : Operation where
  operationId := operationId
  kind := .rollback
  targetId := targetId
  createdAt := 0
  updatedAt := 0

def noInvestigations : OperationTable.Investigations := fun _ => none

/-- A rollback whose cancellation was requested when the process died is cancelled, though it
was started and its outcome is not known. -/
theorem interrupted_rollback_cancelled : ∃ (s : Control 1) (p : Process 1) (op : Operation),
    (control 1 fun _ => true).runFrom {}
      [.boot noInvestigations 0, .create (rollbackOf "op-1" "web"), .claim 0 1, .start 0, .cancel "op-1" 2, .die,
        .boot noInvestigations 3] = some s ∧
    s.process = some p ∧ p.active = true ∧ (p.workers 0).operation = none ∧
    s.history.started = ["op-1"] ∧ s.history.recorded = [] ∧
    s.table.get "op-1" = some op ∧ op.kind = .rollback ∧ op.status = .cancelled ∧ op.status ≠ .uncertain := by
  exact ⟨_, _, _, rfl, rfl, rfl, rfl, rfl, rfl, rfl, rfl, rfl, by decide⟩

/-- Without the request it is uncertain. -/
theorem interrupted_rollback_uncertain : ∃ s : Control 1, (control 1 fun _ => true).runFrom {}
      [.boot noInvestigations 0, .create (rollbackOf "op-1" "web"), .claim 0 1, .start 0, .die,
        .boot noInvestigations 3] = some s ∧
    (s.table.get "op-1").map (·.status) = some .uncertain ∧ s.Guarded := by
  refine ⟨_, rfl, rfl, rollbacks_guarded 1 (fun _ => true) _ (.next (.boot noInvestigations 3) (.next .die
    (.next (.start 0) (.next (.claim 0 1) (.next (.create (rollbackOf "op-1" "web"))
      (.next (.boot noInvestigations 0) .start trivial rfl) trivial rfl) trivial rfl) trivial rfl) trivial rfl)
    trivial rfl)⟩

end IncidentLens.Operations
