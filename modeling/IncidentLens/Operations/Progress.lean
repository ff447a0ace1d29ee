import IncidentLens.Operations.Dispatcher

/-!
# Claim progress

A worker takes the first operation that it may claim from a page of the queue, and goes on with the
next one whatever its handler did, unless what it raises while it finishes gets past both handlers.
-/
namespace IncidentLens.Operations
open Investigations OperationTable
open List hiding get_of_mem

/-! ### The page of the queue -/

section Claims
variable {n : ℕ} (handlers : OperationKind → Bool) (p : Process n) (t : OperationTable) (worker : String) (now : ℕ)

/-- A handler is registered, and nothing in flight conflicts. -/
def Process.takes (op : Operation) : Bool := handlers op.kind && !p.serializationBlocked op

def Claimable (op : Operation) : Prop := op ∈ t.rows ∧ op.status = .queued ∧ p.takes handlers op = true

/-- If an operation may be claimed, one is, and the oldest of them. -/
def ClaimsOldest : Prop := (∃ op, Claimable handlers p t op) → ∃ op, Claimable handlers p t op ∧
  (∀ other, Claimable handlers p t other → op.createdAt ≤ other.createdAt) ∧
    ∃ claimed moved, p.claimNext handlers t worker now = some (claimed, moved) ∧ claimed.operationId = op.operationId

/-- If an operation may be claimed, one of the hundred oldest queued operations may. -/
def PageReaches : Prop := (∃ op, Claimable handlers p t op) → ∃ op ∈ t.listQueued 100, p.takes handlers op = true

variable {handlers p t worker now}

variable {op : Operation}

lemma mem_listQueued {limit : ℕ} (h : op ∈ t.listQueued limit) : op ∈ t.rows ∧ op.status = .queued := by
  have hmem := mem_oldestFirst.mp (mem_of_mem_take h)
  rw [mem_filter, decide_eq_true_eq] at hmem
  exact hmem

lemma claim_queued (hmem : op ∈ t.rows) (hqueued : op.status = .queued) :
    ∃ claimed moved, t.claim op.operationId worker now = .ok (claimed, moved) ∧ claimed.status = .running ∧
      claimed.operationId = op.operationId := by
  unfold claim
  simp only [get_of_mem hmem, if_pos hqueued]
  exact ⟨_, _, rfl, rfl, rfl⟩

lemma claimNext_of_find (h : (t.listQueued 100).find? (p.takes handlers) = some op) :
    ∃ claimed moved, p.claimNext handlers t worker now = some (claimed, moved) ∧
      claimed.operationId = op.operationId := by
  obtain ⟨htakes, before, after, hpage, hnone⟩ := find?_eq_some_iff_append.mp h
  obtain ⟨hmem, hqueued⟩ := mem_listQueued (mem_of_find?_eq_some h)
  obtain ⟨claimed, moved, hclaim, hrunning, hid⟩ := @claim_queued t worker now op hmem hqueued
  obtain ⟨hhandler, hfree⟩ := Bool.and_eq_true_iff.mp htakes
  rw [Bool.not_eq_true'] at hfree
  refine ⟨claimed, moved, ?_, hid⟩
  refine findSome?_eq_some_iff.mpr ⟨before, op, after, hpage, ?_, fun other hother => ?_⟩
  · rw [hhandler, hfree]
    simp [hclaim, hrunning]
  · have hnot := hnone other hother
    rw [Process.takes, Bool.not_and, Bool.or_eq_true, Bool.not_not] at hnot
    rcases hnot with hhandler | hblocked
    · rw [if_pos hhandler]
    · rw [if_pos hblocked, ite_self]

lemma exists_of_claimNext {out : Operation × OperationTable} (h : p.claimNext handlers t worker now = some out) :
    ∃ op ∈ t.listQueued 100, p.takes handlers op = true := by
  obtain ⟨op, hop, hout⟩ := exists_of_findSome?_eq_some h
  refine ⟨op, hop, ?_⟩
  split_ifs at hout with hhandler hblocked
  rw [Bool.not_eq_true', Bool.not_eq_false] at hhandler
  rw [Process.takes, hhandler, Bool.true_and, Bool.not_eq_true', Bool.eq_false_iff]
  exact hblocked

lemma page_oldest {op other : Operation} {limit : ℕ} {before after : List Operation}
    (hpage : t.listQueued limit = before ++ op :: after) (hmem : other ∈ t.rows) (hqueued : other.status = .queued)
    (hnot : other ∉ before) : op.createdAt ≤ other.createdAt := by
  have hsorted : (oldestFirst (t.rows.filter fun row => row.status = .queued)).Pairwise
      fun a b => a.createdAt ≤ b.createdAt :=
    pairwise_insertionSort (fun a b : Operation => a.createdAt ≤ b.createdAt) _
  have hall : other ∈ oldestFirst (t.rows.filter fun row => row.status = .queued) := by
    rw [mem_oldestFirst, mem_filter]
    exact ⟨hmem, by simpa using hqueued⟩
  rw [← take_append_drop limit (oldestFirst _)] at hsorted hall
  rw [listQueued] at hpage
  rw [hpage] at hsorted hall
  obtain ⟨htake, -, hcross⟩ := pairwise_append.mp hsorted
  rcases mem_append.mp hall with htaken | hdropped
  · rcases mem_append.mp htaken with hbefore | hafter
    · exact absurd hbefore hnot
    · rcases mem_cons.mp hafter with rfl | hafter
      · exact Nat.le_refl _
      · exact (pairwise_cons.mp (pairwise_append.mp htake).2.1).1 other hafter
  · exact hcross op (mem_append_right _ mem_cons_self) other hdropped

lemma claimsOldest_iff : ClaimsOldest handlers p t worker now ↔ PageReaches handlers p t := by
  constructor
  · intro hclaims hexists
    obtain ⟨op, -, -, claimed, moved, hnext, -⟩ := hclaims hexists
    exact exists_of_claimNext hnext
  · intro hreaches hexists
    obtain ⟨some, hsome, htakes⟩ := hreaches hexists
    obtain ⟨op, hfind⟩ := Option.isSome_iff_exists.mp (find?_isSome.mpr ⟨some, hsome, htakes⟩)
    obtain ⟨hop, before, after, hpage, hnone⟩ := find?_eq_some_iff_append.mp hfind
    obtain ⟨hmem, hqueued⟩ := mem_listQueued (mem_of_find?_eq_some hfind)
    refine ⟨op, ⟨hmem, hqueued, hop⟩, fun other hother => ?_, claimNext_of_find hfind⟩
    refine page_oldest hpage hother.1 hother.2.1 fun hbefore => ?_
    have hnot := hnone other hbefore
    rw [hother.2.2] at hnot
    cases hnot

end Claims

/-! ### Finishing an operation -/

/-- What is raised while an operation is finished. -/
inductive Raised
  | handlerError | cancelledError | notFound | illegalTransition | concurrentUpdate | storeError
  deriving DecidableEq

/-- `except Exception`, behind `except asyncio.CancelledError: raise`. -/
def Raised.isException (e : Raised) : Bool := e ≠ .cancelledError

/-- What goes wrong with a move, beside what it checks: the store raises, another writer has moved the
row in between, or the move is stored and its event is not. -/
inductive TransitionFault
  | none | store | concurrent | publisher
  deriving DecidableEq

/-- How a handler ends; a failure of its own has an error code. -/
inductive HandlerEnd
  | returned (errorCode : Option String)
  | raised (e : Raised)

/-- `OperationService.transition`. -/
def serviceTransition (fault : TransitionFault) (t : OperationTable) (operationId : String) (target : OperationStatus)
    (now : ℕ) : Except Raised Unit × OperationTable :=
  match fault with
  | .store => (.error .storeError, t)
  | fault => match t.transition operationId target now with
    | .error .notFound => (.error .notFound, t)
    | .error _ => (.error .illegalTransition, t)
    | .ok moved => match fault with
      | .concurrent => (.error .concurrentUpdate, t)
      | .publisher => (.error .storeError, moved)
      | _ => (.ok (), moved)

/-- `_safe_transition_failed`. -/
def safeTransitionFailed (fault : TransitionFault) (t : OperationTable) (op : Operation) (now : ℕ) :
    Except Raised Unit × OperationTable :=
  match serviceTransition fault t op.operationId .failed now with
  | (.error .illegalTransition, t) | (.error .concurrentUpdate, t) => (.ok (), t)
  | out => out

/-- The status that a result is recorded with. -/
def resultStatus (errorCode : Option String) : OperationStatus := if errorCode.isSome then .failed else .succeeded

/-- `_execute` from the end of the handler on; what it raises ends the loop of its worker. -/
def execute (t : OperationTable) (op : Operation) (ending : HandlerEnd) (first second : TransitionFault) (now : ℕ) :
    Except Raised Unit × OperationTable :=
  let recorded : Except Raised Unit × OperationTable := match ending with
    | .raised e => (.error e, t)
    | .returned errorCode => serviceTransition first t op.operationId (resultStatus errorCode) now
  match recorded with
  | (.ok (), t) => (.ok (), t)
  | (.error e, t) => if e.isException then safeTransitionFailed second t op now else (.error e, t)

section Endings
variable (t : OperationTable) (op : Operation) (ending : HandlerEnd) (first second : TransitionFault) (now : ℕ)

def Survives : Prop := ∃ moved, execute t op ending first second now = (.ok (), moved)

def Movable (target : OperationStatus) : Prop :=
  ∃ row, t.get op.operationId = some row ∧ operationStateMachine.canTransition row.status target = true

/-- The handler raises, or its result cannot be recorded. -/
def Troubled : HandlerEnd → Prop
  | .raised _ => True
  | .returned errorCode => first ≠ .none ∨ ¬ Movable t op (resultStatus errorCode)

def Stored : HandlerEnd → Prop
  | .raised _ => False
  | .returned errorCode => first = .publisher ∧ Movable t op (resultStatus errorCode)

/-- The handler is not cancelled from within; and if it raises or its result cannot be recorded, the
row is there, the store does not raise again, and no event of a stored failure gets lost. -/
structure Handled : Prop where
  uncancelled : ending ≠ .raised .cancelledError
  second : Troubled t op first ending → (∃ row, t.get op.operationId = some row) ∧ second ≠ .store ∧
    (second = .publisher → Movable t op .failed → Stored t op first ending)

variable {t op ending first second now}

variable {target : OperationStatus}

lemma transition_of_movable (h : Movable t op target) :
    ∃ moved row, t.transition op.operationId target now = .ok moved ∧ moved.get op.operationId = some row ∧
      row.status = target := by
  obtain ⟨row, hrow, hlegal⟩ := h
  have hok : ∃ moved, t.transition op.operationId target now = .ok moved := by
    unfold transition
    simp only [hrow, hlegal, if_true]
    exact ⟨_, rfl⟩
  obtain ⟨moved, hmoved⟩ := hok
  obtain ⟨before, after, hbefore, -, hstatus, hput⟩ := transition_eq_ok hmoved
  refine ⟨moved, after, hmoved, ?_, hstatus⟩
  rw [hput.get, if_pos (operationId_of_get hbefore).symm]

lemma transition_of_not_movable {row : Operation} (hrow : t.get op.operationId = some row)
    (h : ¬ Movable t op target) : t.transition op.operationId target now = .error .illegalTransition := by
  have hlegal : operationStateMachine.canTransition row.status target = false := by
    rw [Bool.eq_false_iff]
    exact fun hlegal => h ⟨row, hrow, hlegal⟩
  unfold transition
  simp only [hrow, hlegal]
  rfl

lemma transition_of_absent (h : t.get op.operationId = none) :
    t.transition op.operationId target now = .error .notFound := by
  unfold transition
  simp only [h]

lemma safeTransitionFailed_ok_iff : (∃ moved, safeTransitionFailed second t op now = (.ok (), moved)) ↔
    (∃ row, t.get op.operationId = some row) ∧ second ≠ .store ∧ (second = .publisher → ¬ Movable t op .failed) := by
  unfold safeTransitionFailed serviceTransition
  cases hrow : t.get op.operationId with
  | none =>
    rw [transition_of_absent hrow]
    cases second <;> simp
  | some row =>
    by_cases hmovable : Movable t op .failed
    · obtain ⟨moved, row', hmoved, -, -⟩ := @transition_of_movable t op now _ hmovable
      rw [hmoved]
      cases second <;> simp [hmovable]
    · rw [transition_of_not_movable hrow hmovable]
      cases second <;> simp [hmovable]

lemma not_movable_of_terminal {row : Operation} (hrow : t.get op.operationId = some row)
    (hterminal : operationTransitions row.status = []) : ¬ Movable t op target := by
  rintro ⟨row', hrow', hlegal⟩
  rw [hrow] at hrow'
  cases hrow'
  have hmem : target ∈ operationTransitions row.status := by
    simpa [StateMachine.canTransition, operationStateMachine] using hlegal
  rw [hterminal] at hmem
  cases hmem

lemma operationTransitions_resultStatus (errorCode : Option String) :
    operationTransitions (resultStatus errorCode) = [] := by
  unfold resultStatus
  split_ifs <;> rfl

lemma survives_iff : Survives t op ending first second now ↔ Handled t op ending first second := by
  have hcondition : ∀ {t' : OperationTable}, ((∃ row, t'.get op.operationId = some row) ↔ ∃ row, t.get op.operationId = some row) →
      (Movable t' op .failed ↔ Movable t op .failed ∧ ¬ Stored t op first ending) → Troubled t op first ending →
      ending ≠ .raised .cancelledError →
      ((∃ moved, safeTransitionFailed second t' op now = (.ok (), moved)) ↔ Handled t op ending first second) := by
    intro t' hpresent hmovable htroubled huncancelled
    rw [safeTransitionFailed_ok_iff, hpresent, hmovable]
    constructor
    · rintro ⟨hrow, hstore, hpublisher⟩
      refine ⟨huncancelled, fun _ => ⟨hrow, hstore, fun hsecond hopen => ?_⟩⟩
      by_contra hstored
      exact hpublisher hsecond ⟨hopen, hstored⟩
    · intro h
      obtain ⟨hrow, hstore, hpublisher⟩ := h.second htroubled
      exact ⟨hrow, hstore, fun hsecond hopen => hopen.2 (hpublisher hsecond hopen.1)⟩
  cases ending with
  | raised e =>
    by_cases hcancelled : e = .cancelledError
    · subst hcancelled
      refine ⟨?_, fun h => absurd rfl h.uncancelled⟩
      rintro ⟨moved, hmoved⟩
      cases hmoved
    · have hexecute : execute t op (.raised e) first second now = safeTransitionFailed second t op now := by
        have hexception : e.isException = true := decide_eq_true hcancelled
        simp only [execute, hexception, if_true]
      rw [Survives, hexecute]
      exact hcondition Iff.rfl (by simp [Stored]) trivial (by simpa using hcancelled)
  | returned errorCode =>
    have hopen : HandlerEnd.returned errorCode ≠ .raised .cancelledError := HandlerEnd.noConfusion
    by_cases hmovable : Movable t op (resultStatus errorCode)
    · obtain ⟨moved, row, hmoved, hrow, hstatus⟩ := @transition_of_movable t op now _ hmovable
      obtain ⟨before, hbefore, -⟩ := id hmovable
      have hterminal : ¬ Movable moved op .failed := by
        refine not_movable_of_terminal hrow ?_
        rw [hstatus]
        exact operationTransitions_resultStatus errorCode
      cases first with
      | none =>
        refine ⟨fun _ => ⟨hopen, fun htroubled => ?_⟩, fun _ => ⟨moved, ?_⟩⟩
        · exact (htroubled.elim (fun h => h rfl) fun h => h hmovable).elim
        · simp only [execute, serviceTransition, hmoved]
      | store =>
        have hexecute : execute t op (.returned errorCode) .store second now = safeTransitionFailed second t op now := rfl
        rw [Survives, hexecute]
        exact hcondition Iff.rfl (by simp [Stored]) (.inl TransitionFault.noConfusion) hopen
      | concurrent =>
        have hexecute : execute t op (.returned errorCode) .concurrent second now =
            safeTransitionFailed second t op now := by
          simp only [execute, serviceTransition, hmoved]
          rfl
        rw [Survives, hexecute]
        exact hcondition Iff.rfl (by simp [Stored]) (.inl TransitionFault.noConfusion) hopen
      | publisher =>
        have hexecute : execute t op (.returned errorCode) .publisher second now =
            safeTransitionFailed second moved op now := by
          simp only [execute, serviceTransition, hmoved]
          rfl
        rw [Survives, hexecute]
        refine hcondition ⟨fun _ => ⟨before, hbefore⟩, fun _ => ⟨row, hrow⟩⟩ ?_ (.inl TransitionFault.noConfusion) hopen
        exact ⟨fun h => absurd h hterminal, fun h => absurd ⟨rfl, hmovable⟩ h.2⟩
    · have htroubled : Troubled t op first (.returned errorCode) := .inr hmovable
      have hexecute : execute t op (.returned errorCode) first second now = safeTransitionFailed second t op now := by
        cases hrow : t.get op.operationId with
        | none =>
          have habsent := @transition_of_absent t op now (resultStatus errorCode) hrow
          cases first <;> simp only [execute, serviceTransition, habsent] <;> rfl
        | some row =>
          have hillegal := @transition_of_not_movable t op now _ row hrow hmovable
          cases first <;> simp only [execute, serviceTransition, hillegal] <;> rfl
      rw [Survives, hexecute]
      exact hcondition Iff.rfl (by simp [Stored, hmovable]) htroubled hopen

end Endings

/-- A worker claims the oldest operation it may and goes on after it, exactly if the page of the queue
reaches one and nothing gets past the handlers of its failures. -/
theorem claim_progress_iff {n : ℕ} (handlers : OperationKind → Bool) (p : Process n) (t : OperationTable) (worker : String)
    (op : Operation) (ending : HandlerEnd) (first second : TransitionFault) (now : ℕ) :
    ClaimsOldest handlers p t worker now ∧ Survives t op ending first second now ↔
      PageReaches handlers p t ∧ Handled t op ending first second :=
  and_congr claimsOldest_iff survives_iff

/-! ### A long queue, and a store that is locked twice -/

def agentOnly (kind : OperationKind) : Bool := kind ∈ [.agentMessage, .rollback, .targetTest]

def waitingMessage (i : ℕ) : Operation where
  operationId := "op-" ++ toString i
  kind := .agentMessage
  targetId := "web-1"
  sessionId := some "busy"
  createdAt := i
  updatedAt := i

def freeTest : Operation where
  operationId := "test"
  kind := .targetTest
  targetId := "web-2"
  createdAt := 100
  updatedAt := 100

lemma waitingMessage_injective {i j : ℕ} (h : (waitingMessage i).operationId = (waitingMessage j).operationId) : i = j := by
  have htext := congrArg String.toList h
  have hdec : ∀ k : ℕ, (toString k).toList = Nat.toDigits 10 k := fun _ => Nat.toList_repr
  simp only [waitingMessage, String.toList_append, append_cancel_left_eq, hdec] at htext
  have hvalue := congrArg (fun ds => Nat.ofDigitChars 10 ds 0) htext
  simpa only [Nat.ofDigitChars_ten_toDigits] using hvalue

def longQueue : OperationTable where
  rows := (range 100).map waitingMessage ++ [freeTest]
  unique := by
    rw [map_append, map_map]
    refine nodup_append.mpr ⟨nodup_range.map fun _ _ => waitingMessage_injective, nodup_singleton _, ?_⟩
    intro a ha b hb hab
    obtain ⟨i, -, rfl⟩ := mem_map.mp ha
    rw [mem_singleton.mp hb] at hab
    have htext := congrArg String.toList hab
    simp [waitingMessage, freeTest, String.toList_append] at htext

lemma listQueued_longQueue : longQueue.listQueued 100 = (range 100).map waitingMessage := by
  have hqueued : longQueue.rows.filter (fun row => row.status = .queued) = longQueue.rows := by
    refine filter_eq_self.mpr fun row hrow => ?_
    rcases mem_append.mp hrow with hwaiting | hfree
    · obtain ⟨i, -, rfl⟩ := mem_map.mp hwaiting
      rfl
    · rw [mem_singleton.mp hfree]
      rfl
  have hsorted : longQueue.rows.Pairwise fun a b => a.createdAt ≤ b.createdAt := by
    refine pairwise_append.mpr ⟨pairwise_map.mpr ?_, pairwise_singleton _ _, fun a ha b hb => ?_⟩
    · exact pairwise_lt_range.imp fun h => h.le
    · obtain ⟨i, hi, rfl⟩ := mem_map.mp ha
      rw [mem_singleton.mp hb]
      exact (mem_range.mp hi).le
  rw [listQueued, hqueued, oldestFirst, hsorted.insertionSort_eq]
  exact take_left' (by rw [length_map, length_range])

def busyProcess : Process 1 := { activeSessions := ["busy"] }

/-- A hundred messages of a busy session stand in front of a test that nothing blocks; and a store that
raises while a failure is recorded ends the loop of the worker. -/
theorem long_queue_starves : ¬ ClaimsOldest agentOnly busyProcess longQueue "dispatcher:0" 0 ∧
    ¬ Survives longQueue freeTest (.raised .handlerError) .none .store 0 := by
  constructor
  · intro h
    obtain ⟨op, hop, htakes⟩ := claimsOldest_iff.mp h
      ⟨freeTest, mem_append_right _ (mem_singleton_self _), rfl, by decide⟩
    rw [listQueued_longQueue] at hop
    obtain ⟨i, -, rfl⟩ := mem_map.mp hop
    cases htakes
  · intro h
    exact (survives_iff.mp h).second trivial |>.2.1 rfl

end IncidentLens.Operations
