import IncidentLens.Effects.Runs
import IncidentLens.Investigations.Footprint

/-!
# Evidence and tool calls on the books

A run keeps its evidence with a count of it and a count of the tool calls it made, and its
investigation counts both over all runs. The folds of a batch, the approvals, the child
reports and the delegations each keep these books by themselves.
-/
namespace IncidentLens.Investigations
open Data Effects StateError Function

structure Account where
  investigationId : String
  evidence : List EvidenceReference
  evidenceCount : ℕ
  toolCalls : ℕ
  maxEvidence : ℕ
  deriving DecidableEq

structure InvestigationAccount where
  evidenceCount : ℕ
  toolCalls : ℕ
  maxEvidence : ℕ
  deriving DecidableEq

def AgentRun.account (r : AgentRun) : Account :=
  ⟨r.investigationId, r.evidence, r.usage.evidenceCount, r.usage.toolCalls, r.budget.maxEvidence⟩

def Investigation.account (i : Investigation) : InvestigationAccount :=
  ⟨i.usage.evidenceCount, i.usage.toolCalls, i.budget.maxEvidence⟩

/-- The accounts, and of every executed call the run it was executed for. -/
@[ext] structure Books where
  runs : String → Option Account
  investigations : String → Option InvestigationAccount
  calls : String → Option String

/-- The call was executed, with whatever result. -/
def ToolCallStatus.executed : ToolCallStatus → Bool
  | .succeeded | .failed | .uncertain => true
  | _ => false

def ToolCallStatus.reported (status : ToolCallStatus) : Bool := status.executed || status = .waitingApproval

def ToolCall.executedBy (c : ToolCall) : Option String := if c.status.executed then some c.agentRunId else none

def Store.books (s : Store) : Books where
  runs id := (s.runs.get id).map AgentRun.account
  investigations id := (s.investigations.get id).map Investigation.account
  calls id := (s.toolCalls.get id).bind ToolCall.executedBy

/-- The books after a run and its investigation were written. -/
def Books.book (b : Books) (run : AgentRun) (investigation : Investigation) : Books :=
  { b with
    runs := update b.runs run.agentRunId (some run.account)
    investigations := update b.investigations investigation.investigationId (some investigation.account) }

/-- The books after a call of a run was executed. -/
def Books.execute (b : Books) (toolCallId agentRunId : String) : Books :=
  { b with calls := update b.calls toolCallId (some agentRunId) }

def Unbooked (s t : Store) : Prop := t.books = s.books

section
variable {s t u : Store} {run r₀ : AgentRun} {investigation i₀ : Investigation} {call : ToolCall}

lemma Unbooked.trans (h : Unbooked s t) (h' : Unbooked t u) : Unbooked s u := Eq.trans h' h

lemma unbooked_trans (s t u : Store) (h : Unbooked s t) (h' : Unbooked t u) : Unbooked s u := h.trans h'

lemma books_runs (h : s.runs.get run.agentRunId = some run) : s.books.runs run.agentRunId = some run.account := by
  simp only [Store.books, h, Option.map_some]

lemma books_investigations (h : s.investigations.get investigation.investigationId = some investigation) :
    s.books.investigations investigation.investigationId = some investigation.account := by
  simp only [Store.books, h, Option.map_some]

lemma books_calls (h : s.toolCalls.get call.toolCallId = some call) :
    s.books.calls call.toolCallId = call.executedBy := by
  simp only [Store.books, h, Option.bind_some]

lemma books_putRun (s : Store) (r : AgentRun) : Store.books { s with runs := s.runs.put r } =
    { s.books with runs := update s.books.runs r.agentRunId (some r.account) } := by
  ext1
  · funext id
    simp only [Store.books, Table.get_put, update_apply]
    split_ifs <;> rfl
  · rfl
  · rfl

lemma books_putInvestigation (s : Store) (i : Investigation) :
    Store.books { s with investigations := s.investigations.put i } =
      { s.books with investigations := update s.books.investigations i.investigationId (some i.account) } := by
  ext1
  · rfl
  · funext id
    simp only [Store.books, Table.get_put, update_apply]
    split_ifs <;> rfl
  · rfl

lemma books_putToolCall (s : Store) (c : ToolCall) :
    Store.books { s with toolCalls := s.toolCalls.put c } =
      { s.books with calls := update s.books.calls c.toolCallId c.executedBy } := by
  ext1
  · rfl
  · rfl
  · funext id
    simp only [Store.books, Table.get_put, update_apply]
    split_ifs <;> rfl

lemma unbooked_putRun {r : AgentRun} (h : s.runs.get r.agentRunId = some r₀) (haccount : r.account = r₀.account) :
    Unbooked s { s with runs := s.runs.put r } := by
  rw [Unbooked, books_putRun, haccount, update_eq_self_iff.mpr]
  simp only [Store.books, h, Option.map_some]

lemma unbooked_putInvestigation {i : Investigation} (h : s.investigations.get i.investigationId = some i₀)
    (haccount : i.account = i₀.account) : Unbooked s { s with investigations := s.investigations.put i } := by
  rw [Unbooked, books_putInvestigation, haccount, update_eq_self_iff.mpr]
  simp only [Store.books, h, Option.map_some]

lemma unbooked_putToolCall {c : ToolCall} (h : s.books.calls c.toolCallId = c.executedBy) :
    Unbooked s { s with toolCalls := s.toolCalls.put c } := by
  rw [Unbooked, books_putToolCall, update_eq_self_iff.mpr h.symm]

/-! ### Operations that book nothing -/

lemma transitionAgentRunStatus_unbooked (id : String) (target : AgentRunStatus) (now : Time)
    (stopReason : Option StopReason) : Along Unbooked (transitionAgentRunStatus id target now stopReason) := by
  intro s
  simp only [transitionAgentRunStatus, getAgentRun, wp_bind, wp_get]
  cases h : s.runs.get id with
  | none => exact rfl
  | some current =>
    by_cases hmove : agentRunStateMachine.canTransition current.status target = true
    · simp only [wp_pure, hmove, if_true]
      have hcurrent : s.runs.get current.agentRunId = some current := s.runs.get_key h
      exact unbooked_putRun hcurrent rfl
    · simp only [wp_pure, hmove, if_false, Bool.false_eq_true]
      exact rfl

lemma transitionInvestigationStatus_unbooked (id : String) (target : InvestigationStatus) (now : Time)
    (stopReason : Option StopReason) : Along Unbooked (transitionInvestigationStatus id target now stopReason) := by
  intro s
  simp only [transitionInvestigationStatus, getInvestigation, wp_bind, wp_get]
  cases h : s.investigations.get id with
  | none => exact rfl
  | some current =>
    by_cases hmove : investigationStateMachine.canTransition current.status target = true
    · simp only [wp_pure, hmove, if_true]
      have hcurrent : s.investigations.get current.investigationId = some current := s.investigations.get_key h
      exact unbooked_putInvestigation hcurrent rfl
    · simp only [wp_pure, hmove, if_false, Bool.false_eq_true]
      exact rfl

lemma pause_unbooked (run : AgentRun) (investigation : Investigation) (status : AgentRunStatus)
    (stopReason : StopReason) (now : Time) : Along Unbooked (pause run investigation status stopReason now) := by
  refine Along.bind unbooked_trans (transitionAgentRunStatus_unbooked _ _ _ _) fun _ => ?_
  split_ifs
  · exact transitionInvestigationStatus_unbooked _ _ _ _
  · exact fun _ => rfl

lemma pauseRound_unbooked (run : AgentRun) (investigation : Investigation) (status : AgentRunStatus)
    (stopReason : StopReason) (now : Time) : Along Unbooked (pauseRound run investigation status stopReason now) := by
  unfold pauseRound
  split_ifs
  · exact pause_unbooked _ _ _ _ _
  · exact fun _ => rfl

lemma not_executed_of_move {current target : ToolCallStatus}
    (h : toolCallStateMachine.canTransition current target = true) : current.executed = false := by
  cases current <;> first | rfl | (cases target <;> cases h)

lemma transitionToolCallStatus_books (hcall : s.toolCalls.get call.toolCallId = some call)
    (target : ToolCallStatus) {record : ToolCall → ToolCall} (hrecord : (record call).agentRunId = call.agentRunId) :
    wp (transitionToolCallStatus call.toolCallId target record) (fun result t =>
      t.runs = s.runs ∧ t.investigations = s.investigations ∧
        ((∃ e, result = .error e ∧ t = s) ∨ (result = .ok ⟨⟩ ∧ s.books.calls call.toolCallId = none ∧
          t.books = if target.executed then s.books.execute call.toolCallId call.agentRunId else s.books))) s := by
  simp only [transitionToolCallStatus, getToolCall, wp_bind, wp_get, hcall]
  by_cases hmove : toolCallStateMachine.canTransition call.status target = true
  · simp only [wp_pure, hmove, if_true]
    have hopen : s.books.calls call.toolCallId = none := by
      rw [books_calls hcall, ToolCall.executedBy, not_executed_of_move hmove]
      rfl
    refine ⟨rfl, rfl, .inr ⟨rfl, hopen, ?_⟩⟩
    by_cases htarget : target.executed = true
    · have hexecuted : (call.moved target record).executedBy = some call.agentRunId := by
        rw [ToolCall.executedBy, ToolCall.moved_status, if_pos htarget]
        exact congrArg some hrecord
      rw [if_pos htarget]
      refine (books_putToolCall s (call.moved target record)).trans ?_
      rw [hexecuted]
      rfl
    · have hopen' : (call.moved target record).executedBy = none := by
        rw [ToolCall.executedBy, ToolCall.moved_status, if_neg htarget]
      rw [if_neg htarget]
      exact unbooked_putToolCall (c := call.moved target record) (hopen.trans hopen'.symm)
  · simp only [wp_pure, hmove, if_false, Bool.false_eq_true]
    exact ⟨rfl, rfl, .inl ⟨_, rfl, rfl⟩⟩

/-! ### Writing back what was read -/

lemma wp_updateAgentRun_found {Q : Except StoreError PUnit → Store → Prop} {r : AgentRun}
    (h : s.runs.get r.agentRunId = some r₀) (hstatus : r₀.status = r.status) :
    wp (updateAgentRun r) Q s ↔ Q (.ok ⟨⟩) { s with runs := s.runs.put r } := by
  simp only [updateAgentRun, wp_bind, wp_get, h, hstatus, if_true]
  rfl

lemma wp_updateInvestigation_found {Q : Except StoreError PUnit → Store → Prop} {i : Investigation}
    (h : s.investigations.get i.investigationId = some i₀) (hstatus : i₀.status = i.status) :
    wp (updateInvestigation i) Q s ↔ Q (.ok ⟨⟩) { s with investigations := s.investigations.put i } := by
  simp only [updateInvestigation, wp_bind, wp_get, h, hstatus, if_true]
  rfl

lemma books_book (s : Store) (r : AgentRun) (i : Investigation) :
    Store.books { s with runs := s.runs.put r, investigations := s.investigations.put i } = s.books.book r i := by
  have hinv := books_putInvestigation { s with runs := s.runs.put r } i
  rw [books_putRun] at hinv
  exact hinv

/-! ### The fold of an outcome -/

lemma appendEvidence_spec {run' : AgentRun} {refs : List EvidenceReference} {n : ℕ}
    (h : appendEvidence run investigation refs = some (run', n)) : ∃ new, new.length = n ∧
      run' = { run with
        evidence := run.evidence ++ new
        usage := { run.usage with evidenceCount := if n = 0 then run.usage.evidenceCount else run.evidence.length + n } } ∧
      (n ≠ 0 → run.usage.evidenceCount + n ≤ run.budget.maxEvidence ∧
        investigation.usage.evidenceCount + n ≤ investigation.budget.maxEvidence) := by
  dsimp only [appendEvidence] at h
  split_ifs at h with hnone _ hrun _ hinv
  · cases h
    exact ⟨[], rfl, by simp, fun hne => absurd rfl hne⟩
  · cases h
    refine ⟨_, rfl, ?_, fun _ => ⟨by omega, by omega⟩⟩
    rw [if_neg (by simpa using hnone), List.length_append]

/-- The outcome fits into the output and the evidence budgets. -/
def accepts (run : AgentRun) (investigation : Investigation) (outcome : ToolOutcome) : Bool :=
  (canAcceptOutput run outcome.outputBytes).1 && (canInvestigationAcceptOutput investigation outcome.outputBytes).1 &&
    (appendEvidence run investigation outcome.evidence).isSome

/-- The three effects a fold has on the books. -/
inductive FoldEffect (toolCallId : String) (run : AgentRun) (investigation : Investigation) (outcome : ToolOutcome)
    (b b' : Books) : Prop
  | unbooked (h : b' = b)
  | refused (executed : outcome.status ≠ .waitingApproval) (first : b.calls toolCallId = none)
      (refused : accepts run investigation outcome = false)
      (h : b' = b.execute toolCallId run.agentRunId)
  | booked {run' : AgentRun} {n : ℕ} (first : b.calls toolCallId = none)
      (append : appendEvidence run investigation outcome.evidence = some (run', n))
      (h : b' = (b.execute toolCallId run.agentRunId).book (countRun run' outcome)
        (countInvestigation investigation outcome n))

variable {outcome : ToolOutcome}

lemma keepOutcome_refused (h : appendEvidence run investigation outcome.evidence = none)
    (now : Time) : Along Unbooked (keepOutcome run investigation outcome now) := by
  intro s
  simp only [keepOutcome, h, wp_bind]
  refine wp_mono (pauseRound_unbooked run investigation _ _ now s) fun r t ht => ?_
  cases r <;> exact ht

lemma keepOutcome_booked {run' : AgentRun} {n : ℕ} (hrun : s.runs.get run.agentRunId = some run)
    (hinv : s.investigations.get investigation.investigationId = some investigation)
    (h : appendEvidence run investigation outcome.evidence = some (run', n)) (now : Time) :
    wp (keepOutcome run investigation outcome now) (fun _ t =>
      t.books = s.books.book (countRun run' outcome) (countInvestigation investigation outcome n)) s := by
  obtain ⟨new, -, hrun', -⟩ := appendEvidence_spec h
  have hfound : s.runs.get (countRun run' outcome).agentRunId = some run := by
    rw [hrun']
    exact hrun
  have hstatus : run.status = (countRun run' outcome).status := by
    rw [hrun']
    rfl
  simp only [keepOutcome, h]
  rw [wp_bind, wp_updateAgentRun_found hfound hstatus]
  dsimp only
  have hfound' : Table.get (Store.investigations { s with runs := s.runs.put (countRun run' outcome) })
      (countInvestigation investigation outcome n).investigationId = some investigation := hinv
  rw [wp_bind, wp_updateInvestigation_found hfound' rfl]
  dsimp only
  have hbooks := books_book s (countRun run' outcome) (countInvestigation investigation outcome n)
  by_cases huncertain : outcome.status = .uncertain
  · simp only [huncertain, if_true, wp_bind]
    refine wp_mono (pauseRound_unbooked _ investigation _ _ now _) fun r t ht => ?_
    have hall : t.books = s.books.book (countRun run' outcome) (countInvestigation investigation outcome n) :=
      Eq.trans ht hbooks
    cases r <;> exact hall
  · simp only [huncertain, if_false, wp_pure]
    exact hbooks

lemma parkOnApproval_unbooked (hrun : s.runs.get run.agentRunId = some run)
    (hinv : s.investigations.get investigation.investigationId = some investigation) {request : ToolRequest}
    (hcall : s.toolCalls.get request.toolCallId = some call) (outcome : ToolOutcome) (now : Time) :
    wp (parkOnApproval run investigation request outcome now) (fun _ t => Unbooked s t) s := by
  have hkey : call.toolCallId = request.toolCallId := s.toolCalls.keyed _ _ hcall
  simp only [parkOnApproval, ← hkey]
  rw [wp_bind]
  refine wp_mono (transitionToolCallStatus_books (hkey ▸ hcall) _ rfl) ?_
  rintro r t ⟨hruns, hinvs, ⟨e, rfl, rfl⟩ | ⟨rfl, -, hmoved⟩⟩
  · rfl
  · replace hmoved : Unbooked s t := hmoved
    have hrun' : t.runs.get run.agentRunId = some run := hruns ▸ hrun
    have hinv' : t.investigations.get investigation.investigationId = some investigation := hinvs ▸ hinv
    dsimp only
    rw [wp_bind, wp_updateAgentRun_found hrun' rfl]
    dsimp only
    have hput : Unbooked t { t with runs := t.runs.put run } := unbooked_putRun hrun' rfl
    have hfound : Table.get (Store.investigations { t with runs := t.runs.put run }) investigation.investigationId =
        some investigation := hinv'
    rw [wp_bind, wp_updateInvestigation_found hfound rfl]
    dsimp only
    rw [wp_bind]
    have hput' := unbooked_putInvestigation hfound rfl
    refine wp_mono (pauseRound_unbooked run investigation _ _ now _) fun r u hu => ?_
    have hall : Unbooked s u := ((hmoved.trans hput).trans hput').trans hu
    cases r <;> exact hall

lemma foldToolOutcome_effect (hrun : s.runs.get run.agentRunId = some run)
    (hinv : s.investigations.get investigation.investigationId = some investigation) {request : ToolRequest}
    (hcall : s.toolCalls.get request.toolCallId = some call) (hown : call.agentRunId = run.agentRunId)
    (hreported : outcome.status.reported = true) (now : Time) :
    wp (foldToolOutcome run investigation request outcome now)
      (fun _ t => FoldEffect request.toolCallId run investigation outcome s.books t.books) s := by
  have hkey : call.toolCallId = request.toolCallId := s.toolCalls.keyed _ _ hcall
  unfold foldToolOutcome
  by_cases hwait : outcome.status = .waitingApproval
  · rw [if_pos hwait]
    exact wp_mono (parkOnApproval_unbooked hrun hinv hcall outcome now) fun _ _ h => .unbooked h
  · have hexecuted : outcome.status.executed = true := by
      simpa [ToolCallStatus.reported, hwait] using hreported
    rw [if_neg hwait, wp_bind, ← hkey]
    refine wp_mono (transitionToolCallStatus_books (hkey ▸ hcall) _ rfl) ?_
    rintro r t ⟨hruns, hinvs, ⟨e, rfl, rfl⟩ | ⟨rfl, hfirst, hmoved⟩⟩
    · exact .unbooked rfl
    · rw [if_pos hexecuted, hown] at hmoved
      dsimp only
      split_ifs with houtput
      · rw [wp_bind]
        refine wp_mono (pauseRound_unbooked run investigation _ _ now t) fun r u hu => ?_
        have hrefused : accepts run investigation outcome = false := by
          rcases houtput with h | h <;> simp [accepts, h]
        have hall : FoldEffect call.toolCallId run investigation outcome s.books u.books :=
          .refused hwait hfirst hrefused (Eq.trans hu hmoved)
        cases r <;> exact hall
      · cases happend : appendEvidence run investigation outcome.evidence with
        | none =>
          refine wp_mono (keepOutcome_refused happend now t) fun _ u hu => ?_
          exact .refused hwait hfirst (by simp [accepts, happend]) (Eq.trans hu hmoved)
        | some attached =>
          obtain ⟨run', n⟩ := attached
          refine wp_mono (keepOutcome_booked (hruns ▸ hrun) (hinvs ▸ hinv) happend now) ?_
          intro _ u hu
          exact .booked hfirst happend (hu.trans (by rw [hmoved]))

end
end IncidentLens.Investigations
