import IncidentLens.Investigations.Books
import IncidentLens.Investigations.Segments

/-!
# Bookings

An approved call, a child report and a delegation keep the books by themselves, beside the
fold of a batch. Each books one run and its investigation, or opens a run, or books nothing.
-/
namespace IncidentLens.Investigations
open Data Effects StateError

/-! ### Approved calls -/

def newReferences (run : AgentRun) (outcome : ToolOutcome) : List EvidenceReference :=
  outcome.evidence.filter fun ref => !(run.evidence.map (·.evidenceId)).contains ref.evidenceId

/-- The run after `_append_tool_outcome_evidence`. -/
def AgentRun.withOutcome (run : AgentRun) (outcome : ToolOutcome) : AgentRun :=
  { run with
    evidence := run.evidence ++ newReferences run outcome
    usage := { run.usage with
      evidenceCount := run.usage.evidenceCount + (newReferences run outcome).length
      toolCalls := run.usage.toolCalls + 1
      totalOutputBytes := run.usage.totalOutputBytes + outcome.outputBytes
      consecutiveNoNewEvidenceRounds := 0 } }

def Investigation.withOutcome (investigation : Investigation) (run : AgentRun) (outcome : ToolOutcome) :
    Investigation :=
  { investigation with usage := { investigation.usage with
      evidenceCount := investigation.usage.evidenceCount + (newReferences run outcome).length
      toolCalls := investigation.usage.toolCalls + 1
      totalOutputBytes := investigation.usage.totalOutputBytes + outcome.outputBytes
      consecutiveNoNewEvidenceRounds := 0 } }

/-- `_append_tool_outcome_evidence`. -/
def appendToolOutcomeEvidence (run : AgentRun) (outcome : ToolOutcome) : StoreM PUnit := do
  if newReferences run outcome = [] then pure ⟨⟩
  else if run.usage.evidenceCount + (newReferences run outcome).length > run.budget.maxEvidence then pure ⟨⟩
  else
    updateAgentRun (run.withOutcome outcome)
    let investigation ← getInvestigation run.investigationId
    updateInvestigation (investigation.withOutcome run outcome)

/-- `_handle_tool_approval` behind the execution of the approved call. -/
def landApproval (toolCallId : String) (outcome : ToolOutcome) : StoreM PUnit := do
  let toolCall ← getToolCall toolCallId
  if outcome.status = .waitingApproval then
    transitionToolCallStatus toolCallId .failed fun toolCall => { toolCall with
      errorRedacted := if outcome.errorRedacted.getD "" = "" then some "approval could not be consumed"
        else outcome.errorRedacted }
  else
    transitionToolCallStatus toolCallId outcome.status (recordOutcome outcome)
    let run ← getAgentRun toolCall.agentRunId
    appendToolOutcomeEvidence run outcome

/-- The outcome of an approved call is booked. -/
def booksOutcome (run : AgentRun) (outcome : ToolOutcome) : Bool :=
  outcome.status ≠ .waitingApproval && newReferences run outcome ≠ [] &&
    run.usage.evidenceCount + (newReferences run outcome).length ≤ run.budget.maxEvidence

inductive LandEffect (toolCallId : String) (run : AgentRun) (investigation : Investigation) (outcome : ToolOutcome)
    (b b' : Books) : Prop
  | unbooked (h : b' = b)
  | skipped (first : b.calls toolCallId = none) (skipped : booksOutcome run outcome = false)
      (h : b' = b.execute toolCallId run.agentRunId)
  | booked (first : b.calls toolCallId = none) (fits : booksOutcome run outcome = true)
      (h : b' = (b.execute toolCallId run.agentRunId).book (run.withOutcome outcome)
        (investigation.withOutcome run outcome))

section
variable {s t : Store} {run : AgentRun} {investigation : Investigation} {toolCall : ToolCall}

lemma appendToolOutcomeEvidence_books (hrun : s.runs.get run.agentRunId = some run)
    (hinv : s.investigations.get run.investigationId = some investigation) {outcome : ToolOutcome}
    (hstatus : outcome.status ≠ .waitingApproval) :
    wp (appendToolOutcomeEvidence run outcome) (fun _ t => t.books = if booksOutcome run outcome then
        s.books.book (run.withOutcome outcome) (investigation.withOutcome run outcome) else s.books) s := by
  have hkey : investigation.investigationId = run.investigationId := s.investigations.keyed _ _ hinv
  unfold appendToolOutcomeEvidence
  by_cases hnone : newReferences run outcome = []
  · have hskipped : booksOutcome run outcome = false := by simp [booksOutcome, hnone]
    rw [if_pos hnone, hskipped]
    rfl
  · rw [if_neg hnone]
    by_cases hcap : run.usage.evidenceCount + (newReferences run outcome).length > run.budget.maxEvidence
    · have hskipped : booksOutcome run outcome = false := by
        simp [booksOutcome, decide_eq_false (Nat.not_le_of_gt hcap)]
      rw [if_pos hcap, hskipped]
      rfl
    · rw [if_neg hcap]
      have hbooks : booksOutcome run outcome = true := by
        simp [booksOutcome, hstatus, hnone, Nat.le_of_not_gt hcap]
      have hfound : s.runs.get (run.withOutcome outcome).agentRunId = some run := hrun
      rw [wp_bind, wp_updateAgentRun_found hfound rfl]
      simp only [getInvestigation, wp_bind, wp_get, hinv, wp_pure]
      have hfound' : Table.get (Store.investigations { s with runs := s.runs.put (run.withOutcome outcome) })
          (investigation.withOutcome run outcome).investigationId = some investigation := hkey ▸ hinv
      rw [wp_updateInvestigation_found hfound' rfl, if_pos hbooks]
      exact books_book s (run.withOutcome outcome) (investigation.withOutcome run outcome)

lemma landApproval_effect (hcall : s.toolCalls.get toolCall.toolCallId = some toolCall)
    (hrun : s.runs.get toolCall.agentRunId = some run)
    (hinv : s.investigations.get run.investigationId = some investigation) {outcome : ToolOutcome}
    (hreported : outcome.status.reported = true) : wp (landApproval toolCall.toolCallId outcome)
      (fun _ t => LandEffect toolCall.toolCallId run investigation outcome s.books t.books) s := by
  have hkey : run.agentRunId = toolCall.agentRunId := s.runs.keyed _ _ hrun
  simp only [landApproval, getToolCall, wp_bind, wp_get, hcall, wp_pure]
  by_cases hwait : outcome.status = .waitingApproval
  · rw [if_pos hwait]
    refine wp_mono (transitionToolCallStatus_books hcall _ rfl) ?_
    rintro r t ⟨-, -, ⟨e, rfl, rfl⟩ | ⟨rfl, hfirst, hmoved⟩⟩
    · exact .unbooked rfl
    · exact .skipped hfirst (by simp [booksOutcome, hwait]) (hkey ▸ hmoved)
  · have hexecuted : outcome.status.executed = true := by
      simpa [ToolCallStatus.reported, hwait] using hreported
    rw [if_neg hwait, wp_bind]
    refine wp_mono (transitionToolCallStatus_books hcall _ rfl) ?_
    rintro r t ⟨hruns, hinvs, ⟨e, rfl, rfl⟩ | ⟨rfl, hfirst, hmoved⟩⟩
    · exact .unbooked rfl
    · rw [if_pos hexecuted, ← hkey] at hmoved
      have hfound : t.runs.get toolCall.agentRunId = some run := hruns ▸ hrun
      simp only [getAgentRun, wp_bind, wp_get, hfound, wp_pure]
      refine wp_mono (appendToolOutcomeEvidence_books (t.runs.get_key hfound) (hinvs ▸ hinv) hwait) ?_
      intro r u hu
      rw [hmoved] at hu
      by_cases hb : booksOutcome run outcome = true
      · rw [if_pos hb] at hu
        exact .booked hfirst hb hu
      · rw [if_neg hb] at hu
        exact .skipped hfirst (Bool.eq_false_iff.mpr hb) hu

/-! ### Child reports and children -/

variable {db : Database}

lemma deliverReceipt_effect (hrun : db.runs.get run.agentRunId = some run)
    (hinv : db.investigations.get run.investigationId = some investigation) (now : Time)
    (receipt : ChildReportReceipt) :
    wp (deliverReceipt run.agentRunId now receipt) (fun _ db' => db'.toStore.books = db.toStore.books ∨
      ∃ refs run' n, appendEvidence run investigation refs = some (run', n) ∧
        db'.toStore.books = db.toStore.books.book run' { investigation with usage := { investigation.usage with
          evidenceCount := investigation.usage.evidenceCount + n } }) db := by
  have hkey : investigation.investigationId = run.investigationId := db.investigations.keyed _ _ hinv
  simp only [deliverReceipt, getEvidence]
  rw [wp_bind, wp_reloadPair, hrun]
  simp only [hinv, wp_bind, wp_get]
  cases db.evidence.get receipt.evidenceId with
  | none => exact .inl rfl
  | some evidence =>
    simp only [wp_pure]
    split
    · exact .inl rfl
    · rename_i attached happend
      obtain ⟨run', n⟩ := attached
      obtain ⟨new, -, hrun', -⟩ := appendEvidence_spec happend
      simp only [deliverChildReportReceipt, wp_bind, wp_get]
      cases db.receipts.get receipt.childRunId with
      | none => exact .inl rfl
      | some stored =>
        dsimp only
        split_ifs
        · exact .inl rfl
        · exact .inl rfl
        · have hfound : db.runs.get run'.agentRunId = some run := by
            rw [hrun']
            exact hrun
          have hstatus : run.status = run'.status := by rw [hrun']
          simp only [wp_transaction, wp_bind]
          rw [wp_updateAgentRun, hfound]
          simp only [hstatus, if_true]
          rw [wp_updateInvestigation]
          simp only [Database.withRun_investigations, hkey, hinv, if_true, wp_appendMessage, wp_modify]
          refine .inr ⟨_, run', n, happend, ?_⟩
          exact books_book db.toStore run' _

lemma spawnChildFromPackage_effect (parent : AgentRun) (package : DelegatedTaskPackage) (spawned : Spawned) :
    wp (spawnChildFromPackage parent package spawned) (fun _ db' => db' = db ∨
      ((∃ stored, db.runs.get package.parentRunId = some stored ∧ stored.investigationId = package.investigationId) ∧
        db.runs.get package.childRunId = none ∧
        db'.toStore = { db.toStore with runs := db.runs.put (buildChildRun package parent) })) db := by
  have hkind : (buildChildRun package parent).kind = .child := rfl
  have hparent : (buildChildRun package parent).parentRunId = some package.parentRunId := rfl
  have hid : (buildChildRun package parent).agentRunId = package.childRunId := rfl
  have hrest : ∀ {db' : Database} {Q : Database → Prop}, Q db' →
      wp (if spawned.1.contains package.childRunId then pure spawned
        else pure (spawned.1 ++ [package.childRunId], spawned.2 ++ [package]) : DatabaseM Spawned)
        (fun _ t => Q t) db' := by
    intro db' Q hQ
    split_ifs <;> exact hQ
  cases hchild : db.runs.get package.childRunId with
  | some child =>
    exact wp_mono (spawnChildFromPackage_existing hchild spawned) fun _ _ h => .inl h
  | none =>
    simp only [spawnChildFromPackage, createAgentRun, wp_bind, wp_tryCatch, wp_get, hkind, hparent,
      Option.bind_some, if_true]
    cases hstored : db.runs.get package.parentRunId with
    | none => exact .inl rfl
    | some stored =>
      dsimp only
      by_cases hinv : stored.investigationId = (buildChildRun package parent).investigationId
      · simp only [hinv, ne_eq, not_true_eq_false, if_false, hid, hchild, wp_modify]
        exact hrest (.inr ⟨⟨stored, rfl, hinv⟩, trivial, rfl⟩)
      · simp only [hinv, ne_eq, not_false_eq_true, if_true]
        exact .inl rfl

end

/-! ### Bookings -/

/-- `n` references are attached to a run and `calls` calls counted. -/
structure Account.Booked (a a' : Account) (n calls : ℕ) : Prop where
  owner : a'.investigationId = a.investigationId
  evidence : a'.evidence.length = a.evidence.length + n
  counted : a.evidenceCount = a.evidence.length → a'.evidenceCount = a'.evidence.length
  toolCalls : a'.toolCalls = a.toolCalls + calls
  maxEvidence : a'.maxEvidence = a.maxEvidence
  fits : n ≠ 0 → a.evidenceCount + n ≤ a.maxEvidence

structure InvestigationAccount.Booked (a a' : InvestigationAccount) (n calls : ℕ) : Prop where
  evidenceCount : a'.evidenceCount = a.evidenceCount + n
  toolCalls : a'.toolCalls = a.toolCalls + calls
  maxEvidence : a'.maxEvidence = a.maxEvidence

/-- One booking, of a run with account `a` and of its investigation with account `i`. -/
structure Books.Booked (b b' : Books) (me : String) (a : Account) (i : InvestigationAccount) (n calls : ℕ) :
    Prop where
  run : b.runs me = some a
  investigation : b.investigations a.investigationId = some i
  after : ∃ a' i', a.Booked a' n calls ∧ i.Booked i' n calls ∧ b'.runs = Function.update b.runs me (some a') ∧
    b'.investigations = Function.update b.investigations a.investigationId (some i')

section
variable {b b' : Books} {run run' : AgentRun} {investigation : Investigation} {n : ℕ}

lemma account_append {refs : List EvidenceReference}
    (happend : appendEvidence run investigation refs = some (run', n)) :
    run'.agentRunId = run.agentRunId ∧ run.account.Booked run'.account n 0 ∧
      (n ≠ 0 → investigation.usage.evidenceCount + n ≤ investigation.budget.maxEvidence) := by
  obtain ⟨new, hnew, rfl, hfits⟩ := appendEvidence_spec happend
  refine ⟨rfl, ⟨rfl, ?_, ?_, rfl, rfl, fun hn => (hfits hn).1⟩, fun hn => (hfits hn).2⟩
  · simp [AgentRun.account, hnew]
  · intro hcounted
    simp only [AgentRun.account, List.length_append, hnew] at hcounted ⊢
    split_ifs with hzero <;> omega

variable {outcome : ToolOutcome}

lemma account_land (hbooks : booksOutcome run outcome = true) :
    run.account.Booked (run.withOutcome outcome).account (newReferences run outcome).length 1 := by
  simp only [booksOutcome, Bool.and_eq_true, decide_eq_true_eq] at hbooks
  refine ⟨rfl, List.length_append, ?_, rfl, rfl, fun _ => hbooks.2⟩
  intro hcounted
  simp only [AgentRun.account, AgentRun.withOutcome, List.length_append] at hcounted ⊢
  omega

lemma Books.booked_book (hrun : b.runs run.agentRunId = some run.account)
    (hinv : b.investigations run.investigationId = some investigation.account)
    (hkey : investigation.investigationId = run.investigationId) {investigation' : Investigation} {calls : ℕ}
    (hid : run'.agentRunId = run.agentRunId) (hbooked : run.account.Booked run'.account n calls)
    (hid' : investigation'.investigationId = investigation.investigationId)
    (hbooked' : investigation.account.Booked investigation'.account n calls) :
    b.Booked (b.book run' investigation') run.agentRunId run.account investigation.account n calls := by
  refine ⟨hrun, hinv, run'.account, investigation'.account, hbooked, hbooked', ?_, ?_⟩
  · rw [← hid]
    rfl
  · change _ = Function.update b.investigations run.investigationId _
    rw [← hkey, ← hid']
    rfl

lemma Books.booked_append {refs : List EvidenceReference} (hrun : b.runs run.agentRunId = some run.account)
    (hinv : b.investigations run.investigationId = some investigation.account)
    (hkey : investigation.investigationId = run.investigationId)
    (happend : appendEvidence run investigation refs = some (run', n)) :
    b.Booked (b.book run' { investigation with usage := { investigation.usage with
      evidenceCount := investigation.usage.evidenceCount + n } }) run.agentRunId run.account investigation.account
      n 0 := by
  obtain ⟨hid, hbooked, -⟩ := account_append happend
  exact booked_book hrun hinv hkey hid hbooked rfl ⟨rfl, rfl, rfl⟩

lemma Books.booked_fold (hrun : b.runs run.agentRunId = some run.account)
    (hinv : b.investigations run.investigationId = some investigation.account)
    (hkey : investigation.investigationId = run.investigationId)
    (happend : appendEvidence run investigation outcome.evidence = some (run', n)) :
    b.Booked (b.book (countRun run' outcome) (countInvestigation investigation outcome n)) run.agentRunId
      run.account investigation.account n 1 := by
  obtain ⟨hid, hbooked, -⟩ := account_append happend
  have hcounted : run.account.Booked (countRun run' outcome).account n 1 :=
    ⟨hbooked.owner, hbooked.evidence, hbooked.counted, congrArg (· + 1) hbooked.toolCalls, hbooked.maxEvidence,
      hbooked.fits⟩
  exact booked_book hrun hinv hkey hid hcounted rfl ⟨rfl, rfl, rfl⟩

lemma Books.booked_land (hrun : b.runs run.agentRunId = some run.account)
    (hinv : b.investigations run.investigationId = some investigation.account)
    (hkey : investigation.investigationId = run.investigationId) (hbooks : booksOutcome run outcome = true) :
    b.Booked (b.book (run.withOutcome outcome) (investigation.withOutcome run outcome)) run.agentRunId
      run.account investigation.account (newReferences run outcome).length 1 :=
  booked_book hrun hinv hkey rfl (account_land hbooks) rfl ⟨rfl, rfl, rfl⟩

end
end IncidentLens.Investigations
