import IncidentLens.Investigations.Ledger

/-!
# The evidence budget

Runs count the references they keep, investigations those attached to any of their runs.
Neither count passes its budget, unless a child starts with references of its parent or an
approved call is booked.
-/
namespace IncidentLens.Investigations
open Data Effects Function

structure EvidenceBudget (s : Ledger) : Prop where
  runs : ∀ id run, s.db.runs.get id = some run →
    run.usage.evidenceCount = run.evidence.length ∧ run.usage.evidenceCount ≤ run.budget.maxEvidence
  investigations : ∀ id investigation, s.db.investigations.get id = some investigation →
    investigation.usage.evidenceCount = s.appended id ∧
      investigation.usage.evidenceCount ≤ investigation.budget.maxEvidence

def Account.Balanced (a : Account) : Prop := a.evidenceCount = a.evidence.length ∧ a.evidenceCount ≤ a.maxEvidence

structure Ledger.RunsBalanced (s : Ledger) : Prop where
  runs : ∀ id a, s.books.runs id = some a → a.Balanced
  copies : ∀ r ∈ s.held, r.account.Balanced

structure Ledger.InvestigationsBalanced (s : Ledger) : Prop where
  investigations : ∀ id i, s.books.investigations id = some i →
    i.evidenceCount = s.appended id ∧ i.evidenceCount ≤ i.maxEvidence
  unopened : ∀ id, s.books.investigations id = none → s.appended id = 0

section
variable {s t : Ledger} {move : LedgerMove}

lemma EvidenceBudget.of_balanced (hruns : s.RunsBalanced) (hinvs : s.InvestigationsBalanced) : EvidenceBudget s := by
  constructor
  · intro id run hrun
    refine hruns.runs id run.account ?_
    simp [Ledger.books, Store.books, hrun]
  · intro id investigation hinv
    refine hinvs.investigations id investigation.account ?_
    simp [Ledger.books, Store.books, hinv]

lemma Account.Booked.balanced {a a' : Account} {n calls : ℕ} (h : a.Booked a' n calls) (ha : a.Balanced) :
    a'.Balanced := by
  obtain ⟨hcount, hmax⟩ := ha
  have hcounted := h.counted hcount
  have hlength := h.evidence
  have hlimit := h.maxEvidence
  refine ⟨hcounted, ?_⟩
  by_cases hn : n = 0
  · omega
  · have hfits := h.fits hn
    omega

lemma InvestigationAccount.Booked.balanced {i i' : InvestigationAccount} {n calls count : ℕ} (h : i.Booked i' n calls)
    (hfits : n ≠ 0 → i.evidenceCount + n ≤ i.maxEvidence)
    (hi : i.evidenceCount = count ∧ i.evidenceCount ≤ i.maxEvidence) :
    i'.evidenceCount = count + n ∧ i'.evidenceCount ≤ i'.maxEvidence := by
  have hcount := h.evidenceCount
  have hmax := h.maxEvidence
  by_cases hn : n = 0
  · omega
  · have := hfits hn
    omega

lemma Ledger.RunsBalanced.same (hs : s.RunsBalanced) (hruns : t.books.runs = s.books.runs) (hheld : t.held = s.held) :
    t.RunsBalanced := by
  constructor
  · rw [hruns]
    exact hs.runs
  · rw [hheld]
    exact hs.copies

lemma Ledger.RunsBalanced.put (hs : s.RunsBalanced) {me : String} {a : Account} (ha : a.Balanced)
    (hruns : t.books.runs = update s.books.runs me (some a)) (hheld : t.held = s.held) : t.RunsBalanced := by
  constructor
  · intro id b hb
    rw [hruns, update_apply] at hb
    split_ifs at hb with hid
    · cases hb
      exact ha
    · exact hs.runs id b hb
  · rw [hheld]
    exact hs.copies

lemma Ledger.RunsBalanced.step (hs : s.RunsBalanced) (hsound : s.Sound) (hmove : s.Budgeted move)
    (hstep : s.step move = some t) : t.RunsBalanced := by
  cases step_effect hsound hstep with
  | idle books held => exact hs.same (congrArg Books.runs books) held
  | copied books stored held =>
    refine ⟨books ▸ hs.runs, fun r hr => ?_⟩
    rw [held] at hr
    rcases List.mem_append.mp hr with hr | hr
    · exact hs.copies r hr
    · cases List.mem_singleton.mp hr
      exact hs.runs _ _ stored
  | investigated new books held => exact hs.same ((congrArg Books.runs books).trans rfl) held
  | @started id a new owner unused seeds books held =>
    have ha : a.Balanced := by
      rw [Account.Balanced, unused.1, seeds hmove]
      exact ⟨rfl, Nat.zero_le _⟩
    exact hs.put ha (congrArg Books.runs books) held
  | rewritten copy stored current books held => exact hs.put (hs.copies _ copy) (congrArg Books.runs books) held
  | executed uncounted books held => exact hs.same ((congrArg Books.runs books).trans rfl) held
  | booked booked fits tolls held =>
    obtain ⟨hrun, -, a', i', ha', -, hruns, -⟩ := booked
    exact hs.put (ha'.balanced (hs.runs _ _ hrun)) hruns held

lemma Ledger.InvestigationsBalanced.same (hs : s.InvestigationsBalanced)
    (hinvs : t.books.investigations = s.books.investigations) (happended : t.appended = s.appended) :
    t.InvestigationsBalanced := by
  constructor
  · rw [hinvs, happended]
    exact hs.investigations
  · rw [hinvs, happended]
    exact hs.unopened

lemma Ledger.InvestigationsBalanced.put (hs : s.InvestigationsBalanced) {owner : String} {i : InvestigationAccount}
    {n : ℕ} (hi : i.evidenceCount = s.appended owner + n ∧ i.evidenceCount ≤ i.maxEvidence)
    (hinvs : t.books.investigations = update s.books.investigations owner (some i))
    (happended : t.appended = update s.appended owner (s.appended owner + n)) : t.InvestigationsBalanced := by
  constructor
  · intro id j hj
    rw [hinvs, update_apply] at hj
    rw [happended, update_apply]
    split_ifs at hj with hid
    · cases hj
      rw [if_pos hid]
      exact hi
    · rw [if_neg hid]
      exact hs.investigations id j hj
  · intro id hid
    rw [hinvs, update_apply] at hid
    rw [happended, update_apply]
    split_ifs at hid with hown
    rw [if_neg hown]
    exact hs.unopened id hid

lemma Ledger.InvestigationsBalanced.step (hs : s.InvestigationsBalanced) (hsound : s.Sound) (hmove : s.Budgeted move)
    (hstep : s.step move = some t) : t.InvestigationsBalanced := by
  cases step_effect hsound hstep with
  | idle books held appended => exact hs.same (congrArg Books.investigations books) appended
  | copied books stored held appended => exact hs.same (congrArg Books.investigations books) appended
  | @investigated id maxEvidence new books held appended =>
    refine hs.put (n := 0) ⟨?_, Nat.zero_le _⟩ (congrArg Books.investigations books)
      (appended.trans (update_eq_self id s.appended).symm)
    rw [hs.unopened id new]
  | started new owner unused seeds books held appended =>
    rw [seeds hmove] at appended
    exact hs.same ((congrArg Books.investigations books).trans rfl)
      (appended.trans (update_eq_self _ s.appended))
  | rewritten copy stored current books held appended =>
    exact hs.same ((congrArg Books.investigations books).trans rfl) appended
  | executed uncounted books held appended =>
    exact hs.same ((congrArg Books.investigations books).trans rfl) appended
  | booked booked fits tolls held appended =>
    obtain ⟨-, hinv, a', i', -, hi', -, hinvs⟩ := booked
    exact hs.put (hi'.balanced (fits hmove) (hs.investigations _ _ hinv)) hinvs appended

end

/-- Where no child starts with references and every approved call fits, the counts are right
and within the budgets in every state. -/
theorem evidence_budget (s : Ledger) (hs : ledger.Reached Ledger.Budgeted s) : EvidenceBudget s := by
  have hall : s.RunsBalanced ∧ s.InvestigationsBalanced := by
    induction hs with
    | start => exact ⟨⟨by rintro id a ⟨⟩, by rintro r ⟨⟩⟩, ⟨by rintro id i ⟨⟩, fun _ _ => rfl⟩⟩
    | next move hreached hmove hstep ih =>
      have hsound := ledger_sound hreached
      exact ⟨ih.1.step hsound hmove hstep, ih.2.step hsound hmove hstep⟩
  exact .of_balanced hall.1 hall.2

def namedReference (evidenceId : String) : EvidenceReference := ⟨evidenceId, "op-1", "log lines"⟩

/-- A run whose first call has brought one reference. -/
def firstReference (maxEvidence : ℕ) : List LedgerMove :=
  [.createInvestigation ⟨"inv-1", .running, { maxEvidence }, {}, none, none⟩,
    .createParent "inv-1" "run-1" {},
    .createCall { toolCallId := "call-1", agentRunId := "run-1", toolName := "search_logs", status := .planned },
    .moveCall "call-1" .running none,
    .fold "run-1" ⟨"call-1", "search_logs"⟩
      { toolCallId := "call-1", status := .succeeded, evidence := [namedReference "ev-1"] } 0]

/-- The run delegates to a child and passes the reference on. -/
def seededChild : List LedgerMove := [.hold "run-1", .spawn 0 ⟨"child-1", "run-1", "inv-1", "look again", ["ev-1"], {}⟩]

def approvedCall : List LedgerMove :=
  [.createCall { toolCallId := "call-2", agentRunId := "run-1", toolName := "read_file", status := .planned },
    .moveCall "call-2" .running none,
    .land "call-2" { toolCallId := "call-2", status := .succeeded, evidence := [namedReference "ev-2"] }]

/-- A child holds a reference that nothing counts, and an approved call passes the limit of its investigation. -/
theorem uncounted_reference :
    (∃ s, ledger.runFrom ledger.init (firstReference 300 ++ seededChild) = some s ∧
      (s.db.runs.get "child-1").map (fun run => (run.evidence.length, run.usage.evidenceCount)) = some (1, 0) ∧
      s.appended "inv-1" = 2 ∧
      (s.db.investigations.get "inv-1").map (·.usage.evidenceCount) = some 1 ∧ ¬ EvidenceBudget s) ∧
    ∃ s, ledger.runFrom ledger.init (firstReference 1 ++ approvedCall) = some s ∧
      (s.db.investigations.get "inv-1").map (fun i => (i.usage.evidenceCount, i.budget.maxEvidence)) = some (2, 1) ∧
      ¬ EvidenceBudget s := by
  constructor
  · refine ⟨_, rfl, rfl, rfl, rfl, fun h => ?_⟩
    have hchild := (h.runs "child-1" _ rfl).1
    exact absurd hchild (by decide)
  · refine ⟨_, rfl, rfl, fun h => ?_⟩
    have hinv := (h.investigations "inv-1" _ rfl).2
    exact absurd hinv (by decide)

theorem first_reference_counted : ∃ s, ledger.runFrom ledger.init (firstReference 300) = some s ∧
    (s.db.investigations.get "inv-1").map (·.usage.evidenceCount) = some 1 ∧ EvidenceBudget s := by
  refine ⟨_, rfl, rfl, evidence_budget _ ?_⟩
  refine System.Reached.runFrom .start (firstReference 300) ?_ rfl
  intro s move hmove
  simp only [firstReference, List.mem_cons, List.not_mem_nil, or_false] at hmove
  rcases hmove with rfl | rfl | rfl | rfl | rfl <;> exact trivial

end IncidentLens.Investigations
