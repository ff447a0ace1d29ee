import IncidentLens.Investigations.Ledger
import Mathlib.Data.Finset.Card
import Mathlib.Data.Finset.Insert

/-!
# Counting tool calls

A call that was executed is counted in its run and in the investigation of the run, unless
its outcome is refused by a budget, an approved call brings nothing new, a call is ended
without an outcome, or an outdated copy of the run takes a count away.
-/
namespace IncidentLens.Investigations
open Data Effects Function Option

/-! ### Tallies -/

section
variable {α β : Type*} [DecidableEq β]

def tally (label : α → Option β) (keys : Finset α) (b : β) : ℕ := (keys.filter fun k => label k = some b).card

variable {label label' : α → Option β} {keys : Finset α} {b : β}

lemma tally_congr (h : ∀ k ∈ keys, label' k = label k) : tally label' keys b = tally label keys b := by
  unfold tally
  congr 1
  ext k
  simp only [Finset.mem_filter]
  refine and_congr_right fun hk => ?_
  rw [h k hk]

lemma tally_eq_zero (h : ∀ k ∈ keys, label k ≠ some b) : tally label keys b = 0 := by
  rw [tally, Finset.card_eq_zero, Finset.filter_eq_empty_iff]
  exact h

lemma tally_insert [DecidableEq α] {k : α} {b₀ : β} (hk : k ∉ keys) :
    tally (update label k (some b₀)) (insert k keys) b = tally label keys b + if b₀ = b then 1 else 0 := by
  have hrest : tally (update label k (some b₀)) keys b = tally label keys b := by
    refine tally_congr fun j hj => update_of_ne ?_ _ _
    rintro rfl
    exact hk hj
  rw [← hrest]
  unfold tally
  rw [Finset.filter_insert]
  simp only [update_self, some.injEq]
  split_ifs with hb
  · refine Finset.card_insert_of_notMem fun hmem => hk ?_
    exact (Finset.mem_filter.mp hmem).1
  · rfl

end

/-! ### Counts of executed calls -/

def Books.owner (b : Books) (agentRunId : String) : Option String := (b.runs agentRunId).map (·.investigationId)

/-- The investigation a call was executed for. -/
def Books.callOwner (b : Books) (toolCallId : String) : Option String := (b.calls toolCallId).bind b.owner

/-- Runs and investigations count the executed calls. -/
structure ToolUsage (db : Database) (executed : Finset String) : Prop where
  mem : ∀ id, id ∈ executed ↔ ∃ toolCall, db.toolCalls.get id = some toolCall ∧ toolCall.status.executed = true
  runs : ∀ id run, db.runs.get id = some run → run.usage.toolCalls = tally db.toStore.books.calls executed id
  investigations : ∀ id investigation, db.investigations.get id = some investigation →
    investigation.usage.toolCalls = tally db.toStore.books.callOwner executed id

structure Books.Tallied (b : Books) (executed : Finset String) : Prop where
  mem : ∀ id, id ∈ executed ↔ b.calls id ≠ none
  runs : ∀ id a, b.runs id = some a → a.toolCalls = tally b.calls executed id
  investigations : ∀ id i, b.investigations id = some i → i.toolCalls = tally b.callOwner executed id
  known : ∀ id me, b.calls id = some me → b.runs me ≠ none

section
variable {b b' : Books} {executed : Finset String}

lemma ToolUsage.of_tallied {db : Database} (h : db.toStore.books.Tallied executed) : ToolUsage db executed := by
  refine ⟨fun id => ?_, fun id run hrun => ?_, fun id investigation hinv => ?_⟩
  · rw [h.mem]
    cases hcall : db.toolCalls.get id with
    | none => simp [Store.books, hcall]
    | some toolCall => simp [Store.books, hcall, ToolCall.executedBy]
  · refine h.runs id run.account ?_
    simp only [Store.books, hrun, map_some]
  · refine h.investigations id investigation.account ?_
    simp only [Store.books, hinv, map_some]

lemma Books.Tallied.investigated (h : b.Tallied executed) {id : String} (hnew : b.investigations id = none)
    (howners : ∀ id a, b.runs id = some a → b.investigations a.investigationId ≠ none) (maxEvidence : ℕ) :
    Books.Tallied { b with investigations := update b.investigations id (some ⟨0, 0, maxEvidence⟩) }
      executed := by
  refine ⟨h.mem, h.runs, fun id' i hi => ?_, h.known⟩
  simp only [update_apply] at hi
  split_ifs at hi with hid
  · cases hi
    refine (tally_eq_zero fun c _ hc => ?_).symm
    obtain ⟨me, -, hme⟩ := bind_eq_some_iff.mp hc
    obtain ⟨a, ha, hown⟩ := map_eq_some_iff.mp hme
    have hstored := howners me a ha
    rw [hown, hid] at hstored
    exact hstored hnew
  · exact h.investigations id' i hi

variable {a : Account} {me : String} {i : InvestigationAccount}

lemma Books.Tallied.started (h : b.Tallied executed) {id : String} (hnew : b.runs id = none)
    (hunused : a.toolCalls = 0) :
    Books.Tallied { b with runs := update b.runs id (some a) } executed := by
  have hother : ∀ c me, b.calls c = some me → me ≠ id := by
    rintro c me hc rfl
    exact h.known c me hc hnew
  refine ⟨h.mem, fun id' a' ha' => ?_, fun id' i hi => ?_, fun c me hc => ?_⟩
  · simp only [update_apply] at ha'
    split_ifs at ha' with hid
    · cases ha'
      rw [hunused]
      refine (tally_eq_zero fun c _ hc => ?_).symm
      exact hother c id' hc hid
    · exact h.runs id' a' ha'
  · refine (h.investigations id' i hi).trans (tally_congr fun c _ => ?_).symm
    simp only [Books.callOwner]
    cases hc : b.calls c with
    | none => rfl
    | some me =>
      simp only [bind_some, Books.owner, update_of_ne (hother c me hc)]
  · simp only [update_apply]
    split_ifs
    · exact some_ne_none _
    · exact h.known c me hc

lemma Books.owner_put {a a' : Account} (hrun : b.runs me = some a)
    (hown : a'.investigationId = a.investigationId) (hruns : b'.runs = update b.runs me (some a')) :
    b'.owner = b.owner := by
  funext id
  simp only [Books.owner, hruns, update_apply]
  split_ifs with hid
  · rw [hid, hrun, map_some, map_some, hown]
  · rfl

lemma Books.Tallied.rewritten (h : b.Tallied executed) {a a' : Account} (hrun : b.runs me = some a)
    (hown : a'.investigationId = a.investigationId) (hcalls : a.toolCalls = a'.toolCalls) :
    Books.Tallied { b with runs := update b.runs me (some a') } executed := by
  have howner : Books.owner { b with runs := update b.runs me (some a') } = b.owner := Books.owner_put hrun hown rfl
  have hcallOwner : Books.callOwner { b with runs := update b.runs me (some a') } = b.callOwner := by
    funext c
    rw [Books.callOwner, howner, Books.callOwner]
  refine ⟨h.mem, fun id c hc => ?_, fun id i hi => ?_, fun c me' hc => ?_⟩
  · simp only [update_apply] at hc
    split_ifs at hc with hid
    · cases hc
      rw [hid, ← hcalls]
      exact h.runs me a hrun
    · exact h.runs id c hc
  · rw [hcallOwner]
    exact h.investigations id i hi
  · simp only [update_apply]
    split_ifs
    · exact some_ne_none _
    · exact h.known c me' hc

lemma Books.Tallied.booked {executed' : Finset String}
    {n calls : ℕ} (h : b.Tallied executed) (hbooked : b.Booked b' me a i n calls)
    (hmem : ∀ id, id ∈ executed' ↔ b'.calls id ≠ none)
    (hruns : ∀ id, tally b'.calls executed' id = tally b.calls executed id + if me = id then calls else 0)
    (hinvs : ∀ id, tally b'.callOwner executed' id =
      tally b.callOwner executed id + if a.investigationId = id then calls else 0)
    (hknown : ∀ c r, b'.calls c = some r → b.runs r ≠ none) : b'.Tallied executed' := by
  obtain ⟨hrun, hinv, a', i', ha', hi', hupdate, hupdate'⟩ := hbooked
  refine ⟨hmem, fun id c hc => ?_, fun id j hj => ?_, fun c r hc => ?_⟩
  · rw [hupdate, update_apply] at hc
    rw [hruns]
    split_ifs at hc with hid
    · cases hc
      rw [if_pos hid.symm, hid, ← h.runs me a hrun]
      exact ha'.toolCalls
    · rw [if_neg (Ne.symm hid)]
      exact h.runs id c hc
  · rw [hupdate', update_apply] at hj
    rw [hinvs]
    split_ifs at hj with hid
    · cases hj
      rw [if_pos hid.symm, hid, ← h.investigations _ i hinv]
      exact hi'.toolCalls
    · rw [if_neg (Ne.symm hid)]
      exact h.investigations id j hj
  · rw [hupdate, update_apply]
    split_ifs
    · exact some_ne_none _
    · exact hknown c r hc

lemma Books.Tallied.attached {n : ℕ} (h : b.Tallied executed)
    (hbooked : b.Booked b' me a i n 0) (hcalls : b'.calls = b.calls) : b'.Tallied executed := by
  obtain ⟨a', i', ha', -, hupdate, -⟩ := hbooked.after
  have howner : b'.callOwner = b.callOwner := by
    funext c
    simp only [Books.callOwner, hcalls, Books.owner_put hbooked.run ha'.owner hupdate]
  refine h.booked hbooked ?_ ?_ ?_ ?_
  · rw [hcalls]
    exact h.mem
  · intro id
    rw [hcalls, ite_self, Nat.add_zero]
  · intro id
    rw [howner, ite_self, Nat.add_zero]
  · rw [hcalls]
    exact h.known

lemma Books.Tallied.counted {id me : String} {n : ℕ} (h : b.Tallied executed)
    (hbooked : b.Booked b' me a i n 1) (hfirst : b.calls id = none)
    (hcalls : b'.calls = update b.calls id (some me)) : b'.Tallied (insert id executed) := by
  obtain ⟨a', i', ha', -, hupdate, -⟩ := hbooked.after
  have hnew : id ∉ executed := fun hmem => (h.mem id).mp hmem hfirst
  have howner : b'.callOwner = update b.callOwner id (some a.investigationId) := by
    funext c
    simp only [Books.callOwner, hcalls, Books.owner_put hbooked.run ha'.owner hupdate, update_apply]
    split_ifs with hc
    · simp only [bind_some, Books.owner, hbooked.run, map_some]
    · rfl
  refine h.booked hbooked ?_ ?_ ?_ ?_
  · intro c
    rw [Finset.mem_insert, hcalls, update_apply, h.mem]
    split_ifs with hc
    · simp [hc]
    · simp [hc]
  · intro x
    rw [hcalls, tally_insert hnew]
  · intro x
    rw [howner, tally_insert hnew]
  · intro c r hc
    rw [hcalls, update_apply] at hc
    split_ifs at hc with hid
    · cases hc
      rw [hbooked.run]
      exact some_ne_none _
    · exact h.known c r hc

end

lemma Ledger.tallied_step {s t : Ledger} {move : LedgerMove} {executed : Finset String}
    (h : s.books.Tallied executed) (hsound : s.Sound) (hmove : s.Counted move) (hstep : s.step move = some t) :
    ∃ executed, t.books.Tallied executed := by
  cases step_effect hsound hstep with
  | idle books =>
    rw [books]
    exact ⟨executed, h⟩
  | copied books =>
    rw [books]
    exact ⟨executed, h⟩
  | @investigated id maxEvidence new books =>
    rw [books]
    exact ⟨executed, h.investigated new hsound.owners maxEvidence⟩
  | started new owner unused seeds books =>
    rw [books]
    exact ⟨executed, h.started new unused.2⟩
  | @rewritten r a copy stored current books =>
    obtain ⟨a', ha', hown, -⟩ := hsound.copies r copy
    obtain rfl := some.inj (ha'.symm.trans stored)
    rw [books]
    exact ⟨executed, h.rewritten stored hown.symm (current hmove)⟩
  | executed uncounted => exact absurd hmove uncounted
  | booked booked fits tolls =>
    rcases tolls with ⟨rfl, hcalls⟩ | ⟨id, rfl, hfirst, hcalls⟩
    · exact ⟨executed, h.attached booked hcalls⟩
    · exact ⟨insert id executed, h.counted booked hfirst hcalls⟩

/-- Where every outcome is counted as it lands and no copy of a run is outdated, each executed
call is counted once in its run and once in its investigation. -/
theorem tool_usage (s : Ledger) (hs : ledger.Reached Ledger.Counted s) : ∃ executed, ToolUsage s.db executed := by
  have hall : ∃ executed, s.books.Tallied executed := by
    induction hs with
    | start =>
      refine ⟨∅, fun id => ?_, ?_, ?_, ?_⟩
      · exact ⟨fun h => absurd h (Finset.notMem_empty id), fun h => absurd rfl h⟩
      · rintro id a ⟨⟩
      · rintro id i ⟨⟩
      · rintro id me ⟨⟩
    | next move hreached hmove hstep ih =>
      obtain ⟨executed, h⟩ := ih
      exact Ledger.tallied_step h (ledger_sound hreached) hmove hstep
  obtain ⟨executed, h⟩ := hall
  exact ⟨executed, .of_tallied h⟩

lemma ToolUsage.counted {db : Database} {executed : Finset String} {run : AgentRun} {toolCall : ToolCall}
    (h : ToolUsage db executed) (id : String) (hcall : db.toolCalls.get id = some toolCall)
    (hexecuted : toolCall.status.executed = true) (hrun : db.runs.get toolCall.agentRunId = some run) :
    run.usage.toolCalls ≠ 0 := by
  intro hzero
  have hlabel : db.toStore.books.calls id = some toolCall.agentRunId := by
    simp [Store.books, hcall, bind_some, ToolCall.executedBy, hexecuted]
  have hmem : id ∈ executed := (h.mem id).mpr ⟨toolCall, hcall, hexecuted⟩
  have htally := (h.runs _ run hrun).symm.trans hzero
  rw [tally, Finset.card_eq_zero, Finset.filter_eq_empty_iff] at htally
  exact htally hmem hlabel

def runningCall (budget : AgentBudget) : List LedgerMove :=
  [.createInvestigation ⟨"inv-1", .running, {}, {}, none, none⟩,
    .createParent "inv-1" "run-1" budget,
    .createCall { toolCallId := "call-1", agentRunId := "run-1", toolName := "registry_info", status := .planned },
    .moveCall "call-1" .running none]

def registryOutcome : ToolOutcome := { toolCallId := "call-1", status := .succeeded, outputBytes := 2 }

/-- An outcome over the output budget is not counted, nor is an approved call without new references. -/
theorem executed_uncounted :
    (∃ s, ledger.runFrom ledger.init (runningCall { maxTotalOutputBytes := 1 } ++
        [.fold "run-1" ⟨"call-1", "registry_info"⟩ registryOutcome 0]) = some s ∧
      (s.db.toolCalls.get "call-1").map (·.status) = some .succeeded ∧
      (s.db.runs.get "run-1").map (·.usage.toolCalls) = some 0 ∧ ¬ ∃ executed, ToolUsage s.db executed) ∧
    ∃ s, ledger.runFrom ledger.init (runningCall {} ++ [.land "call-1" registryOutcome]) = some s ∧
      (s.db.toolCalls.get "call-1").map (·.status) = some .succeeded ∧
      (s.db.runs.get "run-1").map (·.usage.toolCalls) = some 0 ∧ ¬ ∃ executed, ToolUsage s.db executed := by
  constructor
  · refine ⟨_, rfl, rfl, rfl, ?_⟩
    rintro ⟨executed, h⟩
    exact h.counted "call-1" rfl rfl rfl rfl
  · refine ⟨_, rfl, rfl, rfl, ?_⟩
    rintro ⟨executed, h⟩
    exact h.counted "call-1" rfl rfl rfl rfl

theorem registry_call_counted : ∃ s, ledger.runFrom ledger.init (runningCall {} ++
      [.fold "run-1" ⟨"call-1", "registry_info"⟩ registryOutcome 0]) = some s ∧
    (s.db.runs.get "run-1").map (·.usage.toolCalls) = some 1 ∧ ∃ executed, ToolUsage s.db executed := by
  have hrunning : ∀ s, ledger.runFrom ledger.init (runningCall {}) = some s → ledger.Reached Ledger.Counted s := by
    intro s hrun
    refine System.Reached.runFrom .start (runningCall {}) ?_ hrun
    intro s move hmove
    simp only [runningCall, List.mem_cons, List.not_mem_nil, or_false] at hmove
    rcases hmove with rfl | rfl | rfl | rfl
    · exact trivial
    · exact trivial
    · exact trivial
    · rfl
  refine ⟨_, rfl, rfl, tool_usage _ (.next (.fold "run-1" ⟨"call-1", "registry_info"⟩ registryOutcome 0)
    (hrunning _ rfl) ?_ rfl)⟩
  rintro - rows ⟨⟩
  rfl

end IncidentLens.Investigations
