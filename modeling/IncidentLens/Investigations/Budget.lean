import IncidentLens.Effects.Runs
import IncidentLens.Investigations.Batch
import Mathlib

/-!
# The investigation's tool-call budget

Parent and child runs work on investigations with batches that interleave: a batch passes
its gate in one step, its calls execute while other runs go on, and its outcomes are folded
in one later step.
-/
namespace IncidentLens.Investigations
open Data Effects StateError Store List Option

/-- `investigation.budget.max_tool_calls`. -/
def Store.cap (s : Store) (id : String) : ℕ := ((s.investigations.get id).map (·.budget.maxToolCalls)).getD 0

/-- `investigation.usage.tool_calls`. -/
def Store.used (s : Store) (id : String) : ℕ := ((s.investigations.get id).map (·.usage.toolCalls)).getD 0

/-- The investigation a run works on, with the run's own limit. -/
def Store.grant (s : Store) (run : String) : Option (String × ℕ) :=
  (s.runs.get run).map fun r => (r.investigationId, r.budget.maxToolCalls)

/-- From `s` to `t` at most `n` calls were counted, all of them for investigation `id`. -/
structure Charged (id : String) (n : ℕ) (s t : Store) : Prop where
  cap : ∀ j, t.cap j = s.cap j
  used : ∀ j, t.used j ≤ s.used j + if j = id then n else 0
  grant : ∀ j, t.grant j = s.grant j

namespace Charged
variable {id : String} {s t u : Store} {m n : ℕ}

lemma rfl' : Charged id n s s := ⟨fun _ => rfl, fun _ => Nat.le_add_right _ _, fun _ => rfl⟩

lemma trans (h : Charged id m s t) (h' : Charged id n t u) : Charged id (m + n) s u where
  cap j := (h'.cap j).trans (h.cap j)
  used j := by
    have h1 := h.used j
    have h2 := h'.used j
    split_ifs at h1 h2 ⊢ <;> omega
  grant j := (h'.grant j).trans (h.grant j)

lemma mono (hmn : m ≤ n) (h : Charged id m s t) : Charged id n s t where
  cap := h.cap
  used j := by
    have h1 := h.used j
    split_ifs at h1 ⊢ <;> omega
  grant := h.grant

lemma of_zero {id' : String} (h : Charged id' 0 s t) : Charged id n s t where
  cap := h.cap
  used j := by
    have h1 := h.used j
    split_ifs at h1 ⊢ <;> omega
  grant := h.grant

lemma of_toolCalls (hr : t.runs = s.runs) (hi : t.investigations = s.investigations) : Charged id n s t where
  cap j := by rw [Store.cap, Store.cap, hi]
  used j := by
    rw [Store.used, Store.used, hi]
    exact Nat.le_add_right _ _
  grant j := by rw [Store.grant, Store.grant, hr]

lemma putAgentRun {r r₀ : AgentRun} (h : s.runs.get r.agentRunId = some r₀)
    (hi : r.investigationId = r₀.investigationId)
    (hb : r.budget.maxToolCalls = r₀.budget.maxToolCalls) :
    Charged id n s { s with runs := s.runs.put r } where
  cap _ := rfl
  used _ := Nat.le_add_right _ _
  grant j := by
    rw [Store.grant, Store.grant, Table.get_put]
    split_ifs with hj
    · rw [hj, h, map_some, map_some, hi, hb]
    · rfl

lemma putInvestigation {i i₀ : Investigation} (h : s.investigations.get i.investigationId = some i₀)
    (hcap : i.budget.maxToolCalls = i₀.budget.maxToolCalls)
    (hused : i.usage.toolCalls ≤ i₀.usage.toolCalls + n) :
    Charged i.investigationId n s { s with investigations := s.investigations.put i } where
  cap j := by
    rw [Store.cap, Store.cap, Table.get_put]
    split_ifs with hj
    · rw [hj, h, map_some, map_some, hcap]
    · rfl
  used j := by
    rw [Store.used, Store.used, Table.get_put]
    split_ifs with hj
    · rw [hj, h]
      exact hused
    · exact Nat.le_refl _
  grant _ := rfl

end Charged

/-! ### What the store operations count -/

section Operations
variable (id : String) (n : ℕ)

lemma transitionAgentRunStatus_charged (run : String) (target : AgentRunStatus) (now : Time)
    (stopReason : Option StopReason) : Along (Charged id n) (transitionAgentRunStatus run target now stopReason) := by
  intro s
  simp only [transitionAgentRunStatus, getAgentRun, wp_bind, wp_get]
  cases h : s.runs.get run with
  | none => exact .rfl'
  | some current =>
    by_cases hc : agentRunStateMachine.canTransition current.status target = true
    · simp only [wp_pure, hc, if_true]
      have hcurrent : s.runs.get current.agentRunId = some current := s.runs.get_key h
      exact Charged.putAgentRun hcurrent rfl rfl
    · simp [wp_pure, hc, wp_throw, Charged.rfl']

lemma transitionInvestigationStatus_charged (i : String) (target : InvestigationStatus)
    (now : Time) (stopReason : Option StopReason) :
    Along (Charged id n) (transitionInvestigationStatus i target now stopReason) := by
  intro s
  simp only [transitionInvestigationStatus, getInvestigation, wp_bind, wp_get]
  cases h : s.investigations.get i with
  | none => exact .rfl'
  | some current =>
    by_cases hc : investigationStateMachine.canTransition current.status target = true
    · simp only [wp_pure, hc, if_true]
      have hcurrent : s.investigations.get current.investigationId = some current := s.investigations.get_key h
      exact Charged.of_zero (Charged.putInvestigation hcurrent rfl (Nat.le_refl _))
    · simp [wp_pure, hc, wp_throw, Charged.rfl']

lemma transitionToolCallStatus_frame (c : String) (target : ToolCallStatus) (record : ToolCall → ToolCall) :
    Along (fun s t => t.runs = s.runs ∧ t.investigations = s.investigations)
      (transitionToolCallStatus c target record) := by
  intro s
  simp only [transitionToolCallStatus, getToolCall, wp_bind, wp_get]
  cases s.toolCalls.get c with
  | none => exact ⟨rfl, rfl⟩
  | some current =>
    by_cases hc : toolCallStateMachine.canTransition current.status target = true
    · simp only [wp_pure, hc, if_true]
      exact ⟨rfl, rfl⟩
    · simp only [wp_pure, hc]
      exact ⟨rfl, rfl⟩

lemma charged_trans (s t u : Store) (h : Charged id 0 s t) (h' : Charged id 0 t u) : Charged id 0 s u := h.trans h'

lemma pause_charged (run : AgentRun) (investigation : Investigation) (runStatus : AgentRunStatus)
    (stopReason : StopReason) (now : Time) :
    Along (Charged id 0) (pause run investigation runStatus stopReason now) := by
  refine Along.bind (charged_trans id) (transitionAgentRunStatus_charged _ _ _ _ _ _) fun _ => ?_
  split_ifs
  · exact transitionInvestigationStatus_charged _ _ _ _ _ _
  · exact fun s => .rfl'

lemma pauseRound_charged (run : AgentRun) (investigation : Investigation)
    (runStatus : AgentRunStatus) (stopReason : StopReason) (now : Time) :
    Along (Charged id 0) (pauseRound run investigation runStatus stopReason now) := by
  unfold pauseRound
  split_ifs
  · exact pause_charged id _ _ _ _ _
  · exact fun s => .rfl'

lemma loadOrCreateToolCall_charged (run : AgentRun) (request : ToolRequest) :
    Along (Charged id 0) (loadOrCreateToolCall run request) := by
  intro s
  simp only [loadOrCreateToolCall, createToolCall, wp_bind, wp_get]
  cases h : s.toolCalls.get request.toolCallId with
  | none =>
    simp only [wp_bind, wp_get, h]
    exact .of_toolCalls rfl rfl
  | some toolCall => exact .rfl'

/-! ### The gate and the fold -/

/-- How many calls the two limits of a run leave room for once `reserved` are taken. -/
def Store.room (s : Store) (run : String) (reserved : ℕ) : ℕ :=
  match s.grant run with
  | some (inv, limit) => min limit (s.cap inv) - reserved
  | none => 0

lemma Charged.room {id : String} {n : ℕ} {s t : Store} (h : Charged id n s t) (run : String) (reserved : ℕ) :
    t.room run reserved = s.room run reserved := by
  unfold Store.room
  rw [h.grant]
  split
  · rw [h.cap]
  · rfl

lemma refuse_spec (run : AgentRun) (investigation : Investigation) (reason : String) (now : Time) (s : Store) :
    wp (refuse run investigation reason now) (fun r t => Charged id 0 s t ∧ ∀ g, r = .ok g → g = .stopped) s := by
  simp only [refuse, wp_bind]
  refine wp_mono (pause_charged id _ _ _ _ _ s) fun r t h => ?_
  cases r with
  | ok _ => exact ⟨h, by rintro g ⟨⟩; rfl⟩
  | error _ => exact ⟨h, by rintro g ⟨⟩⟩

lemma admit_charged (run : AgentRun) (request : ToolRequest) : Along (Charged id 0) (admitRequest run request) := by
  refine Along.bind (charged_trans id) (loadOrCreateToolCall_charged id _ _) fun toolCall => ?_
  split_ifs
  · exact fun s => .rfl'
  · refine Along.bind (charged_trans id) (fun s => ?_) fun _ s => .rfl'
    exact wp_mono (transitionToolCallStatus_frame _ _ _ s) fun _ _ h => .of_toolCalls h.1 h.2
  · exact fun s => .rfl'

lemma gateRequest_spec (run : String) (reserved : ℕ) (request : ToolRequest) (now : Time) (s : Store) :
    wp (gateRequest run reserved request now) (fun r t => Charged id 0 s t ∧
      ∀ g, r = .ok g → g ≠ .stopped → 0 < s.room run reserved) s := by
  simp only [gateRequest, getAgentRun, getInvestigation, wp_bind, wp_get]
  cases hrun : s.runs.get run with
  | none => exact ⟨.rfl', by rintro g ⟨⟩⟩
  | some r =>
    simp only [wp_pure]
    cases hinv : s.investigations.get r.investigationId with
    | none => exact ⟨.rfl', by rintro g ⟨⟩⟩
    | some i =>
      simp only [wp_pure]
      cases hcheck : (checkBeforeToolExecution (r.withToolCalls reserved) now).1 with
      | false =>
        rw [if_pos rfl]
        exact wp_mono (refuse_spec id _ _ _ _ s) fun _ _ h => ⟨h.1, fun g hg hne => absurd (h.2 g hg) hne⟩
      | true =>
        rw [if_neg Bool.noConfusion]
        cases hcheckInv : (checkInvestigationBeforeToolExecution (i.withToolCalls reserved) now).1 with
        | false =>
          rw [if_pos rfl]
          exact wp_mono (refuse_spec id _ _ _ _ s) fun _ _ h => ⟨h.1, fun g hg hne => absurd (h.2 g hg) hne⟩
        | true =>
          rw [if_neg Bool.noConfusion]
          refine wp_mono (admit_charged id _ _ s) fun _ _ h => ⟨h, fun _ _ _ => ?_⟩
          have hrunLimit := toolCalls_lt_of_check hcheck
          have hinvLimit := investigation_toolCalls_lt_of_check hcheckInv
          simp only [AgentRun.withToolCalls, Investigation.withToolCalls] at hrunLimit hinvLimit
          simp only [room, grant, cap, hrun, hinv, map_some, getD_some]
          omega

lemma gateBatch_spec (run : String) (now : Time) (batch : List ToolRequest) (reserved : ℕ) (s : Store) :
    wp (gateBatch run now reserved batch) (fun r t => Charged id 0 s t ∧
      ∀ res, r = .ok res → res.pending.length ≤ min batch.length (s.room run reserved)) s := by
  induction batch generalizing reserved s with
  | nil => exact ⟨.rfl', by rintro res ⟨⟩; exact Nat.zero_le _⟩
  | cons request batch ih =>
    simp only [gateBatch, wp_bind]
    refine wp_mono (gateRequest_spec id run reserved request now s) ?_
    rintro r t ⟨h, hroom⟩
    cases r with
    | error e => exact ⟨h, by rintro res ⟨⟩⟩
    | ok g =>
      have hstep : ∀ k, s.room run (reserved + 1) = k → g ≠ .stopped → k + 1 ≤ s.room run reserved := by
        intro k hk hne
        have hpos := hroom g rfl hne
        subst hk
        revert hpos
        unfold room
        split <;> omega
      cases g with
      | stopped => exact ⟨h, by rintro res ⟨⟩; exact Nat.zero_le _⟩
      | resolved block =>
        simp only [wp_bind]
        refine wp_mono (ih (reserved + 1) t) ?_
        rintro r u ⟨h', hlen⟩
        cases r with
        | error e => exact ⟨h.trans h', by rintro res ⟨⟩⟩
        | ok rest =>
          refine ⟨h.trans h', ?_⟩
          rintro res ⟨⟩
          have hlen' := hlen rest rfl
          rw [h.room] at hlen'
          have := hstep _ rfl (by simp)
          simp only [length_cons]
          omega
      | started =>
        simp only [wp_bind]
        refine wp_mono (ih (reserved + 1) t) ?_
        rintro r u ⟨h', hlen⟩
        cases r with
        | error e => exact ⟨h.trans h', by rintro res ⟨⟩⟩
        | ok rest =>
          refine ⟨h.trans h', ?_⟩
          rintro res ⟨⟩
          have hlen' := hlen rest rfl
          rw [h.room] at hlen'
          have := hstep _ rfl (by simp)
          simp only [length_cons]
          omega

lemma gate_spec (run : String) (batch : List ToolRequest) (now : Time) (s : Store) :
    wp (gate run batch now) (fun r t => Charged id 0 s t ∧ ∀ res, r = .ok res →
      ∃ stored, s.runs.get run = some stored ∧
        res.pending.length ≤ min batch.length (s.room run stored.usage.toolCalls)) s := by
  simp only [gate, getAgentRun, wp_bind, wp_get]
  cases hrun : s.runs.get run with
  | none => exact ⟨.rfl', by rintro res ⟨⟩⟩
  | some stored =>
    simp only [wp_pure]
    refine wp_mono (gateBatch_spec id run now batch stored.usage.toolCalls s) fun r t h => ?_
    exact ⟨h.1, fun res hres => ⟨stored, rfl, h.2 res hres⟩⟩

variable {s : Store} {investigation : Investigation} {run : AgentRun}

lemma updateAgentRun_charged {r r₀ : AgentRun}
    (h : s.runs.get r.agentRunId = some r₀) (hi : r.investigationId = r₀.investigationId)
    (hb : r.budget.maxToolCalls = r₀.budget.maxToolCalls) :
    wp (updateAgentRun r) (fun _ t => Charged id 0 s t ∧ t.investigations = s.investigations) s := by
  simp only [updateAgentRun, wp_bind, wp_get, h]
  by_cases hs : r₀.status = r.status
  · simp only [hs, if_true]
    exact ⟨.putAgentRun h hi hb, rfl⟩
  · simp only [hs, if_false]
    exact ⟨.rfl', rfl⟩

lemma updateInvestigation_charged {i i₀ : Investigation} (h : s.investigations.get i.investigationId = some i₀)
    (hcap : i.budget.maxToolCalls = i₀.budget.maxToolCalls) (hused : i.usage.toolCalls ≤ i₀.usage.toolCalls + n) :
    wp (updateInvestigation i) (fun _ t => Charged i.investigationId n s t) s := by
  simp only [updateInvestigation, wp_bind, wp_get, h]
  by_cases hs : i₀.status = i.status
  · simp only [hs, if_true]
    exact Charged.putInvestigation h hcap hused
  · simp only [hs, if_false]
    exact Charged.rfl'

lemma appendEvidence_frame {run run' : AgentRun}
    {refs : List EvidenceReference} {k : ℕ} (h : appendEvidence run investigation refs = some (run', k)) :
    run'.agentRunId = run.agentRunId ∧ run'.investigationId = run.investigationId ∧ run'.budget = run.budget := by
  dsimp only [appendEvidence] at h
  split_ifs at h <;> cases h <;> exact ⟨rfl, rfl, rfl⟩

lemma parkOnApproval_charged (hrun : s.runs.get run.agentRunId = some run)
    (hinv : s.investigations.get investigation.investigationId = some investigation)
    (request : ToolRequest) (outcome : ToolOutcome) (now : Time) :
    wp (parkOnApproval run investigation request outcome now) (fun _ t => Charged id 0 s t) s := by
  simp only [parkOnApproval, wp_bind]
  refine wp_mono (transitionToolCallStatus_frame _ _ _ s) ?_
  rintro r t ⟨hr, hi⟩
  have h : Charged id 0 s t := .of_toolCalls hr hi
  cases r with
  | error _ => exact h
  | ok _ =>
    rw [← hr] at hrun
    rw [← hi] at hinv
    refine wp_mono (updateAgentRun_charged id hrun rfl rfl) ?_
    rintro r u ⟨hru, hiu⟩
    cases r with
    | error _ => exact h.trans hru
    | ok _ =>
      rw [← hiu] at hinv
      refine wp_mono (updateInvestigation_charged 0 hinv rfl (Nat.le_refl _)) fun r v hv => ?_
      have hv' : Charged id 0 u v := hv.of_zero
      have hsum : Charged id 0 s v := (h.trans hru).trans hv'
      cases r with
      | error _ => exact hsum
      | ok _ =>
        refine wp_mono (pauseRound_charged id _ _ _ _ _ v) fun r w hw => ?_
        cases r <;> exact hsum.trans hw

lemma keepOutcome_charged (hrun : s.runs.get run.agentRunId = some run)
    (hinv : s.investigations.get investigation.investigationId = some investigation)
    (outcome : ToolOutcome) (now : Time) :
    wp (keepOutcome run investigation outcome now) (fun _ t => Charged investigation.investigationId 1 s t) s := by
  simp only [keepOutcome]
  cases happ : appendEvidence run investigation outcome.evidence with
  | none =>
    simp only [wp_bind]
    refine wp_mono (pauseRound_charged investigation.investigationId _ _ _ _ _ s) fun r t h => ?_
    cases r <;> exact h.of_zero
  | some p =>
    obtain ⟨run', newEvidence⟩ := p
    obtain ⟨hid, hi, hb⟩ := appendEvidence_frame happ
    simp only [wp_bind]
    have hrun' : s.runs.get (countRun run' outcome).agentRunId = some run := (congrArg s.runs.get hid).trans hrun
    refine wp_mono (updateAgentRun_charged investigation.investigationId hrun' hi
      (congrArg AgentBudget.maxToolCalls hb)) ?_
    rintro r t ⟨h, hiu⟩
    cases r with
    | error _ => exact h.of_zero
    | ok _ =>
      rw [← hiu] at hinv
      have hcount : (countInvestigation investigation outcome newEvidence).usage.toolCalls ≤
          investigation.usage.toolCalls + 1 := Nat.le_refl _
      refine wp_mono (updateInvestigation_charged 1 hinv rfl hcount) fun r u hu => ?_
      have hsum : Charged investigation.investigationId 1 s u := by simpa using h.trans hu
      cases r with
      | error _ => exact hsum
      | ok _ =>
        by_cases hunc : outcome.status = .uncertain
        · simp only [hunc, if_true, wp_bind]
          refine wp_mono (pauseRound_charged investigation.investigationId _ _ _ _ _ u) fun r v hv => ?_
          cases r <;> exact hsum.trans hv
        · simp only [hunc, if_false]
          exact hsum

lemma foldToolOutcome_charged (hrun : s.runs.get run.agentRunId = some run)
    (hinv : s.investigations.get investigation.investigationId = some investigation)
    (request : ToolRequest) (outcome : ToolOutcome) (now : Time) :
    wp (foldToolOutcome run investigation request outcome now)
      (fun _ t => Charged investigation.investigationId 1 s t) s := by
  unfold foldToolOutcome
  by_cases hwait : outcome.status = .waitingApproval
  · rw [if_pos hwait]
    exact wp_mono (parkOnApproval_charged investigation.investigationId hrun hinv _ _ _)
      fun _ _ h => h.of_zero
  · simp only [hwait, if_false, wp_bind]
    refine wp_mono (transitionToolCallStatus_frame _ _ _ s) ?_
    rintro r t ⟨hr, hi⟩
    have h : Charged investigation.investigationId 0 s t := .of_toolCalls hr hi
    cases r with
    | error _ => exact h.of_zero
    | ok _ =>
      rw [← hr] at hrun
      rw [← hi] at hinv
      dsimp only
      split_ifs
      · simp only [wp_bind]
        refine wp_mono (pauseRound_charged investigation.investigationId _ _ _ _ _ t) fun r u hu => ?_
        cases r <;> exact (h.trans hu).of_zero
      · refine wp_mono (keepOutcome_charged hrun hinv _ _) fun _ _ hu => ?_
        simpa using h.trans hu

lemma foldBatch_charged (run : String) (outcomes : List ToolOutcome) (now : Time)
    (pending : List ToolRequest) (s : Store) {inv : String} {limit : ℕ} (hgrant : s.grant run = some (inv, limit)) :
    wp (foldBatch run outcomes now pending) (fun _ t => Charged inv pending.length s t) s := by
  induction pending generalizing s with
  | nil => exact .rfl'
  | cons request pending ih =>
    simp only [foldBatch]
    cases hout : outcomes.find? (·.toolCallId = request.toolCallId) with
    | none => exact .rfl'
    | some outcome =>
      obtain ⟨r, hrun, hr⟩ := map_eq_some_iff.mp hgrant
      obtain ⟨rfl, -⟩ := Prod.mk.inj hr
      simp only [getAgentRun, getInvestigation, wp_bind, wp_get, hrun, wp_pure]
      cases hinv : s.investigations.get r.investigationId with
      | none => exact .rfl'
      | some i =>
        simp only [wp_pure]
        have hkey := s.investigations.keyed _ _ hinv
        have hfold := foldToolOutcome_charged (s.runs.get_key hrun) (s.investigations.get_key hinv)
          request outcome now
        rw [hkey] at hfold
        refine wp_mono hfold fun x t h => ?_
        cases x with
        | error _ => exact h.mono (by simp)
        | ok stop =>
          refine wp_mono (ih t (by rw [h.grant, hgrant])) fun y u hu => ?_
          have hsum := h.trans hu
          rw [Nat.add_comm] at hsum
          cases y <;> exact hsum

end Operations

/-! ### Interleaved batches -/

structure InFlight where
  agentRunId : String
  investigationId : String
  pending : List ToolRequest
  deriving DecidableEq

/-- The store, the batches between gate and fold, and how many calls were started on behalf of
each investigation. -/
structure Workload where
  store : Store
  inFlight : List InFlight := []
  started : String → ℕ := fun _ => 0

open Workload

inductive WorkEvent
  | batch (agentRunId : String) (batch : List ToolRequest) (now : Time)
  | fold (i : ℕ) (outcomes : List ToolOutcome) (now : Time)
  | spawn (run : AgentRun)
  | resume (agentRunId : String) (status : AgentRunStatus) (budget : AgentBudget)
  | setStatus (investigationId : String) (status : InvestigationStatus)

/-- The calls that passed the gate start together. -/
def Workload.start (w : Workload) (run : AgentRun) (res : GateResult) (store : Store) : Workload where
  store := store
  inFlight := w.inFlight ++ [⟨run.agentRunId, run.investigationId, res.pending⟩]
  started := Function.update w.started run.investigationId
    (w.started run.investigationId + res.pending.length)

def Workload.step (w : Workload) : WorkEvent → Option Workload
  | .batch agentRunId batch now => match w.store.runs.get agentRunId with
    | none => none
    | some run => match (gate agentRunId batch now).exec w.store with
      | (.ok res, store) => some (w.start run res store)
      | (.error _, store) => some { w with store := store }
  | .fold i outcomes now => match w.inFlight[i]? with
    | none => none
    | some b => some { w with
        store := ((foldBatch b.agentRunId outcomes now b.pending).exec w.store).2
        inFlight := w.inFlight.eraseIdx i }
  | .spawn run =>
    if w.store.runs.get run.agentRunId = none ∧ run.usage = {} then
      some { w with store := { w.store with runs := w.store.runs.put run } }
    else none
  | .resume agentRunId status budget => match w.store.runs.get agentRunId with
    | none => none
    | some run => some { w with store := { w.store with
        runs := w.store.runs.put { run with status := status, budget := budget } } }
  | .setStatus investigationId status => match w.store.investigations.get investigationId with
    | none => none
    | some investigation => some { w with store := { w.store with
        investigations := w.store.investigations.put { investigation with status := status } } }

/-- A store in which no investigation has used a tool call. -/
structure FreshStore where
  store : Store
  unused : ∀ id, store.used id = 0

def workloads (s : FreshStore) : System Workload WorkEvent := ⟨{ store := s.store }, step⟩

/-- The calls started for the investigation and its counter stay within the cap. -/
def Workload.WithinCap (w : Workload) (id : String) : Prop :=
  w.started id ≤ w.store.cap id ∧ w.store.used id ≤ w.store.cap id

/-- A batch passes the gate only where the calls already started for the investigation, with
those the run's own counter leaves room for, fit under the cap. -/
def Accounted (w : Workload) : WorkEvent → Prop
  | .batch agentRunId batch _ => ∀ run, w.store.runs.get agentRunId = some run →
      w.started run.investigationId + min batch.length (w.store.room agentRunId run.usage.toolCalls) ≤
        w.store.cap run.investigationId
  | _ => True

def Workload.pendingFor (w : Workload) (id : String) : ℕ :=
  (w.inFlight.map fun b => if b.investigationId = id then b.pending.length else 0).sum

/-- Started calls stay under the cap, every counted call has been started and is no longer in
flight, and a batch in flight belongs to the investigation of its run. -/
structure Workload.Inv (w : Workload) : Prop where
  capped : ∀ id, w.started id ≤ w.store.cap id
  counted : ∀ id, w.store.used id + w.pendingFor id ≤ w.started id
  owned : ∀ b ∈ w.inFlight, ∃ limit, w.store.grant b.agentRunId = some (b.investigationId, limit)

lemma Workload.Inv.of_charged {w : Workload} {id : String} {store : Store} (hw : w.Inv)
    (h : Charged id 0 w.store store) : Workload.Inv { w with store := store } where
  capped j := by
    rw [h.cap]
    exact hw.capped j
  counted j := by
    have hused := h.used j
    have hcounted := hw.counted j
    simp only [ite_self, Nat.add_zero, pendingFor] at hused hcounted ⊢
    omega
  owned b hb := by
    obtain ⟨limit, hlimit⟩ := hw.owned b hb
    exact ⟨limit, (h.grant _).trans hlimit⟩

variable {w w' : Workload}

lemma batch_inv {agentRunId : String} {batch : List ToolRequest} {now : Time}
    (hw : w.Inv) (hacc : Accounted w (.batch agentRunId batch now))
    (h : w.step (.batch agentRunId batch now) = some w') : w'.Inv := by
  cases hrun : w.store.runs.get agentRunId with
  | none => simp [step, hrun] at h
  | some run =>
    have hspec := gate_spec run.investigationId agentRunId batch now w.store
    obtain ⟨hcharged, hroom⟩ := hspec
    rcases hexec : (gate agentRunId batch now).exec w.store with ⟨r, store⟩
    rw [hexec] at hcharged hroom
    dsimp only at hcharged hroom
    simp only [step, hrun, hexec] at h
    cases r with
    | error _ =>
      obtain rfl := some.inj h
      exact hw.of_charged hcharged
    | ok res =>
      obtain rfl := some.inj h
      obtain ⟨stored, hstored, hlen⟩ := hroom res rfl
      obtain rfl := some.inj (hrun.symm.trans hstored)
      have hfit := hacc run hrun
      have hstart := hw.of_charged hcharged
      have hkey := w.store.runs.keyed _ _ hrun
      refine ⟨fun j => ?_, fun j => ?_, fun b hb => ?_⟩
      · have hcapped := hstart.capped j
        simp only [start, Function.update_apply]
        split_ifs with hj
        · have hcap := hcharged.cap run.investigationId
          rw [hj]
          omega
        · exact hcapped
      · have hcounted := hstart.counted j
        simp only [start, pendingFor, map_append, sum_append, map_cons,
          map_nil, sum_singleton, Function.update_apply] at hcounted ⊢
        by_cases hj : run.investigationId = j
        · subst hj
          simp only [if_true]
          omega
        · simp only [hj, Ne.symm hj, if_false]
          omega
      · rcases mem_append.mp hb with hb | hb
        · exact hstart.owned b hb
        · obtain rfl := mem_singleton.mp hb
          refine ⟨run.budget.maxToolCalls, (hcharged.grant _).trans ?_⟩
          simp only [grant, hkey, hrun, map_some]

lemma fold_inv {i : ℕ} {outcomes : List ToolOutcome} {now : Time}
    (hw : w.Inv) (h : w.step (.fold i outcomes now) = some w') : w'.Inv := by
  cases hb : w.inFlight[i]? with
  | none => simp [step, hb] at h
  | some b =>
    simp only [step, hb, some.injEq] at h
    subst h
    obtain ⟨hi, hget⟩ := List.getElem?_eq_some_iff.mp hb
    have hmem : b ∈ w.inFlight := hget ▸ List.getElem_mem hi
    obtain ⟨limit, hlimit⟩ := hw.owned b hmem
    have hfold : Charged b.investigationId b.pending.length w.store
        ((foldBatch b.agentRunId outcomes now b.pending).exec w.store).2 :=
      foldBatch_charged b.agentRunId outcomes now b.pending w.store hlimit
    have hsum : ∀ j, (if b.investigationId = j then b.pending.length else 0) +
        ((w.inFlight.eraseIdx i).map fun b => if b.investigationId = j then b.pending.length else 0).sum =
          w.pendingFor j := by
      intro j
      have hperm := (List.getElem_cons_eraseIdx_perm hi).map
        fun b : InFlight => if b.investigationId = j then b.pending.length else 0
      have heq := hperm.sum_eq
      rwa [hget, List.map_cons, List.sum_cons] at heq
    refine ⟨fun j => ?_, fun j => ?_, fun c hc => ?_⟩
    · exact (hfold.cap j).symm ▸ hw.capped j
    · have hused := hfold.used j
      have hcounted := hw.counted j
      have hpending := hsum j
      simp only [pendingFor] at hcounted hpending ⊢
      by_cases hj : b.investigationId = j
      · simp only [hj, if_true] at hused hpending
        omega
      · simp only [hj, Ne.symm hj, if_false] at hused hpending
        omega
    · obtain ⟨limit, hlimit⟩ := hw.owned c (List.mem_of_mem_eraseIdx hc)
      exact ⟨limit, (hfold.grant _).trans hlimit⟩

lemma putRun_inv {w : Workload} {run : AgentRun} (hw : w.Inv)
    (howner : ∀ stored, w.store.runs.get run.agentRunId = some stored →
      run.investigationId = stored.investigationId) :
    Workload.Inv { w with store := { w.store with runs := w.store.runs.put run } } where
  capped := hw.capped
  counted := hw.counted
  owned b hb := by
    obtain ⟨limit, hlimit⟩ := hw.owned b hb
    obtain ⟨stored, hstored, heq⟩ := map_eq_some_iff.mp hlimit
    obtain ⟨hinv, -⟩ := Prod.mk.inj heq
    simp only [grant, Table.get_put]
    split_ifs with hid
    · rw [hid] at hstored
      exact ⟨run.budget.maxToolCalls, by rw [map_some, howner stored hstored, hinv]⟩
    · exact ⟨limit, hlimit⟩

lemma workload_step_inv (e : WorkEvent) (hw : w.Inv) (hacc : Accounted w e) (h : w.step e = some w') : w'.Inv := by
  cases e with
  | batch agentRunId batch now => exact batch_inv hw hacc h
  | fold i outcomes now => exact fold_inv hw h
  | spawn run =>
    simp only [step, ite_none_right_eq_some, some.injEq] at h
    obtain ⟨⟨hnew, -⟩, rfl⟩ := h
    exact putRun_inv hw fun stored hstored => by rw [hnew] at hstored; cases hstored
  | resume agentRunId status budget =>
    cases hrun : w.store.runs.get agentRunId with
    | none => simp [step, hrun] at h
    | some run =>
      simp only [step, hrun, some.injEq] at h
      subst h
      refine putRun_inv hw fun stored hstored => ?_
      have hkey : w.store.runs.get run.agentRunId = some run := w.store.runs.get_key hrun
      rw [hkey] at hstored
      cases hstored
      rfl
  | setStatus investigationId status =>
    cases hinv : w.store.investigations.get investigationId with
    | none => simp [step, hinv] at h
    | some investigation =>
      simp only [step, hinv, some.injEq] at h
      subst h
      have hkey : w.store.investigations.get investigation.investigationId = some investigation :=
        w.store.investigations.get_key hinv
      exact hw.of_charged (Charged.putInvestigation hkey rfl (Nat.le_refl _))

/-- While every batch is accounted for, no interleaving of batches exceeds the investigation's
tool-call cap. -/
theorem accounted_withinCap (s : FreshStore) {w : Workload} (h : (workloads s).Reached Accounted w)
    (id : String) : w.WithinCap id := by
  have hinit : Workload.Inv { store := s.store } := by
    refine ⟨fun id => Nat.zero_le _, fun id => ?_, fun b hb => absurd hb not_mem_nil⟩
    simp [s.unused id, pendingFor]
  have hinv : w.Inv := h.invariant hinit fun _ e _ hw hacc hstep => workload_step_inv e hw hacc hstep
  have hcapped := hinv.capped id
  have hcounted := hinv.counted id
  exact ⟨hcapped, by omega⟩

def sharedInvestigation : Investigation where
  investigationId := "inv-1"
  status := .running
  budget := { maxToolCalls := 2 }
  usage := {}

def parentRun : AgentRun where
  agentRunId := "run-parent"
  investigationId := "inv-1"
  parentRunId := none
  kind := .parent
  status := .running
  budget := {}
  usage := {}

def childRun : AgentRun := { parentRun with agentRunId := "run-child", parentRunId := some "run-parent", kind := .child }

/-- One investigation with room for two calls, and its parent run. -/
def sharedStore : FreshStore where
  store := { investigations := Table.empty.put sharedInvestigation, runs := Table.empty.put parentRun }
  unused id := by
    simp only [used, Table.get_put]
    split_ifs <;> rfl

def firstBatch : WorkEvent := .batch "run-parent" [⟨"call-1", "log_search"⟩, ⟨"call-2", "log_search"⟩] 0

/-- The parent alone uses the whole cap, and stays within it. -/
theorem parent_withinCap :
    ∃ w, (workloads sharedStore).Reached Accounted w ∧ w.started "inv-1" = 2 ∧ w.WithinCap "inv-1" := by
  have hstep : (step { store := sharedStore.store } firstBatch).map (·.started "inv-1") = some 2 := by decide +kernel
  obtain ⟨w, hw, hstarted⟩ := map_eq_some_iff.mp hstep
  have hacc : Accounted { store := sharedStore.store } firstBatch := by
    rintro run hrun
    obtain rfl : parentRun = run := some.inj hrun
    decide
  have hreached : (workloads sharedStore).Reached Accounted w := .next firstBatch .start hacc hw
  exact ⟨w, hreached, hstarted, accounted_withinCap sharedStore hreached "inv-1"⟩

/-- The parent uses both calls, then a child starts a third one. -/
def sharedBatches : List WorkEvent :=
  [firstBatch,
    .fold 0 [{ toolCallId := "call-1", status := .succeeded },
      { toolCallId := "call-2", status := .succeeded }] 0,
    .spawn childRun,
    .batch "run-child" [⟨"call-3", "log_search"⟩] 0,
    .fold 0 [{ toolCallId := "call-3", status := .succeeded }] 0]

/-- The gate of the child looks at the child's own counter: three calls under a cap of two. -/
theorem child_exceeds_cap :
    ∃ w, (workloads sharedStore).runFrom { store := sharedStore.store } sharedBatches = some w ∧
      (w.started "inv-1", w.store.used "inv-1", w.store.cap "inv-1") = (3, 3, 2) ∧
      ¬ w.WithinCap "inv-1" := by
  have hrun : ((workloads sharedStore).runFrom { store := sharedStore.store } sharedBatches).map
      (fun w => (w.started "inv-1", w.store.used "inv-1", w.store.cap "inv-1")) = some (3, 3, 2) := by
    decide +kernel
  obtain ⟨w, hw, hvalues⟩ := map_eq_some_iff.mp hrun
  refine ⟨w, hw, hvalues, fun hcap => ?_⟩
  simp only [Prod.mk.injEq] at hvalues
  have hle := hcap.1
  omega

end IncidentLens.Investigations
