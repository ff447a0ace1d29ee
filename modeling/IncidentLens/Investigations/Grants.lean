import IncidentLens.Investigations.Orchestrator
import Mathlib.Logic.Relation

/-!
# What a resume grants

A paused run is resumed with what the investigation has left on the axis that stopped it. Its
limits stay within the hard caps over every sequence of resumes, whatever is spent between them.
-/
namespace IncidentLens.Investigations.Grants

inductive Axis
  | toolCalls | rounds
  deriving DecidableEq

namespace Axis

def limit (run : AgentRun) : Axis → ℕ
  | toolCalls => run.budget.maxToolCalls
  | rounds => run.budget.maxRounds

def used (run : AgentRun) : Axis → ℕ
  | toolCalls => run.usage.toolCalls
  | rounds => run.usage.rounds

def remaining (investigation : Investigation) : Axis → ℕ
  | toolCalls => investigation.budget.maxToolCalls - investigation.usage.toolCalls
  | rounds => investigation.budget.maxRounds - investigation.usage.rounds

/-- The largest limit that `AgentBudget` admits. -/
def cap : Axis → ℕ
  | toolCalls => 500
  | rounds => 200

/-- The check of the guard that the limit belongs to. -/
def check : Axis → AgentRun → Time → Verdict
  | toolCalls => checkBeforeToolExecution
  | rounds => checkBeforeModelTurn

def message : Axis → String
  | toolCalls => "tool-call budget exhausted"
  | rounds => "round budget exhausted"

def stopReason : Axis → StopReason
  | toolCalls => .budgetToolCalls
  | rounds => .budgetRounds

end Axis

def WithinCaps (run : AgentRun) : Prop := ∀ axis : Axis, axis.limit run ≤ axis.cap

/-- A run and its investigation between two moments: it is resumed, or anything else happens, of
which no part changes its budget. -/
inductive Step : AgentRun × Investigation → AgentRun × Investigation → Prop
  | worked {run run' : AgentRun} {investigation investigation' : Investigation} :
      run'.budget = run.budget → Step (run, investigation) (run', investigation')
  | resumed {run : AgentRun} {investigation : Investigation} :
      Step (run, investigation) (grantRemainingInvestigationCapacity run investigation, investigation)

section
variable {run r : AgentRun} {axis : Axis} {now : Time}

lemma checkExecutable_running (h : run.status = .running) : checkExecutable run = (true, "run is executable") := by
  rw [checkExecutable, h]
  rfl

lemma check_exhausted (hrunning : run.status = .running) (h : axis.limit run ≤ axis.used run) :
    axis.check run now = (false, axis.message) := by
  cases axis with
  | toolCalls =>
    have hle : run.budget.maxToolCalls ≤ run.usage.toolCalls := h
    simp [Axis.check, checkBeforeToolExecution, checkExecutable_running hrunning, Axis.message, hle]
  | rounds =>
    have hle : run.budget.maxRounds ≤ run.usage.rounds := h
    simp [Axis.check, checkBeforeModelTurn, checkExecutable_running hrunning, Axis.message, hle]

lemma check_of_lt (hrunning : run.status = .running) (h : axis.used run < axis.limit run) :
    (axis.check run now).2 ≠ axis.message := by
  cases axis with
  | toolCalls =>
    have hlt : ¬run.budget.maxToolCalls ≤ run.usage.toolCalls := not_le.mpr h
    simp only [Axis.check, checkBeforeToolExecution, checkExecutable_running hrunning, ge_iff_le, hlt, if_false,
      checkWallClock]
    split_ifs <;> decide +kernel
  | rounds =>
    have hlt : ¬run.budget.maxRounds ≤ run.usage.rounds := not_le.mpr h
    simp only [Axis.check, checkBeforeModelTurn, checkExecutable_running hrunning, ge_iff_le, hlt, if_false,
      checkWallClock, isStalledNoNewEvidence]
    split_ifs <;> decide +kernel

lemma stopReasonFor_message (axis : Axis) : stopReasonFor axis.message = axis.stopReason := by
  cases axis <;> decide +kernel

end

section
variable (run : AgentRun) (investigation : Investigation)

lemma limit_grant (axis : Axis) : axis.limit (grantRemainingInvestigationCapacity run investigation) =
    if run.stopReason = some axis.stopReason then
      min axis.cap (max (axis.limit run) (axis.used run + axis.remaining investigation)) else axis.limit run := by
  unfold grantRemainingInvestigationCapacity
  split_ifs with hcalls _ _ hrounds <;> cases axis <;> simp_all [Axis.stopReason, Axis.limit, Axis.cap, Axis.used, Axis.remaining]

lemma withinCaps_grant (h : WithinCaps run) : WithinCaps (grantRemainingInvestigationCapacity run investigation) := by
  intro axis
  rw [limit_grant]
  split_ifs
  · exact min_le_left _ _
  · exact h axis

end

lemma withinCaps_steps {s t : AgentRun × Investigation} (h : WithinCaps s.1) (hsteps : Relation.ReflTransGen Step s t) :
    WithinCaps t.1 := by
  induction hsteps with
  | refl => exact h
  | tail _ hstep ih =>
    cases hstep with
    | worked hbudget =>
      intro axis
      have hlimit := ih axis
      cases axis <;> simpa [Axis.limit, hbudget] using hlimit
    | resumed => exact withinCaps_grant _ _ ih

/-- Over every sequence of resumes: no limit is lowered, no headroom exceeds what there was and what
the investigation has left, and a run that the guard stopped on a limit is no longer refused for
that limit when the investigation has something left within the cap. -/
theorem resume_grants {start s : AgentRun × Investigation} (hcaps : WithinCaps start.1)
    (hsteps : Relation.ReflTransGen Step start s) (axis : Axis) :
    axis.limit s.1 ≤ axis.limit (grantRemainingInvestigationCapacity s.1 s.2) ∧
    (axis.limit (grantRemainingInvestigationCapacity s.1 s.2) : ℤ) - axis.used s.1 ≤
      max ((axis.limit s.1 : ℤ) - axis.used s.1) (axis.remaining s.2) ∧
    ∀ (stopped : AgentRun) (now : Time), stopped.status = .running → axis.limit stopped ≤ axis.used stopped →
      s.1.stopReason = some (stopReasonFor (axis.check stopped now).2) →
      0 < axis.remaining s.2 → axis.used s.1 < axis.cap →
        axis.used s.1 + 1 ≤ axis.limit (grantRemainingInvestigationCapacity s.1 s.2) ∧
        (∀ other ≠ axis, other.limit (grantRemainingInvestigationCapacity s.1 s.2) = other.limit s.1) ∧
        ∀ later, (axis.check { grantRemainingInvestigationCapacity s.1 s.2 with status := .running } later).2 ≠
          (axis.check stopped now).2 := by
  have hcap := withinCaps_steps hcaps hsteps axis
  have hlimit := limit_grant s.1 s.2
  refine ⟨?_, ?_, fun stopped now hrunning hexhausted hreason hremaining hused => ?_⟩
  · rw [hlimit]
    split_ifs
    · exact le_min hcap (le_max_left _ _)
    · exact le_rfl
  · rw [hlimit]
    split_ifs <;> omega
  · rw [check_exhausted hrunning hexhausted] at hreason ⊢
    rw [stopReasonFor_message] at hreason
    have hmore : axis.used s.1 + 1 ≤ axis.limit (grantRemainingInvestigationCapacity s.1 s.2) := by
      rw [hlimit, if_pos hreason]
      omega
    refine ⟨hmore, fun other hne => ?_, fun later => check_of_lt rfl ?_⟩
    · rw [hlimit, if_neg]
      rw [hreason]
      cases axis <;> cases other <;> simp_all [Axis.stopReason]
    · have hunchanged : axis.used (grantRemainingInvestigationCapacity s.1 s.2) = axis.used s.1 := by
        unfold grantRemainingInvestigationCapacity
        split_ifs <;> rfl
      cases axis <;> exact Nat.lt_of_succ_le (hunchanged ▸ hmore)

/-- A run that was stopped on its first tool call, in an investigation that has more of them. -/
def stoppedRun : AgentRun where
  agentRunId := "run"
  investigationId := "investigation"
  parentRunId := none
  kind := .parent
  status := .pausedBudget
  budget := { maxToolCalls := 1 }
  usage := { toolCalls := 1 }
  stopReason := some .budgetToolCalls

def spending : Investigation := ⟨"investigation", .pausedBudget, {}, { toolCalls := 1 }, none, none⟩

theorem resume_grants_stoppedRun : Axis.limit stoppedRun .toolCalls ≤
    Axis.limit (grantRemainingInvestigationCapacity stoppedRun spending) .toolCalls :=
  (@resume_grants (stoppedRun, spending) _ (fun axis => by cases axis <;> decide) .refl .toolCalls).1

end IncidentLens.Investigations.Grants
