import IncidentLens.Investigations.Store

/-!
# The investigation guard

Checks that answer whether a tool may start and whether its output and evidence may be
kept, each with a reason.
-/
namespace IncidentLens.Investigations

/-- `(allowed, reason)`. -/
abbrev Verdict := Bool × String

def checkExecutable (run : AgentRun) : Verdict :=
  if agentRunStateMachine.isTerminal run.status then (false, "run is terminal")
  else if run.status ≠ .running then
    (false, "run is not executable in status '" ++ run.status.value ++ "'")
  else (true, "run is executable")

/-- Whether `seconds` have passed since `startedAt`. -/
def elapsed (startedAt : Option Time) (now : Time) (seconds : ℕ) : Bool :=
  match startedAt with
  | none => false
  | some start => decide ((seconds : ℤ) * 1000000 ≤ now - start)

def checkWallClock (run : AgentRun) (now : Time) : Verdict :=
  if elapsed run.startedAt now run.budget.maxWallClockSeconds then
    (false, "wall-clock budget exhausted")
  else (true, "wall-clock budget available")

def checkBeforeToolExecution (run : AgentRun) (now : Time) : Verdict :=
  let status := checkExecutable run
  if status.1 = false then status
  else if run.usage.toolCalls ≥ run.budget.maxToolCalls then (false, "tool-call budget exhausted")
  else checkWallClock run now

def checkInvestigationExecutable (investigation : Investigation) : Verdict :=
  if investigationStateMachine.isTerminal investigation.status then
    (false, "investigation is terminal")
  else if investigation.status ≠ .running then
    (false, "investigation is not executable in status '" ++ investigation.status.value ++ "'")
  else (true, "investigation is executable")

def checkInvestigationWallClock (investigation : Investigation) (now : Time) : Verdict :=
  if elapsed investigation.startedAt now investigation.budget.maxWallClockSeconds then
    (false, "investigation wall-clock budget exhausted")
  else (true, "investigation wall-clock budget available")

def checkInvestigationBeforeToolExecution (investigation : Investigation) (now : Time) : Verdict :=
  let status := checkInvestigationExecutable investigation
  if status.1 = false then status
  else if investigation.usage.toolCalls ≥ investigation.budget.maxToolCalls then
    (false, "investigation tool-call budget exhausted")
  else checkInvestigationWallClock investigation now

def canAcceptOutput (run : AgentRun) (outputBytes : ℕ) : Verdict :=
  if outputBytes > run.budget.maxOutputBytesPerTool then (false, "per-tool output budget exceeded")
  else if run.usage.totalOutputBytes + outputBytes > run.budget.maxTotalOutputBytes then
    (false, "cumulative output budget exceeded")
  else (true, "output within budget")

def canInvestigationAcceptOutput (investigation : Investigation) (outputBytes : ℕ) : Verdict :=
  if investigation.usage.totalOutputBytes + outputBytes > investigation.budget.maxTotalOutputBytes then
    (false, "investigation cumulative output budget exceeded")
  else (true, "investigation output within budget")

def canAcceptNewEvidence (run : AgentRun) : Verdict :=
  if run.usage.evidenceCount ≥ run.budget.maxEvidence then (false, "evidence budget exhausted")
  else (true, "evidence budget available")

def canInvestigationAcceptNewEvidence (investigation : Investigation) : Verdict :=
  if investigation.usage.evidenceCount ≥ investigation.budget.maxEvidence then
    (false, "investigation evidence budget exhausted")
  else (true, "investigation evidence budget available")

def isStalledNoNewEvidence (run : AgentRun) : Verdict :=
  if run.usage.consecutiveNoNewEvidenceRounds ≥ run.budget.maxNoNewEvidenceRounds then
    (false, "no-new-evidence budget exhausted")
  else (true, "no-new-evidence budget available")

def isInvestigationStalledNoNewEvidence (investigation : Investigation) : Verdict :=
  if investigation.usage.consecutiveNoNewEvidenceRounds ≥ investigation.budget.maxNoNewEvidenceRounds then
    (false, "investigation no-new-evidence budget exhausted")
  else (true, "investigation no-new-evidence budget available")

def checkBeforeModelTurn (run : AgentRun) (now : Time) : Verdict :=
  let status := checkExecutable run
  if status.1 = false then status
  else if run.usage.rounds ≥ run.budget.maxRounds then (false, "round budget exhausted")
  else
    let stalled := isStalledNoNewEvidence run
    if stalled.1 = false then stalled
    else checkWallClock run now

def checkInvestigationBeforeModelTurn (investigation : Investigation) (now : Time) : Verdict :=
  let status := checkInvestigationExecutable investigation
  if status.1 = false then status
  else if investigation.usage.rounds ≥ investigation.budget.maxRounds then
    (false, "investigation round budget exhausted")
  else
    let stalled := isInvestigationStalledNoNewEvidence investigation
    if stalled.1 = false then stalled
    else checkInvestigationWallClock investigation now

lemma toolCalls_lt_of_check {run : AgentRun} {now : Time} (h : (checkBeforeToolExecution run now).1 = true) :
    run.usage.toolCalls < run.budget.maxToolCalls := by
  by_contra hge
  unfold checkBeforeToolExecution at h
  cases hs : (checkExecutable run).1 with
  | false =>
    rw [if_pos hs, hs] at h
    cases h
  | true =>
    rw [if_neg (by simp [hs]), if_pos (by omega)] at h
    cases h

lemma investigation_toolCalls_lt_of_check {investigation : Investigation} {now : Time}
    (h : (checkInvestigationBeforeToolExecution investigation now).1 = true) :
    investigation.usage.toolCalls < investigation.budget.maxToolCalls := by
  by_contra hge
  unfold checkInvestigationBeforeToolExecution at h
  cases hs : (checkInvestigationExecutable investigation).1 with
  | false =>
    rw [if_pos hs, hs] at h
    cases h
  | true =>
    rw [if_neg (by simp [hs]), if_pos (by omega)] at h
    cases h

end IncidentLens.Investigations
