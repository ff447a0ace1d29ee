import IncidentLens.Investigations.Rules

/-!
# Ending a child run

`_run_child` ends when the child's loop has returned, when its task is cancelled, or when an
exception leaves the loop. In the last two cases the child is first moved to a terminal
status; then its report is persisted for the parent.
-/
namespace IncidentLens.Investigations
open Data Effects StateError

/-- How `_run_child` is left. -/
inductive ChildEnd
  | returned
  | cancelled
  | raised (text : String)

/-- `_finalize_child_terminal`. -/
def finalizeChildTerminal (run : AgentRun) (target : AgentRunStatus) (stopReason : StopReason)
    (now : Time) : DatabaseM PUnit := do
  if agentRunStateMachine.isTerminal run.status then pure ⟨⟩
  else if run.status = .cancelRequested then
    if target = .cancelled then
      let _ ← transitionRun run .cancelled now (some stopReason)
  else
    let _ ← transitionRun run target now (some stopReason)

/-- What reports are made with: redaction, and the identity of recorded evidence. -/
structure Reporting where
  redact : String → String := id
  evidenceRefId : ChildReport → String := fun report => "ev-" ++ report.agentRunId

def StopReason.value : StopReason → String
  | .completed => "completed"
  | .budgetRounds => "budget_rounds"
  | .budgetToolCalls => "budget_tool_calls"
  | .budgetTime => "budget_time"
  | .budgetOutput => "budget_output"
  | .budgetEvidence => "budget_evidence"
  | .budgetChildren => "budget_children"
  | .budgetNoNewEvidence => "budget_no_new_evidence"
  | .missingEvidence => "missing_evidence"
  | .pendingApproval => "pending_approval"
  | .uncertainState => "uncertain_state"
  | .cancelled => "cancelled"
  | .failed => "failed"

def summaryParts (reporting : Reporting) (db : Database) (child : AgentRun) (stopReason : StopReason)
    (error : Option String) : List String :=
  if child.status = .completed then
    let conclusions := db.conclusions.filter (·.1 = child.agentRunId)
    ("child " ++ child.agentRunId ++ " completed: " ++ stopReason.value) ::
      (conclusions.getLast?.map (·.2.summary)).toList
  else
    ("child " ++ child.agentRunId ++ " stopped with " ++ stopReason.value) ::
      (error.map reporting.redact).toList ++
      if child.usage.toolCalls ≠ 0 then [toString child.usage.toolCalls ++ " tool call(s) executed"] else []

/-- The report of `_build_child_report`. -/
def childReport (reporting : Reporting) (db : Database) (child : AgentRun)
    (package : DelegatedTaskPackage) (error : Option String) (now : Time) : ChildReport :=
  let complete := child.status = .completed
  let stopReason := child.stopReason.getD (if complete then .completed else .failed)
  { agentRunId := child.agentRunId
    parentRunId := package.parentRunId
    status := if complete then .complete else .incomplete
    summary := String.ofList
      (("; ".intercalate (summaryParts reporting db child stopReason error)).toList.take 4000)
    findings := (child.evidence.take 10).map fun ref => String.ofList (ref.summary.toList.take 600)
    evidenceIds := (child.evidence.map (·.evidenceId)).take 24
    stopReason := stopReason
    createdAt := now }

/-- `_ensure_child_report_receipt`: built and persisted once. -/
def ensureChildReportReceipt (reporting : Reporting) (child : AgentRun)
    (package : DelegatedTaskPackage) (error : Option String) (now : Time) : DatabaseM PUnit := do
  let db ← get
  match db.receipts.get child.agentRunId with
  | some _ => pure ⟨⟩
  | none =>
    let report := childReport reporting db child package error now
    let _ ← onStore (getInvestigation child.investigationId)
    recordEvidence ⟨reporting.evidenceRefId report, report.summary⟩
    putChildReportReceipt
      { childRunId := child.agentRunId
        parentRunId := package.parentRunId
        report := report
        evidenceId := reporting.evidenceRefId report }

/-- `_run_child` from the end of its loop on. -/
def endChild (reporting : Reporting) (package : DelegatedTaskPackage) (how : ChildEnd) (now : Time) :
    DatabaseM PUnit := do
  let run ← onStore (getAgentRun package.childRunId)
  match how with
  | .returned => ensureChildReportReceipt reporting run package none now
  | .cancelled =>
    finalizeChildTerminal run .cancelled .cancelled now
    let final ← onStore (getAgentRun package.childRunId)
    ensureChildReportReceipt reporting final package (some "child cancelled") now
  | .raised text =>
    finalizeChildTerminal run .failed .failed now
    let final ← onStore (getAgentRun package.childRunId)
    ensureChildReportReceipt reporting final package (some text) now

/-! ### What the end of a child leaves behind -/

/-- The child has ended in a terminal status that is at most one legal transition away from
`before`, and its one report waits for the parent. -/
structure Ended (before : AgentRun) (package : DelegatedTaskPackage) (hadReceipt : Bool)
    (r : Except Raised PUnit) (db : Database) : Prop where
  returned : r = .ok ⟨⟩
  terminal : ∃ child, db.runs.get package.childRunId = some child ∧
    agentRunStateMachine.isTerminal child.status = true ∧
    (child.status = before.status ∨ agentRunStateMachine.canTransition before.status child.status = true)
  receipt : ∃ receipt, db.receipts.get package.childRunId = some receipt ∧
    (hadReceipt = false → receipt.parentRunId = package.parentRunId)

/-- The statuses in which a child can be ended: a cancelled task needs a legal move to
`cancelled`, a failed loop one to `failed`. -/
def Endable (how : ChildEnd) (status : AgentRunStatus) : Prop :=
  agentRunStateMachine.isTerminal status = true ∨ match how with
    | .returned => False
    | .cancelled => status = .created ∨ status = .cancelRequested
    | .raised _ => status ≠ .cancelRequested

section
variable {db : Database} {run : AgentRun} {package : DelegatedTaskPackage} (reporting : Reporting)
  (now : Time)

lemma ensureChildReportReceipt_spec {i : Investigation} (error : Option String)
    (hi : db.investigations.get run.investigationId = some i) :
    wp (ensureChildReportReceipt reporting run package error now) (fun r db' => r = .ok ⟨⟩ ∧
      db'.runs = db.runs ∧ ∃ receipt, db'.receipts.get run.agentRunId = some receipt ∧
        (db.receipts.get run.agentRunId = none → receipt.parentRunId = package.parentRunId)) db := by
  simp only [ensureChildReportReceipt, wp_bind, wp_get]
  cases hreceipt : db.receipts.get run.agentRunId with
  | some receipt =>
    simp only [wp_pure]
    refine ⟨trivial, trivial, receipt, hreceipt, ?_⟩
    intro hnone
    cases hnone
  | none =>
    simp only [wp_bind, wp_getInvestigation, hi, recordEvidence, wp_modify, putChildReportReceipt, wp_get]
    simp only [hreceipt, wp_modify]
    exact ⟨trivial, trivial, _, Table.get_put_self _ _, fun _ => rfl⟩

lemma finalizeChildTerminal_spec (target : AgentRunStatus) (stopReason : StopReason)
    (hrun : db.runs.get run.agentRunId = some run) (Q : Except Raised PUnit → Database → Prop) :
    wp (finalizeChildTerminal run target stopReason now) Q db ↔ if agentRunStateMachine.isTerminal run.status = true ∨
          (run.status = .cancelRequested ∧ target ≠ .cancelled) then Q (.ok ⟨⟩) db
      else if agentRunStateMachine.canTransition run.status target = true then
        Q (.ok ⟨⟩) (db.withRun (run.moved target now (some stopReason)))
      else Q (.error (.store (.illegalTransition run.status.value target.value))) db := by
  unfold finalizeChildTerminal
  cases hterminal : agentRunStateMachine.isTerminal run.status with
  | true => simp
  | false =>
    by_cases hcancel : run.status = .cancelRequested
    · by_cases htarget : target = .cancelled
      · subst htarget
        have hmove : agentRunStateMachine.canTransition AgentRunStatus.cancelRequested .cancelled = true := by
          decide
        simp [hcancel, wp_transitionRun, hrun, hmove]
      · simp [hcancel, htarget]
    · by_cases hmove : agentRunStateMachine.canTransition run.status target = true
      · simp [hcancel, wp_transitionRun, hrun, hmove]
      · simp [hcancel, wp_transitionRun, hrun, hmove]

/-- Finalising towards a terminal status and reporting is complete exactly when the child is
terminal already or the finaliser takes a legal move. -/
theorem finalize_ended_iff {i : Investigation} (target : AgentRunStatus)
    (htarget : agentRunStateMachine.isTerminal target = true) (stopReason : StopReason)
    (error : Option String) (hrun : db.runs.get package.childRunId = some run)
    (hi : db.investigations.get run.investigationId = some i) :
    wp (do
        finalizeChildTerminal run target stopReason now
        let final ← onStore (getAgentRun package.childRunId)
        ensureChildReportReceipt reporting final package error now)
      (Ended run package (db.receipts.get package.childRunId).isSome) db ↔
    agentRunStateMachine.isTerminal run.status = true ∨
      (¬ (run.status = .cancelRequested ∧ target ≠ .cancelled) ∧
        agentRunStateMachine.canTransition run.status target = true) := by
  have hid : run.agentRunId = package.childRunId := db.runs.keyed _ _ hrun
  have hrun' : db.runs.get run.agentRunId = some run := by rw [hid, hrun]
  -- the row of the child after the finaliser, and the receipt
  have hreport : ∀ db' : Database, ∀ final : AgentRun, db'.runs.get package.childRunId = some final →
      final.investigationId = run.investigationId → db'.investigations = db.investigations →
      db'.receipts = db.receipts →
      (wp (do
        let final ← onStore (getAgentRun package.childRunId)
        ensureChildReportReceipt reporting final package error now)
        (Ended run package (db.receipts.get package.childRunId).isSome) db' ↔
      agentRunStateMachine.isTerminal final.status = true ∧ (final.status = run.status ∨
        agentRunStateMachine.canTransition run.status final.status = true)) := by
    intro db' final hfinal hinv hsame hreceipts
    have hfinalId : final.agentRunId = package.childRunId := db'.runs.keyed _ _ hfinal
    have hi' : db'.investigations.get final.investigationId = some i := by rw [hsame, hinv, hi]
    simp only [wp_bind, wp_getAgentRun, hfinal]
    have hensure := @ensureChildReportReceipt_spec db' final package reporting now i error hi'
    constructor
    · intro h
      obtain ⟨_, hruns, _⟩ := hensure
      obtain ⟨child, hchild, hterminal, hmove⟩ := Ended.terminal h
      rw [hruns, hfinal] at hchild
      obtain rfl := Option.some.inj hchild
      exact ⟨hterminal, hmove⟩
    · intro h
      refine wp_mono hensure ?_
      rintro r t ⟨rfl, hruns, receipt, hreceipt, hparent⟩
      refine ⟨rfl, ⟨final, by rw [hruns, hfinal], h.1, h.2⟩, receipt, by rw [← hfinalId, hreceipt], ?_⟩
      intro hnone
      exact hparent (by rw [hfinalId, hreceipts]; simpa using hnone)
  rw [wp_bind, finalizeChildTerminal_spec now target stopReason hrun']
  cases hterminal : agentRunStateMachine.isTerminal run.status with
  | true =>
    rw [if_pos (.inl rfl)]
    refine (hreport db run hrun rfl rfl rfl).trans ?_
    simp [hterminal]
  | false =>
    by_cases hcancel : run.status = .cancelRequested ∧ target ≠ .cancelled
    · rw [if_pos (.inr hcancel)]
      refine (hreport db run hrun rfl rfl rfl).trans (iff_of_false ?_ ?_)
      · rintro ⟨h, _⟩
        cases hterminal.symm.trans h
      · rintro (h | ⟨h, _⟩)
        · cases h
        · exact h hcancel
    · rw [if_neg (by simpa using hcancel)]
      by_cases hmove : agentRunStateMachine.canTransition run.status target = true
      · rw [if_pos hmove]
        have hget : (db.withRun (run.moved target now (some stopReason))).runs.get package.childRunId =
            some (run.moved target now (some stopReason)) := by
          rw [← hid]
          exact Table.get_put_self _ _
        refine (hreport _ _ hget rfl rfl rfl).trans ?_
        simp only [AgentRun.moved_status, htarget, hmove, hcancel]
        simp
      · rw [if_neg hmove]
        refine iff_of_false ?_ (by simp [hmove])
        intro h
        cases h.returned

/-- The end of a child by cancellation or by an exception is complete exactly from the
statuses that the finaliser has a legal move for. -/
theorem endChild_ended_iff {i : Investigation} (how : ChildEnd) (hhow : how ≠ .returned)
    (hrun : db.runs.get package.childRunId = some run) (hi : db.investigations.get run.investigationId = some i) :
    wp (endChild reporting package how now)
      (Ended run package (db.receipts.get package.childRunId).isSome) db ↔ Endable how run.status := by
  simp only [endChild]
  rw [wp_bind, wp_getAgentRun, hrun]
  cases how with
  | returned => exact absurd rfl hhow
  | cancelled =>
    refine (finalize_ended_iff reporting now .cancelled (by decide) .cancelled _ hrun hi).trans ?_
    unfold Endable
    dsimp only
    cases run.status <;> decide
  | raised text =>
    refine (finalize_ended_iff reporting now .failed (by decide) .failed _ hrun hi).trans ?_
    unfold Endable
    dsimp only
    cases run.status <;> decide

end

def openInvestigation : Investigation := ⟨"inv-1", .running, {}, {}, none, none⟩

def waitingParent : AgentRun := ⟨"run-1", "inv-1", none, .parent, .waitingChildren, {}, {}, none, [], none⟩

def childIn (status : AgentRunStatus) : AgentRun :=
  ⟨"child-1", "inv-1", some "run-1", .child, status, {}, {}, none, [], none⟩

def childPackage : DelegatedTaskPackage := ⟨"child-1", "run-1", "inv-1", "check the database", [], {}⟩

def delegated (status : AgentRunStatus) : Database where
  investigations := Table.empty.put openInvestigation
  runs := (Table.empty.put waitingParent).put (childIn status)
  investigationIds := ["inv-1"]
  runIds := ["run-1", "child-1"]

theorem created_child_ended : wp (endChild {} childPackage .cancelled 0) (Ended (childIn .created) childPackage false)
      (delegated .created) :=
  (@endChild_ended_iff (delegated .created) (childIn .created) childPackage {} 0 openInvestigation
    .cancelled (by rintro ⟨⟩) rfl rfl).mpr (.inr (.inl rfl))

/-- Cancelling the task of a running child raises inside the handler: the child keeps running
and no report is persisted. -/
theorem running_child_not_ended :
    (endChild {} childPackage .cancelled 0).exec (delegated .running) =
        (.error (.store (.illegalTransition "running" "cancelled")), delegated .running) ∧
      ¬ wp (endChild {} childPackage .cancelled 0) (Ended (childIn .running) childPackage false)
        (delegated .running) := by
  have hexec : (endChild {} childPackage .cancelled 0).exec (delegated .running) =
      (.error (.store (.illegalTransition "running" "cancelled")), delegated .running) := rfl
  refine ⟨hexec, ?_⟩
  intro h
  have hreturned := h.returned
  rw [hexec] at hreturned
  cases hreturned

end IncidentLens.Investigations
