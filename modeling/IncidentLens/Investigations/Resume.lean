import IncidentLens.Investigations.Segments
import IncidentLens.Investigations.Service

/-!
# Resuming paused runs

`start` moves the investigation to `running` before it enters the loop of the open parent
run; the loop's own resume moves it again. A paused child, resumed, moves the investigation
of a parent that stays paused.
-/
namespace IncidentLens.Investigations
open Data Effects StateError

def AgentRunStatus.paused : AgentRunStatus → Bool
  | .pausedBudget | .pausedMissingEvidence | .pausedUncertainState => true
  | _ => false

/-- The status of an investigation whose parent run has a given status. -/
def AgentRunStatus.ofInvestigation : AgentRunStatus → InvestigationStatus
  | .created | .running | .waitingTool | .waitingChildren => .running
  | .waitingApproval => .waitingApproval
  | .pausedBudget => .pausedBudget
  | .pausedMissingEvidence => .pausedMissingEvidence
  | .pausedUncertainState => .pausedUncertainState
  | .cancelRequested => .cancelRequested
  | .cancelled => .cancelled
  | .failed => .failed
  | .completed => .completed

def Agreed (agentRunId : String) (db : Database) : Prop :=
  ∃ run i, db.runs.get agentRunId = some run ∧ db.investigations.get run.investigationId = some i ∧
    i.status = run.status.ofInvestigation

/-- The loop of `agentRunId`, entered now, gets past its resume, and there the investigation
agrees with the parent run `owner`. -/
def Resumes (h : Harness) (agentRunId owner : String) (appended : Bool) (now : Time) (db : Database) : Prop :=
  ∃ step, stride h ⟨agentRunId, .yielding, []⟩ (.yielded [] appended) now = some step ∧
    wp step (fun r db' => (∃ s, r = .ok s) ∧ Agreed owner db') db

section
variable {me : RunIdentity} {db : Database} {run : AgentRun} {investigation : Investigation}

lemma pauseOnEvidence_raises (hrun : db.runs.get me.agentRunId = some run)
    (hpaused : run.status.paused = true) (pendingChildren : List String) (now : Time) :
    wp (pauseOnEvidence me.agentRunId pendingChildren now) (fun r _ => ∃ e, r = .error e) db := by
  have hkey : run.agentRunId = me.agentRunId := db.runs.keyed _ _ hrun
  have hwaiting : run.status ≠ .waitingChildren := by
    rintro h
    rw [h] at hpaused
    cases hpaused
  have hillegal : agentRunStateMachine.canTransition run.status .pausedBudget = false := by
    revert hpaused
    cases run.status <;> decide
  rw [pauseOnEvidence, wp_bind, wp_reloadPair, hrun]
  dsimp only
  cases db.investigations.get run.investigationId with
  | none => exact ⟨_, rfl⟩
  | some investigation =>
    simp [hwaiting, wp_pauseRun, wp_transitionRun, hkey, hrun, hillegal]

lemma renewBudget_returns (hrun : db.runs.get run.agentRunId = some run)
    (hinv : db.investigations.get investigation.investigationId = some investigation) :
    wp (renewBudget run investigation) (fun r _ => r = .ok ⟨⟩) db := by
  have hgrant := grantRemainingInvestigationCapacity_identity run investigation
  have hid : (grantRemainingInvestigationCapacity run investigation).agentRunId = run.agentRunId :=
    congrArg RunIdentity.agentRunId hgrant.1
  unfold renewBudget
  split_ifs with hmissing hbudget
  · simp only [wp_bind, wp_updateAgentRun, hrun, if_true, wp_updateInvestigation, Database.withRun_investigations, hinv]
  · simp only [wp_updateAgentRun, hid, hrun, hgrant.2, if_true]
  · rfl

lemma resumePaused_outcome (hold : Holds me [] db) (hrun : db.runs.get me.agentRunId = some run)
    (hpaused : run.status.paused = true) (hinv : db.investigations.get me.investigationId = some investigation)
    (pendingChildren : List String) (appended : Bool) (now : Time) :
    wp (resumePaused run investigation pendingChildren appended now) (fun r db' => (∃ e, r = .error (.store e)) ∨
        ((∃ s, r = .ok s) ∧ investigationStateMachine.canTransition investigation.status .running = true ∧
          (me.kind = .child → ∃ i, db'.investigations.get me.investigationId = some i ∧ i.status = .running))) db := by
  obtain ⟨stored, hstored, hme⟩ := hold.run
  obtain rfl := Option.some.inj (hrun.symm.trans hstored)
  have hid := agentRunId_of_identity hme
  have hinvId : investigation.investigationId = me.investigationId := db.investigations.keyed _ _ hinv
  have hkeep : Walks (holding .quiet me []) (renewBudget run investigation) fun _ => True := walks_renewBudget hme hinvId
  have hrenew := hkeep db hold
  have hreturns : wp (renewBudget run investigation) (fun r _ => r = .ok ⟨⟩) db :=
    renewBudget_returns (by rw [hid, hrun]) (by rw [hinvId, hinv])
  have hmove : agentRunStateMachine.canTransition run.status .running = true := by
    revert hpaused
    cases run.status <;> decide
  rw [resumePaused, wp_bind]
  refine wp_mono (wp_and hrenew hreturns) ?_
  rintro r db₁ ⟨⟨hsteps, -⟩, rfl⟩
  have hstill := still_of_quiet hsteps
  obtain ⟨run₁, hrun₁, hme₁⟩ := ((holding .quiet me []).along hold hsteps).run
  obtain ⟨_, hrun₀, _, hstatus₁⟩ := hstill.run_some hrun₁
  obtain rfl := Option.some.inj (hrun.symm.trans hrun₀)
  have hinv₁ : ∃ i, db₁.investigations.get me.investigationId = some i ∧ i.status = investigation.status := by
    have h := hstill.investigation
    rw [hinv] at h
    exact Option.map_eq_some_iff.mp h
  obtain ⟨i₁, hi₁, hiStatus⟩ := hinv₁
  have hkey₁ : i₁.investigationId = me.investigationId := db₁.investigations.keyed _ _ hi₁
  simp only [wp_bind, wp_transitionRun, hid, hrun₁, hstatus₁, hmove, if_true, wp_transitionInvestigation,
    hinvId, Database.withRun_investigations, hi₁, hiStatus, wp_get]
  have hrow : ((db₁.withRun (run₁.moved .running now none)).withInvestigation
      (i₁.moved .running now none)).investigations.get me.investigationId =
      some (i₁.moved .running now none) := by
    rw [← hkey₁]
    exact Table.get_put_self _ _
  split_ifs with hlegal hfailed
  · have hown : ((db₁.withRun (run₁.moved .running now none)).withInvestigation
        (i₁.moved .running now none)).runs.get (run₁.moved .running now none).agentRunId =
        some (run₁.moved .running now none) := Table.get_put_self _ _
    have hpause : agentRunStateMachine.canTransition AgentRunStatus.running .pausedUncertainState = true := rfl
    have hpauseInv : investigationStateMachine.canTransition InvestigationStatus.running
        (investigationPause .pausedUncertainState) = true := rfl
    rw [wp_bind, wp_reloadPair, hown]
    simp only [AgentRun.moved_investigationId, investigationId_of_identity hme₁, hrow, wp_bind, wp_pauseRun,
      wp_transitionRun, hown, AgentRun.moved_status, hpause, if_true, AgentRun.moved_kind]
    by_cases hparent : run₁.kind = .parent
    · have hkind : me.kind = .parent := (congrArg RunIdentity.kind hme₁).symm.trans hparent
      simp only [hparent, if_true, wp_transitionInvestigation, Investigation.moved_investigationId, hkey₁,
        Database.withRun_investigations, hrow, Investigation.moved_status, hpauseInv, wp_pure]
      refine .inr ⟨⟨_, rfl⟩, hlegal, fun h => ?_⟩
      exact absurd (hkind.symm.trans h) (by decide)
    · simp only [hparent, if_false, wp_pure]
      exact .inr ⟨⟨_, rfl⟩, hlegal, fun _ => ⟨_, hrow, rfl⟩⟩
  · exact .inr ⟨⟨_, rfl⟩, hlegal, fun _ => ⟨_, hrow, rfl⟩⟩
  · exact .inl ⟨_, rfl⟩

lemma dispatch_paused (h : Harness) (hpaused : run.status.paused = true)
    (hopen : investigationStateMachine.isTerminal investigation.status = false) (pendingChildren : List String)
    (appended : Bool) (now : Time) : dispatch h run investigation pendingChildren appended now =
      resumePaused run investigation pendingChildren appended now := by
  have hterminal : agentRunStateMachine.isTerminal run.status = false := by
    revert hpaused
    cases run.status <;> decide
  unfold dispatch
  rw [if_neg (by simp [hterminal]), if_neg (by simp [hopen])]
  cases hstatus : run.status <;> rw [hstatus] at hpaused <;> first | rfl | cases hpaused

variable {now : Time}

lemma stride_paused_outcome {h : Harness} (hold : Holds me [] db)
    (hrun : db.runs.get me.agentRunId = some run) (hpaused : run.status.paused = true)
    (hinv : db.investigations.get me.investigationId = some investigation)
    (hopen : investigationStateMachine.isTerminal investigation.status = false) {appended : Bool}
    {step : DatabaseM Stride}
    (hstep : stride h ⟨me.agentRunId, .yielding, []⟩ (.yielded [] appended) now = some step) :
    wp step (fun r db' => (∃ e, r = .error e) ∨
      (investigationStateMachine.canTransition investigation.status .running = true ∧
        (me.kind = .child → ∃ i, db'.investigations.get me.investigationId = some i ∧ i.status = .running))) db := by
  obtain rfl := Option.some.inj hstep
  rw [wp_tryCatch, loopHead, wp_bind]
  have hdeliver := deliverPendingChildReports_still now hold
  refine wp_mono hdeliver ?_
  rintro r db₁ ⟨hstill, hold₁⟩
  obtain ⟨run₁, hrun₁, hme₁⟩ := hold₁.run
  obtain ⟨_, hrun₀, _, hstatus₁⟩ := hstill.run_some hrun₁
  obtain rfl := Option.some.inj (hrun.symm.trans hrun₀)
  have hpaused₁ : run₁.status.paused = true := by rw [hstatus₁, hpaused]
  have hinv₁ : ∃ i, db₁.investigations.get me.investigationId = some i ∧ i.status = investigation.status := by
    have h := hstill.investigation
    rw [hinv] at h
    exact Option.map_eq_some_iff.mp h
  obtain ⟨i₁, hi₁, hiStatus⟩ := hinv₁
  have hraises := pauseOnEvidence_raises hrun₁ hpaused₁ [] now
  cases r with
  | error e =>
    cases e with
    | evidenceBudgetExceeded => exact .inl hraises
    | _ => exact .inl ⟨_, rfl⟩
  | ok _ =>
    simp only [wp_bind, wp_reloadPair, hrun₁, investigationId_of_identity hme₁, hi₁, List.filter_nil, ne_eq,
      not_true_eq_false, if_false]
    rw [dispatch_paused h hpaused₁ (by rw [hiStatus, hopen])]
    refine wp_mono (resumePaused_outcome hold₁ hrun₁ hpaused₁ hi₁ [] appended now) ?_
    intro r db₂ h
    rw [hiStatus] at h
    rcases h with ⟨e, rfl⟩ | ⟨⟨s, rfl⟩, h⟩
    · exact .inl ⟨_, rfl⟩
    · exact .inr h

lemma start_open {investigationId freshId : String} {budget : AgentBudget}
    {parent : AgentRun} {rest : List AgentRun} (hinv : db.investigations.get investigationId = some investigation)
    (haccepts : investigation.status = .running ∨
      investigationStateMachine.canTransition investigation.status .running = true)
    (hparents : openParents db investigationId = parent :: rest) :
    wp (start investigationId freshId budget now) (fun r db' => r = .ok parent.agentRunId ∧
      db'.runs = db.runs ∧ ∃ i, db'.investigations.get investigationId = some i ∧ i.status = .running) db := by
  have hkey : investigation.investigationId = investigationId := db.investigations.keyed _ _ hinv
  have hopen : investigationStateMachine.isTerminal investigation.status = false := by
    revert haccepts
    cases investigation.status <;> decide
  rw [start, wp_bind, wp_getInvestigation, hinv]
  dsimp only
  rw [if_neg (by simp [hopen])]
  by_cases hrunning : investigation.status = .running
  · rw [if_neg (by simp [hrunning]), wp_bind, wp_get]
    dsimp only
    rw [hparents]
    exact ⟨rfl, rfl, _, hinv, hrunning⟩
  · have hmove := haccepts.resolve_left hrunning
    have hrow : (db.withInvestigation (investigation.moved .running now none)).investigations.get
        investigationId = some (investigation.moved .running now none) := by
      rw [← hkey]
      exact Table.get_put_self _ _
    have hparents' : openParents (db.withInvestigation (investigation.moved .running now none))
        investigationId = parent :: rest := hparents
    rw [if_pos hrunning, wp_bind, wp_transitionInvestigation, hkey, hinv]
    simp only [hmove, if_true, wp_bind, wp_get, hparents']
    exact ⟨rfl, rfl, _, hrow, rfl⟩

lemma not_resumes_of_running {h : Harness} {owner : String} {appended : Bool} {now : Time}
    (hrun : db.runs.get me.agentRunId = some run) (hme : run.identity = me) (hpaused : run.status.paused = true)
    (hinv : db.investigations.get me.investigationId = some investigation)
    (hrunning : investigation.status = .running) : ¬ Resumes h me.agentRunId owner appended now db := by
  rintro ⟨step, hstep, hresumed⟩
  have hold : Holds me [] db := ⟨⟨run, hrun, hme⟩, by simp⟩
  have hopen : investigationStateMachine.isTerminal investigation.status = false := by rw [hrunning]; rfl
  obtain ⟨⟨⟨s, hs⟩, -⟩, ⟨e, he⟩ | ⟨hlegal, -⟩⟩ := wp_and hresumed
    (stride_paused_outcome hold hrun hpaused hinv hopen hstep)
  · cases hs.symm.trans he
  · rw [hrunning] at hlegal
    cases hlegal

lemma child_not_resumes {h : Harness} {appended : Bool} {parent : AgentRun}
    (hrun : db.runs.get run.agentRunId = some run) (hkind : run.kind = .child)
    (hpaused : run.status.paused = true) (hne : parent.agentRunId ≠ run.agentRunId)
    (hsame : parent.investigationId = run.investigationId) (hparent : db.runs.get parent.agentRunId = some parent)
    (hinv : db.investigations.get run.investigationId = some investigation)
    (hopen : investigationStateMachine.isTerminal investigation.status = false)
    (hagree : investigation.status = parent.status.ofInvestigation) :
    ¬ Resumes h run.agentRunId parent.agentRunId appended now db := by
  rintro ⟨step, hstep, hresumed⟩
  have hold : Holds run.identity [] db := ⟨⟨run, hrun, rfl⟩, by simp⟩
  have hres : Resumable run.identity db ⟨run.agentRunId, .yielding, []⟩ (.yielded [] appended) :=
    ⟨hold, rfl, trivial, nofun, trivial⟩
  have hout := stride_paused_outcome hold hrun hpaused hinv hopen hstep
  obtain ⟨⟨⟨s, hs⟩, owner, i, howner, hi, hagreed⟩, hcase, hsteps, -⟩ :=
    wp_and hresumed (wp_and hout (stride_touches hstep hres))
  rcases hcase with ⟨e, he⟩ | ⟨hlegal, hrunning⟩
  · cases hs.symm.trans he
  · obtain rfl := Option.some.inj (howner.symm.trans
      ((aside_of_touches hsteps).runs parent.agentRunId parent hne hparent))
    obtain ⟨i', hi', hstatus⟩ := hrunning hkind
    rw [hsame] at hi
    obtain rfl := Option.some.inj (hi.symm.trans hi')
    rw [← hagreed] at hagree
    rw [hagree, hstatus] at hlegal
    cases hlegal

/-- No paused run is resumed: the loop that `start` enters for a paused parent run raises,
and that of a paused child run raises or parts the investigation from its parent run. -/
theorem paused_not_resumed (h : Harness) (appended : Bool) (now later : Time) (db : Database) :
    (∀ (investigationId freshId : String) (budget : AgentBudget) (parent : AgentRun) (rest : List AgentRun)
        (i : Investigation), openParents db investigationId = parent :: rest → parent.status.paused = true →
        db.investigations.get investigationId = some i →
        (i.status = .running ∨ investigationStateMachine.canTransition i.status .running = true) →
        wp (start investigationId freshId budget now) (fun r db₁ => r = .ok parent.agentRunId ∧
          ∀ db₂, Still parent.identity db₁ db₂ →
            ¬ Resumes h parent.agentRunId parent.agentRunId appended later db₂) db) ∧
      ∀ (child parent : AgentRun) (i : Investigation), db.runs.get child.agentRunId = some child →
        child.kind = .child → child.status.paused = true → parent.agentRunId ≠ child.agentRunId →
        parent.investigationId = child.investigationId → db.runs.get parent.agentRunId = some parent →
        db.investigations.get child.investigationId = some i →
        investigationStateMachine.isTerminal i.status = false → i.status = parent.status.ofInvestigation →
        wp (resumeRun child.agentRunId) (fun r db₁ => r = .ok child.agentRunId ∧
          ¬ Resumes h child.agentRunId parent.agentRunId appended later db₁) db := by
  refine ⟨?_, ?_⟩
  · intro investigationId freshId budget parent rest i hparents hpaused hi haccepts
    have hmem : parent ∈ openParents db investigationId := by
      rw [hparents]
      exact List.mem_cons_self
    have hlisted := List.mem_of_mem_filter hmem
    have hrow := get_of_mem_listAgentRuns (List.mem_of_mem_filter hlisted)
    have hinvId : parent.investigationId = investigationId := by simpa using (List.mem_filter.mp hlisted).2
    refine wp_mono (start_open hi haccepts hparents) ?_
    rintro r db₁ ⟨rfl, hruns, i₁, hi₁, hrunning⟩
    refine ⟨rfl, ?_⟩
    intro db₂ hstill
    have hrun₂ := hstill.run
    have hinv₂ := hstill.investigation
    dsimp only [AgentRun.identity] at hrun₂ hinv₂
    rw [hruns, hrow] at hrun₂
    rw [hinvId, hi₁] at hinv₂
    obtain ⟨run₂, hget, heq⟩ := Option.map_eq_some_iff.mp hrun₂
    obtain ⟨i₂, hgetInv, hstatus⟩ := Option.map_eq_some_iff.mp hinv₂
    obtain ⟨hidentity, hstatus₂⟩ := Prod.mk.inj heq
    have hpaused₂ : run₂.status.paused = true := by rw [hstatus₂, hpaused]
    have hgetInv' : db₂.investigations.get parent.identity.investigationId = some i₂ := by
      rw [show parent.identity.investigationId = investigationId from hinvId, hgetInv]
    exact @not_resumes_of_running parent.identity db₂ run₂ i₂ h _ appended later hget hidentity hpaused₂ hgetInv'
      (hstatus.trans hrunning)
  · intro child parent i hchild hkind hpaused hne hsame hparent hi hopen hagree
    rw [resumeRun, wp_bind, wp_getAgentRun, hchild]
    exact ⟨rfl, child_not_resumes hchild hkind hpaused hne hsame hparent hi hopen hagree⟩

end
def pausedInvestigation : Investigation := ⟨"inv-1", .pausedBudget, {}, {}, some .budgetRounds, some 0⟩

def pausedParent : AgentRun := ⟨"run-1", "inv-1", none, .parent, .pausedBudget, {}, {}, some .budgetRounds, [], some 0⟩

def pausedChild : AgentRun :=
  ⟨"child-1", "inv-1", some "run-1", .child, .pausedBudget, {}, {}, some .budgetRounds, [], some 0⟩

/-- An investigation whose parent run and child run ran out of their budgets. -/
def pausedDatabase : Database where
  investigations := Table.empty.put pausedInvestigation
  runs := (Table.empty.put pausedParent).put pausedChild
  investigationIds := ["inv-1"]
  runIds := ["run-1", "child-1"]

theorem paused_database_not_resumed :
    wp (start "inv-1" "run-2" {} 1) (fun r db₁ => r = .ok "run-1" ∧ ∀ db₂, Still pausedParent.identity db₁ db₂ →
        ¬ Resumes {} "run-1" "run-1" true 2 db₂) pausedDatabase ∧
      wp (resumeRun "child-1") (fun r db₁ => r = .ok "child-1" ∧
        ¬ Resumes {} "child-1" "run-1" true 2 db₁) pausedDatabase :=
  ⟨(paused_not_resumed {} true 1 2 pausedDatabase).1 "inv-1" "run-2" {} pausedParent [] pausedInvestigation
      rfl rfl rfl (.inr rfl),
    (paused_not_resumed {} true 1 2 pausedDatabase).2 pausedChild pausedParent pausedInvestigation
      rfl rfl rfl (by decide) rfl rfl rfl rfl rfl⟩

/-- The loop that `start` enters asks for the move that `start` has made already. -/
theorem paused_parent_start_raises :
    ((start "inv-1" "run-2" {} 1).exec pausedDatabase).1 = .ok "run-1" ∧
      ((stride {} ⟨"run-1", .yielding, []⟩ (.yielded [] true) 2).map fun step =>
        (step.exec ((start "inv-1" "run-2" {} 1).exec pausedDatabase).2).1.isOk) = some false ∧
      ¬ Resumes {} "run-1" "run-1" true 2 ((start "inv-1" "run-2" {} 1).exec pausedDatabase).2 := by
  refine ⟨rfl, rfl, ?_⟩
  rintro ⟨step, hstep, ⟨s, hs⟩, -⟩
  cases hstep
  cases hs

end IncidentLens.Investigations
