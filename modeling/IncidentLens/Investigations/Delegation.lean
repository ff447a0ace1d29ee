import IncidentLens.Investigations.Orchestrator
import IncidentLens.Investigations.Scope

/-!
# Delegation

A delegation is validated against the parent run, the investigation and the project registry.
The budget of the child fits into what is left of the parent's. Its scope is compared with the
parent's, except that the container paths of a host run are not: a child may name container
paths that its parent is kept out of.
-/
namespace IncidentLens.Investigations
open Data Logs AgentBudget

structure ScopedRun extends AgentRun where
  scope : AgentScope

structure ScopedInvestigation extends Investigation where
  projectId : String
  targetId : String

structure ScopedPackage extends DelegatedTaskPackage where
  scope : AgentScope

structure DelegationSpec where
  childRunId : String
  taskPrompt : String := ""
  scope : AgentScope
  evidenceIds : List String := []
  budget : Option AgentBudget := none
  hostPathsSpecified : Bool := true
  containerPathsSpecified : Bool := true

/-! ### Scopes -/

/-- `_scope_within`. -/
def scopeWithin (child parent : AgentScope) : Verdict :=
  if child.projectId ≠ parent.projectId then (false, "child scope project must match the run")
  else if child.targetId ≠ parent.targetId then (false, "child scope target must match the run")
  else match parent.scope, child.scope with
    | .container, .host => (false, "a container run may only delegate container-scoped children")
    | .container, .container =>
      if child.serviceName ≠ parent.serviceName then (false, "child scope service must match the run")
      else if child.containerName ≠ parent.containerName then (false, "child scope container must match the run")
      else if !pathsSubset child.allowedContainerPaths parent.allowedContainerPaths then
        (false, "child container paths must be within the run's allowed paths")
      else (true, "child scope is within the run scope")
    | .host, .host =>
      if !pathsSubset child.allowedHostPaths parent.allowedHostPaths then
        (false, "child host paths must be within the run's allowed paths")
      else (true, "child scope is within the run scope")
    | .host, .container => (true, "child scope is within the run scope")

/-- `_inherit_scope_paths`. -/
def inheritScopePaths (parent : AgentScope) (spec : DelegationSpec) : AgentScope :=
  if spec.scope.scope = parent.scope then
    { spec.scope with
      allowedHostPaths :=
        if !spec.hostPathsSpecified && parent.allowedHostPaths ≠ [] then parent.allowedHostPaths
        else spec.scope.allowedHostPaths
      allowedContainerPaths :=
        if !spec.containerPathsSpecified && parent.allowedContainerPaths ≠ [] then parent.allowedContainerPaths
        else spec.scope.allowedContainerPaths }
  else spec.scope

/-- The services of the registered projects. -/
abbrev Projects := String → Option (List ServiceRegistration)

def reject (reason : String) : DelegationRejected := ⟨reason, .invalid⟩

/-- `_validate_registered_scope`. -/
def validateRegisteredScope (projects : Projects) (parent child : AgentScope) : Except DelegationRejected Unit :=
  let verdict := scopeWithin child parent
  if verdict.1 = false then .error (reject verdict.2)
  else if child.scope = .host then .ok ⟨⟩
  else match projects child.projectId with
    | none => .error (reject ("child project '" ++ child.projectId ++ "' is not a registered project"))
    | some services =>
      match services.find? fun svc => some svc.composeService = child.serviceName with
      | none => .error (reject ("child service '" ++ child.serviceName.getD "" ++ "' is not a registered service for project '"
          ++ child.projectId ++ "'"))
      | some service =>
        if !(child.containerName.any fun name => service.containerNames.contains name) then
          .error (reject ("child container '" ++ child.containerName.getD ""
            ++ "' is not a registered container for service '" ++ service.composeService ++ "'"))
        else if service.allowedContainerPaths = [] || child.allowedContainerPaths = [] ||
            child.allowedContainerPaths.any fun childPath =>
              !service.allowedContainerPaths.any fun registeredRoot => childPath.isRelativeTo registeredRoot then
          .error (reject "child container paths must be within the registered service's allowed container paths")
        else .ok ⟨⟩

/-- `_validate_evidence`. -/
def validateEvidence (parent : AgentRun) (evidenceIds : List String) : Except DelegationRejected Unit :=
  let missing := evidenceIds.filter fun id => !(parent.evidence.map EvidenceReference.evidenceId).contains id
  if missing ≠ [] then
    .error (reject ("child delegation cites evidence not owned by this run: ['"
      ++ "', '".intercalate (missing.dedup.mergeSort fun a b => (compare a b).isLE) ++ "']"))
  else .ok ⟨⟩

/-! ### Budgets -/

inductive BudgetAxis
  | rounds | toolCalls | wallClockSeconds | outputBytesPerTool | totalOutputBytes | evidence | noNewEvidenceRounds
  deriving DecidableEq

namespace BudgetAxis

/-- `AgentBudget.model_fields`. -/
def all : List BudgetAxis :=
  [rounds, toolCalls, wallClockSeconds, outputBytesPerTool, totalOutputBytes, evidence, noNewEvidenceRounds]

def fieldName : BudgetAxis → String
  | rounds => "max_rounds"
  | toolCalls => "max_tool_calls"
  | wallClockSeconds => "max_wall_clock_seconds"
  | outputBytesPerTool => "max_output_bytes_per_tool"
  | totalOutputBytes => "max_total_output_bytes"
  | evidence => "max_evidence"
  | noNewEvidenceRounds => "max_no_new_evidence_rounds"

lemma mem_all (axis : BudgetAxis) : axis ∈ all := by cases axis <;> decide

end BudgetAxis

def AgentBudget.axis (budget : AgentBudget) : BudgetAxis → ℕ
  | .rounds => budget.maxRounds
  | .toolCalls => budget.maxToolCalls
  | .wallClockSeconds => budget.maxWallClockSeconds
  | .outputBytesPerTool => budget.maxOutputBytesPerTool
  | .totalOutputBytes => budget.maxTotalOutputBytes
  | .evidence => budget.maxEvidence
  | .noNewEvidenceRounds => budget.maxNoNewEvidenceRounds

def AgentBudget.ofAxes (value : BudgetAxis → ℕ) : AgentBudget where
  maxRounds := value .rounds
  maxToolCalls := value .toolCalls
  maxWallClockSeconds := value .wallClockSeconds
  maxOutputBytesPerTool := value .outputBytesPerTool
  maxTotalOutputBytes := value .totalOutputBytes
  maxEvidence := value .evidence
  maxNoNewEvidenceRounds := value .noNewEvidenceRounds

@[simp] lemma AgentBudget.axis_ofAxes (value : BudgetAxis → ℕ) (axis : BudgetAxis) :
    (ofAxes value).axis axis = value axis := by cases axis <;> rfl

/-- The microseconds since the run was started. -/
def elapsedMicroseconds (run : AgentRun) (now : Time) : ℤ :=
  match run.startedAt with
  | some startedAt => max 0 (now - startedAt)
  | none => 0

/-- What is left of the budget of a run; `int(…)` cuts the seconds off. -/
def remainingBudget (run : AgentRun) (now : Time) : BudgetAxis → ℤ
  | .rounds => run.budget.maxRounds - run.usage.rounds
  | .toolCalls => run.budget.maxToolCalls - run.usage.toolCalls
  | .wallClockSeconds => (run.budget.maxWallClockSeconds * 1000000 - elapsedMicroseconds run now).tdiv 1000000
  | .outputBytesPerTool => run.budget.maxOutputBytesPerTool
  | .totalOutputBytes => run.budget.maxTotalOutputBytes - run.usage.totalOutputBytes
  | .evidence => run.budget.maxEvidence - run.usage.evidenceCount
  | .noNewEvidenceRounds => run.budget.maxNoNewEvidenceRounds - run.usage.consecutiveNoNewEvidenceRounds

/-- `_bounded_budget`. -/
def boundedBudget (parent : AgentRun) (budget : Option AgentBudget) (now : Time) : Except DelegationRejected AgentBudget :=
  let remaining := remainingBudget parent now
  match BudgetAxis.all.find? fun axis => remaining axis ≤ 0 with
  | some axis => .error ⟨"child budget " ++ axis.fieldName ++ " exhausted", .budgetEnvelope⟩
  | none =>
    match budget with
    | none => .ok (.ofAxes fun axis => min (({} : AgentBudget).axis axis) (remaining axis).toNat)
    | some budget =>
      match BudgetAxis.all.find? fun axis => remaining axis < budget.axis axis with
      | some axis => .error ⟨"child " ++ axis.fieldName ++ " must not exceed the run budget; remaining run budget ("
          ++ toString (remaining axis) ++ ")", .budgetEnvelope⟩
      | none => .ok budget

/-- `DelegationValidator.prepare`. -/
def prepare (projects : Projects) (parent : ScopedRun) (investigation : ScopedInvestigation) (spec : DelegationSpec)
    (now : Time) : Except DelegationRejected ScopedPackage :=
  if parent.investigationId ≠ investigation.investigationId then
    .error (reject "delegation investigation id must match the parent run")
  else if parent.scope.projectId ≠ investigation.projectId then
    .error (reject "delegation project must match the investigation")
  else if parent.scope.targetId ≠ investigation.targetId then
    .error (reject "delegation target must match the investigation")
  else
    let verdict := canSpawnChild parent.toAgentRun investigation.toInvestigation
    if verdict.1 = false then
      .error ⟨verdict.2, if verdict.2 = "child budget exhausted" then .budgetChildren else .invalid⟩
    else do
      let scope := inheritScopePaths parent.scope spec
      validateRegisteredScope projects parent.scope scope
      validateEvidence parent.toAgentRun spec.evidenceIds
      let budget ← boundedBudget parent.toAgentRun spec.budget now
      return {
        childRunId := spec.childRunId
        parentRunId := parent.agentRunId
        investigationId := parent.investigationId
        taskPrompt := spec.taskPrompt
        evidenceIds := spec.evidenceIds
        budget := budget
        scope := scope }

/-! ### Budgets only shrink -/

lemma remaining_of_boundedBudget {parent : AgentRun} {asked : Option AgentBudget} {now : Time} {budget : AgentBudget}
    (h : boundedBudget parent asked now = .ok budget) (axis : BudgetAxis) :
    0 < remainingBudget parent now axis ∧ (budget.axis axis : ℤ) ≤ remainingBudget parent now axis := by
  unfold boundedBudget at h
  dsimp only at h
  cases hexhausted : BudgetAxis.all.find? fun axis => remainingBudget parent now axis ≤ 0 with
  | some axis => simp [hexhausted] at h
  | none =>
    have hpos : 0 < remainingBudget parent now axis := by
      have := List.find?_eq_none.mp hexhausted axis axis.mem_all
      simpa using this
    refine ⟨hpos, ?_⟩
    rw [hexhausted] at h
    cases asked with
    | none =>
      rw [← Except.ok.inj h, axis_ofAxes]
      omega
    | some asked =>
      cases hover : BudgetAxis.all.find? fun axis => remainingBudget parent now axis < asked.axis axis with
      | some axis => simp [hover] at h
      | none =>
        have hle := List.find?_eq_none.mp hover axis axis.mem_all
        simp only [hover] at h
        rw [← Except.ok.inj h]
        simpa using hle

lemma mul_le_of_le_tdiv {n q : ℤ} (hpos : 0 < n.tdiv 1000000) (h : q ≤ n.tdiv 1000000) : q * 1000000 ≤ n := by
  rcases lt_or_ge n 0 with hneg | hnonneg
  · have hdiv : n.tdiv 1000000 = -(-n / 1000000) := by
      rw [← Int.tdiv_eq_ediv_of_nonneg (by omega), Int.neg_tdiv, neg_neg]
    omega
  · rw [Int.tdiv_eq_ediv_of_nonneg hnonneg] at h
    omega

/-- Every component of the budget is at most what is left of the run's. -/
structure WithinBudget (run : AgentRun) (now : Time) (budget : AgentBudget) : Prop where
  rounds : budget.maxRounds + run.usage.rounds ≤ run.budget.maxRounds
  toolCalls : budget.maxToolCalls + run.usage.toolCalls ≤ run.budget.maxToolCalls
  wallClock : (budget.maxWallClockSeconds : ℤ) * 1000000 + elapsedMicroseconds run now ≤
    run.budget.maxWallClockSeconds * 1000000
  outputBytesPerTool : budget.maxOutputBytesPerTool ≤ run.budget.maxOutputBytesPerTool
  totalOutputBytes : budget.maxTotalOutputBytes + run.usage.totalOutputBytes ≤ run.budget.maxTotalOutputBytes
  evidence : budget.maxEvidence + run.usage.evidenceCount ≤ run.budget.maxEvidence
  noNewEvidenceRounds : budget.maxNoNewEvidenceRounds + run.usage.consecutiveNoNewEvidenceRounds ≤
    run.budget.maxNoNewEvidenceRounds

lemma withinBudget_of_boundedBudget {parent : AgentRun} {asked : Option AgentBudget} {now : Time} {budget : AgentBudget}
    (h : boundedBudget parent asked now = .ok budget) : WithinBudget parent now budget := by
  have hle : ∀ axis, (budget.axis axis : ℤ) ≤ remainingBudget parent now axis :=
    fun axis => (remaining_of_boundedBudget h axis).2
  refine ⟨?_, ?_, ?_, ?_, ?_, ?_, ?_⟩
  · have := hle .rounds
    simp only [axis, remainingBudget] at this
    omega
  · have := hle .toolCalls
    simp only [axis, remainingBudget] at this
    omega
  · have := mul_le_of_le_tdiv (remaining_of_boundedBudget h .wallClockSeconds).1 (hle .wallClockSeconds)
    simp only [axis] at this
    omega
  · have := hle .outputBytesPerTool
    simp only [axis, remainingBudget] at this
    omega
  · have := hle .totalOutputBytes
    simp only [axis, remainingBudget] at this
    omega
  · have := hle .evidence
    simp only [axis, remainingBudget] at this
    omega
  · have := hle .noNewEvidenceRounds
    simp only [axis, remainingBudget] at this
    omega

/-! ### Scopes only narrow, but for container paths under a host run -/

section Scopes
variable {child parent : AgentScope} {spec : DelegationSpec}

lemma scopeWithin_spec (h : (scopeWithin child parent).1 = true) :
    (child.projectId = parent.projectId ∧ child.targetId = parent.targetId) ∧
      (parent.scope = .container → child.scope = .container ∧ child.serviceName = parent.serviceName ∧
        child.containerName = parent.containerName ∧ pathsSubset child.allowedContainerPaths parent.allowedContainerPaths) ∧
      (parent.scope = .host → child.scope = .host → pathsSubset child.allowedHostPaths parent.allowedHostPaths) := by
  have hproject : child.projectId = parent.projectId := by
    by_contra hne
    rw [scopeWithin, if_pos hne] at h
    cases h
  have htarget : child.targetId = parent.targetId := by
    by_contra hne
    rw [scopeWithin, if_neg (not_not.mpr hproject), if_pos hne] at h
    cases h
  rw [scopeWithin, if_neg (not_not.mpr hproject), if_neg (not_not.mpr htarget)] at h
  refine ⟨⟨hproject, htarget⟩, fun hparent => ?_, fun hparent hchild => ?_⟩
  · rw [hparent] at h
    cases hchild : child.scope with
    | host =>
      rw [hchild] at h
      cases h
    | container =>
      rw [hchild] at h
      dsimp only at h
      split_ifs at h with hservice hcontainer hpaths
      exact ⟨rfl, not_not.mp hservice, not_not.mp hcontainer, by simpa using hpaths⟩
  · rw [hparent, hchild] at h
    dsimp only at h
    split_ifs at h with hpaths
    simpa using hpaths

lemma some_getD {o : Option String} (h : o.isSome) : some (o.getD "") = o := by
  cases o with
  | none => cases h
  | some s => rfl

lemma reach_subset_iff (h : (scopeWithin child parent).1 = true) : child.reach ⊆ parent.reach ↔
    parent.scope = .container ∨
      ∀ path, allows child.allowedContainerPaths path → allows parent.allowedContainerPaths path := by
  obtain ⟨⟨hproject, htarget⟩, hcontainer, hhost⟩ := scopeWithin_spec h
  constructor
  · intro hsub
    refine or_iff_not_imp_left.mpr fun hparent path hpath => ?_
    -- a service that the child owns, whatever its scope
    have hop : (⟨child.projectId, child.targetId, .container
        ⟨child.serviceName.getD "", [child.containerName.getD ""], []⟩ (child.containerName.getD "") path⟩ : RemoteOperation) ∈
        child.reach := by
      rw [container_mem_reach]
      refine ⟨⟨rfl, rfl⟩, ⟨List.mem_singleton_self _, fun hscope => ?_⟩, hpath⟩
      have hidentity := child.identity
      rw [if_pos hscope] at hidentity
      exact ⟨some_getD hidentity.2, some_getD hidentity.1⟩
    exact (container_mem_reach.mp (hsub hop)).2.2
  · intro hpaths op hop
    obtain ⟨projectId, targetId, place⟩ := op
    cases place with
    | host path =>
      obtain ⟨⟨hp, ht⟩, hscope, hallowed⟩ := host_mem_reach.mp hop
      have hparent : parent.scope = .host := by
        cases hparent : parent.scope with
        | host => rfl
        | container =>
          have := (hcontainer hparent).1
          rw [hscope] at this
          cases this
      refine host_mem_reach.mpr ⟨⟨hp.trans hproject, ht.trans htarget⟩, hparent, ?_⟩
      exact allows_of_pathsSubset (hhost hparent hscope) hallowed
    | container svc name path =>
      obtain ⟨⟨hp, ht⟩, ⟨hname, howns⟩, hallowed⟩ := container_mem_reach.mp hop
      refine container_mem_reach.mpr ⟨⟨hp.trans hproject, ht.trans htarget⟩, ⟨hname, fun hparent => ?_⟩, ?_⟩
      · obtain ⟨hchild, hservice, hcname, -⟩ := hcontainer hparent
        rw [← hservice, ← hcname]
        exact howns hchild
      · cases hpaths with
        | inl hparent => exact allows_of_pathsSubset (hcontainer hparent).2.2.2 hallowed
        | inr hpaths => exact hpaths path hallowed

end Scopes

/-- The container paths of a host run are kept: the request leaves them out for a host child,
or names none that the run may not touch. -/
def NamesNoMore (parent : AgentScope) (spec : DelegationSpec) : Prop :=
  parent.scope = .container ∨ parent.allowedContainerPaths = [] ∨
    (spec.scope.scope = .host ∧ spec.containerPathsSpecified = false) ∨
    (spec.scope.allowedContainerPaths = [] → ∀ root, SimplePath.top root ∈ parent.allowedContainerPaths) ∧
      ∀ c ∈ spec.scope.allowedContainerPaths, ∃ p ∈ parent.allowedContainerPaths, c.isRelativeTo p

lemma namesNoMore_iff {parent : AgentScope} {spec : DelegationSpec} : NamesNoMore parent spec ↔
    parent.scope = .container ∨ ∀ path, allows (inheritScopePaths parent spec).allowedContainerPaths path →
      allows parent.allowedContainerPaths path := by
  rw [NamesNoMore, allows_subset_iff]
  refine or_congr_right' fun hparent => ?_
  by_cases hbound : parent.allowedContainerPaths = []
  · simp [hbound]
  have hhost : parent.scope = .host := by
    cases hscope : parent.scope with
    | host => rfl
    | container => exact absurd hscope hparent
  by_cases hinherit : spec.scope.scope = .host ∧ spec.containerPathsSpecified = false
  · have hpaths : (inheritScopePaths parent spec).allowedContainerPaths = parent.allowedContainerPaths := by
      rw [inheritScopePaths, if_pos (hinherit.1.trans hhost.symm)]
      simp [hinherit.2, hbound]
    rw [hpaths]
    simp only [hinherit, and_self, true_or, or_true, true_iff]
    exact .inr ⟨fun h => absurd h hbound, fun c hc => ⟨c, hc, c.isRelativeTo_self⟩⟩
  · have hpaths : (inheritScopePaths parent spec).allowedContainerPaths = spec.scope.allowedContainerPaths := by
      by_cases hsame : spec.scope.scope = parent.scope
      · have hspecified : spec.containerPathsSpecified = true := by
          by_contra hno
          exact hinherit ⟨hsame.trans hhost, by simpa using hno⟩
        rw [inheritScopePaths, if_pos hsame]
        simp [hspecified]
      · rw [inheritScopePaths, if_neg hsame]
    rw [hpaths]
    simp only [hbound, hinherit, false_or]

/-! ### Accepted delegations -/

section Accepted
variable {projects : Projects} {parent : ScopedRun} {investigation : ScopedInvestigation} {spec : DelegationSpec}
  {now : Time} {package : ScopedPackage}

lemma scopeWithin_of_validate {parent child : AgentScope} {u : Unit}
    (h : validateRegisteredScope projects parent child = .ok u) : (scopeWithin child parent).1 = true := by
  unfold validateRegisteredScope at h
  dsimp only at h
  by_contra hno
  rw [if_pos (by simpa using hno)] at h
  cases h

lemma prepare_eq_ok (h : prepare projects parent investigation spec now = .ok package) : ∃ budget,
    parent.investigationId = investigation.investigationId ∧
    (canSpawnChild parent.toAgentRun investigation.toInvestigation).1 = true ∧
    validateRegisteredScope projects parent.scope (inheritScopePaths parent.scope spec) = .ok ⟨⟩ ∧
    validateEvidence parent.toAgentRun spec.evidenceIds = .ok ⟨⟩ ∧
    boundedBudget parent.toAgentRun spec.budget now = .ok budget ∧
    package = {
      childRunId := spec.childRunId
      parentRunId := parent.agentRunId
      investigationId := parent.investigationId
      taskPrompt := spec.taskPrompt
      evidenceIds := spec.evidenceIds
      budget := budget
      scope := inheritScopePaths parent.scope spec } := by
  unfold prepare at h
  split_ifs at h with hid hproject htarget
  dsimp only at h
  have hspawn : (canSpawnChild parent.toAgentRun investigation.toInvestigation).1 = true := by
    by_contra hno
    rw [if_pos (by simpa using hno)] at h
    cases h
  rw [if_neg (by simp [hspawn])] at h
  obtain ⟨_, hscope, h⟩ := bind_eq_ok_iff.mp h
  obtain ⟨_, hevidence, h⟩ := bind_eq_ok_iff.mp h
  obtain ⟨budget, hbudget, h⟩ := bind_eq_ok_iff.mp h
  exact ⟨budget, not_not.mp hid, hspawn, hscope, hevidence, hbudget, (Except.ok.inj h).symm⟩

def childOf (package : ScopedPackage) (parent : ScopedRun) : ScopedRun :=
  { buildChildRun package.toDelegatedTaskPackage parent.toAgentRun with scope := package.scope }

/-- The runs that come from a root by delegations that meet the condition; between two of them
a run goes on with its scope and its budget. -/
inductive Descends (projects : Projects) (root : ScopedRun) : ScopedRun → Prop
  | root : Descends projects root root
  | goesOn {run run' : ScopedRun} : Descends projects root run → run'.scope = run.scope → run'.budget = run.budget →
      run'.kind = run.kind → Descends projects root run'
  | delegate {parent : ScopedRun} {investigation : ScopedInvestigation} {spec : DelegationSpec} {now : Time}
      {package : ScopedPackage} : Descends projects root parent →
      prepare projects parent investigation spec now = .ok package → NamesNoMore parent.scope spec →
      Descends projects root (childOf package parent)

lemma WithinBudget.le {run : AgentRun} {budget : AgentBudget} (h : WithinBudget run now budget) (axis : BudgetAxis) :
    budget.axis axis ≤ run.budget.axis axis := by
  have helapsed : 0 ≤ elapsedMicroseconds run now := by
    unfold elapsedMicroseconds
    cases run.startedAt with
    | none => exact le_rfl
    | some startedAt => exact le_max_left _ _
  cases axis with
  | rounds => exact (Nat.le_add_right _ _).trans h.rounds
  | toolCalls => exact (Nat.le_add_right _ _).trans h.toolCalls
  | wallClockSeconds =>
    have := h.wallClock
    simp only [axis]
    omega
  | outputBytesPerTool => exact h.outputBytesPerTool
  | totalOutputBytes => exact (Nat.le_add_right _ _).trans h.totalOutputBytes
  | evidence => exact (Nat.le_add_right _ _).trans h.evidence
  | noNewEvidenceRounds => exact (Nat.le_add_right _ _).trans h.noNewEvidenceRounds

/-- An accepted delegation narrows the scope, within what is left of the budget, if and only if
it names no container paths that a host run is kept out of; and then no descendant reaches
more than the root. -/
theorem delegation_narrows_iff (projects : Projects) :
    (∀ parent investigation spec now package, prepare projects parent investigation spec now = .ok package →
      ((package.scope.reach ⊆ parent.scope.reach ∧ WithinBudget parent.toAgentRun now package.budget) ↔
        NamesNoMore parent.scope spec)) ∧ ∀ root run, Descends projects root run →
      run.scope.reach ⊆ root.scope.reach ∧ ∀ axis, run.budget.axis axis ≤ root.budget.axis axis := by
  have hstep : ∀ parent investigation spec now package, prepare projects parent investigation spec now = .ok package →
      WithinBudget parent.toAgentRun now package.budget ∧
        (package.scope.reach ⊆ parent.scope.reach ↔ NamesNoMore parent.scope spec) := by
    intro parent investigation spec now package h
    obtain ⟨budget, -, -, hscope, -, hbudget, rfl⟩ := prepare_eq_ok h
    refine ⟨withinBudget_of_boundedBudget hbudget, ?_⟩
    rw [reach_subset_iff (scopeWithin_of_validate hscope), namesNoMore_iff]
  refine ⟨fun parent investigation spec now package h => ?_, fun root run h => ?_⟩
  · obtain ⟨hbudget, hreach⟩ := hstep parent investigation spec now package h
    exact ⟨fun hnarrow => hreach.mp hnarrow.1, fun hnames => ⟨hreach.mpr hnames, hbudget⟩⟩
  · induction h with
    | root => exact ⟨subset_rfl, fun _ => le_rfl⟩
    | goesOn _ hscope hbudget _ ih =>
      rw [hscope, hbudget]
      exact ih
    | delegate _ hprepare hnames ih =>
      obtain ⟨hbudget, hreach⟩ := hstep _ _ _ _ _ hprepare
      exact ⟨(hreach.mpr hnames).trans ih.1, fun axis => (hbudget.le axis).trans (ih.2 axis)⟩

end Accepted

/-! ### A container path that the parent may not touch -/

def appPath : SimplePath := ⟨.single, ["app"], by decide⟩

def etcPath : SimplePath := ⟨.single, ["etc"], by decide⟩

/-- The container of the service `api` may be read at `/app` and `/etc`. -/
def shopProjects : Projects := fun projectId =>
  if projectId = "shop" then some [⟨"api", ["api-1"], [appPath, etcPath]⟩] else none

/-- A host run that may only work at `/app` inside containers. -/
def appRun : ScopedRun where
  agentRunId := "run-1"
  investigationId := "inv-1"
  parentRunId := none
  kind := .parent
  status := .running
  budget := {}
  usage := {}
  scope := { projectId := "shop", targetId := "web", scope := .host, allowedContainerPaths := [appPath], identity := identity_host }

def shopInvestigation : ScopedInvestigation where
  investigationId := "inv-1"
  status := .running
  budget := {}
  usage := {}
  projectId := "shop"
  targetId := "web"

def containerSpec (path : SimplePath) : DelegationSpec where
  childRunId := "run-2"
  scope := { projectId := "shop", targetId := "web", scope := .container, serviceName := some "api",
             containerName := some "api-1", allowedContainerPaths := [path], identity := identity_container "api" "api-1" }

def containerPackage (path : SimplePath) : ScopedPackage where
  childRunId := "run-2"
  parentRunId := "run-1"
  investigationId := "inv-1"
  taskPrompt := ""
  budget := {}
  scope := (containerSpec path).scope

lemma etc_accepted : prepare shopProjects appRun shopInvestigation (containerSpec etcPath) 0 =
    .ok (containerPackage etcPath) := rfl

/-- The child may read `/etc` in the container, its parent may not. -/
theorem delegation_widens :
    ¬ ∀ projects parent investigation spec now package, prepare projects parent investigation spec now = .ok package →
      package.scope.reach ⊆ parent.scope.reach := by
  intro h
  have hsub := h _ _ _ _ _ _ etc_accepted
  have hop : (⟨"shop", "web", .container ⟨"api", ["api-1"], []⟩ "api-1" etcPath⟩ : RemoteOperation) ∈
      (containerPackage etcPath).scope.reach := by
    rw [container_mem_reach]
    exact ⟨⟨rfl, rfl⟩, ⟨by decide, fun _ => ⟨rfl, rfl⟩⟩, by decide⟩
  have := (container_mem_reach.mp (hsub hop)).2.2
  revert this
  decide

/-- A child that keeps to `/app` narrows. -/
theorem app_narrows : (containerPackage appPath).scope.reach ⊆ appRun.scope.reach ∧
    WithinBudget appRun.toAgentRun 0 (containerPackage appPath).budget := by
  refine ((delegation_narrows_iff shopProjects).1 appRun shopInvestigation (containerSpec appPath) 0
    (containerPackage appPath) rfl).mpr ?_
  refine .inr (.inr (.inr ⟨fun h => absurd h (by decide), fun c hc => ⟨appPath, by decide, ?_⟩⟩))
  rw [List.mem_singleton.mp hc]
  decide

end IncidentLens.Investigations
