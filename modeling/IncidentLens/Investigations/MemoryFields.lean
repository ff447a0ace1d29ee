import IncidentLens.Data.Json
import IncidentLens.Data.Results
import IncidentLens.Investigations.Builders
import IncidentLens.Investigations.MicroCompact
import IncidentLens.Logs.Redaction

/-!
# The fields of a deterministic memory

The fields of a memory are made from what is stored for the run: cleaned, each text once, and the latest of
them. A memory is validated when it is built.
-/
namespace IncidentLens.Investigations.Compaction
open Data Effects Logs List

/-! ### What is stored for a run -/

inductive HypothesisStatus
  | proposed | active | confirmed | refuted | superseded
  deriving DecidableEq

def HypothesisStatus.members : Dict String HypothesisStatus :=
  [("PROPOSED", .proposed), ("ACTIVE", .active), ("CONFIRMED", .confirmed), ("REFUTED", .refuted),
    ("SUPERSEDED", .superseded)]

structure Hypothesis where
  summary : String
  facts : List String := []
  unknowns : List String := []
  status : HypothesisStatus := .proposed
  deriving DecidableEq

structure ReasoningRun extends AgentRun where
  hypotheses : List Hypothesis := []
  deriving DecidableEq

structure ConclusionRecord where
  facts : List String := []
  unknowns : List String := []

structure ToolCallRecord extends ToolCall where
  arguments : List (String × Json) := []
  finishedAt : Option Time := none

inductive TodoStatus
  | pending | inProgress | completed
  deriving DecidableEq

def TodoStatus.value : TodoStatus → String
  | pending => "pending"
  | inProgress => "in_progress"
  | completed => "completed"

structure TodoItem where
  content : String
  status : TodoStatus
  deriving DecidableEq

/-- What the store holds for a run; `taskPrompt` is that of the delegated task of a child. -/
structure RunState where
  symptom : String
  taskPrompt : Option String := none
  conclusions : List ConclusionRecord := []
  toolCalls : List ToolCallRecord := []
  todos : List TodoItem := []

inductive BuildError
  | unpaired (error : UnpairedToolMessage)
  | attributeError (name : String)
  | validationError (field : String)
  | valueError
  | memoryConflict
  deriving DecidableEq

/-! ### Texts -/

/-- `value.split()`. -/
def words (value : List Char) : List (List Char) := (value.splitOnP isWhitespace).filter fun word => word ≠ []

/-- `dict.fromkeys`: every value once, where it stands first. -/
def fromKeys {α : Type} [DecidableEq α] (values : List α) : List α := values.reverse.dedup.reverse

section
variable (classes : CharClasses)

/-- `_clean`. -/
def clean (width : ℕ) (value : String) : String :=
  String.ofList (redactMessage classes ([' '].intercalate (words value.toList)) width).messageRedacted

/-- `_bounded_unique`. -/
def boundedUnique (limit width : ℕ) (values : List String) : List String :=
  (fromKeys ((values.map (clean classes width)).filter fun value => value ≠ "")).rtake limit

def redactText (value : String) : String := String.ofList (redactMessage classes value.toList 2000).messageRedacted

mutual

/-- A value of `_redacted_arguments`. -/
def redactedArgument : Json → Json
  | .string s => .string (redactText classes s)
  | .object members => .object (redactedArguments members)
  | .array items => .array (items.map fun item => match item with
    | .string s => .string (redactText classes s)
    | item => item)
  | value => value

/-- `_redacted_arguments`. -/
def redactedArguments : List (String × Json) → List (String × Json)
  | [] => []
  | (key, value) :: members => (key, redactedArgument value) :: redactedArguments members

end

/-! ### `_memory_fields` -/

def immutableTools : List String := ["file_edit", "file_write", "docker_action", "shell_exec", "evidence_read"]

/-- The hypotheses whose status is the member `REJECTED`, which is looked up for each of them. -/
def rejectedHypotheses : List Hypothesis → Except BuildError (List String)
  | [] => .ok []
  | hypothesis :: rest => match HypothesisStatus.members.get? "REJECTED" with
    | none => .error (.attributeError "REJECTED")
    | some rejected => (rejectedHypotheses rest).map fun summaries =>
      if hypothesis.status = rejected then hypothesis.summary :: summaries else summaries

section
variable (printed : List (String × Json) → String) (run : ReasoningRun) (state : RunState)

/-- The summary of the latest evidence of a call. -/
def staleSummary (call : ToolCallRecord) : String :=
  ((run.evidence.reverse.find? fun ref => ref.operationId = call.toolCallId).map (·.summary)).getD
    ("Previously observed by " ++ call.toolName ++ "; refresh before reuse")

def reproducible (call : ToolCallRecord) : Bool :=
  call.status = .succeeded && decide (call.toolName ∈ Context.reproducibleTools)

def recipeOf (call : ToolCallRecord) : ReacquisitionRecipe where
  purpose := "Refresh current observation from " ++ call.toolName
  toolName := call.toolName
  arguments := printed (redactedArguments classes call.arguments)
  staleSummary := clean classes 2000 (staleSummary run call)

def checkedRecipe (call : ToolCallRecord) : Except BuildError ReacquisitionRecipe :=
  let recipe := recipeOf classes printed run call
  if recipe.staleSummary = "" then .error (.validationError "stale_summary") else .ok recipe

/-- The dictionary of fields, without the identity of the memory. -/
def fieldsWith (rejected : List String) (recipes : List ReacquisitionRecipe) : SessionMemory :=
  let inStatus := fun statuses : List HypothesisStatus => run.hypotheses.filter fun h => h.status ∈ statuses
  let callsWith := fun statuses : List ToolCallStatus => state.toolCalls.filter fun call => call.status ∈ statuses
  let nextActions := boundedUnique classes 16 240
    ((state.todos.filter fun item => item.status = .pending ∨ item.status = .inProgress).map (·.content))
  { memoryId := "", agentRunId := "", investigationId := "", revision := 0, throughRound := 0
    objective := clean classes 4000 ((state.taskPrompt.filter (· ≠ "")).getD state.symptom)
    confirmedFacts := boundedUnique classes 24 400
      ((inStatus [.confirmed]).flatMap (·.facts) ++ state.conclusions.flatMap (·.facts))
    activeHypotheses := boundedUnique classes 16 400 ((inStatus [.proposed, .active]).map (·.summary))
    rejectedHypotheses := boundedUnique classes 16 400 rejected
    openQuestions := boundedUnique classes 16 400
      (run.hypotheses.flatMap (·.unknowns) ++ state.conclusions.flatMap (·.unknowns))
    completedActions := boundedUnique classes 24 240
      ((state.toolCalls.filter fun call => call.finishedAt ≠ none).map fun call => call.toolName ++ ": " ++ call.status.value)
    childFindings := []
    reacquisitionRecipes := recipes.rtake 32
    immutableObservations := boundedUnique classes 32 400
      (((callsWith [.succeeded]).filter fun call => decide (call.toolName ∈ immutableTools)).flatMap fun call =>
        (run.evidence.filter fun ref => ref.operationId = call.toolCallId).map fun ref => clean classes 400 ref.summary)
    pendingActions := nextActions
    safetyState := boundedUnique classes 32 400
      ((callsWith [.waitingApproval, .failed, .uncertain]).map fun call =>
        call.toolCallId ++ " " ++ call.toolName ++ " status=" ++ call.status.value)
    evidenceIds := (fromKeys (run.evidence.map (·.evidenceId))).rtake 64
    userConstraints := boundedUnique classes 16 240 []
    todos := (state.todos.map fun item => "[" ++ item.status.value ++ "] " ++ item.content).rtake 64
    nextActions := nextActions }

def memoryFields : Except BuildError SessionMemory := do
  let rejected ← rejectedHypotheses run.hypotheses
  let recipes ← (state.toolCalls.filter reproducible).mapM (checkedRecipe classes printed run)
  pure (fieldsWith classes run state rejected recipes)

end
end

/-! ### What a memory is checked for -/

/-- The lists of a memory that are bounded, without its evidence. -/
def memoryLimits : List (String × ℕ × (SessionMemory → ℕ)) :=
  [("confirmed_facts", 64, fun m => m.confirmedFacts.length),
    ("active_hypotheses", 32, fun m => m.activeHypotheses.length),
    ("rejected_hypotheses", 32, fun m => m.rejectedHypotheses.length),
    ("open_questions", 32, fun m => m.openQuestions.length),
    ("completed_actions", 64, fun m => m.completedActions.length),
    ("child_findings", 32, fun m => m.childFindings.length),
    ("reacquisition_recipes", 32, fun m => m.reacquisitionRecipes.length),
    ("immutable_observations", 64, fun m => m.immutableObservations.length),
    ("pending_actions", 32, fun m => m.pendingActions.length),
    ("safety_state", 64, fun m => m.safetyState.length),
    ("evidence_ids", 100, fun m => m.evidenceIds.length),
    ("user_constraints", 32, fun m => m.userConstraints.length),
    ("todos", 64, fun m => m.todos.length),
    ("next_actions", 32, fun m => m.nextActions.length)]

def Blank (text : String) : Prop := ∀ c ∈ text.toList, isWhitespace c = true

instance (text : String) : Decidable (Blank text) := decidableBAll _ text.toList

def checkedMemory (memory : SessionMemory) : Except BuildError SessionMemory :=
  if memory.objective = "" ∨ 4000 < memory.objective.length then .error (.validationError "objective")
  else match memoryLimits.find? fun limit => limit.2.1 < limit.2.2 memory with
    | some limit => .error (.validationError limit.1)
    | none =>
      if (∃ id ∈ memory.evidenceIds, Blank id) ∨ ¬ memory.evidenceIds.Nodup then .error (.validationError "evidence_ids")
      else .ok memory

/-! ### What the fields hold -/

lemma words_eq_nil_iff {value : List Char} : words value = [] ↔ ∀ c ∈ value, isWhitespace c = true := by
  induction value with
  | nil => simp [words]
  | cons c value ih =>
    simp only [words, filter_eq_nil_iff, decide_eq_true_eq, not_not] at ih ⊢
    rw [splitOnP_cons_eq_if_modifyHead, forall_mem_cons]
    by_cases hspace : isWhitespace c = true
    · rw [if_pos hspace, forall_mem_cons, and_iff_right rfl, and_iff_right hspace, ih]
    · rw [if_neg hspace]
      refine iff_of_false (fun hall => ?_) fun hall => hspace hall.1
      cases hpieces : value.splitOnP isWhitespace with
      | nil => exact splitOnP_ne_nil _ _ hpieces
      | cons piece pieces =>
        rw [hpieces] at hall
        exact absurd (hall _ mem_cons_self) (cons_ne_nil _ _)

lemma intercalate_words_eq_nil_iff {value : List Char} : [' '].intercalate (words value) = [] ↔ words value = [] := by
  refine ⟨fun hnil => ?_, fun hnil => hnil ▸ rfl⟩
  cases hwords : words value with
  | nil => rfl
  | cons word rest =>
    have hword : word ≠ [] := by
      have hmem : word ∈ words value := hwords ▸ mem_cons_self
      simpa using (mem_filter.mp hmem).2
    rw [hwords] at hnil
    cases rest with
    | nil => exact absurd hnil (by rwa [intercalate_singleton])
    | cons _ _ =>
      rw [intercalate_cons_cons] at hnil
      simp only [append_eq_nil_iff] at hnil
      exact absurd hnil.1.1 hword

section
variable (classes : CharClasses)

lemma clean_eq_empty_iff {width : ℕ} (hwidth : 0 < width) (value : String) : clean classes width value = "" ↔ Blank value := by
  rw [clean, String.ofList_eq_empty_iff, messageRedacted_eq_nil_iff classes hwidth, intercalate_words_eq_nil_iff, words_eq_nil_iff, Blank]

lemma length_clean_le (width : ℕ) (value : String) : (clean classes width value).length ≤ width := by
  rw [clean, String.length_ofList]
  exact length_messageRedacted_le classes _ _

lemma length_rtake_le {α : Type} (values : List α) (limit : ℕ) : (values.rtake limit).length ≤ limit := by
  rw [rtake, length_drop]
  omega

lemma length_boundedUnique_le (limit width : ℕ) (values : List String) :
    (boundedUnique classes limit width values).length ≤ limit := length_rtake_le _ _

lemma nodup_rtake_fromKeys {α : Type} [DecidableEq α] (values : List α) (limit : ℕ) :
    ((fromKeys values).rtake limit).Nodup :=
  (nodup_reverse.mpr (nodup_dedup _)).sublist (drop_sublist _ _)

/-! ### Where the fields are made -/

lemma rejectedHypotheses_eq_ok_iff {hypotheses : List Hypothesis} {rejected : List String} :
    rejectedHypotheses hypotheses = .ok rejected ↔ hypotheses = [] ∧ rejected = [] := by
  cases hypotheses with
  | nil => simp [rejectedHypotheses, eq_comm]
  | cons hypothesis rest =>
    have hnone : HypothesisStatus.members.get? "REJECTED" = none := by decide +kernel
    simp [rejectedHypotheses, hnone]

variable (printed : List (String × Json) → String) (run : ReasoningRun) (state : RunState)

lemma mapM_checkedRecipe {calls : List ToolCallRecord} {recipes : List ReacquisitionRecipe} :
    calls.mapM (checkedRecipe classes printed run) = .ok recipes ↔
      (∀ call ∈ calls, ¬ Blank (staleSummary run call)) ∧ recipes = calls.map (recipeOf classes printed run) := by
  induction calls generalizing recipes with
  | nil => simp [pure, Except.pure, eq_comm]
  | cons call calls ih =>
    have hblank : (recipeOf classes printed run call).staleSummary = "" ↔ Blank (staleSummary run call) :=
      clean_eq_empty_iff classes (by decide) _
    rw [mapM_cons, forall_mem_cons, checkedRecipe]
    by_cases h : Blank (staleSummary run call)
    · rw [if_pos (hblank.mpr h)]
      exact iff_of_false (fun hok => by cases hok) fun hall => hall.1.1 h
    · rw [if_neg (mt hblank.mp h), and_iff_right h, map_cons]
      cases hrest : calls.mapM (checkedRecipe classes printed run) with
      | error e =>
        refine iff_of_false (fun hok => by cases hok) fun hall => ?_
        have hok : calls.mapM (checkedRecipe classes printed run) = .ok (calls.map (recipeOf classes printed run)) :=
          ih.mpr ⟨hall.1, rfl⟩
        rw [hrest] at hok
        cases hok
      | ok rest =>
        obtain ⟨hall, hrecipes⟩ := ih.mp hrest
        rw [and_iff_right hall, ← hrecipes]
        exact ⟨fun hok => (Except.ok.inj hok).symm, fun heq => congrArg Except.ok heq.symm⟩

def plainFields : SessionMemory :=
  fieldsWith classes run state [] ((state.toolCalls.filter reproducible).map (recipeOf classes printed run))

lemma memoryFields_eq_ok_iff {fields : SessionMemory} : memoryFields classes printed run state = .ok fields ↔
    run.hypotheses = [] ∧ (∀ call ∈ state.toolCalls, reproducible call = true → ¬ Blank (staleSummary run call)) ∧
      fields = plainFields classes printed run state := by
  have hcalls : (∀ call ∈ state.toolCalls.filter reproducible, ¬ Blank (staleSummary run call)) ↔
      ∀ call ∈ state.toolCalls, reproducible call = true → ¬ Blank (staleSummary run call) := by
    simp only [mem_filter, and_imp]
  rw [memoryFields, bind_eq_ok_iff, ← hcalls]
  constructor
  · rintro ⟨rejected, hrejected, hfields⟩
    obtain ⟨recipes, hrecipes, hpure⟩ := bind_eq_ok_iff.mp hfields
    obtain ⟨hempty, rfl⟩ := rejectedHypotheses_eq_ok_iff.mp hrejected
    obtain ⟨hall, rfl⟩ := (mapM_checkedRecipe classes printed run).mp hrecipes
    cases hpure
    exact ⟨hempty, hall, rfl⟩
  · rintro ⟨hempty, hall, rfl⟩
    exact ⟨[], rejectedHypotheses_eq_ok_iff.mpr ⟨hempty, rfl⟩,
      bind_eq_ok_iff.mpr ⟨_, (mapM_checkedRecipe classes printed run).mpr ⟨hall, rfl⟩, rfl⟩⟩

/-! ### Where a memory is valid -/

def objectiveOf : String := (state.taskPrompt.filter (· ≠ "")).getD state.symptom

def namedEvidence : List String := (fromKeys (run.evidence.map (·.evidenceId))).rtake 64

variable (rejected : List String) (recipes : List ReacquisitionRecipe) (latestMemory : Option SessionMemory) (coverage : ℕ)

lemma memoryLimits_find? : memoryLimits.find? (fun limit => decide (limit.2.1 < limit.2.2
    (buildMemory run.toAgentRun (fieldsWith classes run state rejected recipes) latestMemory coverage))) = none := by
  rw [find?_eq_none]
  have hunique := length_boundedUnique_le classes
  intro limit hlimit
  simp only [memoryLimits, mem_cons, not_mem_nil, or_false] at hlimit
  rw [decide_eq_true_eq, Nat.not_lt]
  rcases hlimit with rfl | rfl | rfl | rfl | rfl | rfl | rfl | rfl | rfl | rfl | rfl | rfl | rfl | rfl
  · exact (hunique 24 400 _).trans (by decide)
  · exact (hunique 16 400 _).trans (by decide)
  · exact (hunique 16 400 _).trans (by decide)
  · exact (hunique 16 400 _).trans (by decide)
  · exact (hunique 24 240 _).trans (by decide)
  · exact Nat.zero_le _
  · exact length_rtake_le _ 32
  · exact (hunique 32 400 _).trans (by decide)
  · exact (hunique 16 240 _).trans (by decide)
  · exact (hunique 32 400 _).trans (by decide)
  · exact (length_rtake_le _ 64).trans (by decide)
  · exact (hunique 16 240 _).trans (by decide)
  · exact length_rtake_le _ 64
  · exact (hunique 16 240 _).trans (by decide)

lemma checkedMemory_eq_ok_iff {memory : SessionMemory} :
    checkedMemory (buildMemory run.toAgentRun (fieldsWith classes run state rejected recipes) latestMemory coverage) = .ok memory ↔
      (¬ Blank (objectiveOf state) ∧ ∀ id ∈ namedEvidence run, ¬ Blank id) ∧
        memory = buildMemory run.toAgentRun (fieldsWith classes run state rejected recipes) latestMemory coverage := by
  have hlimits := memoryLimits_find? classes run state rejected recipes latestMemory coverage
  have hobjective : (buildMemory run.toAgentRun (fieldsWith classes run state rejected recipes) latestMemory coverage).objective =
      clean classes 4000 (objectiveOf state) := rfl
  have hevidence : (buildMemory run.toAgentRun (fieldsWith classes run state rejected recipes) latestMemory coverage).evidenceIds =
      namedEvidence run := rfl
  generalize buildMemory run.toAgentRun (fieldsWith classes run state rejected recipes) latestMemory coverage = built at *
  have hblank := clean_eq_empty_iff classes (by decide : 0 < 4000) (objectiveOf state)
  have hlength := length_clean_le classes 4000 (objectiveOf state)
  have hnodup : (namedEvidence run).Nodup := nodup_rtake_fromKeys _ 64
  rw [checkedMemory, hlimits, hobjective, hevidence]
  by_cases h : Blank (objectiveOf state)
  · rw [if_pos (.inl (hblank.mpr h))]
    exact iff_of_false (fun hok => by cases hok) fun hall => hall.1.1 h
  · rw [if_neg (not_or.mpr ⟨mt hblank.mp h, hlength.not_gt⟩), and_iff_right h]
    by_cases hids : ∃ id ∈ namedEvidence run, Blank id
    · rw [if_pos (.inl hids)]
      obtain ⟨id, hid, hidBlank⟩ := hids
      exact iff_of_false (fun hok => by cases hok) fun hall => hall.1 id hid hidBlank
    · rw [if_neg (not_or.mpr ⟨hids, not_not.mpr hnodup⟩)]
      have hall : ∀ id ∈ namedEvidence run, ¬ Blank id := fun id hid hidBlank => hids ⟨id, hid, hidBlank⟩
      rw [and_iff_right hall]
      exact ⟨fun hok => (Except.ok.inj hok).symm, fun heq => congrArg Except.ok heq.symm⟩

end

lemma checkedMemory_eq_self {memory checked : SessionMemory} (h : checkedMemory memory = .ok checked) : checked = memory := by
  unfold checkedMemory at h
  by_cases hobjective : memory.objective = "" ∨ 4000 < memory.objective.length
  · rw [if_pos hobjective] at h
    cases h
  · rw [if_neg hobjective] at h
    cases hlimits : memoryLimits.find? fun limit => decide (limit.2.1 < limit.2.2 memory) with
    | some limit =>
      rw [hlimits] at h
      cases h
    | none =>
      rw [hlimits] at h
      dsimp only at h
      split_ifs at h
      cases h
      rfl

end IncidentLens.Investigations.Compaction
