import IncidentLens.Investigations.Transcript

/-!
# Session memories and their validation

A compactor is shown a part of the transcript and answers with the next revision of the
session memory. The validator bounds what the answer may say.
-/
namespace IncidentLens.Investigations.Compaction
open Data

structure TranscriptMessage where
  sequence : ℕ
  message : Message
  deriving DecidableEq

abbrev MessageGroup := List TranscriptMessage

/-- A redacted recipe; `arguments` is the printed dictionary. -/
structure ReacquisitionRecipe where
  purpose : String
  toolName : String
  arguments : String
  staleSummary : String
  deriving DecidableEq

structure SessionMemory where
  memoryId : String
  agentRunId : String
  investigationId : String
  revision : ℕ
  throughRound : ℕ
  throughTranscriptSequence : ℕ := 0
  objective : String
  confirmedFacts : List String := []
  activeHypotheses : List String := []
  rejectedHypotheses : List String := []
  openQuestions : List String := []
  completedActions : List String := []
  childFindings : List String := []
  reacquisitionRecipes : List ReacquisitionRecipe := []
  immutableObservations : List String := []
  pendingActions : List String := []
  safetyState : List String := []
  evidenceIds : List String := []
  userConstraints : List String := []
  todos : List String := []
  nextActions : List String := []
  deriving DecidableEq

structure CompactionRequest where
  agentRunId : String
  investigationId : String
  throughRound : ℕ
  throughSequence : ℕ
  priorMemory : Option SessionMemory := none
  messages : List TranscriptMessage
  allowedEvidenceIds : List String := []
  deriving DecidableEq

inductive CompactionRejected
  | otherRun (found expected : String)
  | revision (found expected : ℕ)
  | notMonotonic (boundary requested : ℕ)
  | foreignEvidence (evidenceIds : List String)
  | tooLong (field : String) (width : ℕ)
  | unredacted (field : String)
  | unredactedArguments (recipe : ℕ)
  | otherInvestigation (found expected : String)
  | noCompactor
  | compactorFailed (error : String)
  | reactiveAlreadyPerformed (round : ℕ)
  deriving DecidableEq

/-- A field of a memory: one text, or one for each item. -/
inductive Texts
  | one (text : String)
  | many (texts : List String)

/-- `COMPACTION_TEXT_WIDTHS`. -/
def compactionTextWidths : List (String × ℕ × (SessionMemory → Texts)) :=
  [("objective", 4000, fun m => .one m.objective),
    ("confirmed_facts", 400, fun m => .many m.confirmedFacts),
    ("active_hypotheses", 400, fun m => .many m.activeHypotheses),
    ("rejected_hypotheses", 400, fun m => .many m.rejectedHypotheses),
    ("open_questions", 400, fun m => .many m.openQuestions),
    ("completed_actions", 240, fun m => .many m.completedActions),
    ("child_findings", 400, fun m => .many m.childFindings),
    ("immutable_observations", 400, fun m => .many m.immutableObservations),
    ("pending_actions", 240, fun m => .many m.pendingActions),
    ("safety_state", 400, fun m => .many m.safetyState),
    ("user_constraints", 240, fun m => .many m.userConstraints),
    ("todos", 1000, fun m => .many m.todos),
    ("next_actions", 240, fun m => .many m.nextActions)]

/-! ### Validation -/

section
variable (redact : String → ℕ → String)

/-- `_check_text`; `redact` is `redact_message` with its `max_length`. -/
def checkText (field : String) (width : ℕ) (value : String) : Except CompactionRejected PUnit :=
  if value.length > width then .error (.tooLong field width)
  else if redact value width ≠ value then .error (.unredacted field)
  else .ok ⟨⟩

def checkField (memory : SessionMemory) (entry : String × ℕ × (SessionMemory → Texts)) :
    Except CompactionRejected PUnit :=
  match entry.2.2 memory with
  | .one text => checkText redact entry.1 entry.2.1 text
  | .many texts => texts.zipIdx.forM fun item =>
    checkText redact (entry.1 ++ "[" ++ toString item.2 ++ "]") entry.2.1 item.1

def checkRecipe (recipe : ReacquisitionRecipe × ℕ) : Except CompactionRejected PUnit := do
  checkText redact ("reacquisition_recipes[" ++ toString recipe.2 ++ "].purpose") 1000 recipe.1.purpose
  checkText redact ("reacquisition_recipes[" ++ toString recipe.2 ++ "].stale_summary") 2000 recipe.1.staleSummary
  if redact recipe.1.arguments 8000 ≠ recipe.1.arguments then throw (.unredactedArguments recipe.2)

def expectedRevision (request : CompactionRequest) : ℕ :=
  match request.priorMemory with
  | some prior => prior.revision + 1
  | none => 1

/-- `CompactionValidator.validate`. -/
def validate (request : CompactionRequest) (memory : SessionMemory) : Except CompactionRejected SessionMemory :=
  let foreign := memory.evidenceIds.filter fun id => !request.allowedEvidenceIds.contains id
  if memory.agentRunId ≠ request.agentRunId then .error (.otherRun memory.agentRunId request.agentRunId)
  else if memory.revision ≠ expectedRevision request then
    .error (.revision memory.revision (expectedRevision request))
  else if memory.throughTranscriptSequence < max request.throughSequence 1 then
    .error (.notMonotonic memory.throughTranscriptSequence request.throughSequence)
  else if foreign ≠ [] then .error (.foreignEvidence foreign)
  else do
    memory.reacquisitionRecipes.zipIdx.forM (checkRecipe redact)
    compactionTextWidths.forM (checkField redact memory)
    pure memory

variable {redact}

lemma validate_accepted {request : CompactionRequest} {memory accepted : SessionMemory}
    (h : validate redact request memory = .ok accepted) : accepted = memory ∧
      memory.agentRunId = request.agentRunId ∧ memory.revision = expectedRevision request ∧
      request.throughSequence ≤ memory.throughTranscriptSequence ∧ 1 ≤ memory.throughTranscriptSequence ∧
      ∀ id ∈ memory.evidenceIds, id ∈ request.allowedEvidenceIds := by
  unfold validate at h
  dsimp only at h
  split_ifs at h with hrun hrevision hboundary hforeign
  cases hrecipes : memory.reacquisitionRecipes.zipIdx.forM (checkRecipe redact) with
  | error e =>
    rw [hrecipes] at h
    cases h
  | ok =>
    cases htexts : compactionTextWidths.forM (checkField redact memory) with
    | error e =>
      rw [hrecipes, htexts] at h
      cases h
    | ok =>
      rw [hrecipes, htexts] at h
      cases h
      refine ⟨rfl, not_not.mp hrun, not_not.mp hrevision, ?_, ?_, ?_⟩
      · omega
      · omega
      · intro id hid
        by_contra hmissing
        refine hforeign (List.ne_nil_of_mem (List.mem_filter.mpr ⟨hid, ?_⟩))
        simpa using hmissing

end
end IncidentLens.Investigations.Compaction
