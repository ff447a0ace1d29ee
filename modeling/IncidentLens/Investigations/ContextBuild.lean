import IncidentLens.Investigations.Coverage
import IncidentLens.Investigations.MemoryFields

/-!
# Building a context

A context that is over its budget is compacted: a memory covers a part of the transcript, and what is left of
it is put into the context.
-/
namespace IncidentLens.Investigations.Compaction
open Data Effects Logs

/-! ### `build` -/

/-- The rows of a transcript, each with its date and the marks of its results. -/
structure Rows where
  row : TranscriptMessage → Context.ContextMessage
  transcript_row : ∀ m, (row m).transcript = m

/-- What the estimator counts beside the messages; `attached` is a header with its attachments. -/
structure Estimates where
  systemPrompt : Option SessionMemory → ℕ
  checkpoint : ℕ
  snapshot : ℕ
  toolSchemas : List ℕ
  header : Option SessionMemory → List ℕ
  attached : Option SessionMemory → List ℕ
  fields : SessionMemory → ℕ

structure ActiveContext where
  groups : List Context.ContextGroup
  memory : Option SessionMemory
  inputTokens : ℕ

structure BuildSetup extends ContextManager where
  policy : ContextBudgetPolicy := {}
  microCompactAfterSeconds : ℤ := 3600
  now : ℤ
  classes : CharClasses
  printed : List (String × Json) → String
  printedIds : List String → String
  rows : Rows
  estimates : Estimates
  seconds : 60 ≤ microCompactAfterSeconds := by decide

def ContextBudgetPolicy.maxInputTokens (policy : ContextBudgetPolicy) : ℤ :=
  policy.contextWindow - policy.maxOutputTokens - policy.reserveTokens

namespace BuildSetup
variable (setup : BuildSetup)

/-- What `_deterministic_coverage` counts. -/
def counted (latestMemory : Option SessionMemory) (fields : SessionMemory) : CountedTokens where
  systemPrompt := setup.estimates.systemPrompt latestMemory
  checkpoint := setup.estimates.checkpoint
  snapshot := setup.estimates.snapshot
  toolSchemas := setup.estimates.toolSchemas
  header := setup.estimates.header latestMemory
  memoryFields := setup.estimates.fields fields

/-- The context of groups and a memory, with its `_estimate_budget`. -/
def activeContext (memory : Option SessionMemory) (groups : List Context.ContextGroup) : ActiveContext where
  groups := groups
  memory := memory
  inputTokens := setup.estimates.systemPrompt memory + setup.estimates.checkpoint + setup.estimates.snapshot +
    setup.estimates.toolSchemas.sum + (setup.estimates.attached memory).sum +
    (groups.flatten.map fun m => setup.tokens m.transcript).sum

/-- The groups behind a boundary, with their rows. -/
def grouped (a : Archive) : Except BuildError (List Context.ContextGroup) :=
  match groupTranscript a.transcript with
  | .error e => .error (.unpaired e)
  | .ok all => .ok (Context.toolResultBudget setup.toolResultBudgetChars
      ((replayAfter a.through all).map (List.map setup.rows.row)))

/-- `_materialize`. -/
def materialize (a : Archive) (memory : Option SessionMemory) : Except BuildError ActiveContext :=
  (setup.grouped a).map (setup.activeContext memory)

/-- `_trim_to_budget`. -/
def trimToBudget (a : Archive) (memory : Option SessionMemory) : Except BuildError ActiveContext := do
  let groups ← setup.grouped a
  match Context.microCompact setup.printedIds setup.now setup.microCompactAfterSeconds groups with
  | none => throw .valueError
  | some groups => pure (setup.activeContext memory groups)

/-- `_compact`. -/
def compact (a : Archive) (run : ReasoningRun) (state : RunState) : Except BuildError (Archive × Option SessionMemory) :=
  match groupTranscript a.transcript with
  | .error e => .error (.unpaired e)
  | .ok all => do
    let groups := toolResultBudget setup.toolResultBudgetChars (replayAfter a.through all)
    let fields ← memoryFields setup.classes setup.printed run state
    let coverage := deterministicCoverage setup.toContextManager groups
      (setup.policy.tailBudget (setup.counted a.latestMemory fields))
    if coverage ≤ a.through then pure (a, a.latestMemory)
    else
      let memory ← checkedMemory (buildMemory run.toAgentRun fields a.latestMemory coverage)
      match a.appendMemory memory with
      | none => throw .memoryConflict
      | some (stored, revision) =>
        pure (stored.appendBoundary coverage revision, stored.memories.find? fun m => m.revision = revision)

/-- `build`. -/
def build (a : Archive) (run : ReasoningRun) (state : RunState) : Except BuildError (Archive × ActiveContext) := do
  let active ← setup.materialize a a.latestMemory
  if active.inputTokens ≤ setup.policy.maxInputTokens then return (a, active)
  let (compacted, memory) ← setup.compact a run state
  let active ← setup.materialize compacted memory
  if setup.policy.maxInputTokens < active.inputTokens ∧ memory ≠ none then
    return (compacted, ← setup.trimToBudget compacted memory)
  return (compacted, active)

end BuildSetup

/-! ### Where a context is compacted -/

/-- The transcript of a run in the order of its sequences. -/
structure StoredArchive extends Archive where
  positive : ∀ m ∈ transcript, 1 ≤ m.sequence
  increasing : transcript.Pairwise fun m m' => m.sequence < m'.sequence

/-- Every hypothesis is in the field of its status, and in no other. -/
structure ListsHypotheses (classes : CharClasses) (run : ReasoningRun) (memory : SessionMemory) : Prop where
  confirmed : ∀ h ∈ run.hypotheses, h.status = .confirmed → ∀ fact ∈ h.facts, clean classes 400 fact ∈ memory.confirmedFacts
  active : ∀ h ∈ run.hypotheses,
    clean classes 400 h.summary ∈ memory.activeHypotheses ↔ h.status = .proposed ∨ h.status = .active
  rejected : ∀ h ∈ run.hypotheses, clean classes 400 h.summary ∈ memory.rejectedHypotheses ↔ h.status = .refuted

namespace BuildSetup
variable (setup : BuildSetup) (a : StoredArchive) (run : ReasoningRun) (state : RunState)

/-- There is an end of a group in front of the protected ones behind which everything fits. -/
def SomethingFits : Prop := ∀ all, groupTranscript a.transcript = .ok all →
  ∃ sequence, CoverableEnd (toolResultBudget setup.toolResultBudgetChars (replayAfter a.through all)) sequence ∧
    Fits setup.toContextManager (toolResultBudget setup.toolResultBudgetChars (replayAfter a.through all))
      (setup.policy.tailBudget (setup.counted a.latestMemory (plainFields setup.classes setup.printed run state))) sequence

/-- There are no hypotheses, and no text that a memory needs is blank. -/
structure Compactable : Prop where
  hypotheses : run.hypotheses = []
  summaries : ∀ call ∈ state.toolCalls, reproducible call = true → ¬ Blank (staleSummary run call)
  covering : setup.SomethingFits a run state → ¬ Blank (objectiveOf state) ∧ ∀ id ∈ namedEvidence run, ¬ Blank id

/-- The context of the run is over its budget. -/
def OverBudget : Prop := ∃ active, setup.materialize a.toArchive a.latestMemory = .ok active ∧
  setup.policy.maxInputTokens < active.inputTokens

lemma lt_coverage_iff {all : List MessageGroup} (hall : groupTranscript a.transcript = .ok all) :
    a.through < deterministicCoverage setup.toContextManager
        (toolResultBudget setup.toolResultBudgetChars (replayAfter a.through all))
        (setup.policy.tailBudget (setup.counted a.latestMemory (plainFields setup.classes setup.printed run state))) ↔
      setup.SomethingFits a run state := by
  have hbehind : ∀ group ∈ toolResultBudget setup.toolResultBudgetChars (replayAfter a.through all),
      a.through < maxSequence group := by
    intro group hgroup
    obtain ⟨replayed, hreplayed, rfl⟩ := List.mem_map.mp hgroup
    obtain ⟨m, hm, hlater⟩ := List.any_eq_true.mp (List.mem_filter.mp hreplayed).2
    have hmax := le_maxSequence (List.mem_map_of_mem (f := previewMessage setup.toolResultBudgetChars) hm)
    exact (of_decide_eq_true hlater).trans_le hmax
  have hiff := lt_deterministicCoverage_iff setup.toContextManager
    (GroupedTranscript.ofArchive setup.toContextManager a.toArchive hall a.positive a.increasing)
    (setup.policy.tailBudget (setup.counted a.latestMemory (plainFields setup.classes setup.printed run state))) hbehind
  refine hiff.trans ⟨fun hfits other hother => ?_, fun hfits => hfits all hall⟩
  cases hall.symm.trans hother
  exact hfits

variable {setup a run state}

/-- A transcript that can be grouped is compacted exactly where the fields can be made and a memory is valid. -/
theorem compact_completes_iff {all : List MessageGroup} (hall : groupTranscript a.transcript = .ok all) :
    (∃ result, setup.compact a.toArchive run state = .ok result) ↔ setup.Compactable a run state := by
  have hcoverage := setup.lt_coverage_iff a run state hall
  have hchecked : (¬ Blank (objectiveOf state) ∧ ∀ id ∈ namedEvidence run, ¬ Blank id) → ∀ coverage,
      checkedMemory (buildMemory run.toAgentRun (plainFields setup.classes setup.printed run state) a.latestMemory coverage) =
        .ok (buildMemory run.toAgentRun (plainFields setup.classes setup.printed run state) a.latestMemory coverage) :=
    fun hcovering coverage => (checkedMemory_eq_ok_iff setup.classes run state [] _ a.latestMemory coverage).mpr ⟨hcovering, rfl⟩
  unfold compact
  rw [hall]
  constructor
  · rintro ⟨result, hresult⟩
    obtain ⟨fields, hfields, hresult⟩ := bind_eq_ok_iff.mp hresult
    obtain ⟨hhypotheses, hsummaries, rfl⟩ := (memoryFields_eq_ok_iff _ _ _ _).mp hfields
    refine ⟨hhypotheses, hsummaries, fun hfits => ?_⟩
    dsimp only at hresult
    rw [if_neg (Nat.not_le.mpr (hcoverage.mpr hfits))] at hresult
    obtain ⟨memory, hmemory, -⟩ := bind_eq_ok_iff.mp hresult
    exact ((checkedMemory_eq_ok_iff _ _ _ _ _ _ _).mp hmemory).1
  · rintro ⟨hhypotheses, hsummaries, hcovering⟩
    have hfields := (memoryFields_eq_ok_iff setup.classes setup.printed run state).mpr ⟨hhypotheses, hsummaries, rfl⟩
    rw [hfields]
    dsimp only [bind, Except.bind]
    by_cases hfits : setup.SomethingFits a run state
    · rw [if_neg (Nat.not_le.mpr (hcoverage.mpr hfits)), hchecked (hcovering hfits) _]
      dsimp only
      rw [appendMemory_buildMemory]
      exact ⟨_, rfl⟩
    · rw [if_pos (Nat.not_lt.mp (mt hcoverage.mp hfits))]
      exact ⟨_, rfl⟩

lemma compact_transcript {a : Archive} {result : Archive × Option SessionMemory}
    (h : setup.compact a run state = .ok result) : result.1.transcript = a.transcript := by
  unfold compact at h
  cases hall : groupTranscript a.transcript with
  | error e =>
    rw [hall] at h
    cases h
  | ok all =>
    rw [hall] at h
    obtain ⟨fields, -, h⟩ := bind_eq_ok_iff.mp h
    dsimp only at h
    split_ifs at h
    · cases h
      rfl
    · obtain ⟨memory, hmemory, h⟩ := bind_eq_ok_iff.mp h
      rw [checkedMemory_eq_self hmemory, appendMemory_buildMemory] at h
      cases h
      exact appendBoundary_transcript _ _ _

lemma grouped_completes {a a' : Archive} {groups : List Context.ContextGroup} (h : setup.grouped a = .ok groups)
    (hsame : a'.transcript = a.transcript) : ∃ groups', setup.grouped a' = .ok groups' := by
  unfold grouped at h ⊢
  rw [hsame]
  cases hall : groupTranscript a.transcript with
  | error e =>
    rw [hall] at h
    cases h
  | ok all => exact ⟨_, rfl⟩

lemma trimToBudget_completes {a : Archive} {memory : Option SessionMemory} {groups : List Context.ContextGroup}
    (h : setup.grouped a = .ok groups) : ∃ active, setup.trimToBudget a memory = .ok active := by
  have hseconds := setup.seconds
  unfold trimToBudget Context.microCompact
  rw [h]
  dsimp only [bind, Except.bind]
  rw [if_neg (by omega)]
  exact ⟨_, rfl⟩

lemma build_completes_iff (hover : setup.OverBudget a) :
    (∃ result, setup.build a.toArchive run state = .ok result) ↔ setup.Compactable a run state := by
  obtain ⟨active, hactive, htokens⟩ := hover
  obtain ⟨groups, hgroups⟩ : ∃ groups, setup.grouped a.toArchive = .ok groups := by
    unfold materialize at hactive
    cases hgrouped : setup.grouped a.toArchive with
    | error e =>
      rw [hgrouped] at hactive
      cases hactive
    | ok groups => exact ⟨groups, rfl⟩
  obtain ⟨all, hall⟩ : ∃ all, groupTranscript a.transcript = .ok all := by
    unfold grouped at hgroups
    cases hall : groupTranscript a.transcript with
    | error e =>
      rw [hall] at hgroups
      cases hgroups
    | ok all => exact ⟨all, rfl⟩
  rw [← compact_completes_iff hall]
  unfold build
  rw [hactive]
  dsimp only [bind, Except.bind]
  rw [if_neg (Int.not_le.mpr htokens)]
  constructor
  · rintro ⟨result, hresult⟩
    cases hcompact : setup.compact a.toArchive run state with
    | error e =>
      rw [hcompact] at hresult
      cases hresult
    | ok compacted => exact ⟨compacted, rfl⟩
  · rintro ⟨compacted, hcompact⟩
    obtain ⟨groups', hgroups'⟩ := grouped_completes hgroups (compact_transcript hcompact)
    obtain ⟨trimmed, htrimmed⟩ := @trimToBudget_completes setup _ compacted.2 _ hgroups'
    rw [hcompact]
    dsimp only
    rw [materialize, hgroups']
    dsimp only [Except.map]
    split_ifs
    · rw [htrimmed]
      exact ⟨_, rfl⟩
    · exact ⟨_, rfl⟩

end BuildSetup

/-- Every context over its budget is compacted, and every hypothesis listed, exactly where there are no hypotheses
and no text that the memory needs is blank. -/
theorem build_faithful_iff (setup : BuildSetup) (a : StoredArchive) (run : ReasoningRun) (state : RunState)
    (hover : setup.OverBudget a) : (∃ compacted active, setup.build a.toArchive run state = .ok (compacted, active) ∧
      ∀ memory ∈ compacted.memories, memory ∈ a.memories ∨ ListsHypotheses setup.classes run memory) ↔
      setup.Compactable a run state := by
  rw [← BuildSetup.build_completes_iff hover]
  constructor
  · rintro ⟨compacted, active, hbuild, -⟩
    exact ⟨_, hbuild⟩
  · rintro ⟨⟨compacted, active⟩, hbuild⟩
    have hempty := ((BuildSetup.build_completes_iff hover).mp ⟨_, hbuild⟩).hypotheses
    refine ⟨compacted, active, hbuild, fun memory _ => .inr ?_⟩
    constructor
    · simp [hempty]
    · simp [hempty]
    · simp [hempty]

/-! ### One large message -/

def plainBlock : Block → Context.ContextBlock
  | .text content => .text content
  | .toolUse toolCallId toolName => .toolUse toolCallId toolName
  | .toolResult block => .toolResult ⟨block, false⟩

def plainRows : Rows where
  row m := ⟨m.sequence, m.message.role, m.message.blocks.map plainBlock, 0⟩
  transcript_row := by
    rintro ⟨sequence, role, blocks⟩
    have hblocks : (blocks.map plainBlock).map Context.ContextBlock.block = blocks := by
      rw [List.map_map]
      refine List.map_id'' (fun block => ?_) blocks
      cases block with
      | text content => rfl
      | toolUse toolCallId toolName => rfl
      | toolResult block => rfl
    simp [Context.ContextMessage.transcript, hblocks]

/-- A setup in which every message counts 200000 tokens, and nothing else counts. -/
def largeSetup : BuildSetup where
  redact text _ := text
  tokens _ := 200000
  now := 0
  classes := .ascii
  printed _ := "\x7b\x7d"
  printedIds _ := "[]"
  rows := plainRows
  estimates := ⟨fun _ => 0, 0, 0, [], fun _ => [], fun _ => [], fun _ => 0⟩

def largeArchive : StoredArchive where
  transcript := [⟨1, ⟨.user, [.text "GET /cart 500"]⟩⟩]
  positive := by simp
  increasing := List.pairwise_singleton _ _

def cartState : RunState where
  symptom := "checkout fails"

def cartRun : ReasoningRun where
  agentRunId := "run-1"
  investigationId := "inv-1"
  parentRunId := none
  kind := .parent
  status := .running
  budget := {}
  usage := {}

lemma large_overBudget : largeSetup.OverBudget largeArchive := ⟨_, rfl, by decide⟩

/-- Without hypotheses the run is compacted. -/
theorem cart_faithful : largeSetup.OverBudget largeArchive ∧
    ∃ compacted active, largeSetup.build largeArchive.toArchive cartRun cartState = .ok (compacted, active) ∧
      ∀ memory ∈ compacted.memories, memory ∈ largeArchive.memories ∨ ListsHypotheses largeSetup.classes cartRun memory := by
  refine ⟨large_overBudget, (build_faithful_iff largeSetup largeArchive cartRun cartState large_overBudget).mpr ?_⟩
  refine ⟨rfl, fun call hcall => absurd hcall (List.not_mem_nil), fun _ => ⟨by decide +kernel, fun id hid => ?_⟩⟩
  exact absurd hid (List.not_mem_nil)

/-- One hypothesis is enough to stop the run. -/
theorem hypothesis_not_compacted : ∃ setup a run state, BuildSetup.OverBudget setup a ∧
    ¬ ∃ compacted active, setup.build a.toArchive run state = .ok (compacted, active) ∧
      ∀ memory ∈ compacted.memories, memory ∈ a.memories ∨ ListsHypotheses setup.classes run memory := by
  refine ⟨largeSetup, largeArchive, { cartRun with hypotheses := [{ summary := "the cart service is down" }] }, cartState,
    large_overBudget, ?_⟩
  rintro ⟨compacted, active, hbuild, -⟩
  have hempty := ((BuildSetup.build_completes_iff large_overBudget).mp ⟨_, hbuild⟩).hypotheses
  cases hempty

end IncidentLens.Investigations.Compaction
