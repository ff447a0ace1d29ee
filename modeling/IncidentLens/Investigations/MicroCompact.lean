import IncidentLens.Data.Dict
import IncidentLens.Investigations.Compaction
import Mathlib.Data.List.Forall2

/-!
# Stubs and previews

Under pressure the results of old exchanges are replaced by stubs, group by group, and then every result that
is still too long by a preview.
-/
namespace IncidentLens.Investigations.Context
open Data Investigations.Compaction List

structure ResultBlock extends ToolResultBlock where
  persistedOutput : Bool := false
  deriving DecidableEq

inductive ContextBlock
  | text (text : String)
  | toolUse (toolCallId toolName : String)
  | toolResult (block : ResultBlock)
  deriving DecidableEq

structure ContextMessage where
  sequence : ℕ
  role : MessageRole
  blocks : List ContextBlock
  createdAt : ℤ
  deriving DecidableEq

abbrev ContextGroup := List ContextMessage

def ContextBlock.block : ContextBlock → Block
  | .text content => .text content
  | .toolUse toolCallId toolName => .toolUse toolCallId toolName
  | .toolResult block => .toolResult block.toToolResultBlock

def ContextMessage.transcript (m : ContextMessage) : TranscriptMessage :=
  ⟨m.sequence, ⟨m.role, m.blocks.map ContextBlock.block⟩⟩

/-- `_is_protected_group`. -/
def isProtectedGroup (group : ContextGroup) : Bool := protectedGroup (group.map ContextMessage.transcript)

/-! ### `tool_result_budget` -/

def truncationMark (maxChars : ℕ) : String :=
  "\n...[output truncated to " ++ toString maxChars ++ " chars; full content persisted in EvidenceStore]"

def cutContent (maxChars : ℕ) (content : String) : String :=
  String.ofList (content.toList.take maxChars) ++ truncationMark maxChars

def preview (maxChars : ℕ) : ContextBlock → ContextBlock
  | .toolResult block =>
    if block.content.length > maxChars then
      .toolResult { block with content := cutContent maxChars block.content, persistedOutput := true }
    else .toolResult block
  | block => block

/-- The blocks of a group are changed, and nothing else. -/
def rebuild (f : ContextBlock → ContextBlock) (group : ContextGroup) : ContextGroup :=
  group.map fun m => { m with blocks := m.blocks.map f }

def toolResultBudget (maxChars : ℕ) (groups : List ContextGroup) : List ContextGroup :=
  groups.map (rebuild (preview maxChars))

/-! ### `micro_compact` -/

/-- `_REPRODUCIBLE_TOOLS`. -/
def reproducibleTools : List String :=
  ["log_query", "container_read", "host_read", "container_list", "host_list", "container_search", "host_search",
    "container_stat", "host_stat", "registry_info", "service_info", "source_discover"]

def ContextBlock.use : ContextBlock → Option (String × String)
  | .toolUse toolCallId toolName => some (toolCallId, toolName)
  | _ => none

def ContextBlock.result : ContextBlock → Option ResultBlock
  | .toolResult block => some block
  | _ => none

def blocksOf (group : ContextGroup) : List ContextBlock := group.flatMap ContextMessage.blocks

/-- The names of the tools of a group, by the ids of their calls. -/
def toolNames (group : ContextGroup) : Dict String String :=
  ((blocksOf group).filterMap ContextBlock.use).foldl (fun names use => names.set use.1 use.2) []

section
variable (printed : List String → String) (group : ContextGroup)

/-- The text that replaces a result; `printed` is how a list of texts is written. -/
def stubContent (block : ResultBlock) : String :=
  let toolName := ((toolNames group).get? block.toolCallId).getD ""
  if toolName ∈ reproducibleTools then
    "[stale observation released; reacquire with " ++ toolName ++ "; previous evidence=" ++
      printed block.evidenceIds ++ "]"
  else
    "[immutable output persisted in EvidenceStore (" ++ toString block.content.length ++
      " chars); reload via evidence_read " ++ printed block.evidenceIds ++ " only if source is gone]"

def stub : ContextBlock → ContextBlock
  | .toolResult block =>
    .toolResult { block with content := stubContent printed group block, persistedOutput := true }
  | block => block

/-- `_stub_succeeded_result`. -/
def stubSucceededResult : ContextGroup := rebuild (stub printed group) group

/-- `_is_succeeded_tool_pair`. -/
def isSucceededToolPair : Bool :=
  ((blocksOf group).filterMap ContextBlock.result).any (fun block => block.status = .succeeded) &&
    ((blocksOf group).filterMap ContextBlock.use).length ≠ 0

def hasLargeResult : Bool := ((blocksOf group).filterMap ContextBlock.result).any fun block => block.content.length > 120

/-- The group is old enough, has succeeded and holds a large result. -/
def isStubbed (cutoff : ℤ) : Bool :=
  !isProtectedGroup group && isSucceededToolPair group && group.all (fun m => m.createdAt ≤ cutoff) && hasLargeResult group

/-- `micro_compact`; it raises for less than a minute. -/
def microCompact (now minimumAgeSeconds : ℤ) (groups : List ContextGroup) : Option (List ContextGroup) :=
  if minimumAgeSeconds < 60 then none
  else some (groups.map fun group =>
    if isStubbed group (now - minimumAgeSeconds) then stubSucceededResult printed group else group)

end

structure PressurePolicy where
  toolResultBudgetChars : ℕ := 200000
  microCompactAfterSeconds : ℤ := 3600
  chars : 10000 ≤ toolResultBudgetChars := by decide
  seconds : 60 ≤ microCompactAfterSeconds := by decide

def transform (policy : PressurePolicy) (printed : List String → String) (now : ℤ) (groups : List ContextGroup) :
    Option (List ContextGroup) :=
  (microCompact printed now policy.microCompactAfterSeconds groups).map (toolResultBudget policy.toolResultBudgetChars)

/-! ### What the transforms should keep -/

/-- All of a block but the text of a result and its mark. -/
inductive Alike : ContextBlock → ContextBlock → Prop
  | text (text : String) : Alike (.text text) (.text text)
  | toolUse (toolCallId toolName : String) : Alike (.toolUse toolCallId toolName) (.toolUse toolCallId toolName)
  | toolResult {block block' : ResultBlock} (id : block'.toolCallId = block.toolCallId)
      (status : block'.status = block.status) (evidence : block'.evidenceIds = block.evidenceIds) :
      Alike (.toolResult block) (.toolResult block')

/-- A result of at most 120 characters is as it was. -/
def KeptIfShort : ContextBlock → ContextBlock → Prop
  | .toolResult block, block' => block.content.length ≤ 120 → block' = .toolResult block
  | _, _ => True

/-- Two messages agree but for their blocks, which are related one by one. -/
structure Rewritten (R : ContextBlock → ContextBlock → Prop) (m m' : ContextMessage) : Prop where
  sequence : m'.sequence = m.sequence
  role : m'.role = m.role
  createdAt : m'.createdAt = m.createdAt
  blocks : List.Forall₂ R m.blocks m'.blocks

/-- What is promised of the groups that come out. -/
structure KeepsPromise (maxChars : ℕ) (groups out : List ContextGroup) : Prop where
  shape : List.Forall₂ (List.Forall₂ (Rewritten Alike)) groups out
  protectedGroups : List.Forall₂ (fun group group' => isProtectedGroup group = true → group' = group) groups out
  short : List.Forall₂ (List.Forall₂ (Rewritten KeptIfShort)) groups out
  bounded : ∀ group ∈ out, ∀ block, .toolResult block ∈ blocksOf group →
    block.content.length ≤ maxChars + (truncationMark maxChars).length
  settled : toolResultBudget maxChars out = out

/-- A result is short enough, or the preview of one that was not. -/
def Fitting (maxChars : ℕ) (block : ResultBlock) : Prop :=
  block.content.length ≤ maxChars ∨ block.content = cutContent maxChars block.content ∧ block.persistedOutput = true

def Stubbable (printed : List String → String) (group : ContextGroup) (block : ResultBlock) : Prop :=
  120 < block.content.length ∨ block.content = stubContent printed group block ∧ block.persistedOutput = true

/-- Protected groups hold no result that is too long, and groups that are stubbed no short one. -/
structure Unmixed (policy : PressurePolicy) (printed : List String → String) (now : ℤ) (groups : List ContextGroup) : Prop where
  fitting : ∀ group ∈ groups, isProtectedGroup group = true → ∀ block, .toolResult block ∈ blocksOf group →
    Fitting policy.toolResultBudgetChars block
  stubbable : ∀ group ∈ groups, isStubbed group (now - policy.microCompactAfterSeconds) = true →
    ∀ block, .toolResult block ∈ blocksOf group → Stubbable printed group block

/-! ### Block by block -/

section
variable {f g : ContextBlock → ContextBlock} {group : ContextGroup} {maxChars : ℕ} {block : ResultBlock} {b : ContextBlock}

lemma rebuild_rebuild (f g : ContextBlock → ContextBlock) (group : ContextGroup) :
    rebuild g (rebuild f group) = rebuild (g ∘ f) group := by
  simp [rebuild]

lemma blocksOf_rebuild (f : ContextBlock → ContextBlock) (group : ContextGroup) :
    blocksOf (rebuild f group) = (blocksOf group).map f := by
  simp [blocksOf, rebuild, flatMap_map, map_flatMap]

lemma rebuild_congr (h : ∀ b ∈ blocksOf group, f b = g b) : rebuild f group = rebuild g group := by
  refine map_congr_left fun m hm => ?_
  have hblocks : m.blocks.map f = m.blocks.map g := map_congr_left fun b hb => h b (mem_flatMap.mpr ⟨m, hm, hb⟩)
  rw [hblocks]

lemma rebuild_id (group : ContextGroup) : rebuild id group = group := by simp [rebuild]

lemma rebuild_eq_self_iff : rebuild f group = group ↔ ∀ b ∈ blocksOf group, f b = b := by
  constructor
  · intro hsame b hb
    have hblocks := congrArg blocksOf hsame
    rw [blocksOf_rebuild] at hblocks
    exact map_inj_left.mp (hblocks.trans (map_id _).symm) b hb
  · intro hsame
    exact (rebuild_congr hsame).trans (rebuild_id group)

lemma forall₂_rebuild {R : ContextBlock → ContextBlock → Prop} :
    List.Forall₂ (Rewritten R) group (rebuild f group) ↔ ∀ b ∈ blocksOf group, R b (f b) := by
  rw [rebuild, forall₂_map_right_iff, forall₂_same]
  constructor
  · intro hall b hb
    obtain ⟨m, hm, hb⟩ := mem_flatMap.mp hb
    have hblocks := (hall m hm).blocks
    rw [forall₂_map_right_iff, forall₂_same] at hblocks
    exact hblocks b hb
  · intro hall m hm
    refine ⟨rfl, rfl, rfl, ?_⟩
    rw [forall₂_map_right_iff, forall₂_same]
    exact fun b hb => hall b (mem_flatMap.mpr ⟨m, hm, hb⟩)

lemma length_cutContent_le (maxChars : ℕ) (content : String) :
    (cutContent maxChars content).length ≤ maxChars + (truncationMark maxChars).length := by
  simp [cutContent]

lemma cutContent_cutContent {content : String} (h : maxChars < content.length) :
    cutContent maxChars (cutContent maxChars content) = cutContent maxChars content := by
  have htake : (cutContent maxChars content).toList.take maxChars = content.toList.take maxChars := by
    rw [cutContent, String.toList_append, String.toList_ofList, take_append_of_le_length, take_take, Nat.min_self]
    have hcontent : maxChars ≤ content.toList.length := h.le
    simpa using hcontent
  rw [cutContent, htake]
  rfl

lemma preview_preview (maxChars : ℕ) (b : ContextBlock) : preview maxChars (preview maxChars b) = preview maxChars b := by
  cases b with
  | text content => rfl
  | toolUse toolCallId toolName => rfl
  | toolResult block =>
    simp only [preview]
    split_ifs with hlong
    · simp only [cutContent_cutContent hlong, ite_self]
    · exact if_neg hlong

lemma preview_eq_self_iff : preview maxChars (.toolResult block) = .toolResult block ↔ Fitting maxChars block := by
  simp only [preview, Fitting]
  by_cases hlong : block.content.length > maxChars
  · rw [if_pos hlong, or_iff_right (Nat.not_le.mpr hlong)]
    obtain ⟨⟨id, status, content, evidence⟩, persisted⟩ := block
    simp [eq_comm]
  · exact iff_of_true (if_neg hlong) (.inl (Nat.not_lt.mp hlong))

lemma stub_eq_self_iff {printed : List String → String} : stub printed group (.toolResult block) = .toolResult block ↔
    block.content = stubContent printed group block ∧ block.persistedOutput = true := by
  obtain ⟨⟨id, status, content, evidence⟩, persisted⟩ := block
  simp [stub, eq_comm]

lemma alike_preview (maxChars : ℕ) (b : ContextBlock) : Alike b (preview maxChars b) := by
  cases b with
  | text content => exact .text content
  | toolUse toolCallId toolName => exact .toolUse toolCallId toolName
  | toolResult block =>
    simp only [preview]
    split_ifs
    · exact .toolResult rfl rfl rfl
    · exact .toolResult rfl rfl rfl

lemma alike_stub (printed : List String → String) (group : ContextGroup) (b : ContextBlock) :
    Alike b (stub printed group b) := by
  cases b with
  | text content => exact .text content
  | toolUse toolCallId toolName => exact .toolUse toolCallId toolName
  | toolResult block => exact .toolResult rfl rfl rfl

lemma Alike.trans {b' b'' : ContextBlock} (h : Alike b b') (h' : Alike b' b'') : Alike b b'' := by
  cases h with
  | text content => exact h'
  | toolUse toolCallId toolName => exact h'
  | toolResult id status evidence =>
    cases h' with
    | toolResult id' status' evidence' => exact .toolResult (id'.trans id) (status'.trans status) (evidence'.trans evidence)

lemma length_append_pos {a : String} (b c : String) (h : 0 < a.length) : 0 < (a ++ b ++ c).length := by
  rw [String.length_append, String.length_append]
  omega

lemma eq_of_preview (h : preview maxChars b = .toolResult block) (hshort : block.content.length ≤ maxChars) :
    b = .toolResult block := by
  cases b with
  | text content => cases h
  | toolUse toolCallId toolName => cases h
  | toolResult before =>
    simp only [preview] at h
    split_ifs at h with hlong
    · cases h
      have hmark : 0 < (truncationMark maxChars).length :=
        length_append_pos _ _ (by decide +kernel : 0 < "\n...[output truncated to ".length)
      have hlength : (cutContent maxChars before.content).length = maxChars + (truncationMark maxChars).length := by
        have hcontent : maxChars ≤ before.content.toList.length := hlong.le
        simp [cutContent, hcontent]
      change (cutContent maxChars before.content).length ≤ maxChars at hshort
      omega
    · exact h

lemma length_preview_le (h : preview maxChars b = .toolResult block) :
    block.content.length ≤ maxChars + (truncationMark maxChars).length := by
  cases b with
  | text content => cases h
  | toolUse toolCallId toolName => cases h
  | toolResult before =>
    simp only [preview] at h
    split_ifs at h with hlong
    · cases h
      exact length_cutContent_le maxChars _
    · cases h
      omega

end

/-! ### Both transforms -/

section
variable (policy : PressurePolicy) (printed : List String → String) (now : ℤ)

/-- What becomes of a block of a group. -/
def finish (group : ContextGroup) (b : ContextBlock) : ContextBlock :=
  preview policy.toolResultBudgetChars
    (if isStubbed group (now - policy.microCompactAfterSeconds) then stub printed group b else b)

lemma transform_eq (groups : List ContextGroup) :
    transform policy printed now groups = some (groups.map fun group => rebuild (finish policy printed now group) group) := by
  have hseconds := policy.seconds
  rw [transform, microCompact, if_neg (by omega), Option.map_some, toolResultBudget, map_map]
  refine congrArg some (map_congr_left fun group _ => ?_)
  dsimp only [Function.comp_apply]
  by_cases hstubbed : isStubbed group (now - policy.microCompactAfterSeconds) = true
  · rw [if_pos hstubbed, stubSucceededResult, rebuild_rebuild]
    refine rebuild_congr fun b _ => ?_
    rw [finish, if_pos hstubbed]
    rfl
  · rw [if_neg hstubbed]
    refine rebuild_congr fun b _ => ?_
    rw [finish, if_neg hstubbed]

variable {policy printed now} {group : ContextGroup}

lemma alike_finish (b : ContextBlock) : Alike b (finish policy printed now group b) := by
  unfold finish
  split_ifs
  · exact (alike_stub printed group b).trans (alike_preview _ _)
  · exact alike_preview _ b

lemma finish_protected_iff (hprotected : isProtectedGroup group = true) :
    rebuild (finish policy printed now group) group = group ↔
      ∀ block, .toolResult block ∈ blocksOf group → Fitting policy.toolResultBudgetChars block := by
  have hnot : ¬ isStubbed group (now - policy.microCompactAfterSeconds) = true := by
    simp [isStubbed, hprotected]
  have hfinish : finish policy printed now group = preview policy.toolResultBudgetChars := by
    funext b
    rw [finish, if_neg hnot]
  rw [hfinish, rebuild_eq_self_iff]
  constructor
  · exact fun hall block hblock => preview_eq_self_iff.mp (hall _ hblock)
  · intro hall b hb
    cases b with
    | text content => rfl
    | toolUse toolCallId toolName => rfl
    | toolResult block => exact preview_eq_self_iff.mpr (hall block hb)

lemma finish_short_iff : (∀ b ∈ blocksOf group, KeptIfShort b (finish policy printed now group b)) ↔
    (isStubbed group (now - policy.microCompactAfterSeconds) = true →
      ∀ block, .toolResult block ∈ blocksOf group → Stubbable printed group block) := by
  have hchars := policy.chars
  have hkept : ∀ block : ResultBlock, block.content.length ≤ 120 →
      preview policy.toolResultBudgetChars (.toolResult block) = .toolResult block :=
    fun block hshort => preview_eq_self_iff.mpr (.inl (by omega))
  constructor
  · intro hall hstubbed block hblock
    refine or_iff_not_imp_left.mpr fun hshort => ?_
    have hsame : finish policy printed now group (.toolResult block) = .toolResult block :=
      hall _ hblock (Nat.not_lt.mp hshort)
    rw [finish, if_pos hstubbed] at hsame
    exact stub_eq_self_iff.mp (eq_of_preview hsame (by omega))
  · intro hall b hb
    cases b with
    | text content => exact trivial
    | toolUse toolCallId toolName => exact trivial
    | toolResult block =>
      intro hshort
      by_cases hstubbed : isStubbed group (now - policy.microCompactAfterSeconds) = true
      · rw [finish, if_pos hstubbed, stub_eq_self_iff.mpr ((hall hstubbed block hb).resolve_left (by omega))]
        exact hkept block hshort
      · rw [finish, if_neg hstubbed]
        exact hkept block hshort

lemma forall₂_out {R : ContextBlock → ContextBlock → Prop} {groups : List ContextGroup} :
    List.Forall₂ (List.Forall₂ (Rewritten R)) groups
        (groups.map fun group => rebuild (finish policy printed now group) group) ↔
      ∀ group ∈ groups, ∀ b ∈ blocksOf group, R b (finish policy printed now group b) := by
  rw [forall₂_map_right_iff, forall₂_same]
  exact forall₂_congr fun group _ => forall₂_rebuild

lemma keepsPromise_out_iff (groups : List ContextGroup) : KeepsPromise policy.toolResultBudgetChars groups
        (groups.map fun group => rebuild (finish policy printed now group) group) ↔
      Unmixed policy printed now groups := by
  constructor
  · intro hkeeps
    constructor
    · intro group hgroup hprotected
      have hprotectedGroups := hkeeps.protectedGroups
      rw [forall₂_map_right_iff, forall₂_same] at hprotectedGroups
      exact (finish_protected_iff hprotected).mp (hprotectedGroups group hgroup hprotected)
    · intro group hgroup
      exact finish_short_iff.mp (forall₂_out.mp hkeeps.short group hgroup)
  · intro hunmixed
    refine ⟨forall₂_out.mpr fun group _ b _ => alike_finish b, ?_, ?_, ?_, ?_⟩
    · rw [forall₂_map_right_iff, forall₂_same]
      exact fun group hgroup hprotected => (finish_protected_iff hprotected).mpr (hunmixed.fitting group hgroup hprotected)
    · exact forall₂_out.mpr fun group hgroup => finish_short_iff.mpr (hunmixed.stubbable group hgroup)
    · intro group' hgroup' block hblock
      obtain ⟨group, -, rfl⟩ := mem_map.mp hgroup'
      rw [blocksOf_rebuild] at hblock
      obtain ⟨b, -, hfinished⟩ := mem_map.mp hblock
      exact length_preview_le hfinished
    · rw [toolResultBudget, map_map]
      refine map_congr_left fun group _ => ?_
      rw [Function.comp_apply, rebuild_rebuild]
      exact rebuild_congr fun b _ => preview_preview _ _

end

/-- The transforms keep what they promise exactly where no protected group holds a result that is too long
and no group that is stubbed holds a short one. -/
theorem transform_keepsPromise_iff (policy : PressurePolicy) (printed : List String → String) (now : ℤ)
    (groups : List ContextGroup) : ∃ out, transform policy printed now groups = some out ∧
      (KeepsPromise policy.toolResultBudgetChars groups out ↔ Unmixed policy printed now groups) :=
  ⟨_, transform_eq policy printed now groups, keepsPromise_out_iff groups⟩

/-! ### A group with two results -/

def bracketed (ids : List String) : String := "[" ++ ", ".intercalate ids ++ "]"

def largeResult : ResultBlock := ⟨⟨"call-1", .succeeded, String.ofList (replicate 121 'x'), ["ev-1"]⟩, false⟩

def shortResult : ResultBlock := ⟨⟨"call-2", .succeeded, "PORT=8080", ["ev-2"]⟩, false⟩

/-- Two calls of one turn, with a large result and a short one. -/
def mixedGroup : ContextGroup :=
  [⟨1, .assistant, [.toolUse "call-1" "host_read", .toolUse "call-2" "shell_exec"], 0⟩,
    ⟨2, .user, [.toolResult largeResult, .toolResult shortResult], 0⟩]

/-- The short result is replaced together with the large one. -/
theorem short_result_stubbed : ∃ out, transform {} bracketed 3600 [mixedGroup] = some out ∧ ¬ KeepsPromise 200000 [mixedGroup] out := by
  refine ⟨_, transform_eq {} bracketed 3600 [mixedGroup], fun hkeeps => ?_⟩
  have hunmixed : Unmixed {} bracketed 3600 [mixedGroup] := (keepsPromise_out_iff [mixedGroup]).mp hkeeps
  have hstubbed : isStubbed mixedGroup (3600 - 3600) = true := by decide +kernel
  have hshort := hunmixed.stubbable mixedGroup mem_cons_self hstubbed shortResult (by decide)
  rcases hshort with hlong | ⟨-, hmarked⟩
  · exact absurd hlong (by decide)
  · cases hmarked

end IncidentLens.Investigations.Context
