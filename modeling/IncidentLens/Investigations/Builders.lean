import IncidentLens.Investigations.Compaction

/-!
# Concurrent builders

A deterministic compaction reads the boundary and the latest memory, covers a part of the transcript,
appends a memory, and then a boundary. Between any two of these, others compact the same run; and a
builder may be gone at any of them.
-/
namespace IncidentLens.Investigations.Compaction
open Data Effects List

inductive Builder
  | read (through : ℕ) (latestMemory : Option SessionMemory)
  | built (coverage : ℕ) (memory : SessionMemory)
  | stored (coverage revision : ℕ)
  | gone

structure Builders where
  compactions : Compactions := {}
  builders : List Builder := []

inductive BuilderMove
  | other (move : CompactionMove)
  | begin
  | cover (i : ℕ) (run : AgentRun) (fields : SessionMemory) (tailBudget : ℤ)
  | appendMemory (i : ℕ)
  | appendBoundary (i : ℕ)
  | crash (i : ℕ)

/-- `_build_memory`. -/
def buildMemory (run : AgentRun) (fields : SessionMemory) (latestMemory : Option SessionMemory) (coverage : ℕ) : SessionMemory :=
  let revision := (latestMemory.map (·.revision + 1)).getD 1
  { fields with
    memoryId := "mem-" ++ run.agentRunId ++ "-" ++ toString revision
    agentRunId := run.agentRunId
    investigationId := run.investigationId
    revision := revision
    throughRound := run.usage.rounds
    throughTranscriptSequence := coverage }

namespace Archive

/-- `append_session_memory`, or the latest memory if the revision is taken; the revision to which the boundary refers. -/
def appendMemory (a : Archive) (memory : SessionMemory) : Option (Archive × ℕ) :=
  if a.memories.any (·.revision = memory.revision) then a.latestMemory.map fun latest => (a, latest.revision)
  else some ({ a with memories := a.memories ++ [memory] }, memory.revision)

/-- `append_compact_boundary`, unless another builder was there before. -/
def appendBoundary (a : Archive) (coverage revision : ℕ) : Archive :=
  if a.boundaries.any (·.throughSequence = coverage) then a
  else { a with
    boundaries := a.boundaries ++ [⟨coverage, revision,
      "deterministic compact through transcript sequence " ++ toString coverage⟩] }

end Archive

namespace Builders

def archive (s : Builders) : Archive := s.compactions.archive

def withArchive (s : Builders) (archive : Archive) (i : ℕ) (builder : Builder) : Builders where
  compactions := { s.compactions with archive := archive }
  builders := s.builders.set i builder

/-- The coverage of a builder that read an earlier boundary; none where it raises. -/
def coverage (manager : ContextManager) (a : Archive) (through : ℕ) (tailBudget : ℤ) : Option ℕ :=
  match groupTranscript a.transcript with
  | .error _ => none
  | .ok all => some (deterministicCoverage manager
      (toolResultBudget manager.toolResultBudgetChars (replayAfter through all)) tailBudget)

def step (manager : ContextManager) (s : Builders) : BuilderMove → Option Builders
  | .other move => (s.compactions.step manager move).map fun compactions => { s with compactions := compactions }
  | .begin => some { s with builders := s.builders ++ [.read s.archive.through s.archive.latestMemory] }
  | .cover i run fields tailBudget => match s.builders[i]? with
    | some (.read through latestMemory) => match coverage manager s.archive through tailBudget with
      | none => some { s with builders := s.builders.set i .gone }
      | some coverage =>
        if coverage ≤ through then some { s with builders := s.builders.set i .gone }
        else some { s with builders := s.builders.set i (.built coverage (buildMemory run fields latestMemory coverage)) }
    | _ => none
  | .appendMemory i => match s.builders[i]? with
    | some (.built coverage memory) => match s.archive.appendMemory memory with
      | some (archive, revision) => some (s.withArchive archive i (.stored coverage revision))
      | none => some { s with builders := s.builders.set i .gone }
    | _ => none
  | .appendBoundary i => match s.builders[i]? with
    | some (.stored coverage revision) => some (s.withArchive (s.archive.appendBoundary coverage revision) i .gone)
    | _ => none
  | .crash i => some { s with builders := s.builders.set i .gone }

end Builders

def builders (manager : ContextManager) : System Builders BuilderMove := ⟨{}, Builders.step manager⟩

/-- Every boundary refers to the one memory of its revision, which covers what lies in front of it. -/
structure Archive.Covered (a : Archive) : Prop where
  unique : (a.memories.map (·.revision)).Nodup
  covered : ∀ b ∈ a.boundaries, ∃ m ∈ a.memories, m.revision = b.memoryRevision ∧
    b.throughSequence ≤ m.throughTranscriptSequence

/-- Where a revision is taken, the latest memory covers as much as the one that is not stored. -/
def WinnerCovers (s : Builders) : BuilderMove → Prop
  | .appendMemory i => ∀ coverage memory, s.builders[i]? = some (.built coverage memory) →
      (∃ m ∈ s.archive.memories, m.revision = memory.revision) →
        ∀ latest, s.archive.latestMemory = some latest → coverage ≤ latest.throughTranscriptSequence
  | _ => True

/-! ### A builder on its own -/

section
variable {manager : ContextManager} {a a' : Archive} {run : AgentRun} {fields : SessionMemory} {tailBudget : ℤ}

lemma revision_le_latest {m latest : SessionMemory} (hm : m ∈ a.memories) (hlatest : a.latestMemory = some latest) :
    m.revision ≤ latest.revision := le_of_mem_argmax hm hlatest

lemma next_revision_free : ∀ m ∈ a.memories, m.revision ≠ (a.latestMemory.map (·.revision + 1)).getD 1 := by
  intro m hm
  cases hlatest : a.latestMemory with
  | none =>
    rw [Archive.latestMemory, argmax_eq_none] at hlatest
    rw [hlatest] at hm
    cases hm
  | some latest =>
    have hle := revision_le_latest hm hlatest
    simp only [Option.map_some, Option.getD_some]
    omega

lemma appendMemory_buildMemory (a : Archive) (run : AgentRun) (fields : SessionMemory) (coverage : ℕ) :
    a.appendMemory (buildMemory run fields a.latestMemory coverage) =
      some ({ a with memories := a.memories ++ [buildMemory run fields a.latestMemory coverage] },
        (a.latestMemory.map (·.revision + 1)).getD 1) := by
  have hfree : a.memories.any (fun m => decide (m.revision = (a.latestMemory.map (·.revision + 1)).getD 1)) = false := by
    rw [any_eq_false]
    intro m hm
    simpa using next_revision_free m hm
  rw [Archive.appendMemory, buildMemory]
  simp only [hfree, Bool.false_eq_true, if_false]

lemma appendBoundary_transcript (a : Archive) (coverage revision : ℕ) :
    (a.appendBoundary coverage revision).transcript = a.transcript := by
  unfold Archive.appendBoundary
  split_ifs
  · rfl
  · rfl

/-! ### Boundaries and memories -/

lemma Archive.Covered.grow {memories : List SessionMemory} {boundaries : List CompactBoundary} (h : a.Covered)
    (hmemories : a'.memories = a.memories ++ memories) (hboundaries : a'.boundaries = a.boundaries ++ boundaries)
    (hunique : (a'.memories.map (·.revision)).Nodup) (hnew : ∀ b ∈ boundaries, ∃ m ∈ a'.memories,
      m.revision = b.memoryRevision ∧ b.throughSequence ≤ m.throughTranscriptSequence) : a'.Covered := by
  refine ⟨hunique, fun b hb => ?_⟩
  rw [hboundaries] at hb
  rcases mem_append.mp hb with hold | hb
  · obtain ⟨m, hm, hrevision, hcovers⟩ := h.covered b hold
    exact ⟨m, hmemories ▸ mem_append_left _ hm, hrevision, hcovers⟩
  · exact hnew b hb

lemma Archive.Covered.same (h : a.Covered) (hmemories : a'.memories = a.memories)
    (hboundaries : a'.boundaries = a.boundaries) : a'.Covered := by
  refine ⟨hmemories ▸ h.unique, ?_⟩
  rw [hmemories, hboundaries]
  exact h.covered

lemma Archive.Covered.add {memory : SessionMemory} {boundaries : List CompactBoundary} (h : a.Covered)
    (hfree : ∀ m ∈ a.memories, m.revision ≠ memory.revision)
    (hmemories : a'.memories = a.memories ++ [memory]) (hboundaries : a'.boundaries = a.boundaries ++ boundaries)
    (hnew : ∀ b ∈ boundaries, b.memoryRevision = memory.revision ∧ b.throughSequence ≤ memory.throughTranscriptSequence) :
    a'.Covered := by
  refine h.grow hmemories hboundaries ?_ fun b hb => ?_
  · rw [hmemories, map_append, map_singleton, ← concat_eq_append]
    refine List.Nodup.concat (fun hmem => ?_) h.unique
    obtain ⟨m, hm, hrevision⟩ := mem_map.mp hmem
    exact hfree m hm hrevision
  · obtain ⟨hrevision, hcovers⟩ := hnew b hb
    exact ⟨memory, hmemories ▸ mem_append_right _ (mem_singleton_self _), hrevision.symm, hcovers⟩

/-- What any other compaction does to the memories and boundaries of an archive. -/
inductive Grows (a a' : Archive) : Prop
  | same (hmemories : a'.memories = a.memories) (hboundaries : a'.boundaries = a.boundaries)
  | added (memory : SessionMemory) (b : CompactBoundary) (hfree : ∀ m ∈ a.memories, m.revision ≠ memory.revision)
      (hmemories : a'.memories = a.memories ++ [memory]) (hboundaries : a'.boundaries = a.boundaries ++ [b])
      (hrevision : b.memoryRevision = memory.revision) (hcovers : b.throughSequence = memory.throughTranscriptSequence)

lemma Grows.covered (hgrows : Grows a a') (h : a.Covered) : a'.Covered := by
  cases hgrows with
  | same hmemories hboundaries => exact h.same hmemories hboundaries
  | added memory b hfree hmemories hboundaries hrevision hcovers =>
    refine h.add hfree hmemories hboundaries fun other hother => ?_
    rw [mem_singleton.mp hother]
    exact ⟨hrevision, hcovers.le⟩

lemma Grows.keeps (hgrows : Grows a a') {m : SessionMemory} (hm : m ∈ a.memories) : m ∈ a'.memories := by
  cases hgrows with
  | same hmemories hboundaries => exact hmemories ▸ hm
  | added memory b hfree hmemories hboundaries hrevision hcovers => exact hmemories ▸ mem_append_left _ hm

lemma finishCompaction_grows {p : Pending} {reply : Reply} {result : Except Refusal SessionMemory}
    (h : finishCompaction manager a p reply = (a', result)) : Grows a a' := by
  cases reply with
  | circuitOpen =>
    cases h
    exact .same rfl rfl
  | rejected reason =>
    cases h
    exact .same rfl rfl
  | failed error =>
    cases h
    exact .same rfl rfl
  | memory answer =>
    simp only [finishCompaction] at h
    split at h
    · cases h
      exact .same rfl rfl
    · split_ifs at h
      · cases h
        exact .same rfl rfl
      · split at h
        · rename_i memory _ _ committed hcommit
          cases h
          unfold commitCompaction at hcommit
          split_ifs at hcommit with hmemory hboundary
          cases hcommit
          refine .added _ _ (fun m hm hrevision => hmemory ?_) rfl rfl rfl rfl
          exact any_eq_true.mpr ⟨m, hm, decide_eq_true hrevision⟩
        · cases h
          exact .same rfl rfl

lemma deterministicCompact_grows {covered : List MessageGroup}
    (h : deterministicCompact manager a run fields tailBudget = .ok (a', covered)) : Grows a a' := by
  unfold deterministicCompact at h
  cases hall : groupTranscript a.transcript with
  | error e =>
    rw [hall] at h
    cases h
  | ok all =>
    rw [hall] at h
    simp only [Except.map] at h
    split_ifs at h with hle
    · cases h
      exact .same rfl rfl
    · cases h
      exact .added _ _ next_revision_free rfl rfl rfl rfl

lemma compactions_grow {s t : Compactions} {move : CompactionMove} (h : s.step manager move = some t) :
    Grows s.archive t.archive := by
  cases move with
  | append message =>
    cases h
    exact .same rfl rfl
  | semantic run manual =>
    cases h
    unfold Compactions.start
    split <;> exact .same rfl rfl
  | reactive run keepRecentGroups =>
    cases h
    unfold Compactions.start
    split <;> exact .same rfl rfl
  | answer i reply =>
    obtain ⟨p, -, rfl⟩ := Option.map_eq_some_iff.mp h
    split
    · rename_i hfinish
      exact finishCompaction_grows hfinish
    · rename_i hfinish
      exact finishCompaction_grows hfinish
  | deterministic run fields tailBudget =>
    simp only [Compactions.step] at h
    split at h
    · rename_i hcompact
      cases h
      exact deterministicCompact_grows hcompact
    · cases h
      exact .same rfl rfl

end
/-! ### Every run -/

structure Builders.Kept (s : Builders) : Prop where
  archive : s.archive.Covered
  built : ∀ coverage memory, .built coverage memory ∈ s.builders → memory.throughTranscriptSequence = coverage
  stored : ∀ coverage revision, .stored coverage revision ∈ s.builders → ∃ m ∈ s.archive.memories,
    m.revision = revision ∧ coverage ≤ m.throughTranscriptSequence

section
variable {manager : ContextManager} {s t : Builders} {i : ℕ}

lemma Builders.Kept.idle {builders : List Builder} (h : s.Kept)
    (hbuilders : ∀ builder ∈ builders, builder ∈ s.builders ∨ builder = .gone ∨ ∃ through latest, builder = .read through latest) :
    Builders.Kept { s with builders := builders } := by
  refine ⟨h.archive, fun coverage memory hmem => ?_, fun coverage revision hmem => ?_⟩
  · rcases hbuilders _ hmem with hold | hgone | ⟨_, _, hread⟩
    · exact h.built coverage memory hold
    · cases hgone
    · cases hread
  · rcases hbuilders _ hmem with hold | hgone | ⟨_, _, hread⟩
    · exact h.stored coverage revision hold
    · cases hgone
    · cases hread

lemma Builders.Kept.lost (h : s.Kept) (i : ℕ) : Builders.Kept { s with builders := s.builders.set i .gone } :=
  h.idle fun _ hmem => (mem_or_eq_of_mem_set hmem).imp_right .inl

lemma Builders.Kept.appendMemory {coverage revision : ℕ} {memory : SessionMemory} {archive : Archive} (h : s.Kept)
    (hbuilt : s.builders[i]? = some (.built coverage memory))
    (hwinner : (∃ m ∈ s.archive.memories, m.revision = memory.revision) →
      ∀ latest, s.archive.latestMemory = some latest → coverage ≤ latest.throughTranscriptSequence)
    (happend : s.archive.appendMemory memory = some (archive, revision)) :
    (s.withArchive archive i (.stored coverage revision)).Kept := by
  have hcoverage := h.built coverage memory (mem_of_getElem? hbuilt)
  have hbuilders : ∀ builder ∈ s.builders.set i (.stored coverage revision),
      builder ∈ s.builders ∨ builder = .stored coverage revision := fun _ hmem => mem_or_eq_of_mem_set hmem
  have hkept : ∀ (hcovered : archive.Covered) (hmemories : ∀ m ∈ s.archive.memories, m ∈ archive.memories)
      (hown : ∃ m ∈ archive.memories, m.revision = revision ∧ coverage ≤ m.throughTranscriptSequence),
      (s.withArchive archive i (.stored coverage revision)).Kept := by
    intro hcovered hmemories hown
    refine ⟨hcovered, fun c m hmem => ?_, fun c r hmem => ?_⟩
    · rcases hbuilders _ hmem with hold | hnew
      · exact h.built c m hold
      · cases hnew
    · rcases hbuilders _ hmem with hold | hnew
      · obtain ⟨m, hm, hm'⟩ := h.stored c r hold
        exact ⟨m, hmemories m hm, hm'⟩
      · cases hnew
        exact hown
  unfold Archive.appendMemory at happend
  split_ifs at happend with htaken
  · -- the revision is taken: the latest memory stands in
    obtain ⟨latest, hlatest, hsame⟩ := Option.map_eq_some_iff.mp happend
    cases hsame
    obtain ⟨m, hm, hrevision⟩ := any_eq_true.mp htaken
    exact hkept h.archive (fun _ hm => hm) ⟨latest, argmax_mem (Option.mem_def.mpr hlatest), rfl,
      hwinner ⟨m, hm, of_decide_eq_true hrevision⟩ latest hlatest⟩
  · cases happend
    refine hkept ?_ (fun m hm => mem_append_left _ hm)
      ⟨memory, mem_append_right _ (mem_singleton_self _), rfl, hcoverage.ge⟩
    refine @Archive.Covered.add _ _ _ [] h.archive (fun m hm hrevision => htaken ?_) rfl (append_nil _).symm fun _ hb => ?_
    · exact any_eq_true.mpr ⟨m, hm, decide_eq_true hrevision⟩
    · cases hb

lemma Builders.Kept.appendBoundary {coverage revision : ℕ} (h : s.Kept)
    (hstored : s.builders[i]? = some (.stored coverage revision)) :
    (s.withArchive (s.archive.appendBoundary coverage revision) i .gone).Kept := by
  have hmemories : (s.archive.appendBoundary coverage revision).memories = s.archive.memories := by
    unfold Archive.appendBoundary
    split_ifs <;> rfl
  have hcovered : (s.archive.appendBoundary coverage revision).Covered := by
    obtain ⟨m, hm, hrevision, hcovers⟩ := h.stored coverage revision (mem_of_getElem? hstored)
    unfold Archive.appendBoundary
    split_ifs
    · exact h.archive
    · refine @Archive.Covered.grow _ _ [] _ h.archive (append_nil _).symm rfl h.archive.unique fun b hb => ?_
      rw [mem_singleton.mp hb]
      exact ⟨m, hm, hrevision, hcovers⟩
  have hold : ∀ builder ∈ s.builders.set i .gone, builder = .gone ∨ builder ∈ s.builders :=
    fun _ hmem => (mem_or_eq_of_mem_set hmem).symm
  refine ⟨hcovered, fun c m hmem => ?_, fun c r hmem => ?_⟩
  · rcases hold _ hmem with hgone | hmem
    · cases hgone
    · exact h.built c m hmem
  · rcases hold _ hmem with hgone | hmem
    · cases hgone
    · obtain ⟨m, hm, hm'⟩ := h.stored c r hmem
      exact ⟨m, hmemories.symm ▸ hm, hm'⟩

lemma Builders.Kept.step {move : BuilderMove} (h : s.Kept) (hgood : WinnerCovers s move)
    (hstep : s.step manager move = some t) : t.Kept := by
  cases move with
  | other move =>
    obtain ⟨compactions, hother, rfl⟩ := Option.map_eq_some_iff.mp hstep
    have hgrows := compactions_grow hother
    refine ⟨hgrows.covered h.archive, h.built, fun coverage revision hmem => ?_⟩
    obtain ⟨m, hm, hm'⟩ := h.stored coverage revision hmem
    exact ⟨m, hgrows.keeps hm, hm'⟩
  | begin =>
    cases hstep
    refine h.idle fun builder hmem => (mem_append.mp hmem).imp_right fun hnew => .inr ?_
    exact ⟨_, _, mem_singleton.mp hnew⟩
  | cover i run fields tailBudget =>
    simp only [Builders.step] at hstep
    split at hstep
    · split at hstep
      · cases hstep
        exact h.lost i
      · split_ifs at hstep
        · cases hstep
          exact h.lost i
        · cases hstep
          refine ⟨h.archive, fun c m hmem => ?_, fun c r hmem => ?_⟩
          · rcases mem_or_eq_of_mem_set hmem with hold | hnew
            · exact h.built c m hold
            · cases hnew
              rfl
          · rcases mem_or_eq_of_mem_set hmem with hold | hnew
            · exact h.stored c r hold
            · cases hnew
    · cases hstep
  | appendMemory i =>
    simp only [Builders.step] at hstep
    split at hstep
    · rename_i coverage memory hbuilt
      split at hstep
      · rename_i archive revision happend
        cases hstep
        exact h.appendMemory hbuilt (hgood coverage memory hbuilt) happend
      · cases hstep
        exact h.lost i
    · cases hstep
  | appendBoundary i =>
    simp only [Builders.step] at hstep
    split at hstep
    · rename_i hstored
      cases hstep
      exact h.appendBoundary hstored
    · cases hstep
  | crash i =>
    cases hstep
    exact h.lost i

end

/-- Over every run in which a builder that comes second is covered by the one that came first. -/
theorem boundaries_covered (manager : ContextManager) (s : Builders)
    (hs : (builders manager).Reached WinnerCovers s) : s.archive.Covered := by
  have hkept : s.Kept := by
    refine hs.invariant ?_ fun _ _ _ hkept hgood hstep => hkept.step hgood hstep
    refine ⟨⟨nodup_nil, fun _ hb => ?_⟩, fun _ _ hmem => ?_, fun _ _ hmem => ?_⟩
    · cases hb
    · cases hmem
    · cases hmem
  exact hkept.archive

def countingManager : ContextManager where
  redact text _ := text
  tokens _ := 1

def noFields : SessionMemory := { revisionThrough 0 with objective := "" }

def toolUsed (toolCallId : String) : CompactionMove := .append ⟨.assistant, [.toolUse toolCallId "read_file"]⟩

def toolSucceeded (toolCallId : String) : CompactionMove :=
  .append ⟨.user, [.toolResult { toolCallId := toolCallId, content := "ok", status := .succeeded }]⟩

/-- A builder on its own, after one that was gone between its memory and its boundary. -/
theorem crashed_builder_covered : ∃ s, (builders countingManager).runFrom {}
      [.other (toolUsed "call-1"), .other (toolSucceeded "call-1"), .begin, .cover 0 compactingRun noFields 0,
        .appendMemory 0, .crash 0, .begin, .cover 1 compactingRun noFields 0, .appendMemory 1, .appendBoundary 1] = some s ∧
    s.archive.boundaries.map (fun b => (b.throughSequence, b.memoryRevision)) = [(2, 2)] ∧ s.archive.Covered := by
  refine ⟨_, rfl, rfl, boundaries_covered countingManager _ (.next (.appendBoundary 1) (.next (.appendMemory 1)
    (.next (.cover 1 compactingRun noFields 0) (.next .begin (.next (.crash 0) (.next (.appendMemory 0)
      (.next (.cover 0 compactingRun noFields 0) (.next .begin (.next (.other (toolSucceeded "call-1"))
        (.next (.other (toolUsed "call-1")) .start trivial rfl) trivial rfl) trivial rfl) trivial rfl) ?_ rfl)
      trivial rfl) trivial rfl) trivial rfl) ?_ rfl) trivial rfl)⟩
  · rintro coverage memory - ⟨m, hm, -⟩
    cases hm
  · rintro coverage memory hbuilt ⟨m, hm, hrevision⟩
    cases hbuilt
    cases mem_singleton.mp hm
    cases hrevision

/-- Two builders read before either has stored anything, and a call comes between: the boundary of the second
refers to the memory of the first. -/
theorem boundary_beyond_memory : ∃ s, (builders countingManager).runFrom {}
      [.other (toolUsed "call-1"), .other (toolSucceeded "call-1"), .begin, .cover 0 compactingRun noFields 0,
        .other (toolUsed "call-2"), .other (toolSucceeded "call-2"), .begin, .cover 1 compactingRun noFields 0,
        .appendMemory 0, .appendMemory 1, .appendBoundary 1] = some s ∧
    s.archive.boundaries.map (fun b => (b.throughSequence, b.memoryRevision)) = [(4, 1)] ∧
    s.archive.memories.map (fun m => (m.revision, m.throughTranscriptSequence)) = [(1, 2)] ∧ ¬ s.archive.Covered := by
  refine ⟨_, rfl, rfl, rfl, fun hcovered => ?_⟩
  obtain ⟨m, hm, -, hcovers⟩ := hcovered.covered _ (mem_singleton_self _)
  cases mem_singleton.mp hm
  exact absurd hcovers (by decide)

end IncidentLens.Investigations.Compaction
