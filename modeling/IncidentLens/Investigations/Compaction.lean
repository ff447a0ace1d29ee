import IncidentLens.Effects.Runs
import IncidentLens.Investigations.Memory
import Mathlib

/-!
# Compaction

A compaction shows a part of the transcript to a compactor and moves the boundary behind
which messages are replayed to where the answer says it ends. While the compactor works the
transcript grows.
-/
namespace IncidentLens.Investigations.Compaction
open Data Effects List

/-! ### Groups -/

/-- `group_messages`. -/
def groupTranscript : List TranscriptMessage → Except UnpairedToolMessage (List MessageGroup)
  | [] => .ok []
  | [current] =>
    if current.message.toolIds ≠ [] then .error .noFollowingResult
    else .ok [[current]]
  | current :: following :: rest =>
    if current.message.toolIds ≠ [] then
      if sameIds following.message.resultIds current.message.toolIds = false then .error .idsDoNotMatch
      else (groupTranscript rest).map ([current, following] :: ·)
    else (groupTranscript (following :: rest)).map ([current] :: ·)

/-- The groups with a message behind a boundary. -/
def replayAfter (through : ℕ) (groups : List MessageGroup) : List MessageGroup :=
  groups.filter fun group => group.any fun m => m.sequence > through

/-- A message that uses tools and carries no results. -/
def opensTool (m : TranscriptMessage) : Bool := m.message.toolIds ≠ [] && m.message.resultIds = []

/-- `_tolerant_groups`. -/
def tolerantGroups (transcript : List TranscriptMessage) (through : ℕ) :
    Except UnpairedToolMessage (List MessageGroup) :=
  (groupTranscript (transcript.rdropWhile opensTool)).map (replayAfter through)

def previewBlock (maxChars : ℕ) : Block → Block
  | .toolResult block =>
    if block.content.length > maxChars then
      .toolResult { block with content := String.ofList (block.content.toList.take maxChars) ++
        "\n...[output truncated to " ++ toString maxChars ++ " chars; full content persisted in EvidenceStore]" }
    else .toolResult block
  | block => block

def previewMessage (maxChars : ℕ) (m : TranscriptMessage) : TranscriptMessage :=
  { m with message := { m.message with blocks := m.message.blocks.map (previewBlock maxChars) } }

def toolResultBudget (maxChars : ℕ) (groups : List MessageGroup) : List MessageGroup :=
  groups.map fun group => group.map (previewMessage maxChars)

def maxSequence (messages : List TranscriptMessage) : ℕ := (messages.map (·.sequence)).foldr max 0

section
variable {t : List TranscriptMessage} {groups : List MessageGroup} {m : TranscriptMessage}

lemma groupTranscript_flatten (h : groupTranscript t = .ok groups) : groups.flatten = t := by
  induction t using groupTranscript.induct generalizing groups with
  | case1 =>
    cases h
    rfl
  | case2 current huse =>
    rw [groupTranscript, if_pos huse] at h
    cases h
  | case3 current huse =>
    rw [groupTranscript, if_neg huse] at h
    cases h
    rfl
  | case4 current following rest huse hids =>
    rw [groupTranscript, if_pos huse, if_pos hids] at h
    cases h
  | case5 current following rest huse hids ih =>
    rw [groupTranscript, if_pos huse, if_neg hids] at h
    cases hrest : groupTranscript rest with
    | error e =>
      rw [hrest] at h
      cases h
    | ok gs =>
      rw [hrest] at h
      cases h
      rw [flatten_cons, ih hrest]
      rfl
  | case6 current following rest huse ih =>
    rw [groupTranscript, if_neg huse] at h
    cases hrest : groupTranscript (following :: rest) with
    | error e =>
      rw [hrest] at h
      cases h
    | ok gs =>
      rw [hrest] at h
      cases h
      rw [flatten_cons, ih hrest]
      rfl

lemma toolResultBudget_sequences (maxChars : ℕ) (groups : List MessageGroup) :
    (toolResultBudget maxChars groups).flatten.map (·.sequence) = groups.flatten.map (·.sequence) := by
  induction groups with
  | nil => rfl
  | cons group groups ih =>
    simp only [toolResultBudget, map_cons, flatten_cons, map_append, map_map] at ih ⊢
    rw [ih]
    rfl

lemma le_maxSequence (hm : m ∈ t) : m.sequence ≤ maxSequence t := by
  induction t with
  | nil => cases hm
  | cons x xs ih =>
    simp only [maxSequence, map_cons, foldr_cons] at ih ⊢
    rcases mem_cons.mp hm with rfl | hm
    · exact le_max_left _ _
    · exact (ih hm).trans (le_max_right _ _)

lemma exists_maxSequence (ht : t ≠ []) : ∃ m ∈ t, m.sequence = maxSequence t := by
  induction t with
  | nil => exact absurd rfl ht
  | cons x xs ih =>
    simp only [maxSequence, map_cons, foldr_cons]
    by_cases hxs : xs = []
    · exact ⟨x, mem_cons_self, by simp [hxs]⟩
    · obtain ⟨m, hm, hmax⟩ := ih hxs
      rcases max_choice x.sequence ((xs.map (·.sequence)).foldr max 0) with h | h
      · exact ⟨x, mem_cons_self, h.symm⟩
      · exact ⟨m, mem_cons_of_mem _ hm, hmax.trans h.symm⟩

lemma mem_replayAfter {through : ℕ} (hm : m ∈ groups.flatten) (hbehind : through < m.sequence) :
    m ∈ (replayAfter through groups).flatten := by
  obtain ⟨group, hgroup, hm⟩ := mem_flatten.mp hm
  refine mem_flatten.mpr ⟨group, mem_filter.mpr ⟨hgroup, ?_⟩, hm⟩
  exact any_eq_true.mpr ⟨m, hm, decide_eq_true hbehind⟩

lemma mem_of_mem_replayAfter {through : ℕ} (hm : m ∈ (replayAfter through groups).flatten) : m ∈ groups.flatten := by
  obtain ⟨group, hgroup, hm⟩ := mem_flatten.mp hm
  exact mem_flatten.mpr ⟨group, mem_of_mem_filter hgroup, hm⟩

end

/-! ### What is stored for a run -/

structure CompactBoundary where
  throughSequence : ℕ
  memoryRevision : ℕ
  summary : String
  deriving DecidableEq

structure CompactionState where
  consecutiveFailures : ℕ := 0
  reactiveRound : Option ℕ := none
  latestBoundarySequence : Option ℕ := none
  deriving DecidableEq

structure Archive where
  transcript : List TranscriptMessage := []
  boundaries : List CompactBoundary := []
  memories : List SessionMemory := []
  state : Option CompactionState := none

/-- `get_latest_compact_boundary`. -/
def Archive.latestBoundary (a : Archive) : Option CompactBoundary := a.boundaries.argmax (·.throughSequence)

def Archive.latestMemory (a : Archive) : Option SessionMemory := a.memories.argmax (·.revision)

/-- `boundary.through_sequence if boundary else 0`. -/
def Archive.through (a : Archive) : ℕ := (a.latestBoundary.map (·.throughSequence)).getD 0

/-- `_next_sequence`. -/
def nextSequence (transcript : List TranscriptMessage) : ℕ :=
  match transcript.getLast? with
  | some m => m.sequence + 1
  | none => 1

def Archive.append (a : Archive) (message : Message) : Archive :=
  { a with transcript := a.transcript ++ [⟨nextSequence a.transcript, message⟩] }

def Archive.appendAll (a : Archive) (messages : List Message) : Archive := messages.foldl Archive.append a

/-- `commit_compaction`. -/
def commitCompaction (a : Archive) (memory : SessionMemory) (boundary : CompactBoundary) (state : CompactionState) :
    Option Archive :=
  if a.memories.any (·.revision = memory.revision) then none
  else if a.boundaries.any (·.throughSequence = boundary.throughSequence) then none
  else some { a with
    memories := a.memories ++ [memory]
    boundaries := a.boundaries ++ [boundary]
    state := some state }

/-! ### The context manager -/

structure ContextManager where
  toolResultBudgetChars : ℕ := 200000
  compactMaxFailures : ℕ := 3
  reactiveKeepRecentGroups : ℕ := 5
  hasCompactor : Bool := true
  redact : String → ℕ → String
  tokens : TranscriptMessage → ℕ

inductive Refusal
  | rejected (reason : CompactionRejected)
  | circuitOpen
  | unpaired (error : UnpairedToolMessage)
  | conflict
  | valueError
  deriving DecidableEq

/-- What a compaction holds while the compactor works; `tail` is what a reactive one keeps. -/
structure Pending where
  request : CompactionRequest
  state : Option CompactionState
  reactiveRound : Option ℕ := none
  tail : List MessageGroup := []

/-- A compaction up to its await: nothing is new, nothing is old enough, or the compactor is asked. -/
inductive Started
  | prior (memory : SessionMemory)
  | recorded (state : CompactionState) (retry : List MessageGroup)
  | asked (pending : Pending)

inductive Reply
  | memory (memory : SessionMemory)
  | circuitOpen
  | rejected (reason : CompactionRejected)
  | failed (error : String)

section
variable (manager : ContextManager)

/-- The messages behind the header of a context that `_materialize` builds. -/
def replayed (a : Archive) : Except UnpairedToolMessage (List TranscriptMessage) :=
  (groupTranscript a.transcript).map fun groups =>
    (toolResultBudget manager.toolResultBudgetChars (replayAfter a.through groups)).flatten

/-- The messages behind the header of the context that `_materialize_after` builds. -/
def replayedTail (through : ℕ) (tail : List MessageGroup) : List TranscriptMessage :=
  (toolResultBudget manager.toolResultBudgetChars (replayAfter through tail)).flatten

/-- `_semantic_compact_groups` up to its await. -/
def semanticCompactGroups (a : Archive) (run : AgentRun) (groups tail : List MessageGroup)
    (reactiveRound : Option ℕ) (manual : Bool) : Except Refusal Started :=
  if manual = false && a.state.any (·.consecutiveFailures ≥ manager.compactMaxFailures) then .error .circuitOpen
  else if manager.hasCompactor = false then .error (.rejected .noCompactor)
  else match groups, a.latestBoundary, a.latestMemory with
    | [], some _, some prior => .ok (.prior prior)
    | groups, _, priorMemory =>
      .ok (.asked
        { request :=
            { agentRunId := run.agentRunId
              investigationId := run.investigationId
              throughRound := run.usage.rounds
              throughSequence := if groups = [] then a.through else maxSequence groups.flatten
              priorMemory := priorMemory
              messages := (toolResultBudget manager.toolResultBudgetChars groups).flatten
              allowedEvidenceIds := (run.evidence.map (·.evidenceId)).dedup }
          state := a.state
          reactiveRound := reactiveRound
          tail := tail })

def semanticCompact (a : Archive) (run : AgentRun) (manual : Bool) : Except Refusal Started :=
  match tolerantGroups a.transcript a.through with
  | .error e => .error (.unpaired e)
  | .ok groups => semanticCompactGroups manager a run groups [] none manual

def reactiveCompact (a : Archive) (run : AgentRun) (keepRecentGroups : Option ℕ) : Except Refusal Started :=
  let keepRecent := keepRecentGroups.getD manager.reactiveKeepRecentGroups
  if a.state.any (·.reactiveRound = some run.usage.rounds) then
    .error (.rejected (.reactiveAlreadyPerformed run.usage.rounds))
  else if keepRecent < 1 then .error .valueError
  else match tolerantGroups a.transcript a.through with
    | .error e => .error (.unpaired e)
    | .ok groups =>
      let head := groups.take (groups.length - keepRecent)
      let tail := groups.drop (groups.length - keepRecent)
      if head = [] then
        .ok (.recorded
          { consecutiveFailures := (a.state.map (·.consecutiveFailures)).getD 0
            reactiveRound := some run.usage.rounds
            latestBoundarySequence := a.latestBoundary.map (·.throughSequence) }
          (replayAfter a.through tail))
      else semanticCompactGroups manager a run head tail (some run.usage.rounds) false

/-- `_record_failure`. -/
def recordFailure (a : Archive) (state : Option CompactionState) : Archive :=
  let prior := state.getD {}
  { a with state := some { prior with consecutiveFailures := prior.consecutiveFailures + 1 } }

/-- `_semantic_compact_groups` behind its await. -/
def finishCompaction (a : Archive) (pending : Pending) : Reply → Archive × Except Refusal SessionMemory
  | .circuitOpen => (a, .error .circuitOpen)
  | .rejected reason => (recordFailure a pending.state, .error (.rejected reason))
  | .failed error => (recordFailure a pending.state, .error (.rejected (.compactorFailed error)))
  | .memory memory =>
    match validate manager.redact pending.request memory with
    | .error reason => (recordFailure a pending.state, .error (.rejected reason))
    | .ok memory =>
      if memory.investigationId ≠ pending.request.investigationId then
        (recordFailure a pending.state,
          .error (.rejected (.otherInvestigation memory.investigationId pending.request.investigationId)))
      else
        let through := memory.throughTranscriptSequence
        let boundary := ⟨through, memory.revision, "semantic compact through transcript sequence " ++ toString through⟩
        let state : CompactionState :=
          { consecutiveFailures := 0
            reactiveRound := pending.reactiveRound.orElse fun _ => (pending.state.map (·.reactiveRound)).join
            latestBoundarySequence := some through }
        match commitCompaction a memory boundary state with
        | some committed => (committed, .ok memory)
        | none => (a, .error .conflict)

/-! ### Deterministic compaction -/

/-- `_is_protected_group`. -/
def protectedGroup (group : MessageGroup) : Bool :=
  group.any fun m => m.message.blocks.any fun block =>
    match block with
    | .toolResult result => result.status = .failed || result.status = .uncertain || result.status = .waitingApproval
    | .text text =>
      let lowered := text.toLower
      mentions lowered "child" &&
        (mentions lowered "report" || mentions lowered "completed" || mentions lowered "stopped")
    | .toolUse _ _ => false

def coveredBy (candidate : ℕ) (groups : List MessageGroup) : List MessageGroup :=
  groups.filter fun group => maxSequence group ≤ candidate

/-- `_deterministic_coverage`, for the tokens that are left for the tail. -/
def deterministicCoverage (groups : List MessageGroup) (tailBudget : ℤ) : ℕ :=
  let capped := fun candidate : ℕ => (groups.filter protectedGroup).all fun group =>
    group.all fun m => candidate < m.sequence
  let tailTokens : ℕ → ℕ := fun candidate =>
    ((groups.filter fun group => maxSequence group > candidate).flatten.map manager.tokens).foldr Nat.add 0
  (((groups.map maxSequence).dedup.insertionSort (· ≤ ·)).find? fun candidate =>
    capped candidate && decide ((tailTokens candidate : ℤ) ≤ tailBudget)).getD 0

/-- `_compact`; `fields` are the memory fields made from the stores. The revision and the
coverage are above the stored ones, so neither append is refused. -/
def deterministicCompact (a : Archive) (run : AgentRun) (fields : SessionMemory) (tailBudget : ℤ) :
    Except UnpairedToolMessage (Archive × List MessageGroup) :=
  (groupTranscript a.transcript).map fun all =>
    let groups := toolResultBudget manager.toolResultBudgetChars (replayAfter a.through all)
    let coverage := deterministicCoverage manager groups tailBudget
    if coverage ≤ a.through then (a, [])
    else
      let revision := (a.latestMemory.map (·.revision + 1)).getD 1
      let memory := { fields with
        memoryId := "mem-" ++ run.agentRunId ++ "-" ++ toString revision
        agentRunId := run.agentRunId
        investigationId := run.investigationId
        revision := revision
        throughRound := run.usage.rounds
        throughTranscriptSequence := coverage }
      ({ a with
        memories := a.memories ++ [memory]
        boundaries := a.boundaries ++ [⟨coverage, revision,
          "deterministic compact through transcript sequence " ++ toString coverage⟩] }, coveredBy coverage groups)

end

/-! ### Runs -/

/-- The compactions that await an answer, and the messages a compactor was shown for a
committed memory, or that a deterministic memory covers. -/
structure Compactions where
  archive : Archive := {}
  pending : List Pending := []
  told : List ℕ := []

inductive CompactionMove
  | append (message : Message)
  | semantic (run : AgentRun) (manual : Bool)
  | reactive (run : AgentRun) (keepRecentGroups : Option ℕ)
  | answer (i : ℕ) (reply : Reply)
  | deterministic (run : AgentRun) (fields : SessionMemory) (tailBudget : ℤ)

def Compactions.start (s : Compactions) : Except Refusal Started → Compactions
  | .ok (.asked pending) => { s with pending := s.pending ++ [pending] }
  | .ok (.recorded state _) => { s with archive := { s.archive with state := some state } }
  | _ => s

section
variable (manager : ContextManager)

def Compactions.step (s : Compactions) : CompactionMove → Option Compactions
  | .append message => some { s with archive := s.archive.append message }
  | .semantic run manual => some (s.start (semanticCompact manager s.archive run manual))
  | .reactive run keepRecentGroups => some (s.start (reactiveCompact manager s.archive run keepRecentGroups))
  | .answer i reply =>
    (s.pending[i]?).map fun pending =>
      match finishCompaction manager s.archive pending reply with
      | (archive, .ok _) =>
        { s with archive := archive, told := s.told ++ pending.request.messages.map (·.sequence) }
      | (archive, .error _) => { s with archive := archive }
  | .deterministic run fields tailBudget =>
    match deterministicCompact manager s.archive run fields tailBudget with
    | .ok (archive, covered) =>
      some { s with archive := archive, told := s.told ++ covered.flatten.map (·.sequence) }
    | .error _ => some s

def compactions : System Compactions CompactionMove := ⟨{}, Compactions.step manager⟩

/-- The compactor's answer ends where the request does. -/
def Compactions.WithinRequest (s : Compactions) : CompactionMove → Prop
  | .answer i reply => ∀ pending memory, s.pending[i]? = some pending → reply = .memory memory →
      memory.throughTranscriptSequence ≤ pending.request.throughSequence
  | _ => True

/-- Whatever is appended later, every message was told or is replayed by the next context. -/
def Compactions.KeepsHistory (s : Compactions) : Prop :=
  ∀ later, ∀ m ∈ (s.archive.appendAll later).transcript, m.sequence ∈ s.told ∨
    ∀ messages, replayed manager (s.archive.appendAll later) = .ok messages → m.sequence ∈ messages.map (·.sequence)

end

/-- The transcript is numbered upwards, and all up to the boundary was told. -/
structure Archive.Told (a : Archive) (told : List ℕ) : Prop where
  sorted : a.transcript.Pairwise fun m m' => m.sequence < m'.sequence
  within : a.through < nextSequence a.transcript
  told : ∀ m ∈ a.transcript, m.sequence ≤ a.through → m.sequence ∈ told

/-- What is in front of the end of a request is shown, or was told before. -/
structure Pending.Shows (p : Pending) (a : Archive) (told : List ℕ) : Prop where
  within : p.request.throughSequence < nextSequence a.transcript
  shown : ∀ m ∈ a.transcript, m.sequence ≤ p.request.throughSequence →
    m.sequence ∈ p.request.messages.map (·.sequence) ∨ m.sequence ∈ told
  last : (∃ m ∈ p.request.messages, m.sequence = p.request.throughSequence) ∨
    p.request.throughSequence = 0 ∨ ∃ b ∈ a.boundaries, b.throughSequence = p.request.throughSequence
  least : ∀ m ∈ p.request.messages, m.sequence ≤ p.request.throughSequence
  kept : ∀ m ∈ p.tail.flatten, p.request.throughSequence < m.sequence

section
variable {manager : ContextManager} {a a' : Archive} {told told' : List ℕ}

variable {m : TranscriptMessage} {b : CompactBoundary} {p : Pending} {groups : List MessageGroup} {run : AgentRun}
  {reply : Reply} {memory : SessionMemory} {s : Compactions}

lemma lt_nextSequence {t : List TranscriptMessage} (hsorted : t.Pairwise fun m m' => m.sequence < m'.sequence)
    (hm : m ∈ t) : m.sequence < nextSequence t := by
  obtain ⟨t, x, rfl⟩ : ∃ t' x, t = t' ++ [x] := by
    obtain rfl | h := t.eq_nil_or_concat'
    · cases hm
    · exact h
  simp only [nextSequence, getLast?_append, getLast?_singleton, Option.some_or]
  rcases mem_append.mp hm with hm | hm
  · have := (pairwise_append.mp hsorted).2.2 m hm x (mem_singleton_self x)
    omega
  · rw [mem_singleton.mp hm]
    omega

lemma nextSequence_append (t : List TranscriptMessage) (message : Message) :
    nextSequence (t ++ [⟨nextSequence t, message⟩]) = nextSequence t + 1 := by
  simp [nextSequence]

lemma le_through (hb : b ∈ a.boundaries) : b.throughSequence ≤ a.through := by
  cases hlatest : a.latestBoundary with
  | none =>
    rw [Archive.latestBoundary, argmax_eq_none] at hlatest
    rw [hlatest] at hb
    cases hb
  | some latest =>
    rw [Archive.through, hlatest]
    exact le_of_mem_argmax hb (Option.mem_def.mpr hlatest)

lemma through_cases (a : Archive) : a.through = 0 ∨ ∃ b ∈ a.boundaries, b.throughSequence = a.through := by
  cases hlatest : a.latestBoundary with
  | none => exact .inl (by rw [Archive.through, hlatest]; rfl)
  | some latest =>
    refine .inr ⟨latest, argmax_mem (Option.mem_def.mpr hlatest), ?_⟩
    rw [Archive.through, hlatest]
    rfl

lemma through_append (h : a'.boundaries = a.boundaries ++ [b]) : a'.through = max a.through b.throughSequence := by
  apply le_antisymm
  · rcases through_cases a' with hzero | ⟨c, hc, hthrough⟩
    · omega
    · rw [h] at hc
      rw [← hthrough]
      rcases mem_append.mp hc with hc | hc
      · exact (le_through hc).trans (le_max_left _ _)
      · rw [mem_singleton.mp hc]
        exact le_max_right _ _
  · have hb : b.throughSequence ≤ a'.through := le_through (h ▸ mem_append_right _ mem_cons_self)
    rcases through_cases a with hzero | ⟨c, hc, hthrough⟩
    · omega
    · have hc' : c.throughSequence ≤ a'.through := le_through (h ▸ mem_append_left _ hc)
      omega

/-! ### Appending -/

lemma Archive.Told.append (h : a.Told told) (message : Message) : (a.append message).Told told := by
  refine ⟨?_, ?_, ?_⟩
  · refine pairwise_append.mpr ⟨h.sorted, pairwise_singleton _ _, fun m hm m' hm' => ?_⟩
    rw [mem_singleton.mp hm']
    exact lt_nextSequence h.sorted hm
  · have hwithin := h.within
    change a.through < nextSequence (a.transcript ++ [⟨nextSequence a.transcript, message⟩])
    rw [nextSequence_append]
    omega
  · intro m hm hle
    rcases mem_append.mp hm with hm | hm
    · exact h.told m hm hle
    · have hwithin := h.within
      rw [mem_singleton.mp hm] at hle
      exact absurd hwithin (Nat.not_lt.mpr hle)

lemma Archive.Told.appendAll (h : a.Told told) (later : List Message) : (a.appendAll later).Told told := by
  induction later generalizing a with
  | nil => exact h
  | cons message later ih => exact ih (h.append message)

lemma Pending.Shows.append (h : p.Shows a told) (message : Message) : p.Shows (a.append message) told := by
  refine ⟨?_, ?_, h.last, h.least, h.kept⟩
  · have hwithin := h.within
    change p.request.throughSequence < nextSequence (a.transcript ++ [⟨nextSequence a.transcript, message⟩])
    rw [nextSequence_append]
    omega
  · intro m hm hle
    rcases mem_append.mp hm with hm | hm
    · exact h.shown m hm hle
    · have hwithin := h.within
      rw [mem_singleton.mp hm] at hle
      exact absurd hwithin (Nat.not_lt.mpr hle)

lemma Archive.Told.replayed (h : a.Told told) (hm : m ∈ a.transcript) :
    m.sequence ∈ told ∨ ∀ messages, replayed manager a = .ok messages → m.sequence ∈ messages.map (·.sequence) := by
  by_cases hle : m.sequence ≤ a.through
  · exact .inl (h.told m hm hle)
  · refine .inr fun messages hmessages => ?_
    unfold Compaction.replayed at hmessages
    cases hgroups : groupTranscript a.transcript with
    | error e =>
      rw [hgroups] at hmessages
      cases hmessages
    | ok groups =>
      rw [hgroups] at hmessages
      cases hmessages
      rw [toolResultBudget_sequences]
      refine mem_map_of_mem (mem_replayAfter ?_ (Nat.lt_of_not_le hle))
      rw [groupTranscript_flatten hgroups]
      exact hm

/-! ### Requests -/

lemma tolerantGroups_leftover (h : a.Told told)
    (hgroups : tolerantGroups a.transcript a.through = .ok groups) (hm : m ∈ a.transcript) :
    m ∈ groups.flatten ∨ m.sequence ≤ a.through ∨ ∀ x ∈ groups.flatten, x.sequence < m.sequence := by
  unfold tolerantGroups at hgroups
  cases hkept : groupTranscript (a.transcript.rdropWhile opensTool) with
  | error e =>
    rw [hkept] at hgroups
    cases hgroups
  | ok kept =>
    rw [hkept] at hgroups
    cases hgroups
    have hflatten := groupTranscript_flatten hkept
    obtain ⟨dropped, hdropped⟩ := rdropWhile_prefix opensTool a.transcript
    rw [← hdropped] at hm
    rcases mem_append.mp hm with hm | hm
    · by_cases hle : m.sequence ≤ a.through
      · exact .inr (.inl hle)
      · rw [← hflatten] at hm
        exact .inl (mem_replayAfter hm (Nat.lt_of_not_le hle))
    · refine .inr (.inr fun x hx => ?_)
      have hx' := mem_of_mem_replayAfter hx
      rw [hflatten] at hx'
      have hsorted := h.sorted
      rw [← hdropped] at hsorted
      exact (pairwise_append.mp hsorted).2.2 x hx' m hm

lemma tolerantGroups_sublist
    (hgroups : tolerantGroups a.transcript a.through = .ok groups) : groups.flatten.Sublist a.transcript := by
  unfold tolerantGroups at hgroups
  cases hkept : groupTranscript (a.transcript.rdropWhile opensTool) with
  | error e =>
    rw [hkept] at hgroups
    cases hgroups
  | ok kept =>
    rw [hkept] at hgroups
    cases hgroups
    have hflatten := groupTranscript_flatten hkept
    have hsub : (replayAfter a.through kept).flatten.Sublist kept.flatten := List.Sublist.flatten filter_sublist
    rw [hflatten] at hsub
    exact hsub.trans (List.rdropWhile_prefix opensTool a.transcript).sublist

lemma tolerantGroups_nonempty
    (hgroups : tolerantGroups a.transcript a.through = .ok groups) : ∀ group ∈ groups, group ≠ [] := by
  rintro group hgroup rfl
  unfold tolerantGroups at hgroups
  cases hkept : groupTranscript (a.transcript.rdropWhile opensTool) with
  | error e =>
    rw [hkept] at hgroups
    cases hgroups
  | ok kept =>
    rw [hkept] at hgroups
    cases hgroups
    exact absurd (mem_filter.mp hgroup).2 (by simp)

lemma semanticCompactGroups_shows {groups tail : List MessageGroup} {reactiveRound : Option ℕ}
    {manual : Bool} (h : a.Told told) (hsub : groups.flatten.Sublist a.transcript)
    (hleft : ∀ m ∈ a.transcript, m ∈ groups.flatten ∨ m.sequence ≤ a.through ∨
      ∀ x ∈ groups.flatten, x.sequence < m.sequence) (hnonempty : ∀ group ∈ groups, group ≠ [])
    (htail : tail = [] ∨ groups ≠ [] ∧ ∀ m ∈ tail.flatten, ∀ x ∈ groups.flatten, x.sequence < m.sequence)
    (hasked : semanticCompactGroups manager a run groups tail reactiveRound manual = .ok (.asked p)) :
    p.Shows a told := by
  have hrequest : p.request.throughSequence = (if groups = [] then a.through else maxSequence groups.flatten) ∧
      p.request.messages = (toolResultBudget manager.toolResultBudgetChars groups).flatten ∧ p.tail = tail := by
    unfold semanticCompactGroups at hasked
    split_ifs at hasked
    split at hasked
    · cases hasked
    · cases hasked
      exact ⟨rfl, rfl, rfl⟩
  obtain ⟨hthrough, hmessages, rfl⟩ := hrequest
  have hsequences : p.request.messages.map (·.sequence) = groups.flatten.map (·.sequence) := by
    rw [hmessages, toolResultBudget_sequences]
  by_cases hnone : groups = []
  · subst hnone
    rw [if_pos rfl] at hthrough
    refine ⟨hthrough ▸ h.within, ?_, ?_, ?_, ?_⟩
    · intro m hm hle
      exact .inr (h.told m hm (hthrough ▸ hle))
    · rw [hthrough]
      exact .inr (through_cases a)
    · intro m hm
      rw [hmessages] at hm
      cases hm
    · intro m hm
      rcases htail with hempty | ⟨hsome, -⟩
      · rw [hempty] at hm
        cases hm
      · exact absurd rfl hsome
  · rw [if_neg hnone] at hthrough
    have hflatten : groups.flatten ≠ [] := by
      obtain ⟨group, hgroup⟩ := exists_mem_of_ne_nil groups hnone
      obtain ⟨x, hx⟩ := exists_mem_of_ne_nil group (hnonempty group hgroup)
      exact ne_nil_of_mem (mem_flatten.mpr ⟨group, hgroup, hx⟩)
    obtain ⟨last, hlast, hmax⟩ := exists_maxSequence hflatten
    have hmax' : last.sequence = p.request.throughSequence := hmax.trans hthrough.symm
    refine ⟨?_, ?_, ?_, ?_, ?_⟩
    · rw [← hmax']
      exact lt_nextSequence h.sorted (hsub.subset hlast)
    · intro m hm hle
      rcases hleft m hm with hin | hcovered | hbehind
      · rw [hsequences]
        exact .inl (mem_map_of_mem hin)
      · exact .inr (h.told m hm hcovered)
      · have := hbehind last hlast
        omega
    · have hin : p.request.throughSequence ∈ p.request.messages.map (·.sequence) := by
        rw [hsequences, ← hmax']
        exact mem_map_of_mem hlast
      exact .inl (mem_map.mp hin)
    · intro m hm
      have hin : m.sequence ∈ groups.flatten.map (·.sequence) := by
        rw [← hsequences]
        exact mem_map_of_mem hm
      obtain ⟨x, hx, hsame⟩ := mem_map.mp hin
      rw [hthrough, ← hsame]
      exact le_maxSequence hx
    · intro m hm
      rcases htail with hempty | ⟨-, hbehind⟩
      · rw [hempty] at hm
        cases hm
      · rw [← hmax']
        exact hbehind m hm last hlast

lemma semanticCompact_shows {manual : Bool} (h : a.Told told)
    (hasked : semanticCompact manager a run manual = .ok (.asked p)) : p.Shows a told := by
  unfold semanticCompact at hasked
  cases hgroups : tolerantGroups a.transcript a.through with
  | error e =>
    rw [hgroups] at hasked
    cases hasked
  | ok groups =>
    rw [hgroups] at hasked
    exact semanticCompactGroups_shows h (tolerantGroups_sublist hgroups)
      (fun m hm => tolerantGroups_leftover h hgroups hm) (tolerantGroups_nonempty hgroups) (.inl rfl) hasked

lemma reactiveCompact_shows {keepRecentGroups : Option ℕ} (h : a.Told told)
    (hasked : reactiveCompact manager a run keepRecentGroups = .ok (.asked p)) : p.Shows a told := by
  unfold reactiveCompact at hasked
  dsimp only at hasked
  split_ifs at hasked
  cases hgroups : tolerantGroups a.transcript a.through with
  | error e =>
    rw [hgroups] at hasked
    cases hasked
  | ok groups =>
    rw [hgroups] at hasked
    dsimp only at hasked
    by_cases hhead : groups.take (groups.length - keepRecentGroups.getD manager.reactiveKeepRecentGroups) = []
    · rw [if_pos hhead] at hasked
      cases hasked
    rw [if_neg hhead] at hasked
    generalize groups.length - keepRecentGroups.getD manager.reactiveKeepRecentGroups = n at hhead hasked
    have hsplit : (groups.take n).flatten ++ (groups.drop n).flatten = groups.flatten := by
      rw [← flatten_append, take_append_drop]
    have hsub := tolerantGroups_sublist hgroups
    have hsorted := h.sorted.sublist hsub
    rw [← hsplit] at hsorted hsub
    refine semanticCompactGroups_shows h ((sublist_append_left _ _).trans hsub) ?_ ?_ ?_ hasked
    · intro m hm
      rcases tolerantGroups_leftover h hgroups hm with hin | hcovered | hbehind
      · rw [← hsplit] at hin
        rcases mem_append.mp hin with hin | hin
        · exact .inl hin
        · exact .inr (.inr fun x hx => (pairwise_append.mp hsorted).2.2 x hx m hin)
      · exact .inr (.inl hcovered)
      · refine .inr (.inr fun x hx => hbehind x ?_)
        rw [← hsplit]
        exact mem_append_left _ hx
    · intro group hgroup
      exact tolerantGroups_nonempty hgroups group (mem_of_mem_take hgroup)
    · exact .inr ⟨hhead, fun m hm x hx => (pairwise_append.mp hsorted).2.2 x hx m hm⟩

/-! ### Answers -/

lemma finishCompaction_committed
    (h : finishCompaction manager a p reply = (a', .ok memory)) : reply = .memory memory ∧
      p.request.throughSequence ≤ memory.throughTranscriptSequence ∧ 1 ≤ memory.throughTranscriptSequence ∧
      a'.transcript = a.transcript ∧ (∀ b ∈ a.boundaries, b.throughSequence ≠ memory.throughTranscriptSequence) ∧
      ∃ b, b.throughSequence = memory.throughTranscriptSequence ∧ a'.boundaries = a.boundaries ++ [b] := by
  cases reply with
  | memory answer =>
    simp only [finishCompaction] at h
    cases hvalid : validate manager.redact p.request answer with
    | error reason =>
      rw [hvalid] at h
      cases h
    | ok accepted =>
      obtain ⟨rfl, -, -, hthrough, hpositive, -⟩ := validate_accepted hvalid
      rw [hvalid] at h
      dsimp only at h
      split_ifs at h
      · cases h
      · unfold commitCompaction at h
        split_ifs at h with hmemory hboundary
        · cases h
        · cases h
        · cases h
          refine ⟨rfl, hthrough, hpositive, rfl, ?_, _, rfl, rfl⟩
          intro b hb hsame
          exact hboundary (any_eq_true.mpr ⟨b, hb, decide_eq_true hsame⟩)
  | _ => cases h

lemma finishCompaction_refused {refusal : Refusal} (h : finishCompaction manager a p reply = (a', .error refusal)) :
    a'.transcript = a.transcript ∧ a'.boundaries = a.boundaries := by
  cases reply with
  | memory answer =>
    simp only [finishCompaction] at h
    cases hvalid : validate manager.redact p.request answer with
    | error reason =>
      rw [hvalid] at h
      cases h
      exact ⟨rfl, rfl⟩
    | ok accepted =>
      rw [hvalid] at h
      dsimp only at h
      split_ifs at h
      · cases h
        exact ⟨rfl, rfl⟩
      · split at h
        · cases h
        · cases h
          exact ⟨rfl, rfl⟩
  | _ =>
    cases h
    exact ⟨rfl, rfl⟩

/-! ### Deterministic coverage -/

lemma groups_ordered
    (hsorted : groups.flatten.Pairwise fun m m' => m.sequence < m'.sequence) {g g' : MessageGroup} (hg : g ∈ groups)
    (hg' : g' ∈ groups) : g = g' ∨ (∀ x ∈ g, ∀ y ∈ g', x.sequence < y.sequence) ∨
      ∀ x ∈ g, ∀ y ∈ g', y.sequence < x.sequence := by
  induction groups with
  | nil => cases hg
  | cons group groups ih =>
    rw [flatten_cons] at hsorted
    obtain ⟨-, hrest, hacross⟩ := pairwise_append.mp hsorted
    rcases mem_cons.mp hg with hhead | hin
    · rcases mem_cons.mp hg' with hhead' | hin'
      · exact .inl (hhead.trans hhead'.symm)
      · refine .inr (.inl fun x hx y hy => hacross x (hhead ▸ hx) y ?_)
        exact mem_flatten.mpr ⟨g', hin', hy⟩
    · rcases mem_cons.mp hg' with hhead' | hin'
      · refine .inr (.inr fun x hx y hy => hacross y (hhead' ▸ hy) x ?_)
        exact mem_flatten.mpr ⟨g, hin, hx⟩
      · exact ih hrest hin hin'

lemma deterministicCoverage_cases (groups : List MessageGroup) (tailBudget : ℤ) :
    deterministicCoverage manager groups tailBudget = 0 ∨
      ∃ group ∈ groups, maxSequence group = deterministicCoverage manager groups tailBudget := by
  unfold deterministicCoverage
  dsimp only
  cases hfound : ((groups.map maxSequence).dedup.insertionSort (· ≤ ·)).find? _ with
  | none => exact .inl rfl
  | some candidate =>
    refine .inr ?_
    have hmem := mem_of_find?_eq_some hfound
    rw [mem_insertionSort, mem_dedup] at hmem
    exact mem_map.mp hmem

lemma mem_coveredBy
    (hsorted : groups.flatten.Pairwise fun m m' => m.sequence < m'.sequence) {last : MessageGroup} (hlast : last ∈ groups)
    (hnonempty : last ≠ []) (hm : m ∈ groups.flatten) (hle : m.sequence ≤ maxSequence last) :
    m ∈ (coveredBy (maxSequence last) groups).flatten := by
  obtain ⟨group, hgroup, hm⟩ := mem_flatten.mp hm
  refine mem_flatten.mpr ⟨group, mem_filter.mpr ⟨hgroup, decide_eq_true ?_⟩, hm⟩
  obtain ⟨y, hy, hmax⟩ := exists_maxSequence (ne_nil_of_mem hm)
  obtain ⟨z, hz, hmax'⟩ := exists_maxSequence hnonempty
  rcases groups_ordered hsorted hgroup hlast with rfl | hbefore | hbehind
  · exact le_refl _
  · rw [← hmax, ← hmax']
    exact (hbefore y hy z hz).le
  · have := hbehind m hm z hz
    omega

lemma Archive.Told.advance (h : a.Told told) (htranscript : a'.transcript = a.transcript)
    (hboundaries : a'.boundaries = a.boundaries ++ [b]) (hwithin : b.throughSequence < nextSequence a.transcript)
    (hkeep : ∀ n ∈ told, n ∈ told') (htold : ∀ m ∈ a.transcript, m.sequence ≤ b.throughSequence → m.sequence ∈ told') :
    a'.Told told' := by
  have hthrough := through_append hboundaries
  have hbefore := h.within
  refine ⟨htranscript ▸ h.sorted, ?_, ?_⟩
  · rw [htranscript]
    omega
  · intro m hm hle
    rw [htranscript] at hm
    by_cases hcovered : m.sequence ≤ a.through
    · exact hkeep _ (h.told m hm hcovered)
    · exact htold m hm (by omega)

lemma deterministicCompact_told {fields : SessionMemory} {tailBudget : ℤ}
    {covered : List MessageGroup} (h : a.Told told)
    (hcompact : deterministicCompact manager a run fields tailBudget = .ok (a', covered)) :
    a'.Told (told ++ covered.flatten.map (·.sequence)) ∧ a'.transcript = a.transcript ∧
      ∃ added, a'.boundaries = a.boundaries ++ added := by
  unfold deterministicCompact at hcompact
  cases hall : groupTranscript a.transcript with
  | error e =>
    rw [hall] at hcompact
    cases hcompact
  | ok all =>
    rw [hall] at hcompact
    replace hcompact := Except.ok.inj hcompact
    dsimp only at hcompact
    have hflatten := groupTranscript_flatten hall
    generalize hgroups : toolResultBudget manager.toolResultBudgetChars (replayAfter a.through all) = groups at hcompact
    generalize hcoverage : deterministicCoverage manager groups tailBudget = coverage at hcompact
    by_cases hle : coverage ≤ a.through
    · rw [if_pos hle] at hcompact
      cases hcompact
      refine ⟨?_, rfl, [], (append_nil _).symm⟩
      rw [flatten_nil, map_nil, append_nil]
      exact h
    · rw [if_neg hle] at hcompact
      obtain ⟨harchive, rfl⟩ := Prod.mk.inj hcompact
      have htranscript : a'.transcript = a.transcript := (congrArg Archive.transcript harchive).symm
      have hboundaries := (congrArg Archive.boundaries harchive).symm
      have hsequences : groups.flatten.map (·.sequence) = (replayAfter a.through all).flatten.map (·.sequence) := by
        rw [← hgroups, toolResultBudget_sequences]
      have hsub : (replayAfter a.through all).flatten.Sublist a.transcript := by
        rw [← hflatten]
        exact List.Sublist.flatten filter_sublist
      have hsorted : groups.flatten.Pairwise fun m m' => m.sequence < m'.sequence := by
        have hplain := pairwise_map.mpr (h.sorted.sublist hsub)
        rw [← hsequences] at hplain
        exact pairwise_map.mp hplain
      obtain ⟨last, hlast, rfl⟩ : ∃ group ∈ groups, maxSequence group = coverage := by
        rw [← hcoverage]
        refine (deterministicCoverage_cases groups tailBudget).resolve_left fun hzero => hle ?_
        rw [← hcoverage, hzero]
        exact Nat.zero_le _
      have hnonempty : last ≠ [] := by
        rintro rfl
        exact hle (Nat.zero_le _)
      refine ⟨h.advance htranscript hboundaries ?_ (fun n hn => mem_append_left _ hn) ?_, htranscript, _, hboundaries⟩
      · obtain ⟨z, hz, hmax⟩ := exists_maxSequence hnonempty
        have hin : z.sequence ∈ groups.flatten.map (·.sequence) := mem_map_of_mem (mem_flatten.mpr ⟨last, hlast, hz⟩)
        rw [hsequences] at hin
        obtain ⟨x, hx, hsame⟩ := mem_map.mp hin
        dsimp only
        rw [← hmax, ← hsame]
        exact lt_nextSequence h.sorted (hsub.subset hx)
      · intro m hm hcovered
        by_cases hbefore : m.sequence ≤ a.through
        · exact mem_append_left _ (h.told m hm hbefore)
        · have hin : m.sequence ∈ groups.flatten.map (·.sequence) := by
            rw [hsequences]
            refine mem_map_of_mem (mem_replayAfter ?_ (Nat.lt_of_not_le hbefore))
            rwa [hflatten]
          obtain ⟨x, hx, hsame⟩ := mem_map.mp hin
          rw [← hsame] at hcovered ⊢
          exact mem_append_right _ (mem_map_of_mem (mem_coveredBy hsorted hlast hnonempty hx hcovered))

/-! ### Runs that keep their history -/

structure Compactions.Keeps (s : Compactions) : Prop where
  archive : s.archive.Told s.told
  pending : ∀ p ∈ s.pending, p.Shows s.archive s.told

lemma Compactions.Keeps.keepsHistory (h : s.Keeps) : s.KeepsHistory manager :=
  fun later _ hm => (h.archive.appendAll later).replayed hm

lemma Pending.Shows.mono (h : p.Shows a told) (htranscript : a'.transcript = a.transcript)
    (hboundaries : ∃ added, a'.boundaries = a.boundaries ++ added) (hkeep : ∀ n ∈ told, n ∈ told') :
    p.Shows a' told' := by
  obtain ⟨added, hadded⟩ := hboundaries
  refine ⟨htranscript ▸ h.within, ?_, ?_, h.least, h.kept⟩
  · intro m hm hle
    rw [htranscript] at hm
    exact (h.shown m hm hle).imp_right (hkeep _)
  · refine h.last.imp_right (Or.imp_right ?_)
    rintro ⟨b, hb, hthrough⟩
    exact ⟨b, hadded ▸ mem_append_left _ hb, hthrough⟩

lemma Compactions.Keeps.start (h : s.Keeps) {started : Except Refusal Started}
    (hshows : ∀ p, started = .ok (.asked p) → p.Shows s.archive s.told) : (s.start started).Keeps := by
  cases started with
  | error e => exact h
  | ok started =>
    cases started with
    | prior memory => exact h
    | recorded state retry =>
      refine ⟨⟨h.archive.sorted, h.archive.within, h.archive.told⟩, fun p hp => ?_⟩
      have hp' := h.pending p hp
      exact ⟨hp'.within, hp'.shown, hp'.last, hp'.least, hp'.kept⟩
    | asked p =>
      refine ⟨h.archive, fun q hq => ?_⟩
      rcases mem_append.mp hq with hq | hq
      · exact h.pending q hq
      · rw [mem_singleton.mp hq]
        exact hshows p rfl

lemma Compactions.Keeps.answer (h : s.Keeps) (hp : p ∈ s.pending)
    (hfinish : finishCompaction manager s.archive p reply = (a', .ok memory))
    (hwithin : memory.throughTranscriptSequence ≤ p.request.throughSequence) :
    Compactions.Keeps { s with archive := a', told := s.told ++ p.request.messages.map (·.sequence) } := by
  obtain ⟨-, -, -, htranscript, -, b, hb, hboundaries⟩ := finishCompaction_committed hfinish
  have hshows := h.pending p hp
  have hkeep : ∀ n ∈ s.told, n ∈ s.told ++ p.request.messages.map (·.sequence) := fun n hn => mem_append_left _ hn
  refine ⟨h.archive.advance htranscript hboundaries ?_ hkeep ?_, fun q hq => ?_⟩
  · have := hshows.within
    omega
  · intro m hm hle
    rcases hshows.shown m hm (by omega) with hshown | htold
    · exact mem_append_right _ hshown
    · exact hkeep _ htold
  · exact (h.pending q hq).mono htranscript ⟨_, hboundaries⟩ hkeep

lemma Compactions.Keeps.step {s t : Compactions} {move : CompactionMove} (h : s.Keeps) (hmove : s.WithinRequest move)
    (hstep : s.step manager move = some t) : t.Keeps := by
  cases move with
  | append message =>
    cases hstep
    exact ⟨h.archive.append message, fun p hp => (h.pending p hp).append message⟩
  | semantic run manual =>
    cases hstep
    exact h.start fun p hasked => semanticCompact_shows h.archive hasked
  | reactive run keepRecentGroups =>
    cases hstep
    exact h.start fun p hasked => reactiveCompact_shows h.archive hasked
  | answer i reply =>
    obtain ⟨p, hp, hstep⟩ := Option.map_eq_some_iff.mp hstep
    have hmem : p ∈ s.pending := mem_of_getElem? hp
    cases hfinish : finishCompaction manager s.archive p reply with
    | mk archive result =>
      rw [hfinish] at hstep
      cases result with
      | ok memory =>
        cases hstep
        obtain ⟨rfl, -⟩ := finishCompaction_committed hfinish
        exact h.answer hmem hfinish (hmove p memory hp rfl)
      | error refusal =>
        cases hstep
        obtain ⟨htranscript, hboundaries⟩ := finishCompaction_refused hfinish
        have hthrough : archive.through = s.archive.through := by
          rw [Archive.through, Archive.latestBoundary, hboundaries]
          rfl
        refine ⟨⟨htranscript ▸ h.archive.sorted, ?_, ?_⟩, fun q hq => ?_⟩
        · rw [hthrough, htranscript]
          exact h.archive.within
        · rw [hthrough, htranscript]
          exact h.archive.told
        · exact (h.pending q hq).mono htranscript ⟨[], by rw [hboundaries, append_nil]⟩ fun _ hn => hn
  | deterministic run fields tailBudget =>
    simp only [Compactions.step] at hstep
    cases hcompact : deterministicCompact manager s.archive run fields tailBudget with
    | error e =>
      rw [hcompact] at hstep
      cases hstep
      exact h
    | ok result =>
      obtain ⟨archive, covered⟩ := result
      rw [hcompact] at hstep
      cases hstep
      obtain ⟨htold, htranscript, hboundaries⟩ := deterministicCompact_told h.archive hcompact
      exact ⟨htold, fun p hp => (h.pending p hp).mono htranscript hboundaries fun n hn => mem_append_left _ hn⟩

lemma Compactions.keeps_of_reached (hs : (compactions manager).Reached Compactions.WithinRequest s) : s.Keeps := by
  refine hs.invariant ?_ fun _ _ _ hkeeps hmove hstep => hkeeps.step hmove hstep
  refine ⟨⟨List.Pairwise.nil, Nat.zero_lt_one, ?_⟩, ?_⟩
  · rintro m ⟨⟩
  · rintro p ⟨⟩

lemma Pending.Shows.last_of_committed (h : p.Shows a told)
    (hfinish : finishCompaction manager a p reply = (a', .ok memory))
    (hwithin : memory.throughTranscriptSequence ≤ p.request.throughSequence) :
    ∃ m ∈ p.request.messages, memory.throughTranscriptSequence ≤ m.sequence := by
  obtain ⟨-, hthrough, hpositive, -, hnew, -⟩ := finishCompaction_committed hfinish
  rcases h.last with ⟨m, hm, hlast⟩ | hzero | ⟨b, hb, hsame⟩
  · exact ⟨m, hm, hlast ▸ hwithin⟩
  · omega
  · exact absurd (hsame.trans (le_antisymm hthrough hwithin)) (hnew b hb)

end

structure Committed (manager : ContextManager) (p : Pending) (memory : SessionMemory) (t : Compactions) : Prop where
  notPast : ∃ m ∈ p.request.messages, memory.throughTranscriptSequence ≤ m.sequence
  history : t.KeepsHistory manager
  retry : ∀ m ∈ p.tail.flatten,
    m.sequence ∈ (replayedTail manager memory.throughTranscriptSequence p.tail).map (·.sequence)

/-- Where all answers end where their requests do nothing is lost, and an answer that is
committed keeps the history if and only if it ends there. -/
theorem compaction_keeps_history (manager : ContextManager) (s : Compactions)
    (hs : (compactions manager).Reached Compactions.WithinRequest s) : s.KeepsHistory manager ∧
      ∀ i p reply archive memory t, s.pending[i]? = some p →
        finishCompaction manager s.archive p reply = (archive, .ok memory) →
        s.step manager (.answer i reply) = some t →
        (Committed manager p memory t ↔ memory.throughTranscriptSequence ≤ p.request.throughSequence) := by
  have hkeeps := Compactions.keeps_of_reached hs
  refine ⟨hkeeps.keepsHistory, ?_⟩
  intro i p reply archive memory t hp hfinish hstep
  have hmem : p ∈ s.pending := mem_of_getElem? hp
  have hshows := hkeeps.pending p hmem
  have ht : t = { s with archive := archive, told := s.told ++ p.request.messages.map (·.sequence) } := by
    simp only [Compactions.step, hp, Option.map_some, hfinish] at hstep
    exact (Option.some.inj hstep).symm
  constructor
  · intro hcommitted
    obtain ⟨m, hm, hle⟩ := hcommitted.notPast
    exact hle.trans (hshows.least m hm)
  · intro hwithin
    refine ⟨hshows.last_of_committed hfinish hwithin, ?_, fun m hm => ?_⟩
    · rw [ht]
      exact (hkeeps.answer hmem hfinish hwithin).keepsHistory
    · rw [replayedTail, toolResultBudget_sequences]
      exact mem_map_of_mem (mem_replayAfter hm (hwithin.trans_lt (hshows.kept m hm)))

/-! ### An answer past its request -/

def plainManager : ContextManager where
  redact text _ := text
  tokens _ := 0

def compactingRun : AgentRun := ⟨"run-1", "inv-1", none, .parent, .running, {}, {}, none, [], none⟩

def revisionThrough (n : ℕ) : SessionMemory :=
  { memoryId := "mem-1", agentRunId := "run-1", investigationId := "inv-1", revision := 1, throughRound := 0
    throughTranscriptSequence := n, objective := "find the cause" }

/-- An answer through message 2 is accepted where only message 1 was shown: message 2 is lost
when it is appended later, and when a reactive compaction kept it for the retry. -/
theorem message_lost :
    (∃ s, (compactions plainManager).runFrom {} [.append (note "symptom"), .semantic compactingRun true,
        .answer 0 (.memory (revisionThrough 2))] = some s ∧
      s.told = [1] ∧ s.archive.through = 2 ∧ ¬ s.KeepsHistory plainManager) ∧
    ∃ s, (compactions plainManager).runFrom {} [.append (note "symptom"), .append (note "all is well"),
        .reactive compactingRun (some 1), .answer 0 (.memory (revisionThrough 2))] = some s ∧
      s.told = [1] ∧ s.archive.through = 2 ∧ ¬ s.KeepsHistory plainManager := by
  constructor
  · refine ⟨_, rfl, rfl, rfl, fun h => ?_⟩
    rcases h [note "child report"] ⟨2, note "child report"⟩ (by decide) with htold | hreplayed
    · exact absurd htold (by decide)
    · exact absurd (hreplayed _ rfl) (by decide)
  · refine ⟨_, rfl, rfl, rfl, fun h => ?_⟩
    rcases h [] ⟨2, note "all is well"⟩ (by decide) with htold | hreplayed
    · exact absurd htold (by decide)
    · exact absurd (hreplayed _ rfl) (by decide)

theorem shown_compacted :
    ∃ s, (compactions plainManager).runFrom {} [.append (note "symptom"), .semantic compactingRun true,
        .answer 0 (.memory (revisionThrough 1))] = some s ∧
      s.archive.through = 1 ∧ s.KeepsHistory plainManager := by
  refine ⟨_, rfl, rfl, (compaction_keeps_history plainManager _ ?_).1⟩
  refine .next (.answer 0 (.memory (revisionThrough 1))) (.next (.semantic compactingRun true)
    (.next (.append (note "symptom")) .start trivial rfl) trivial rfl) ?_ rfl
  rintro p memory ⟨⟩ ⟨⟩
  exact le_refl 1

end IncidentLens.Investigations.Compaction
