import IncidentLens.Investigations.Batch
import Mathlib.Data.List.Sort

/-!
# Transcripts and their grouping

A run's transcript is append-only. A message that uses tools has to be followed by the
message with their results: `groupMessages` pairs the two and refuses anything else, and no
provider request can be built from a transcript it refuses.
-/
namespace IncidentLens.Investigations
open Data Effects StateError List

inductive MessageRole
  | user | assistant
  deriving DecidableEq

inductive Block
  | text (text : String)
  | toolUse (toolCallId toolName : String)
  | toolResult (block : ToolResultBlock)
  deriving DecidableEq

structure Message where
  role : MessageRole
  blocks : List Block
  deriving DecidableEq

def Block.toolUseId : Block → Option String
  | .toolUse toolCallId _ => some toolCallId
  | _ => none

def Block.toolResultId : Block → Option String
  | .toolResult block => some block.toolCallId
  | _ => none

def Message.toolIds (m : Message) : List String := m.blocks.filterMap Block.toolUseId

def Message.resultIds (m : Message) : List String := m.blocks.filterMap Block.toolResultId

/-- Equality of the sets that two lists stand for. -/
def sameIds (xs ys : List String) : Bool := xs.all ys.contains && ys.all xs.contains

/-- `UnpairedToolMessage`. -/
inductive UnpairedToolMessage
  | noFollowingResult
  | idsDoNotMatch
  deriving DecidableEq

def groupMessages : List Message → Except UnpairedToolMessage (List (List Message))
  | [] => .ok []
  | [current] =>
    if current.toolIds ≠ [] then .error .noFollowingResult
    else .ok [[current]]
  | current :: following :: rest =>
    if current.toolIds ≠ [] then
      if sameIds following.resultIds current.toolIds = false then .error .idsDoNotMatch
      else (groupMessages rest).map ([current, following] :: ·)
    else (groupMessages (following :: rest)).map ([current] :: ·)

/-- `group_messages` succeeds. -/
def Groupable (t : List Message) : Prop := (groupMessages t).isOk = true

instance (t : List Message) : Decidable (Groupable t) := inferInstanceAs (Decidable (_ = true))

lemma isOk_map {ε α β : Type} (f : α → β) (x : Except ε α) : (x.map f).isOk = x.isOk := by cases x <;> rfl

lemma groupable_append {t : List Message} (h : Groupable t) (u : List Message) :
    Groupable (t ++ u) ↔ Groupable u := by
  induction t using groupMessages.induct with
  | case1 => rfl
  | case2 current huse =>
    simp [Groupable, groupMessages, huse, Except.isOk, Except.toBool] at h
  | case3 current huse =>
    cases u with
    | nil =>
      rw [append_nil]
      exact iff_of_true h rfl
    | cons m u =>
      rw [singleton_append, Groupable, groupMessages, if_neg huse, isOk_map]
      rfl
  | case4 current following rest huse hids =>
    simp [Groupable, groupMessages, huse, hids, Except.isOk, Except.toBool] at h
  | case5 current following rest huse hids ih =>
    rw [Groupable, groupMessages, if_pos huse, if_neg hids, isOk_map] at h
    rw [cons_append, cons_append, Groupable, groupMessages, if_pos huse, if_neg hids, isOk_map]
    exact ih h
  | case6 current following rest huse ih =>
    rw [Groupable, groupMessages, if_neg huse, isOk_map] at h
    rw [cons_append, cons_append, Groupable, groupMessages, if_neg huse, isOk_map]
    exact ih h

lemma groupable_singleton (m : Message) : Groupable [m] ↔ m.toolIds = [] := by
  simp only [Groupable, groupMessages]
  split_ifs with huse
  · simp [huse, Except.isOk, Except.toBool]
  · simpa [Except.isOk, Except.toBool] using huse

lemma groupable_pair {m r : Message} (hm : m.toolIds ≠ []) :
    Groupable [m, r] ↔ sameIds r.resultIds m.toolIds = true := by
  simp only [Groupable, groupMessages, hm, ne_eq, not_false_eq_true, if_true]
  cases sameIds r.resultIds m.toolIds <;> simp [Except.isOk, Except.toBool, Except.map]

/-! ### Executing the tools of a turn -/

/-- `_partition_tool_batches`: consecutive safe requests share a batch. -/
def partitionToolBatches (safe : ToolRequest → Bool) (batches : List (List ToolRequest))
    (current : List ToolRequest) : List ToolRequest → List (List ToolRequest)
  | [] => if current ≠ [] then batches ++ [current] else batches
  | request :: requests =>
    if safe request then partitionToolBatches safe batches (current ++ [request]) requests
    else
      let batches := if current ≠ [] then batches ++ [current] else batches
      partitionToolBatches safe (batches ++ [[request]]) [] requests

/-- `_tool_result_block`. -/
def toolResultBlock (outcome : ToolOutcome) : ToolResultBlock :=
  let content := if outcome.summary ≠ "" then outcome.summary else outcome.errorRedacted.getD ""
  let content := match outcome.status, outcome.approvalId with
    | .waitingApproval, some id => if content ≠ "" then content else "approval_id=" ++ id
    | _, _ => content
  ⟨outcome.toolCallId, outcome.status, String.ofList (content.toList.take 200000), outcome.evidence.map (·.evidenceId)⟩

/-- What happens while a batch executes: other tasks change the store, and the calls end. -/
structure BatchRun where
  interfere : Store → Store
  outcomes : List ToolOutcome

/-- `_ordered_blocks`: in the order of the batch. -/
def orderedBlocks (batch : List ToolRequest) (blocks : List ToolResultBlock) : List ToolResultBlock :=
  let order := fun block : ToolResultBlock => (batch.map (·.toolCallId)).idxOf block.toolCallId
  blocks.insertionSort fun a b => order a ≤ order b

def executeBatch (agentRunId : String) (batch : List ToolRequest) (run : BatchRun) (now : Time) :
    StoreM (List ToolResultBlock × Bool) := do
  let res ← gate agentRunId batch now
  modify run.interfere
  let stop ← foldBatch agentRunId run.outcomes now res.pending
  let folded := res.pending.filterMap fun request =>
    (run.outcomes.find? (·.toolCallId = request.toolCallId)).map toolResultBlock
  return (orderedBlocks batch (res.terminalBlocks ++ folded), res.stop || stop)

/-- The batches in turn, until one of them stops the round. -/
def executeBatches (agentRunId : String) (runs : ℕ → BatchRun) (now : Time) :
    ℕ → List (List ToolRequest) → StoreM (List ToolResultBlock × Bool)
  | _, [] => pure ([], false)
  | i, batch :: batches => do
    let (blocks, stop) ← executeBatch agentRunId batch (runs i) now
    if stop then return (blocks, true)
    let (rest, stop) ← executeBatches agentRunId runs now (i + 1) batches
    return (blocks ++ rest, stop)

/-- The block of one request, or a failed one for a request that no batch reached. -/
def blockFor (blocks : List ToolResultBlock) (request : ToolRequest) : ToolResultBlock :=
  (blocks.reverse.find? (·.toolCallId = request.toolCallId)).getD
    ⟨request.toolCallId, .failed, "tool call was not executed", []⟩

def executeTools (agentRunId : String) (safe : ToolRequest → Bool) (requests : List ToolRequest)
    (runs : ℕ → BatchRun) (now : Time) : StoreM (List ToolResultBlock × Bool) := do
  let (blocks, stop) ← executeBatches agentRunId runs now 0 (partitionToolBatches safe [] [] requests)
  return (requests.map (blockFor blocks), stop)

lemma blockFor_toolCallId (blocks : List ToolResultBlock) (request : ToolRequest) :
    (blockFor blocks request).toolCallId = request.toolCallId := by
  unfold blockFor
  cases h : blocks.reverse.find? (·.toolCallId = request.toolCallId) with
  | none => rfl
  | some block => simpa using find?_some h

lemma executeTools_ids (agentRunId : String) (safe : ToolRequest → Bool)
    (requests : List ToolRequest) (runs : ℕ → BatchRun) (now : Time) (s : Store) :
    wp (executeTools agentRunId safe requests runs now) (fun r _ => ∀ blocks stop,
      r = .ok (blocks, stop) → blocks.map (·.toolCallId) = requests.map (·.toolCallId)) s := by
  simp only [executeTools, wp_bind]
  refine wp_mono (Q := fun _ _ => True) trivial fun r t _ => ?_
  cases r with
  | error _ => rintro blocks stop ⟨⟩
  | ok p =>
    rintro blocks stop ⟨⟩
    rw [map_map]
    exact map_congr_left fun request _ => blockFor_toolCallId p.1 request

/-! ### Rounds -/

structure ToolSchema where
  toolName : String
  concurrencySafe : Bool := false
  deriving DecidableEq

/-- What a provider declares for one turn, with the identifiers the harness allocated. -/
structure Turn where
  toolRequests : List ToolRequest := []
  childDelegation : Bool := false
  stopSignal : Option StopReason := none
  text : String := ""

/-- A turn continues in at most one way and requests at most eight tools. -/
def Turn.atMostOneContinuation (turn : Turn) : Bool :=
  turn.toolRequests.length ≤ 8 &&
    ([!turn.toolRequests.isEmpty, turn.childDelegation, turn.stopSignal.isSome].countP id ≤ 1)

/-- `_check_tool_requests`: no identifier twice, and only allowlisted tools. -/
def Turn.checkToolRequests (schemas : List ToolSchema) (turn : Turn) : Bool :=
  (turn.toolRequests.map (·.toolCallId)).Nodup &&
    turn.toolRequests.all fun request => schemas.any (·.toolName = request.toolName)

/-- A turn that the validator accepts. -/
structure AcceptedTurn (schemas : List ToolSchema) extends Turn where
  oneContinuation : toTurn.atMostOneContinuation = true
  requestsChecked : toTurn.checkToolRequests schemas = true

def assistantMessage (turn : Turn) : Message where
  role := .assistant
  blocks := turn.toolRequests.map (fun r => .toolUse r.toolCallId r.toolName) ++ [.text turn.text]

/-- The environment of one round: whether the two appends succeed, the store when the tools
start, what happens to the batches, how a compaction ends, and which child reports are
delivered when the run stops. -/
structure RoundEnv where
  assistantAppended : Bool := true
  resultAppended : Bool := true
  store : Store := {}
  runs : ℕ → BatchRun := fun _ => ⟨id, []⟩
  compactStatus : ToolCallStatus := .succeeded
  compactContent : String := "[Context compacted]"
  reports : List String := []

/-- `append_tool_result`. -/
def appendToolResult (env : RoundEnv) (t : List Message) (blocks : List ToolResultBlock) : List Message :=
  if env.resultAppended ∧ blocks ≠ [] then t ++ [⟨.user, blocks.map .toolResult⟩] else t

def note (text : String) : Message := ⟨.user, [.text text]⟩

/-- One `_loop_step` of a run, `none` where it raises. -/
def loopStep (schemas : List ToolSchema) (agentRunId : String) (turn : Turn) (env : RoundEnv)
    (now : Time) (t : List Message) : Option (List Message) :=
  -- the request cannot be built, or the assistant message is not stored: the run pauses
  if (groupMessages t).isOk = false ∨ env.assistantAppended = false then some t
  else
    let t := t ++ [assistantMessage turn]
    if turn.toolRequests ≠ [] then
      match turn.toolRequests.find? (·.toolName = "compact_context") with
      | some compact =>
        some (appendToolResult env t [⟨compact.toolCallId, env.compactStatus, env.compactContent, []⟩])
      | none =>
        let safe := fun r : ToolRequest => schemas.any fun s => s.toolName = r.toolName && s.concurrencySafe
        match ((executeTools agentRunId safe turn.toolRequests env.runs now).exec env.store).1 with
        | .error _ => none
        | .ok (blocks, _) => some (appendToolResult env t blocks)
    else if turn.stopSignal.isSome then some (t ++ env.reports.map note)
    else some t

/-- What is appended to a run's transcript: rounds, and between them child reports, resume
continuations and the final results of approved calls. -/
inductive TranscriptEvent (schemas : List ToolSchema)
  | round (turn : AcceptedTurn schemas) (env : RoundEnv) (now : Time)
  | userNote (text : String)
  | finalResult (block : ToolResultBlock)

open TranscriptEvent

section Runs
variable {schemas : List ToolSchema} (agentRunId : String)

def TranscriptEvent.step (t : List Message) : TranscriptEvent schemas → Option (List Message)
  | .round turn env now => loopStep schemas agentRunId turn.toTurn env now t
  | .userNote text => some (t ++ [note text])
  | .finalResult block => some (t ++ [⟨.user, [.toolResult block]⟩])

def TranscriptEvent.isRound : TranscriptEvent schemas → Bool
  | .round _ _ _ => true
  | _ => false

/-- After every completed round of the run the transcript is groupable. -/
def StaysGroupable (t : List Message) : List (TranscriptEvent schemas) → Prop
  | [] => True
  | e :: es => ∀ t', e.step agentRunId t = some t' → (e.isRound = true → Groupable t') ∧ StaysGroupable t' es

/-- The round does not leave a tool use without its result: it stored no assistant message, or
used no tools, or its result message was stored and a `compact_context` request stood alone. -/
def TranscriptEvent.Paired : TranscriptEvent schemas → Prop
  | .round turn env _ => env.assistantAppended = false ∨ turn.toolRequests = [] ∨
      (env.resultAppended = true ∧ ∀ compact ∈ turn.toolRequests,
        compact.toolName = "compact_context" → turn.toolRequests = [compact])
  | _ => True

/-- Every completed round of the run is paired. -/
def AllPaired (t : List Message) : List (TranscriptEvent schemas) → Prop
  | [] => True
  | e :: es => ∀ t', e.step agentRunId t = some t' → e.Paired ∧ AllPaired t' es

lemma assistantMessage_toolIds (turn : Turn) :
    (assistantMessage turn).toolIds = turn.toolRequests.map (·.toolCallId) := by
  simp only [assistantMessage, Message.toolIds, filterMap_append, filterMap_map]
  have hcomp : (Block.toolUseId ∘ fun r : ToolRequest => Block.toolUse r.toolCallId r.toolName) =
      fun r => some r.toolCallId := rfl
  rw [hcomp, filterMap_eq_map']
  simp [Block.toolUseId]

lemma toolResult_resultIds (blocks : List ToolResultBlock) :
    (⟨.user, blocks.map .toolResult⟩ : Message).resultIds = blocks.map (·.toolCallId) := by
  have hcomp : Block.toolResultId ∘ Block.toolResult = fun b => some b.toolCallId := rfl
  simp only [Message.resultIds, filterMap_map, hcomp, filterMap_eq_map']

lemma sameIds_self (xs : List String) : sameIds xs xs = true := by simp [sameIds]

lemma sameIds_singleton {requests : List ToolRequest} {compact : ToolRequest}
    (hnodup : (requests.map (·.toolCallId)).Nodup) (hmem : compact ∈ requests) :
    sameIds [compact.toolCallId] (requests.map (·.toolCallId)) = true ↔ requests = [compact] := by
  constructor
  · intro h
    have hall : ∀ r ∈ requests, r.toolCallId = compact.toolCallId := by
      simpa [sameIds] using (Bool.and_eq_true_iff.mp h).2
    have heq : ∀ r ∈ requests, r = compact := fun r hr =>
      inj_on_of_nodup_map hnodup hr hmem (hall r hr)
    have hrep := eq_replicate_iff.mpr ⟨rfl, heq⟩
    have hdup : requests.Nodup := hnodup.of_map
    rw [hrep, nodup_replicate] at hdup
    have hpos := length_pos_of_mem hmem
    rw [hrep, show requests.length = 1 by omega]
    rfl
  · rintro rfl
    exact sameIds_self _

lemma groupable_exchange {t : List Message} (ht : Groupable t) {turn : Turn}
    (huse : turn.toolRequests ≠ []) (env : RoundEnv) {blocks : List ToolResultBlock} (hblocks : blocks ≠ []) :
    Groupable (appendToolResult env (t ++ [assistantMessage turn]) blocks) ↔ env.resultAppended = true ∧
        sameIds (blocks.map (·.toolCallId)) (turn.toolRequests.map (·.toolCallId)) = true := by
  have hids : (assistantMessage turn).toolIds ≠ [] := by
    rw [assistantMessage_toolIds]
    simpa using huse
  unfold appendToolResult
  cases env.resultAppended with
  | false =>
    simp only [Bool.false_eq_true, false_and, if_false, iff_false]
    rw [groupable_append ht, groupable_singleton]
    exact hids
  | true =>
    simp only [hblocks, ne_eq, not_false_eq_true, true_and, if_true, append_assoc, cons_append, nil_append]
    rw [groupable_append ht, groupable_pair hids, assistantMessage_toolIds, toolResult_resultIds]

lemma groupable_notes (texts : List String) : Groupable (texts.map note) := by
  induction texts with
  | nil => rfl
  | cons text texts ih =>
    have hone : Groupable [note text] := rfl
    exact (groupable_append hone _).mpr ih

lemma round_groupable_iff {t t' : List Message} (ht : Groupable t) (turn : AcceptedTurn schemas)
    (env : RoundEnv) (now : Time) (h : loopStep schemas agentRunId turn.toTurn env now t = some t') :
    Groupable t' ↔ (round turn env now).Paired := by
  have hok : (groupMessages t).isOk ≠ false := by rw [show _ = true from ht]; decide
  unfold loopStep at h
  cases hassistant : env.assistantAppended with
  | false =>
    rw [if_pos (.inr hassistant)] at h
    obtain rfl := Option.some.inj h
    exact iff_of_true ht (.inl hassistant)
  | true =>
    rw [if_neg (by simp [hok, hassistant])] at h
    simp only [TranscriptEvent.Paired, hassistant, Bool.true_eq_false, false_or]
    by_cases huse : turn.toolRequests = []
    · simp only [huse, ne_eq, not_true_eq_false, if_false] at h
      refine iff_of_true ?_ (.inl huse)
      have hone : Groupable [assistantMessage turn.toTurn] := by
        rw [groupable_singleton, assistantMessage_toolIds, huse]
        rfl
      have hround := (groupable_append ht _).mpr hone
      split_ifs at h
      · obtain rfl := Option.some.inj h
        exact (groupable_append hround _).mpr (groupable_notes env.reports)
      · obtain rfl := Option.some.inj h
        exact hround
    · simp only [huse, ne_eq, not_false_eq_true, if_true, false_or] at h ⊢
      have hnodup : (turn.toolRequests.map (·.toolCallId)).Nodup := by
        have hchecked := turn.requestsChecked
        simp only [Turn.checkToolRequests, Bool.and_eq_true, decide_eq_true_eq] at hchecked
        exact hchecked.1
      cases hcompact : turn.toolRequests.find? (·.toolName = "compact_context") with
      | some compact =>
        simp only [hcompact, Option.some.injEq] at h
        subst h
        have hmem := mem_of_find?_eq_some hcompact
        have hname : compact.toolName = "compact_context" := by simpa using find?_some hcompact
        rw [groupable_exchange ht huse env (by simp), map_singleton, sameIds_singleton hnodup hmem]
        refine and_congr_right fun _ => ⟨fun hone r hr _ => ?_, fun hall => hall compact hmem hname⟩
        rw [hone, mem_singleton] at hr
        rw [hone, hr]
      | none =>
        simp only [hcompact] at h
        have hids := executeTools_ids agentRunId
          (fun r => schemas.any fun s => s.toolName = r.toolName && s.concurrencySafe)
          turn.toolRequests env.runs now env.store
        split at h
        · cases h
        · rename_i blocks stop hexec
          obtain rfl := Option.some.inj h
          have heq := hids blocks stop hexec
          have hblocks : blocks ≠ [] := by
            rintro rfl
            exact huse (by simpa using heq.symm)
          rw [groupable_exchange ht huse env hblocks, heq, sameIds_self]
          refine and_congr_right fun _ => iff_of_true rfl fun r hr hname => ?_
          exact absurd hname (by simpa using find?_eq_none.mp hcompact r hr)

/-- Transcript pairing: after every completed round of a run the transcript is groupable
exactly when every completed round is paired. -/
theorem staysGroupable_iff_allPaired (text : String) (es : List (TranscriptEvent schemas)) :
    StaysGroupable agentRunId [note text] es ↔ AllPaired agentRunId [note text] es := by
  have hgeneral : ∀ t : List Message, Groupable t →
      (StaysGroupable agentRunId t es ↔ AllPaired agentRunId t es) := by
    induction es with
    | nil => exact fun _ _ => Iff.rfl
    | cons e es ih =>
      intro t ht
      refine forall_congr' fun t' => forall_congr' fun hstep => ?_
      cases e with
      | round turn env now =>
        have hround := round_groupable_iff agentRunId ht turn env now hstep
        simp only [isRound, true_implies, hround]
        refine and_congr_right fun hpaired => ih t' (hround.mpr hpaired)
      | userNote text =>
        obtain rfl := Option.some.inj hstep
        simp only [isRound, Bool.false_eq_true, false_implies, TranscriptEvent.Paired, true_and]
        exact ih _ ((groupable_append ht _).mpr rfl)
      | finalResult block =>
        obtain rfl := Option.some.inj hstep
        simp only [isRound, Bool.false_eq_true, false_implies, TranscriptEvent.Paired, true_and]
        exact ih _ ((groupable_append ht _).mpr rfl)
  exact hgeneral [note text] rfl

end Runs

def twoSchemas : List ToolSchema := [⟨"log_search", true⟩, ⟨"compact_context", false⟩]

def mixedTurn : AcceptedTurn twoSchemas where
  toolRequests := [⟨"tool-1", "log_search"⟩, ⟨"tool-2", "compact_context"⟩]
  oneContinuation := by decide
  requestsChecked := by decide

/-- The round answers the compaction only, and the search stays without its result. -/
theorem mixedTurn_not_groupable :
    (round mixedTurn {} 0).step "run-1" [note "Symptom: timeouts"] =
        some [note "Symptom: timeouts", assistantMessage mixedTurn.toTurn,
          ⟨.user, [.toolResult ⟨"tool-2", .succeeded, "[Context compacted]", []⟩]⟩] ∧
      ¬ StaysGroupable "run-1" [note "Symptom: timeouts"] [round mixedTurn {} 0] := by
  have hstep : (round mixedTurn {} 0).step "run-1" [note "Symptom: timeouts"] =
      some [note "Symptom: timeouts", assistantMessage mixedTurn.toTurn,
        ⟨.user, [.toolResult ⟨"tool-2", .succeeded, "[Context compacted]", []⟩]⟩] := by
    decide +kernel
  exact ⟨hstep, fun h => absurd ((h _ hstep).1 rfl) (by decide)⟩

end IncidentLens.Investigations
