import IncidentLens.Investigations.Transcript
import Mathlib.Data.List.Chain

/-!
# The batches of a turn

`partitionToolBatches` folds over the requests with the batches that are closed and the one
that is still open. `Batched` says what the closed ones are at every step.
-/
namespace IncidentLens.Investigations.ToolBatches
open Data Effects StateError List

/-- `schema_by_name`: of the schemas of one name, the last. -/
def schemaByName (schemas : List ToolSchema) (toolName : String) : Option ToolSchema :=
  schemas.reverse.find? (·.toolName = toolName)

/-- Whether a request may share its batch; a tool without a schema may not. -/
def concurrencySafe (schemas : List ToolSchema) (request : ToolRequest) : Bool :=
  ((schemaByName schemas request.toolName).map (·.concurrencySafe)).getD false

section
variable {safe : ToolRequest → Bool} {requests current : List ToolRequest} {batches : List (List ToolRequest)}

def AllSafe (safe : ToolRequest → Bool) (batch : List ToolRequest) : Prop := ∀ request ∈ batch, safe request = true

/-- The batches hold the requests in order, an unsafe one alone, and no two safe batches meet. -/
structure Batched (safe : ToolRequest → Bool) (requests : List ToolRequest)
    (batches : List (List ToolRequest)) : Prop where
  flatten : batches.flatten = requests
  nonempty : [] ∉ batches
  alone : ∀ batch ∈ batches, ∀ request ∈ batch, safe request = false → batch = [request]
  apart : batches.IsChain fun a b => ¬(AllSafe safe a ∧ AllSafe safe b)

/-- The requests that were read, in batches up to a safe batch that is still open. -/
structure Batching (safe : ToolRequest → Bool) (requests : List ToolRequest)
    (batches : List (List ToolRequest)) (current : List ToolRequest) : Prop where
  closed : Batched safe batches.flatten batches
  read : requests = batches.flatten ++ current
  open_ : AllSafe safe current
  ended : ∀ batch ∈ batches.getLast?, ¬AllSafe safe batch

lemma Batched.concat (h : Batched safe requests batches) (hne : current ≠ [])
    (halone : ∀ request ∈ current, safe request = false → current = [request])
    (hapart : ∀ batch ∈ batches.getLast?, ¬(AllSafe safe batch ∧ AllSafe safe current)) :
    Batched safe (requests ++ current) (batches ++ [current]) where
  flatten := by simp [h.flatten]
  nonempty := by simpa [h.nonempty] using hne
  alone := by
    intro batch hbatch
    rcases mem_append.mp hbatch with hbatch | hbatch
    · exact h.alone batch hbatch
    · cases mem_singleton.mp hbatch
      exact halone
  apart := by
    apply h.apart.append (.singleton current)
    simpa using hapart

lemma Batching.close (h : Batching safe requests batches current) :
    Batched safe requests (if current ≠ [] then batches ++ [current] else batches) := by
  rw [h.read]
  split_ifs with hcurrent
  · apply h.closed.concat hcurrent
    · intro request hrequest hnotSafe
      exact absurd (h.open_ request hrequest) (by simp [hnotSafe])
    · exact fun batch hbatch hsafe => h.ended batch hbatch hsafe.1
  · simpa [not_not.mp hcurrent] using h.closed

lemma Batching.share (h : Batching safe requests batches current) {request : ToolRequest}
    (hsafe : safe request = true) : Batching safe (requests ++ [request]) batches (current ++ [request]) where
  closed := h.closed
  read := by rw [h.read, append_assoc]
  open_ := by
    intro r hr
    rcases mem_append.mp hr with hr | hr
    · exact h.open_ r hr
    · rwa [mem_singleton.mp hr]
  ended := h.ended

lemma Batching.apart (h : Batching safe requests batches current) {request : ToolRequest}
    (hnotSafe : safe request = false) : Batching safe (requests ++ [request])
      ((if current ≠ [] then batches ++ [current] else batches) ++ [[request]]) [] := by
  have hnot : ¬AllSafe safe [request] := fun hall => by simpa [hnotSafe] using hall request (by simp)
  have hclosed := h.close.concat (cons_ne_nil request [])
    (fun r hr _ => by rw [mem_singleton.mp hr]) (fun _ _ hsafe => hnot hsafe.2)
  refine ⟨?_, ?_, ?_, ?_⟩
  · rwa [hclosed.flatten]
  · rw [hclosed.flatten, append_nil]
  · exact fun _ hr => absurd hr not_mem_nil
  · simpa using hnot

lemma Batching.run (rest : List ToolRequest) (h : Batching safe requests batches current) :
    Batched safe (requests ++ rest) (partitionToolBatches safe batches current rest) := by
  induction rest generalizing requests batches current with
  | nil => simpa [partitionToolBatches] using h.close
  | cons request rest ih =>
    rw [append_cons]
    cases hsafe : safe request with
    | true => simpa [partitionToolBatches, hsafe] using ih (h.share hsafe)
    | false => simpa [partitionToolBatches, hsafe] using ih (h.apart hsafe)

lemma batched_partitionToolBatches (safe : ToolRequest → Bool) (requests : List ToolRequest) :
    Batched safe requests (partitionToolBatches safe [] [] requests) := by
  have hstart : Batching safe [] [] [] :=
    ⟨⟨rfl, not_mem_nil, fun _ h => absurd h not_mem_nil, .nil⟩, rfl, fun _ h => absurd h not_mem_nil, by simp⟩
  simpa using hstart.run requests

end

/-- The batches keep the requests in order, each one that is not concurrency safe alone, with no
two safe batches next to each other; and unless a batch raises, the results answer the requests
one by one, wherever the batches stopped. -/
theorem tool_batches_answer_requests (schemas : List ToolSchema) (requests : List ToolRequest)
    (agentRunId : String) (runs : ℕ → BatchRun) (now : Time) (s : Store) :
    (partitionToolBatches (concurrencySafe schemas) [] [] requests).flatten = requests ∧
    (∀ batch ∈ partitionToolBatches (concurrencySafe schemas) [] [] requests, batch ≠ [] ∧
      ∀ request ∈ batch, concurrencySafe schemas request = false → batch = [request]) ∧
    (partitionToolBatches (concurrencySafe schemas) [] [] requests).IsChain
      (fun a b => ¬(AllSafe (concurrencySafe schemas) a ∧ AllSafe (concurrencySafe schemas) b)) ∧
    ∀ blocks stop, ((executeBatches agentRunId runs now 0
        (partitionToolBatches (concurrencySafe schemas) [] [] requests)).exec s).1 = .ok (blocks, stop) →
      ∃ results, ((executeTools agentRunId (concurrencySafe schemas) requests runs now).exec s).1 =
          .ok (results, stop) ∧ results.map (·.toolCallId) = requests.map (·.toolCallId) := by
  have h := batched_partitionToolBatches (concurrencySafe schemas) requests
  refine ⟨h.flatten, fun batch hbatch => ⟨fun hnil => h.nonempty (hnil ▸ hbatch), h.alone batch hbatch⟩,
    h.apart, fun blocks stop hblocks => ?_⟩
  refine ⟨requests.map (blockFor blocks), ?_, ?_⟩
  · rw [executeTools, exec_bind]
    cases hexec : (executeBatches agentRunId runs now 0
        (partitionToolBatches (concurrencySafe schemas) [] [] requests)).exec s with
    | mk r t =>
      rw [hexec] at hblocks
      cases (hblocks : r = .ok (blocks, stop))
      rfl
  · rw [map_map]
    exact map_congr_left fun request _ => blockFor_toolCallId blocks request

end IncidentLens.Investigations.ToolBatches
