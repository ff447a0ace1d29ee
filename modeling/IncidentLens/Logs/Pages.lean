import Mathlib.Data.List.Sort
import IncidentLens.Logs.Store

/-!
# Pages of the log history

A page holds the rows that pass a filter, in the order of the stream sequence, from a position
on and up to a snapshot.
-/
namespace IncidentLens.Logs

open List

structure PageQuery where
  serviceName : String
  beforeSequence : Option ℕ := none
  afterSequence : Option ℕ := none
  snapshotSequence : Option ℕ := none
  limit : ℕ := 200
  severity : Option String := none
  sourceRef : Option String := none
  allowedTargetIds : Option (List String) := none

def PageQuery.admits (query : PageQuery) (row : LogRecord) : Bool :=
  row.serviceName = query.serviceName && query.severity.all (fun severity => row.severity.value = severity) &&
    query.sourceRef.all (fun sourceRef => row.sourceRef = sourceRef) &&
    query.allowedTargetIds.all (fun ids => ids.contains row.targetId)

def PageQuery.bounds (query : PageQuery) (row : LogRecord) : Bool :=
  query.snapshotSequence.all (fun snapshot => row.streamSequence ≤ snapshot) &&
    match query.beforeSequence with
    | some before => decide (row.streamSequence ≤ before)
    | none => decide (query.afterSequence.getD 0 < row.streamSequence)

/-- A number that does not fit an SQLite integer. -/
def unbindable (sequence : Option ℕ) : Bool := sequence.any fun n => 2 ^ 63 ≤ n

/-- `ORDER BY stream_sequence`. -/
def orderBySequence (descending : Bool) (rows : List LogRecord) : List LogRecord :=
  rows.mergeSort fun a b =>
    if descending then b.streamSequence ≤ a.streamSequence else a.streamSequence ≤ b.streamSequence

def listProductPage (rows : List LogRecord) (query : PageQuery) : Except String (List LogRecord × Bool) :=
  if query.beforeSequence.isSome && query.afterSequence.isSome then
    .error "before and after sequences are mutually exclusive"
  else if query.limit < 1 || 500 < query.limit then .error "limit must be between 1 and 500"
  else if unbindable query.snapshotSequence || unbindable query.beforeSequence || unbindable query.afterSequence then
    .error "Python int too large to convert to SQLite INTEGER"
  else
    let descending := query.beforeSequence.isSome
    let found := (orderBySequence descending (rows.filter fun row => query.admits row && query.bounds row)).take
      (query.limit + 1)
    let selected := found.take query.limit
    .ok (if descending then selected.reverse else selected, query.limit < found.length)

def Sequenced (rows : List LogRecord) : Prop := (rows.map LogRecord.streamSequence).Nodup

lemma le_latestProductSequence {rows : List LogRecord} {row : LogRecord} (h : row ∈ rows) :
    row.streamSequence ≤ latestProductSequence rows := by
  induction rows with
  | nil => cases h
  | cons first rows ih =>
    rw [latestProductSequence, map_cons, foldr_cons]
    cases mem_cons.mp h with
    | inl h => exact h ▸ le_max_left _ _
    | inr h => exact le_max_of_le_right (ih h)

lemma latestProductSequence_append (rows new : List LogRecord) :
    latestProductSequence (rows ++ new) = max (latestProductSequence rows) (latestProductSequence new) := by
  induction rows with
  | nil => simp [latestProductSequence]
  | cons row rows ih =>
    simp only [latestProductSequence, cons_append, map_cons, foldr_cons] at ih ⊢
    rw [ih, max_assoc]

lemma appendBatch_eq (rows records : List LogRecord) :
    ∃ new, (appendBatch rows records).1 = rows ++ new ∧ (∀ r ∈ new, latestProductSequence rows < r.streamSequence) ∧
      (Sequenced rows → Sequenced (rows ++ new)) := by
  rw [appendBatch_fst]
  induction records generalizing rows with
  | nil => exact ⟨[], (append_nil _).symm, by simp, by simp⟩
  | cons record records ih =>
    rw [foldl_cons, insertOrIgnore]
    split_ifs with hconflict
    · exact ih rows
    · obtain ⟨new, hrows, hlater, hunique⟩ := ih (rows ++ [{ record with streamSequence := latestProductSequence rows + 1 }])
      rw [latestProductSequence_append] at hlater
      refine ⟨_, by rw [hrows, append_assoc], fun r hr => ?_, fun h => ?_⟩
      · cases mem_cons.mp hr with
        | inl h => rw [h]; exact Nat.lt_succ_self _
        | inr h => exact (Nat.le_max_left _ _).trans_lt (hlater r h)
      · rw [← append_assoc]
        refine hunique ?_
        rw [Sequenced, map_append, nodup_append]
        refine ⟨h, nodup_singleton _, fun a ha b hb hab => ?_⟩
        obtain ⟨row, hrow, rfl⟩ := mem_map.mp ha
        have := le_latestProductSequence hrow
        simp only [map_cons, map_nil, mem_singleton] at hb
        omega

section Pages
variable {rows : List LogRecord} {query : PageQuery}

lemma mem_orderBySequence {descending : Bool} {row : LogRecord} :
    row ∈ orderBySequence descending rows ↔ row ∈ rows := mem_mergeSort

lemma orderBySequence_ascending (h : Sequenced rows) :
    (orderBySequence false rows).Pairwise fun a b => a.streamSequence < b.streamSequence := by
  have hle : (orderBySequence false rows).Pairwise fun a b => a.streamSequence ≤ b.streamSequence := by
    have hsorted := @pairwise_mergeSort LogRecord (fun a b => decide (a.streamSequence ≤ b.streamSequence))
      (by intro a b c hab hbc; simp only [decide_eq_true_eq] at *; omega)
      (by intro a b; simp only [Bool.or_eq_true, decide_eq_true_eq]; omega) rows
    simpa [orderBySequence] using hsorted
  have hne : (orderBySequence false rows).Pairwise fun a b => a.streamSequence ≠ b.streamSequence := by
    rw [← pairwise_map]
    exact ((mergeSort_perm _ _).map _).nodup_iff.mpr h
  exact hle.imp₂ (fun _ _ hle hne => lt_of_le_of_ne hle hne) hne

lemma orderBySequence_of_pairwise (h : rows.Pairwise fun a b => a.streamSequence < b.streamSequence) :
    orderBySequence false rows = rows :=
  mergeSort_of_pairwise (h.imp fun hlt => decide_eq_true hlt.le)

lemma Sequenced.filter (h : Sequenced rows) (p : LogRecord → Bool) : Sequenced (rows.filter p) :=
  h.sublist (filter_sublist.map _)

lemma bounds_after {row : LogRecord} {after snapshot : ℕ} (hbefore : query.beforeSequence = none)
    (hafter : query.afterSequence = some after) (hsnapshot : query.snapshotSequence = some snapshot) :
    query.bounds row ↔ row.streamSequence ≤ snapshot ∧ after < row.streamSequence := by
  rw [PageQuery.bounds, hbefore, hafter, hsnapshot]
  simp

lemma listProductPage_after (hrows : Sequenced rows) (hbefore : query.beforeSequence = none)
    {page : List LogRecord} {more : Bool} (h : listProductPage rows query = .ok (page, more)) :
    (page.Pairwise fun a b => a.streamSequence < b.streamSequence) ∧
    (∀ row ∈ page, row ∈ rows ∧ query.admits row ∧ query.bounds row) ∧
    ∀ row ∈ rows, query.admits row → query.bounds row → row ∈ page ∨
      more = true ∧ ∃ last, page.getLast? = some last ∧ last.streamSequence < row.streamSequence := by
  unfold listProductPage at h
  simp only [hbefore, Option.isSome_none, Bool.false_and, Bool.false_eq_true, if_false] at h
  split_ifs at h with hlimit hbind
  obtain ⟨rfl, rfl⟩ := Prod.mk.inj (Except.ok.inj h)
  simp only [Bool.or_eq_true, decide_eq_true_eq, not_or, Nat.not_lt] at hlimit
  set ordered := orderBySequence false (rows.filter fun row => query.admits row && query.bounds row) with hordered
  have hsorted := orderBySequence_ascending (hrows.filter fun row => query.admits row && query.bounds row)
  rw [← hordered] at hsorted
  have htake : (ordered.take (query.limit + 1)).take query.limit = ordered.take query.limit := by
    rw [take_take, Nat.min_eq_left (by omega)]
  rw [htake]
  have hmem : ∀ row, row ∈ ordered ↔ row ∈ rows ∧ query.admits row ∧ query.bounds row := by
    intro row
    rw [hordered, mem_orderBySequence, mem_filter, Bool.and_eq_true]
  have hcut := take_append_drop query.limit ordered
  refine ⟨hsorted.sublist (take_sublist _ _), fun row hrow => (hmem row).mp (mem_of_mem_take hrow),
    fun row hrow hadmits hbounds => ?_⟩
  have hrow := (hmem row).mpr ⟨hrow, hadmits, hbounds⟩
  rw [← hcut, mem_append] at hrow
  cases hrow with
  | inl hrow => exact .inl hrow
  | inr hrow =>
    have hlong : query.limit < ordered.length := by
      have := length_pos_of_mem hrow
      rw [length_drop] at this
      omega
    have hne : ordered.take query.limit ≠ [] := by
      rw [Ne, ← length_eq_zero_iff, length_take]
      omega
    rw [← hcut, pairwise_append] at hsorted
    refine .inr ⟨?_, _, getLast?_eq_some_getLast hne, hsorted.2.2 _ (getLast_mem hne) row hrow⟩
    rw [length_take]
    simp only [decide_eq_true_eq]
    omega

lemma listProductPage_all (hsorted : rows.Pairwise fun a b => a.streamSequence < b.streamSequence)
    (hbefore : query.beforeSequence = none) (hsnapshot : unbindable query.snapshotSequence = false)
    (hafter : unbindable query.afterSequence = false) (hlimit : query.limit ≤ 500) (hsome : 1 ≤ query.limit)
    (hall : ∀ row ∈ rows, query.admits row && query.bounds row) (hlength : rows.length ≤ query.limit) :
    listProductPage rows query = .ok (rows, false) := by
  have hfilter : rows.filter (fun row => query.admits row && query.bounds row) = rows := filter_eq_self.mpr hall
  have htake : rows.take (query.limit + 1) = rows := take_of_length_le (by omega)
  have hlimits : (decide (query.limit < 1) || decide (500 < query.limit)) = false := by
    simp only [Bool.or_eq_false_iff, decide_eq_false_iff_not]
    omega
  have hnone : unbindable none = false := rfl
  simp only [listProductPage, hbefore, Option.isSome_none, Bool.false_and, Bool.false_eq_true, if_false, hlimits,
    hsnapshot, hafter, hnone, Bool.or_self, hfilter, orderBySequence_of_pairwise hsorted, htake,
    take_of_length_le hlength, not_lt.mpr hlength, decide_false]

end Pages
end IncidentLens.Logs
