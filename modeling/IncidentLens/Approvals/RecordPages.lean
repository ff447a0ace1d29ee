import IncidentLens.Approvals.ReadBack
import IncidentLens.Operations.Payloads

/-!
# Listing approvals in pages

`list_page` selects rows by what they are linked to and joins them with the bindings of their targets; the pages are
in the order of the texts of `created_at`. Where every row can be read, the pages list every approval once.
-/
namespace IncidentLens.Approvals.Records
open Data Keyset List
open Operations.Payloads (literalNumbers)

structure ListFilter where
  status : Option ApprovalStatus := none
  targetId : Option String := none
  sessionId : Option String := none
  investigationId : Option String := none
  allowedTargetIds : Option (List String) := none

structure Binding where
  targetId : String
  projectId : String
  registryTargetId : String

/-- The rows of `target_facade_bindings`: `UNIQUE (project_id, registry_target_id)`. -/
structure Bindings where
  rows : List Binding
  unique : (rows.map fun b => (b.projectId, b.registryTargetId)).Nodup

/-- The condition of the join; a column that is null is equal to nothing. -/
def Binding.joins (links : Links) (b : Binding) : Bool :=
  decide (links .project = some b.projectId ∧ links .target = some b.registryTargetId)

/-- `LEFT JOIN`, where there is a table of bindings. -/
def leftJoin (bindings : Option Bindings) (rows : List Row) : List (Row × Option Binding) :=
  rows.flatMap fun row => match (bindings.map Bindings.rows).getD [] |>.filter (Binding.joins row.links) with
    | [] => [(row, none)]
    | found => found.map fun b => (row, some b)

/-- `CASE WHEN a.project_id IS NOT NULL THEN tfb.target_id ELSE a.target_id END`, or `a.target_id` without the table. -/
def resolvedTarget (bindings : Option Bindings) (links : Links) (joined : Option Binding) : Option String :=
  if bindings.isSome ∧ (links .project).isSome then joined.map Binding.targetId else links .target

def ListFilter.selects (filter : ListFilter) (target : Option String) (status : ApprovalStatus) (links : Links) : Bool :=
  filter.status.all (fun s => decide (status = s)) && filter.targetId.all (fun t => decide (target = some t)) &&
    filter.sessionId.all (fun id => decide (links .session = some id)) &&
    filter.investigationId.all (fun id => decide (links .investigation = some id)) &&
    filter.allowedTargetIds.all fun allowed => target.any fun t => decide (t ∈ allowed)

/-- Where a row stands in the order of a listing. -/
def Row.position (row : Row) : Text ×ₗ String := toLex (row.createdAt, row.approvalId)

/-- `(a.created_at > ? OR (a.created_at = ? AND a.approval_id > ?))`. -/
def Row.isBehind (after : Option (Text ×ₗ String)) (row : Row) : Bool :=
  after.all fun p => decide ((ofLex p).1 < row.createdAt ∨ row.createdAt = (ofLex p).1 ∧ (ofLex p).2 < row.approvalId)

section
variable (numbers : Json.Numbers)

/-- `list_page` behind a text of `created_at` and an id. -/
def ApprovalStore.pageBehind (s : ApprovalStore) (bindings : Option Bindings) (filter : ListFilter) (limit : ℕ)
    (after : Option (Text ×ₗ String)) : Option (List ApprovalRecord × Bool) :=
  if filter.allowedTargetIds = some [] then some ([], false)
  else
    let selected := (leftJoin bindings s.rows).filter fun joined =>
      filter.selects (resolvedTarget bindings joined.1.links joined.2) joined.1.status joined.1.links &&
        joined.1.isBehind after
    let rows := (inOrder Row.position (selected.map Prod.fst)).take (limit + 1)
    ((rows.take limit).mapM (recordFromRow numbers)).map fun items => (items, decide (limit < rows.length))

def stamp (after : DateTime × String) : Text ×ₗ String := toLex (after.1.isoformat, after.2)

def ApprovalStore.listPage (s : ApprovalStore) (bindings : Option Bindings) (filter : ListFilter) (limit : ℕ)
    (after : Option (DateTime × String)) : Option (List ApprovalRecord × Bool) :=
  s.pageBehind numbers bindings filter limit (after.map stamp)

/-- The loop of `list`, with a size of the pages. -/
def ApprovalStore.list (s : ApprovalStore) (bindings : Option Bindings) (filter : ListFilter) (limit n : ℕ) :
    Option (List ApprovalRecord) :=
  walk (s.listPage numbers bindings filter limit) (fun record => (record.createdAt, record.approvalId)) n none

/-! ### What a listing is to show -/

/-- The product's target that links stand for. -/
def resolveTarget (bindings : Option Bindings) (links : Links) : Option String :=
  resolvedTarget bindings links (((bindings.map Bindings.rows).getD []).find? (Binding.joins links))

def ListFilter.admits (filter : ListFilter) (bindings : Option Bindings) (row : Row) : Bool :=
  filter.selects (resolveTarget bindings row.links) row.status row.links

/-- Every matching approval once, in the order of the times and then of the ids. -/
structure ApprovalStore.Lists (s : ApprovalStore) (bindings : Option Bindings) (filter : ListFilter)
    (found : List ApprovalRecord) : Prop where
  complete : (found.map some).Perm ((s.rows.filter (filter.admits bindings)).map (recordFromRow numbers))
  ordered : found.Pairwise fun a b => a.createdAt < b.createdAt ∨ a.createdAt = b.createdAt ∧ a.approvalId < b.approvalId

/-- The pages of any size list every approval that matches any filter. -/
def ApprovalStore.PagesComplete (s : ApprovalStore) : Prop :=
  ∀ bindings filter limit, 0 < limit → ∃ found, s.Lists numbers bindings filter found ∧
    ∀ n, s.rows.length < n → s.list numbers bindings filter limit n = some found

variable {numbers}

/-! ### The join -/

lemma filter_eq_find? {α : Type} {p : α → Bool} {items : List α}
    (h : items.Pairwise fun a b => ¬ (p a = true ∧ p b = true)) : items.filter p = (items.find? p).toList := by
  induction items with
  | nil => rfl
  | cons a items ih =>
    obtain ⟨hfirst, hrest⟩ := pairwise_cons.mp h
    cases ha : p a with
    | true =>
      have hnone : items.filter p = [] := filter_eq_nil_iff.mpr fun b hb hp => hfirst b hb ⟨ha, hp⟩
      rw [filter_cons_of_pos ha, find?_cons_of_pos ha, hnone]
      rfl
    | false => rw [filter_cons_of_neg (by simp [ha]), find?_cons_of_neg (by simp [ha]), ih hrest]

lemma joins_unique (bindings : Option Bindings) (links : Links) :
    ((bindings.map Bindings.rows).getD []).Pairwise fun a b =>
      ¬ (Binding.joins links a = true ∧ Binding.joins links b = true) := by
  cases bindings with
  | none => exact List.Pairwise.nil
  | some bindings =>
    refine (pairwise_map.mp bindings.unique).imp fun {a b} hne hboth => hne ?_
    obtain ⟨hproject, htarget⟩ := of_decide_eq_true hboth.1
    obtain ⟨hproject', htarget'⟩ := of_decide_eq_true hboth.2
    exact Prod.ext (Option.some.inj (hproject.symm.trans hproject')) (Option.some.inj (htarget.symm.trans htarget'))

lemma leftJoin_eq (bindings : Option Bindings) (rows : List Row) : leftJoin bindings rows =
    rows.map fun row => (row, ((bindings.map Bindings.rows).getD []).find? (Binding.joins row.links)) := by
  induction rows with
  | nil => rfl
  | cons row rows ih =>
    rw [leftJoin, flatMap_cons, ← leftJoin, ih, map_cons, filter_eq_find? (joins_unique bindings row.links)]
    cases ((bindings.map Bindings.rows).getD []).find? (Binding.joins row.links) <;> rfl

lemma isBehind_iff (after : Option (Text ×ₗ String)) (row : Row) :
    row.isBehind after = true ↔ ∀ k ∈ after, k < row.position := by
  cases after with
  | none => simp [Row.isBehind]
  | some p =>
    have hlt : p < row.position ↔
        (ofLex p).1 < row.createdAt ∨ (ofLex p).1 = row.createdAt ∧ (ofLex p).2 < row.approvalId := Prod.Lex.lt_iff
    rw [Row.isBehind, Option.all_some, decide_eq_true_eq, eq_comm, ← hlt]
    simp

lemma selected_eq (bindings : Option Bindings) (filter : ListFilter) (rows : List Row)
    (after : Option (Text ×ₗ String)) : ((leftJoin bindings rows).filter fun joined =>
      filter.selects (resolvedTarget bindings joined.1.links joined.2) joined.1.status joined.1.links &&
        joined.1.isBehind after).map Prod.fst =
      Keyset.behind Row.position (rows.filter (filter.admits bindings)) after := by
  rw [leftJoin_eq, filter_map, map_map, Keyset.behind, filter_filter]
  refine (map_id _).trans (filter_congr fun row _ => ?_)
  have hbehind : row.isBehind after = decide (∀ k ∈ after, k < row.position) := by
    rw [Bool.eq_iff_iff, isBehind_iff, decide_eq_true_eq]
  rw [Bool.and_comm, ← hbehind]
  rfl

/-! ### The pages -/

variable {s : ApprovalStore} {bindings : Option Bindings} {filter : ListFilter}

lemma isoformat_injective {a b : DateTime} (h : a.isoformat = b.isoformat) : a = b := by
  have hread := DateTime.fromIsoformat_isoformat a
  rw [h, DateTime.fromIsoformat_isoformat] at hread
  exact (Option.some.inj hread).symm

lemma nodup_positions (s : ApprovalStore) (p : Row → Bool) : ((s.rows.filter p).map Row.position).Nodup := by
  refine List.Nodup.of_map (fun k : Text ×ₗ String => (ofLex k).2) ?_
  rw [map_map]
  exact (s.unique.sublist (filter_sublist.map _))

lemma pageBehind_eq (hallowed : filter.allowedTargetIds ≠ some []) (limit : ℕ) {front back : List Row}
    (hsplit : inOrder Row.position (s.rows.filter (filter.admits bindings)) = front ++ back) :
    s.pageBehind numbers bindings filter limit (front.getLast?.map Row.position) =
      ((back.take limit).mapM (recordFromRow numbers)).map fun items => (items, decide (limit < back.length)) := by
  have hpage := page_eq (nodup_positions s (filter.admits bindings)) hsplit limit
  rw [page, Prod.mk.injEq] at hpage
  rw [ApprovalStore.pageBehind, if_neg hallowed]
  dsimp only
  rw [selected_eq, hpage.1, hpage.2]

lemma admits_of_none_allowed (h : filter.allowedTargetIds = some []) (row : Row) :
    filter.admits bindings row = false := by
  rw [ListFilter.admits, ListFilter.selects, h, Option.all_some]
  have hnone : (resolveTarget bindings row.links).any (fun t => decide (t ∈ ([] : List String))) = false := by
    cases resolveTarget bindings row.links <;> simp
  rw [hnone, Bool.and_false]

lemma stamp_of_recordFromRow {row : Row} {record : ApprovalRecord} (h : s.Sound numbers) (hrow : row ∈ s.rows)
    (hread : recordFromRow numbers row = some record) : stamp (record.createdAt, record.approvalId) = row.position := by
  obtain ⟨r, hr, rfl⟩ := h row hrow
  rw [recordFromRow_row hr] at hread
  split_ifs at hread
  rw [← Option.some.inj hread]
  rfl

lemma walk_stamp (pageAt : Option (Text ×ₗ String) → Option (List ApprovalRecord × Bool)) (n : ℕ)
    (after : Option (DateTime × String)) :
    walk (fun after => pageAt (after.map stamp)) (fun record => (record.createdAt, record.approvalId)) n after =
      walk pageAt (fun record => stamp (record.createdAt, record.approvalId)) n (after.map stamp) := by
  induction n generalizing after with
  | zero => rfl
  | succ n ih =>
    rw [walk, walk]
    refine congrArg _ (funext fun read => ?_)
    rw [ih, Option.map_map]
    rfl

lemma list_eq (h : s.Sound numbers) {limit n : ℕ} (hlimit : 0 < limit) (hn : s.rows.length < n) :
    s.list numbers bindings filter limit n =
      (inOrder Row.position (s.rows.filter (filter.admits bindings))).mapM (recordFromRow numbers) := by
  by_cases hallowed : filter.allowedTargetIds = some []
  · have hnone : s.rows.filter (filter.admits bindings) = [] :=
      filter_eq_nil_iff.mpr fun row _ => by rw [admits_of_none_allowed hallowed]; exact Bool.false_ne_true
    obtain ⟨n, rfl⟩ := Nat.exists_eq_succ_of_ne_zero (Nat.ne_zero_of_lt hn)
    have hpage : s.listPage numbers bindings filter limit none = some ([], false) := if_pos hallowed
    rw [hnone, ApprovalStore.list, walk, hpage]
    rfl
  · have hlength : (inOrder Row.position (s.rows.filter (filter.admits bindings))).length < n := by
      rw [(perm_inOrder _).length_eq]
      exact lt_of_le_of_lt (length_filter_le _ _) hn
    have hkey : ∀ row ∈ inOrder Row.position (s.rows.filter (filter.admits bindings)),
        ∀ record ∈ recordFromRow numbers row, stamp (record.createdAt, record.approvalId) = row.position :=
      fun row hrow record hread =>
        stamp_of_recordFromRow h (mem_of_mem_filter ((perm_inOrder _).mem_iff.mp hrow)) hread
    rw [ApprovalStore.list]
    exact (walk_stamp (s.pageBehind numbers bindings filter limit) n none).trans
      (walk_eq hlimit hkey (fun front back hsplit => pageBehind_eq hallowed limit hsplit) n [] _ rfl hlength)

/-! ### Complete listings -/

lemma exists_map_some {α β : Type} {read : α → Option β} {items : List α} (h : ∀ a ∈ items, (read a).isSome = true) :
    ∃ found : List β, items.map read = found.map some := by
  refine ⟨items.filterMap read, ?_⟩
  induction items with
  | nil => rfl
  | cons a items ih =>
    obtain ⟨b, hb⟩ := Option.isSome_iff_exists.mp (h a mem_cons_self)
    rw [map_cons, filterMap_cons_some hb, map_cons, hb, ih fun c hc => h c (mem_cons_of_mem _ hc)]

lemma filterMap_of_map_some {α β : Type} {read : α → Option β} {items : List α} {found : List β}
    (h : items.map read = found.map some) : items.filterMap read = found := by
  have hid := congrArg (filterMap id) h
  rwa [filterMap_map, filterMap_map, Function.id_comp, Function.id_comp, filterMap_some] at hid

lemma ordered_of_map_some (h : s.Sound numbers) {found : List ApprovalRecord}
    (hfound : (inOrder Row.position (s.rows.filter (filter.admits bindings))).map (recordFromRow numbers) =
      found.map some) :
    found.Pairwise fun a b => a.createdAt < b.createdAt ∨ a.createdAt = b.createdAt ∧ a.approvalId < b.approvalId := by
  have hpositions := pairwise_inOrder (nodup_positions s (filter.admits bindings))
  have hmem : ∀ row ∈ inOrder Row.position (s.rows.filter (filter.admits bindings)), row ∈ s.rows :=
    fun row hrow => mem_of_mem_filter ((perm_inOrder _).mem_iff.mp hrow)
  rw [← filterMap_of_map_some hfound, pairwise_filterMap]
  refine hpositions.imp_of_mem fun {a b} ha hb hlt record hrecord record' hrecord' => ?_
  rw [← stamp_of_recordFromRow h (hmem a ha) hrecord, ← stamp_of_recordFromRow h (hmem b hb) hrecord'] at hlt
  rcases Prod.Lex.lt_iff.mp hlt with htime | ⟨htime, hid⟩
  · exact .inl ((DateTime.isoformat_lt_iff _ _).mp htime)
  · exact .inr ⟨isoformat_injective htime, hid⟩

lemma pagesComplete_iff (h : s.Sound numbers) : s.PagesComplete numbers ↔ ∀ row ∈ s.rows, row.Fits := by
  have hfits : ∀ row ∈ s.rows, (recordFromRow numbers row).isSome = true ↔ row.Fits := by
    intro row hrow
    obtain ⟨r, hr, rfl⟩ := h row hrow
    exact isSome_recordFromRow_iff hr
  constructor
  · intro hpages row hrow
    obtain ⟨found, hlists, -⟩ := hpages none {} 1 one_pos
    have hread : recordFromRow numbers row ∈ found.map some :=
      hlists.complete.mem_iff.mpr (mem_map.mpr ⟨row, mem_filter.mpr ⟨hrow, rfl⟩, rfl⟩)
    obtain ⟨record, -, hrecord⟩ := mem_map.mp hread
    exact (hfits row hrow).mp (hrecord ▸ rfl)
  · intro hall bindings filter limit hlimit
    have hread : ∀ row ∈ inOrder Row.position (s.rows.filter (filter.admits bindings)),
        (recordFromRow numbers row).isSome = true := by
      intro row hrow
      have hmem := mem_of_mem_filter ((perm_inOrder _).mem_iff.mp hrow)
      exact (hfits row hmem).mpr (hall row hmem)
    obtain ⟨found, hfound⟩ := exists_map_some hread
    refine ⟨found, ⟨?_, ordered_of_map_some h hfound⟩, fun n hn => ?_⟩
    · rw [← hfound]
      exact (perm_inOrder _).map _
    · rw [list_eq h hlimit hn]
      exact mapM_eq_some.mpr hfound

lemma fits_record_iff (r : CreateRequest numbers) {expiresAt : DateTime} (h : (r.record expiresAt).valid = true) :
    (r.record expiresAt).row.Fits ↔ (r.risk = approvalRequired → ∀ s ∈ intentString r.intent "risk", s.length ≤ 80) := by
  have hlength : (r.record expiresAt).risk.length ≤ 80 := by
    simp only [ApprovalRecord.valid, Bool.and_eq_true] at h
    exact (of_decide_eq_true h.1.1.1.1.1.1.2).2
  have hrisk : (r.record expiresAt).row.risk =
      ((string (some r.risk)).orElse fun _ => intentString r.intent "risk").getD approvalRequired := rfl
  constructor
  · intro hfits hdefault
    refine hfits.intentRisk ?_
    rw [hrisk, hdefault]
    rfl
  · intro hintent
    have hnone : ∀ {n : ℕ}, ∀ s ∈ (none : Option String), s.length ≤ n := fun s hs => absurd hs (Option.not_mem_none s)
    refine ⟨hlength, fun hshown s hs => ?_, hnone, hnone, hnone, hnone, hnone, hnone⟩
    by_cases hgiven : r.risk = ""
    · have hs' : intentString r.intent "risk" = some s := hs
      rw [hrisk, hgiven, hs'] at hshown
      have hsame : s = approvalRequired := hshown
      rw [hsame]
      decide
    · rw [hrisk, string_some hgiven] at hshown
      exact hintent hshown s hs

/-- In every run: a record is read back as it was created, after any number of backfills, if and only if its request is
explicit; a second backfill changes nothing; and the pages of any size list every approval that matches any filter, once
and in order, if and only if every row fits a record. -/
theorem approvals_read_back_iff (operations : List (Operation numbers)) :
    (∀ (r : CreateRequest numbers) record s', createRequest (run operations) r = some (record, s') →
      (∀ n, (∃ s'' read, s'.migrations numbers n = some s'' ∧ s''.get numbers r.approvalId = some read ∧
        read.Equal record) ↔ r.Explicit) ∧
      (record.row.Fits ↔ (r.risk = approvalRequired → ∀ s ∈ intentString r.intent "risk", s.length ≤ 80))) ∧
    (∃ s', (run operations).migrate numbers = some s' ∧ s'.migrate numbers = some s') ∧
    ((run operations).PagesComplete numbers ↔ ∀ row ∈ (run operations).rows, row.Fits) := by
  have hsound := sound_run operations
  refine ⟨fun r record s' hcreated => ⟨get_created_iff hsound hcreated, ?_⟩, migrate_migrate hsound,
    pagesComplete_iff hsound⟩
  obtain ⟨expiresAt, rfl, hvalid, -⟩ := createRequest_eq_some hcreated
  exact fits_record_iff r hvalid

/-! ### A risk that only the intent has -/

def hostWrite : CreateRequest literalNumbers where
  approvalId := "apr-1"
  intentSha256 := "0f"
  intent := [("kind", .string "host_write"), ("risk", .string "destructive")]
  intentSummary := "host_write on unknown"
  now := newYear 0
  intent_valid := ⟨by decide, trivial, trivial, trivial⟩
  preview_valid := by simp

lemma hostWrite_created : (createRequest .empty hostWrite).isSome = true := by decide +kernel

/-- The record that is returned has the default risk, the one that is read that of the intent. -/
theorem risk_read_back_differs : ¬ ∀ (operations : List (Operation literalNumbers))
    (r : CreateRequest literalNumbers) (record : ApprovalRecord) (s' : ApprovalStore),
    createRequest (run operations) r = some (record, s') →
      ∃ read, s'.get literalNumbers r.approvalId = some read ∧ read.Equal record := by
  intro h
  obtain ⟨⟨record, s'⟩, hcreated⟩ := Option.isSome_iff_exists.mp hostWrite_created
  obtain ⟨read, hread, hequal⟩ := h [] hostWrite record s' hcreated
  have hexplicit := (get_created_iff (sound_run []) hcreated 0).mp ⟨s', read, rfl, hread, hequal⟩
  have hrisk := hexplicit.risk rfl "destructive" (by decide)
  exact absurd hrisk (by decide)

end
end IncidentLens.Approvals.Records
