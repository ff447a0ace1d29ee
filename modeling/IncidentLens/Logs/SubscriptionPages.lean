import IncidentLens.Data.Numbered
import IncidentLens.Logs.Subscriptions
import Mathlib.Data.List.MinMax

/-!
# Paging through the records of a subscription

A page goes on behind the last row that has the cursor of the record returned last. Between the requests
records are appended and removed. Every record is returned once and in its order as long as the last record
returned is found again by its cursor.
-/
namespace IncidentLens.Logs
open Effects List

/-- A stored row. RecordRow ids grow in the order of insertion; queries only compare those of stored rows. -/
structure RecordRow where
  rowid : ℕ
  record : LogRecord
  deriving DecidableEq

/-- `subscription_id = ?`. -/
def RecordRow.inSubscription (subscriptionId : String) (row : RecordRow) : Bool :=
  row.record.subscriptionId = some subscriptionId

/-- `COALESCE((SELECT MAX(rowid) … WHERE subscription_id = ? AND cursor = ?), 0)`. -/
def rowidOfCursor (rows : List RecordRow) (subscriptionId cursor : String) : ℕ :=
  ((rows.filter fun row => row.inSubscription subscriptionId && row.record.cursor = cursor).map RecordRow.rowid).foldr max 0

/-- `rowid > …`, if there is a cursor. -/
def RecordRow.isBehind (rows : List RecordRow) (subscriptionId : String) (afterCursor : Option String)
    (row : RecordRow) : Bool :=
  afterCursor.all fun cursor => rowidOfCursor rows subscriptionId cursor < row.rowid

/-- The rows of the records that are returned; a table is a list in the order of the row ids. -/
def listRecordsForSubscription (rows : List RecordRow) (subscriptionId : String) (afterCursor : Option String) (limit : ℤ) :
    Except String (List RecordRow) :=
  if 1 ≤ limit ∧ limit ≤ 1000 then
    .ok ((rows.filter fun row => row.inSubscription subscriptionId && row.isBehind rows subscriptionId afterCursor).take
      limit.toNat)
  else .error "limit must be between 1 and 1000"

/-- A table and a client that pages through a subscription. -/
structure Reading where
  rows : List RecordRow := []
  inserted : ℕ := 0
  returned : List RecordRow := []
  /-- The last request returned nothing, and nothing was appended since. -/
  caughtUp : Bool := false
  deriving DecidableEq

inductive ReadingMove
  | append (records : List LogRecord)
  /-- Rows are removed. -/
  | remove (rowids : List ℕ)
  | request (limit : ℤ)

/-- Rows for records, after the first `n`. -/
def numbered : ℕ → List LogRecord → List RecordRow
  | _, [] => []
  | n, record :: records => ⟨n + 1, record⟩ :: numbered (n + 1) records

/-- The records that a batch adds to the table. -/
def newRecords (rows : List RecordRow) (records : List LogRecord) : List LogRecord :=
  (appendBatch (rows.map RecordRow.record) records).1.drop rows.length

def Reading.position (s : Reading) : Option String := s.returned.getLast?.map fun row => row.record.cursor

def readOn (subscriptionId : String) (s : Reading) : ReadingMove → Option Reading
  | .append records => some { s with
      rows := s.rows ++ numbered s.inserted (newRecords s.rows records)
      inserted := s.inserted + (newRecords s.rows records).length
      caughtUp := false }
  | .remove rowids => some { s with rows := s.rows.filter fun row => row.rowid ∉ rowids }
  | .request limit => match listRecordsForSubscription s.rows subscriptionId s.position limit with
    | .ok page => some { s with returned := s.returned ++ page, caughtUp := page = [] }
    | .error _ => none

/-- A client reads a subscription from the first record on. -/
def reading (subscriptionId : String) : System Reading ReadingMove where
  init := {}
  step := readOn subscriptionId

/-! ### What a client is owed -/

/-- The records returned come once each and in the order of their insertion, none that is still stored was passed
over, and a request returns nothing only if all were returned. -/
structure Enumerated (subscriptionId : String) (s : Reading) : Prop where
  increasing : Data.Increasing RecordRow.rowid s.returned
  covered : ∀ row ∈ s.rows, row.inSubscription subscriptionId → row ∈ s.returned ∨ ∀ r ∈ s.returned, r.rowid < row.rowid
  finished : s.caughtUp → ∀ row ∈ s.rows, row.inSubscription subscriptionId → row ∈ s.returned

/-- A request finds its place: no row behind the last one returned has its cursor, and of the stored rows up to it
the last one has, if there are any. -/
def Findable (subscriptionId : String) (s : Reading) : ReadingMove → Prop
  | .request _ => ∀ last ∈ s.returned.getLast?,
      (∀ row ∈ s.rows, row.inSubscription subscriptionId → row.record.cursor = last.record.cursor →
        row.rowid ≤ last.rowid) ∧
      ∀ row ∈ s.rows, row.inSubscription subscriptionId → row.rowid ≤ last.rowid →
        ∃ found ∈ s.rows, found.inSubscription subscriptionId ∧ found.record.cursor = last.record.cursor ∧
          row.rowid ≤ found.rowid
  | _ => True

structure Tabled (s : Reading) : Prop where
  increasing : Data.Increasing RecordRow.rowid s.rows
  positive : ∀ row ∈ s.rows, 0 < row.rowid
  rows_le : ∀ row ∈ s.rows, row.rowid ≤ s.inserted
  returned_le : ∀ row ∈ s.returned, row.rowid ≤ s.inserted

lemma numbered_bounds {n : ℕ} {records : List LogRecord} :
    ∀ row ∈ numbered n records, n < row.rowid ∧ row.rowid ≤ n + records.length := by
  induction records generalizing n with
  | nil => exact fun row h => absurd h not_mem_nil
  | cons record records ih =>
    intro row h
    rw [length_cons]
    cases mem_cons.mp h with
    | inl h =>
      rw [h]
      dsimp only
      omega
    | inr h =>
      have := ih row h
      omega

lemma increasing_numbered (n : ℕ) (records : List LogRecord) : Data.Increasing RecordRow.rowid (numbered n records) := by
  induction records generalizing n with
  | nil => exact List.Pairwise.nil
  | cons record records ih => exact pairwise_cons.mpr ⟨fun row h => (numbered_bounds row h).1, ih _⟩

section Positions
variable {rows : List RecordRow} {subscriptionId cursor : String}

lemma foldr_max_mem {ns : List ℕ} (h : ns.foldr max 0 ≠ 0) : ns.foldr max 0 ∈ ns := by
  induction ns with
  | nil => exact absurd rfl h
  | cons m ns ih =>
    rw [foldr_cons] at h ⊢
    cases max_choice m (ns.foldr max 0) with
    | inl hm =>
      rw [hm]
      exact mem_cons_self
    | inr hm =>
      rw [hm] at h ⊢
      exact mem_cons_of_mem _ (ih h)

lemma le_rowidOfCursor {row : RecordRow} (h : row ∈ rows) (hin : row.inSubscription subscriptionId)
    (hcursor : row.record.cursor = cursor) : row.rowid ≤ rowidOfCursor rows subscriptionId cursor := by
  refine le_max_of_le' 0 (mem_map_of_mem (mem_filter.mpr ⟨h, ?_⟩)) le_rfl
  rw [hin, decide_eq_true hcursor]
  rfl

lemma rowidOfCursor_spec (h : rowidOfCursor rows subscriptionId cursor ≠ 0) :
    ∃ row ∈ rows, row.inSubscription subscriptionId ∧ row.record.cursor = cursor ∧
      row.rowid = rowidOfCursor rows subscriptionId cursor := by
  obtain ⟨row, hrow, hmax⟩ := mem_map.mp (foldr_max_mem h)
  obtain ⟨hmem, hboth⟩ := mem_filter.mp hrow
  rw [Bool.and_eq_true, decide_eq_true_eq] at hboth
  exact ⟨row, hmem, hboth.1, hboth.2, hmax⟩

end Positions

section Requests
variable {subscriptionId : String} {s t : Reading}

/-- The rows that a page is taken from are those behind everything returned. -/
def InPlace (subscriptionId : String) (s : Reading) : Prop :=
  ∀ row ∈ s.rows, row.inSubscription subscriptionId →
    (row.isBehind s.rows subscriptionId s.position ↔ ∀ r ∈ s.returned, r.rowid < row.rowid)

lemma returned_lt_iff {returned : List RecordRow} (h : Data.Increasing RecordRow.rowid returned) {last : RecordRow}
    (hlast : returned.getLast? = some last) (n : ℕ) : (∀ r ∈ returned, r.rowid < n) ↔ last.rowid < n := by
  obtain ⟨front, rfl⟩ := getLast?_eq_some_iff.mp hlast
  have hfront := (pairwise_append.mp h).2.2
  constructor
  · intro hall
    exact hall last (mem_append_right _ (mem_singleton_self last))
  · intro hlt r hr
    rw [mem_append, mem_singleton] at hr
    cases hr with
    | inl hr => exact (hfront r hr last (mem_singleton_self last)).trans hlt
    | inr hr => exact hr ▸ hlt

lemma findable_iff (h : Tabled s) (hincreasing : Data.Increasing RecordRow.rowid s.returned) (limit : ℤ) :
    Findable subscriptionId s (.request limit) ↔ InPlace subscriptionId s := by
  unfold Findable InPlace Reading.position
  cases hlast : s.returned.getLast? with
  | none =>
    rw [getLast?_eq_none_iff] at hlast
    refine iff_of_true (fun last h => absurd h (by simp)) fun row _ _ => iff_of_true rfl fun r hr => ?_
    rw [hlast] at hr
    cases hr
  | some last =>
    have hlt := returned_lt_iff hincreasing hlast
    simp only [hlt, Option.mem_def, Option.some.injEq, forall_eq', Option.map_some, RecordRow.isBehind, Option.all_some,
      decide_eq_true_eq]
    constructor
    · rintro ⟨hlater, hearlier⟩ row hrow hin
      constructor
      · intro hbehind
        by_contra hle
        obtain ⟨found, hfound, hfoundin, hcursor, hge⟩ := hearlier row hrow hin (not_lt.mp hle)
        have := le_rowidOfCursor hfound hfoundin hcursor
        omega
      · intro hbehind
        by_contra hle
        have hsome : rowidOfCursor s.rows subscriptionId last.record.cursor ≠ 0 := by omega
        obtain ⟨found, hfound, hfoundin, hcursor, hrowid⟩ := rowidOfCursor_spec hsome
        have := hlater found hfound hfoundin hcursor
        omega
    · intro hplace
      constructor
      · intro row hrow hin hcursor
        have hle := le_rowidOfCursor hrow hin hcursor
        exact not_lt.mp fun hbehind => absurd ((hplace row hrow hin).mpr hbehind) (not_lt.mpr hle)
      · intro row hrow hin hle
        have hnot : ¬ rowidOfCursor s.rows subscriptionId last.record.cursor < row.rowid := fun hbehind =>
          absurd ((hplace row hrow hin).mp hbehind) (not_lt.mpr hle)
        have hpositive := h.positive row hrow
        obtain ⟨found, hfound, hfoundin, hcursor, hrowid⟩ :=
          rowidOfCursor_spec (show rowidOfCursor s.rows subscriptionId last.record.cursor ≠ 0 by omega)
        exact ⟨found, hfound, hfoundin, hcursor, by omega⟩

def candidates (subscriptionId : String) (s : Reading) : List RecordRow :=
  s.rows.filter fun row => row.inSubscription subscriptionId && row.isBehind s.rows subscriptionId s.position

lemma mem_candidates {row : RecordRow} : row ∈ candidates subscriptionId s ↔
    row ∈ s.rows ∧ row.inSubscription subscriptionId ∧ row.isBehind s.rows subscriptionId s.position := by
  rw [candidates, mem_filter, Bool.and_eq_true]

lemma read_request {limit : ℤ} (hstep : readOn subscriptionId s (.request limit) = some t) :
    ∃ n, t = { s with
      returned := s.returned ++ (candidates subscriptionId s).take (n + 1)
      caughtUp := (candidates subscriptionId s).take (n + 1) = [] } := by
  unfold readOn listRecordsForSubscription at hstep
  dsimp only at hstep
  split_ifs at hstep with hlimit
  refine ⟨limit.toNat - 1, ?_⟩
  have hn : limit.toNat - 1 + 1 = limit.toNat := by omega
  rw [hn]
  exact (Option.some.inj hstep).symm

lemma candidates_cases (h : Tabled s) (n : ℕ) {row : RecordRow} (hrow : row ∈ candidates subscriptionId s) :
    row ∈ (candidates subscriptionId s).take n ∨ ∀ r ∈ (candidates subscriptionId s).take n, r.rowid < row.rowid := by
  have hsorted : Data.Increasing RecordRow.rowid (candidates subscriptionId s) := h.increasing.filter _
  rw [← take_append_drop n (candidates subscriptionId s)] at hrow hsorted
  rw [mem_append] at hrow
  refine hrow.imp_right fun hdrop r hr => ?_
  exact (pairwise_append.mp hsorted).2.2 r hr row hdrop

lemma Enumerated.goes_on (h : Tabled s) (he : Enumerated subscriptionId s) (hplace : InPlace subscriptionId s) (n : ℕ) :
    Enumerated subscriptionId { s with
      returned := s.returned ++ (candidates subscriptionId s).take (n + 1)
      caughtUp := (candidates subscriptionId s).take (n + 1) = [] } := by
  have hbehind : ∀ r ∈ (candidates subscriptionId s).take (n + 1), ∀ q ∈ s.returned, q.rowid < r.rowid := by
    intro r hr
    obtain ⟨hmem, hin, hbehind⟩ := mem_candidates.mp (mem_of_mem_take hr)
    exact (hplace r hmem hin).mp hbehind
  have hcovered : ∀ row ∈ s.rows, row.inSubscription subscriptionId →
      row ∈ s.returned ∨ row ∈ candidates subscriptionId s ∧ ∀ r ∈ s.returned, r.rowid < row.rowid := by
    intro row hrow hin
    refine (he.covered row hrow hin).imp_right fun hlater => ⟨?_, hlater⟩
    exact mem_candidates.mpr ⟨hrow, hin, (hplace row hrow hin).mpr hlater⟩
  refine ⟨?_, fun row hrow hin => ?_, fun hdone row hrow hin => ?_⟩
  · refine pairwise_append.mpr ⟨he.increasing, ?_, fun q hq r hr => hbehind r hr q hq⟩
    exact (List.Pairwise.filter _ h.increasing).sublist (take_sublist _ _)
  · cases hcovered row hrow hin with
    | inl hreturned => exact .inl (mem_append_left _ hreturned)
    | inr hlater =>
      cases candidates_cases h (n + 1) hlater.1 with
      | inl hpage => exact .inl (mem_append_right _ hpage)
      | inr hrest =>
        refine .inr fun r hr => ?_
        cases mem_append.mp hr with
        | inl hr => exact hlater.2 r hr
        | inr hr => exact hrest r hr
  · have hempty : candidates subscriptionId s = [] := by simpa using hdone
    cases hcovered row hrow hin with
    | inl hreturned => exact mem_append_left _ hreturned
    | inr hlater =>
      rw [hempty] at hlater
      exact absurd hlater.1 not_mem_nil

lemma not_enumerated_of_misplaced (h : Tabled s) (hplace : ¬ InPlace subscriptionId s) (n : ℕ) :
    ¬ Enumerated subscriptionId { s with
      returned := s.returned ++ (candidates subscriptionId s).take (n + 1)
      caughtUp := (candidates subscriptionId s).take (n + 1) = [] } := by
  intro he
  unfold InPlace at hplace
  push Not at hplace
  obtain ⟨row, hrow, hin, ⟨hbehind, r, hr, hle⟩ | ⟨hnot, hlater⟩⟩ := hplace
  · -- The first row of the page is no later than a row that was returned before.
    have hmem : row ∈ candidates subscriptionId s := mem_candidates.mpr ⟨hrow, hin, hbehind⟩
    cases hcandidates : candidates subscriptionId s with
    | nil =>
      rw [hcandidates] at hmem
      cases hmem
    | cons first rest =>
      have hsorted : Data.Increasing RecordRow.rowid (candidates subscriptionId s) := h.increasing.filter _
      have hall := he.increasing
      rw [hcandidates] at hmem hsorted hall
      have hbefore := (pairwise_append.mp hall).2.2 r hr first mem_cons_self
      cases mem_cons.mp hmem with
      | inl hfirst =>
        rw [hfirst] at hle
        omega
      | inr hrest =>
        have := (pairwise_cons.mp hsorted).1 row hrest
        omega
  · -- The row is not behind the position, and so it is before the page.
    have hmissing : row ∉ s.returned ++ (candidates subscriptionId s).take (n + 1) := by
      intro hmem
      cases mem_append.mp hmem with
      | inl hmem => exact lt_irrefl _ (hlater row hmem)
      | inr hmem => exact hnot (mem_candidates.mp (mem_of_mem_take hmem)).2.2
    by_cases hempty : (candidates subscriptionId s).take (n + 1) = []
    · exact hmissing (he.finished (decide_eq_true hempty) row hrow hin)
    · obtain ⟨r, hr⟩ := exists_mem_of_ne_nil _ hempty
      have hafter := ((he.covered row hrow hin).resolve_left hmissing) r (mem_append_right _ hr)
      have hbehind := (mem_candidates.mp (mem_of_mem_take hr)).2.2
      unfold RecordRow.isBehind at hnot hbehind
      cases hposition : s.position with
      | none =>
        rw [hposition] at hnot
        exact hnot rfl
      | some cursor =>
        rw [hposition, Option.all_some, ne_eq, decide_eq_true_eq] at hnot
        rw [hposition, Option.all_some, decide_eq_true_eq] at hbehind
        omega

end Requests

section Runs
variable {subscriptionId : String} {s t : Reading}

lemma Tabled.step (h : Tabled s) {move : ReadingMove} (hstep : readOn subscriptionId s move = some t) : Tabled t := by
  cases move with
  | append records =>
    rw [← Option.some.inj hstep]
    refine ⟨?_, fun row hrow => ?_, fun row hrow => ?_, fun row hrow => ?_⟩
    · refine pairwise_append.mpr ⟨h.increasing, increasing_numbered _ _, fun a ha b hb => ?_⟩
      exact (h.rows_le a ha).trans_lt (numbered_bounds b hb).1
    · cases mem_append.mp hrow with
      | inl hrow => exact h.positive row hrow
      | inr hrow => exact Nat.zero_lt_of_lt (numbered_bounds row hrow).1
    · cases mem_append.mp hrow with
      | inl hrow => exact (h.rows_le row hrow).trans (Nat.le_add_right _ _)
      | inr hrow => exact (numbered_bounds row hrow).2
    · exact (h.returned_le row hrow).trans (Nat.le_add_right _ _)
  | remove rowids =>
    rw [← Option.some.inj hstep]
    refine ⟨h.increasing.filter _, fun row hrow => ?_, fun row hrow => ?_, h.returned_le⟩
    · exact h.positive row (mem_filter.mp hrow).1
    · exact h.rows_le row (mem_filter.mp hrow).1
  | request limit =>
    obtain ⟨n, rfl⟩ := read_request hstep
    refine ⟨h.increasing, h.positive, h.rows_le, fun row hrow => ?_⟩
    cases mem_append.mp hrow with
    | inl hrow => exact h.returned_le row hrow
    | inr hrow => exact h.rows_le row (mem_candidates.mp (mem_of_mem_take hrow)).1

lemma tabled_reached {good : Reading → ReadingMove → Prop} (h : (reading subscriptionId).Reached good s) : Tabled s := by
  refine h.invariant ?_ fun _ _ _ hs _ hstep => hs.step hstep
  exact ⟨List.Pairwise.nil, by simp [reading], by simp [reading], by simp [reading]⟩

lemma Enumerated.step (h : Tabled s) (he : Enumerated subscriptionId s) {move : ReadingMove}
    (hfindable : Findable subscriptionId s move) (hstep : readOn subscriptionId s move = some t) :
    Enumerated subscriptionId t := by
  cases move with
  | append records =>
    rw [← Option.some.inj hstep]
    refine ⟨he.increasing, fun row hrow hin => ?_, fun hdone => absurd hdone Bool.false_ne_true⟩
    cases mem_append.mp hrow with
    | inl hrow => exact he.covered row hrow hin
    | inr hrow => exact .inr fun r hr => (h.returned_le r hr).trans_lt (numbered_bounds row hrow).1
  | remove rowids =>
    rw [← Option.some.inj hstep]
    refine ⟨he.increasing, fun row hrow hin => ?_, fun hdone row hrow hin => ?_⟩
    · exact he.covered row (mem_filter.mp hrow).1 hin
    · exact he.finished hdone row (mem_filter.mp hrow).1 hin
  | request limit =>
    obtain ⟨n, rfl⟩ := read_request hstep
    exact he.goes_on h ((findable_iff h he.increasing limit).mp hfindable) n

lemma enumerated_reached (h : (reading subscriptionId).Reached (Findable subscriptionId) s) :
    Enumerated subscriptionId s := by
  induction h with
  | start => exact ⟨List.Pairwise.nil, by simp [reading], by simp [reading]⟩
  | next move hreached hfindable hstep ih => exact ih.step (tabled_reached hreached) hfindable hstep

/-- In every run in which the requests find their places, every record of the subscription is returned once and in
order; and the first request that does not find its place returns a record again or passes one over. -/
theorem subscription_pages_enumerate (h : (reading subscriptionId).Reached (Findable subscriptionId) s) :
    Enumerated subscriptionId s ∧ ∀ limit t, readOn subscriptionId s (.request limit) = some t →
        (Enumerated subscriptionId t ↔ Findable subscriptionId s (.request limit)) := by
  have htabled := tabled_reached h
  have he := enumerated_reached h
  refine ⟨he, fun limit t hstep => ⟨fun het => ?_, fun hfindable => he.step htabled hfindable hstep⟩⟩
  rw [findable_iff htabled he.increasing]
  by_contra hplace
  obtain ⟨n, rfl⟩ := read_request hstep
  exact not_enumerated_of_misplaced htabled hplace n het

end Runs

/-! ### A rotated file -/

/-- The first lines of a file before and after its rotation. -/
def beforeRotation : LogRecord := recordFromRaw plainPipeline hostSubscription lineA "log-1" 0

def afterRotation : LogRecord := recordFromRaw plainPipeline hostSubscription { lineA with text := "b" } "log-2" 0

def oneReturned : Reading where
  rows := [⟨1, { beforeRotation with streamSequence := 1 }⟩]
  inserted := 1
  returned := [⟨1, { beforeRotation with streamSequence := 1 }⟩]

theorem oneReturned_enumerated : Enumerated "sub-1" oneReturned ∧
    ∀ limit t, readOn "sub-1" oneReturned (.request limit) = some t →
      (Enumerated "sub-1" t ↔ Findable "sub-1" oneReturned (.request limit)) := by
  have happended : (reading "sub-1").Reached (Findable "sub-1") _ :=
    System.Reached.start.next (.append [beforeRotation]) (by trivial) rfl
  have hrequested : (reading "sub-1").Reached (Findable "sub-1") oneReturned :=
    happended.next (.request 1) (fun last h => by cases h) rfl
  exact subscription_pages_enumerate hrequested

/-- The next record has the cursor of the one returned, and is passed over. -/
def passedOver : Reading where
  rows := [⟨1, { beforeRotation with streamSequence := 1 }⟩, ⟨2, { afterRotation with streamSequence := 2 }⟩]
  inserted := 2
  returned := [⟨1, { beforeRotation with streamSequence := 1 }⟩]
  caughtUp := true

theorem rotated_record_passed_over :
    ¬ ∀ moves s, (reading "sub-1").runFrom (reading "sub-1").init moves = some s → Enumerated "sub-1" s := by
  intro h
  have hrun : (reading "sub-1").runFrom (reading "sub-1").init
      [.append [beforeRotation], .request 1, .append [afterRotation], .request 1] = some passedOver := by
    decide +kernel
  have hall := (h _ _ hrun).finished rfl ⟨2, { afterRotation with streamSequence := 2 }⟩ (by simp [passedOver]) rfl
  revert hall
  decide

end IncidentLens.Logs
