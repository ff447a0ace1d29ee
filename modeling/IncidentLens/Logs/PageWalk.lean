import IncidentLens.Logs.Cursors
import IncidentLens.Logs.Pages

/-!
# Walks over the log history

A client follows the cursors that pages carry: forward with the next cursor of each page and the
snapshot cursor of the first, backward with the previous cursor.
-/
namespace IncidentLens.Logs

open List

structure LogRecordView where
  logId : String
  cursor : String
  occurredAt : Time
  severity : LogSeverity
  message : String
  deriving DecidableEq

structure LogPage where
  items : List LogRecordView
  nextCursor : Option String
  previousCursor : Option String
  hasMore : Bool
  snapshotCursor : Option String

/-- What a client asks for, but for the cursors. -/
structure PageRequest where
  serviceName : String
  limit : ℕ := 200
  severity : Option LogSeverity := none
  sourceRef : Option String := none
  allowedTargetIds : Option (List String) := none
  limit_mem : 1 ≤ limit ∧ limit ≤ 500 := by decide

/-- The positions that the cursors of a request stand for. -/
structure Positions where
  beforeSequence : Option ℕ := none
  afterSequence : Option ℕ := none
  snapshotSequence : Option ℕ := none

def toView (record : LogRecord) : LogRecordView where
  logId := record.logId
  cursor := record.cursor
  occurredAt := record.observedAt
  severity := record.severity
  message := record.messageRedacted

/-- `a or b` of an optional number. -/
def orElse (a : Option ℕ) (b : ℕ) : ℕ :=
  match a with
  | some n => if n = 0 then b else n
  | none => b

def PageRequest.query (request : PageRequest) (positions : Positions) (snapshot : ℕ) : PageQuery where
  serviceName := request.serviceName
  beforeSequence := positions.beforeSequence
  afterSequence := positions.afterSequence
  snapshotSequence := some snapshot
  limit := request.limit
  severity := request.severity.map LogSeverity.value
  sourceRef := request.sourceRef
  allowedTargetIds := request.allowedTargetIds

/-- `encode_log_cursor(n) if n is not None else None` -/
def encodePosition (position : Option ℕ) : Except String (Option String) :=
  match position with
  | some n => (encodeLogCursor n).map some
  | none => .ok none

def listLogPage (rows : List LogRecord) (request : PageRequest) (positions : Positions) : Except String LogPage :=
  if positions.beforeSequence.isSome && positions.afterSequence.isSome then
    .error "before and after cursors are mutually exclusive"
  else do
    let snapshot := positions.snapshotSequence.getD (orElse positions.beforeSequence (latestProductSequence rows))
    let found ← listProductPage rows (request.query positions snapshot)
    let previous ← encodePosition positions.beforeSequence
    match found.1.getLast? with
    | none =>
      let edge ← encodeLogCursor (orElse positions.beforeSequence (orElse positions.afterSequence 0))
      return ⟨[], none, previous, false, some edge⟩
    | some last =>
      let edge ← encodeLogCursor last.streamSequence
      return ⟨found.1.map toView, if found.2 then some edge else none, previous, found.2, some edge⟩

def decodePosition (cursor : Option String) : Except String (Option ℕ) :=
  match cursor with
  | some cursor => (decodeLogCursor cursor).map some
  | none => .ok none

/-- `list_service_logs` for a service that the caller may see. -/
def listServiceLogs (rows : List LogRecord) (request : PageRequest) (before after snapshot : Option String) :
    Except String LogPage := do
  let beforeSequence ← decodePosition before
  let afterSequence ← decodePosition after
  let snapshotSequence ← decodePosition snapshot
  listLogPage rows request ⟨beforeSequence, afterSequence, snapshotSequence⟩

/-- The rows at each request, when batches are appended between them. -/
def rowsAt (rows : List LogRecord) (batches : ℕ → List LogRecord) : ℕ → List LogRecord
  | 0 => rows
  | i + 1 => (appendBatch (rowsAt rows batches i) (batches i)).1

/-- The pages from the `i`th request on, to one without a cursor to go on with. -/
inductive Walk (fetch : ℕ → Option String → Except String LogPage) (onward : LogPage → Option String) :
    ℕ → Option String → List LogPage → Prop
  | last {i : ℕ} {cursor : Option String} {page : LogPage} (hfetch : fetch i cursor = .ok page)
      (hend : onward page = none) : Walk fetch onward i cursor [page]
  | more {i : ℕ} {cursor : Option String} {page : LogPage} {next : String} {pages : List LogPage}
      (hfetch : fetch i cursor = .ok page) (hnext : onward page = some next)
      (hrest : Walk fetch onward (i + 1) (some next) pages) : Walk fetch onward i cursor (page :: pages)

/-- The records a request is for, up to a position. -/
def matching (rows : List LogRecord) (request : PageRequest) (position : ℕ) : List LogRecord :=
  orderBySequence false (rows.filter fun row => (request.query {} 0).admits row && row.streamSequence ≤ position)

section
variable (rows : List LogRecord) (batches : ℕ → List LogRecord) (request : PageRequest)

/-- The pages after the first are asked for with its snapshot cursor. -/
def forwardFetch (first : LogPage) (i : ℕ) (after : Option String) : Except String LogPage :=
  listServiceLogs (rowsAt rows batches i) request none after (if i = 0 then none else first.snapshotCursor)

/-- The walk forward yields, in order, what is stored when it begins. -/
def EnumeratesForward : Prop :=
  ∃ first pages, listServiceLogs rows request none none none = .ok first ∧
    Walk (forwardFetch rows batches request first) LogPage.nextCursor 0 none pages ∧
    pages.flatMap LogPage.items = (matching rows request (latestProductSequence rows)).map toView

/-- The walk backward from a cursor yields what is stored up to it. -/
def EnumeratesBackward (snapshot : ℕ → Option String) (before : String) : Prop :=
  ∃ n pages, decodeLogCursor before = .ok n ∧
    Walk (fun i cursor => listServiceLogs (rowsAt rows batches i) request cursor none (snapshot i)) LogPage.previousCursor
      0 (some before) pages ∧
    (pages.flatMap LogPage.items).Perm ((matching rows request n).map toView)

end

/-- The sequences of a table: unique integers from one on. -/
def Numbered (rows : List LogRecord) : Prop :=
  Sequenced rows ∧ ∀ row ∈ rows, 1 ≤ row.streamSequence ∧ row.streamSequence < 2 ^ 63

variable {rows : List LogRecord} {request : PageRequest}

lemma encodeLogCursor_eq_ok {n : ℕ} (h : n < 2 ^ 64) : ∃ cursor, encodeLogCursor n = .ok cursor := by
  unfold encodeLogCursor
  rw [if_neg (by omega), if_neg (by push_cast; omega)]
  exact ⟨_, rfl⟩

lemma latestProductSequence_lt (h : Numbered rows) : latestProductSequence rows < 2 ^ 63 := by
  obtain ⟨-, hbound⟩ := h
  induction rows with
  | nil => decide
  | cons row rows ih =>
    rw [latestProductSequence, map_cons, foldr_cons]
    exact max_lt (hbound row mem_cons_self).2 (ih fun r hr => hbound r (mem_cons_of_mem _ hr))

/-- The records of a page after a position, up to a snapshot. -/
def pageRecords (rows : List LogRecord) (request : PageRequest) (after snapshot : ℕ) : List LogRecord :=
  orderBySequence false (rows.filter fun row => (request.query {} 0).admits row &&
    (row.streamSequence ≤ snapshot && after < row.streamSequence))

lemma listProductPage_ascending {query : PageQuery} (hbefore : query.beforeSequence = none)
    (hlimit : 1 ≤ query.limit ∧ query.limit ≤ 500) (hsnapshot : unbindable query.snapshotSequence = false)
    (hafter : unbindable query.afterSequence = false) : listProductPage rows query =
      .ok ((orderBySequence false (rows.filter fun row => query.admits row && query.bounds row)).take query.limit,
        query.limit < (orderBySequence false (rows.filter fun row => query.admits row && query.bounds row)).length) := by
  have hlimits : (decide (query.limit < 1) || decide (500 < query.limit)) = false := by
    simp only [Bool.or_eq_false_iff, decide_eq_false_iff_not]
    omega
  have hnone : unbindable none = false := rfl
  unfold listProductPage
  simp only [hbefore, Option.isSome_none, Bool.false_and, Bool.false_eq_true, if_false, hlimits, hsnapshot, hafter,
    hnone, Bool.or_self]
  generalize orderBySequence false (rows.filter fun row => query.admits row && query.bounds row) = ordered
  have hmore : query.limit < (ordered.take (query.limit + 1)).length ↔ query.limit < ordered.length := by
    rw [length_take]
    omega
  simp only [hmore, take_take, Nat.min_eq_left (Nat.le_succ query.limit)]

lemma listProductPage_forward {positions : Positions} {snapshot : ℕ} (hbefore : positions.beforeSequence = none)
    (hsnapshot : snapshot < 2 ^ 63) (hafter : unbindable positions.afterSequence = false) :
    listProductPage rows (request.query positions snapshot) =
      .ok ((pageRecords rows request (positions.afterSequence.getD 0) snapshot).take request.limit,
        request.limit < (pageRecords rows request (positions.afterSequence.getD 0) snapshot).length) := by
  have hbind : unbindable (some snapshot) = false := by
    simp only [unbindable, Option.any_some, decide_eq_false_iff_not]
    omega
  have hfilter : (rows.filter fun row => (request.query positions snapshot).admits row &&
      (request.query positions snapshot).bounds row) = rows.filter fun row => (request.query {} 0).admits row &&
        (row.streamSequence ≤ snapshot && positions.afterSequence.getD 0 < row.streamSequence) := by
    simp only [PageQuery.bounds, PageRequest.query, hbefore, Option.all_some]
    rfl
  rw [listProductPage_ascending hbefore request.limit_mem hbind hafter, hfilter]
  rfl

lemma pageRecords_start (h : Numbered rows) :
    pageRecords rows request 0 (latestProductSequence rows) = matching rows request (latestProductSequence rows) := by
  unfold pageRecords matching
  refine congrArg _ (filter_congr fun row hrow => ?_)
  have hpos : 0 < row.streamSequence := (h.2 row hrow).1
  simp [hpos]

lemma pageRecords_self (position : ℕ) : pageRecords rows request position position = [] := by
  unfold pageRecords
  have hnone : (rows.filter fun row => (request.query {} 0).admits row &&
      (row.streamSequence ≤ position && position < row.streamSequence)) = [] := by
    rw [filter_eq_nil_iff]
    intro row _
    simp only [Bool.and_eq_true, decide_eq_true_eq]
    omega
  rw [hnone]
  exact mergeSort_nil

section Forward
variable {positions : Positions} {snapshot : ℕ} (hbefore : positions.beforeSequence = none)
  (hsnapshot : positions.snapshotSequence.getD (latestProductSequence rows) = snapshot) (hbound : snapshot < 2 ^ 63)
  (hafter : unbindable positions.afterSequence = false)
include hbefore hsnapshot hbound hafter

lemma listLogPage_empty (hnone : pageRecords rows request (positions.afterSequence.getD 0) snapshot = []) :
    ∃ page, listLogPage rows request positions = .ok page ∧ page.items = [] ∧ page.nextCursor = none := by
  have hedge : ∃ cursor, encodeLogCursor (orElse none (orElse positions.afterSequence 0) : ℕ) = .ok cursor := by
    refine encodeLogCursor_eq_ok ?_
    cases hpos : positions.afterSequence with
    | none => exact Nat.two_pow_pos 64
    | some n =>
      rw [hpos] at hafter
      simp only [unbindable, Option.any_some, decide_eq_false_iff_not] at hafter
      change (if n = 0 then 0 else n) < 2 ^ 64
      split_ifs
      · exact Nat.two_pow_pos 64
      · omega
  obtain ⟨edge, hedge⟩ := hedge
  refine ⟨⟨[], none, none, false, some edge⟩, ?_, rfl, rfl⟩
  have hquery := @listProductPage_forward rows request positions snapshot hbefore hbound hafter
  rw [hnone] at hquery
  unfold listLogPage
  simp only [hbefore, Option.isSome_none, Bool.false_and, Bool.false_eq_true, if_false, orElse, hsnapshot] at hedge ⊢
  rw [hquery]
  simp only [encodePosition, take_nil, getLast?_nil, bind, Except.bind, hedge]
  rfl

lemma listLogPage_some {last : LogRecord} {edge : String}
    (hlast : ((pageRecords rows request (positions.afterSequence.getD 0) snapshot).take request.limit).getLast? = some last)
    (hedge : encodeLogCursor last.streamSequence = .ok edge) : listLogPage rows request positions = .ok
      ⟨((pageRecords rows request (positions.afterSequence.getD 0) snapshot).take request.limit).map toView,
        if request.limit < (pageRecords rows request (positions.afterSequence.getD 0) snapshot).length then some edge else none,
        none, request.limit < (pageRecords rows request (positions.afterSequence.getD 0) snapshot).length, some edge⟩ := by
  have hquery := @listProductPage_forward rows request positions snapshot hbefore hbound hafter
  unfold listLogPage
  simp only [hbefore, Option.isSome_none, Bool.false_and, Bool.false_eq_true, if_false, orElse, hsnapshot]
  rw [hquery]
  simp only [encodePosition, bind, Except.bind, hlast, hedge, decide_eq_true_eq]
  rfl

end Forward

lemma mem_matching {position : ℕ} {row : LogRecord} (h : row ∈ matching rows request position) : row ∈ rows := by
  unfold matching at h
  rw [mem_orderBySequence, mem_filter] at h
  exact h.1

lemma walk_end {rows' : List LogRecord} {position : ℕ} {edge : String} (hedge : encodeLogCursor position = .ok edge)
    (hbound : position < 2 ^ 63) : ∃ page, listServiceLogs rows' request none (some edge) (some edge) = .ok page ∧
      page.items = [] ∧ page.nextCursor = none := by
  have hserved : listServiceLogs rows' request none (some edge) (some edge) =
      listLogPage rows' request ⟨none, some position, some position⟩ := by
    simp only [listServiceLogs, decodePosition, decodeLogCursor_encodeLogCursor hedge]
    rfl
  have hafter : unbindable (some position) = false := by
    simp only [unbindable, Option.any_some, decide_eq_false_iff_not]
    omega
  rw [hserved]
  exact listLogPage_empty rfl rfl hbound hafter (pageRecords_self position)

lemma enumeratesForward_iff (batches : ℕ → List LogRecord) (h : Numbered rows) :
    EnumeratesForward rows batches request ↔
      (matching rows request (latestProductSequence rows)).length ≤ request.limit := by
  have hlatest := latestProductSequence_lt h
  have hserved : listServiceLogs rows request none none none = listLogPage rows request {} := rfl
  have hrecords : pageRecords rows request 0 (latestProductSequence rows) =
      matching rows request (latestProductSequence rows) := pageRecords_start h
  unfold EnumeratesForward
  rw [hserved]
  generalize hm : matching rows request (latestProductSequence rows) = m at hrecords ⊢
  rcases hlast : (m.take request.limit).getLast? with _ | last
  · -- nothing matches
    have hnone : m = [] := by
      rcases take_eq_nil_iff.mp (getLast?_eq_none_iff.mp hlast) with hzero | hnil
      · have := request.limit_mem
        omega
      · exact hnil
    obtain ⟨page, hpage, hitems, hnext⟩ := @listLogPage_empty rows request {} (latestProductSequence rows) rfl rfl hlatest
      rfl (hrecords.trans hnone)
    refine iff_of_true ⟨page, [page], hpage, .last hpage hnext, ?_⟩ ?_
    · simp [hitems, hnone]
    · simp [hnone]
  · have hlt : last.streamSequence < 2 ^ 63 := by
      have hmem := mem_of_mem_take (mem_of_getLast? hlast)
      rw [← hm] at hmem
      exact (h.2 last (mem_matching hmem)).2
    obtain ⟨edge, hedge⟩ := @encodeLogCursor_eq_ok last.streamSequence (by omega)
    have hpage := @listLogPage_some rows request {} (latestProductSequence rows) rfl rfl hlatest rfl last edge
      ((congrArg (fun rs => (rs.take request.limit).getLast?) hrecords).trans hlast) hedge
    have hpage : listLogPage rows request {} = .ok ⟨(m.take request.limit).map toView,
        if request.limit < m.length then some edge else none, none, request.limit < m.length, some edge⟩ := by
      rw [← hrecords]
      exact hpage
    by_cases hfits : m.length ≤ request.limit
    · refine iff_of_true ⟨_, [_], hpage, .last hpage (if_neg (by omega)), ?_⟩ hfits
      simp [take_of_length_le hfits]
    · refine iff_of_false ?_ hfits
      rintro ⟨first, pages, hfirst, hwalk, hitems⟩
      obtain rfl := Except.ok.inj (hpage.symm.trans hfirst)
      have hshort : pages.flatMap LogPage.items = (m.take request.limit).map toView := by
        cases hwalk with
        | last hfetch hend =>
          obtain rfl := Except.ok.inj (hpage.symm.trans hfetch)
          rw [if_pos (by omega)] at hend
          cases hend
        | more hfetch hnext hrest =>
          obtain rfl := Except.ok.inj (hpage.symm.trans hfetch)
          rw [if_pos (by omega)] at hnext
          obtain rfl := Option.some.inj hnext
          obtain ⟨page, hpage', hnil, hend⟩ := @walk_end request (rowsAt rows batches 1) _ _ hedge hlt
          cases hrest with
          | last hfetch' _ =>
            obtain rfl := Except.ok.inj (hpage'.symm.trans hfetch')
            simp [hnil]
          | more hfetch' hnext' _ =>
            obtain rfl := Except.ok.inj (hpage'.symm.trans hfetch')
            rw [hend] at hnext'
            cases hnext'
      rw [hshort] at hitems
      have hlength := congrArg length hitems
      rw [length_map, length_map, length_take] at hlength
      omega

lemma encodePosition_some {n : ℕ} {cursor : Option String} (h : encodePosition (some n) = .ok cursor) :
    cursor ≠ none := by
  change (encodeLogCursor n).map some = .ok cursor at h
  cases hencode : encodeLogCursor n with
  | error e =>
    rw [hencode] at h
    cases h
  | ok text =>
    rw [hencode] at h
    obtain rfl := Except.ok.inj h
    exact Option.some_ne_none text

lemma listLogPage_previous {positions : Positions} {n : ℕ} {page : LogPage} (hbefore : positions.beforeSequence = some n)
    (h : listLogPage rows request positions = .ok page) : page.previousCursor ≠ none := by
  unfold listLogPage at h
  rw [hbefore] at h
  split_ifs at h
  simp only [bind, Except.bind] at h
  split at h
  · cases h
  · split at h
    · cases h
    · rename_i previous hprevious
      have hsome := encodePosition_some hprevious
      split at h
      · split at h
        · cases h
        · obtain rfl := Except.ok.inj h
          exact hsome
      · split at h
        · cases h
        · obtain rfl := Except.ok.inj h
          exact hsome

lemma previousCursor_ne_none {before : String} {snapshot : Option String} {page : LogPage}
    (h : listServiceLogs rows request (some before) none snapshot = .ok page) : page.previousCursor ≠ none := by
  unfold listServiceLogs at h
  cases hdecode : decodeLogCursor before with
  | error e =>
    simp only [decodePosition, hdecode] at h
    cases h
  | ok n =>
    cases hsnapshot : decodePosition snapshot with
    | error e =>
      rw [hsnapshot] at h
      simp only [decodePosition, hdecode] at h
      cases h
    | ok s =>
      rw [hsnapshot] at h
      simp only [decodePosition, hdecode] at h
      exact @listLogPage_previous rows request ⟨some n, none, s⟩ n page rfl h

lemma not_walk_backward {batches : ℕ → List LogRecord} {snapshot : ℕ → Option String} {i : ℕ} {cursor : Option String}
    {pages : List LogPage} (h : Walk (fun i cursor => listServiceLogs (rowsAt rows batches i) request cursor none (snapshot i))
      LogPage.previousCursor i cursor pages) : cursor = none := by
  induction h with
  | last hfetch hend =>
    rename_i i cursor page
    cases cursor with
    | none => rfl
    | some before => exact absurd hend (previousCursor_ne_none hfetch)
  | more hfetch hnext hrest ih => cases ih

/-- The history is enumerated forward when all that matches is on the first page, and backward never. -/
theorem log_pages_enumerate (rows : List LogRecord) (batches : ℕ → List LogRecord) (request : PageRequest)
    (h : Numbered rows) : (EnumeratesForward rows batches request ↔
      (matching rows request (latestProductSequence rows)).length ≤ request.limit) ∧
    ∀ snapshot before, ¬ EnumeratesBackward rows batches request snapshot before := by
  refine ⟨enumeratesForward_iff batches h, ?_⟩
  rintro snapshot before ⟨n, pages, -, hwalk, -⟩
  cases not_walk_backward hwalk

/-! ### Two records -/

def sampleRow (n : ℕ) : LogRecord where
  logId := "log-" ++ toString n
  subscriptionId := none
  projectId := "payments"
  targetId := "dev-a"
  serviceName := "payment-api"
  sourceKind := .file
  scope := .host
  sourceRef := "/var/log/payment/app.log"
  cursor := "file:offset=" ++ toString n
  dedupeKey := "dedupe-" ++ toString n
  observedAt := 0
  severity := .error
  messageRedacted := "message"
  streamSequence := n

lemma numbered_pair : Numbered [sampleRow 1, sampleRow 2] := by
  refine ⟨?_, fun row hrow => ?_⟩
  · change [1, 2].Nodup
    decide
  · rcases mem_pair.mp hrow with rfl | rfl
    · exact ⟨le_refl 1, by decide⟩
    · exact ⟨Nat.le_succ 1, by decide⟩

/-- Both records on one page. -/
theorem pair_enumerates :
    (EnumeratesForward [sampleRow 1, sampleRow 2] (fun _ => []) { serviceName := "payment-api" } ↔
      (matching [sampleRow 1, sampleRow 2] { serviceName := "payment-api" }
        (latestProductSequence [sampleRow 1, sampleRow 2])).length ≤ 200) ∧
    ∀ snapshot before, ¬ EnumeratesBackward [sampleRow 1, sampleRow 2] (fun _ => []) { serviceName := "payment-api" }
      snapshot before :=
  log_pages_enumerate [sampleRow 1, sampleRow 2] (fun _ => []) { serviceName := "payment-api" } numbered_pair

/-- One record to a page: the second page is asked for up to the end of the first, and is empty. -/
theorem second_page_empty :
    ¬ EnumeratesForward [sampleRow 1, sampleRow 2] (fun _ => []) { serviceName := "payment-api", limit := 1 } := by
  rw [enumeratesForward_iff _ numbered_pair]
  unfold matching orderBySequence
  rw [length_mergeSort]
  decide

end IncidentLens.Logs
