import IncidentLens.Investigations.Scope
import IncidentLens.Logs.Redaction
import IncidentLens.Logs.Service

/-!
# The log tools of a run

`log_query` reads a source and returns what is stored for its lines, `log_search` and
`log_context` select stored records. The scope of the run pins every dimension of the first, but
only project and target of the other two.
-/
namespace IncidentLens.Investigations
open Logs List LogSubscription

/-- `PurePosixPath(value)` when it is absolute and has no `..`. -/
def parsePath (value : String) : Option SimplePath :=
  let parts := ((value.toList.splitOn '/').map String.ofList).filter fun part => part ≠ "" ∧ part ≠ "."
  if h : ".." ∈ parts then none
  else match value.toList with
    | '/' :: '/' :: '/' :: _ => some ⟨.single, parts, h⟩
    | '/' :: '/' :: _ => some ⟨.double, parts, h⟩
    | '/' :: _ => some ⟨.single, parts, h⟩
    | _ => none

/-- The stored rows with two columns that only a search reads, by the `log_id`. -/
structure LogTables where
  rows : List LogRecord
  correlationKey : String → Option String
  normalSignal : String → Option String

structure LogSearchFilters where
  projectId : String
  targetId : String
  serviceName : Option String := none
  severity : Option LogSeverity := none
  text : Option String := none
  startTime : Option ℤ := none
  endTime : Option ℤ := none
  correlationKey : Option String := none
  normalSignal : Option String := none

/-- `[A-Za-z0-9_./:-]` -/
def isTokenChar (c : Char) : Bool := c.isAlphanum || "_./:-".toList.contains c

/-- The tokens that the full-text index is asked for; `none` when `_fts_query` raises. -/
def LogSearchFilters.tokens (filters : LogSearchFilters) : Option (List String) :=
  match filters.text with
  | none => some []
  | some text =>
    if text.toList.all isWhitespace then some []
    else
      let tokens := (((text.toList.splitOnP fun c => !isTokenChar c).filter fun t => t ≠ []).map String.ofList).take 8
      if tokens = [] then none else some tokens

section Search
variable (fts : List String → String → Bool)

/-- The `WHERE` clauses; `fts` is the match of the full-text index. -/
def selects (tables : LogTables) (filters : LogSearchFilters) (tokens : List String) (record : LogRecord) : Bool :=
  decide (record.projectId = filters.projectId) && decide (record.targetId = filters.targetId) &&
    filters.serviceName.all (fun service => record.serviceName = service) &&
    filters.severity.all (fun severity => record.severity = severity) &&
    filters.startTime.all (fun start => decide (start ≤ record.observedAt)) &&
    filters.endTime.all (fun stop => decide (record.observedAt ≤ stop)) &&
    filters.correlationKey.all (fun key => tables.correlationKey record.logId = some key) &&
    filters.normalSignal.all (fun signal => tables.normalSignal record.logId = some signal) &&
    (tokens = [] || fts tokens record.messageRedacted)

/-- `LogStore.search`; `none` when it raises. -/
def searchRecords (tables : LogTables) (filters : LogSearchFilters) (limit : ℤ) : Option (List LogRecord) :=
  if 1 ≤ limit ∧ limit ≤ 1000 then
    filters.tokens.map fun tokens => (tables.rows.filter (selects fts tables filters tokens)).take limit.toNat
  else none

end Search

/-- The loop of `_fit_records_to_budget`. -/
def fitFrom (budget total : ℕ) (selected : Bool) : List LogRecord → List LogRecord
  | [] => []
  | record :: records =>
    let size := record.messageRedacted.length
    if selected ∧ budget < total + size then [] else record :: fitFrom budget (total + size) true records

def fitRecordsToBudget (budget : ℕ) (records : List LogRecord) : List LogRecord := fitFrom budget 0 false records

structure LogSearchArgs where
  serviceName : Option String := none
  severity : Option LogSeverity := none
  text : Option String := none
  startTime : Option ℤ := none
  endTime : Option ℤ := none
  correlationKey : Option String := none
  normalSignal : Option String := none
  limit : ℤ := 50

structure LogContextArgs where
  correlationKey : String
  serviceName : Option String := none
  startTime : Option ℤ := none
  endTime : Option ℤ := none
  limit : ℤ := 50

structure LogQueryArgs where
  serviceName : String
  sourceKind : LogSourceKind
  sourceRef : String
  severity : Option LogSeverity := none

/-- What the tools work on: the tables, the services of the run's project, and what the source
of a query answers, with the ids drawn for its lines. -/
structure LogSurroundings where
  tables : LogTables
  services : String → Option ServiceRegistration
  answer : Option (List RawLogLine × List String)
  now : ℤ
  budget : ℕ

/-- The source that a query reads, as the context of its records. -/
def LogQueryArgs.context (run : AgentScope) (args : LogQueryArgs) : LogSubscription where
  subscriptionId := ""
  projectId := run.projectId
  targetId := run.targetId
  serviceName := args.serviceName
  sourceKind := args.sourceKind
  scope := match args.sourceKind with
    | .docker => .container
    | .file => .host
  sourceRef := args.sourceRef

/-- The checks of `_handle_log_query`. -/
def LogQueryArgs.permitted (run : AgentScope) (services : String → Option ServiceRegistration) (args : LogQueryArgs) :
    Bool :=
  (match services args.serviceName, args.sourceKind with
    | none, _ => false
    | some svc, .docker => (validateContainer run svc args.sourceRef).isOk
    | some _, .file => (parsePath args.sourceRef).any fun path => (validatePathInScope run path .host).isOk) &&
  !(run.scope = .container && (args.sourceKind ≠ .docker || some args.sourceRef ≠ run.containerName ||
    some args.serviceName ≠ run.serviceName))

/-- `records_by_dedupe_keys`: the last row with each key; `none` for a missing key. -/
def recordsByDedupeKeys (rows : List LogRecord) (keys : List String) : Option (List LogRecord) :=
  keys.mapM fun key => rows.reverse.find? fun row => row.dedupeKey = key

def logQuery (pipeline : Pipeline) (run : AgentScope) (env : LogSurroundings) (args : LogQueryArgs) :
    Option (List LogRecord) :=
  if args.permitted run env.services then
    env.answer.bind fun answer =>
      let records := (processRawLines pipeline (args.context run) answer.1 answer.2 env.now).map fun record =>
        { record with subscriptionId := none }
      (recordsByDedupeKeys (appendBatch env.tables.rows records).1 (records.map LogRecord.dedupeKey)).map fun stored =>
        fitRecordsToBudget env.budget (stored.filter fun record => args.severity.all fun s => record.severity = s)
  else none

def LogSearchArgs.filters (run : AgentScope) (args : LogSearchArgs) : LogSearchFilters :=
  { projectId := run.projectId, targetId := run.targetId, serviceName := args.serviceName,
    severity := args.severity, text := args.text, startTime := args.startTime, endTime := args.endTime,
    correlationKey := args.correlationKey, normalSignal := args.normalSignal }

def LogContextArgs.filters (run : AgentScope) (args : LogContextArgs) : LogSearchFilters :=
  { projectId := run.projectId, targetId := run.targetId, serviceName := args.serviceName,
    startTime := args.startTime, endTime := args.endTime, correlationKey := some args.correlationKey }

inductive LogCall
  | query (args : LogQueryArgs)
  | search (args : LogSearchArgs)
  | context (args : LogContextArgs)

/-- The records a tool returns and makes evidence of; `none` when it raises. -/
def LogCall.records (pipeline : Pipeline) (fts : List String → String → Bool) (run : AgentScope)
    (env : LogSurroundings) : LogCall → Option (List LogRecord)
  | .query args => logQuery pipeline run env args
  | .search args => (searchRecords fts env.tables (args.filters run) (min args.limit 200)).map
      (fitRecordsToBudget env.budget)
  | .context args => (searchRecords fts env.tables (args.filters run) (min args.limit 200)).map
      (fitRecordsToBudget env.budget)

/-- The record is one that the scope of the run takes in. -/
structure InScope (run : AgentScope) (record : LogRecord) : Prop where
  project : record.projectId = run.projectId
  target : record.targetId = run.targetId
  container : run.scope = .container → some record.serviceName = run.serviceName ∧ record.scope = .container ∧
    some record.sourceRef = run.containerName
  file : run.scope = .host → run.allowedHostPaths ≠ [] → record.sourceKind = .file →
    ∃ path, parsePath record.sourceRef = some path ∧ allows run.allowedHostPaths path

/-- The separator of dedupe sources is not in the names. -/
def Barless (subscription : LogSubscription) : Prop :=
  '|' ∉ subscription.projectId.toList ∧ '|' ∉ subscription.targetId.toList ∧
    '|' ∉ subscription.serviceName.toList ∧ '|' ∉ subscription.sourceRef.toList

def LogSearchFilters.Barless (filters : LogSearchFilters) : Prop :=
  '|' ∉ filters.projectId.toList ∧ '|' ∉ filters.targetId.toList ∧ '|' ∉ (filters.serviceName.getD "").toList

def recordContext (record : LogRecord) : LogSubscription where
  subscriptionId := ""
  projectId := record.projectId
  targetId := record.targetId
  serviceName := record.serviceName
  sourceKind := record.sourceKind
  scope := record.scope
  sourceRef := record.sourceRef

def Keyed (pipeline : Pipeline) (rows : List LogRecord) : Prop :=
  ∀ row ∈ rows, Barless (recordContext row) ∧ ∃ raw, row.dedupeKey = dedupeKey pipeline (recordContext row) raw

/-- The run is confined to nothing but its project and target. -/
def AgentScope.unbounded (run : AgentScope) : Prop := run.scope = .host ∧ run.allowedHostPaths = []

def Barren (fts : List String → String → Bool) (filters : LogSearchFilters) (limit : ℤ) : Prop :=
  limit < 1 ∨ filters.tokens = none ∨
    ∀ tokens, filters.tokens = some tokens → ∀ tables record, selects fts tables filters tokens record = false

/-- The calls that keep within the scope whatever is stored. -/
def LogCall.Confined (fts : List String → String → Bool) (run : AgentScope) : LogCall → Prop
  | .query _ => True
  | .search args => run.unbounded ∨ Barren fts (args.filters run) args.limit
  | .context args => run.unbounded ∨ Barren fts (args.filters run) args.limit

/-- The separator of dedupe sources is in none of the names of a call. -/
def LogCall.Plain (run : AgentScope) : LogCall → Prop
  | .query args => Barless (args.context run)
  | .search args => (args.filters run).Barless
  | .context args => (args.filters run).Barless

section Dedupe
variable {pipeline : Pipeline} {s s' : LogSubscription} {raw raw' : RawLogLine}

lemma cut_at_bar {a b x y : List Char} (ha : '|' ∉ a) (hb : '|' ∉ b) (h : a ++ '|' :: x = b ++ '|' :: y) :
    a = b ∧ x = y := by
  induction a generalizing b with
  | nil =>
    cases b with
    | nil => exact ⟨rfl, by simpa using h⟩
    | cons c b =>
      obtain ⟨rfl, -⟩ := cons.inj h
      exact absurd mem_cons_self hb
  | cons c a ih =>
    cases b with
    | nil =>
      obtain ⟨rfl, -⟩ := cons.inj h
      exact absurd mem_cons_self ha
    | cons d b =>
      obtain ⟨rfl, hrest⟩ := cons.inj h
      obtain ⟨rfl, rfl⟩ := ih (fun hmem => ha (mem_cons_of_mem _ hmem))
        (fun hmem => hb (mem_cons_of_mem _ hmem)) hrest
      exact ⟨rfl, rfl⟩

lemma intercalate_bar (a b : List Char) (l : List (List Char)) :
    "|".toList.intercalate (a :: b :: l) = a ++ '|' :: "|".toList.intercalate (b :: l) := by
  simp [intercalate]

lemma kind_of_value {kind kind' : LogSourceKind} (h : kind.value = kind'.value) : kind = kind' := by
  cases kind <;> cases kind' <;> first | rfl | (revert h; decide)

lemma scope_of_value {scope scope' : LogScope} (h : scope.value = scope'.value) : scope = scope' := by
  cases scope <;> cases scope' <;> first | rfl | (revert h; decide)

lemma kind_barless (kind : LogSourceKind) : '|' ∉ kind.value.toList := by cases kind <;> decide

lemma scope_barless (scope : LogScope) : '|' ∉ scope.value.toList := by cases scope <;> decide

lemma context_of_dedupeSource (hs : Barless s) (hs' : Barless s')
    (h : dedupeSource pipeline s raw = dedupeSource pipeline s' raw') :
    s.projectId = s'.projectId ∧ s.targetId = s'.targetId ∧ s.serviceName = s'.serviceName ∧
      s.sourceKind = s'.sourceKind ∧ s.scope = s'.scope ∧ s.sourceRef = s'.sourceRef := by
  have h := congrArg String.toList h
  simp only [dedupeSource, String.toList_intercalate, map_cons, map_nil] at h
  simp only [intercalate_bar] at h
  obtain ⟨hproject, h⟩ := cut_at_bar hs.1 hs'.1 h
  obtain ⟨htarget, h⟩ := cut_at_bar hs.2.1 hs'.2.1 h
  obtain ⟨hservice, h⟩ := cut_at_bar hs.2.2.1 hs'.2.2.1 h
  obtain ⟨hkind, h⟩ := cut_at_bar (kind_barless _) (kind_barless _) h
  obtain ⟨hscope, h⟩ := cut_at_bar (scope_barless _) (scope_barless _) h
  obtain ⟨href, -⟩ := cut_at_bar hs.2.2.2 hs'.2.2.2 h
  exact ⟨String.toList_inj.mp hproject, String.toList_inj.mp htarget, String.toList_inj.mp hservice,
    kind_of_value (String.toList_inj.mp hkind), scope_of_value (String.toList_inj.mp hscope),
    String.toList_inj.mp href⟩

end Dedupe

section Query
variable {pipeline : Pipeline} {run : AgentScope} {env : LogSurroundings} {args : LogQueryArgs}

lemma allows_of_validatePathInScope {path : SimplePath} (h : (validatePathInScope run path .host).isOk = true) :
    allows run.allowedHostPaths path := by
  rw [← validatePathInScope_host]
  cases hvalid : validatePathInScope run path .host with
  | ok p => exact ⟨p, rfl⟩
  | error e =>
    rw [hvalid] at h
    cases h

variable {record : LogRecord}

lemma inScope_of_context (hpermitted : args.permitted run env.services = true)
    (hcontext : recordContext record = args.context run) : InScope run record := by
  obtain ⟨hreach, hown⟩ := Bool.and_eq_true_iff.mp hpermitted
  have hservice : record.serviceName = args.serviceName := congrArg serviceName hcontext
  have hkind : record.sourceKind = args.sourceKind := congrArg sourceKind hcontext
  have href : record.sourceRef = args.sourceRef := congrArg sourceRef hcontext
  have hscope : record.scope = (args.context run).scope := congrArg scope hcontext
  refine ⟨congrArg projectId hcontext, congrArg targetId hcontext, ?_, ?_⟩
  · intro hcontainer
    simp only [hcontainer, decide_true, Bool.true_and, Bool.not_eq_true', Bool.or_eq_false_iff,
      decide_eq_false_iff_not, not_not] at hown
    obtain ⟨⟨hdocker, hname⟩, hown⟩ := hown
    refine ⟨by rw [hservice, hown], ?_, by rw [href, hname]⟩
    rw [hscope, LogQueryArgs.context, hdocker]
  · intro _ _ hfile
    rw [hkind] at hfile
    cases hservices : env.services args.serviceName with
    | none => simp [hservices] at hreach
    | some svc =>
      simp only [hservices, hfile, Option.any_eq_true] at hreach
      obtain ⟨path, hpath, hvalid⟩ := hreach
      exact ⟨path, by rw [href, hpath], allows_of_validatePathInScope hvalid⟩

lemma mem_insertOrIgnore {rows : List LogRecord} {record row : LogRecord} (h : row ∈ insertOrIgnore rows record) :
    row ∈ rows ∨ recordContext row = recordContext record := by
  unfold insertOrIgnore at h
  split_ifs at h
  · exact .inl h
  · rcases mem_append.mp h with h | h
    · exact .inl h
    · rw [mem_singleton.mp h]
      exact .inr rfl

lemma mem_appendBatch {rows records : List LogRecord} {row : LogRecord} {context : LogSubscription}
    (hrecords : ∀ record ∈ records, recordContext record = context) (h : row ∈ (appendBatch rows records).1) :
    row ∈ rows ∨ recordContext row = context := by
  rw [appendBatch_fst] at h
  induction records generalizing rows with
  | nil => exact .inl h
  | cons record records ih =>
    obtain ⟨hrecord, hrest⟩ := forall_mem_cons.mp hrecords
    rcases ih hrest h with h | h
    · rcases mem_insertOrIgnore h with h | h
      · exact .inl h
      · exact .inr (h.trans hrecord)
    · exact .inr h

lemma mem_processRawLines_context {subscription : LogSubscription} {rawLines : List RawLogLine} {logIds : List String}
    {now : ℤ} (h : record ∈ processRawLines pipeline subscription rawLines logIds now) :
    recordContext record = { subscription with subscriptionId := "" } ∧
      ∃ raw, record.dedupeKey = dedupeKey pipeline subscription raw := by
  induction rawLines generalizing logIds with
  | nil => cases h
  | cons raw rawLines ih =>
    cases logIds with
    | nil => cases h
    | cons logId logIds =>
      cases mem_cons.mp h with
      | inl heq =>
        rw [heq]
        exact ⟨rfl, raw, rfl⟩
      | inr hmem => exact ih hmem

lemma mem_fitFrom {budget total : ℕ} {selected : Bool} {records : List LogRecord}
    (h : record ∈ fitFrom budget total selected records) : record ∈ records := by
  induction records generalizing total selected with
  | nil => cases h
  | cons first records ih =>
    simp only [fitFrom] at h
    split_ifs at h
    · cases h
    · cases mem_cons.mp h with
      | inl heq => rw [heq]; exact mem_cons_self
      | inr hmem => exact mem_cons_of_mem _ (ih hmem)

lemma mem_recordsByDedupeKeys {rows stored : List LogRecord} {keys : List String}
    (h : recordsByDedupeKeys rows keys = some stored) (hrecord : record ∈ stored) :
    record ∈ rows ∧ record.dedupeKey ∈ keys := by
  unfold recordsByDedupeKeys at h
  induction keys generalizing stored with
  | nil =>
    cases h
    cases hrecord
  | cons key keys ih =>
    simp only [mapM_cons, Option.bind_eq_bind, Option.bind_eq_some_iff] at h
    obtain ⟨found, hfound, rest, hrest, hstored⟩ := h
    cases hstored
    cases mem_cons.mp hrecord with
    | inl heq =>
      subst heq
      have hkey := find?_some hfound
      exact ⟨mem_reverse.mp (mem_of_find?_eq_some hfound), mem_cons.mpr (.inl (of_decide_eq_true hkey))⟩
    | inr hmem =>
      obtain ⟨hrows, hkeys⟩ := ih hrest hmem
      exact ⟨hrows, mem_cons_of_mem _ hkeys⟩

lemma context_of_keyed (hsha : Function.Injective pipeline.sha256) (hplain : Barless (args.context run))
    {rows : List LogRecord} (hkeyed : Keyed pipeline rows) {row : LogRecord} (hrow : row ∈ rows) {raw : RawLogLine}
    (hkey : row.dedupeKey = dedupeKey pipeline (args.context run) raw) : recordContext row = args.context run := by
  obtain ⟨hbarless, raw', hraw'⟩ := hkeyed row hrow
  have hsource := hsha (hraw'.symm.trans hkey)
  obtain ⟨hproject, htarget, hservice, hkind, hscope, href⟩ := context_of_dedupeSource hbarless hplain hsource
  calc recordContext row
      = ⟨"", (recordContext row).projectId, (recordContext row).targetId, (recordContext row).serviceName,
          (recordContext row).sourceKind, (recordContext row).scope, (recordContext row).sourceRef⟩ := rfl
    _ = args.context run := by
        rw [hproject, htarget, hservice, hkind, hscope, href]
        rfl

lemma inScope_of_logQuery (hsha : Function.Injective pipeline.sha256) (hplain : Barless (args.context run))
    (hkeyed : Keyed pipeline env.tables.rows) {records : List LogRecord}
    (h : logQuery pipeline run env args = some records) (hrecord : record ∈ records) : InScope run record := by
  unfold logQuery at h
  split_ifs at h with hpermitted
  obtain ⟨answer, -, h⟩ := Option.bind_eq_some_iff.mp h
  obtain ⟨stored, hstored, rfl⟩ := Option.map_eq_some_iff.mp h
  have hmem : record ∈ stored := (mem_filter.mp (mem_fitFrom hrecord)).1
  obtain ⟨hrow, hkey⟩ := mem_recordsByDedupeKeys hstored hmem
  refine inScope_of_context hpermitted ?_
  have hcontext : ∀ made ∈ (processRawLines pipeline (args.context run) answer.1 answer.2 env.now).map
      (fun made => { made with subscriptionId := none }), recordContext made = args.context run := by
    intro made hmade
    obtain ⟨first, hfirst, rfl⟩ := mem_map.mp hmade
    exact (mem_processRawLines_context hfirst).1
  rcases mem_appendBatch hcontext hrow with hrow | hrow
  · obtain ⟨made, hmade, hkey⟩ := mem_map.mp hkey
    obtain ⟨first, hfirst, rfl⟩ := mem_map.mp hmade
    obtain ⟨raw, hraw⟩ := (mem_processRawLines_context hfirst).2
    exact context_of_keyed hsha hplain hkeyed hrow (hkey.symm.trans hraw)
  · exact hrow

end Query

section Search
variable {pipeline : Pipeline} {fts : List String → String → Bool} {run : AgentScope} {tables : LogTables}
  {filters : LogSearchFilters} {limit : ℤ} {budget : ℕ} {records : List LogRecord}

variable {record : LogRecord}

lemma mem_searchRecords (h : (searchRecords fts tables filters limit).map (fitRecordsToBudget budget) = some records)
    (hrecord : record ∈ records) :
    1 ≤ limit ∧ ∃ tokens, filters.tokens = some tokens ∧ selects fts tables filters tokens record = true := by
  obtain ⟨found, hfound, rfl⟩ := Option.map_eq_some_iff.mp h
  unfold searchRecords at hfound
  split_ifs at hfound with hlimit
  obtain ⟨tokens, htokens, rfl⟩ := Option.map_eq_some_iff.mp hfound
  have hselected := mem_of_mem_take (mem_fitFrom hrecord)
  exact ⟨hlimit.1, tokens, htokens, (mem_filter.mp hselected).2⟩

lemma inScope_of_selects (hrun : run.unbounded) (hproject : filters.projectId = run.projectId)
    (htarget : filters.targetId = run.targetId) {tokens : List String}
    (h : selects fts tables filters tokens record = true) : InScope run record := by
  simp only [selects, Bool.and_eq_true, decide_eq_true_eq] at h
  obtain ⟨⟨⟨⟨⟨⟨⟨⟨hp, ht⟩, -⟩, -⟩, -⟩, -⟩, -⟩, -⟩, -⟩ := h
  refine ⟨hp.trans hproject, ht.trans htarget, ?_, ?_⟩
  · intro hcontainer
    rw [hrun.1] at hcontainer
    cases hcontainer
  · intro _ hpaths
    exact absurd hrun.2 hpaths

/-- A file record of the host from outside every path, with the key of its own context. -/
def elsewhere (pipeline : Pipeline) (filters : LogSearchFilters) (record : LogRecord) : LogRecord :=
  let moved := { record with
    serviceName := filters.serviceName.getD "", sourceKind := .file, scope := .host, sourceRef := "elsewhere" }
  { moved with dedupeKey := dedupeKey pipeline (recordContext moved) ⟨"elsewhere", "", 0, ""⟩ }

lemma selects_elsewhere {tokens : List String} (h : selects fts tables filters tokens record = true) :
    selects fts { tables with rows := [elsewhere pipeline filters record] } filters tokens
      (elsewhere pipeline filters record) = true := by
  simp only [selects, Bool.and_eq_true] at h ⊢
  obtain ⟨⟨⟨⟨⟨⟨⟨⟨hp, ht⟩, -⟩, hseverity⟩, hstart⟩, hstop⟩, hkey⟩, hsignal⟩, htext⟩ := h
  refine ⟨⟨⟨⟨⟨⟨⟨⟨hp, ht⟩, ?_⟩, hseverity⟩, hstart⟩, hstop⟩, hkey⟩, hsignal⟩, htext⟩
  cases hservice : filters.serviceName with
  | none => rfl
  | some service => simp [elsewhere, hservice]

lemma keyed_elsewhere (hplain : filters.Barless) (hproject : record.projectId = filters.projectId)
    (htarget : record.targetId = filters.targetId) : Keyed pipeline [elsewhere pipeline filters record] := by
  intro row hrow
  rw [mem_singleton.mp hrow]
  refine ⟨⟨?_, ?_, hplain.2.2, ?_⟩, _, rfl⟩
  · have h := hplain.1
    rwa [← hproject] at h
  · have h := hplain.2.1
    rwa [← htarget] at h
  · exact show '|' ∉ "elsewhere".toList by decide

lemma elsewhere_not_inScope (hrun : ¬ run.unbounded) : ¬ InScope run (elsewhere pipeline filters record) := by
  intro hscope
  cases hkind : run.scope with
  | container => cases (hscope.container hkind).2.1
  | host =>
    obtain ⟨path, hpath, -⟩ := hscope.file hkind (fun hpaths => hrun ⟨hkind, hpaths⟩) rfl
    revert hpath
    exact show parsePath "elsewhere" = some path → False by
      have hnone : parsePath "elsewhere" = none := by decide
      simp [hnone]

lemma finds_elsewhere (hplain : filters.Barless) (hrun : ¬ run.unbounded) (hfull : ¬ Barren fts filters limit) :
    ∃ tables, Keyed pipeline tables.rows ∧ ∃ record, ¬ InScope run record ∧
      (searchRecords fts tables filters (min limit 200)).map (fitRecordsToBudget budget) = some [record] := by
  simp only [Barren, not_or, not_lt, not_forall, Bool.not_eq_false] at hfull
  obtain ⟨hlimit, -, tokens, htokens, tables, record, hselects⟩ := hfull
  have hmatch := hselects
  simp only [selects, Bool.and_eq_true, decide_eq_true_eq] at hmatch
  obtain ⟨⟨⟨⟨⟨⟨⟨⟨hproject, htarget⟩, -⟩, -⟩, -⟩, -⟩, -⟩, -⟩, -⟩ := hmatch
  refine ⟨{ tables with rows := [elsewhere pipeline filters record] }, keyed_elsewhere hplain hproject htarget,
    elsewhere pipeline filters record, elsewhere_not_inScope hrun, ?_⟩
  have hbounds : 1 ≤ min limit 200 ∧ min limit 200 ≤ 1000 := by omega
  have htake : 0 < (min limit 200).toNat := by omega
  obtain ⟨n, hn⟩ := Nat.exists_eq_succ_of_ne_zero htake.ne'
  rw [searchRecords, if_pos hbounds, htokens, Option.map_some, Option.map_some,
    filter_cons_of_pos (selects_elsewhere hselects), filter_nil, hn, take_succ_cons, take_nil]
  simp [fitRecordsToBudget, fitFrom]

lemma search_confined_iff (hplain : filters.Barless)
    (hproject : filters.projectId = run.projectId) (htarget : filters.targetId = run.targetId) :
    (∀ env : LogSurroundings, Keyed pipeline env.tables.rows → ∀ records,
      (searchRecords fts env.tables filters (min limit 200)).map (fitRecordsToBudget env.budget) = some records →
      ∀ record ∈ records, InScope run record) ↔ run.unbounded ∨ Barren fts filters limit := by
  constructor
  · intro hall
    refine or_iff_not_imp_left.mpr fun hrun => ?_
    by_contra hfull
    obtain ⟨tables, hkeyed, record, hout, hfound⟩ := @finds_elsewhere pipeline fts run filters limit 0 hplain hrun hfull
    exact hout (hall ⟨tables, fun _ => none, none, 0, 0⟩ hkeyed _ hfound record mem_cons_self)
  · intro hconfined env _ records hrecords record hrecord
    obtain ⟨hlimit, tokens, htokens, hselects⟩ := mem_searchRecords hrecords hrecord
    rcases hconfined with hrun | hlow | hnone | hnever
    · exact inScope_of_selects hrun hproject htarget hselects
    · omega
    · rw [hnone] at htokens
      cases htokens
    · have hnot := hnever tokens htokens env.tables record
      rw [hselects] at hnot
      cases hnot

end Search

/-- The pipeline that keeps lines as they are, with the identity for a digest. -/
def plainPipeline : Pipeline := ⟨fun text => ⟨.info, text, true⟩, id, id⟩

def containerRun : AgentScope where
  projectId := "shop"
  targetId := "prod"
  scope := .container
  serviceName := some "api"
  containerName := some "api-1"
  identity := identity_container "api" "api-1"

/-- A line of another service in another container. -/
def billingRow : LogRecord where
  logId := "log-1"
  subscriptionId := none
  projectId := "shop"
  targetId := "prod"
  serviceName := "billing"
  sourceKind := .docker
  scope := .container
  sourceRef := "billing-1"
  cursor := "docker:billing-1:0"
  dedupeKey := "shop|prod|billing|docker|container|billing-1|docker:billing-1:0|card declined"
  observedAt := 0
  severity := .info
  messageRedacted := "card declined"
  streamSequence := 1

def billingStore : LogTables := ⟨[billingRow], fun _ => none, fun _ => none⟩

end IncidentLens.Investigations
