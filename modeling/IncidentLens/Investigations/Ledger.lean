import IncidentLens.Investigations.Bookings
import IncidentLens.Investigations.Service

/-!
# The ledger

The paths that book, in any order between all other writes to investigations, runs and tool
calls. A loop may write back a copy of its run that it read before.
-/
namespace IncidentLens.Investigations
open Data Effects StateError Function Books Option

/-- The copies of runs that were read, and how many references were ever attached to the
runs of an investigation. -/
structure Ledger where
  db : Database
  held : List AgentRun := []
  appended : String → ℕ := fun _ => 0

abbrev Ledger.books (s : Ledger) : Books := s.db.toStore.books

def Ledger.rows (s : Ledger) (agentRunId : String) : Option (AgentRun × Investigation) :=
  (s.db.runs.get agentRunId).bind fun run =>
    (s.db.investigations.get run.investigationId).map fun investigation => (run, investigation)

/-- The references attached after a step that concerns one run. -/
def grown (b b' : Books) (agentRunId : String) (appended : String → ℕ) : String → ℕ :=
  match b'.runs agentRunId with
  | none => appended
  | some a => update appended a.investigationId
      (appended a.investigationId + (a.evidence.length - (b.runs agentRunId).elim 0 (·.evidence.length)))

def Ledger.with (s : Ledger) (db : Database) : Ledger := { s with db := db }

def Ledger.after (s : Ledger) (agentRunId : String) (db : Database) : Ledger :=
  { s with db := db, appended := grown s.books db.toStore.books agentRunId s.appended }

def Ledger.onRows (s : Ledger) (store : Store) : Database := { s.db with toStore := store }

inductive LedgerMove
  | createInvestigation (investigation : Investigation)
  | createParent (investigationId agentRunId : String) (budget : AgentBudget)
  | spawn (copy : ℕ) (package : DelegatedTaskPackage)
  | fold (agentRunId : String) (request : ToolRequest) (outcome : ToolOutcome) (now : Time)
  | land (toolCallId : String) (outcome : ToolOutcome)
  | deliver (agentRunId : String) (receipt : ChildReportReceipt) (now : Time)
  | hold (agentRunId : String)
  | writeRun (copy : ℕ) (run : AgentRun)
  | writeInvestigation (investigation : Investigation)
  | moveRun (agentRunId : String) (target : AgentRunStatus) (stopReason : Option StopReason) (now : Time)
  | moveInvestigation (investigationId : String) (target : InvestigationStatus) (stopReason : Option StopReason)
      (now : Time)
  | createCall (toolCall : ToolCall)
  | moveCall (toolCallId : String) (target : ToolCallStatus) (errorRedacted : Option String)
  | aside (db : Database)

/-- A fold and an approval know the call, its run and its investigation; a copy that is
written back keeps what was booked in it. -/
def Ledger.step (s : Ledger) : LedgerMove → Option Ledger
  | .createInvestigation investigation =>
    if investigation.usage = {} then some (s.with ((createInvestigation investigation).exec s.db).2) else none
  | .createParent investigationId agentRunId budget =>
    (s.db.investigations.get investigationId).map fun investigation =>
      s.after agentRunId ((createAgentRun (buildParentRun investigation agentRunId budget)).exec s.db).2
  | .spawn copy package =>
    (s.held[copy]?).map fun parent =>
      s.after package.childRunId ((spawnChildFromPackage parent package ([], [])).exec s.db).2
  | .fold agentRunId request outcome now =>
    (s.rows agentRunId).bind fun rows => (s.db.toolCalls.get request.toolCallId).bind fun toolCall =>
      if toolCall.agentRunId = agentRunId ∧ outcome.status.reported then
        some (s.after agentRunId (s.onRows ((foldToolOutcome rows.1 rows.2 request outcome now).exec s.db.toStore).2))
      else none
  | .land toolCallId outcome =>
    (s.db.toolCalls.get toolCallId).bind fun toolCall => (s.rows toolCall.agentRunId).bind fun _ =>
      if outcome.status.reported then
        some (s.after toolCall.agentRunId (s.onRows ((landApproval toolCallId outcome).exec s.db.toStore).2))
      else none
  | .deliver agentRunId receipt now =>
    (s.rows agentRunId).map fun _ => s.after agentRunId ((deliverReceipt agentRunId now receipt).exec s.db).2
  | .hold agentRunId => (s.db.runs.get agentRunId).map fun run => { s with held := s.held ++ [run] }
  | .writeRun copy run =>
    (s.held[copy]?).bind fun held =>
      if run.agentRunId = held.agentRunId ∧ run.account = held.account then
        some (s.with (s.onRows ((updateAgentRun run).exec s.db.toStore).2))
      else none
  | .writeInvestigation investigation =>
    (s.db.investigations.get investigation.investigationId).bind fun stored =>
      if investigation.account = stored.account then
        some (s.with (s.onRows ((updateInvestigation investigation).exec s.db.toStore).2))
      else none
  | .moveRun agentRunId target stopReason now =>
    some (s.with (s.onRows ((transitionAgentRunStatus agentRunId target now stopReason).exec s.db.toStore).2))
  | .moveInvestigation investigationId target stopReason now =>
    some (s.with (s.onRows
      ((transitionInvestigationStatus investigationId target now stopReason).exec s.db.toStore).2))
  | .createCall toolCall =>
    if toolCall.status = .planned then some (s.with (s.onRows ((createToolCall toolCall).exec s.db.toStore).2))
    else none
  | .moveCall toolCallId target errorRedacted =>
    some (s.with (s.onRows ((transitionToolCallStatus toolCallId target fun toolCall =>
      { toolCall with errorRedacted := errorRedacted.orElse fun _ => toolCall.errorRedacted }).exec s.db.toStore).2))
  | .aside db => some (s.with { db with toStore := s.db.toStore })

/-- No child starts with references of its parent, and an approved call fits into the
investigation. -/
def Ledger.Budgeted (s : Ledger) : LedgerMove → Prop
  | .spawn copy package => ∀ parent, s.held[copy]? = some parent → (buildChildRun package parent).evidence = []
  | .land toolCallId outcome => ∀ toolCall rows, s.db.toolCalls.get toolCallId = some toolCall →
      s.rows toolCall.agentRunId = some rows → booksOutcome rows.1 outcome = true →
        rows.2.usage.evidenceCount + (newReferences rows.1 outcome).length ≤ rows.2.budget.maxEvidence
  | _ => True

/-- No outcome is refused, an approved call brings references that fit, no copy of a run is
outdated, and no call is ended without an outcome. -/
def Ledger.Counted (s : Ledger) : LedgerMove → Prop
  | .fold agentRunId _ outcome _ => outcome.status ≠ .waitingApproval → ∀ rows, s.rows agentRunId = some rows →
      accepts rows.1 rows.2 outcome = true
  | .land toolCallId outcome => ∀ toolCall rows, s.db.toolCalls.get toolCallId = some toolCall →
      s.rows toolCall.agentRunId = some rows → booksOutcome rows.1 outcome = true
  | .writeRun _ run => ∀ stored, s.db.runs.get run.agentRunId = some stored →
      stored.usage.toolCalls = run.usage.toolCalls
  | .moveCall _ target _ => target.executed = false
  | _ => True

/-- Runs belong to stored investigations, and copies are copies of stored runs. -/
structure Ledger.Sound (s : Ledger) : Prop where
  owners : ∀ id a, s.books.runs id = some a → s.books.investigations a.investigationId ≠ none
  copies : ∀ r ∈ s.held, ∃ a, s.books.runs r.agentRunId = some a ∧ a.investigationId = r.investigationId ∧
    a.maxEvidence = r.budget.maxEvidence

/-- All that a step does to the books, the copies and the attached references. -/
inductive LedgerEffect (s : Ledger) (move : LedgerMove) (t : Ledger) : Prop
  | idle (books : t.books = s.books) (held : t.held = s.held) (appended : t.appended = s.appended)
  | copied {r : AgentRun} (books : t.books = s.books) (stored : s.books.runs r.agentRunId = some r.account)
      (held : t.held = s.held ++ [r]) (appended : t.appended = s.appended)
  | investigated {id : String} {maxEvidence : ℕ} (new : s.books.investigations id = none)
      (books : t.books = { s.books with
        investigations := update s.books.investigations id (some ⟨0, 0, maxEvidence⟩) })
      (held : t.held = s.held) (appended : t.appended = s.appended)
  | started {id : String} {a : Account} (new : s.books.runs id = none)
      (owner : s.books.investigations a.investigationId ≠ none) (unused : a.evidenceCount = 0 ∧ a.toolCalls = 0)
      (seeds : s.Budgeted move → a.evidence = [])
      (books : t.books = { s.books with runs := update s.books.runs id (some a) })
      (held : t.held = s.held) (appended : t.appended =
        update s.appended a.investigationId (s.appended a.investigationId + a.evidence.length))
  | rewritten {r : AgentRun} {a : Account} (copy : r ∈ s.held) (stored : s.books.runs r.agentRunId = some a)
      (current : s.Counted move → a.toolCalls = r.account.toolCalls)
      (books : t.books = { s.books with runs := update s.books.runs r.agentRunId (some r.account) })
      (held : t.held = s.held) (appended : t.appended = s.appended)
  | executed {id me : String} (uncounted : ¬ s.Counted move) (books : t.books = s.books.execute id me)
      (held : t.held = s.held) (appended : t.appended = s.appended)
  | booked {me : String} {a : Account} {i : InvestigationAccount} {n calls : ℕ}
      (booked : s.books.Booked t.books me a i n calls)
      (fits : s.Budgeted move → n ≠ 0 → i.evidenceCount + n ≤ i.maxEvidence)
      (calls : (calls = 0 ∧ t.books.calls = s.books.calls) ∨ ∃ id, calls = 1 ∧ s.books.calls id = none ∧
        t.books.calls = update s.books.calls id (some me))
      (held : t.held = s.held) (appended : t.appended =
        update s.appended a.investigationId (s.appended a.investigationId + n))

section
variable {s t : Ledger} {b b' : Books} {me : String} {appended : String → ℕ}

lemma grown_same (h : b'.runs = b.runs) : grown b b' me appended = appended := by
  unfold grown
  rw [h]
  cases b.runs me with
  | none => rfl
  | some a => simp

lemma grown_booked {a : Account} {i : InvestigationAccount} {n calls : ℕ} (h : b.Booked b' me a i n calls) :
    grown b b' me appended = update appended a.investigationId (appended a.investigationId + n) := by
  obtain ⟨hrun, -, a', i', hbooked, -, hruns, -⟩ := h
  simp [grown, hruns, update_self, hrun, hbooked.owner, hbooked.evidence, elim_some]

lemma grown_started {a : Account} (hnew : b.runs me = none) (h : b'.runs = update b.runs me (some a)) :
    grown b b' me appended = update appended a.investigationId (appended a.investigationId + a.evidence.length) := by
  simp [grown, h, update_self, hnew, elim_none]

variable {investigation : Investigation} {run : AgentRun} {toolCall : ToolCall}

lemma rows_stored (h : s.rows me = some (run, investigation)) :
    run.agentRunId = me ∧ s.db.runs.get run.agentRunId = some run ∧
      s.db.investigations.get run.investigationId = some investigation := by
  obtain ⟨r, hr, hrest⟩ := bind_eq_some_iff.mp h
  obtain ⟨i, hi, heq⟩ := map_eq_some_iff.mp hrest
  cases heq
  exact ⟨s.db.runs.keyed _ _ hr, s.db.runs.get_key hr, hi⟩

/-! ### The effect of one move -/

lemma createInvestigation_effect (husage : investigation.usage = {}) :
    LedgerEffect s (.createInvestigation investigation) (s.with ((createInvestigation investigation).exec s.db).2) := by
  suffices h : wp (createInvestigation investigation) (fun _ db =>
      LedgerEffect s (.createInvestigation investigation) (s.with db)) s.db from h
  simp only [createInvestigation, wp_bind, wp_get]
  cases hnew : s.db.investigations.get investigation.investigationId with
  | some _ => exact .idle rfl rfl rfl
  | none =>
    refine @LedgerEffect.investigated _ _ _ investigation.investigationId investigation.budget.maxEvidence
      ?_ ?_ rfl rfl
    · simp only [Ledger.books, Store.books, hnew, map_none]
    · refine (books_putInvestigation s.db.toStore investigation).trans ?_
      rw [Investigation.account, husage]

lemma createParent_effect {investigationId agentRunId : String} {budget : AgentBudget}
    (hinv : s.db.investigations.get investigationId = some investigation) :
    LedgerEffect s (.createParent investigationId agentRunId budget)
      (s.after agentRunId ((createAgentRun (buildParentRun investigation agentRunId budget)).exec s.db).2) := by
  suffices h : wp (createAgentRun (buildParentRun investigation agentRunId budget)) (fun _ db =>
      LedgerEffect s (.createParent investigationId agentRunId budget) (s.after agentRunId db)) s.db from h
  have hkind : (buildParentRun investigation agentRunId budget).kind ≠ .child := by simp [buildParentRun]
  simp only [createAgentRun, wp_bind, wp_get, hkind, if_false]
  cases hnew : s.db.runs.get (buildParentRun investigation agentRunId budget).agentRunId with
  | some _ => exact .idle rfl rfl (grown_same rfl)
  | none =>
    have hnew' : s.books.runs agentRunId = none := by
      simp only [Ledger.books, Store.books]
      exact congrArg (Option.map AgentRun.account) hnew
    have hbooks := books_putRun s.db.toStore (buildParentRun investigation agentRunId budget)
    refine .started hnew' ?_ ⟨rfl, rfl⟩ (fun _ => rfl) hbooks rfl
      (grown_started hnew' (congrArg runs hbooks))
    have hstored := books_investigations (s.db.investigations.get_key hinv)
    change s.books.investigations investigation.investigationId ≠ none
    rw [hstored]
    exact some_ne_none _

lemma spawn_effect (hs : s.Sound) {copy : ℕ} {parent : AgentRun} (hparent : s.held[copy]? = some parent)
    (package : DelegatedTaskPackage) : LedgerEffect s (.spawn copy package)
      (s.after package.childRunId ((spawnChildFromPackage parent package ([], [])).exec s.db).2) := by
  suffices h : wp (spawnChildFromPackage parent package ([], [])) (fun _ db =>
      LedgerEffect s (.spawn copy package) (s.after package.childRunId db)) s.db from h
  refine wp_mono (spawnChildFromPackage_effect parent package ([], [])) ?_
  rintro - db (rfl | ⟨⟨stored, hstored, hown⟩, hnew, hdb⟩)
  · exact .idle rfl rfl (grown_same rfl)
  · have hnew' : s.books.runs package.childRunId = none := by
      simp only [Ledger.books, Store.books, hnew, map_none]
    have hbooks := (congrArg Store.books hdb).trans (books_putRun s.db.toStore (buildChildRun package parent))
    refine .started hnew' ?_ ⟨rfl, rfl⟩ (fun hseeds => hseeds parent hparent) hbooks rfl
      (grown_started hnew' (congrArg runs hbooks))
    have hown' := hs.owners stored.agentRunId stored.account (books_runs (s.db.runs.get_key hstored))
    rwa [AgentRun.account, hown] at hown'

lemma fold_effect {request : ToolRequest} {outcome : ToolOutcome} (hrows : s.rows me = some (run, investigation))
    (hcall : s.db.toolCalls.get request.toolCallId = some toolCall) (hown : toolCall.agentRunId = me)
    (hreported : outcome.status.reported = true) (now : Time) : LedgerEffect s (.fold me request outcome now)
      (s.after me (s.onRows ((foldToolOutcome run investigation request outcome now).exec s.db.toStore).2)) := by
  obtain ⟨hid, hrun, hinv⟩ := rows_stored hrows
  have hkey : investigation.investigationId = run.investigationId := s.db.investigations.keyed _ _ hinv
  have hown' : toolCall.agentRunId = run.agentRunId := hown.trans hid.symm
  have heffect := foldToolOutcome_effect hrun (s.db.investigations.get_key hinv) hcall hown' hreported now
  change FoldEffect _ _ _ _ _ (((foldToolOutcome run investigation request outcome now).exec s.db.toStore).2).books
    at heffect
  generalize ((foldToolOutcome run investigation request outcome now).exec s.db.toStore).2 = store at heffect ⊢
  cases heffect with
  | unbooked h => exact .idle h rfl (grown_same (congrArg runs h))
  | refused hexecuted hfirst hrefused h =>
    have hruns : store.books.runs = s.books.runs := (congrArg runs h).trans rfl
    refine .executed (fun hcounted => ?_) h rfl (grown_same hruns)
    have haccepts := hcounted hexecuted _ hrows
    rw [hrefused] at haccepts
    cases haccepts
  | booked hfirst happend h =>
    subst hid
    have hbooked := booked_fold (b := s.books.execute request.toolCallId run.agentRunId) (books_runs hrun)
      (hkey ▸ books_investigations (s.db.investigations.get_key hinv)) hkey happend
    rw [← h] at hbooked
    have hplain : s.books.Booked store.books run.agentRunId run.account investigation.account _ 1 :=
      ⟨hbooked.run, hbooked.investigation, hbooked.after⟩
    exact .booked hplain (fun _ => (account_append happend).2.2)
      (.inr ⟨_, rfl, hfirst, congrArg calls h⟩) rfl (grown_booked hplain)

lemma land_effect {toolCallId : String}
    {outcome : ToolOutcome} (hrows : s.rows toolCall.agentRunId = some (run, investigation))
    (hcall : s.db.toolCalls.get toolCallId = some toolCall) (hreported : outcome.status.reported = true) :
    LedgerEffect s (.land toolCallId outcome)
      (s.after toolCall.agentRunId (s.onRows ((landApproval toolCallId outcome).exec s.db.toStore).2)) := by
  obtain ⟨hid, hrun, hinv⟩ := rows_stored hrows
  have hkey : investigation.investigationId = run.investigationId := s.db.investigations.keyed _ _ hinv
  obtain rfl : toolCall.toolCallId = toolCallId := s.db.toolCalls.keyed _ _ hcall
  have heffect := landApproval_effect hcall (hid ▸ hrun) hinv hreported
  change LandEffect _ _ _ _ _ (((landApproval toolCall.toolCallId outcome).exec s.db.toStore).2).books at heffect
  generalize ((landApproval toolCall.toolCallId outcome).exec s.db.toStore).2 = store at heffect ⊢
  cases heffect with
  | unbooked h => exact .idle h rfl (grown_same (congrArg runs h))
  | skipped hfirst hskipped h =>
    have hruns : store.books.runs = s.books.runs := (congrArg runs h).trans rfl
    refine .executed (fun hcounted => ?_) h rfl (grown_same hruns)
    have hbooks := hcounted _ _ hcall hrows
    rw [hskipped] at hbooks
    cases hbooks
  | booked hfirst hfits h =>
    rw [← hid]
    have hbooked := booked_land (b := s.books.execute toolCall.toolCallId run.agentRunId) (books_runs hrun)
      (hkey ▸ books_investigations (s.db.investigations.get_key hinv)) hkey hfits
    rw [← h] at hbooked
    have hplain : s.books.Booked store.books run.agentRunId run.account investigation.account _ 1 :=
      ⟨hbooked.run, hbooked.investigation, hbooked.after⟩
    exact .booked hplain (fun hbudgeted _ => hbudgeted _ _ hcall hrows hfits)
      (.inr ⟨_, rfl, hfirst, congrArg calls h⟩) rfl (grown_booked hplain)

lemma deliver_effect (hrows : s.rows me = some (run, investigation)) (receipt : ChildReportReceipt) (now : Time) :
    LedgerEffect s (.deliver me receipt now) (s.after me ((deliverReceipt me now receipt).exec s.db).2) := by
  obtain ⟨rfl, hrun, hinv⟩ := rows_stored hrows
  have hkey : investigation.investigationId = run.investigationId := s.db.investigations.keyed _ _ hinv
  suffices h : wp (deliverReceipt run.agentRunId now receipt) (fun _ db =>
      LedgerEffect s (.deliver run.agentRunId receipt now) (s.after run.agentRunId db)) s.db from h
  refine wp_mono (deliverReceipt_effect hrun hinv now receipt) ?_
  rintro - db (h | ⟨refs, run', n, happend, h⟩)
  · exact .idle h rfl (grown_same (congrArg runs h))
  · have hbooked := booked_append (b := s.books) (books_runs hrun)
      (hkey ▸ books_investigations (s.db.investigations.get_key hinv)) hkey happend
    rw [← h] at hbooked
    have hcalls : db.toStore.books.calls = s.books.calls := (congrArg calls h).trans rfl
    exact .booked hbooked (fun _ => (account_append happend).2.2) (.inl ⟨rfl, hcalls⟩) rfl
      (grown_booked hbooked)

lemma writeRun_effect {held run : AgentRun} (hheld : held ∈ s.held)
    (hid : run.agentRunId = held.agentRunId) (haccount : run.account = held.account) (copy : ℕ) :
    LedgerEffect s (.writeRun copy run) (s.with (s.onRows ((updateAgentRun run).exec s.db.toStore).2)) := by
  suffices h : wp (updateAgentRun run) (fun _ store =>
      LedgerEffect s (.writeRun copy run) (s.with (s.onRows store))) s.db.toStore from h
  simp only [updateAgentRun, wp_bind, wp_get]
  cases hstored : s.db.runs.get run.agentRunId with
  | none => exact .idle rfl rfl rfl
  | some stored =>
    by_cases hstatus : stored.status = run.status
    · simp only [hstatus, if_true]
      have hrow : s.books.runs held.agentRunId = some stored.account := by
        simp only [Ledger.books, Store.books, ← hid, hstored, map_some]
      refine .rewritten hheld hrow (fun hcurrent => ?_) ?_ rfl rfl
      · rw [← haccount]
        exact hcurrent stored hstored
      · refine (books_putRun s.db.toStore run).trans ?_
        rw [hid, haccount]
    · simp only [hstatus, if_false]
      exact .idle rfl rfl rfl

lemma writeInvestigation_effect {stored investigation : Investigation}
    (hstored : s.db.investigations.get investigation.investigationId = some stored)
    (haccount : investigation.account = stored.account) : LedgerEffect s (.writeInvestigation investigation)
      (s.with (s.onRows ((updateInvestigation investigation).exec s.db.toStore).2)) := by
  suffices h : wp (updateInvestigation investigation) (fun _ store =>
      LedgerEffect s (.writeInvestigation investigation) (s.with (s.onRows store))) s.db.toStore from h
  simp only [updateInvestigation, wp_bind, wp_get, hstored]
  by_cases hstatus : stored.status = investigation.status
  · simp only [hstatus, if_true]
    exact .idle (unbooked_putInvestigation hstored haccount) rfl rfl
  · simp only [hstatus, if_false]
    exact .idle rfl rfl rfl

lemma createCall_effect (hplanned : toolCall.status = .planned) :
    LedgerEffect s (.createCall toolCall) (s.with (s.onRows ((createToolCall toolCall).exec s.db.toStore).2)) := by
  suffices h : wp (createToolCall toolCall) (fun _ store =>
      LedgerEffect s (.createCall toolCall) (s.with (s.onRows store))) s.db.toStore from h
  simp only [createToolCall, wp_bind, wp_get]
  cases hnew : s.db.toolCalls.get toolCall.toolCallId with
  | some _ => exact .idle rfl rfl rfl
  | none =>
    refine .idle (unbooked_putToolCall ?_) rfl rfl
    rw [ToolCall.executedBy, hplanned]
    simp only [Store.books, hnew, bind_none]
    rfl

lemma moveCall_effect (toolCallId : String) (target : ToolCallStatus) (errorRedacted : Option String) :
    LedgerEffect s (.moveCall toolCallId target errorRedacted)
      (s.with (s.onRows ((transitionToolCallStatus toolCallId target fun toolCall =>
        { toolCall with errorRedacted := errorRedacted.orElse fun _ => toolCall.errorRedacted }).exec
          s.db.toStore).2)) := by
  suffices h : wp (transitionToolCallStatus toolCallId target fun toolCall =>
      { toolCall with errorRedacted := errorRedacted.orElse fun _ => toolCall.errorRedacted }) (fun _ store =>
        LedgerEffect s (.moveCall toolCallId target errorRedacted) (s.with (s.onRows store))) s.db.toStore from h
  cases hcall : s.db.toolCalls.get toolCallId with
  | none =>
    simp only [transitionToolCallStatus, getToolCall, wp_bind, wp_get, hcall]
    exact .idle rfl rfl rfl
  | some toolCall =>
    obtain rfl : toolCall.toolCallId = toolCallId := s.db.toolCalls.keyed _ _ hcall
    refine wp_mono (transitionToolCallStatus_books hcall target rfl) ?_
    rintro r store ⟨-, -, ⟨e, rfl, rfl⟩ | ⟨rfl, -, hmoved⟩⟩
    · exact .idle rfl rfl rfl
    · by_cases htarget : target.executed = true
      · rw [if_pos htarget] at hmoved
        refine .executed (fun hcounted => ?_) hmoved rfl rfl
        have hopen : target.executed = false := hcounted
        rw [htarget] at hopen
        cases hopen
      · rw [if_neg htarget] at hmoved
        exact .idle hmoved rfl rfl

lemma step_effect {move : LedgerMove} (hs : s.Sound) (hstep : s.step move = some t) : LedgerEffect s move t := by
  cases move with
  | createInvestigation investigation =>
    simp only [Ledger.step] at hstep
    split_ifs at hstep with husage
    cases hstep
    exact createInvestigation_effect husage
  | createParent investigationId agentRunId budget =>
    obtain ⟨investigation, hinv, hstep⟩ := map_eq_some_iff.mp hstep
    cases hstep
    exact createParent_effect hinv
  | spawn copy package =>
    obtain ⟨parent, hparent, hstep⟩ := map_eq_some_iff.mp hstep
    cases hstep
    exact spawn_effect hs hparent package
  | fold agentRunId request outcome now =>
    obtain ⟨⟨run, investigation⟩, hrows, hstep⟩ := bind_eq_some_iff.mp hstep
    obtain ⟨toolCall, hcall, hstep⟩ := bind_eq_some_iff.mp hstep
    split_ifs at hstep with hguard
    cases hstep
    exact fold_effect hrows hcall hguard.1 hguard.2 now
  | land toolCallId outcome =>
    obtain ⟨toolCall, hcall, hstep⟩ := bind_eq_some_iff.mp hstep
    obtain ⟨⟨run, investigation⟩, hrows, hstep⟩ := bind_eq_some_iff.mp hstep
    split_ifs at hstep with hguard
    cases hstep
    exact land_effect hrows hcall hguard
  | deliver agentRunId receipt now =>
    obtain ⟨⟨run, investigation⟩, hrows, hstep⟩ := map_eq_some_iff.mp hstep
    cases hstep
    exact deliver_effect hrows receipt now
  | hold agentRunId =>
    obtain ⟨run, hrun, hstep⟩ := map_eq_some_iff.mp hstep
    cases hstep
    exact .copied rfl (books_runs (s.db.runs.get_key hrun)) rfl rfl
  | writeRun copy run =>
    obtain ⟨held, hheld, hstep⟩ := bind_eq_some_iff.mp hstep
    split_ifs at hstep with hguard
    cases hstep
    exact writeRun_effect (List.mem_of_getElem? hheld) hguard.1 hguard.2 copy
  | writeInvestigation investigation =>
    obtain ⟨stored, hstored, hstep⟩ := bind_eq_some_iff.mp hstep
    split_ifs at hstep with haccount
    cases hstep
    exact writeInvestigation_effect hstored haccount
  | moveRun agentRunId target stopReason now =>
    cases hstep
    exact .idle (transitionAgentRunStatus_unbooked agentRunId target now stopReason s.db.toStore) rfl rfl
  | moveInvestigation investigationId target stopReason now =>
    cases hstep
    exact .idle (transitionInvestigationStatus_unbooked investigationId target now stopReason s.db.toStore) rfl rfl
  | createCall toolCall =>
    simp only [Ledger.step] at hstep
    split_ifs at hstep with hplanned
    cases hstep
    exact createCall_effect hplanned
  | moveCall toolCallId target errorRedacted =>
    cases hstep
    exact moveCall_effect toolCallId target errorRedacted
  | aside db =>
    cases hstep
    exact .idle rfl rfl rfl

/-! ### Runs and their investigations -/

lemma Ledger.Sound.step {move : LedgerMove} (hs : s.Sound) (hstep : s.step move = some t) : t.Sound := by
  cases step_effect hs hstep with
  | idle books held =>
    refine ⟨?_, ?_⟩
    · rw [books]
      exact hs.owners
    · rw [books, held]
      exact hs.copies
  | copied books stored held =>
    refine ⟨?_, ?_⟩
    · rw [books]
      exact hs.owners
    · intro r hr
      rw [held] at hr
      rw [books]
      rcases List.mem_append.mp hr with hr | hr
      · exact hs.copies r hr
      · cases List.mem_singleton.mp hr
        exact ⟨_, stored, rfl, rfl⟩
  | investigated new books held =>
    refine ⟨?_, ?_⟩
    · intro id a ha
      rw [books] at ha ⊢
      simp only [update_apply]
      split_ifs with hid
      · exact some_ne_none _
      · exact hs.owners id a ha
    · rw [books, held]
      exact hs.copies
  | @started id a new owner unused seeds books held =>
    refine ⟨?_, ?_⟩
    · intro id' a' ha'
      rw [books] at ha' ⊢
      simp only [update_apply] at ha'
      split_ifs at ha' with hid
      · cases ha'
        exact owner
      · exact hs.owners id' a' ha'
    · intro r hr
      rw [held] at hr
      obtain ⟨a', ha', hsame⟩ := hs.copies r hr
      refine ⟨a', ?_, hsame⟩
      rw [books]
      simp only [update_apply]
      rw [if_neg, ha']
      rintro rfl
      rw [new] at ha'
      cases ha'
  | @rewritten r a copy stored current books held =>
    obtain ⟨a', ha', hown, hmax⟩ := hs.copies r copy
    obtain rfl := some.inj (ha'.symm.trans stored)
    refine ⟨?_, ?_⟩
    · intro id b hb
      rw [books] at hb ⊢
      simp only [update_apply] at hb
      split_ifs at hb with hid
      · cases hb
        have hstored := hs.owners _ _ stored
        rwa [hown] at hstored
      · exact hs.owners id b hb
    · intro r' hr'
      rw [held] at hr'
      obtain ⟨b, hb, hown', hmax'⟩ := hs.copies r' hr'
      rw [books]
      simp only [update_apply]
      split_ifs with hid
      · rw [hid] at hb
        obtain rfl := some.inj (hb.symm.trans stored)
        exact ⟨_, rfl, hown.symm.trans hown', hmax.symm.trans hmax'⟩
      · exact ⟨b, hb, hown', hmax'⟩
  | executed uncounted books held =>
    refine ⟨?_, ?_⟩
    · rw [books]
      exact hs.owners
    · rw [books, held]
      exact hs.copies
  | @booked me a i n calls booked fits tolls held =>
    obtain ⟨hrun, hinv, a', i', ha', hi', hruns, hinvs⟩ := booked
    refine ⟨?_, ?_⟩
    · intro id b hb
      rw [hruns, update_apply] at hb
      rw [hinvs, update_apply]
      split_ifs with hown
      · exact some_ne_none _
      · split_ifs at hb with hid
        · cases hb
          exact absurd ha'.owner hown
        · exact hs.owners id b hb
    · intro r hr
      rw [held] at hr
      obtain ⟨b, hb, hown, hmax⟩ := hs.copies r hr
      rw [hruns, update_apply]
      split_ifs with hid
      · rw [hid] at hb
        obtain rfl := some.inj (hb.symm.trans hrun)
        exact ⟨a', rfl, ha'.owner.trans hown, ha'.maxEvidence.trans hmax⟩
      · exact ⟨b, hb, hown, hmax⟩

end

/-- The ledger from a database without investigations, runs and tool calls. -/
def ledger : System Ledger LedgerMove := ⟨⟨{}, [], fun _ => 0⟩, Ledger.step⟩

lemma ledger_sound {good : Ledger → LedgerMove → Prop} {s : Ledger} (hs : ledger.Reached good s) : s.Sound := by
  refine hs.invariant ?_ fun _ _ _ hsound _ hstep => hsound.step hstep
  constructor
  · rintro id a ⟨⟩
  · rintro r ⟨⟩

end IncidentLens.Investigations
