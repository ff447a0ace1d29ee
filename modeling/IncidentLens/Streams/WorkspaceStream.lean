import IncidentLens.Streams.CliStream

/-!
# The workspace event stream

A subscriber names the last event it has seen. The stored events up to the last one are scanned
from the start, and those behind the named one are told as invalidations of resources; then come
the events of the queue, above a mark that moves with them.
-/
namespace IncidentLens.Streams
open Data Effects Events List

inductive WorkspaceResourceKind
  | overview | target | service | issue | investigation | evidence
  deriving DecidableEq

structure WorkspaceResourceChanged where
  eventId : String
  occurredAt : String
  resourceKind : WorkspaceResourceKind
  resourceId : Option String := none
  targetId : Option String := none
  serviceId : Option String := none
  deriving DecidableEq

def overviewEvents : List RuntimeEventType :=
  [.projectCreated, .projectUpdated, .projectDeleted, .approvalRequested, .approvalApproved, .approvalRejected,
    .approvalConsumed, .changesetCreated, .changesetStatusChanged, .changesetRolledBack, .operationQueued,
    .operationRunning, .operationCancelRequested, .operationSucceeded, .operationFailed, .operationCancelled,
    .operationUncertain, .recoveryStarted, .recoveryCompleted]

def investigationEvents : List RuntimeEventType :=
  [.investigationCreated, .investigationStarted, .investigationStatusChanged, .investigationCompleted,
    .investigationCancelled, .investigationFailed, .conclusionCreated, .registryProposalCreated,
    .registryProposalDecided]

def serviceEvents : List RuntimeEventType :=
  [.logSubscriptionStarted, .logSubscriptionPaused, .logSubscriptionResumed, .logSubscriptionDeleted,
    .logSubscriptionError, .logSourceRotated, .logBackpressure, .dockerActionRequested, .dockerActionStarted,
    .dockerActionCompleted, .dockerActionFailed]

def evidenceEvents : List RuntimeEventType := [.evidenceAppended]

/-- `_string(payload.get(key))`. -/
def nonemptyString (payload : Dict String Json) (key : String) : Option String :=
  (payloadString payload key).filter (· ≠ "")

def invalidationFor (event : RuntimeEvent) : Option WorkspaceResourceChanged :=
  let targetId := nonemptyString event.payload "target_id"
  if event.eventType ∈ overviewEvents then
    some { eventId := event.eventId, occurredAt := event.occurredAt, resourceKind := .overview, targetId := targetId }
  else if event.eventType ∈ investigationEvents then
    some
      { eventId := event.eventId
        occurredAt := event.occurredAt
        resourceKind := .investigation
        resourceId := nonemptyString event.payload "investigation_id"
        targetId := targetId }
  else if event.eventType ∈ serviceEvents then
    let serviceId := (nonemptyString event.payload "service_name").or (nonemptyString event.payload "service")
    some
      { eventId := event.eventId
        occurredAt := event.occurredAt
        resourceKind := .service
        resourceId := serviceId
        targetId := targetId
        serviceId := serviceId }
  else if event.eventType ∈ evidenceEvents then
    some
      { eventId := event.eventId
        occurredAt := event.occurredAt
        resourceKind := .evidence
        resourceId := (nonemptyString event.payload "evidence_ref_id").or
          (nonemptyString event.payload "investigation_id")
        targetId := targetId }
  else none

structure WorkspaceConnection where
  afterEventId : Option String
  targetId : Option String := none
  allowedTargetIds : Option (List String) := none
  queueSize : ℕ := 100

/-- `_page_filters`. -/
def WorkspaceConnection.pageFilters (c : WorkspaceConnection) : PageFilter :=
  { targetId := c.targetId, allowedTargetIds := c.allowedTargetIds }

/-- `_allowed`. -/
def WorkspaceConnection.allowed (c : WorkspaceConnection) (event : RuntimeEvent) : Bool :=
  let itemTarget := nonemptyString event.payload "target_id"
  if c.targetId.isSome && itemTarget ≠ c.targetId then false
  else match c.allowedTargetIds with
    | none => true
    | some ids => if ids = [] then false else itemTarget.all ids.contains

open WorkspaceConnection

inductive WorkspaceFrame
  | changed (invalidation : WorkspaceResourceChanged)
  | gap (afterEventId : String)
  | heartbeat
  deriving DecidableEq

inductive WorkspacePhase
  | connecting
  /-- The events of a page are being looked at; `next` is where the page after it begins, and
  `searching` names the event that is still to be found. -/
  | replaying (highWater : ℕ) (searching : Option String) (page : List RuntimeEvent) (next : Option ℕ)
  | listening (highWater : ℕ)
  | closed

/-- A stream with the store and the broker around it; `pending` holds the appended events that
are still to be published. -/
structure WorkspaceStream where
  table : EventTable
  pending : List RuntimeEvent := []
  queue : List RuntimeEvent := []
  dropped : ℕ := 0
  phase : WorkspacePhase := .connecting
  frames : List WorkspaceFrame := []

inductive WorkspaceMove
  | append (event : RuntimeEvent)
  | publish (index : ℕ)
  | subscribe
  | replay
  | take
  | idle
  | disconnect

namespace WorkspaceStream

def send (s : WorkspaceStream) (frame : WorkspaceFrame) : WorkspaceStream := { s with frames := s.frames ++ [frame] }

/-- `publish`: a full queue loses its oldest event. -/
def publish (c : WorkspaceConnection) (s : WorkspaceStream) (event : RuntimeEvent) : WorkspaceStream :=
  match s.phase with
  | .replaying .. | .listening _ =>
    if 0 < c.queueSize ∧ c.queueSize ≤ s.queue.length then { s with queue := s.queue.tail ++ [event], dropped := s.dropped + 1 }
    else { s with queue := s.queue ++ [event] }
  | _ => s

def readPage (c : WorkspaceConnection) (s : WorkspaceStream) (highWater : ℕ) (searching : Option String) (cursor : ℕ) :
    WorkspaceStream :=
  match listPage s.table c.pageFilters cursor replayPageSize with
  | .error _ => { s with phase := .closed }
  | .ok page =>
    let next := if page.hasMore && !page.items.isEmpty && page.items.getLast?.any (·.sequence < highWater) then
      some page.nextAfterSequence else none
    { s with phase := .replaying highWater searching page.items next }

def subscribe (c : WorkspaceConnection) (s : WorkspaceStream) : WorkspaceStream :=
  s.readPage c (latestSequence s.table) c.afterEventId 0

/-- The scan is over. -/
def finish (s : WorkspaceStream) (highWater : ℕ) (searching : Option String) : WorkspaceStream :=
  match searching with
  | some id => { s.send (.gap id) with phase := .closed }
  | none => { s with phase := .listening highWater }

/-- An event of a page that is not above the mark. -/
def scan (s : WorkspaceStream) (highWater : ℕ) (searching : Option String) (page : List RuntimeEvent) (next : Option ℕ)
    (event : RuntimeEvent) : WorkspaceStream :=
  match searching with
  | some id =>
    { s with phase := .replaying highWater (if event.eventId = id then none else some id) page next }
  | none =>
    let s := { s with phase := .replaying highWater none page next }
    match invalidationFor event with
    | none => s
    | some invalidation => s.send (.changed invalidation)

/-- An event above the mark ends the scan: the page reaches it, so none follows. -/
def replay (c : WorkspaceConnection) (s : WorkspaceStream) (highWater : ℕ) (searching : Option String)
    (page : List RuntimeEvent) (next : Option ℕ) : WorkspaceStream :=
  match page, next with
  | event :: page, next =>
    if highWater < event.sequence then s.finish highWater searching
    else s.scan highWater searching page next event
  | [], some cursor => s.readPage c highWater searching cursor
  | [], none => s.finish highWater searching

/-- An event of the queue. -/
def handle (c : WorkspaceConnection) (s : WorkspaceStream) (highWater : ℕ) (event : RuntimeEvent) : WorkspaceStream :=
  if s.dropped ≠ 0 then { s with phase := .closed }
  else if event.sequence ≤ highWater then s
  else if !c.allowed event then s
  else match invalidationFor event with
    | none => s
    | some invalidation => { s.send (.changed invalidation) with phase := .listening event.sequence }

def step (c : WorkspaceConnection) (s : WorkspaceStream) (move : WorkspaceMove) : Option WorkspaceStream :=
  match s.phase, move with
  | .closed, _ => none
  | _, .append event => match append s.table event with
    | .ok (stored, table) => some { s with table := table, pending := s.pending ++ [stored] }
    | .error _ => none
  | _, .publish index => (s.pending[index]?).map fun event =>
      { s with pending := s.pending.eraseIdx index }.publish c event
  | .connecting, .subscribe => some (s.subscribe c)
  | .replaying highWater searching page next, .replay => some (s.replay c highWater searching page next)
  | .listening highWater, .take => match s.queue with
    | event :: queue => some ({ s with queue := queue }.handle c highWater event)
    | [] => none
  | .listening _, .idle =>
    if s.queue = [] then some (if s.dropped ≠ 0 then { s with phase := .closed } else s.send .heartbeat) else none
  | _, .disconnect => some { s with phase := .closed }
  | _, _ => none

end WorkspaceStream

/-- A stream is opened over a store. -/
def workspaceEvents (c : WorkspaceConnection) (table : EventTable) : System WorkspaceStream WorkspaceMove :=
  ⟨{ table := table }, WorkspaceStream.step c⟩

/-! ### What a subscriber is owed -/

def WorkspaceFrame.changed? : WorkspaceFrame → Option WorkspaceResourceChanged
  | .changed invalidation => some invalidation
  | _ => none

/-- The rows that are told: the store selects them and they invalidate a resource. -/
def WorkspaceConnection.passes (c : WorkspaceConnection) (row : EventRow) : Bool :=
  c.pageFilters.selects row && (invalidationFor (eventFromRow row)).isSome

/-- The sequence of the last event that was seen, counted from 1; `none` if the subscriber cannot see
such an event. -/
def WorkspaceConnection.start (c : WorkspaceConnection) (rows : List EventRow) : Option ℕ :=
  match c.afterEventId with
  | none => some 0
  | some id => (rows.find? fun row => (0 < row.sequence && c.pageFilters.selects row) && row.eventId = id).map (·.sequence)

def told (events : List RuntimeEvent) : List WorkspaceResourceChanged := events.filterMap invalidationFor

namespace WorkspaceStream

def sent (s : WorkspaceStream) : List WorkspaceResourceChanged := s.frames.filterMap WorkspaceFrame.changed?

/-- The stored invalidations above the start, in the order of their sequences. -/
def wanted (c : WorkspaceConnection) (s : WorkspaceStream) : List WorkspaceResourceChanged :=
  match c.start s.table.rows with
  | none => []
  | some start => told ((behind EventRow.sequence c.passes start s.table.rows).map eventFromRow)

/-- Nothing is left to be sent, and the stream has not closed. -/
def Settled (s : WorkspaceStream) : Prop := (∃ highWater, s.phase = .listening highWater) ∧ s.queue = [] ∧ s.pending = []

def Gapped (s : WorkspaceStream) : Prop := ∃ id, .gap id ∈ s.frames

/-- The wanted invalidations are sent in their order, once each and none skipped, all of them in
the end; and a gap closes the stream. -/
structure Delivers (c : WorkspaceConnection) (s : WorkspaceStream) : Prop where
  ordered : s.sent <+: s.wanted c
  complete : s.Settled → s.sent = s.wanted c
  gapped : s.Gapped → s.phase = .closed

def Ahead (c : WorkspaceConnection) (highWater : ℕ) (event : RuntimeEvent) : Prop :=
  highWater < event.sequence ∧ c.passes (rowOf event event.sequence) = true

end WorkspaceStream

/-- Invalidations are published in the order of their sequences, and the stream reads the target of
an event of the queue as the store does. -/
def InOrder (c : WorkspaceConnection) (s : WorkspaceStream) : WorkspaceMove → Prop
  | .publish index => ∀ highWater, (s.phase = .listening highWater ∨
      ∃ searching page next, s.phase = .replaying highWater searching page next) →
      ∀ event, s.pending[index]? = some event → WorkspaceStream.Ahead c highWater event →
        ∀ earlier ∈ s.pending.take index, ¬ WorkspaceStream.Ahead c highWater earlier
  | .take => ∀ highWater event, s.phase = .listening highWater → s.queue.head? = some event → s.dropped = 0 →
      highWater < event.sequence → c.allowed event = c.pageFilters.selects (rowOf event event.sequence)
  | _ => True

/-! ### The parts of what is wanted -/

section Parts
variable {c : WorkspaceConnection} {rows : List EventRow}

lemma allowed_eq_selects {event : RuntimeEvent} (h : payloadString event.payload "target_id" ≠ some "") (n : ℕ) :
    c.allowed event = c.pageFilters.selects (rowOf event n) := by
  have hsame : nonemptyString event.payload "target_id" = payloadString event.payload "target_id" := by
    unfold nonemptyString
    cases hp : payloadString event.payload "target_id" with
    | none => rfl
    | some target =>
      rw [hp] at h
      simpa using h
  have hselects : c.pageFilters.selects (rowOf event n) =
      (c.targetId.all (equals (payloadString event.payload "target_id")) &&
        admitsTarget c.allowedTargetIds (payloadString event.payload "target_id")) := by
    simp [PageFilter.selects, WorkspaceConnection.pageFilters, rowOf]
  rw [hselects, WorkspaceConnection.allowed, hsame]
  cases c.targetId with
  | none => cases hids : c.allowedTargetIds <;> simp [admitsTarget]
  | some target =>
    by_cases htarget : payloadString event.payload "target_id" = some target
    · cases hids : c.allowedTargetIds <;> simp [htarget, equals, admitsTarget]
    · simp [htarget, equals]

lemma told_append (events later : List RuntimeEvent) : told (events ++ later) = told events ++ told later :=
  filterMap_append

lemma told_filter (p : EventRow → Bool) : told ((rows.filter p).map eventFromRow) =
    rows.filterMap fun row => if p row then invalidationFor (eventFromRow row) else none := by
  rw [told, filterMap_map, filterMap_filter]
  rfl

lemma told_selected (p : EventRow → Bool) : told ((rows.filter fun row => p row && c.passes row).map eventFromRow) =
      told ((rows.filter fun row => p row && c.pageFilters.selects row).map eventFromRow) := by
  rw [told_filter, told_filter]
  refine filterMap_congr fun row _ => ?_
  cases hnone : invalidationFor (eventFromRow row) with
  | none => simp
  | some invalidation => simp [WorkspaceConnection.passes, hnone]

end Parts

namespace WorkspaceStream
section
variable {c : WorkspaceConnection} {s : WorkspaceStream} {snapshot highWater start : ℕ}

/-- What the store selects behind a position, up to the mark. -/
def owed (c : WorkspaceConnection) (s : WorkspaceStream) (cursor highWater : ℕ) : List RuntimeEvent :=
  (between EventRow.sequence c.pageFilters.selects cursor highWater s.table.rows).map eventFromRow

/-- What is told from the queue. -/
def live (c : WorkspaceConnection) (s : WorkspaceStream) (snapshot : ℕ) : List RuntimeEvent :=
  (behind EventRow.sequence c.passes snapshot s.table.rows).map eventFromRow

/-- The events of a list that belong to these. -/
def relevant (c : WorkspaceConnection) (snapshot : ℕ) (events : List RuntimeEvent) : List RuntimeEvent :=
  events.filter fun event => snapshot < event.sequence && c.passes (rowOf event event.sequence)

lemma wanted_eq (hstart : c.start s.table.rows = some start) (hle : start ≤ snapshot) :
    s.wanted c = told (s.owed c start snapshot) ++ told (s.live c snapshot) := by
  have hcut := Increasing.between_append_behind s.table.increasing c.passes start snapshot
  rw [Nat.max_eq_right hle] at hcut
  have howed : told (s.owed c start snapshot) =
      told ((between EventRow.sequence c.passes start snapshot s.table.rows).map eventFromRow) := by
    have hselected := @told_selected c s.table.rows fun row => start < row.sequence && row.sequence ≤ snapshot
    have hfilter : ∀ q : EventRow → Bool, between EventRow.sequence q start snapshot s.table.rows =
        s.table.rows.filter fun row => (start < row.sequence && row.sequence ≤ snapshot) && q row := by
      intro q
      refine filter_congr fun row _ => ?_
      rw [Bool.and_assoc, Bool.and_assoc, Bool.and_comm (q row)]
    rw [owed, hfilter, hfilter, hselected]
  rw [wanted, hstart, howed, live, ← told_append, ← map_append, hcut]

variable {event : RuntimeEvent} {events : List RuntimeEvent} {index : ℕ} {cursor : ℕ} {taken : List RuntimeEvent}
  {searching : Option String} {t : WorkspaceStream} {page : List RuntimeEvent} {next : Option ℕ}

lemma mem_relevant : event ∈ relevant c snapshot events ↔ event ∈ events ∧ Ahead c snapshot event := by
  simp [relevant, Ahead, mem_filter]

lemma relevant_cons_of_ahead (h : Ahead c snapshot event) :
    relevant c snapshot (event :: events) = event :: relevant c snapshot events := by
  refine filter_cons_of_pos ?_
  simp only [Bool.and_eq_true, decide_eq_true_eq]
  exact h

lemma relevant_eq_nil (h : ∀ event ∈ events, ¬ Ahead c snapshot event) : relevant c snapshot events = [] := by
  refine eq_nil_iff_forall_not_mem.mpr fun event hevent => ?_
  obtain ⟨hmem, hahead⟩ := mem_relevant.mp hevent
  exact h event hmem hahead

lemma relevant_cons_of_not (h : ¬ Ahead c snapshot event) :
    relevant c snapshot (event :: events) = relevant c snapshot events :=
  filter_cons_of_neg fun hrelevant => h (by simpa [Ahead] using hrelevant)

/-! ### Appending an event -/

def grow (s : WorkspaceStream) (event : RuntimeEvent) : WorkspaceStream :=
  { s with
    table := s.table.insert event
    pending := s.pending ++ [{ event with sequence := s.table.assigned + 1 }] }

lemma start_grow {n : ℕ} (h : c.start s.table.rows = some n) (event : RuntimeEvent) :
    c.start (s.grow event).table.rows = some n := by
  unfold start at h ⊢
  cases hafter : c.afterEventId with
  | none =>
    rw [hafter] at h
    exact h
  | some id =>
    rw [hafter] at h
    obtain ⟨row, hrow, hn⟩ := Option.map_eq_some_iff.mp h
    refine Option.map_eq_some_iff.mpr ⟨row, ?_, hn⟩
    change (s.table.rows ++ _).find? _ = some row
    rw [find?_append, hrow, Option.some_or]

lemma owed_grow (hknown : highWater ≤ s.table.assigned) (event : RuntimeEvent) :
    (s.grow event).owed c cursor highWater = s.owed c cursor highWater :=
  owed_insert _ cursor hknown event

lemma live_grow (event : RuntimeEvent) : (s.grow event).live c snapshot =
    s.live c snapshot ++ relevant c snapshot [{ event with sequence := s.table.assigned + 1 }] :=
  live_insert _ _ event

lemma wanted_grow (event : RuntimeEvent) : s.wanted c <+: (s.grow event).wanted c := by
  cases hstart : c.start s.table.rows with
  | none =>
    have hnil : s.wanted c = [] := by rw [wanted, hstart]
    rw [hnil]
    exact nil_prefix
  | some start =>
    have hrows : (behind EventRow.sequence c.passes start s.table.rows).map eventFromRow <+:
        (behind EventRow.sequence c.passes start (s.grow event).table.rows).map eventFromRow :=
      ⟨_, (live_insert c.passes start event).symm⟩
    rw [wanted, hstart, wanted, start_grow hstart event]
    exact hrows.filterMap invalidationFor

/-! ### Pages -/

/-- What is still to be looked at of a page and of those behind it. -/
def upcoming (c : WorkspaceConnection) (s : WorkspaceStream) (highWater : ℕ) (page : List RuntimeEvent)
    (next : Option ℕ) : List RuntimeEvent :=
  page.filter (fun event => event.sequence ≤ highWater) ++ next.elim [] fun cursor => s.owed c cursor highWater

lemma owed_eq_nil (h : highWater ≤ cursor) : s.owed c cursor highWater = [] := by
  rw [owed, map_eq_nil_iff]
  refine filter_eq_nil_iff.mpr fun row _ hbetween => ?_
  simp only [Bool.and_eq_true, decide_eq_true_eq] at hbetween
  omega

lemma readPage_eq (highWater : ℕ) (searching : Option String) (cursor : ℕ) : ∃ page next,
    s.readPage c highWater searching cursor = { s with phase := .replaying highWater searching page next } ∧
      s.upcoming c highWater page next = s.owed c cursor highWater ∧ CliStream.Paged page next := by
  obtain ⟨page, hpage, hincreasing, more, hmore, hle, hlast, hbetween⟩ := listPage_between s.table c.pageFilters cursor
    highWater (show 1 ≤ replayPageSize ∧ replayPageSize ≤ 500 by decide)
  refine ⟨page.items, _, by rw [readPage, hpage], ?_⟩
  rw [hmore]
  cases more with
  | false => exact ⟨hbetween, hincreasing, nofun⟩
  | true =>
    obtain ⟨last, hend, hnext⟩ := hlast rfl
    rw [if_pos rfl, hnext] at hbetween
    rw [hend, hnext, Bool.true_and, Option.any_some]
    by_cases hbelow : last.sequence < highWater
    · rw [if_pos (decide_eq_true hbelow)]
      refine ⟨hbetween, hincreasing, ?_⟩
      rintro - ⟨⟩ event hevent
      rw [← hnext]
      exact hle rfl event hevent
    · rw [if_neg (by simpa using hbelow)]
      have hnone : (between EventRow.sequence c.pageFilters.selects last.sequence highWater s.table.rows).map
          eventFromRow = [] := owed_eq_nil (Nat.le_of_not_lt hbelow)
      rw [hnone] at hbetween
      exact ⟨hbetween, hincreasing, nofun⟩

/-! ### The invariant -/

/-- What was taken from the queue, what waits in it and what is still to be published are the
live events, as long as none was dropped. -/
structure Flowing (c : WorkspaceConnection) (s : WorkspaceStream) (snapshot : ℕ) (taken : List RuntimeEvent) : Prop where
  known : snapshot ≤ s.table.assigned
  within : s.dropped = 0 → taken ++ (relevant c snapshot s.queue ++ relevant c snapshot s.pending) = s.live c snapshot
  ordered : taken <+: s.live c snapshot
  overflow : s.dropped ≠ 0 → s.queue ≠ []

def Scanned (c : WorkspaceConnection) (s : WorkspaceStream) (highWater : ℕ) (rest : List RuntimeEvent) :
    Option String → Prop
  | some id => c.afterEventId = some id ∧ s.sent = [] ∧
      ∃ done, done ++ rest = s.owed c 0 highWater ∧ ∀ event ∈ done, event.eventId ≠ id
  | none => ∃ start, c.start s.table.rows = some start ∧ start ≤ highWater ∧
      s.sent ++ told rest = told (s.owed c start highWater)

/-- The mark is that of the scan, or of the last event that was sent. -/
structure Listening (c : WorkspaceConnection) (s : WorkspaceStream) (highWater snapshot start : ℕ)
    (taken : List RuntimeEvent) : Prop extends Flowing c s snapshot taken where
  starts : c.start s.table.rows = some start
  start_le : start ≤ snapshot
  told : s.sent = told (s.owed c start snapshot) ++ told taken
  snapshot_le : snapshot ≤ highWater
  mark : highWater = snapshot ∨ ∃ event ∈ taken, event.sequence = highWater

def InPhase (c : WorkspaceConnection) (s : WorkspaceStream) : WorkspacePhase → Prop
  | .connecting => s.frames = [] ∧ s.queue = [] ∧ s.dropped = 0 ∧ ∀ event ∈ s.pending, event.sequence ≤ latestSequence s.table
  | .replaying highWater searching page next => ¬ s.Gapped ∧ s.Flowing c highWater [] ∧ CliStream.Paged page next ∧
      s.Scanned c highWater (s.upcoming c highWater page next) searching
  | .listening highWater => ¬ s.Gapped ∧ ∃ snapshot start taken, s.Listening c highWater snapshot start taken
  | .closed => s.sent <+: s.wanted c

abbrev Sound (c : WorkspaceConnection) (s : WorkspaceStream) : Prop := s.InPhase c s.phase

lemma sent_send (frame : WorkspaceFrame) : (s.send frame).sent = s.sent ++ frame.changed?.toList := by
  cases frame <;> simp [sent, send, WorkspaceFrame.changed?]

lemma live_increasing : Increasing RuntimeEvent.sequence (s.live c snapshot) :=
  pairwise_map.mpr (Increasing.behind s.table.increasing)

lemma Listening.above (h : s.Listening c highWater snapshot start taken)
    (hdropped : s.dropped = 0) (hevent : event ∈ s.queue ∨ event ∈ s.pending)
    (hahead : Ahead c snapshot event) : highWater < event.sequence := by
  have hmem : event ∈ relevant c snapshot s.queue ++ relevant c snapshot s.pending := by
    refine mem_append.mpr (hevent.imp ?_ ?_)
    · exact fun hqueue => mem_relevant.mpr ⟨hqueue, hahead⟩
    · exact fun hpending => mem_relevant.mpr ⟨hpending, hahead⟩
  have hincreasing := @live_increasing c s snapshot
  rw [← h.within hdropped] at hincreasing
  rcases h.mark with hmark | ⟨last, hlast, hmark⟩
  · rw [hmark]
    exact hahead.1
  · rw [← hmark]
    exact (pairwise_append.mp hincreasing).2.2 last hlast event hmem

lemma Listening.ordered_told (h : s.Listening c highWater snapshot start taken) : s.sent <+: s.wanted c := by
  rw [h.told, wanted_eq h.starts h.start_le]
  exact (prefix_append_right_inj _).mpr (h.ordered.filterMap invalidationFor)

lemma Sound.ordered (h : s.Sound c) : s.sent <+: s.wanted c := by
  unfold Sound at h
  cases hs : s.phase with
  | connecting =>
    rw [hs] at h
    have hsent : s.sent = [] := by rw [sent, h.1, filterMap_nil]
    rw [hsent]
    exact nil_prefix
  | replaying highWater searching page next =>
    rw [hs] at h
    obtain ⟨-, -, -, hscanned⟩ := h
    cases searching with
    | some id =>
      rw [hscanned.2.1]
      exact nil_prefix
    | none =>
      obtain ⟨start, hstart, hle, hsent⟩ := hscanned
      rw [wanted_eq hstart hle, ← hsent, append_assoc]
      exact prefix_append _ _
  | listening highWater =>
    rw [hs] at h
    obtain ⟨-, snapshot, start, taken, hlistening⟩ := h
    exact hlistening.ordered_told
  | closed =>
    rw [hs] at h
    exact h

lemma Sound.complete (h : s.Sound c) (hsettled : s.Settled) : s.sent = s.wanted c := by
  obtain ⟨⟨highWater, hs⟩, hqueue, hpending⟩ := hsettled
  unfold Sound at h
  rw [hs] at h
  obtain ⟨-, snapshot, start, taken, hlistening⟩ := h
  have hdropped : s.dropped = 0 := by
    by_contra hdropped
    exact hlistening.overflow hdropped hqueue
  have htaken := hlistening.within hdropped
  rw [hqueue, hpending, show relevant c snapshot [] = [] from rfl, append_nil, append_nil] at htaken
  rw [hlistening.told, htaken, wanted_eq hlistening.starts hlistening.start_le]

lemma Sound.gapped (h : s.Sound c) (hgapped : s.Gapped) : s.phase = .closed := by
  unfold Sound at h
  cases hs : s.phase with
  | connecting =>
    rw [hs] at h
    obtain ⟨id, hid⟩ := hgapped
    rw [h.1] at hid
    cases hid
  | replaying highWater searching page next =>
    rw [hs] at h
    exact absurd hgapped h.1
  | listening highWater =>
    rw [hs] at h
    exact absurd hgapped h.1
  | closed => rfl

lemma Sound.delivers (h : s.Sound c) : s.Delivers c := ⟨h.ordered, h.complete, h.gapped⟩

lemma Sound.close (h : s.Sound c) : Sound c { s with phase := .closed } := h.ordered

/-! ### What the steps keep -/

lemma Flowing.grow (h : s.Flowing c snapshot taken) (event : RuntimeEvent) :
    (s.grow event).Flowing c snapshot taken where
  known := Nat.le_succ_of_le h.known
  within hdropped := by
    have hwithin := h.within hdropped
    have hpending : relevant c snapshot (s.grow event).pending = relevant c snapshot s.pending ++
        relevant c snapshot [{ event with sequence := s.table.assigned + 1 }] := filter_append _ _
    rw [live_grow, ← hwithin, hpending, append_assoc, append_assoc]
    rfl
  ordered := by
    rw [live_grow]
    exact h.ordered.trans (prefix_append _ _)
  overflow := h.overflow

lemma upcoming_grow (hknown : highWater ≤ s.table.assigned) (page : List RuntimeEvent) (next : Option ℕ)
    (event : RuntimeEvent) : (s.grow event).upcoming c highWater page next = s.upcoming c highWater page next := by
  cases next with
  | none => rfl
  | some cursor => simp [upcoming, owed_grow hknown event]

lemma Scanned.grow (hknown : highWater ≤ s.table.assigned) {rest : List RuntimeEvent}
    (h : s.Scanned c highWater rest searching) (event : RuntimeEvent) :
    (s.grow event).Scanned c highWater rest searching := by
  cases searching with
  | some id =>
    obtain ⟨hafter, hsent, done, hdone, hother⟩ := h
    exact ⟨hafter, hsent, done, hdone.trans (owed_grow hknown event).symm, hother⟩
  | none =>
    obtain ⟨start, hstart, hle, hsent⟩ := h
    exact ⟨start, start_grow hstart event, hle, hsent.trans (congrArg told (owed_grow hknown event).symm)⟩

lemma Sound.grow (h : s.Sound c) (event : RuntimeEvent) : (s.grow event).Sound c := by
  change (s.grow event).InPhase c s.phase
  unfold Sound at h
  cases hs : s.phase with
  | connecting =>
    rw [hs] at h
    obtain ⟨hframes, hqueue, hdropped, hpending⟩ := h
    refine ⟨hframes, hqueue, hdropped, fun e he => ?_⟩
    have hlatest : latestSequence (s.grow event).table = s.table.assigned + 1 := by
      simp [latestSequence, WorkspaceStream.grow, EventTable.insert, rowOf]
    rw [hlatest]
    rcases mem_append.mp he with he | he
    · have := hpending e he
      have := CliStream.latestSequence_le s.table
      omega
    · rw [mem_singleton.mp he]
  | replaying highWater searching page next =>
    rw [hs] at h
    obtain ⟨hgap, hflow, hpaged, hscanned⟩ := h
    refine ⟨hgap, hflow.grow event, hpaged, ?_⟩
    rw [upcoming_grow hflow.known]
    exact hscanned.grow hflow.known event
  | listening highWater =>
    rw [hs] at h
    obtain ⟨hgap, snapshot, start, taken, hl⟩ := h
    refine ⟨hgap, snapshot, start, taken, hl.toFlowing.grow event, start_grow hl.starts event, hl.start_le, ?_,
      hl.snapshot_le, hl.mark⟩
    rw [owed_grow hl.known]
    exact hl.told
  | closed =>
    rw [hs] at h
    exact h.trans (wanted_grow event)

lemma Flowing.publish (h : s.Flowing c snapshot taken) (hindex : s.pending[index]? = some event)
    (horder : s.dropped = 0 → Ahead c snapshot event → ∀ earlier ∈ s.pending.take index, ¬ Ahead c snapshot earlier)
    (ht : t = { s with pending := s.pending.eraseIdx index, queue := s.queue ++ [event] } ∨
      t = { s with pending := s.pending.eraseIdx index, queue := s.queue.tail ++ [event], dropped := s.dropped + 1 }) :
    t.Flowing c snapshot taken := by
  rcases ht with rfl | rfl
  · refine ⟨h.known, fun hdropped => ?_, h.ordered, fun _ => ?_⟩
    · refine (congrArg (taken ++ ·) (filter_moved hindex ?_)).trans (h.within hdropped)
      exact fun hevent earlier hmem hearlier =>
        horder hdropped (by simpa [Ahead] using hevent) earlier hmem (by simpa [Ahead] using hearlier)
    · exact append_ne_nil_of_right_ne_nil _ (cons_ne_nil _ _)
  · refine ⟨h.known, fun hdropped => ?_, h.ordered, fun _ => ?_⟩
    · exact absurd hdropped (Nat.succ_ne_zero _)
    · exact append_ne_nil_of_right_ne_nil _ (cons_ne_nil _ _)

lemma Sound.queued (h : s.Sound c) (hindex : s.pending[index]? = some event)
    (hgood : InOrder c s (.publish index)) (hopen : s.phase ≠ .connecting ∧ s.phase ≠ .closed)
    (ht : t = { s with pending := s.pending.eraseIdx index, queue := s.queue ++ [event] } ∨
      t = { s with pending := s.pending.eraseIdx index, queue := s.queue.tail ++ [event], dropped := s.dropped + 1 }) :
    t.Sound c := by
  have hphase : t.phase = s.phase := by rcases ht with rfl | rfl <;> rfl
  have hframes : t.frames = s.frames := by rcases ht with rfl | rfl <;> rfl
  have htable : t.table = s.table := by rcases ht with rfl | rfl <;> rfl
  have hsent : t.sent = s.sent := by rw [sent, hframes, sent]
  have howed : ∀ cursor highWater, t.owed c cursor highWater = s.owed c cursor highWater := by
    intro cursor highWater
    rw [owed, htable, owed]
  unfold Sound at h ⊢
  rw [hphase]
  cases hs : s.phase with
  | connecting => exact absurd hs hopen.1
  | closed => exact absurd hs hopen.2
  | replaying highWater searching page next =>
    rw [hs] at h
    obtain ⟨hgap, hflow, hpaged, hscanned⟩ := h
    have hupcoming : t.upcoming c highWater page next = s.upcoming c highWater page next := by
      cases next with
      | none => rfl
      | some cursor => simp only [upcoming, Option.elim_some, howed]
    refine ⟨?_, hflow.publish hindex (fun _ => hgood highWater (.inr ⟨_, _, _, hs⟩) event hindex) ht, hpaged, ?_⟩
    · rw [Gapped, hframes]
      exact hgap
    · rw [hupcoming]
      cases searching with
      | some id =>
        rw [Scanned, hsent, howed]
        exact hscanned
      | none =>
        obtain ⟨start, hstart, hle, htold⟩ := hscanned
        exact ⟨start, htable ▸ hstart, hle, by rw [hsent, howed, htold]⟩
  | listening highWater =>
    rw [hs] at h
    obtain ⟨hgap, snapshot, start, taken, hl⟩ := h
    have horder : s.dropped = 0 → Ahead c snapshot event → ∀ earlier ∈ s.pending.take index, ¬ Ahead c snapshot earlier := by
      intro hdropped hahead earlier hearlier hbefore
      have habove := hl.above hdropped (.inr (mem_of_getElem? hindex)) hahead
      have habove' := hl.above hdropped (.inr (mem_of_mem_take hearlier)) hbefore
      exact hgood highWater (.inl hs) event hindex ⟨habove, hahead.2⟩ earlier hearlier ⟨habove', hbefore.2⟩
    refine ⟨?_, snapshot, start, taken, hl.toFlowing.publish hindex horder ht, htable ▸ hl.starts, hl.start_le, ?_,
      hl.snapshot_le, hl.mark⟩
    · rw [Gapped, hframes]
      exact hgap
    · rw [hsent, howed]
      exact hl.told

lemma Sound.publish (h : s.Sound c) (hindex : s.pending[index]? = some event)
    (hgood : InOrder c s (.publish index)) :
    ({ s with pending := s.pending.eraseIdx index }.publish c event).Sound c := by
  unfold WorkspaceStream.publish
  cases hs : s.phase with
  | connecting =>
    unfold Sound at h ⊢
    rw [hs] at h
    obtain ⟨hframes, hqueue, hdropped, hpending⟩ := h
    exact ⟨hframes, hqueue, hdropped, fun e he => hpending e (mem_of_mem_eraseIdx he)⟩
  | closed =>
    unfold Sound at h ⊢
    rw [hs] at h
    exact h
  | replaying highWater searching page next =>
    refine h.queued hindex hgood (by simp [hs]) ?_
    dsimp only
    split_ifs
    · exact .inr (by rw [hs])
    · exact .inl (by rw [hs])
  | listening highWater =>
    refine h.queued hindex hgood (by simp [hs]) ?_
    dsimp only
    split_ifs
    · exact .inr (by rw [hs])
    · exact .inl (by rw [hs])

lemma not_gapped_send (h : ¬ s.Gapped) {frame : WorkspaceFrame} (hframe : ∀ id, frame ≠ .gap id) :
    ¬ (s.send frame).Gapped := by
  rintro ⟨id, hid⟩
  rcases mem_append.mp hid with hid | hid
  · exact h ⟨id, hid⟩
  · exact hframe id (mem_singleton.mp hid).symm

lemma sound_readPage (hgap : ¬ s.Gapped) (hflow : s.Flowing c highWater [])
    (hscanned : s.Scanned c highWater (s.owed c cursor highWater) searching) :
    (s.readPage c highWater searching cursor).Sound c := by
  obtain ⟨page, next, hpage, hupcoming, hpaged⟩ := @readPage_eq c s highWater searching cursor
  rw [hpage]
  rw [← hupcoming] at hscanned
  exact ⟨hgap, ⟨hflow.known, hflow.within, hflow.ordered, hflow.overflow⟩, hpaged, hscanned⟩

lemma Sound.subscribe (h : s.Sound c) (hs : s.phase = .connecting) : (s.subscribe c).Sound c := by
  unfold Sound at h
  rw [hs] at h
  obtain ⟨hframes, hqueue, hdropped, hpending⟩ := h
  have hsent : s.sent = [] := by rw [sent, hframes, filterMap_nil]
  have hgap : ¬ s.Gapped := by
    rintro ⟨id, hid⟩
    rw [hframes] at hid
    cases hid
  have hnone : relevant c (latestSequence s.table) s.pending = [] := by
    refine relevant_eq_nil fun event hevent hahead => ?_
    have := hpending event hevent
    have := hahead.1
    omega
  have hlive : s.live c (latestSequence s.table) = [] := by
    rw [live, map_eq_nil_iff]
    refine filter_eq_nil_iff.mpr fun row hrow hbehind => ?_
    have := CliStream.le_latestSequence hrow
    simp only [Bool.and_eq_true, decide_eq_true_eq] at hbehind
    omega
  have hflow : s.Flowing c (latestSequence s.table) [] := by
    refine ⟨CliStream.latestSequence_le s.table, fun _ => ?_, nil_prefix, fun hne => absurd hdropped hne⟩
    rw [hqueue, hnone, hlive]
    rfl
  refine sound_readPage hgap hflow ?_
  cases hafter : c.afterEventId with
  | some id => exact ⟨hafter, hsent, [], rfl, nofun⟩
  | none =>
    refine ⟨0, ?_, Nat.zero_le _, ?_⟩
    · rw [start, hafter]
    · rw [hsent, nil_append]

lemma sound_finish (hgap : ¬ s.Gapped) (hflow : s.Flowing c highWater [])
    (hscanned : s.Scanned c highWater [] searching) : (s.finish highWater searching).Sound c := by
  cases searching with
  | some id =>
    have hsent : (s.send (.gap id)).sent = [] := by rw [sent_send, hscanned.2.1]; rfl
    change (s.send (.gap id)).sent <+: _
    rw [hsent]
    exact nil_prefix
  | none =>
    obtain ⟨start, hstart, hle, hsent⟩ := hscanned
    refine ⟨hgap, highWater, start, [], ⟨hflow.known, hflow.within, hflow.ordered, hflow.overflow⟩, hstart, hle, ?_,
      Nat.le_refl _, .inl rfl⟩
    refine Eq.trans ?_ (hsent.trans (append_nil _).symm)
    exact (append_nil _).symm

lemma start_found {id : String} {done rest : List RuntimeEvent} (hafter : c.afterEventId = some id)
    (howed : done ++ event :: rest = s.owed c 0 highWater) (hother : ∀ e ∈ done, e.eventId ≠ id)
    (hfound : event.eventId = id) :
    c.start s.table.rows = some event.sequence ∧ rest = s.owed c event.sequence highWater := by
  have hincreasing : Increasing RuntimeEvent.sequence (s.owed c 0 highWater) :=
    pairwise_map.mpr (List.Pairwise.filter _ s.table.increasing)
  have hmem : event ∈ s.owed c 0 highWater := howed ▸ mem_append_right _ mem_cons_self
  obtain ⟨row, hbetween, rfl⟩ := mem_map.mp hmem
  obtain ⟨hrow, hpositive, hle, hselects⟩ := mem_between.mp hbetween
  have hcut : ∀ cursor, s.owed c cursor highWater = (s.owed c 0 highWater).filter fun e => cursor < e.sequence := by
    intro cursor
    have hrows : between EventRow.sequence c.pageFilters.selects cursor highWater s.table.rows =
        (between EventRow.sequence c.pageFilters.selects 0 highWater s.table.rows).filter
          fun row => cursor < row.sequence := by
      rw [between, between, filter_filter]
      refine filter_congr fun row _ => ?_
      rw [Bool.eq_iff_iff]
      simp only [Bool.and_eq_true, decide_eq_true_eq]
      constructor
      · rintro ⟨⟨hlt, hp⟩, hhigh⟩
        exact ⟨hlt, ⟨Nat.zero_lt_of_lt hlt, hp⟩, hhigh⟩
      · rintro ⟨hlt, ⟨-, hp⟩, hhigh⟩
        exact ⟨⟨hlt, hp⟩, hhigh⟩
    rw [owed, hrows, owed, filter_map]
    rfl
  rw [← howed] at hincreasing
  obtain ⟨-, hlater, hbefore⟩ := pairwise_append.mp hincreasing
  constructor
  · rw [start, hafter]
    refine Option.map_eq_some_iff.mpr ⟨row, ?_, rfl⟩
    obtain ⟨before, after, hrows⟩ := append_of_mem hrow
    refine find?_eq_some_iff_append.mpr ⟨?_, before, after, hrows, fun r hr => ?_⟩
    · have hsame : row.eventId = id := hfound
      simp [hselects, hsame, hpositive]
    · -- an earlier row with the identifier would have been looked at
      by_contra hpasses
      simp only [Bool.not_eq_true', Bool.not_eq_false, Bool.and_eq_true, decide_eq_true_eq] at hpasses
      have hlt : r.sequence < row.sequence := by
        have hsorted := s.table.increasing
        rw [hrows] at hsorted
        exact (pairwise_append.mp hsorted).2.2 r hr row mem_cons_self
      have hr' : eventFromRow r ∈ done ++ eventFromRow row :: rest := by
        rw [howed]
        exact mem_map.mpr ⟨r, mem_between.mpr ⟨hrows ▸ mem_append_left _ hr, hpasses.1.1, by omega, hpasses.1.2⟩, rfl⟩
      rcases mem_append.mp hr' with hdone | hrest
      · exact hother _ hdone hpasses.2
      · rcases mem_cons.mp hrest with hsame | hafterwards
        · have := congrArg RuntimeEvent.sequence hsame
          exact absurd this (Nat.ne_of_lt hlt)
        · have := (pairwise_cons.mp hlater).1 _ hafterwards
          exact absurd this (Nat.not_lt_of_lt hlt)
  · rw [hcut, ← howed, filter_append, filter_cons_of_neg (by simp)]
    have hnone : done.filter (fun e => (eventFromRow row).sequence < e.sequence) = [] := by
      refine filter_eq_nil_iff.mpr fun e he hlt => ?_
      have := hbefore e he _ mem_cons_self
      rw [decide_eq_true_eq] at hlt
      omega
    have hall : rest.filter (fun e => (eventFromRow row).sequence < e.sequence) = rest := by
      refine filter_eq_self.mpr fun e he => ?_
      exact decide_eq_true ((pairwise_cons.mp hlater).1 e he)
    rw [hnone, hall, nil_append]

lemma upcoming_cons (page : List RuntimeEvent) (next : Option ℕ) (h : event.sequence ≤ highWater) :
    s.upcoming c highWater (event :: page) next = event :: s.upcoming c highWater page next := by
  rw [upcoming, filter_cons_of_pos (by simpa using h), cons_append, upcoming]

lemma upcoming_eq_nil (hpaged : CliStream.Paged (event :: page) next) (h : highWater < event.sequence) :
    s.upcoming c highWater (event :: page) next = [] := by
  obtain ⟨hfirst, -⟩ := pairwise_cons.mp hpaged.increasing
  refine append_eq_nil_iff.mpr ⟨?_, ?_⟩
  · refine filter_eq_nil_iff.mpr fun e he hle => ?_
    rw [decide_eq_true_eq] at hle
    rcases mem_cons.mp he with rfl | he
    · omega
    · have := hfirst e he
      omega
  · cases next with
    | none => rfl
    | some cursor =>
      have hcursor := hpaged.next_le cursor rfl event mem_cons_self
      exact owed_eq_nil (Nat.le_of_lt (Nat.lt_of_lt_of_le h hcursor))

lemma sound_scan (hgap : ¬ s.Gapped) (hflow : s.Flowing c highWater []) (hpaged : CliStream.Paged page next)
    (hscanned : s.Scanned c highWater (event :: s.upcoming c highWater page next) searching) :
    (s.scan highWater searching page next event).Sound c := by
  have hflow' : ∀ frames phase, Flowing c { s with frames := frames, phase := phase } highWater [] :=
    fun _ _ => ⟨hflow.known, hflow.within, hflow.ordered, hflow.overflow⟩
  cases searching with
  | some id =>
    obtain ⟨hafter, hsent, done, howed, hother⟩ := hscanned
    by_cases hfound : event.eventId = id
    · obtain ⟨hstart, hrest⟩ := start_found hafter howed hother hfound
      simp only [scan, if_pos hfound]
      refine ⟨hgap, hflow' _ _, hpaged, event.sequence, hstart, ?_, ?_⟩
      · have hmem : event ∈ s.owed c 0 highWater := howed ▸ mem_append_right _ mem_cons_self
        obtain ⟨row, hrow, rfl⟩ := mem_map.mp hmem
        exact (mem_between.mp hrow).2.2.1
      · change s.sent ++ told (s.upcoming c highWater page next) = _
        rw [hsent, nil_append, hrest]
        rfl
    · simp only [scan, if_neg hfound]
      refine ⟨hgap, hflow' _ _, hpaged, hafter, hsent, done ++ [event], ?_, fun e he => ?_⟩
      · rw [append_assoc]
        exact howed
      · rcases mem_append.mp he with he | he
        · exact hother e he
        · rw [mem_singleton.mp he]
          exact hfound
  | none =>
    obtain ⟨start, hstart, hle, hsent⟩ := hscanned
    simp only [scan]
    cases hinvalidation : invalidationFor event with
    | none =>
      refine ⟨hgap, hflow' _ _, hpaged, start, hstart, hle, ?_⟩
      have hskip : told (event :: s.upcoming c highWater page next) = told (s.upcoming c highWater page next) :=
        filterMap_cons_none hinvalidation
      rw [hskip] at hsent
      exact hsent
    | some invalidation =>
      refine ⟨not_gapped_send hgap nofun, hflow' _ _, hpaged, start, hstart, hle, ?_⟩
      have htold : told (event :: s.upcoming c highWater page next) =
          invalidation :: told (s.upcoming c highWater page next) := filterMap_cons_some hinvalidation
      rw [htold] at hsent
      refine Eq.trans ?_ hsent
      refine (congrArg (· ++ told (s.upcoming c highWater page next)) (sent_send (.changed invalidation))).trans ?_
      rw [append_assoc]
      rfl

lemma Sound.replay (h : s.Sound c)
    (hs : s.phase = .replaying highWater searching page next) : (s.replay c highWater searching page next).Sound c := by
  unfold Sound at h
  rw [hs] at h
  obtain ⟨hgap, hflow, hpaged, hscanned⟩ := h
  cases page with
  | nil =>
    cases next with
    | none => exact sound_finish hgap hflow hscanned
    | some cursor => exact sound_readPage hgap hflow hscanned
  | cons event page =>
    simp only [WorkspaceStream.replay]
    split_ifs with hbeyond
    · rw [upcoming_eq_nil hpaged hbeyond] at hscanned
      exact sound_finish hgap hflow hscanned
    · rw [upcoming_cons page next (Nat.le_of_not_lt hbeyond)] at hscanned
      refine sound_scan hgap hflow ⟨(pairwise_cons.mp hpaged.increasing).2, ?_⟩ hscanned
      exact fun cursor hcursor e he => hpaged.next_le cursor hcursor e (mem_cons_of_mem _ he)

lemma Sound.take (h : s.Sound c) {queue : List RuntimeEvent} (hs : s.phase = .listening highWater)
    (hqueue : s.queue = event :: queue) (hgood : InOrder c s .take) :
    ({ s with queue := queue }.handle c highWater event).Sound c := by
  by_cases hdropped : s.dropped = 0
  · have hphase : s.InPhase c (.listening highWater) := hs ▸ h
    obtain ⟨hgap, snapshot, start, taken, hl⟩ := hphase
    have hwithin := hl.within hdropped
    rw [hqueue] at hwithin
    -- without the event, the queue holds the same live events unless it was one of them
    have hskip : ¬ Ahead c snapshot event → Sound c { s with queue := queue } := by
      intro hnot
      rw [relevant_cons_of_not hnot] at hwithin
      change InPhase c { s with queue := queue } s.phase
      rw [hs]
      exact ⟨hgap, snapshot, start, taken, ⟨hl.known, fun _ => hwithin, hl.ordered, fun hne => absurd hdropped hne⟩,
        hl.starts, hl.start_le, hl.told, hl.snapshot_le, hl.mark⟩
    have habove : Ahead c snapshot event → highWater < event.sequence :=
      hl.above hdropped (.inl (hqueue ▸ mem_cons_self))
    rw [handle, if_neg (not_not.mpr hdropped)]
    split_ifs with hold hallowed
    · exact hskip fun hahead => absurd (habove hahead) (Nat.not_lt_of_le hold)
    · refine hskip fun hahead => ?_
      have hsame := hgood highWater event hs (by rw [hqueue, head?_cons]) hdropped (habove hahead)
      have hselects := (Bool.and_eq_true_iff.mp hahead.2).1
      rw [hsame, hselects] at hallowed
      cases hallowed
    · have hlater : highWater < event.sequence := Nat.lt_of_not_le hold
      have hsame := hgood highWater event hs (by rw [hqueue, head?_cons]) hdropped hlater
      cases hinvalidation : invalidationFor event with
      | none =>
        refine hskip fun hahead => ?_
        have htold := (Bool.and_eq_true_iff.mp hahead.2).2
        have hrow : eventFromRow (rowOf event event.sequence) = event := rfl
        rw [hrow, hinvalidation] at htold
        cases htold
      | some invalidation =>
        have hahead : Ahead c snapshot event := by
          refine ⟨Nat.lt_of_le_of_lt hl.snapshot_le hlater, Bool.and_eq_true_iff.mpr ⟨?_, ?_⟩⟩
          · rw [← hsame]
            simpa using hallowed
          · have hrow : eventFromRow (rowOf event event.sequence) = event := rfl
            rw [hrow, hinvalidation]
            rfl
        rw [relevant_cons_of_ahead hahead, cons_append, ← singleton_append, ← append_assoc] at hwithin
        refine ⟨not_gapped_send hgap nofun, snapshot, start, taken ++ [event], ⟨hl.known, fun _ => hwithin, ⟨_, hwithin⟩,
          fun hne => absurd hdropped hne⟩, hl.starts, hl.start_le, ?_, ?_, .inr ⟨event, by simp, rfl⟩⟩
        · have hone : Streams.told [event] = [invalidation] := filterMap_cons_some hinvalidation
          rw [told_append, hone, ← append_assoc]
          refine (sent_send (.changed invalidation)).trans ?_
          exact congrArg (· ++ [invalidation]) hl.told
        · exact Nat.le_of_lt (Nat.lt_of_le_of_lt hl.snapshot_le hlater)
  · rw [handle, if_pos hdropped]
    exact h.close

lemma Sound.idle (h : s.Sound c) (hs : s.phase = .listening highWater) : (s.send .heartbeat).Sound c := by
  have hphase : s.InPhase c (.listening highWater) := hs ▸ h
  obtain ⟨hgap, snapshot, start, taken, hl⟩ := hphase
  have hsent : (s.send .heartbeat).sent = s.sent := (sent_send _).trans (append_nil _)
  change InPhase c (s.send .heartbeat) s.phase
  rw [hs]
  exact ⟨not_gapped_send hgap nofun, snapshot, start, taken, ⟨hl.known, hl.within, hl.ordered, hl.overflow⟩, hl.starts,
    hl.start_le, hsent.trans hl.told, hl.snapshot_le, hl.mark⟩

def Does (c : WorkspaceConnection) (s t : WorkspaceStream) : WorkspaceMove → Prop
  | .append event => t = s.grow event
  | .publish index => ∃ event, s.pending[index]? = some event ∧
      t = { s with pending := s.pending.eraseIdx index }.publish c event
  | .subscribe => s.phase = .connecting ∧ t = s.subscribe c
  | .replay => ∃ highWater searching page next, s.phase = .replaying highWater searching page next ∧
      t = s.replay c highWater searching page next
  | .take => ∃ highWater event queue, s.phase = .listening highWater ∧ s.queue = event :: queue ∧
      t = { s with queue := queue }.handle c highWater event
  | .idle => t = { s with phase := .closed } ∨ ∃ highWater, s.phase = .listening highWater ∧ t = s.send .heartbeat
  | .disconnect => t = { s with phase := .closed }

lemma grow_of_append (h : (match append s.table event with
    | .ok (stored, table) => some { s with table := table, pending := s.pending ++ [stored] }
    | .error _ => none) = some t) : t = s.grow event := by
  unfold append at h
  split_ifs at h with hunique
  cases h
  rfl

lemma does_of_step {move : WorkspaceMove} (h : s.step c move = some t) : Does c s t move := by
  cases move with
  | append event =>
    refine grow_of_append ?_
    rw [← h]
    cases hs : s.phase with
    | closed => simp [step, hs] at h
    | _ => simp only [step, hs]
  | publish index =>
    have hpublish : (s.pending[index]?).map (fun event =>
        { s with pending := s.pending.eraseIdx index }.publish c event) = some t := by
      rw [← h]
      cases hs : s.phase with
      | closed => simp [step, hs] at h
      | _ => simp only [step, hs]
    obtain ⟨event, hindex, hout⟩ := Option.map_eq_some_iff.mp hpublish
    exact ⟨event, hindex, hout.symm⟩
  | subscribe =>
    cases hs : s.phase with
    | connecting =>
      simp only [step, hs, Option.some.injEq] at h
      exact ⟨hs, h.symm⟩
    | _ => simp [step, hs] at h
  | replay =>
    cases hs : s.phase with
    | replaying highWater searching page next =>
      simp only [step, hs, Option.some.injEq] at h
      exact ⟨highWater, searching, page, next, hs, h.symm⟩
    | _ => simp [step, hs] at h
  | take =>
    cases hs : s.phase with
    | listening highWater =>
      cases hqueue : s.queue with
      | nil => simp [step, hs, hqueue] at h
      | cons event queue =>
        simp only [step, hs, hqueue, Option.some.injEq] at h
        rw [← hs] at h
        exact ⟨highWater, event, queue, hs, hqueue, h.symm⟩
    | _ => simp [step, hs] at h
  | idle =>
    cases hs : s.phase with
    | listening highWater =>
      simp only [step, hs] at h
      split_ifs at h
      · exact .inl (Option.some.inj h).symm
      · exact .inr ⟨highWater, hs, (Option.some.inj h).symm⟩
    | _ => simp [step, hs] at h
  | disconnect =>
    cases hs : s.phase with
    | closed => simp [step, hs] at h
    | _ =>
      simp only [step, hs, Option.some.injEq] at h
      exact h.symm

lemma Sound.step {move : WorkspaceMove} (h : s.Sound c) (hgood : InOrder c s move)
    (hstep : s.step c move = some t) : t.Sound c := by
  have hdoes := does_of_step hstep
  cases move with
  | append event =>
    cases hdoes
    exact h.grow event
  | publish index =>
    obtain ⟨event, hindex, rfl⟩ := hdoes
    exact h.publish hindex hgood
  | subscribe =>
    obtain ⟨hs, rfl⟩ := hdoes
    exact h.subscribe hs
  | replay =>
    obtain ⟨highWater, searching, page, next, hs, rfl⟩ := hdoes
    exact h.replay hs
  | take =>
    obtain ⟨highWater, event, queue, hs, hqueue, rfl⟩ := hdoes
    exact h.take hs hqueue hgood
  | idle =>
    rcases hdoes with rfl | ⟨highWater, hs, rfl⟩
    · exact h.close
    · exact h.idle hs
  | disconnect =>
    cases hdoes
    exact h.close

end
end WorkspaceStream

/-- Where publications keep the order of the store, every subscriber is sent the invalidations above
its start, until the stream closes. -/
theorem workspace_events_delivered (c : WorkspaceConnection) (table : EventTable) (s : WorkspaceStream)
    (hs : (workspaceEvents c table).Reached (InOrder c) s) : s.Delivers c := by
  have hsound : s.Sound c := by
    refine hs.invariant ?_ fun _ _ _ hsound hgood hstep => hsound.step hgood hstep
    exact ⟨rfl, rfl, rfl, nofun⟩
  exact hsound.delivers

def queued (eventId : String) : RuntimeEvent := ⟨eventId, 0, .operationQueued, "2026-01-01T00:00:00+00:00", []⟩

/-- A later event is published before an earlier one, which is skipped without a gap. -/
theorem workspace_event_skipped : ∃ s, (workspaceEvents ⟨none, none, none, 100⟩ {}).runFrom { table := {} }
      [.subscribe, .replay, .append (queued "evt-1"), .append (queued "evt-2"), .publish 1, .publish 0, .take,
        .take] = some s ∧
    s.sent.map (·.eventId) = ["evt-2"] ∧ s.Settled ∧ ¬ s.Gapped ∧ ¬ s.Delivers ⟨none, none, none, 100⟩ := by
  refine ⟨_, rfl, rfl, ⟨⟨2, rfl⟩, rfl, rfl⟩, ?_, fun h => ?_⟩
  · rintro ⟨id, hid⟩
    cases mem_singleton.mp hid
  · have hsame := h.complete ⟨⟨2, rfl⟩, rfl, rfl⟩
    have hlength := congrArg length hsame
    cases hlength

/-- A subscriber that has seen the first event is sent the second. -/
theorem published_invalidation_delivered : ∃ s, (workspaceEvents ⟨some "evt-1", none, none, 100⟩
      (EventTable.insert {} (queued "evt-1"))).runFrom { table := EventTable.insert {} (queued "evt-1") }
      [.subscribe, .replay, .replay, .append (queued "evt-2"), .publish 0, .take] = some s ∧
    s.sent.map (·.eventId) = ["evt-2"] ∧ s.Delivers ⟨some "evt-1", none, none, 100⟩ := by
  refine ⟨_, rfl, rfl, workspace_events_delivered ⟨some "evt-1", none, none, 100⟩
    (EventTable.insert {} (queued "evt-1")) _ (.next .take (.next (.publish 0)
      (.next (.append (queued "evt-2")) (.next .replay (.next .replay (.next .subscribe .start trivial rfl) trivial rfl)
        trivial rfl) trivial rfl) ?_ rfl) ?_ rfl)⟩
  · rintro - - - - - earlier ⟨⟩
  · have hnone : payloadString (queued "evt-2").payload "target_id" ≠ some "" := (Option.some_ne_none "").symm
    rintro highWater event - ⟨⟩ - -
    exact @allowed_eq_selects _ { queued "evt-2" with sequence := 2 } hnone 2

end IncidentLens.Streams
