import IncidentLens.Effects.Runs
import IncidentLens.Streams.CliFilter

/-!
# The CLI event stream

A subscriber is sent the stored events page by page up to the last one, and then what reaches
its queue. Publishers append an event first and publish it afterwards, at once or in a task of
its own; between the two, others may append and publish.
-/
namespace IncidentLens.Streams
open Data Effects Events List EventRow

def replayPageSize : ℕ := 500

structure CliConnection where
  afterSequence : ℕ
  allowedTargetIds : Option (List String) := none
  queueSize : ℕ := 256

inductive CliFrame
  | hello
  | event (event : RuntimeEvent)
  | gap (requestedAfterSequence earliestAvailableSequence : ℕ)
  | heartbeat
  | slowConsumer
  | close (code : ℕ) (reason : String)

inductive CliPhase
  | connecting
  /-- The events of a page are being sent; `next` is where the page after it begins. -/
  | replaying (highWater : ℕ) (page : List RuntimeEvent) (next : Option ℕ)
  | listening (highWater : ℕ)
  | closed

/-- A stream with the store and the broker around it; `pending` holds the appended events that
are still to be published. -/
structure CliStream where
  table : EventTable
  filter : EventFilter
  pending : List RuntimeEvent := []
  queue : List RuntimeEvent := []
  dropped : ℕ := 0
  phase : CliPhase := .connecting
  frames : List CliFrame := [.hello]

open CliStream

inductive CliMove
  | append (event : RuntimeEvent)
  | publish (index : ℕ)
  | subscribe
  | replay
  | take (resolve : Option (String → Option String))
  | idle
  | disconnect

def latestSequence (table : EventTable) : ℕ := (table.rows.getLast?.map (·.sequence)).getD 0

def earliestSequence (table : EventTable) : ℕ := (table.rows.head?.map (·.sequence)).getD 0

namespace CliStream

def send (s : CliStream) (frames : List CliFrame) : CliStream := { s with frames := s.frames ++ frames }

/-- `publish`: a full queue loses its oldest event. -/
def publish (c : CliConnection) (s : CliStream) (event : RuntimeEvent) : CliStream :=
  match s.phase with
  | .replaying .. | .listening _ =>
    if 0 < c.queueSize ∧ c.queueSize ≤ s.queue.length then { s with queue := s.queue.tail ++ [event], dropped := s.dropped + 1 }
    else { s with queue := s.queue ++ [event] }
  | _ => s

def readPage (c : CliConnection) (s : CliStream) (highWater cursor : ℕ) : CliStream :=
  match filterParams c.allowedTargetIds s.filter with
  | .error _ => { s with phase := .closed }
  | .ok params => match listPage s.table params cursor replayPageSize with
    | .error _ => { s with phase := .closed }
    | .ok page =>
      let next := if page.hasMore && !page.items.isEmpty then some page.nextAfterSequence else none
      { s with phase := .replaying highWater page.items next }

/-- From the subscription to the first await. A gap is sent and the connection closed, and the
stream goes on with its queue. -/
def subscribe (c : CliConnection) (s : CliStream) : CliStream :=
  let highWater := latestSequence s.table
  if 0 < c.afterSequence ∧ c.afterSequence + 1 < earliestSequence s.table then
    { s.send [.gap c.afterSequence (earliestSequence s.table), .close 1012 "event history no longer available"] with
      phase := .listening highWater }
  else s.readPage c highWater c.afterSequence

def replay (c : CliConnection) (s : CliStream) (highWater : ℕ) (page : List RuntimeEvent) (next : Option ℕ) :
    CliStream :=
  match page, next with
  | event :: page, next =>
    if highWater < event.sequence then { s with phase := .listening highWater }
    else { s.send [.event event] with phase := .replaying highWater page next }
  | [], some cursor => s.readPage c highWater cursor
  | [], none => { s with phase := .listening highWater }

/-- `_close_slow`. -/
def closeSlow (s : CliStream) : CliStream :=
  { s.send [.slowConsumer, .close 1013 "subscriber too slow"] with phase := .closed }

/-- An event of the queue. -/
def handle (c : CliConnection) (s : CliStream) (highWater : ℕ) (resolve : Option (String → Option String))
    (event : RuntimeEvent) : CliStream :=
  if s.dropped ≠ 0 then s.closeSlow
  else if event.sequence ≤ highWater then s
  else
    let verdict := matchesFilter resolve c.allowedTargetIds s.filter event
    let s := { s with filter := verdict.2 }
    match verdict.1 with
    | .error _ => { s with phase := .closed }
    | .ok false => s
    | .ok true => s.send [.event event]

def step (c : CliConnection) (s : CliStream) (move : CliMove) : Option CliStream :=
  match s.phase, move with
  | .closed, _ => none
  | _, .append event => match append s.table event with
    | .ok (stored, table) => some { s with table := table, pending := s.pending ++ [stored] }
    | .error _ => none
  | _, .publish index => (s.pending[index]?).map fun event =>
      { s with pending := s.pending.eraseIdx index }.publish c event
  | .connecting, .subscribe => some (s.subscribe c)
  | .replaying highWater page next, .replay => some (s.replay c highWater page next)
  | .listening highWater, .take resolve => match s.queue with
    | event :: queue => some ({ s with queue := queue }.handle c highWater resolve event)
    | [] => none
  | .listening _, .idle =>
    if s.queue = [] then some (if s.dropped ≠ 0 then s.closeSlow else s.send [.heartbeat]) else none
  | _, .disconnect => some { s with phase := .closed }
  | _, _ => none

end CliStream

/-- A stream is opened over a store, and its connection has been greeted. -/
def cliEvents (c : CliConnection) (table : EventTable) (filter : EventFilter) : System CliStream CliMove :=
  ⟨{ table := table, filter := filter }, step c⟩

/-! ### What a subscriber is owed -/

def CliFrame.event? : CliFrame → Option RuntimeEvent
  | .event e => some e
  | _ => none

def CliFrame.final : CliFrame → Bool
  | .gap .. | .slowConsumer => true
  | _ => false

def passesPage (allowedTargetIds : Option (List String)) (f : EventFilter) (row : EventRow) : Bool :=
  match filterParams allowedTargetIds f with
  | .ok params => params.selects row
  | .error _ => false

namespace CliStream

def sent (s : CliStream) : List RuntimeEvent := s.frames.filterMap CliFrame.event?

/-- The stored events behind the cursor that match the filter. -/
def wanted (c : CliConnection) (s : CliStream) : List RuntimeEvent :=
  (behind sequence (passesPage c.allowedTargetIds s.filter) c.afterSequence s.table.rows).map eventFromRow

def Gapped (s : CliStream) : Prop := ∃ frame ∈ s.frames, ∃ requested earliest, frame = .gap requested earliest

/-- Nothing is left to be sent, and the stream has not closed. -/
def Settled (s : CliStream) : Prop :=
  (∃ highWater, s.phase = .listening highWater) ∧ s.queue = [] ∧ s.pending = [] ∧ ¬ s.Gapped

/-- The wanted events are sent in their order, once each and none skipped, all of them in the
end, and none after a final frame. -/
structure Delivers (c : CliConnection) (s : CliStream) : Prop where
  ordered : s.sent <+: s.wanted c
  increasing : Increasing RuntimeEvent.sequence s.sent
  complete : s.Settled → s.sent = s.wanted c
  silent : s.frames.Pairwise fun f g => f.final = true → g.event? = none

/-- An event that was not yet replayed and matches the filter. -/
def Ahead (c : CliConnection) (s : CliStream) (highWater : ℕ) (event : RuntimeEvent) : Prop :=
  highWater < event.sequence ∧ passesPage c.allowedTargetIds s.filter (rowOf event event.sequence) = true

end CliStream

/-- Matching events are published in the order of their sequences; an event of the queue is
behind the cursor and leaves the filter as it is, which reads its target as the store does; and
none is let through after a gap. -/
def Orderly (c : CliConnection) (s : CliStream) : CliMove → Prop
  | .publish index => ∀ highWater, (s.phase = .listening highWater ∨ ∃ page next, s.phase = .replaying highWater page next) →
      ∀ event, s.pending[index]? = some event → s.Ahead c highWater event →
        ∀ earlier ∈ s.pending.take index, ¬ s.Ahead c highWater earlier
  | .take resolve => ∀ highWater event, s.phase = .listening highWater → s.queue.head? = some event → s.dropped = 0 →
      highWater < event.sequence →
        refreshInvestigationFilter resolve s.filter = s.filter ∧
          EventFilter.divides c.allowedTargetIds s.filter event = false ∧
            (s.Ahead c highWater event → c.afterSequence < event.sequence ∧ ¬ s.Gapped)
  | _ => True

/-! ### The parts of what is wanted -/

section
variable {table : EventTable} (p : EventRow → Bool)

lemma owed_insert {highWater : ℕ} (cursor : ℕ) (hknown : highWater ≤ table.assigned) (event : RuntimeEvent) :
    (between sequence p cursor highWater (table.insert event).rows).map eventFromRow =
      (between sequence p cursor highWater table.rows).map eventFromRow := by
  refine congrArg (map eventFromRow) (between_append_above fun row hrow => ?_)
  rw [mem_singleton.mp hrow]
  exact Nat.lt_succ_of_le hknown

lemma live_insert (low : ℕ) (event : RuntimeEvent) :
    (behind sequence p low (table.insert event).rows).map eventFromRow =
      (behind sequence p low table.rows).map eventFromRow ++
        [{ event with sequence := table.assigned + 1 }].filter fun e => low < e.sequence && p (rowOf e e.sequence) := by
  have hnew : ([rowOf event (table.assigned + 1)].filter fun row => low < row.sequence && p row).map eventFromRow =
      [{ event with sequence := table.assigned + 1 }].filter fun e => low < e.sequence && p (rowOf e e.sequence) := by
    simp only [filter_cons, filter_nil]
    split_ifs with h h' h'
    · rfl
    · exact absurd h h'
    · exact absurd h' h
    · rfl
  rw [← hnew, ← map_append]
  exact congrArg (map eventFromRow) (filter_append _ _)

end

namespace CliStream
section
variable {c : CliConnection} {s : CliStream} {highWater : ℕ}

def owed (c : CliConnection) (s : CliStream) (cursor highWater : ℕ) : List RuntimeEvent :=
  (between sequence (passesPage c.allowedTargetIds s.filter) cursor highWater s.table.rows).map eventFromRow

/-- What is sent from the queue. -/
def live (c : CliConnection) (s : CliStream) (highWater : ℕ) : List RuntimeEvent :=
  (behind sequence (passesPage c.allowedTargetIds s.filter) (max c.afterSequence highWater)
    s.table.rows).map eventFromRow

/-- The events of a list that belong to these. -/
def relevant (c : CliConnection) (s : CliStream) (highWater : ℕ) (events : List RuntimeEvent) : List RuntimeEvent :=
  events.filter fun event => max c.afterSequence highWater < event.sequence &&
    passesPage c.allowedTargetIds s.filter (rowOf event event.sequence)

lemma wanted_eq (highWater : ℕ) : s.wanted c = s.owed c c.afterSequence highWater ++ s.live c highWater := by
  rw [wanted, owed, live, ← map_append]
  rw [Increasing.between_append_behind s.table.increasing]

lemma wanted_increasing : Increasing RuntimeEvent.sequence (s.wanted c) :=
  pairwise_map.mpr (Increasing.behind s.table.increasing)

variable {event : RuntimeEvent} {events : List RuntimeEvent} {index : ℕ}

lemma relevant_cons_of_ahead (h : s.Ahead c highWater event) (hafter : c.afterSequence < event.sequence) :
    s.relevant c highWater (event :: events) = event :: s.relevant c highWater events := by
  refine filter_cons_of_pos ?_
  simp only [Bool.and_eq_true, decide_eq_true_eq, max_lt_iff]
  exact ⟨⟨hafter, h.1⟩, h.2⟩

lemma ahead_of_relevant (h : (max c.afterSequence highWater < event.sequence &&
    passesPage c.allowedTargetIds s.filter (rowOf event event.sequence)) = true) : s.Ahead c highWater event := by
  simp only [Bool.and_eq_true, decide_eq_true_eq, max_lt_iff] at h
  exact ⟨h.1.2, h.2⟩

lemma relevant_eq_nil (h : ∀ event ∈ events, ¬ s.Ahead c highWater event) : s.relevant c highWater events = [] :=
  filter_eq_nil_iff.mpr fun event hevent hrelevant => h event hevent (ahead_of_relevant hrelevant)

lemma relevant_cons_of_not (h : ¬ s.Ahead c highWater event) :
    s.relevant c highWater (event :: events) = s.relevant c highWater events :=
  filter_cons_of_neg fun hrelevant => h (ahead_of_relevant hrelevant)

/-! ### Appending an event -/

def grow (s : CliStream) (event : RuntimeEvent) : CliStream :=
  { s with
    table := s.table.insert event
    pending := s.pending ++ [{ event with sequence := s.table.assigned + 1 }] }

lemma owed_grow {cursor : ℕ} (hknown : highWater ≤ s.table.assigned) (event : RuntimeEvent) :
    (s.grow event).owed c cursor highWater = s.owed c cursor highWater :=
  owed_insert _ cursor hknown event

lemma live_grow (event : RuntimeEvent) : (s.grow event).live c highWater =
    s.live c highWater ++ s.relevant c highWater [{ event with sequence := s.table.assigned + 1 }] :=
  live_insert _ _ event

lemma wanted_grow (event : RuntimeEvent) : s.wanted c <+: (s.grow event).wanted c :=
  ⟨_, (live_insert (passesPage c.allowedTargetIds s.filter) c.afterSequence event).symm⟩

/-! ### Pages -/

/-- What is still to be replayed of a page and of those behind it. -/
def upcoming (c : CliConnection) (s : CliStream) (highWater : ℕ) (page : List RuntimeEvent) (next : Option ℕ) :
    List RuntimeEvent :=
  page.filter (fun event => event.sequence ≤ highWater) ++ next.elim [] fun cursor => s.owed c cursor highWater

/-- A page is in order, and the next one begins behind it. -/
structure Paged (page : List RuntimeEvent) (next : Option ℕ) : Prop where
  increasing : Increasing RuntimeEvent.sequence page
  next_le : ∀ cursor ∈ next, ∀ event ∈ page, event.sequence ≤ cursor

lemma readPage_cases (highWater cursor : ℕ) : s.readPage c highWater cursor = { s with phase := .closed } ∨
    ∃ page next, s.readPage c highWater cursor = { s with phase := .replaying highWater page next } ∧
      s.upcoming c highWater page next = s.owed c cursor highWater ∧ Paged page next := by
  unfold readPage
  cases hparams : filterParams c.allowedTargetIds s.filter with
  | error message => exact .inl rfl
  | ok params =>
    have hpasses : passesPage c.allowedTargetIds s.filter = params.selects := by
      funext row
      rw [passesPage, hparams]
    obtain ⟨page, hpage, hincreasing, more, hmore, hle, -, hbetween⟩ := listPage_between s.table params cursor highWater
      (show 1 ≤ replayPageSize ∧ replayPageSize ≤ 500 by decide)
    right
    simp only [hpage, hmore]
    cases more with
    | true =>
      refine ⟨_, some page.nextAfterSequence, rfl, ?_, hincreasing, ?_⟩
      · rw [upcoming, Option.elim_some, owed, owed, hpasses]
        exact hbetween
      · rintro - ⟨⟩ event hevent
        exact hle rfl event hevent
    | false =>
      refine ⟨_, none, rfl, ?_, hincreasing, nofun⟩
      rw [upcoming, Option.elim_none, owed, hpasses]
      exact hbetween

/-! ### The invariant -/

/-- What was taken from the queue, what waits in it and what is still to be published are the
live events, as long as none was dropped. -/
structure Flowing (c : CliConnection) (s : CliStream) (highWater : ℕ) (taken : List RuntimeEvent) : Prop where
  known : highWater ≤ s.table.assigned
  within : s.dropped = 0 →
    taken ++ (s.relevant c highWater s.queue ++ s.relevant c highWater s.pending) = s.live c highWater
  ordered : taken <+: s.live c highWater
  overflow : s.dropped ≠ 0 → s.queue ≠ []

def Plain (s : CliStream) : Prop := ∀ frame ∈ s.frames, frame.final = false

def InPhase (c : CliConnection) (s : CliStream) : CliPhase → Prop
  | .connecting => s.Plain ∧ s.sent = [] ∧ s.queue = [] ∧ s.dropped = 0 ∧
      ∀ event ∈ s.pending, event.sequence ≤ latestSequence s.table
  | .replaying highWater page next => s.Plain ∧ s.Flowing c highWater [] ∧ Paged page next ∧
      s.sent ++ s.upcoming c highWater page next = s.owed c c.afterSequence highWater
  | .listening highWater => s.Gapped ∧ s.sent = [] ∨ s.Plain ∧ ∃ taken, s.Flowing c highWater taken ∧
      s.sent = s.owed c c.afterSequence highWater ++ taken
  | .closed => s.sent <+: s.wanted c

structure Sound (c : CliConnection) (s : CliStream) : Prop where
  silent : s.frames.Pairwise fun f g => f.final = true → g.event? = none
  inPhase : s.InPhase c s.phase

lemma sent_send (frames : List CliFrame) : (s.send frames).sent = s.sent ++ frames.filterMap CliFrame.event? :=
  filterMap_append

lemma Sound.ordered (h : s.Sound c) : s.sent <+: s.wanted c := by
  have hphase := h.inPhase
  cases hs : s.phase with
  | connecting =>
    rw [hs] at hphase
    rw [hphase.2.1]
    exact nil_prefix
  | replaying highWater page next =>
    rw [hs] at hphase
    rw [wanted_eq highWater, ← hphase.2.2.2, append_assoc]
    exact prefix_append _ _
  | listening highWater =>
    rw [hs] at hphase
    rcases hphase with ⟨-, hsent⟩ | ⟨-, taken, hflow, hsent⟩
    · rw [hsent]
      exact nil_prefix
    · rw [hsent, wanted_eq highWater]
      exact (prefix_append_right_inj _).mpr hflow.ordered
  | closed =>
    rw [hs] at hphase
    exact hphase

lemma Sound.complete (h : s.Sound c) (hsettled : s.Settled) : s.sent = s.wanted c := by
  obtain ⟨⟨highWater, hs⟩, hqueue, hpending, hgap⟩ := hsettled
  have hphase := h.inPhase
  rw [hs] at hphase
  rcases hphase with ⟨hgapped, -⟩ | ⟨-, taken, hflow, hsent⟩
  · exact absurd hgapped hgap
  · have hdropped : s.dropped = 0 := by
      by_contra hdropped
      exact hflow.overflow hdropped hqueue
    have htaken := hflow.within hdropped
    rw [hqueue, hpending, show s.relevant c highWater [] = [] from rfl, append_nil, append_nil] at htaken
    rw [hsent, htaken, wanted_eq highWater]

lemma Sound.delivers (h : s.Sound c) : s.Delivers c where
  ordered := h.ordered
  increasing := wanted_increasing.sublist h.ordered.sublist
  complete := h.complete
  silent := h.silent

/-! ### What the steps keep -/

lemma le_latestSequence {table : EventTable} {row : EventRow} (h : row ∈ table.rows) :
    row.sequence ≤ latestSequence table := by
  obtain ⟨before, last, hrows⟩ : ∃ before last, table.rows = before ++ [last] :=
    eq_nil_or_concat' table.rows |>.resolve_left (ne_nil_of_mem h)
  have hincreasing := table.increasing
  rw [latestSequence, hrows, getLast?_concat, Option.map_some, Option.getD_some]
  rw [hrows] at h hincreasing
  rcases mem_append.mp h with h | h
  · exact Nat.le_of_lt ((pairwise_append.mp hincreasing).2.2 row h last (mem_singleton_self _))
  · rw [mem_singleton.mp h]

lemma latestSequence_le (table : EventTable) : latestSequence table ≤ table.assigned := by
  unfold latestSequence
  cases hlast : table.rows.getLast? with
  | none => exact Nat.zero_le _
  | some row => exact table.bounded row (mem_of_getLast? hlast)

lemma Flowing.grow {taken : List RuntimeEvent} (h : s.Flowing c highWater taken) (event : RuntimeEvent) :
    (s.grow event).Flowing c highWater taken where
  known := Nat.le_succ_of_le h.known
  within hdropped := by
    have hwithin := h.within hdropped
    have hpending : (s.grow event).relevant c highWater (s.grow event).pending = s.relevant c highWater s.pending ++
        s.relevant c highWater [{ event with sequence := s.table.assigned + 1 }] := filter_append _ _
    rw [live_grow, ← hwithin, hpending, append_assoc, append_assoc]
    rfl
  ordered := by
    rw [live_grow]
    exact h.ordered.trans (prefix_append _ _)
  overflow := h.overflow

lemma upcoming_grow (hknown : highWater ≤ s.table.assigned) (page : List RuntimeEvent) (next : Option ℕ)
    (event : RuntimeEvent) : (s.grow event).upcoming c highWater page next = s.upcoming c highWater page next := by
  cases next with
  | none => rfl
  | some cursor => simp [upcoming, owed_grow hknown event]

lemma Sound.grow (h : s.Sound c) (event : RuntimeEvent) : (s.grow event).Sound c := by
  refine ⟨h.silent, ?_⟩
  have hphase := h.inPhase
  change (s.grow event).InPhase c s.phase
  cases hs : s.phase with
  | connecting =>
    rw [hs] at hphase
    obtain ⟨hplain, hsent, hqueue, hdropped, hpending⟩ := hphase
    refine ⟨hplain, hsent, hqueue, hdropped, fun e he => ?_⟩
    have hlatest : latestSequence (s.grow event).table = s.table.assigned + 1 := by
      simp [latestSequence, CliStream.grow, EventTable.insert, rowOf]
    rw [hlatest]
    rcases mem_append.mp he with he | he
    · have := hpending e he
      have := latestSequence_le s.table
      omega
    · rw [mem_singleton.mp he]
  | replaying highWater page next =>
    rw [hs] at hphase
    obtain ⟨hplain, hflow, hpaged, hsent⟩ := hphase
    refine ⟨hplain, hflow.grow event, hpaged, ?_⟩
    rw [upcoming_grow hflow.known, owed_grow hflow.known]
    exact hsent
  | listening highWater =>
    rw [hs] at hphase
    rcases hphase with ⟨hgapped, hsent⟩ | ⟨hplain, taken, hflow, hsent⟩
    · exact .inl ⟨hgapped, hsent⟩
    · refine .inr ⟨hplain, taken, hflow.grow event, ?_⟩
      rw [owed_grow hflow.known]
      exact hsent
  | closed =>
    rw [hs] at hphase
    exact hphase.trans (wanted_grow event)

lemma Flowing.publish {taken : List RuntimeEvent} (h : s.Flowing c highWater taken)
    (hindex : s.pending[index]? = some event)
    (horder : s.Ahead c highWater event → ∀ earlier ∈ s.pending.take index, ¬ s.Ahead c highWater earlier) {t : CliStream}
    (ht : t = { s with pending := s.pending.eraseIdx index, queue := s.queue ++ [event] } ∨
      t = { s with pending := s.pending.eraseIdx index, queue := s.queue.tail ++ [event], dropped := s.dropped + 1 }) :
    t.Flowing c highWater taken := by
  rcases ht with rfl | rfl
  · refine ⟨h.known, fun hdropped => ?_, h.ordered, fun _ => ?_⟩
    · refine (congrArg (taken ++ ·) (filter_moved hindex ?_)).trans (h.within hdropped)
      exact fun hevent earlier hmem hearlier => horder (ahead_of_relevant hevent) earlier hmem (ahead_of_relevant hearlier)
    · exact append_ne_nil_of_right_ne_nil _ (cons_ne_nil _ _)
  · refine ⟨h.known, fun hdropped => ?_, h.ordered, fun _ => ?_⟩
    · exact absurd hdropped (Nat.succ_ne_zero _)
    · exact append_ne_nil_of_right_ne_nil _ (cons_ne_nil _ _)

lemma Sound.publish (h : s.Sound c) (hindex : s.pending[index]? = some event)
    (hgood : Orderly c s (.publish index)) :
    ({ s with pending := s.pending.eraseIdx index }.publish c event).Sound c := by
  have hqueued : ∀ t : CliStream, (∃ highWater, s.phase = .listening highWater ∨
      ∃ page next, s.phase = .replaying highWater page next) →
      t = { s with pending := s.pending.eraseIdx index, queue := s.queue ++ [event] } ∨
        t = { s with pending := s.pending.eraseIdx index, queue := s.queue.tail ++ [event], dropped := s.dropped + 1 } →
      t.Sound c := by
    rintro t ⟨highWater, hsubscribed⟩ ht
    have hsame : t.frames = s.frames ∧ t.table = s.table ∧ t.filter = s.filter ∧ t.phase = s.phase := by
      rcases ht with rfl | rfl
      · exact ⟨rfl, rfl, rfl, rfl⟩
      · exact ⟨rfl, rfl, rfl, rfl⟩
    have hsent : t.sent = s.sent := by rw [sent, hsame.1, sent]
    have howed : ∀ cursor, t.owed c cursor highWater = s.owed c cursor highWater := by
      intro cursor
      rw [owed, hsame.2.1, hsame.2.2.1, owed]
    refine ⟨by rw [hsame.1]; exact h.silent, ?_⟩
    have hphase := h.inPhase
    rw [hsame.2.2.2]
    rcases hsubscribed with hs | ⟨page, next, hs⟩
    · rw [hs] at hphase ⊢
      rcases hphase with ⟨hgapped, hnone⟩ | ⟨hplain, taken, hflow, htaken⟩
      · refine .inl ⟨?_, hsent.trans hnone⟩
        rw [Gapped, hsame.1]
        exact hgapped
      · refine .inr ⟨?_, taken, hflow.publish hindex (hgood highWater (.inl hs) event hindex) ht, ?_⟩
        · rw [Plain, hsame.1]
          exact hplain
        · rw [hsent, howed, htaken]
    · rw [hs] at hphase ⊢
      obtain ⟨hplain, hflow, hpaged, hrest⟩ := hphase
      refine ⟨?_, hflow.publish hindex (hgood highWater (.inr ⟨page, next, hs⟩) event hindex) ht, hpaged, ?_⟩
      · rw [Plain, hsame.1]
        exact hplain
      · have hupcoming : t.upcoming c highWater page next = s.upcoming c highWater page next := by
          cases next with
          | none => rfl
          | some cursor => simp only [upcoming, Option.elim_some, howed]
        rw [hsent, hupcoming, howed, hrest]
  unfold CliStream.publish
  cases hs : s.phase with
  | connecting =>
    refine ⟨h.silent, ?_⟩
    have hphase := h.inPhase
    rw [hs] at hphase
    obtain ⟨hplain, hsent, hqueue, hdropped, hpending⟩ := hphase
    exact ⟨hplain, hsent, hqueue, hdropped, fun e he => hpending e (mem_of_mem_eraseIdx he)⟩
  | replaying highWater page next =>
    refine hqueued _ ⟨highWater, .inr ⟨page, next, hs⟩⟩ ?_
    dsimp only
    split_ifs
    · exact .inr (by rw [hs])
    · exact .inl (by rw [hs])
  | listening highWater =>
    refine hqueued _ ⟨highWater, .inl hs⟩ ?_
    dsimp only
    split_ifs
    · exact .inr (by rw [hs])
    · exact .inl (by rw [hs])
  | closed =>
    refine ⟨h.silent, ?_⟩
    have hphase := h.inPhase
    rw [hs] at hphase
    exact hphase

lemma Sound.close (h : s.Sound c) : Sound c { s with phase := .closed } := ⟨h.silent, h.ordered⟩

lemma pairwise_silent_append {frames later : List CliFrame}
    (h : frames.Pairwise fun f g => f.final = true → g.event? = none) (hlater : ∀ g ∈ later, g.event? = none) :
    (frames ++ later).Pairwise fun f g => f.final = true → g.event? = none := by
  refine pairwise_append.mpr ⟨h, ?_, fun f _ g hg _ => hlater g hg⟩
  exact pairwise_of_forall_mem_list fun f _ g hg _ => hlater g hg

lemma Sound.closeSlow (h : s.Sound c) (queue : List RuntimeEvent) :
    ({ s with queue := queue }.closeSlow).Sound c := by
  refine ⟨pairwise_silent_append h.silent ?_, ?_⟩
  · simp [CliFrame.event?]
  · change (s.send [.slowConsumer, .close 1013 "subscriber too slow"]).sent <+: s.wanted c
    have hnone : [CliFrame.slowConsumer, .close 1013 "subscriber too slow"].filterMap CliFrame.event? = [] := rfl
    rw [sent_send, hnone, append_nil]
    exact h.ordered

lemma pairwise_silent_event {frames : List CliFrame}
    (h : frames.Pairwise fun f g => f.final = true → g.event? = none) (hplain : ∀ f ∈ frames, f.final = false) :
    (frames ++ [CliFrame.event event]).Pairwise fun f g => f.final = true → g.event? = none := by
  refine pairwise_append.mpr ⟨h, pairwise_singleton _ _, fun f hf g _ hfinal => ?_⟩
  rw [hplain f hf] at hfinal
  cases hfinal

lemma Plain.send (h : s.Plain) {frame : CliFrame} (hframe : frame.final = false) : (s.send [frame]).Plain := by
  intro f hf
  rcases mem_append.mp hf with hf | hf
  · exact h f hf
  · rw [mem_singleton.mp hf]
    exact hframe

lemma Sound.readPage (h : s.Sound c) (hplain : s.Plain) {cursor : ℕ} (hflow : s.Flowing c highWater [])
    (hsent : s.sent ++ s.owed c cursor highWater = s.owed c c.afterSequence highWater) :
    (s.readPage c highWater cursor).Sound c := by
  rcases s.readPage_cases highWater cursor with hclosed | ⟨page, next, hread, hupcoming, hpaged⟩
  · rw [hclosed]
    exact h.close
  · rw [hread]
    refine ⟨h.silent, hplain, ⟨hflow.known, hflow.within, hflow.ordered, hflow.overflow⟩, hpaged, ?_⟩
    exact (congrArg (s.sent ++ ·) hupcoming).trans hsent

lemma Sound.subscribe (h : s.Sound c) (hs : s.phase = .connecting) : (s.subscribe c).Sound c := by
  have hphase := h.inPhase
  rw [hs] at hphase
  obtain ⟨hplain, hsent, hqueue, hdropped, hpending⟩ := hphase
  have hflow : s.Flowing c (latestSequence s.table) [] := by
    have hlive : s.live c (latestSequence s.table) = [] := by
      have hnone : behind sequence (passesPage c.allowedTargetIds s.filter)
          (max c.afterSequence (latestSequence s.table)) s.table.rows = [] := by
        refine filter_eq_nil_iff.mpr fun row hrow hbehind => ?_
        rw [Bool.and_eq_true, decide_eq_true_eq, max_lt_iff] at hbehind
        have := le_latestSequence hrow
        omega
      rw [live, hnone, map_nil]
    have hrelevant : s.relevant c (latestSequence s.table) s.pending = [] := by
      refine relevant_eq_nil fun event hevent hahead => ?_
      have := hpending event hevent
      have := hahead.1
      omega
    refine ⟨latestSequence_le s.table, fun _ => ?_, nil_prefix, fun hne => absurd hdropped hne⟩
    rw [hlive, hrelevant, hqueue]
    rfl
  unfold CliStream.subscribe
  dsimp only
  split_ifs with hgap
  · refine ⟨pairwise_silent_append h.silent (by simp [CliFrame.event?]), .inl ⟨?_, ?_⟩⟩
    · exact ⟨_, mem_append_right _ mem_cons_self, _, _, rfl⟩
    · change (s.send [.gap c.afterSequence (earliestSequence s.table),
        .close 1012 "event history no longer available"]).sent = []
      rw [sent_send, hsent]
      rfl
  · refine h.readPage hplain hflow ?_
    rw [hsent, nil_append]

lemma Sound.replay (h : s.Sound c) {page : List RuntimeEvent} {next : Option ℕ}
    (hs : s.phase = .replaying highWater page next) : (s.replay c highWater page next).Sound c := by
  have hphase := h.inPhase
  rw [hs] at hphase
  obtain ⟨hplain, hflow, hpaged, hsent⟩ := hphase
  have hflow' : ∀ phase, Flowing c { s with phase := phase } highWater [] :=
    fun phase => ⟨hflow.known, hflow.within, hflow.ordered, hflow.overflow⟩
  cases page with
  | nil =>
    cases next with
    | none =>
      refine ⟨h.silent, .inr ⟨hplain, [], hflow' _, ?_⟩⟩
      exact (append_nil _).symm.trans (hsent.trans (append_nil _).symm)
    | some cursor => exact h.readPage hplain hflow hsent
  | cons event page =>
    obtain ⟨hfirst, hrest⟩ := pairwise_cons.mp hpaged.increasing
    simp only [CliStream.replay]
    split_ifs with hbeyond
    · -- the rest of the page and every page behind it lie beyond the high water
      have hnone : s.upcoming c highWater (event :: page) next = [] := by
        refine append_eq_nil_iff.mpr ⟨?_, ?_⟩
        · refine filter_eq_nil_iff.mpr fun e he hle => ?_
          rw [decide_eq_true_eq] at hle
          rcases mem_cons.mp he with rfl | he
          · omega
          · have := hfirst e he
            omega
        · cases next with
          | none => rfl
          | some cursor =>
            have hcursor := hpaged.next_le cursor rfl event mem_cons_self
            rw [Option.elim_some, owed, map_eq_nil_iff]
            refine filter_eq_nil_iff.mpr fun row _ hbetween => ?_
            simp only [Bool.and_eq_true, decide_eq_true_eq] at hbetween
            omega
      rw [hnone] at hsent
      refine ⟨h.silent, .inr ⟨hplain, [], hflow' _, ?_⟩⟩
      exact (append_nil _).symm.trans (hsent.trans (append_nil _).symm)
    · refine ⟨pairwise_silent_event h.silent hplain, hplain.send rfl,
        ⟨hflow.known, hflow.within, hflow.ordered, hflow.overflow⟩, ⟨hrest, ?_⟩, ?_⟩
      · exact fun cursor hcursor e he => hpaged.next_le cursor hcursor e (mem_cons_of_mem _ he)
      · have hupcoming : s.upcoming c highWater (event :: page) next =
            event :: s.upcoming c highWater page next := by
          rw [upcoming, filter_cons_of_pos (by simpa using hbeyond), cons_append, upcoming]
        rw [hupcoming] at hsent
        have hevent : (s.send [.event event]).sent = s.sent ++ [event] := sent_send _
        refine Eq.trans ?_ hsent
        refine (congrArg (· ++ s.upcoming c highWater page next) hevent).trans ?_
        rw [append_assoc, singleton_append]

lemma accepts_iff_ahead {resolve : Option (String → Option String)}
    (hrefresh : refreshInvestigationFilter resolve s.filter = s.filter)
    (hdivides : EventFilter.divides c.allowedTargetIds s.filter event = false) (hlater : highWater < event.sequence) :
    (matchesFilter resolve c.allowedTargetIds s.filter event).1 = .ok true ↔ s.Ahead c highWater event := by
  have hpasses : passesPage c.allowedTargetIds s.filter (rowOf event event.sequence) = true ↔
      s.filter.concerns event = true ∧
        admitsTarget c.allowedTargetIds (payloadString event.payload "target_id") = true := by
    unfold passesPage filterParams
    cases htypes : runtimeEventTypes s.filter.eventTypes with
    | error message => simp [EventFilter.concerns, htypes, bind, Except.bind]
    | ok eventTypes =>
      have hselects := @selects_rowOf c.allowedTargetIds s.filter event eventTypes htypes event.sequence
      rw [← Bool.and_eq_true, ← hselects]
      rfl
  have hauthorizes := @authorizes_iff c.allowedTargetIds event
  rw [matchesFilter, hrefresh]
  change matchesRefreshed c.allowedTargetIds s.filter event = .ok true ↔ _
  rw [matchesRefreshed_iff, Ahead, hpasses]
  simp only [hlater, true_and]
  rw [EventFilter.divides, Bool.and_eq_false_iff] at hdivides
  rcases hdivides with hconcerns | hdivides
  · simp [hconcerns]
  · rw [hauthorizes.mpr hdivides]

lemma Sound.take (h : s.Sound c) {queue : List RuntimeEvent}
    {resolve : Option (String → Option String)} (hs : s.phase = .listening highWater) (hqueue : s.queue = event :: queue)
    (hgood : Orderly c s (.take resolve)) :
    ({ s with queue := queue }.handle c highWater resolve event).Sound c := by
  have hphase := h.inPhase
  rw [hs] at hphase
  have hsound : Sound c { s with phase := .closed } := h.close
  by_cases hdropped : s.dropped = 0
  · -- without the event, the queue holds the same live events unless it was one of them
    have hskip : ¬ s.Ahead c highWater event → Sound c { s with queue := queue } := by
      intro hnot
      refine ⟨h.silent, ?_⟩
      change InPhase c { s with queue := queue } s.phase
      rw [hs]
      rcases hphase with ⟨hgapped, hsent⟩ | ⟨hplain, taken, hflow, hsent⟩
      · exact .inl ⟨hgapped, hsent⟩
      · refine .inr ⟨hplain, taken, ⟨hflow.known, fun _ => ?_, hflow.ordered, fun hne => absurd hdropped hne⟩, hsent⟩
        have hwithin := hflow.within hdropped
        rw [hqueue, relevant_cons_of_not hnot] at hwithin
        exact hwithin
    rw [handle, if_neg (not_not.mpr hdropped)]
    split_ifs with hold
    · refine hskip fun hahead => ?_
      have := hahead.1
      omega
    · have hlater : highWater < event.sequence := Nat.lt_of_not_le hold
      have hhead : s.queue.head? = some event := by rw [hqueue, head?_cons]
      obtain ⟨hrefresh, hdivides, hsendable⟩ := hgood highWater event hs hhead hdropped hlater
      have haccepts := accepts_iff_ahead hrefresh hdivides hlater
      have hfilter : (matchesFilter resolve c.allowedTargetIds s.filter event).2 = s.filter := hrefresh
      dsimp only
      rw [hfilter]
      cases hverdict : (matchesFilter resolve c.allowedTargetIds s.filter event).1 with
      | error message => exact ⟨h.silent, h.ordered⟩
      | ok accepted =>
        cases accepted with
        | false =>
          refine hskip fun hahead => ?_
          rw [haccepts.mpr hahead] at hverdict
          cases hverdict
        | true =>
          have hahead := haccepts.mp hverdict
          obtain ⟨hafter, hgap⟩ := hsendable hahead
          rcases hphase with ⟨hgapped, -⟩ | ⟨hplain, taken, hflow, hsent⟩
          · exact absurd hgapped hgap
          · have hwithin := hflow.within hdropped
            rw [hqueue, relevant_cons_of_ahead hahead hafter, cons_append, ← singleton_append, ← append_assoc] at hwithin
            refine ⟨pairwise_silent_event h.silent hplain, ?_⟩
            change InPhase c (send { s with queue := queue } [.event event]) s.phase
            rw [hs]
            refine .inr ⟨Plain.send hplain rfl, taken ++ [event], ⟨hflow.known, fun _ => hwithin, ?_,
              fun hne => absurd hdropped hne⟩, ?_⟩
            · exact ⟨_, hwithin⟩
            · refine (sent_send _).trans ?_
              refine (congrArg (· ++ [event]) hsent).trans ?_
              exact append_assoc _ _ _
  · rw [handle, if_pos hdropped]
    exact h.closeSlow queue

lemma Sound.idle (h : s.Sound c) (hs : s.phase = .listening highWater) : (s.send [.heartbeat]).Sound c := by
  have hphase := h.inPhase
  rw [hs] at hphase
  have hsent : (s.send [.heartbeat]).sent = s.sent := (sent_send _).trans (append_nil _)
  refine ⟨pairwise_silent_append h.silent (by simp [CliFrame.event?]), ?_⟩
  change InPhase c (s.send [.heartbeat]) s.phase
  rw [hs]
  rcases hphase with ⟨⟨frame, hframe, hgap⟩, hnone⟩ | ⟨hplain, taken, hflow, htaken⟩
  · exact .inl ⟨⟨frame, mem_append_left _ hframe, hgap⟩, hsent.trans hnone⟩
  · exact .inr ⟨Plain.send hplain rfl, taken, ⟨hflow.known, hflow.within, hflow.ordered, hflow.overflow⟩,
      hsent.trans htaken⟩

lemma append_eq_grow {event stored : RuntimeEvent} {table : EventTable}
    (h : append s.table event = .ok (stored, table)) :
    { s with table := table, pending := s.pending ++ [stored] } = s.grow event := by
  unfold append at h
  split_ifs at h with hunique
  cases h
  rfl

lemma Sound.step {t : CliStream} {move : CliMove} (h : s.Sound c) (hgood : Orderly c s move)
    (hstep : s.step c move = some t) : t.Sound c := by
  cases move with
  | append event =>
    have hgrow : (match append s.table event with
        | .ok (stored, table) => some { s with table := table, pending := s.pending ++ [stored] }
        | .error _ => none) = some t → t.Sound c := by
      intro hstep
      cases happend : append s.table event with
      | error message =>
        rw [happend] at hstep
        cases hstep
      | ok out =>
        rw [happend] at hstep
        cases hstep
        have hgrown := h.grow event
        rw [← append_eq_grow happend] at hgrown
        exact hgrown
    cases hs : s.phase with
    | closed => simp [CliStream.step, hs] at hstep
    | connecting =>
      unfold CliStream.step at hstep
      rw [hs] at hstep hgrow
      exact hgrow hstep
    | replaying highWater page next =>
      unfold CliStream.step at hstep
      rw [hs] at hstep hgrow
      exact hgrow hstep
    | listening highWater =>
      unfold CliStream.step at hstep
      rw [hs] at hstep hgrow
      exact hgrow hstep
  | publish index =>
    have hpublish : (s.pending[index]?).map (fun event =>
        { s with pending := s.pending.eraseIdx index }.publish c event) = some t → t.Sound c := by
      intro hstep
      obtain ⟨event, hindex, hout⟩ := Option.map_eq_some_iff.mp hstep
      cases hout
      exact h.publish hindex hgood
    cases hs : s.phase with
    | closed => simp [CliStream.step, hs] at hstep
    | connecting =>
      unfold CliStream.step at hstep
      rw [hs] at hstep hpublish
      exact hpublish hstep
    | replaying highWater page next =>
      unfold CliStream.step at hstep
      rw [hs] at hstep hpublish
      exact hpublish hstep
    | listening highWater =>
      unfold CliStream.step at hstep
      rw [hs] at hstep hpublish
      exact hpublish hstep
  | subscribe =>
    cases hs : s.phase with
    | connecting =>
      simp only [CliStream.step, hs] at hstep
      cases hstep
      exact h.subscribe hs
    | _ => simp [CliStream.step, hs] at hstep
  | replay =>
    cases hs : s.phase with
    | replaying highWater page next =>
      simp only [CliStream.step, hs] at hstep
      cases hstep
      exact h.replay hs
    | _ => simp [CliStream.step, hs] at hstep
  | take resolve =>
    cases hs : s.phase with
    | listening highWater =>
      cases hqueue : s.queue with
      | nil => simp [CliStream.step, hs, hqueue] at hstep
      | cons event queue =>
        have htaken := h.take hs hqueue hgood
        simp only [CliStream.step, hs, hqueue, Option.some.injEq] at hstep
        rw [← hstep]
        rwa [hs] at htaken
    | _ => simp [CliStream.step, hs] at hstep
  | idle =>
    cases hs : s.phase with
    | listening highWater =>
      simp only [CliStream.step, hs] at hstep
      split_ifs at hstep with hqueue hdropped
      · cases hstep
        exact h.closeSlow s.queue
      · cases hstep
        exact h.idle hs
    | _ => simp [CliStream.step, hs] at hstep
  | disconnect =>
    cases hs : s.phase with
    | closed => simp [CliStream.step, hs] at hstep
    | _ =>
      simp only [CliStream.step, hs, Option.some.injEq] at hstep
      rw [← hstep]
      exact h.close

end
end CliStream

/-- Where publications keep the order of the store and none is divided, every subscriber is sent
what it is owed. -/
theorem cli_events_delivered (c : CliConnection) (table : EventTable) (filter : EventFilter) (s : CliStream)
    (hs : (cliEvents c table filter).Reached (Orderly c) s) : s.Delivers c := by
  have hsound : s.Sound c := by
    refine hs.invariant ?_ fun _ _ _ hsound hgood hstep => hsound.step hgood hstep
    refine ⟨pairwise_singleton _ _, ?_, rfl, rfl, rfl, ?_⟩
    · intro frame hframe
      rw [mem_singleton.mp hframe]
      rfl
    · rintro event ⟨⟩
  exact hsound.delivers

def progress (eventId : String) : RuntimeEvent := ⟨eventId, 0, .logBatchWritten, "2026-01-01T00:00:00+00:00", []⟩

def prunedTable : EventTable where
  rows := [rowOf (progress "evt-5") 5]
  assigned := 5
  increasing := pairwise_singleton _ _
  bounded := by simp [rowOf]

/-- A later event is published before an earlier one; events go on after a gap; and a cursor
ahead of the store does not hold events back. -/
theorem cli_events_undelivered :
    (∃ s, (cliEvents ⟨0, none, 256⟩ {} {}).runFrom { table := {}, filter := {} }
        [.subscribe, .replay, .append (progress "evt-1"), .append (progress "evt-2"), .publish 1, .publish 0,
          .take none, .take none] = some s ∧
      s.sent.map (·.sequence) = [2, 1] ∧ ¬ s.Delivers ⟨0, none, 256⟩) ∧
    (∃ s, (cliEvents ⟨1, none, 256⟩ prunedTable {}).runFrom { table := prunedTable, filter := {} }
        [.subscribe, .append (progress "evt-6"), .publish 0, .take none] = some s ∧
      s.frames = [.hello, .gap 1 5, .close 1012 "event history no longer available",
        .event { progress "evt-6" with sequence := 6 }] ∧ ¬ s.Delivers ⟨1, none, 256⟩) ∧
    ∃ s, (cliEvents ⟨10, none, 256⟩ {} {}).runFrom { table := {}, filter := {} }
        [.subscribe, .replay, .append (progress "evt-1"), .publish 0, .take none] = some s ∧
      s.sent.map (·.sequence) = [1] ∧ ¬ s.Delivers ⟨10, none, 256⟩ := by
  refine ⟨⟨_, rfl, rfl, fun h => ?_⟩, ⟨_, rfl, rfl, fun h => ?_⟩, _, rfl, rfl, fun h => ?_⟩
  · have hlt := (pairwise_cons.mp h.increasing).1 { progress "evt-1" with sequence := 1 } mem_cons_self
    exact absurd hlt (by decide)
  · have hrest := (pairwise_cons.mp h.silent).2
    have hnone := (pairwise_cons.mp hrest).1 (.event { progress "evt-6" with sequence := 6 })
      (mem_cons_of_mem _ mem_cons_self) rfl
    cases hnone
  · obtain ⟨later, hwanted⟩ := h.ordered
    cases hwanted

lemma orderly_publish_first (c : CliConnection) (s : CliStream) : Orderly c s (.publish 0) := by
  rintro - - - - - earlier ⟨⟩

/-- An event that is appended and published after the replay is sent. -/
theorem published_event_delivered : ∃ s, (cliEvents ⟨0, none, 256⟩ {} {}).runFrom { table := {}, filter := {} }
      [.subscribe, .replay, .append (progress "evt-1"), .publish 0, .take none] = some s ∧
    s.sent.map (·.sequence) = [1] ∧ s.Delivers ⟨0, none, 256⟩ := by
  refine ⟨_, rfl, rfl, cli_events_delivered ⟨0, none, 256⟩ {} {} _ (.next (.take none) (.next (.publish 0)
    (.next (.append (progress "evt-1")) (.next .replay (.next .subscribe .start trivial rfl) trivial rfl) trivial rfl)
    (orderly_publish_first _ _) rfl) ?_ rfl)⟩
  rintro highWater event - ⟨⟩ - hlater
  refine ⟨rfl, rfl, fun _ => ⟨Nat.one_pos, ?_⟩⟩
  rintro ⟨frame, hframe, requested, earliest, rfl⟩
  cases mem_singleton.mp hframe

end IncidentLens.Streams
