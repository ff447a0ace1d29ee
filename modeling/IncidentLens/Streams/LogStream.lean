import IncidentLens.Logs.Cursors
import IncidentLens.Logs.Pages
import IncidentLens.Logs.Subscriptions

/-!
# The live log stream

A subscriber is sent the stored records page by page up to a snapshot, and then the records
that the writer publishes, which wait in a bounded queue. A record is sent only if its sequence
is above the last one sent. The writer publishes records as they are before they are stored,
without a sequence, so none of them is ever sent: what a subscriber gets comes from the pages.
-/
namespace IncidentLens.Streams
open Effects Logs List Option

def pageSize : ℕ := 500

def maxUnacked : ℕ := 500

def liveQueueSize : ℕ := 256

structure CursorLogStream where
  allowedTargetIds : Option (List String) := none
  serviceId : Option String := none
  targetId : Option String := none
  severity : Option String := none
  sourceRef : Option String := none
  lastSequence : ℕ := 0
  ackSequence : ℕ := 0
  paused : Bool := false

/-- What is sent; sequences stand for their cursors. -/
inductive Frame
  | record (record : LogRecord)
  | gap (requestedCursor : Option String) (latest : ℕ)
  | subscribed (serviceId : Option String) (last : ℕ)
  | heartbeat (last : ℕ)
  | slowConsumer (last : ℕ)

/-- The keys of an update, each absent, null or a string. -/
structure FilterUpdate where
  serviceId : Option (Option String) := none
  targetId : Option (Option String) := none
  severity : Option (Option String) := none
  sourceRef : Option (Option String) := none

inductive ControlFrame
  | ack (cursor : Option String)
  | pause
  | resume (cursor : Option String)
  | update (action : FilterUpdate) (cursor : Option String)
  | other
  /-- Anything that is not an object. -/
  | malformed

/-- `if filter and filter != value`. -/
def passes (filter : Option String) (value : String) : Bool := filter.all fun f => f = "" || f = value

namespace CursorLogStream

def update (self : CursorLogStream) (action : FilterUpdate) : Except String CursorLogStream :=
  if (action.targetId.getD none).any fun target => self.allowedTargetIds.any fun ids => !ids.contains target then
    .error "target not allowed"
  else .ok { self with
    serviceId := action.serviceId.getD self.serviceId
    targetId := action.targetId.getD self.targetId
    severity := action.severity.getD self.severity
    sourceRef := action.sourceRef.getD self.sourceRef }

def ack (self : CursorLogStream) (cursor : Option String) : Except String CursorLogStream := do
  let value ← decodeLogCursor (cursor.getD "")
  return { self with ackSequence := max self.ackSequence (min value self.lastSequence) }

def pageQuery (self : CursorLogStream) (serviceId : String) (after snapshot : ℕ) : PageQuery where
  serviceName := serviceId
  afterSequence := some after
  snapshotSequence := some snapshot
  limit := pageSize
  severity := self.severity
  sourceRef := self.sourceRef
  allowedTargetIds := self.allowedTargetIds

def records (self : CursorLogStream) (rows : List LogRecord) (after snapshot : ℕ) :
    Except String (List LogRecord × Bool) :=
  match self.serviceId with
  | some serviceId => listProductPage rows (self.pageQuery serviceId after snapshot)
  | none => .error "AssertionError"

/-- What a live record has to pass before it is sent. -/
def accepts (self : CursorLogStream) (record : LogRecord) : Bool :=
  !self.paused && self.lastSequence < record.streamSequence && self.serviceId = some record.serviceName &&
    passes self.targetId record.targetId && passes self.severity record.severity.value &&
    passes self.sourceRef record.sourceRef

/-- `decode_log_cursor(cursor) if cursor else 0`. -/
def requested (cursor : Option String) : Except String ℕ :=
  match cursor with
  | some cursor => if cursor = "" then .ok 0 else decodeLogCursor cursor
  | none => .ok 0

end CursorLogStream

inductive Phase
  /-- The records of a page are being sent; `next` is where the page after it begins. -/
  | replaying (snapshot : ℕ) (page : List LogRecord) (next : Option ℕ) (initial : Bool)
  | listening
  | closed

/-- A subscriber over the store. `origin` is the cursor that its last replay started from, and
`unread` holds the rows that no replay with the present filter has looked at. -/
structure Subscriber where
  stream : CursorLogStream
  db : LogDatabase
  queue : List LogRecord := []
  drops : ℕ := 0
  phase : Phase := .listening
  frames : List Frame := []
  origin : ℕ := 0
  unread : List LogRecord := []

open Subscriber

namespace Subscriber

def send (s : Subscriber) (frame : Frame) : Subscriber := { s with frames := s.frames ++ [frame] }

def sendRecord (s : Subscriber) (record : LogRecord) : Subscriber :=
  { s.send (.record record) with stream := { s.stream with lastSequence := record.streamSequence } }

def turnPage (s : Subscriber) (current snapshot : ℕ) (initial : Bool) : Subscriber :=
  match s.stream.records s.db.rows current snapshot with
  | .ok (page, more) => { s with
    phase := .replaying snapshot page (if more then page.getLast?.map LogRecord.streamSequence else none) initial }
  | .error _ => { s with phase := .closed }

/-- `backlog` up to its first page. A cursor that cannot be read is answered with a gap, which
only closes a stream that has not begun. -/
def backlog (s : Subscriber) (cursor : Option String) (initial : Bool) : Subscriber :=
  match CursorLogStream.requested cursor with
  | .ok after =>
    let last := max s.stream.lastSequence after
    { s with stream := { s.stream with lastSequence := last }, origin := last, unread := [] }.turnPage after
      (latestProductSequence s.db.rows) initial
  | .error _ => { s.send (.gap cursor (latestProductSequence s.db.rows)) with
    phase := if initial then .closed else .listening
    origin := s.stream.lastSequence
    unread := s.db.rows }

/-- The replay goes on by one record, or by one page. -/
def replay (s : Subscriber) (snapshot : ℕ) (page : List LogRecord) (next : Option ℕ) (initial : Bool) : Subscriber :=
  match page, next with
  | record :: page, next =>
    let s := { s with phase := .replaying snapshot page next initial }
    if record.streamSequence ≤ s.stream.lastSequence then s else s.sendRecord record
  | [], some current => s.turnPage current snapshot initial
  | [], none =>
    let s := { s with phase := .listening }
    if initial then s.send (.subscribed s.stream.serviceId s.stream.lastSequence) else s

def control (s : Subscriber) : ControlFrame → Subscriber
  | .malformed => { s with phase := .closed }
  | .ack cursor => match s.stream.ack cursor with
    | .ok stream => { s with stream := stream }
    | .error _ => { s with phase := .closed }
  | .pause => { s with stream := { s.stream with paused := true } }
  | .resume cursor => { s with stream := { s.stream with paused := false } }.backlog cursor false
  | .update action cursor => match s.stream.update action with
    | .ok stream => { s with stream := stream }.backlog cursor false
    | .error _ => { s with phase := .closed }
  | .other => s

/-- A record from the live queue. -/
def live (s : Subscriber) (record : LogRecord) : Subscriber :=
  if s.stream.accepts record then
    if maxUnacked ≤ s.stream.lastSequence - s.stream.ackSequence then
      { s.send (.slowConsumer s.stream.lastSequence) with phase := .closed }
    else s.sendRecord record
  else s

/-- `_publish_live`: a full queue loses its oldest record. -/
def publishLive (s : Subscriber) (record : LogRecord) : Subscriber :=
  if record.subscriptionId = none then s
  else if liveQueueSize ≤ s.queue.length then { s with queue := s.queue.tail ++ [record], drops := s.drops + 1 }
  else { s with queue := s.queue ++ [record] }

def stored (s : Subscriber) (db : LogDatabase) : Subscriber :=
  { s with db := db, unread := s.unread ++ db.rows.drop s.db.rows.length }

end Subscriber

inductive StreamMove
  /-- The writer of any subscription persists and publishes a batch. -/
  | batch (subscription : LogSubscription) (lines : List RawLogLine) (logIds : List String) (now : Time) (fault : Fault)
  /-- A query persists records, which are not published. -/
  | append (records : List LogRecord)
  | replay
  /-- A control frame; `withRecord` if a live record was taken from the queue in the same round. -/
  | control (frame : ControlFrame) (withRecord : Bool)
  | live
  | heartbeat
  | disconnect

section System
variable (pipeline : Pipeline)

def stream (s : Subscriber) (move : StreamMove) : Option Subscriber :=
  match s.phase, move with
  | .closed, _ => none
  | _, .batch subscription lines logIds now fault =>
    if lines ≠ [] ∧ logIds.length = lines.length then
      let written := writeBatch pipeline subscription lines logIds now fault s.db
      some (written.2.foldl publishLive (s.stored written.1))
    else none
  | _, .append records => some (s.stored { s.db with rows := (appendBatch s.db.rows records).1 })
  | _, .disconnect => some { s with phase := .closed }
  | .replaying snapshot page next initial, .replay => some (s.replay snapshot page next initial)
  | .listening, .control frame withRecord =>
    if withRecord then
      if s.queue = [] then none else some ({ s with queue := s.queue.tail }.control frame)
    else some (s.control frame)
  | .listening, .live => match s.queue with
    | record :: queue => some ({ s with queue := queue }.live record)
    | [] => none
  | .listening, .heartbeat => if s.queue = [] then some (s.send (.heartbeat s.stream.lastSequence)) else none
  | _, _ => none

/-- A subscriber connects over the rows of a store. -/
def streaming (rows : List LogRecord) (self : CursorLogStream) (cursor : Option String) : System Subscriber StreamMove where
  init := { stream := self, db := ⟨rows, fun _ => none⟩, origin := self.lastSequence : Subscriber }.backlog cursor true
  step := stream pipeline

end System

/-! ### What a subscriber is owed -/

def Frame.sequence? : Frame → Option ℕ
  | .record r => some r.streamSequence
  | _ => none

def CursorLogStream.finds (self : CursorLogStream) (record : LogRecord) : Bool :=
  self.serviceId.any fun serviceId => (self.pageQuery serviceId 0 0).admits record

def CursorLogStream.wants (self : CursorLogStream) (record : LogRecord) : Bool :=
  self.finds record && passes self.targetId record.targetId

namespace Subscriber

def sent (s : Subscriber) : List ℕ := s.frames.filterMap Frame.sequence?

/-- Every stored record that the filter lets through and that is above the cursor was sent. -/
def Complete (s : Subscriber) : Prop :=
  ∀ record ∈ s.db.rows, s.stream.wants record → s.origin < record.streamSequence → Frame.record record ∈ s.frames

/-- Nothing is left to be done: no replay, no record in the queue, no pause. -/
def Settled (s : Subscriber) : Prop := s.phase = .listening ∧ s.queue = [] ∧ s.stream.paused = false

/-- Records are sent once each, in the order of their sequences, and all of them in the end. -/
def Delivered (s : Subscriber) : Prop := s.sent.Pairwise (· < ·) ∧ (s.Settled → s.Complete)

/-- The last replay with the present filter has looked at every record that is wanted. -/
def AllRead (s : Subscriber) : Prop := ∀ record ∈ s.unread, s.stream.wants record → record.streamSequence ≤ s.origin

end Subscriber

/-- No wanted record is stored after the replay began, and no replay fails for its cursor. -/
def Quiet (pipeline : Pipeline) (s : Subscriber) : StreamMove → Prop
  | .batch subscription lines logIds now fault =>
    ∀ record ∈ (writeBatch pipeline subscription lines logIds now fault s.db).1.rows.drop s.db.rows.length,
      s.stream.wants record → record.streamSequence ≤ s.origin
  | .append records =>
    ∀ record ∈ (appendBatch s.db.rows records).1.drop s.db.rows.length,
      s.stream.wants record → record.streamSequence ≤ s.origin
  | .control (.resume cursor) _ => ∃ n, CursorLogStream.requested cursor = .ok n
  | .control (.update _ cursor) _ => ∃ n, CursorLogStream.requested cursor = .ok n
  | _ => True

/-! ### The invariant -/

/-- What holds between the store, the queue and what was sent, in whatever phase. -/
structure Grounded (s : Subscriber) : Prop where
  sequenced : Sequenced s.db.rows
  unsequenced : ∀ record ∈ s.queue, record.streamSequence = 0
  stored : ∀ record ∈ s.unread, record ∈ s.db.rows
  increasing : s.sent.Pairwise (· < ·)
  bounded : ∀ n ∈ s.sent, n ≤ s.stream.lastSequence
  origin_le : s.origin ≤ s.stream.lastSequence
  last_le : s.stream.lastSequence ≤ max s.origin (latestProductSequence s.db.rows)
  later : ∀ record ∈ s.unread, s.origin < record.streamSequence → s.stream.lastSequence < record.streamSequence

/-- Every row that was read and found was sent, or else is as `rest` says. -/
def Covered (s : Subscriber) (rest : LogRecord → Prop) : Prop :=
  ∀ record ∈ s.db.rows, record ∉ s.unread → s.stream.finds record → s.origin < record.streamSequence →
    Frame.record record ∈ s.frames ∨ rest record

structure Midway (s : Subscriber) (snapshot : ℕ) (page : List LogRecord) (next : Option ℕ) : Prop where
  latest : snapshot ≤ latestProductSequence s.db.rows
  unread : ∀ record ∈ s.unread, snapshot < record.streamSequence
  read : ∀ record ∈ s.db.rows, record ∉ s.unread → record.streamSequence ≤ snapshot
  page_le : ∀ record ∈ page, record.streamSequence ≤ snapshot
  sorted : page.Pairwise fun a b => a.streamSequence < b.streamSequence
  ahead : ∀ record ∈ page, s.stream.lastSequence = s.origin ∨ s.stream.lastSequence < record.streamSequence
  next_le : ∀ current ∈ next, s.stream.lastSequence ≤ max s.origin current ∧
    ∀ record ∈ page, record.streamSequence ≤ current
  covered : Covered s fun record => record ∈ page ∨ ∃ current ∈ next, current < record.streamSequence

def InPhase (s : Subscriber) : Phase → Prop
  | .replaying snapshot page next _ => Midway s snapshot page next
  | .listening => Covered s fun _ => False
  | .closed => True

structure Faithful (s : Subscriber) : Prop extends Grounded s where
  inPhase : InPhase s s.phase

section Steps
variable {s : Subscriber}

lemma sent_send_other {frame : Frame} (h : frame.sequence? = none) : (s.send frame).sent = s.sent := by
  simp [sent, send, h]

lemma sent_sendRecord (record : LogRecord) : (s.sendRecord record).sent = s.sent ++ [record.streamSequence] := by
  simp [sent, sendRecord, send, Frame.sequence?]

lemma Covered.mono {rest rest' : LogRecord → Prop} (h : Covered s rest) (himp : ∀ record, rest record → rest' record) :
    Covered s rest' := by
  intro record hrow hread hfinds habove
  exact (h record hrow hread hfinds habove).imp_right (himp record)

lemma Grounded.send (h : Grounded s) {frame : Frame} (hframe : frame.sequence? = none) : Grounded (s.send frame) where
  sequenced := h.sequenced
  unsequenced := h.unsequenced
  stored := h.stored
  increasing := by
    rw [sent_send_other hframe]
    exact h.increasing
  bounded := by
    rw [sent_send_other hframe]
    exact h.bounded
  origin_le := h.origin_le
  last_le := h.last_le
  later := h.later

lemma finds_eq {self : CursorLogStream} {serviceId : String} (h : self.serviceId = some serviceId)
    (record : LogRecord) (after snapshot : ℕ) :
    self.finds record = (self.pageQuery serviceId after snapshot).admits record := by
  rw [CursorLogStream.finds, h]
  rfl

variable {initial : Bool}

lemma Grounded.turnPage (h : Grounded s) {current snapshot : ℕ}
    (hlatest : snapshot ≤ latestProductSequence s.db.rows) (hunread : ∀ record ∈ s.unread, snapshot < record.streamSequence)
    (hread : ∀ record ∈ s.db.rows, record ∉ s.unread → record.streamSequence ≤ snapshot)
    (hlast : s.stream.lastSequence ≤ max s.origin current)
    (hcovered : Covered s fun record => current < record.streamSequence) :
    Faithful (s.turnPage current snapshot initial) := by
  unfold Subscriber.turnPage
  cases hrecords : s.stream.records s.db.rows current snapshot with
  | error message => exact { h with inPhase := by trivial }
  | ok answer =>
    obtain ⟨page, more⟩ := answer
    obtain ⟨serviceId, hservice⟩ : ∃ serviceId, s.stream.serviceId = some serviceId := by
      cases hservice : s.stream.serviceId with
      | none => simp [CursorLogStream.records, hservice] at hrecords
      | some serviceId => exact ⟨serviceId, rfl⟩
    rw [CursorLogStream.records, hservice] at hrecords
    obtain ⟨hsorted, hmem, hall⟩ := listProductPage_after h.sequenced rfl hrecords
    have hbounds : ∀ record, (s.stream.pageQuery serviceId current snapshot).bounds record ↔
        record.streamSequence ≤ snapshot ∧ current < record.streamSequence := by
      intro record
      exact bounds_after rfl rfl rfl
    have hle : ∀ c ∈ (if more then page.getLast?.map LogRecord.streamSequence else none),
        current < c ∧ ∀ record ∈ page, record.streamSequence ≤ c := by
      intro c hc
      split_ifs at hc
      · obtain ⟨last, hlast, rfl⟩ := map_eq_some_iff.mp hc
        obtain ⟨before, rfl⟩ := getLast?_eq_some_iff.mp hlast
        refine ⟨((hbounds last).mp (hmem last (by simp)).2.2).2, fun record hrecord => ?_⟩
        rw [mem_append, mem_singleton] at hrecord
        cases hrecord with
        | inl hrecord => exact ((pairwise_append.mp hsorted).2.2 _ hrecord _ (by simp)).le
        | inr hrecord => rw [hrecord]
      · cases hc
    refine { h with inPhase := ?_ }
    refine ⟨hlatest, hunread, hread, fun record hrecord => ((hbounds record).mp (hmem record hrecord).2.2).1, hsorted,
      fun record hrecord => ?_, fun c hc => ⟨?_, (hle c hc).2⟩, ?_⟩
    · have := ((hbounds record).mp (hmem record hrecord).2.2).2
      have := h.origin_le
      dsimp only
      omega
    · have := (hle c hc).1
      dsimp only
      omega
    · intro record hrow hnew hfinds habove
      cases hcovered record hrow hnew hfinds habove with
      | inl hsent => exact .inl hsent
      | inr hbehind =>
        have hadmits : (s.stream.pageQuery serviceId current snapshot).admits record := by
          rw [← finds_eq hservice]
          exact hfinds
        cases hall record hrow hadmits ((hbounds record).mpr ⟨hread record hrow hnew, hbehind⟩) with
        | inl hpage => exact .inr (.inl hpage)
        | inr hbeyond =>
          obtain ⟨rfl, last, hlast, hlt⟩ := hbeyond
          exact .inr (.inr ⟨last.streamSequence, by simp [hlast], hlt⟩)

lemma Grounded.backlog (h : Grounded s) (cursor : Option String) (initial : Bool) :
    Faithful (s.backlog cursor initial) := by
  unfold Subscriber.backlog
  cases CursorLogStream.requested cursor with
  | error message =>
    have hsend := @Grounded.send s h (.gap cursor (latestProductSequence s.db.rows)) rfl
    refine ⟨⟨h.sequenced, h.unsequenced, fun _ hr => hr, hsend.increasing, hsend.bounded, le_rfl, le_max_left _ _,
      fun _ _ hlt => hlt⟩, ?_⟩
    cases initial with
    | true => trivial
    | false =>
      intro record hrow hnew
      exact absurd hrow hnew
  | ok after =>
    dsimp only
    apply Grounded.turnPage
    · refine ⟨h.sequenced, h.unsequenced, by simp, h.increasing, fun n hn => ?_, le_rfl, le_max_left _ _, by simp⟩
      exact (h.bounded n hn).trans (le_max_left _ _)
    · exact le_rfl
    · simp
    · intro record hrow _
      exact le_latestProductSequence hrow
    · exact le_max_left _ _
    · intro record _ _ _ habove
      exact .inr ((le_max_right _ _).trans_lt habove)

lemma Grounded.head (h : Grounded s) {snapshot : ℕ} {record : LogRecord} {page : List LogRecord} {next : Option ℕ}
    (hmid : Midway s snapshot (record :: page) next) :
    Faithful (s.replay snapshot (record :: page) next initial) := by
  have hsorted := pairwise_cons.mp hmid.sorted
  have hstart := hmid.ahead record mem_cons_self
  unfold replay
  dsimp only
  split_ifs with hpast
  · -- it is not above the cursor, so nobody waits for it
    refine ⟨{ h with }, hmid.latest, hmid.unread, hmid.read,
      fun r hr => hmid.page_le r (mem_cons_of_mem _ hr), hsorted.2,
      fun r hr => hmid.ahead r (mem_cons_of_mem _ hr), fun c hc =>
        ⟨(hmid.next_le c hc).1, fun r hr => (hmid.next_le c hc).2 r (mem_cons_of_mem _ hr)⟩, ?_⟩
    intro r hrow hread hfinds habove
    rcases hmid.covered r hrow hread hfinds habove with hsent | hpage | hnext
    · exact .inl hsent
    · cases mem_cons.mp hpage with
      | inl hhead =>
        have habove : s.origin < r.streamSequence := habove
        rw [hhead] at habove
        omega
      | inr htail => exact .inr (.inl htail)
    · exact .inr (.inr hnext)
  · have hsnapshot := hmid.page_le record mem_cons_self
    have hlatest := hmid.latest
    refine ⟨⟨h.sequenced, h.unsequenced, h.stored, ?_, ?_, ?_, ?_, ?_⟩, hmid.latest, hmid.unread, hmid.read,
      fun r hr => hmid.page_le r (mem_cons_of_mem _ hr), hsorted.2, fun r hr => .inr (hsorted.1 r hr),
      fun c hc => ⟨?_, fun r hr => (hmid.next_le c hc).2 r (mem_cons_of_mem _ hr)⟩, ?_⟩
    · rw [sent_sendRecord, pairwise_append]
      refine ⟨h.increasing, pairwise_singleton _ _, fun n hn m hm => ?_⟩
      have := h.bounded n hn
      rw [mem_singleton.mp hm]
      omega
    · intro n hn
      rw [sent_sendRecord, mem_append, mem_singleton] at hn
      change n ≤ record.streamSequence
      cases hn with
      | inl hn =>
        have := h.bounded n hn
        omega
      | inr hn => exact hn.le
    · have := h.origin_le
      change s.origin ≤ record.streamSequence
      omega
    · exact le_max_of_le_right (hsnapshot.trans hlatest)
    · intro r hr _
      exact hsnapshot.trans_lt (hmid.unread r hr)
    · exact le_max_of_le_right ((hmid.next_le c hc).2 record mem_cons_self)
    · intro r hrow hread hfinds habove
      rcases hmid.covered r hrow hread hfinds habove with hsent | hpage | hnext
      · exact .inl (mem_append_left _ hsent)
      · cases mem_cons.mp hpage with
        | inl hhead =>
          rw [hhead]
          exact .inl (mem_append_right _ (mem_singleton_self _))
        | inr htail => exact .inr (.inl htail)
      · exact .inr (.inr hnext)

lemma Grounded.replay (h : Grounded s) {snapshot : ℕ} {page : List LogRecord} {next : Option ℕ}
    (hmid : Midway s snapshot page next) : Faithful (s.replay snapshot page next initial) := by
  cases page with
  | cons record page => exact h.head hmid
  | nil =>
    cases next with
    | some current =>
      refine h.turnPage hmid.latest hmid.unread hmid.read (hmid.next_le current rfl).1 ?_
      refine hmid.covered.mono fun r hr => ?_
      simpa using hr
    | none =>
      have hcovered : Covered s fun _ => False := hmid.covered.mono (by simp)
      cases initial with
      | false => exact { h with inPhase := hcovered }
      | true =>
        have hframe := @Grounded.send s h (.subscribed s.stream.serviceId s.stream.lastSequence) rfl
        refine ⟨{ hframe with }, ?_⟩
        intro record hrow hread hfinds habove
        exact (hcovered record hrow hread hfinds habove).imp_left (mem_append_left _)

/-- The phase does not look at the queue, at the acknowledgements or at a pause, and it stays
as it is when frames are added. -/
theorem InPhase.keep {t : Subscriber} {phase : Phase} (h : InPhase s phase) (hdb : t.db = s.db)
    (hlast : t.stream.lastSequence = s.stream.lastSequence) (hfinds : t.stream.finds = s.stream.finds)
    (horigin : t.origin = s.origin) (hunread : t.unread = s.unread) (hframes : s.frames ⊆ t.frames) :
    InPhase t phase := by
  have hcover : ∀ rest, Covered s rest → Covered t rest := by
    intro rest hrest record hrow hread hfind habove
    rw [hdb] at hrow
    rw [hunread] at hread
    rw [hfinds] at hfind
    rw [horigin] at habove
    exact (hrest record hrow hread hfind habove).imp_left fun hsent => hframes hsent
  cases phase with
  | closed => trivial
  | listening => exact hcover _ h
  | replaying snapshot page next initial =>
    refine ⟨?_, ?_, ?_, h.page_le, h.sorted, ?_, ?_, hcover _ h.covered⟩
    · rw [hdb]
      exact h.latest
    · rw [hunread]
      exact h.unread
    · rw [hdb, hunread]
      exact h.read
    · rw [hlast, horigin]
      exact h.ahead
    · rw [hlast, horigin]
      exact h.next_le

lemma Faithful.requeue (h : Faithful s) {queue : List LogRecord} {drops : ℕ}
    (hqueue : ∀ record ∈ queue, record.streamSequence = 0) : Faithful { s with queue := queue, drops := drops } :=
  ⟨{ h with unsequenced := hqueue }, h.inPhase.keep rfl rfl rfl rfl rfl (List.Subset.refl _)⟩

lemma Grounded.settings (h : Grounded s) {self : CursorLogStream} (hlast : self.lastSequence = s.stream.lastSequence) :
    Grounded { s with stream := self } where
  sequenced := h.sequenced
  unsequenced := h.unsequenced
  stored := h.stored
  increasing := h.increasing
  bounded := by
    rw [hlast]
    exact h.bounded
  origin_le := by
    rw [hlast]
    exact h.origin_le
  last_le := by
    rw [hlast]
    exact h.last_le
  later := by
    rw [hlast]
    exact h.later

lemma Faithful.close (h : Faithful s) : Faithful { s with phase := .closed } := ⟨{ h with }, trivial⟩

lemma Faithful.grow (h : Faithful s) {db : LogDatabase} {new : List LogRecord} (hrows : db.rows = s.db.rows ++ new)
    (hnew : ∀ record ∈ new, latestProductSequence s.db.rows < record.streamSequence) (hsequenced : Sequenced db.rows) :
    Faithful (s.stored db) := by
  have hdrop : db.rows.drop s.db.rows.length = new := by rw [hrows, drop_left]
  have hlatest : latestProductSequence s.db.rows ≤ latestProductSequence db.rows := by
    rw [hrows, latestProductSequence_append]
    exact Nat.le_max_left _ _
  have hmem : ∀ record ∈ db.rows, record ∉ s.unread ++ new → record ∈ s.db.rows ∧ record ∉ s.unread := by
    intro record hrow hread
    rw [hrows, mem_append] at hrow
    rw [mem_append, not_or] at hread
    exact ⟨hrow.resolve_right hread.2, hread.1⟩
  have hcover : ∀ rest, Covered s rest → Covered (s.stored db) rest := by
    intro rest hrest record hrow hread
    have hread : record ∉ s.unread ++ db.rows.drop s.db.rows.length := hread
    rw [hdrop] at hread
    exact hrest record (hmem record hrow hread).1 (hmem record hrow hread).2
  refine ⟨⟨hsequenced, h.unsequenced, ?_, h.increasing, h.bounded, h.origin_le, ?_, ?_⟩, ?_⟩
  · intro record hr
    change record ∈ s.unread ++ db.rows.drop s.db.rows.length at hr
    rw [hdrop, mem_append] at hr
    change record ∈ db.rows
    rw [hrows]
    cases hr with
    | inl hr => exact mem_append_left _ (h.stored record hr)
    | inr hr => exact mem_append_right _ hr
  · exact h.last_le.trans (max_le_max_left _ hlatest)
  · intro record hr habove
    change record ∈ s.unread ++ db.rows.drop s.db.rows.length at hr
    rw [hdrop, mem_append] at hr
    cases hr with
    | inl hr => exact h.later record hr habove
    | inr hr => exact h.last_le.trans_lt (max_lt habove (hnew record hr))
  · change InPhase (s.stored db) s.phase
    have hphase := h.inPhase
    cases hs : s.phase with
    | closed => trivial
    | listening =>
      rw [hs] at hphase
      exact hcover _ hphase
    | replaying snapshot page next initial =>
      rw [hs] at hphase
      refine ⟨hphase.latest.trans hlatest, fun record hr => ?_, fun record hrow hread => ?_, hphase.page_le, hphase.sorted,
        hphase.ahead, hphase.next_le, hcover _ hphase.covered⟩
      · change record ∈ s.unread ++ db.rows.drop s.db.rows.length at hr
        rw [hdrop, mem_append] at hr
        cases hr with
        | inl hr => exact hphase.unread record hr
        | inr hr => exact hphase.latest.trans_lt (hnew record hr)
      · have hread : record ∉ s.unread ++ db.rows.drop s.db.rows.length := hread
        rw [hdrop] at hread
        exact hphase.read record (hmem record hrow hread).1 (hmem record hrow hread).2

lemma live_of_unsequenced {record : LogRecord} (h : record.streamSequence = 0) : s.live record = s := by
  have haccepts : s.stream.accepts record = false := by simp [CursorLogStream.accepts, h]
  simp [live, haccepts]

lemma foldl_publishLive (s : Subscriber) (records : List LogRecord) :
    ∃ queue drops, records.foldl publishLive s = { s with queue := queue, drops := drops } ∧
      ∀ record ∈ queue, record ∈ s.queue ∨ record ∈ records := by
  induction records generalizing s with
  | nil => exact ⟨s.queue, s.drops, rfl, fun _ h => .inl h⟩
  | cons first records ih =>
    obtain ⟨queue, drops, hfold, hqueue⟩ := ih (s.publishLive first)
    have hfirst : ∃ q d, s.publishLive first = { s with queue := q, drops := d } ∧
        ∀ record ∈ q, record ∈ s.queue ∨ record = first := by
      unfold publishLive
      split_ifs
      · exact ⟨_, _, rfl, fun _ h => .inl h⟩
      · refine ⟨_, _, rfl, fun record h => ?_⟩
        rw [mem_append, mem_singleton] at h
        exact h.imp_left mem_of_mem_tail
      · refine ⟨_, _, rfl, fun record h => ?_⟩
        rwa [mem_append, mem_singleton] at h
    obtain ⟨q, d, hpublish, hq⟩ := hfirst
    rw [foldl_cons, hfold, hpublish]
    refine ⟨queue, drops, rfl, fun record h => ?_⟩
    cases hqueue record h with
    | inl h =>
      rw [hpublish] at h
      refine (hq record h).imp_right fun hfirst => ?_
      rw [hfirst]
      exact mem_cons_self
    | inr h => exact .inr (mem_cons_of_mem _ h)

lemma ack_eq_ok {self self' : CursorLogStream} {cursor : Option String} (h : self.ack cursor = .ok self') :
    ∃ n, self' = { self with ackSequence := n } := by
  unfold CursorLogStream.ack at h
  cases hvalue : decodeLogCursor (cursor.getD "") with
  | error message =>
    rw [hvalue] at h
    cases h
  | ok value =>
    rw [hvalue] at h
    exact ⟨_, (Except.ok.inj h).symm⟩

lemma update_lastSequence {self self' : CursorLogStream} {action : FilterUpdate} (h : self.update action = .ok self') :
    self'.lastSequence = self.lastSequence := by
  unfold CursorLogStream.update at h
  split_ifs at h
  rw [← Except.ok.inj h]

lemma Faithful.control (h : Faithful s) (frame : ControlFrame) : Faithful (s.control frame) := by
  cases frame with
  | malformed => exact h.close
  | other => exact h
  | pause => exact ⟨h.settings rfl, h.inPhase.keep rfl rfl rfl rfl rfl (List.Subset.refl _)⟩
  | ack cursor =>
    unfold Subscriber.control
    dsimp only
    cases hack : s.stream.ack cursor with
    | error message => exact h.close
    | ok self =>
      obtain ⟨n, rfl⟩ := ack_eq_ok hack
      exact ⟨h.settings rfl, h.inPhase.keep rfl rfl rfl rfl rfl (List.Subset.refl _)⟩
  | resume cursor =>
    have hgrounded := @Grounded.settings s h.toGrounded { s.stream with paused := false } rfl
    exact hgrounded.backlog cursor false
  | update action cursor =>
    unfold Subscriber.control
    dsimp only
    cases hupdate : s.stream.update action with
    | error message => exact h.close
    | ok self => exact (h.toGrounded.settings (update_lastSequence hupdate)).backlog cursor false

end Steps

section Runs
variable {pipeline : Pipeline} {s t : Subscriber}

def Does (pipeline : Pipeline) (s t : Subscriber) : StreamMove → Prop
  | .batch subscription lines logIds now fault =>
    t = (writeBatch pipeline subscription lines logIds now fault s.db).2.foldl publishLive
      (s.stored (writeBatch pipeline subscription lines logIds now fault s.db).1)
  | .append records => t = s.stored { s.db with rows := (appendBatch s.db.rows records).1 }
  | .replay => ∃ snapshot page next initial, s.phase = .replaying snapshot page next initial ∧
      t = s.replay snapshot page next initial
  | .control frame _ => ∃ queue ⊆ s.queue, t = { s with queue := queue }.control frame
  | .live => ∃ record queue, s.queue = record :: queue ∧ t = { s with queue := queue }.live record
  | .heartbeat => t = s.send (.heartbeat s.stream.lastSequence)
  | .disconnect => t = { s with phase := .closed }

variable {move : StreamMove}

lemma does_of_stream (h : stream pipeline s move = some t) : s.phase ≠ .closed ∧ Does pipeline s t move := by
  cases hphase : s.phase with
  | closed => simp [stream, hphase] at h
  | replaying snapshot page next initial =>
    refine ⟨by simp, ?_⟩
    cases move with
    | batch subscription lines logIds now fault =>
      simp only [stream, hphase] at h
      exact (some.inj (ite_none_right_eq_some.mp h).2).symm
    | append records =>
      simp only [stream, hphase] at h
      exact (some.inj h).symm
    | disconnect =>
      simp only [stream, hphase] at h
      exact (some.inj h).symm
    | replay =>
      simp only [stream, hphase] at h
      exact ⟨snapshot, page, next, initial, hphase, (some.inj h).symm⟩
    | control frame withRecord => simp [stream, hphase] at h
    | live => simp [stream, hphase] at h
    | heartbeat => simp [stream, hphase] at h
  | listening =>
    refine ⟨by simp, ?_⟩
    cases move with
    | batch subscription lines logIds now fault =>
      simp only [stream, hphase] at h
      exact (some.inj (ite_none_right_eq_some.mp h).2).symm
    | append records =>
      simp only [stream, hphase] at h
      exact (some.inj h).symm
    | disconnect =>
      simp only [stream, hphase] at h
      exact (some.inj h).symm
    | replay => simp [stream, hphase] at h
    | control frame withRecord =>
      simp only [stream, hphase] at h
      split_ifs at h
      · refine ⟨_, tail_subset _, ?_⟩
        rw [hphase]
        exact (some.inj h).symm
      · exact ⟨_, List.Subset.refl _, (some.inj h).symm⟩
    | live =>
      simp only [stream, hphase] at h
      cases hqueue : s.queue with
      | nil => simp [hqueue] at h
      | cons record queue =>
        rw [hqueue] at h
        refine ⟨record, queue, hqueue, ?_⟩
        rw [hphase]
        exact (some.inj h).symm
    | heartbeat =>
      simp only [stream, hphase] at h
      exact (some.inj (ite_none_right_eq_some.mp h).2).symm

lemma writeBatch_eq (subscription : LogSubscription) (lines : List RawLogLine) (logIds : List String) (now : Time)
    (fault : Fault) (db : LogDatabase) :
    ∃ records, (writeBatch pipeline subscription lines logIds now fault db).1.rows = (appendBatch db.rows records).1 ∧
      ∀ record ∈ (writeBatch pipeline subscription lines logIds now fault db).2, record.streamSequence = 0 := by
  by_cases hfault : fault = .persist
  · rw [hfault, writeBatch_persist]
    exact ⟨[], rfl, by simp⟩
  · refine ⟨_, writeBatch_rows hfault, fun record h => ?_⟩
    have hpublished : (writeBatch pipeline subscription lines logIds now fault db).2 =
        processRawLines pipeline subscription lines logIds now := by
      rw [writeBatch, if_neg hfault]
      cases lines.getLast? <;> rfl
    rw [hpublished] at h
    exact streamSequence_processRawLines _ _ _ h

lemma Faithful.appended (h : Faithful s) {db : LogDatabase} {records : List LogRecord}
    (hrows : db.rows = (appendBatch s.db.rows records).1) : Faithful (s.stored db) := by
  obtain ⟨new, happend, hnew, hsequenced⟩ := appendBatch_eq s.db.rows records
  rw [happend] at hrows
  refine h.grow hrows hnew ?_
  rw [hrows]
  exact hsequenced h.sequenced

lemma Faithful.step (h : Faithful s) (hstep : stream pipeline s move = some t) : Faithful t := by
  obtain ⟨-, hdoes⟩ := does_of_stream hstep
  cases move with
  | batch subscription lines logIds now fault =>
    obtain ⟨records, hrows, hpublished⟩ := @writeBatch_eq pipeline subscription lines logIds now fault s.db
    have hstored := h.appended hrows
    obtain ⟨queue, drops, hfold, hqueue⟩ := foldl_publishLive
      (s.stored (writeBatch pipeline subscription lines logIds now fault s.db).1)
      (writeBatch pipeline subscription lines logIds now fault s.db).2
    rw [Does, hfold] at hdoes
    rw [hdoes]
    refine hstored.requeue fun record hr => ?_
    cases hqueue record hr with
    | inl hr => exact hstored.unsequenced record hr
    | inr hr => exact hpublished record hr
  | append records =>
    rw [Does] at hdoes
    rw [hdoes]
    exact h.appended rfl
  | replay =>
    obtain ⟨snapshot, page, next, initial, hphase, rfl⟩ := hdoes
    have hmid := h.inPhase
    rw [hphase] at hmid
    exact h.toGrounded.replay hmid
  | control frame withRecord =>
    obtain ⟨queue, hsub, rfl⟩ := hdoes
    exact (h.requeue fun record hr => h.unsequenced record (hsub hr)).control frame
  | live =>
    obtain ⟨record, queue, hqueue, rfl⟩ := hdoes
    have hzero : ∀ r ∈ record :: queue, r.streamSequence = 0 := by
      rw [← hqueue]
      exact h.unsequenced
    rw [live_of_unsequenced (hzero record mem_cons_self)]
    exact h.requeue fun r hr => hzero r (mem_cons_of_mem _ hr)
  | heartbeat =>
    rw [Does] at hdoes
    rw [hdoes]
    exact ⟨h.toGrounded.send rfl, h.inPhase.keep rfl rfl rfl rfl rfl (subset_append_left _ _)⟩
  | disconnect =>
    rw [Does] at hdoes
    rw [hdoes]
    exact h.close

lemma Faithful.delivered_iff_settled (h : Faithful s) : s.Delivered ↔ (s.Settled → s.AllRead) := by
  refine ⟨fun hdelivered hsettled record hr hwants => ?_, fun hread => ⟨h.increasing, fun hsettled => ?_⟩⟩
  · by_contra habove
    have hsent := hdelivered.2 hsettled record (h.stored record hr) hwants (not_le.mp habove)
    have hle := h.bounded _ (mem_filterMap.mpr ⟨_, hsent, rfl⟩)
    have hlt := h.later record hr (not_le.mp habove)
    omega
  · intro record hrow hwants habove
    have hlistening := h.inPhase
    rw [hsettled.1] at hlistening
    by_cases hr : record ∈ s.unread
    · have := hread hsettled record hr hwants
      omega
    · have hfinds : s.stream.finds record := (Bool.and_eq_true_iff.mp hwants).1
      exact (hlistening record hrow hr hfinds habove).resolve_right id

/-! ### Quiet runs -/

lemma turnPage_keeps (current snapshot : ℕ) (initial : Bool) :
    (s.turnPage current snapshot initial).stream = s.stream ∧ (s.turnPage current snapshot initial).unread = s.unread ∧
      (s.turnPage current snapshot initial).origin = s.origin := by
  unfold turnPage
  cases s.stream.records s.db.rows current snapshot <;> exact ⟨rfl, rfl, rfl⟩

lemma replay_keeps (snapshot : ℕ) (page : List LogRecord) (next : Option ℕ) (initial : Bool) :
    (s.replay snapshot page next initial).stream.wants = s.stream.wants ∧
      (s.replay snapshot page next initial).unread = s.unread ∧
      (s.replay snapshot page next initial).origin = s.origin := by
  unfold replay
  cases page with
  | cons record page =>
    dsimp only
    split_ifs <;> exact ⟨rfl, rfl, rfl⟩
  | nil =>
    cases next with
    | some current =>
      obtain ⟨hstream, hunread, horigin⟩ := @turnPage_keeps s current snapshot initial
      exact ⟨by rw [hstream], hunread, horigin⟩
    | none => cases initial <;> exact ⟨rfl, rfl, rfl⟩

lemma allRead_backlog {cursor : Option String} {n : ℕ} (h : CursorLogStream.requested cursor = .ok n)
    (initial : Bool) : (s.backlog cursor initial).AllRead := by
  intro record hr
  rw [backlog, h] at hr
  dsimp only at hr
  rw [(turnPage_keeps _ _ _).2.1] at hr
  cases hr

lemma allRead_step (h : Faithful s) (hread : s.AllRead) (hquiet : Quiet pipeline s move)
    (hstep : stream pipeline s move = some t) : t.phase = .closed ∨ t.AllRead := by
  obtain ⟨-, hdoes⟩ := does_of_stream hstep
  cases move with
  | batch subscription lines logIds now fault =>
    obtain ⟨queue, drops, hfold, -⟩ := foldl_publishLive
      (s.stored (writeBatch pipeline subscription lines logIds now fault s.db).1)
      (writeBatch pipeline subscription lines logIds now fault s.db).2
    rw [Does, hfold] at hdoes
    rw [hdoes]
    refine .inr fun record hr hwants => ?_
    cases mem_append.mp hr with
    | inl hr => exact hread record hr hwants
    | inr hr => exact hquiet record hr hwants
  | append records =>
    rw [Does] at hdoes
    rw [hdoes]
    refine .inr fun record hr hwants => ?_
    cases mem_append.mp hr with
    | inl hr => exact hread record hr hwants
    | inr hr => exact hquiet record hr hwants
  | replay =>
    obtain ⟨snapshot, page, next, initial, -, rfl⟩ := hdoes
    obtain ⟨hwants, hunread, horigin⟩ := @replay_keeps s snapshot page next initial
    right
    rw [Subscriber.AllRead, hwants, hunread, horigin]
    exact hread
  | control frame withRecord =>
    obtain ⟨queue, -, rfl⟩ := hdoes
    cases frame with
    | malformed => exact .inl rfl
    | other => exact .inr hread
    | pause => exact .inr hread
    | ack cursor =>
      unfold Subscriber.control
      dsimp only
      cases hack : s.stream.ack cursor with
      | error message => exact .inl rfl
      | ok self =>
        obtain ⟨n, rfl⟩ := ack_eq_ok hack
        exact .inr hread
    | resume cursor =>
      obtain ⟨n, hn⟩ := hquiet
      exact .inr (allRead_backlog hn false)
    | update action cursor =>
      obtain ⟨n, hn⟩ := hquiet
      unfold Subscriber.control
      dsimp only
      cases hupdate : s.stream.update action with
      | error message => exact .inl rfl
      | ok self => exact .inr (allRead_backlog hn false)
  | live =>
    obtain ⟨record, queue, hqueue, rfl⟩ := hdoes
    have hzero : record.streamSequence = 0 := h.unsequenced record (hqueue ▸ mem_cons_self)
    rw [live_of_unsequenced hzero]
    exact .inr hread
  | heartbeat =>
    rw [Does] at hdoes
    rw [hdoes]
    exact .inr hread
  | disconnect =>
    rw [Does] at hdoes
    rw [hdoes]
    exact .inl rfl

variable {rows : List LogRecord} {self : CursorLogStream} {cursor : Option String}

lemma faithful_reached (hrows : Sequenced rows) {good : Subscriber → StreamMove → Prop}
    (h : (streaming pipeline rows self cursor).Reached good s) : Faithful s := by
  refine h.invariant ?_ fun _ _ _ hs _ hstep => hs.step hstep
  refine Grounded.backlog ⟨hrows, by simp, by simp, List.Pairwise.nil, ?_, le_rfl, le_max_left _ _, by simp⟩ cursor true
  simp [sent]

lemma allRead_reached (hrows : Sequenced rows) (h : (streaming pipeline rows self cursor).Reached (Quiet pipeline) s) :
    s.phase = .closed ∨ s.AllRead := by
  induction h with
  | start =>
    cases hcursor : CursorLogStream.requested cursor with
    | ok n => exact .inr (allRead_backlog hcursor true)
    | error message =>
      left
      simp [streaming, backlog, hcursor]
  | next move hreached hquiet hstep ih =>
    have hopen := (does_of_stream hstep).1
    exact allRead_step (faithful_reached hrows hreached) (ih.resolve_left hopen) hquiet hstep

/-- In every run records are delivered exactly once, in order and completely if and only if
whatever is wanted was stored before the last replay began; and they are in every run in which
nothing that is wanted is stored while the stream is live. -/
theorem delivered_iff (hrows : Sequenced rows) :
    (∀ s, (streaming pipeline rows self cursor).Reached (fun _ _ => True) s →
      (s.Delivered ↔ (s.Settled → s.AllRead))) ∧
    ∀ s, (streaming pipeline rows self cursor).Reached (Quiet pipeline) s → s.Delivered := by
  refine ⟨fun s h => (faithful_reached hrows h).delivered_iff_settled, fun s h => ?_⟩
  refine (faithful_reached hrows h).delivered_iff_settled.mpr fun hsettled => ?_
  refine (allRead_reached hrows h).resolve_left ?_
  rw [hsettled.1]
  exact Phase.noConfusion

/-- In every run, whatever is stored, published, lost from the queue and filtered meanwhile: no record is sent twice or
behind a later one; and a subscriber that listens was sent every record above its cursor that the store finds for it,
but for those that were stored after its last replay had begun. -/
theorem sent_unless_unread (hrows : Sequenced rows)
    (h : (streaming pipeline rows self cursor).Reached (fun _ _ => True) s) :
    s.sent.Pairwise (· < ·) ∧ (∀ n ∈ s.sent, n ≤ s.stream.lastSequence) ∧
      (s.phase = .listening → ∀ record ∈ s.db.rows, s.stream.finds record → s.origin < record.streamSequence →
        Frame.record record ∈ s.frames ∨ record ∈ s.unread) := by
  have hfaithful := faithful_reached hrows h
  refine ⟨hfaithful.increasing, hfaithful.bounded, fun hphase record hrow hfinds habove => ?_⟩
  have hcovered := hfaithful.inPhase
  rw [hphase] at hcovered
  by_cases hread : record ∈ s.unread
  · exact .inr hread
  · exact .inl ((hcovered record hrow hread hfinds habove).resolve_right id)

end Runs

/-! ### A record that arrives live -/

lemma turnPage_eq (s : Subscriber) {current snapshot : ℕ} (initial : Bool) {page : List LogRecord}
    (h : s.stream.records s.db.rows current snapshot = .ok (page, false)) :
    s.turnPage current snapshot initial = { s with phase := .replaying snapshot page none initial } := by
  rw [turnPage, h]
  rfl

lemma backlog_eq (s : Subscriber) (initial : Bool) {page : List LogRecord}
    (h : s.stream.records s.db.rows 0 (latestProductSequence s.db.rows) = .ok (page, false)) :
    s.backlog none initial = { s with
      stream := { s.stream with lastSequence := max s.stream.lastSequence 0 }
      origin := max s.stream.lastSequence 0
      unread := []
      phase := .replaying (latestProductSequence s.db.rows) page none initial } :=
  turnPage_eq { s with
    stream := { s.stream with lastSequence := max s.stream.lastSequence 0 }
    origin := max s.stream.lastSequence 0
    unread := [] } initial h

/-- A subscriber to the service of the host subscription. -/
def apiStream : CursorLogStream := { serviceId := some "api" }

def rowA : LogRecord := { recordFromRaw plainPipeline hostSubscription lineA "log-1" 0 with streamSequence := 1 }

def rowB : LogRecord := { recordFromRaw plainPipeline hostSubscription lineB "log-2" 0 with streamSequence := 2 }

/-- The subscriber is there before the record, and the record has left the queue. -/
def missedLive : Subscriber where
  stream := apiStream
  db := ⟨[rowA], Function.update (fun _ => none) "sub-1" (some ⟨fileCursor 2⟩)⟩
  frames := [.subscribed (some "api") 0]
  unread := [rowA]

lemma missedLive_run : (streaming plainPipeline [] apiStream none).runFrom
    (streaming plainPipeline [] apiStream none).init
    [.replay, .batch hostSubscription [lineA] ["log-1"] 0 .none, .live] = some missedLive := by
  have hpage : apiStream.records [] 0 0 = .ok ([], false) :=
    listProductPage_all List.Pairwise.nil rfl rfl rfl (by decide) (by decide) (by simp) (by decide)
  have hinit : (streaming plainPipeline [] apiStream none).init =
      { stream := apiStream, db := ⟨[], fun _ => none⟩, phase := .replaying 0 [] none true } :=
    backlog_eq { stream := apiStream, db := ⟨[], fun _ => none⟩ } true hpage
  rw [hinit]
  rfl

theorem missedLive_unread : missedLive.sent.Pairwise (· < ·) ∧
    (∀ n ∈ missedLive.sent, n ≤ missedLive.stream.lastSequence) ∧
      (missedLive.phase = .listening → ∀ record ∈ missedLive.db.rows, missedLive.stream.finds record →
        missedLive.origin < record.streamSequence →
          Frame.record record ∈ missedLive.frames ∨ record ∈ missedLive.unread) :=
  sent_unless_unread (show Sequenced [] from List.Pairwise.nil) (System.Reached.start.runFrom _ (fun _ _ _ => trivial) missedLive_run)

/-- The stream is settled and the record was not sent. -/
theorem live_record_not_delivered :
    ¬ ∀ moves s, (streaming plainPipeline [] apiStream none).runFrom (streaming plainPipeline [] apiStream none).init
      moves = some s → s.Delivered := by
  intro h
  obtain ⟨-, hcomplete⟩ := h _ _ missedLive_run
  have hsent := hcomplete ⟨rfl, rfl, rfl⟩ rowA (mem_singleton_self _) (by decide) (by decide)
  cases mem_singleton.mp hsent

/-- Both records were there before the subscriber, who paused once and resumed. -/
def resumedStream : Subscriber where
  stream := { apiStream with lastSequence := 2 }
  db := ⟨[rowA, rowB], fun _ => none⟩
  frames := [.record rowA, .record rowB, .subscribed (some "api") 2]
  origin := 2

theorem resumed_delivered : resumedStream.Delivered := by
  have hpage : apiStream.records [rowA, rowB] 0 2 = .ok ([rowA, rowB], false) :=
    listProductPage_all (by decide) rfl rfl rfl (by decide) (by decide) (by decide) (by decide)
  have hinit : (streaming plainPipeline [rowA, rowB] apiStream none).init =
      { stream := apiStream, db := ⟨[rowA, rowB], fun _ => none⟩, phase := .replaying 2 [rowA, rowB] none true } :=
    backlog_eq { stream := apiStream, db := ⟨[rowA, rowB], fun _ => none⟩ } true hpage
  have hstart : (streaming plainPipeline [rowA, rowB] apiStream none).Reached (Quiet plainPipeline) _ := .start
  rw [hinit] at hstart
  have hlistening : (streaming plainPipeline [rowA, rowB] apiStream none).Reached (Quiet plainPipeline)
      { resumedStream with origin := 0 } :=
    ((hstart.next .replay (by trivial) rfl).next .replay (by trivial) rfl).next .replay (by trivial) rfl
  have hpaused := hlistening.next (.control .pause false) (by trivial) rfl
  have hbacklog := backlog_eq { resumedStream with origin := 0 } false hpage
  have hresumed := hpaused.next (StreamMove.control (.resume none) false) (by exact ⟨0, rfl⟩) (congrArg some hbacklog)
  have hdone := ((hresumed.next .replay (by trivial) rfl).next .replay (by trivial) rfl).next .replay (by trivial) rfl
  exact (delivered_iff (by unfold Sequenced; decide)).2 _ hdone

end IncidentLens.Streams
