import IncidentLens.Streams.LogStream
import Mathlib.Order.Interval.Finset.Nat

/-!
# Slow consumers

A subscriber is closed when a record from the queue is due while the last sequence lies too far above the
last acknowledged one. The distance counts every sequence in between, also those of records that were
never sent on this stream. Here the queue may hold any records.
-/
namespace IncidentLens.Streams
open Effects Logs Subscriber CursorLogStream List

inductive DeliveryMove
  /-- A record is put on the queue. -/
  | publish (record : LogRecord)
  /-- Records are stored. -/
  | append (records : List LogRecord)
  | replay
  | control (frame : ControlFrame) (withRecord : Bool)
  | live
  | heartbeat

/-- One step of the stream, which reads the queue and the control frames. -/
def deliver (s : Subscriber) (move : DeliveryMove) : Option Subscriber :=
  match s.phase, move with
  | .closed, _ => none
  | _, .publish record => some (s.publishLive record)
  | _, .append records => some (s.stored { s.db with rows := (appendBatch s.db.rows records).1 })
  | .replaying snapshot page next initial, .replay => some (s.replay snapshot page next initial)
  | .listening, .control frame withRecord =>
    if withRecord then
      if s.queue = [] then none else some ({ s with queue := s.queue.tail }.control frame)
    else some (s.control frame)
  | .listening, .live => match s.queue with
    | record :: queue => some ({ s with queue := queue }.live record)
    | [] => none
  | .listening, .heartbeat => if s.queue = [] then some (s.send (.heartbeat s.stream.lastSequence)) else none
  | _, _ => none

/-- A stream that has sent and acknowledged nothing. -/
def CursorLogStream.fresh (self : CursorLogStream) : CursorLogStream :=
  { self with lastSequence := 0, ackSequence := 0, paused := false }

/-- A subscriber with a filter and a cursor connects over the rows of a store. -/
def delivering (rows : List LogRecord) (self : CursorLogStream) (cursor : Option String) :
    System Subscriber DeliveryMove where
  init := { stream := self.fresh, db := ⟨rows, fun _ => none⟩ : Subscriber }.backlog cursor true
  step := deliver

namespace Subscriber

/-- How many of the record frames sent are not covered by the acks. -/
def unacked (s : Subscriber) : ℕ := (s.sent.filter fun n => s.stream.ackSequence < n).length

/-- How many sequences above the last ack and up to the last sequence were never sent. -/
def skipped (s : Subscriber) : ℕ :=
  ((Finset.Ioc s.stream.ackSequence s.stream.lastSequence).filter fun n => n ∉ s.sent).card

/-- The record that is due: the next of a page, or the next of the queue, unless it is passed over. -/
def due (s : Subscriber) : DeliveryMove → Bool
  | .replay => match s.phase with
    | .replaying _ (record :: _) _ _ => s.stream.lastSequence < record.streamSequence
    | _ => false
  | .live => match s.queue with
    | record :: _ => s.stream.accepts record
    | [] => false
  | _ => false

/-- A step that ends with the closing of a slow stream. -/
def ClosedSlow (s t : Subscriber) : Prop :=
  t.phase = .closed ∧ t.frames = s.frames ++ [.slowConsumer s.stream.lastSequence]

/-- A record is due and at least 500 frames are not covered. -/
def Overdue (s : Subscriber) (move : DeliveryMove) : Prop := s.due move = true ∧ maxUnacked ≤ s.unacked

end Subscriber

/-- When a record of the queue is due, the skipped sequences do not make up for missing frames; and no page
goes on when the bound is reached. -/
def Counted (s : Subscriber) : DeliveryMove → Prop
  | .live => s.due .live = true → s.unacked < maxUnacked → s.unacked + s.skipped < maxUnacked
  | .replay => s.due .replay = true → s.unacked < maxUnacked
  | _ => True

/-- What holds between the frames sent and the two positions. -/
structure Windowed (s : Subscriber) : Prop where
  increasing : s.sent.Pairwise (· < ·)
  bounded : ∀ n ∈ s.sent, n ≤ s.stream.lastSequence
  ack_le : s.stream.ackSequence ≤ s.stream.lastSequence

lemma ack_between {self self' : CursorLogStream} {cursor : Option String} (hle : self.ackSequence ≤ self.lastSequence)
    (h : self.ack cursor = .ok self') :
    self'.lastSequence = self.lastSequence ∧ self'.ackSequence ≤ self'.lastSequence := by
  unfold CursorLogStream.ack at h
  cases hvalue : decodeLogCursor (cursor.getD "") with
  | error message =>
    rw [hvalue] at h
    cases h
  | ok value =>
    rw [hvalue] at h
    rw [← Except.ok.inj h]
    exact ⟨rfl, max_le hle (min_le_right _ _)⟩

lemma update_positions {self self' : CursorLogStream} {action : FilterUpdate} (h : self.update action = .ok self') :
    self'.lastSequence = self.lastSequence ∧ self'.ackSequence = self.ackSequence := by
  unfold update at h
  split_ifs at h
  rw [← Except.ok.inj h]
  exact ⟨rfl, rfl⟩

namespace Windowed
variable {s : Subscriber}

lemma window (h : Windowed s) : s.unacked + s.skipped = s.stream.lastSequence - s.stream.ackSequence := by
  have hnodup : (s.sent.filter fun n => s.stream.ackSequence < n).Nodup := (h.increasing.imp fun hlt => hlt.ne).filter _
  have hsent : s.unacked =
      ((Finset.Ioc s.stream.ackSequence s.stream.lastSequence).filter fun n => n ∈ s.sent).card := by
    unfold unacked
    rw [← toFinset_card_of_nodup hnodup]
    congr 1
    ext n
    simp only [mem_toFinset, mem_filter, decide_eq_true_eq, Finset.mem_filter, Finset.mem_Ioc]
    constructor
    · rintro ⟨hn, hack⟩
      exact ⟨⟨hack, h.bounded n hn⟩, hn⟩
    · rintro ⟨⟨hack, -⟩, hn⟩
      exact ⟨hn, hack⟩
  rw [hsent, skipped, Finset.card_filter_add_card_filter_not, Nat.card_Ioc]

lemma keep {t : Subscriber} (h : Windowed s) (hsent : t.sent = s.sent)
    (hlast : s.stream.lastSequence ≤ t.stream.lastSequence) (hack : t.stream.ackSequence ≤ t.stream.lastSequence) :
    Windowed t := by
  refine ⟨?_, fun n hn => ?_, hack⟩
  · rw [hsent]
    exact h.increasing
  · rw [hsent] at hn
    exact (h.bounded n hn).trans hlast

lemma send (h : Windowed s) {frame : Frame} (hframe : frame.sequence? = none) : Windowed (s.send frame) :=
  h.keep (sent_send_other hframe) le_rfl h.ack_le

lemma sendRecord (h : Windowed s) {record : LogRecord} (hlater : s.stream.lastSequence < record.streamSequence) :
    Windowed (s.sendRecord record) := by
  refine ⟨?_, fun n hn => ?_, h.ack_le.trans hlater.le⟩
  · rw [sent_sendRecord, pairwise_append]
    refine ⟨h.increasing, pairwise_singleton _ _, fun a ha b hb => ?_⟩
    rw [mem_singleton.mp hb]
    exact (h.bounded a ha).trans_lt hlater
  · rw [sent_sendRecord, mem_append, mem_singleton] at hn
    rcases hn with hn | rfl
    · exact (h.bounded n hn).trans hlater.le
    · exact le_rfl

lemma turnPage (h : Windowed s) (current snapshot : ℕ) (initial : Bool) : Windowed (s.turnPage current snapshot initial) := by
  unfold Subscriber.turnPage
  cases s.stream.records s.db.rows current snapshot with
  | error message => exact h.keep rfl le_rfl h.ack_le
  | ok page => exact h.keep rfl le_rfl h.ack_le

lemma backlog (h : Windowed s) (cursor : Option String) (initial : Bool) : Windowed (s.backlog cursor initial) := by
  unfold Subscriber.backlog
  cases requested cursor with
  | ok after =>
    refine Windowed.turnPage (h.keep ?_ ?_ ?_) _ _ _
    · rfl
    · exact le_max_left _ _
    · exact h.ack_le.trans (le_max_left _ _)
  | error message =>
    have hgap := h.send (show (Frame.gap cursor (latestProductSequence s.db.rows)).sequence? = none from rfl)
    exact hgap.keep rfl le_rfl hgap.ack_le

lemma replay (h : Windowed s) (snapshot : ℕ) (page : List LogRecord) (next : Option ℕ) (initial : Bool) :
    Windowed (s.replay snapshot page next initial) := by
  unfold Subscriber.replay
  cases page with
  | cons record page =>
    have hphase : Windowed { s with phase := .replaying snapshot page next initial } := h.keep rfl le_rfl h.ack_le
    dsimp only
    split_ifs with hold
    · exact hphase
    · exact hphase.sendRecord (Nat.lt_of_not_le hold)
  | nil =>
    cases next with
    | some current => exact h.turnPage _ _ _
    | none =>
      have hphase : Windowed { s with phase := .listening } := h.keep rfl le_rfl h.ack_le
      dsimp only
      split_ifs
      · exact hphase.send rfl
      · exact hphase

lemma control (h : Windowed s) (frame : ControlFrame) : Windowed (s.control frame) := by
  cases frame with
  | malformed => exact h.keep rfl le_rfl h.ack_le
  | other => exact h
  | pause => exact h.keep rfl le_rfl h.ack_le
  | resume cursor =>
    have hresumed : Windowed { s with stream := { s.stream with paused := false } } := h.keep rfl le_rfl h.ack_le
    exact hresumed.backlog cursor false
  | ack cursor =>
    unfold Subscriber.control
    dsimp only
    cases hack : s.stream.ack cursor with
    | error message => exact h.keep rfl le_rfl h.ack_le
    | ok self =>
      obtain ⟨hlast, hle⟩ := ack_between h.ack_le hack
      exact h.keep rfl hlast.ge hle
  | update action cursor =>
    unfold Subscriber.control
    dsimp only
    cases hupdate : s.stream.update action with
    | error message => exact h.keep rfl le_rfl h.ack_le
    | ok self =>
      obtain ⟨hlast, hack⟩ := update_positions hupdate
      have hupdated : Windowed { s with stream := self } := h.keep rfl hlast.ge (by rw [hlast, hack]; exact h.ack_le)
      exact hupdated.backlog cursor false

lemma live (h : Windowed s) (record : LogRecord) : Windowed (s.live record) := by
  unfold Subscriber.live
  split_ifs with haccepts hslow
  · have hframe := h.send (show (Frame.slowConsumer s.stream.lastSequence).sequence? = none from rfl)
    exact hframe.keep rfl le_rfl hframe.ack_le
  · refine h.sendRecord ?_
    simp only [accepts, Bool.and_eq_true, decide_eq_true_eq] at haccepts
    exact haccepts.1.1.1.1.2
  · exact h

lemma publishLive (h : Windowed s) (record : LogRecord) : Windowed (s.publishLive record) := by
  unfold Subscriber.publishLive
  split_ifs
  · exact h
  · exact h.keep rfl le_rfl h.ack_le
  · exact h.keep rfl le_rfl h.ack_le

end Windowed

section Runs
variable {s t : Subscriber}

/-- What a step does, by what the stream was asked for. -/
def Delivers (s t : Subscriber) : DeliveryMove → Prop
  | .publish record => t = s.publishLive record
  | .append records => t = s.stored { s.db with rows := (appendBatch s.db.rows records).1 }
  | .replay => ∃ snapshot page next initial, s.phase = .replaying snapshot page next initial ∧
      t = s.replay snapshot page next initial
  | .control frame _ => ∃ queue, t = { s with queue := queue }.control frame
  | .live => ∃ record queue, s.queue = record :: queue ∧ t = { s with queue := queue }.live record
  | .heartbeat => t = s.send (.heartbeat s.stream.lastSequence)

variable {move : DeliveryMove}

lemma delivers_of_deliver (h : deliver s move = some t) : Delivers s t move := by
  unfold deliver at h
  cases hphase : s.phase with
  | closed =>
    rw [hphase] at h
    cases h
  | replaying snapshot page next initial =>
    rw [hphase] at h
    cases move with
    | publish record => exact (Option.some.inj h).symm
    | append records => exact (Option.some.inj h).symm
    | replay => exact ⟨snapshot, page, next, initial, hphase, (Option.some.inj h).symm⟩
    | control frame withRecord => cases h
    | live => cases h
    | heartbeat => cases h
  | listening =>
    rw [hphase] at h
    cases move with
    | publish record => exact (Option.some.inj h).symm
    | append records => exact (Option.some.inj h).symm
    | replay => cases h
    | control frame withRecord =>
      simp only at h
      split_ifs at h
      · refine ⟨s.queue.tail, ?_⟩
        rw [hphase]
        exact (Option.some.inj h).symm
      · exact ⟨s.queue, (Option.some.inj h).symm⟩
    | live =>
      simp only at h
      cases hqueue : s.queue with
      | nil =>
        rw [hqueue] at h
        cases h
      | cons record queue =>
        rw [hqueue] at h
        refine ⟨record, queue, hqueue, ?_⟩
        rw [hphase]
        exact (Option.some.inj h).symm
    | heartbeat =>
      simp only at h
      split_ifs at h
      exact (Option.some.inj h).symm

lemma Windowed.step (h : Windowed s) (hstep : deliver s move = some t) : Windowed t := by
  have hdelivers := delivers_of_deliver hstep
  cases move with
  | publish record =>
    rw [Delivers] at hdelivers
    rw [hdelivers]
    exact h.publishLive record
  | append records =>
    rw [Delivers] at hdelivers
    rw [hdelivers]
    exact h.keep rfl le_rfl h.ack_le
  | replay =>
    obtain ⟨snapshot, page, next, initial, -, rfl⟩ := hdelivers
    exact h.replay snapshot page next initial
  | control frame withRecord =>
    obtain ⟨queue, rfl⟩ := hdelivers
    have hqueue : Windowed { s with queue := queue } := h.keep rfl le_rfl h.ack_le
    exact hqueue.control frame
  | live =>
    obtain ⟨record, queue, -, rfl⟩ := hdelivers
    have hqueue : Windowed { s with queue := queue } := h.keep rfl le_rfl h.ack_le
    exact hqueue.live record
  | heartbeat =>
    rw [Delivers] at hdelivers
    rw [hdelivers]
    exact h.send rfl

lemma windowed_reached {rows : List LogRecord} {self : CursorLogStream} {cursor : Option String}
    {good : Subscriber → DeliveryMove → Prop} (h : (delivering rows self cursor).Reached good s) : Windowed s := by
  refine h.invariant (Windowed.backlog ?_ cursor true) fun _ _ _ hs _ hstep => hs.step hstep
  exact ⟨List.Pairwise.nil, fun n hn => absurd hn not_mem_nil, le_rfl⟩

/-- Every other step leaves the frames as they are or adds one that is not about a slow consumer. -/
def Unhurried (s t : Subscriber) : Prop :=
  t.frames = s.frames ∨ ∃ frame, t.frames = s.frames ++ [frame] ∧ ∀ last, frame ≠ .slowConsumer last

lemma Unhurried.not_closedSlow (h : Unhurried s t) : ¬ s.ClosedSlow t := by
  rintro ⟨-, hframes⟩
  cases h with
  | inl hsame =>
    rw [hsame] at hframes
    have hlength := congrArg length hframes
    simp at hlength
  | inr hadded =>
    obtain ⟨frame, hframe, hother⟩ := hadded
    rw [hframe] at hframes
    exact hother _ (singleton_inj.mp (append_cancel_left hframes))

lemma unhurried_turnPage (current snapshot : ℕ) (initial : Bool) : Unhurried s (s.turnPage current snapshot initial) := by
  left
  unfold turnPage
  cases s.stream.records s.db.rows current snapshot <;> rfl

lemma unhurried_backlog (cursor : Option String) (initial : Bool) : Unhurried s (s.backlog cursor initial) := by
  unfold backlog
  cases requested cursor with
  | error message => exact .inr ⟨_, rfl, fun last => Frame.noConfusion⟩
  | ok after =>
    left
    dsimp only
    unfold turnPage
    split <;> rfl

lemma unhurried_replay (snapshot : ℕ) (page : List LogRecord) (next : Option ℕ) (initial : Bool) :
    Unhurried s (s.replay snapshot page next initial) := by
  unfold replay
  cases page with
  | cons record page =>
    dsimp only
    split_ifs
    · exact .inl rfl
    · exact .inr ⟨.record record, rfl, fun last => Frame.noConfusion⟩
  | nil =>
    cases next with
    | some current => exact unhurried_turnPage current snapshot initial
    | none =>
      dsimp only
      split_ifs
      · exact .inr ⟨_, rfl, fun last => Frame.noConfusion⟩
      · exact .inl rfl

lemma unhurried_control (frame : ControlFrame) : Unhurried s (s.control frame) := by
  cases frame with
  | malformed => exact .inl rfl
  | other => exact .inl rfl
  | pause => exact .inl rfl
  | resume cursor => exact unhurried_backlog cursor false
  | ack cursor =>
    left
    unfold Subscriber.control
    dsimp only
    cases s.stream.ack cursor <;> rfl
  | update action cursor =>
    unfold Subscriber.control
    dsimp only
    cases s.stream.update action with
    | error message => exact .inl rfl
    | ok self => exact unhurried_backlog cursor false

lemma frames_publishLive (record : LogRecord) : (s.publishLive record).frames = s.frames := by
  unfold publishLive
  split_ifs <;> rfl

lemma unhurried_of_delivers (hmove : move ≠ .live) (h : Delivers s t move) : Unhurried s t := by
  cases move with
  | publish record =>
    rw [Delivers] at h
    rw [h]
    exact .inl (frames_publishLive record)
  | append records =>
    rw [Delivers] at h
    rw [h]
    exact .inl rfl
  | replay =>
    obtain ⟨snapshot, page, next, initial, -, rfl⟩ := h
    exact unhurried_replay snapshot page next initial
  | control frame withRecord =>
    obtain ⟨queue, rfl⟩ := h
    exact unhurried_control frame
  | live => exact absurd rfl hmove
  | heartbeat =>
    rw [Delivers] at h
    rw [h]
    exact .inr ⟨_, rfl, fun last => Frame.noConfusion⟩

lemma closedSlow_live {record : LogRecord} {queue : List LogRecord} (hqueue : s.queue = record :: queue) :
    s.ClosedSlow ({ s with queue := queue }.live record) ↔
      s.due .live = true ∧ maxUnacked ≤ s.stream.lastSequence - s.stream.ackSequence := by
  have hdue : s.due .live = s.stream.accepts record := by
    unfold due
    rw [hqueue]
  rw [hdue]
  constructor
  · intro hclosed
    by_contra hnot
    refine Unhurried.not_closedSlow ?_ hclosed
    unfold live
    split_ifs with haccepts hslow
    · exact absurd ⟨haccepts, hslow⟩ hnot
    · exact .inr ⟨.record record, rfl, fun last => Frame.noConfusion⟩
    · exact .inl rfl
  · rintro ⟨haccepts, hslow⟩
    unfold live
    rw [if_pos haccepts, if_pos hslow]
    exact ⟨rfl, rfl⟩

lemma closedSlow_iff_overdue_iff (h : Windowed s) (hstep : deliver s move = some t) :
    (s.ClosedSlow t ↔ s.Overdue move) ↔ Counted s move := by
  have hdelivers := delivers_of_deliver hstep
  by_cases hmove : move = .live
  · subst hmove
    obtain ⟨record, queue, hqueue, rfl⟩ := hdelivers
    rw [closedSlow_live hqueue, ← h.window, Subscriber.Overdue, Counted]
    constructor
    · intro hiff hdue hfew
      by_contra hmany
      exact absurd (hiff.mp ⟨hdue, not_lt.mp hmany⟩).2 (not_le.mpr hfew)
    · intro hcounted
      refine and_congr_right fun hdue => ⟨fun hmany => ?_, fun hmany => hmany.trans (Nat.le_add_right _ _)⟩
      by_contra hfew
      exact absurd (hcounted hdue (not_le.mp hfew)) (not_lt.mpr hmany)
  · have hopen := (unhurried_of_delivers hmove hdelivers).not_closedSlow
    rw [iff_false_left hopen]
    cases move with
    | live => exact absurd rfl hmove
    | replay =>
      rw [Counted, Subscriber.Overdue, not_and, not_le]
    | publish record => exact iff_of_true (fun hdue => Bool.false_ne_true hdue.1) trivial
    | append records => exact iff_of_true (fun hdue => Bool.false_ne_true hdue.1) trivial
    | control frame withRecord => exact iff_of_true (fun hdue => Bool.false_ne_true hdue.1) trivial
    | heartbeat => exact iff_of_true (fun hdue => Bool.false_ne_true hdue.1) trivial

/-- In every run, at every step, a stream is closed as slow exactly when 500 of the frames sent are not covered,
if and only if the sequences that were skipped do not count up to it and no page is due then. -/
theorem slow_consumer_closed (rows : List LogRecord) (self : CursorLogStream) (cursor : Option String) :
    ∀ s, (delivering rows self cursor).Reached (fun _ _ => True) s → ∀ move t, deliver s move = some t →
      ((s.ClosedSlow t ↔ s.Overdue move) ↔ Counted s move) := by
  intro s hreached move t hstep
  exact closedSlow_iff_overdue_iff (windowed_reached hreached) hstep

/-- In every run the sequences sent increase, no ack is ahead of them, and every sequence between the last ack and the
last one sent was either sent on this stream or is counted as skipped. -/
theorem window_accounted {rows : List LogRecord} {self : CursorLogStream} {cursor : Option String}
    (h : (delivering rows self cursor).Reached (fun _ _ => True) s) :
    s.sent.Pairwise (· < ·) ∧ s.stream.ackSequence ≤ s.stream.lastSequence ∧
      s.unacked + s.skipped = s.stream.lastSequence - s.stream.ackSequence :=
  have hwindowed := windowed_reached h
  ⟨hwindowed.increasing, hwindowed.ack_le, hwindowed.window⟩

end Runs

/-! ### A stream that starts late -/

def lateCursor : String := "lc1_AAAAAAAAA-g"

def lateRecord : LogRecord := { rowA with streamSequence := 1001 }

/-- The subscriber starts behind the thousandth record, and the next one is in its queue. -/
def lateStart : Subscriber where
  stream := { apiStream with lastSequence := 1000 }
  db := ⟨[], fun _ => none⟩
  frames := [.subscribed (some "api") 1000]
  queue := [lateRecord]
  origin := 1000

lemma lateStart_run : (delivering [] apiStream lateCursor).runFrom (delivering [] apiStream lateCursor).init
    [.replay, .publish lateRecord] = some lateStart := by
  have hcursor : requested lateCursor = .ok 1000 := by decide +kernel
  have hpage : (records { apiStream with lastSequence := 1000 } [] 1000 0) = .ok ([], false) :=
    listProductPage_all List.Pairwise.nil rfl rfl rfl (by decide) (by decide) (by simp) (by decide)
  have hinit : (delivering [] apiStream lateCursor).init =
      { stream := { apiStream with lastSequence := 1000 }, db := ⟨[], fun _ => none⟩,
        phase := .replaying 0 [] none true, origin := 1000 } := by
    unfold delivering backlog
    simp only [hcursor]
    exact turnPage_eq { stream := { apiStream with lastSequence := 1000 }, db := ⟨[], fun _ => none⟩, origin := 1000 }
      true hpage
  rw [hinit]
  rfl

theorem lateStart_closed_iff :
    ((lateStart.ClosedSlow { lateStart with
        queue := [], phase := .closed, frames := lateStart.frames ++ [.slowConsumer 1000] } ↔ lateStart.Overdue .live) ↔
      Counted lateStart .live) :=
  slow_consumer_closed [] apiStream lateCursor lateStart
    (System.Reached.start.runFrom _ (fun _ _ _ => trivial) lateStart_run) .live _ rfl

theorem lateStart_accounted : lateStart.sent.Pairwise (· < ·) ∧ lateStart.stream.ackSequence ≤ 1000 ∧
    lateStart.unacked + lateStart.skipped = 1000 :=
  window_accounted (System.Reached.start.runFrom _ (fun _ _ _ => trivial) lateStart_run)

/-- No record was sent to it, and the next one closes it. -/
theorem late_start_closed :
    ¬ ∀ moves s, (delivering [] apiStream lateCursor).runFrom (delivering [] apiStream lateCursor).init moves = some s →
      ∀ move t, deliver s move = some t → (s.ClosedSlow t ↔ s.Overdue move) := by
  intro h
  have hiff := h _ _ lateStart_run .live _ rfl
  have hoverdue := hiff.mp ⟨rfl, rfl⟩
  exact absurd hoverdue.2 (by decide)

end IncidentLens.Streams
