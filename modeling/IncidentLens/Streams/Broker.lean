import IncidentLens.Streams.CliStream

/-!
# The broker behind the streams

Every subscriber has a bounded queue of its own. An event is put on all of them without waiting: a full queue
first loses its oldest event, which is counted.
-/
namespace IncidentLens.Streams
open Effects Events List Function

/-- A queue, and how many of its events were lost. -/
structure Subscription where
  queue : List RuntimeEvent := []
  overflow : ℕ := 0

/-- The queues by the identities of their objects. -/
structure RuntimeEventBroker where
  queueSize : ℕ := 100
  subscribers : ℕ → Option Subscription := fun _ => none

namespace Subscription
variable (queueSize : ℕ)

/-- `queue.full()`; without a size a queue is never full. -/
def full (s : Subscription) : Bool := 0 < queueSize && queueSize ≤ s.queue.length

/-- `get_nowait` on a full queue, with the count of what it lost. -/
def evict (s : Subscription) : Subscription :=
  if s.full queueSize then { queue := s.queue.tail, overflow := s.overflow + 1 } else s

/-- `put_nowait`; that a queue is full is passed over. -/
def put (event : RuntimeEvent) (s : Subscription) : Subscription :=
  if s.full queueSize then s else { s with queue := s.queue ++ [event] }

end Subscription

def RuntimeEventBroker.publish (b : RuntimeEventBroker) (event : RuntimeEvent) : RuntimeEventBroker :=
  { b with subscribers := fun id => (b.subscribers id).map fun s => (s.evict b.queueSize).put b.queueSize event }

/-- The broker, and for each queue what was published since it subscribed and what its subscriber has taken. -/
structure Exchange where
  broker : RuntimeEventBroker
  told : ℕ → List RuntimeEvent := fun _ => []
  taken : ℕ → List RuntimeEvent := fun _ => []

inductive ExchangeMove
  | subscribe (id : ℕ)
  | unsubscribe (id : ℕ)
  | publish (event : RuntimeEvent)
  /-- `await queue.get()`, once there is an event. -/
  | take (id : ℕ)

def Exchange.step (x : Exchange) : ExchangeMove → Option Exchange
  | .subscribe id =>
    if (x.broker.subscribers id).isSome then none
    else some {
      broker := { x.broker with subscribers := update x.broker.subscribers id (some {}) }
      told := update x.told id []
      taken := update x.taken id [] }
  | .unsubscribe id => some { x with broker := { x.broker with subscribers := update x.broker.subscribers id none } }
  | .publish event => some { x with broker := x.broker.publish event, told := fun id => x.told id ++ [event] }
  | .take id => match x.broker.subscribers id with
    | some ⟨event :: queue, overflow⟩ => some { x with
        broker := { x.broker with subscribers := update x.broker.subscribers id (some ⟨queue, overflow⟩) }
        taken := update x.taken id (x.taken id ++ [event]) }
    | _ => none

def exchange (queueSize : ℕ) : System Exchange ExchangeMove where
  init := { broker := { queueSize } }
  step := Exchange.step

/-- How a queue stands to what was published since its subscription, and what was taken. -/
structure Accounted (queueSize : ℕ) (told taken : List RuntimeEvent) (s : Subscription) : Prop where
  count : taken.length + s.queue.length + s.overflow = told.length
  recent : s.queue <:+ told
  ordered : taken ++ s.queue <+ told
  whole : s.overflow = 0 → taken ++ s.queue = told
  bounded : 0 < queueSize → s.queue.length ≤ queueSize

section
variable {queueSize : ℕ} {told taken : List RuntimeEvent} {s : Subscription} {event : RuntimeEvent} {x y : Exchange}

lemma full_iff : s.full queueSize = true ↔ 0 < queueSize ∧ queueSize ≤ s.queue.length := by simp [Subscription.full]

lemma put_evict (h : Accounted queueSize told taken s) (event : RuntimeEvent) :
    (s.evict queueSize).put queueSize event =
      { s.evict queueSize with queue := (s.evict queueSize).queue ++ [event] } := by
  refine if_neg ?_
  rw [full_iff]
  rintro ⟨hpos, hlong⟩
  unfold Subscription.evict at hlong
  split_ifs at hlong with hfull
  · have hbound := h.bounded hpos
    simp only [length_tail] at hlong
    omega
  · exact hfull (full_iff.mpr ⟨hpos, hlong⟩)

lemma Accounted.publish (h : Accounted queueSize told taken s) (event : RuntimeEvent) :
    Accounted queueSize (told ++ [event]) taken ((s.evict queueSize).put queueSize event) := by
  rw [put_evict h]
  obtain ⟨queue, overflow⟩ := s
  obtain ⟨hcount, ⟨earlier, hrecent⟩, hordered, hwhole, hbounded⟩ := h
  unfold Subscription.evict
  split_ifs with hfull
  · obtain ⟨hpos, hlong⟩ := full_iff.mp hfull
    cases queue with
    | nil => simp at hlong; omega
    | cons oldest queue =>
      have hbound := hbounded hpos
      have hshorter : taken ++ queue <+ told := (Sublist.append_left (sublist_cons_self oldest queue) taken).trans hordered
      simp only [length_cons] at hcount hbound
      constructor
      · simp; omega
      · exact ⟨earlier ++ [oldest], by simp [← hrecent]⟩
      · simpa using hshorter.append_right [event]
      · exact fun hnone => absurd hnone (Nat.succ_ne_zero _)
      · intro _
        simpa using hbound
  · constructor
    · simp at hcount ⊢; omega
    · exact ⟨earlier, by simp [← hrecent]⟩
    · simpa using hordered.append_right [event]
    · exact fun hnone => by simp [← hwhole hnone]
    · intro hpos
      have hroom : ¬ queueSize ≤ queue.length := fun hlong => hfull (full_iff.mpr ⟨hpos, hlong⟩)
      simp; omega

lemma Accounted.take {queue : List RuntimeEvent} {overflow : ℕ}
    (h : Accounted queueSize told taken ⟨event :: queue, overflow⟩) :
    Accounted queueSize told (taken ++ [event]) ⟨queue, overflow⟩ := by
  obtain ⟨hcount, hrecent, hordered, hwhole, hbounded⟩ := h
  constructor
  · simp at hcount ⊢; omega
  · exact (suffix_cons event queue).trans hrecent
  · simpa using hordered
  · simpa using hwhole
  · exact fun hpos => (Nat.le_succ _).trans (hbounded hpos)

/-- Every queue stands so. -/
def Exchange.Fair (queueSize : ℕ) (x : Exchange) : Prop :=
  x.broker.queueSize = queueSize ∧
    ∀ id s, x.broker.subscribers id = some s → Accounted queueSize (x.told id) (x.taken id) s

theorem Exchange.Fair.step {move : ExchangeMove} (h : x.Fair queueSize) (hstep : x.step move = some y) : y.Fair queueSize := by
  obtain ⟨hsize, hqueues⟩ := h
  cases move with
  | subscribe id =>
    simp only [Exchange.step] at hstep
    split_ifs at hstep
    obtain rfl := Option.some.inj hstep
    refine ⟨hsize, fun id' s hs => ?_⟩
    by_cases hid : id' = id
    · subst hid
      simp only [update_self, Option.some.injEq] at hs ⊢
      subst hs
      exact ⟨rfl, suffix_refl _, Sublist.refl _, fun _ => rfl, fun _ => Nat.zero_le _⟩
    · simp only [update_of_ne hid] at hs ⊢
      exact hqueues id' s hs
  | unsubscribe id =>
    obtain rfl := Option.some.inj hstep
    refine ⟨hsize, fun id' s hs => hqueues id' s ?_⟩
    simp only [update_apply] at hs
    split_ifs at hs
    exact hs
  | publish event =>
    obtain rfl := Option.some.inj hstep
    refine ⟨hsize, fun id t ht => ?_⟩
    obtain ⟨s, hs, rfl⟩ := Option.map_eq_some_iff.mp ht
    rw [hsize]
    exact (hqueues id s hs).publish event
  | take id =>
    simp only [Exchange.step] at hstep
    split at hstep
    · next event queue overflow hfound =>
      obtain rfl := Option.some.inj hstep
      refine ⟨hsize, fun id' s hs => ?_⟩
      by_cases hid : id' = id
      · subst hid
        simp only [update_self, Option.some.injEq] at hs ⊢
        subst hs
        exact (hqueues id' _ hfound).take
      · simp only [update_of_ne hid] at hs ⊢
        exact hqueues id' s hs
    · cases hstep

/-- Whoever subscribes, publishes, takes and leaves, in any order: a queue holds the latest events since its
subscription, within its size; with what its subscriber has taken they are in order and none twice, and what is
missing is counted. A queue that has lost nothing has everything. -/
theorem subscribers_accounted (h : (exchange queueSize).Reached (fun _ _ => True) x) {id : ℕ}
    (hs : x.broker.subscribers id = some s) : Accounted queueSize (x.told id) (x.taken id) s := by
  have hfair : x.Fair queueSize := by
    apply h.invariant
    · exact ⟨rfl, fun _ _ => nofun⟩
    · exact fun _ _ _ hs _ hstep => hs.step hstep
  exact hfair.2 id s hs

lemma cli_publish {c : CliConnection} {t : CliStream} (h : Accounted c.queueSize told taken s)
    (hopen : (∃ highWater, t.phase = .listening highWater) ∨ ∃ highWater page next, t.phase = .replaying highWater page next)
    (hqueue : t.queue = s.queue) (hdropped : t.dropped = s.overflow) :
    (t.publish c event).queue = ((s.evict c.queueSize).put c.queueSize event).queue ∧
      (t.publish c event).dropped = ((s.evict c.queueSize).put c.queueSize event).overflow := by
  rw [put_evict h]
  unfold CliStream.publish Subscription.evict
  rcases hopen with ⟨_, hphase⟩ | ⟨_, _, _, hphase⟩ <;> rw [hphase, hqueue, hdropped] <;>
    by_cases hfull : 0 < c.queueSize ∧ c.queueSize ≤ s.queue.length <;> simp [full_iff, hfull]

end

/-! ### Two events for a queue of one -/

def notice (eventId : String) : RuntimeEvent := ⟨eventId, 0, .logBackpressure, "2026-01-01T00:00:00Z", []⟩

theorem overflow_accounted : ∃ (x : Exchange) (s : Subscription), x.broker.subscribers 0 = some s ∧ s.overflow = 1 ∧
    x.taken 0 = [notice "ev-2"] ∧ Accounted 1 (x.told 0) (x.taken 0) s :=
  ⟨_, _, rfl, rfl, rfl, subscribers_accounted (.next (.take 0) (.next (.publish (notice "ev-2"))
    (.next (.publish (notice "ev-1")) (.next (.subscribe 0) (.start (S := exchange 1)) trivial rfl) trivial rfl)
    trivial rfl) trivial rfl) rfl⟩

end IncidentLens.Streams
