import IncidentLens.Cli.Synchronizer
import IncidentLens.Effects.Runs
import IncidentLens.Events.Store

/-!
# Connections and gap recoveries of a synchronizer

Connections follow each other, but a heartbeat timeout leaves the old socket open, and its frames
still reach the synchronizer. A recovery reads the session's events page by page and then sets
the cursor; what arrives on any socket meanwhile is dropped.
-/
namespace IncidentLens.Cli
open Data Effects Events List

def snapshotPageSize : ℕ := 500

/-- A socket with the last sequence that came over it, and those that were dropped because of a
recovery. -/
structure Socket where
  position : ℕ
  dropped : List ℕ := []
  alive : Bool := true

inductive Cycle
  | backoff
  | connected (socket : ℕ)
  /-- The socket is closed; its recovery is awaited. -/
  | closing (socket : ℕ)
  | stopped

inductive RecoveryPhase
  | fetching (afterSequence : ℕ)
  | fetched
  | persisting

structure GapRecovery where
  socket : ℕ
  phase : RecoveryPhase
  events : List ℕ := []

/-- A synchronizer with the events of the server around it. -/
structure Synchronization where
  table : EventTable
  synchronizer : SessionSynchronizer ℕ
  sockets : List Socket := []
  cycle : Cycle := .backoff
  recovery : Option GapRecovery := none
  dispatched : List ℕ := []
  snapshots : List ℕ := []

open Synchronization

inductive SyncMove
  | append (event : RuntimeEvent)
  | connect
  | deliver (socket : ℕ) (sequence : ℕ)
  | gap (socket : ℕ)
  | fetch
  | recover
  | persist
  | failRecovery
  | heartbeatTimeout
  | close (socket : ℕ)
  | reconnect
  | fatal (socket : ℕ)
  | abort

/-- `computeAuthoritativeSequence`. -/
def computeAuthoritativeSequence (cursor : ℕ) (events : List ℕ) : ℕ :=
  events.foldl (fun lastSequence n => if lastSequence < n then n else lastSequence) cursor

namespace Synchronization

def cursor (s : Synchronization) : ℕ := s.synchronizer.cursor.sequence

def onEvent (s : Synchronization) (i : ℕ) (socket : Socket) (n : ℕ) : Synchronization :=
  match s.synchronizer.onEvent (fun n cursor => decide (n ≤ cursor)) id (some n) with
  | some counted => { s with
      synchronizer := counted
      dispatched := s.dispatched ++ [n]
      sockets := s.sockets.set i { socket with position := n } }
  | none => { s with
      sockets := s.sockets.set i
        { socket with
          position := n
          dropped := if s.synchronizer.paused then socket.dropped ++ [n] else socket.dropped } }

def onGap (s : Synchronization) (i : ℕ) : Synchronization :=
  if s.synchronizer.paused then s
  else { s with
    synchronizer := { s.synchronizer with paused := true }
    recovery := some { socket := i, phase := .fetching s.cursor } }

/-- A page of `fetchAllEvents`. -/
def fetch (s : Synchronization) (r : GapRecovery) (afterSequence : ℕ) : Synchronization :=
  match listPage s.table { sessionId := some s.synchronizer.cursor.sessionId } afterSequence snapshotPageSize with
  | .ok page => { s with
      recovery := some { r with
        events := r.events ++ page.items.map (·.sequence)
        phase := if !page.hasMore || page.items.isEmpty then .fetched else .fetching page.nextAfterSequence } }
  | .error _ => { s with synchronizer := { s.synchronizer with paused := false }, recovery := none }

/-- The snapshot is dispatched, and its sequence becomes the cursor. -/
def applySnapshot (s : Synchronization) (r : GapRecovery) : Synchronization :=
  let lastSequence := computeAuthoritativeSequence s.cursor r.events
  { s with
    synchronizer := { s.synchronizer with cursor := ⟨s.synchronizer.cursor.sessionId, lastSequence⟩ }
    recovery := some { r with phase := .persisting }
    snapshots := s.snapshots ++ [lastSequence] }

def endRecovery (s : Synchronization) : Synchronization :=
  { s with synchronizer := { s.synchronizer with paused := false }, recovery := none }

def shut (socket : Socket) : Socket := { socket with alive := false }

/-- A socket that is closed ends its cycle, at once or after its recovery. -/
def onClose (s : Synchronization) (i : ℕ) (socket : Socket) : Synchronization :=
  { s with
    sockets := s.sockets.set i (shut socket)
    cycle := match s.cycle with
      | .connected j =>
        if j = i then if (s.recovery.map (·.socket)) = some i then .closing i else .backoff else .connected j
      | cycle => cycle }

def step (s : Synchronization) : SyncMove → Option Synchronization
  | .append event => match append s.table event with
    | .ok (_, table) => some { s with table := table }
    | .error _ => none
  | .connect => match s.cycle with
    | .backoff => some { s with
        sockets := s.sockets ++ [{ position := s.cursor }]
        cycle := .connected s.sockets.length }
    | _ => none
  | .deliver i n => match s.sockets[i]? with
    | some socket => if socket.alive then some (s.onEvent i socket n) else none
    | none => none
  | .gap i => match s.sockets[i]? with
    | some socket => if socket.alive then some (s.onGap i) else none
    | none => none
  | .fetch => match s.recovery with
    | some ⟨socket, .fetching afterSequence, events⟩ =>
      some (s.fetch ⟨socket, .fetching afterSequence, events⟩ afterSequence)
    | _ => none
  | .recover => match s.recovery with
    | some ⟨socket, .fetched, events⟩ => some (s.applySnapshot ⟨socket, .fetched, events⟩)
    | _ => none
  | .persist => match s.recovery with
    | some ⟨_, .persisting, _⟩ => some s.endRecovery
    | _ => none
  | .failRecovery => match s.recovery with
    | some ⟨_, .fetching _, _⟩ => some s.endRecovery
    | _ => none
  | .heartbeatTimeout => match s.cycle with
    | .connected _ => some { s with cycle := .backoff }
    | _ => none
  | .close i => match s.sockets[i]? with
    | some socket => if socket.alive then some (s.onClose i socket) else none
    | none => none
  | .reconnect => match s.cycle with
    | .closing i => if (s.recovery.map (·.socket)) = some i then none else some { s with cycle := .backoff }
    | _ => none
  | .fatal i => match s.sockets[i]?, s.cycle with
    | some socket, cycle =>
      if socket.alive then some { s with
        sockets := s.sockets.set i (shut socket)
        cycle := match cycle with
          | .connected j => if j = i then .stopped else .connected j
          | cycle => cycle }
      else none
    | none, _ => none
  | .abort => some { s with sockets := s.sockets.map shut, cycle := .stopped }

end Synchronization

/-- A synchronizer starts at a committed cursor. -/
def synchronization (sessionId : String) (initial : ℕ) (table : EventTable) : System Synchronization SyncMove :=
  ⟨{ table := table, synchronizer := { cursor := ⟨sessionId, initial⟩ } }, step⟩

def IsLogged (sessionId : String) (table : EventTable) (n : ℕ) : Prop :=
  ∃ row ∈ table.rows, row.sessionId = some sessionId ∧ row.sequence = n

/-- Events are dispatched once each and in their order, and the cursor passes only what was
dispatched or is covered by a snapshot. -/
structure Synchronization.AppliesOnce (sessionId : String) (initial : ℕ) (s : Synchronization) : Prop where
  increasing : s.dispatched.Pairwise (· < ·)
  covered : ∀ n, IsLogged sessionId s.table n → initial < n → n ≤ s.cursor →
    n ∈ s.dispatched ∨ ∃ lastSequence ∈ s.snapshots, n ≤ lastSequence

/-- A socket carries the events of the session one after the other; and an event that is
dispatched finds none before it that its socket lost to a recovery. -/
def Unbroken (sessionId : String) (s : Synchronization) : SyncMove → Prop
  | .deliver i n => ∀ socket, s.sockets[i]? = some socket →
      (IsLogged sessionId s.table n ∧ socket.position < n ∧
        ∀ m, IsLogged sessionId s.table m → socket.position < m → n ≤ m) ∧
      (s.synchronizer.paused = false → s.cursor < n → ∀ m ∈ socket.dropped, m ≤ s.cursor)
  | _ => True

section
variable {sessionId : String} {initial cursor : ℕ} {s t : Synchronization}

lemma le_computeAuthoritativeSequence (events : List ℕ) : cursor ≤ computeAuthoritativeSequence cursor events := by
  induction events generalizing cursor with
  | nil => exact Nat.le_refl cursor
  | cons n events ih =>
    refine le_trans ?_ (@ih (if cursor < n then n else cursor))
    split_ifs with hlt
    · exact hlt.le
    · exact Nat.le_refl cursor

lemma computeAuthoritativeSequence_le {events : List ℕ} {bound : ℕ} (hcursor : cursor ≤ bound)
    (hevents : ∀ n ∈ events, n ≤ bound) : computeAuthoritativeSequence cursor events ≤ bound := by
  induction events generalizing cursor with
  | nil => exact hcursor
  | cons n events ih =>
    refine @ih (if cursor < n then n else cursor) ?_ fun m hm => hevents m (mem_cons_of_mem _ hm)
    split_ifs with hlt
    · exact hevents n mem_cons_self
    · exact hcursor

lemma IsLogged.le_assigned {table : EventTable} {n : ℕ} (h : IsLogged sessionId table n) : n ≤ table.assigned := by
  obtain ⟨row, hrow, -, rfl⟩ := h
  exact table.bounded row hrow

variable {event stored : RuntimeEvent}

lemma IsLogged.of_append {table table' : EventTable} {n : ℕ}
    (happend : append table event = .ok (stored, table')) (h : IsLogged sessionId table' n) :
    IsLogged sessionId table n ∨ n = table.assigned + 1 := by
  unfold append at happend
  split_ifs at happend with hunique
  cases happend
  obtain ⟨row, hrow, hsession, rfl⟩ := h
  rcases mem_append.mp hrow with hrow | hrow
  · exact .inl ⟨row, hrow, hsession, rfl⟩
  · rw [mem_singleton.mp hrow]
    exact .inr rfl

lemma le_assigned_of_append {table table' : EventTable}
    (happend : append table event = .ok (stored, table')) : table.assigned ≤ table'.assigned := by
  unfold append at happend
  split_ifs at happend with hunique
  cases happend
  exact Nat.le_succ _

/-- What came over a socket is counted, or was lost to a recovery. -/
structure Socket.Sound (sessionId : String) (initial : ℕ) (s : Synchronization) (socket : Socket) : Prop where
  bounded : socket.position ≤ max initial s.table.assigned
  counted : ∀ n, IsLogged sessionId s.table n → initial < n → n ≤ socket.position → n ≤ s.cursor ∨ n ∈ socket.dropped

structure Synchronization.Sound (sessionId : String) (initial : ℕ) (s : Synchronization) : Prop where
  applies : s.AppliesOnce sessionId initial
  below : ∀ n ∈ s.dispatched, n ≤ s.cursor
  bounded : s.cursor ≤ max initial s.table.assigned
  sockets : ∀ socket ∈ s.sockets, socket.Sound sessionId initial s
  fetched : ∀ r, s.recovery = some r → ∀ n ∈ r.events, n ≤ s.table.assigned

lemma Socket.Sound.mono {socket socket' : Socket} (h : socket.Sound sessionId initial s)
    (htable : t.table = s.table) (hcursor : s.cursor ≤ t.cursor) (hposition : socket'.position = socket.position)
    (hdropped : ∀ n ∈ socket.dropped, n ∈ socket'.dropped) : socket'.Sound sessionId initial t := by
  constructor
  · rw [hposition, htable]
    exact h.bounded
  · intro n hn hinitial hle
    rw [htable] at hn
    rcases h.counted n hn hinitial (hposition ▸ hle) with hcount | hlost
    · exact .inl (hcount.trans hcursor)
    · exact .inr (hdropped n hlost)

lemma Synchronization.Sound.frame (h : s.Sound sessionId initial) (htable : t.table = s.table)
    (hcursor : t.cursor = s.cursor) (hdispatched : t.dispatched = s.dispatched) (hsnapshots : t.snapshots = s.snapshots)
    (hsockets : ∀ socket ∈ t.sockets, socket.Sound sessionId initial t)
    (hfetched : ∀ r, t.recovery = some r → ∀ n ∈ r.events, n ≤ t.table.assigned) : t.Sound sessionId initial := by
  refine ⟨⟨?_, ?_⟩, ?_, ?_, hsockets, hfetched⟩
  · rw [hdispatched]
    exact h.applies.increasing
  · rw [htable, hcursor, hdispatched, hsnapshots]
    exact h.applies.covered
  · rw [hdispatched, hcursor]
    exact h.below
  · rw [hcursor, htable]
    exact h.bounded

lemma Synchronization.Sound.append {table : EventTable} (h : s.Sound sessionId initial)
    (happend : Events.append s.table event = .ok (stored, table)) :
    Synchronization.Sound sessionId initial { s with table := table } := by
  have hgrow := le_assigned_of_append happend
  have hbound : max initial s.table.assigned ≤ max initial table.assigned := max_le_max_left initial hgrow
  -- the new event is behind every position
  have hold : ∀ n position, IsLogged sessionId table n → initial < n → n ≤ position →
      position ≤ max initial s.table.assigned → IsLogged sessionId s.table n := by
    intro n position hn hinitial hle hposition
    rcases hn.of_append happend with hn | hnew
    · exact hn
    · omega
  refine ⟨⟨h.applies.increasing, ?_⟩, h.below, h.bounded.trans hbound, ?_, ?_⟩
  · intro n hn hinitial hle
    exact h.applies.covered n (hold n _ hn hinitial hle h.bounded) hinitial hle
  · intro socket hsocket
    have hsound := h.sockets socket hsocket
    refine ⟨hsound.bounded.trans hbound, fun n hn hinitial hle => ?_⟩
    exact hsound.counted n (hold n _ hn hinitial hle hsound.bounded) hinitial hle
  · intro r hr n hn
    exact (h.fetched r hr n hn).trans hgrow

lemma Synchronization.Sound.deliver {i n : ℕ} {socket : Socket} (h : s.Sound sessionId initial)
    (hsocket : s.sockets[i]? = some socket) (hgood : Unbroken sessionId s (.deliver i n)) :
    (s.onEvent i socket n).Sound sessionId initial := by
  obtain ⟨⟨hlogged, hbehind, hnext⟩, hunlost⟩ := hgood socket hsocket
  have hsound := h.sockets socket (mem_of_getElem? hsocket)
  have hposition : n ≤ max initial s.table.assigned := hlogged.le_assigned.trans (le_max_right _ _)
  -- up to the event, the socket has carried all that it is to carry
  have hcarried : ∀ m, IsLogged sessionId s.table m → m ≤ n → m ≤ socket.position ∨ m = n := by
    intro m hm hle
    by_cases hpassed : m ≤ socket.position
    · exact .inl hpassed
    · have := hnext m hm (Nat.lt_of_not_le hpassed)
      exact .inr (le_antisymm hle this)
  unfold onEvent
  split
  · rename_i counted htaken
    obtain ⟨hpaused, m, hm, hpassed, rfl⟩ := SessionSynchronizer.onEvent_eq_some htaken
    cases hm
    have hlater : s.cursor < n := Nat.lt_of_not_le (of_decide_eq_false hpassed)
    have hclear := hunlost hpaused hlater
    have hcursor : s.cursor ≤ n := hlater.le
    refine ⟨⟨?_, ?_⟩, ?_, hposition, ?_, h.fetched⟩
    · refine pairwise_append.mpr ⟨h.applies.increasing, pairwise_singleton _ _, ?_⟩
      intro m hm k hk
      rw [mem_singleton.mp hk]
      exact (h.below m hm).trans_lt hlater
    · intro m hm hinitial hle
      have hpast : m ≤ s.cursor → m ∈ s.dispatched ++ [n] ∨ ∃ lastSequence ∈ s.snapshots, m ≤ lastSequence := by
        intro hpast
        exact (h.applies.covered m hm hinitial hpast).imp_left (mem_append_left _)
      rcases hcarried m hm hle with hcarried | hsame
      · rcases hsound.counted m hm hinitial hcarried with hcount | hlost
        · exact hpast hcount
        · exact hpast (hclear m hlost)
      · rw [hsame]
        exact .inl (mem_append_right _ mem_cons_self)
    · intro m hm
      rcases mem_append.mp hm with hm | hm
      · exact (h.below m hm).trans hcursor
      · exact (mem_singleton.mp hm).le
    · intro other hother
      rcases mem_or_eq_of_mem_set hother with hother | hsame
      · exact (h.sockets other hother).mono rfl hcursor rfl fun _ hn => hn
      · rw [hsame]
        exact ⟨hposition, fun m _ _ hle => .inl hle⟩
  · rename_i hnot
    refine h.frame rfl rfl rfl rfl ?_ h.fetched
    intro other hother
    rcases mem_or_eq_of_mem_set hother with hother | hsame
    · exact (h.sockets other hother).mono rfl (Nat.le_refl _) rfl fun _ hn => hn
    · rw [hsame]
      refine ⟨hposition, fun m hm hinitial hle => ?_⟩
      have hkept : ∀ m ∈ socket.dropped, m ∈ if s.synchronizer.paused then socket.dropped ++ [n] else socket.dropped := by
        intro m hm
        split_ifs
        · exact mem_append_left _ hm
        · exact hm
      rcases hcarried m hm hle with hcarried | hnew
      · exact (hsound.counted m hm hinitial hcarried).imp_right (hkept m)
      · rw [hnew]
        by_cases hpaused : s.synchronizer.paused = true
        · right
          simp [hpaused]
        · -- an event that is not dispatched otherwise was passed
          left
          by_contra hlater
          have hfresh : decide (n ≤ s.synchronizer.cursor.sequence) = false := decide_eq_false hlater
          simp [SessionSynchronizer.onEvent, hpaused, hfresh] at hnot

lemma Synchronization.Sound.applySnapshot {r : GapRecovery} (h : s.Sound sessionId initial)
    (hr : s.recovery = some r) : (s.applySnapshot r).Sound sessionId initial := by
  have hcursor : s.cursor ≤ computeAuthoritativeSequence s.cursor r.events := le_computeAuthoritativeSequence _
  have hbound : computeAuthoritativeSequence s.cursor r.events ≤ max initial s.table.assigned :=
    computeAuthoritativeSequence_le h.bounded fun n hn => (h.fetched r hr n hn).trans (le_max_right _ _)
  refine ⟨⟨h.applies.increasing, ?_⟩, ?_, hbound, ?_, ?_⟩
  · intro n _ _ hle
    exact .inr ⟨_, mem_append_right _ mem_cons_self, hle⟩
  · intro n hn
    exact (h.below n hn).trans hcursor
  · intro socket hsocket
    exact (h.sockets socket hsocket).mono rfl hcursor rfl fun _ hn => hn
  · intro q hq
    cases hq
    exact h.fetched r hr

lemma Synchronization.Sound.fetch {r : GapRecovery} {afterSequence : ℕ} (h : s.Sound sessionId initial)
    (hr : s.recovery = some r) : (s.fetch r afterSequence).Sound sessionId initial := by
  unfold Synchronization.fetch
  have hsockets : ∀ {t : Synchronization}, t.table = s.table → t.cursor = s.cursor →
      ∀ socket ∈ s.sockets, socket.Sound sessionId initial t := by
    intro t htable hcursor socket hsocket
    exact (h.sockets socket hsocket).mono htable hcursor.ge rfl fun _ hn => hn
  obtain ⟨page, hpage, hitems, -, -⟩ := @listPage_eq snapshotPageSize s.table
    { sessionId := some s.synchronizer.cursor.sessionId } afterSequence (by decide)
  rw [hpage]
  refine h.frame rfl rfl rfl rfl (hsockets rfl rfl) ?_
  intro q hq n hn
  cases hq
  rcases mem_append.mp hn with hn | hn
  · exact h.fetched r hr n hn
  · obtain ⟨event, hevent, rfl⟩ := mem_map.mp hn
    rw [hitems] at hevent
    obtain ⟨row, hrow, rfl⟩ := mem_map.mp hevent
    exact s.table.bounded row (mem_behind.mp (mem_of_mem_take hrow)).1

lemma Synchronization.Sound.step {move : SyncMove} (h : s.Sound sessionId initial) (hgood : Unbroken sessionId s move)
    (hstep : s.step move = some t) : t.Sound sessionId initial := by
  have hsame : ∀ {t : Synchronization}, t.table = s.table → t.cursor = s.cursor →
      ∀ socket ∈ s.sockets, socket.Sound sessionId initial t := by
    intro t htable hcursor socket hsocket
    exact (h.sockets socket hsocket).mono htable hcursor.ge rfl fun _ hn => hn
  have hshut : ∀ {t : Synchronization} {i : ℕ} {socket : Socket}, s.sockets[i]? = some socket → t.table = s.table →
      t.cursor = s.cursor → ∀ other ∈ s.sockets.set i (shut socket), other.Sound sessionId initial t := by
    intro t i socket hsocket htable hcursor other hother
    rcases mem_or_eq_of_mem_set hother with hother | heq
    · exact hsame htable hcursor other hother
    · rw [heq]
      exact (h.sockets socket (mem_of_getElem? hsocket)).mono htable hcursor.ge rfl fun _ hn => hn
  cases move with
  | append event =>
    simp only [Synchronization.step] at hstep
    split at hstep
    · rename_i stored table happend
      cases hstep
      exact h.append happend
    · cases hstep
  | connect =>
    simp only [Synchronization.step] at hstep
    split at hstep
    · cases hstep
      refine h.frame rfl rfl rfl rfl ?_ h.fetched
      intro socket hsocket
      rcases mem_append.mp hsocket with hsocket | hnew
      · exact (h.sockets socket hsocket).mono rfl (Nat.le_refl _) rfl fun _ hn => hn
      · rw [mem_singleton.mp hnew]
        exact ⟨h.bounded, fun n _ _ hle => .inl hle⟩
    · cases hstep
  | deliver i n =>
    simp only [Synchronization.step] at hstep
    split at hstep
    · rename_i socket hsocket
      split_ifs at hstep with halive
      cases hstep
      exact h.deliver hsocket hgood
    · cases hstep
  | gap i =>
    simp only [Synchronization.step] at hstep
    split at hstep
    · rename_i socket hsocket
      split_ifs at hstep with halive
      cases hstep
      unfold onGap
      split_ifs with hpaused
      · exact h
      · refine h.frame rfl rfl rfl rfl (hsame rfl rfl) ?_
        intro r hr n hn
        cases hr
        cases hn
    · cases hstep
  | fetch =>
    simp only [Synchronization.step] at hstep
    split at hstep
    · rename_i socket afterSequence events hr
      cases hstep
      exact h.fetch hr
    · cases hstep
  | recover =>
    simp only [Synchronization.step] at hstep
    split at hstep
    · rename_i socket events hr
      cases hstep
      exact h.applySnapshot hr
    · cases hstep
  | persist =>
    simp only [Synchronization.step] at hstep
    split at hstep
    · cases hstep
      refine h.frame rfl rfl rfl rfl (hsame rfl rfl) ?_
      intro r hr
      cases hr
    · cases hstep
  | failRecovery =>
    simp only [Synchronization.step] at hstep
    split at hstep
    · cases hstep
      refine h.frame rfl rfl rfl rfl (hsame rfl rfl) ?_
      intro r hr
      cases hr
    · cases hstep
  | heartbeatTimeout =>
    simp only [Synchronization.step] at hstep
    split at hstep
    · cases hstep
      exact h.frame rfl rfl rfl rfl (hsame rfl rfl) h.fetched
    · cases hstep
  | close i =>
    simp only [Synchronization.step] at hstep
    split at hstep
    · rename_i socket hsocket
      split_ifs at hstep with halive
      cases hstep
      exact h.frame rfl rfl rfl rfl (hshut hsocket rfl rfl) h.fetched
    · cases hstep
  | reconnect =>
    simp only [Synchronization.step] at hstep
    split at hstep
    · split_ifs at hstep with hrecovering
      cases hstep
      exact h.frame rfl rfl rfl rfl (hsame rfl rfl) h.fetched
    · cases hstep
  | fatal i =>
    simp only [Synchronization.step] at hstep
    split at hstep
    · rename_i socket cycle hsocket
      split_ifs at hstep with halive
      cases hstep
      exact h.frame rfl rfl rfl rfl (hshut hsocket rfl rfl) h.fetched
    · cases hstep
  | abort =>
    cases hstep
    refine h.frame rfl rfl rfl rfl ?_ h.fetched
    intro socket hsocket
    obtain ⟨other, hother, rfl⟩ := mem_map.mp hsocket
    exact (h.sockets other hother).mono rfl (Nat.le_refl _) rfl fun _ hn => hn

end

def textDelta (eventId : String) : RuntimeEvent :=
  ⟨eventId, 0, .agentTextDelta, "2026-01-01T00:00:00+00:00", [("session_id", .string "as-1")]⟩

end IncidentLens.Cli
