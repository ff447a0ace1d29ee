import IncidentLens.Effects.Runs
import IncidentLens.Idempotency.Store

/-!
# Fencing of reservations

Requests arrive at any time, their actions end at any time after, and nothing tells a store
which request a completion or a re-arm comes from. A reservation that was lost is harmless as
long as its request ends without finding another one in progress under its key.
-/
namespace IncidentLens.Idempotency
open Data Effects Function

structure Worker where
  request : Request
  reservedAt : DateTime

structure Answered where
  request : Request
  statusCode : ℤ
  responseJson : String
  deriving DecidableEq

/-- Beside the table: the request that reserved each key last, the responses of actions that
ended with success, and the answers that were replayed. -/
structure Server where
  clock : DateTime
  rows : Rows := .empty
  arrived : ℕ := 0
  running : ℕ → Option Worker := fun _ => none
  owner : RecordKey → Option ℕ := fun _ => none
  executed : List Answered := []
  replays : List Answered := []

inductive Event
  | arrive (request : Request) (now : DateTime)
  | finish (id : ℕ) (outcome : Outcome) (now : DateTime)
  | vanish (id : ℕ)
  | prune (now : DateTime)

def Outcome.answers (request : Request) : Outcome → List Answered
  | .returned statusCode responseJson =>
    if 200 ≤ statusCode ∧ statusCode < 300 then [⟨request, statusCode, responseJson⟩] else []
  | .raised => []

def Server.arrive (s : Server) (request : Request) (now : DateTime) : Server :=
  match beginIdempotent s.rows request now with
  | (.ok none, rows) => { s with
      clock := now
      rows := rows
      arrived := s.arrived + 1
      running := update s.running s.arrived (some ⟨request, now⟩)
      owner := update s.owner request.key (some s.arrived) }
  | (.ok (some (statusCode, responseJson)), rows) => { s with
      clock := now
      rows := rows
      replays := s.replays ++ [⟨request, statusCode, responseJson⟩] }
  | (.error _, rows) => { s with clock := now, rows := rows }

def Server.finish (s : Server) (id : ℕ) (worker : Worker) (outcome : Outcome) (now : DateTime) : Server :=
  { s with
    clock := now
    rows := (endIdempotent s.rows worker.request.key outcome now).2
    running := update s.running id none
    executed := s.executed ++ outcome.answers worker.request }

/-- Time does not run backwards; a request vanishes when its process ends or its last write fails. -/
def Server.step (s : Server) : Event → Option Server
  | .arrive request now => if now < s.clock then none else some (s.arrive request now)
  | .finish id outcome now =>
    if now < s.clock then none else (s.running id).map fun worker => s.finish id worker outcome now
  | .vanish id => (s.running id).map fun _ => { s with running := update s.running id none }
  | .prune now => if now < s.clock then none else some { s with clock := now, rows := pruneExpired s.rows now }

def server (clock : DateTime) : System Server Event := ⟨{ clock := clock }, Server.step⟩

/-- Request `id` runs under a reservation of `key` that has not expired. -/
def Server.Holds (s : Server) (id : ℕ) (key : RecordKey) : Prop :=
  ∃ worker expiresAt, s.running id = some worker ∧ worker.request.key = key ∧
    worker.reservedAt.addMinutes reservationLease = some expiresAt ∧ s.clock < expiresAt

/-- Replayed answers come from actions of equal requests, and an unexpired reservation has one
holder. -/
structure Server.Fenced (s : Server) : Prop where
  replays : ∀ answered ∈ s.replays, answered ∈ s.executed
  holders : ∀ i j key, s.Holds i key → s.Holds j key → i = j

/-- The step leaves the reservations of other requests as they are. -/
def Server.Spares (s t : Server) (id : ℕ) : Prop :=
  ∀ key row, s.rows.get key = some row → row.state = .inProgress → s.owner key ≠ some id → t.rows.get key = some row

/-- A request that ends does not find the reservation of another one under its key. -/
def Server.Current (s : Server) : Event → Prop
  | .finish id _ _ => ∀ worker row, s.running id = some worker → s.rows.get worker.request.key = some row →
      row.state = .inProgress → s.owner worker.request.key = some id
  | _ => True

/-! ### The operations, case by case -/

/-- What an arriving request does to the rows, and its answer. -/
inductive Begun (rows : Rows) (request : Request) (now : DateTime) :
    Except IdempotencyError (Option (ℤ × String)) × Rows → Prop
  | refused (e : IdempotencyError) : Begun rows request now (.error e, rows)
  | occupied (e : IdempotencyError) : Begun rows request now (.error e, pruneExpired rows now)
  | replayed (row : IdempotencyRecord) (stored : (pruneExpired rows now).get request.key = some row)
      (completed : row.state = .completed) (same : row.requestSha256 = request.requestSha256)
      (responseJson : String) (body : row.responseJson = some responseJson) :
      Begun rows request now (.ok (some (row.statusCode.getD 200, responseJson)), pruneExpired rows now)
  | started (expiresAt : DateTime) (lease : now.addMinutes reservationLease = some expiresAt)
      (free : (pruneExpired rows now).get request.key = none) :
      Begun rows request now
        (.ok none, (pruneExpired rows now).put (reservedRow request.key request.requestSha256 now expiresAt))

lemma beginIdempotent_begun (rows : Rows) (request : Request) (now : DateTime) :
    Begun rows request now (beginIdempotent rows request now) := by
  unfold beginIdempotent reserve
  by_cases hvalid : validKey request.key.idempotencyKey = false
  · rw [if_pos hvalid]
    exact .refused _
  · rw [if_neg hvalid]
    cases hlease : now.addMinutes reservationLease with
    | none => exact .refused _
    | some expiresAt =>
      dsimp only
      cases hrow : (pruneExpired rows now).get request.key with
      | none => exact .started expiresAt hlease hrow
      | some row =>
        dsimp only [existingReservation]
        cases hstate : row.state with
        | inProgress => exact .occupied _
        | completed =>
          by_cases hsame : row.requestSha256 = request.requestSha256
          · simp only [if_pos hsame]
            cases hbody : row.responseJson with
            | none => exact .occupied _
            | some responseJson => exact .replayed row hrow hstate hsame responseJson hbody
          · simp only [if_neg hsame]
            exact .occupied _

/-- What a request that ends does to the rows. -/
inductive Settled (rows : Rows) (key : RecordKey) (outcome : Outcome) (now : DateTime) : Rows → Prop
  | same : Settled rows key outcome now rows
  | completed (statusCode : ℤ) (responseJson : String) (expiresAt : DateTime)
      (success : outcome = .returned statusCode responseJson ∧ 200 ≤ statusCode ∧ statusCode < 300) :
      Settled rows key outcome now (updateInProgress rows key fun row => { row with
        state := .completed
        statusCode := some statusCode
        responseJson := some responseJson
        completedAt := some now.isoformat
        expiresAt := expiresAt.isoformat })
  | rearmed (expiresAt : DateTime) :
      Settled rows key outcome now (updateInProgress rows key fun row =>
        { row with expiresAt := expiresAt.isoformat })

lemma rearmAfterFailure_settled (rows : Rows) (key : RecordKey) (outcome : Outcome) (now : DateTime) :
    Settled rows key outcome now (rearmAfterFailure rows key now) := by
  unfold rearmAfterFailure rearmLease
  cases now.addMinutes failedReservationLease with
  | none => exact .same
  | some expiresAt => exact .rearmed expiresAt

lemma endIdempotent_settled (rows : Rows) (key : RecordKey) (outcome : Outcome) (now : DateTime) :
    Settled rows key outcome now (endIdempotent rows key outcome now).2 := by
  cases outcome with
  | raised => exact rearmAfterFailure_settled rows key _ now
  | returned statusCode responseJson =>
    unfold endIdempotent
    by_cases hcode : 200 ≤ statusCode ∧ statusCode < 300
    · simp only [if_pos hcode, markCompleted]
      cases now.addMinutes completedRetention with
      | none => exact .same
      | some expiresAt => exact .completed statusCode responseJson expiresAt ⟨rfl, hcode⟩
    · simp only [if_neg hcode]
      exact rearmAfterFailure_settled rows key _ now

lemma Settled.get {rows rows' : Rows} {key : RecordKey} {outcome : Outcome} {now : DateTime}
    (h : Settled rows key outcome now rows') (k : RecordKey) :
    rows'.get k = rows.get k ∨ k = key ∧ ∃ row, rows.get key = some row ∧ row.state = .inProgress := by
  have hupdate : ∀ set : IdempotencyRecord → IdempotencyRecord, (∀ row, (set row).key = row.key) →
      (updateInProgress rows key set).get k = rows.get k ∨
        k = key ∧ ∃ row, rows.get key = some row ∧ row.state = .inProgress := by
    intro set hset
    rw [get_updateInProgress rows key hset]
    by_cases hk : k = key
    · subst hk
      rw [if_pos rfl]
      cases hrow : rows.get k with
      | none => exact .inl rfl
      | some row =>
        by_cases hstate : row.state = .inProgress
        · exact .inr ⟨rfl, row, rfl, hstate⟩
        · left
          rw [Option.map_some, if_neg hstate]
    · rw [if_neg hk]
      exact .inl rfl
  cases h with
  | same => exact .inl rfl
  | completed statusCode responseJson expiresAt success => exact hupdate _ fun _ => rfl
  | rearmed expiresAt => exact hupdate _ fun _ => rfl

/-! ### What holds along a run -/

lemma not_lt_of_not_lt {clock now expiresAt : DateTime} (hclock : ¬ now < clock) (hlease : ¬ clock < expiresAt) :
    ¬ now < expiresAt := by
  rw [← DateTime.isoformat_lt_iff] at hclock hlease ⊢
  exact fun hlt => hlease (List.lt_of_le_of_lt (List.not_lt.mp hclock) hlt)

/-- The row under which a worker holds its reservation. -/
def Server.Stored (s : Server) (id : ℕ) (worker : Worker) : Prop :=
  ∃ row expiresAt, s.rows.get worker.request.key = some row ∧ row.state = .inProgress ∧
    s.owner worker.request.key = some id ∧ worker.reservedAt.addMinutes reservationLease = some expiresAt ∧
    row.expiresAt = expiresAt.isoformat

def Server.Expired (s : Server) (worker : Worker) : Prop :=
  ∀ expiresAt, worker.reservedAt.addMinutes reservationLease = some expiresAt → ¬ s.clock < expiresAt

structure Server.Sound (s : Server) : Prop where
  fresh : ∀ id worker, s.running id = some worker → id < s.arrived
  responses : ∀ key row, s.rows.get key = some row → row.state = .completed → ∃ statusCode responseJson,
    row.statusCode = some statusCode ∧ row.responseJson = some responseJson ∧
      ⟨⟨key, row.requestSha256⟩, statusCode, responseJson⟩ ∈ s.executed
  hashes : ∀ key row id worker, s.rows.get key = some row → row.state = .inProgress → s.owner key = some id →
    s.running id = some worker → worker.request.key = key → row.requestSha256 = worker.request.requestSha256
  leases : ∀ id worker, s.running id = some worker → s.Stored id worker ∨ s.Expired worker
  replays : ∀ answered ∈ s.replays, answered ∈ s.executed

lemma Server.Sound.fenced {s : Server} (h : s.Sound) : s.Fenced := by
  refine ⟨h.replays, ?_⟩
  have howner : ∀ id key, s.Holds id key → s.owner key = some id := by
    rintro id key ⟨worker, expiresAt, hrunning, rfl, hlease, hlt⟩
    rcases h.leases id worker hrunning with ⟨-, -, -, -, howner, -⟩ | hexpired
    · exact howner
    · exact absurd hlt (hexpired expiresAt hlease)
  intro i j key hi hj
  exact Option.some.inj ((howner i key hi).symm.trans (howner j key hj))

section
variable {s : Server} {now : DateTime}

lemma Server.Sound.prune (h : s.Sound) (hclock : ¬ now < s.clock) :
    Server.Sound { s with clock := now, rows := pruneExpired s.rows now } := by
  refine ⟨h.fresh, ?_, ?_, ?_, h.replays⟩
  · intro key row hrow hstate
    exact h.responses key row (get_pruneExpired.mp hrow).1 hstate
  · intro key row id worker hrow
    exact h.hashes key row id worker (get_pruneExpired.mp hrow).1
  · intro id worker hrunning
    rcases h.leases id worker hrunning with ⟨row, expiresAt, hrow, hstate, howner, hlease, hexpires⟩ | hexpired
    · by_cases hlt : now < expiresAt
      · refine .inl ⟨row, expiresAt, get_pruneExpired.mpr ⟨hrow, ?_⟩, hstate, howner, hlease, hexpires⟩
        rw [hexpires]
        exact (DateTime.isoformat_lt_iff _ _).mpr hlt
      · right
        intro expiresAt' hlease'
        rw [hlease] at hlease'
        cases hlease'
        exact hlt
    · exact .inr fun expiresAt hlease => not_lt_of_not_lt hclock (hexpired expiresAt hlease)

lemma Server.Sound.later (h : s.Sound) (hclock : ¬ now < s.clock) : Server.Sound { s with clock := now } := by
  refine ⟨h.fresh, h.responses, h.hashes, ?_, h.replays⟩
  intro id worker hrunning
  rcases h.leases id worker hrunning with hstored | hexpired
  · exact .inl hstored
  · exact .inr fun expiresAt hlease => not_lt_of_not_lt hclock (hexpired expiresAt hlease)

lemma Server.Sound.start (h : s.Sound) (request : Request) {expiresAt : DateTime}
    (hlease : s.clock.addMinutes reservationLease = some expiresAt) (hfree : s.rows.get request.key = none) :
    Server.Sound { s with
      rows := s.rows.put (reservedRow request.key request.requestSha256 s.clock expiresAt)
      arrived := s.arrived + 1
      running := update s.running s.arrived (some ⟨request, s.clock⟩)
      owner := update s.owner request.key (some s.arrived) } := by
  have hget : ∀ key, (s.rows.put (reservedRow request.key request.requestSha256 s.clock expiresAt)).get key =
      if key = request.key then some (reservedRow request.key request.requestSha256 s.clock expiresAt)
      else s.rows.get key := fun key => Table.get_put _ _ key
  have hold : ∀ id worker, s.running id = some worker → id ≠ s.arrived :=
    fun id worker hrunning => Nat.ne_of_lt (h.fresh id worker hrunning)
  refine ⟨?_, ?_, ?_, ?_, h.replays⟩
  · intro id worker hrunning
    simp only [update_apply] at hrunning ⊢
    split_ifs at hrunning with hid
    · omega
    · have := h.fresh id worker hrunning
      omega
  · intro key row hrow hstate
    rw [hget] at hrow
    split_ifs at hrow with hkey
    · cases hrow
      cases hstate
    · exact h.responses key row hrow hstate
  · intro key row id worker hrow hstate howner hrunning hkey
    simp only [update_apply] at howner hrunning
    rw [hget] at hrow
    by_cases hrequest : key = request.key
    · rw [if_pos hrequest] at hrow howner
      cases howner
      rw [if_pos rfl] at hrunning
      cases hrow
      cases hrunning
      rfl
    · rw [if_neg hrequest] at hrow howner
      split_ifs at hrunning with hid
      · cases hrunning
        exact absurd hkey.symm hrequest
      · exact h.hashes key row id worker hrow hstate howner hrunning hkey
  · intro id worker hrunning
    simp only [update_apply] at hrunning
    split_ifs at hrunning with hid
    · cases hrunning
      left
      refine ⟨_, expiresAt, (hget _).trans (if_pos rfl), rfl, ?_, hlease, rfl⟩
      simp only [update_self, hid]
    · rcases h.leases id worker hrunning with ⟨row, expiresAt', hrow, hstate, howner, hlease', hexpires⟩ | hexpired
      · left
        have hkey : worker.request.key ≠ request.key := by
          intro hkey
          rw [hkey, hfree] at hrow
          cases hrow
        refine ⟨row, expiresAt', ?_, hstate, ?_, hlease', hexpires⟩
        · exact (hget _).trans ((if_neg hkey).trans hrow)
        · simp only [update_apply, if_neg hkey, howner]
      · exact .inr hexpired

lemma Server.Sound.arrive (h : s.Sound) (hclock : ¬ now < s.clock) (request : Request) :
    (s.arrive request now).Sound := by
  have hbegun := beginIdempotent_begun s.rows request now
  unfold Server.arrive
  generalize beginIdempotent s.rows request now = out at hbegun
  cases hbegun with
  | refused e => exact h.later hclock
  | occupied e => exact h.prune hclock
  | replayed row stored completed same responseJson body =>
    have hpruned := h.prune hclock
    refine ⟨hpruned.fresh, hpruned.responses, hpruned.hashes, hpruned.leases, ?_⟩
    intro answered hmem
    rcases List.mem_append.mp hmem with hmem | hmem
    · exact h.replays answered hmem
    · cases List.mem_singleton.mp hmem
      obtain ⟨statusCode, responseJson', hcode, hbody, hexecuted⟩ := hpruned.responses _ row stored completed
      rw [body] at hbody
      cases hbody
      rw [same] at hexecuted
      rw [hcode]
      exact hexecuted
  | started expiresAt lease free => exact (h.prune hclock).start request lease free

lemma Server.Sound.settle (h : s.Sound) (hclock : ¬ now < s.clock) {id : ℕ} {worker : Worker} {outcome : Outcome}
    (hcurrent : s.Current (.finish id outcome now)) (hrunning : s.running id = some worker) {rows : Rows}
    (hsettled : Settled s.rows worker.request.key outcome now rows) :
    Server.Sound { s with
      clock := now
      rows := rows
      running := update s.running id none
      executed := s.executed ++ outcome.answers worker.request } := by
  have hothers : ∀ id' worker', update s.running id none id' = some worker' →
      id' ≠ id ∧ s.running id' = some worker' := by
    intro id' worker' hrunning'
    simp only [update_apply] at hrunning'
    split_ifs at hrunning' with hid
    exact ⟨hid, hrunning'⟩
  have hmine : ∀ stored, s.rows.get worker.request.key = some stored → stored.state = .inProgress →
      s.owner worker.request.key = some id := fun stored => hcurrent worker stored hrunning
  refine ⟨?_, ?_, ?_, ?_, fun answered hmem => List.mem_append_left _ (h.replays answered hmem)⟩
  · intro id' worker' hrunning'
    exact h.fresh id' worker' (hothers id' worker' hrunning').2
  · intro key row hrow hstate
    have hkept : s.rows.get key = some row → ∃ statusCode responseJson, row.statusCode = some statusCode ∧
        row.responseJson = some responseJson ∧ ⟨⟨key, row.requestSha256⟩, statusCode, responseJson⟩ ∈
          s.executed ++ outcome.answers worker.request := by
      intro hrow
      obtain ⟨statusCode, responseJson, hcode, hbody, hmem⟩ := h.responses key row hrow hstate
      exact ⟨statusCode, responseJson, hcode, hbody, List.mem_append_left _ hmem⟩
    rcases hsettled.get key with hsame | ⟨rfl, stored, hstored, hprogress⟩
    · exact hkept (hsame.symm.trans hrow)
    · cases hsettled with
      | same => exact hkept hrow
      | completed statusCode responseJson expiresAt success =>
        obtain rfl := Option.some.inj
          ((get_updateInProgress_self (by intro _; rfl) hstored hprogress).symm.trans hrow)
        have hhash := h.hashes _ stored id worker hstored hprogress (hmine stored hstored hprogress) hrunning rfl
        refine ⟨statusCode, responseJson, rfl, rfl, List.mem_append_right _ ?_⟩
        rw [success.1, hhash]
        simp [Outcome.answers, if_pos success.2]
      | rearmed expiresAt =>
        obtain rfl := Option.some.inj
          ((get_updateInProgress_self (by intro _; rfl) hstored hprogress).symm.trans hrow)
        change stored.state = .completed at hstate
        rw [hprogress] at hstate
        cases hstate
  · intro key row id' worker' hrow hstate howner hrunning'
    obtain ⟨hid, hrunning'⟩ := hothers id' worker' hrunning'
    rcases hsettled.get key with hsame | ⟨rfl, stored, hstored, hprogress⟩
    · exact h.hashes key row id' worker' (hsame.symm.trans hrow) hstate howner hrunning'
    · rw [hmine stored hstored hprogress] at howner
      cases howner
      exact absurd rfl hid
  · intro id' worker' hrunning'
    obtain ⟨hid, hrunning'⟩ := hothers id' worker' hrunning'
    rcases h.leases id' worker' hrunning' with ⟨row, expiresAt, hrow, hstate, howner, hlease, hexpires⟩ | hexpired
    · left
      rcases hsettled.get worker'.request.key with hsame | ⟨hkey, stored, hstored, hprogress⟩
      · exact ⟨row, expiresAt, hsame.trans hrow, hstate, howner, hlease, hexpires⟩
      · rw [hkey, hmine stored hstored hprogress] at howner
        cases howner
        exact absurd rfl hid
    · exact .inr fun expiresAt hlease => not_lt_of_not_lt hclock (hexpired expiresAt hlease)

lemma Server.Sound.step {t : Server} {event : Event} (h : s.Sound) (hcurrent : s.Current event)
    (hstep : s.step event = some t) : t.Sound := by
  cases event with
  | arrive request now =>
    simp only [Server.step] at hstep
    split_ifs at hstep with hclock
    cases hstep
    exact h.arrive hclock request
  | finish id outcome now =>
    simp only [Server.step] at hstep
    split_ifs at hstep with hclock
    obtain ⟨worker, hrunning, hfinish⟩ := Option.map_eq_some_iff.mp hstep
    cases hfinish
    exact h.settle hclock hcurrent hrunning (endIdempotent_settled _ _ _ _)
  | vanish id =>
    obtain ⟨worker, -, hvanish⟩ := Option.map_eq_some_iff.mp hstep
    cases hvanish
    have hothers : ∀ id' worker', update s.running id none id' = some worker' →
        s.running id' = some worker' := by
      intro id' worker' hrunning'
      simp only [update_apply] at hrunning'
      split_ifs at hrunning' with hid
      exact hrunning'
    refine ⟨?_, h.responses, ?_, ?_, h.replays⟩
    · intro id' worker' hrunning'
      exact h.fresh id' worker' (hothers id' worker' hrunning')
    · intro key row id' worker' hrow hstate howner hrunning'
      exact h.hashes key row id' worker' hrow hstate howner (hothers id' worker' hrunning')
    · intro id' worker' hrunning'
      exact h.leases id' worker' (hothers id' worker' hrunning')
  | prune now =>
    simp only [Server.step] at hstep
    split_ifs at hstep with hclock
    cases hstep
    exact h.prune hclock

end

lemma spares_of_current {s t : Server} {id : ℕ} {outcome : Outcome} {now : DateTime}
    (hcurrent : s.Current (.finish id outcome now)) (hstep : s.step (.finish id outcome now) = some t) :
    s.Spares t id := by
  simp only [Server.step] at hstep
  split_ifs at hstep with hclock
  obtain ⟨worker, hrunning, hfinish⟩ := Option.map_eq_some_iff.mp hstep
  cases hfinish
  intro key row hrow hstate howner
  rcases (endIdempotent_settled s.rows worker.request.key outcome now).get key with hsame | ⟨rfl, -⟩
  · exact hsame.trans hrow
  · exact absurd (hcurrent worker row hrunning hrow hstate) howner

/-- Where no request ends on another one's reservation, replays are answers to equal requests, an
unexpired reservation has one holder, and the end of a request spares the reservations of others. -/
theorem fencing (clock : DateTime) (s : Server) (hs : (server clock).Reached Server.Current s) :
    s.Fenced ∧ ∀ id outcome now t, s.Current (.finish id outcome now) →
      s.step (.finish id outcome now) = some t → s.Spares t id := by
  have hsound : s.Sound := by
    refine hs.invariant ?_ fun _ _ _ hsound hcurrent hstep => hsound.step hcurrent hstep
    refine ⟨?_, ?_, ?_, ?_, ?_⟩
    · rintro id worker ⟨⟩
    · rintro key row ⟨⟩
    · rintro key row id worker ⟨⟩
    · rintro id worker ⟨⟩
    · rintro answered ⟨⟩
  exact ⟨hsound.fenced, fun id outcome now t => spares_of_current⟩

def minute (m : Fin 60) : DateTime := newYear m

def rollbackKey : RecordKey := ⟨"principal-1", "POST", "changes.rollback", "key-1"⟩

def firstRequest : Request := ⟨rollbackKey, "sha-a"⟩

def secondRequest : Request := ⟨rollbackKey, "sha-b"⟩

/-- The second request takes the expired reservation of the first one over. -/
def takeover : List Event := [.arrive firstRequest (minute 0), .arrive secondRequest (minute 6)]

/-- A request that ends after its reservation was taken over answers for the other request, or
cuts its lease. -/
theorem stale_request_unfenced :
    (∃ s, (server (minute 0)).runFrom (server (minute 0)).init (takeover ++
        [.finish 0 (.returned 200 "first") (minute 7), .arrive secondRequest (minute 8)]) = some s ∧
      s.replays = [⟨secondRequest, 200, "first"⟩] ∧ s.executed = [⟨firstRequest, 200, "first"⟩] ∧ ¬ s.Fenced) ∧
    ∃ s, (server (minute 0)).runFrom (server (minute 0)).init (takeover ++
        [.finish 0 .raised (minute 7), .arrive firstRequest (minute 9)]) = some s ∧
      s.Holds 1 rollbackKey ∧ s.Holds 2 rollbackKey ∧ ¬ s.Fenced := by
  constructor
  · refine ⟨_, rfl, rfl, rfl, fun h => ?_⟩
    have hmem := h.replays ⟨secondRequest, 200, "first"⟩ List.mem_cons_self
    exact absurd (List.mem_singleton.mp hmem) (by decide)
  · have hsecond : ∀ s, (server (minute 0)).runFrom (server (minute 0)).init (takeover ++
        [.finish 0 .raised (minute 7), .arrive firstRequest (minute 9)]) = some s →
        s.Holds 1 rollbackKey ∧ s.Holds 2 rollbackKey := by
      intro s hs
      cases hs
      exact ⟨⟨⟨secondRequest, minute 6⟩, minute 11, rfl, rfl, rfl, by decide⟩,
        ⟨⟨firstRequest, minute 9⟩, minute 14, rfl, rfl, rfl, by decide⟩⟩
    refine ⟨_, rfl, (hsecond _ rfl).1, (hsecond _ rfl).2, fun h => ?_⟩
    cases h.holders 1 2 rollbackKey (hsecond _ rfl).1 (hsecond _ rfl).2

/-- A request that ends within its lease is replayed to an equal one. -/
theorem request_replayed : ∃ s, (server (minute 0)).runFrom (server (minute 0)).init
      [.arrive firstRequest (minute 0), .finish 0 (.returned 200 "first") (minute 1),
        .arrive firstRequest (minute 2)] = some s ∧
    s.replays = [⟨firstRequest, 200, "first"⟩] ∧ s.Fenced := by
  have hstart : (server (minute 0)).Reached Server.Current
      (((server (minute 0)).init.arrive firstRequest (minute 0))) :=
    .next (.arrive firstRequest (minute 0)) .start trivial rfl
  refine ⟨_, rfl, rfl, (fencing (minute 0) _ (.next (.arrive firstRequest (minute 2))
    (.next (.finish 0 (.returned 200 "first") (minute 1)) hstart ?_ rfl) trivial rfl)).1⟩
  rintro worker row ⟨⟩ - -
  rfl

end IncidentLens.Idempotency
