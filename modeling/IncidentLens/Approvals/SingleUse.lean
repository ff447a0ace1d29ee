import IncidentLens.Approvals.Store

/-!
# Single use and expiry of approvals

The calls of many clients interleave: between the read of a decision or a consumption and
its conditional update any other statements may run. Whatever the order, an approval moves
forward only, and it is consumed at most once, by a call with the approved intent, before
it expires.
-/
namespace IncidentLens.Approvals
open Data Consumption List

/-- The table, the calls between their read and their update, and the consumptions so far. -/
structure State where
  rows : Rows := default
  deciding : List Decision := []
  consuming : List Consumption := []
  consumed : List Consumption := []

inductive Event
  | create (r : Request)
  | select (d : Decision)
  | decide (i : ℕ)
  | read (c : Consumption)
  | consume (i : ℕ)
  | markDownstream (m : Downstream)

/-- One statement of some call, with the error the call raises when it is refused. -/
def step (sha256 : Bytes → String) (s : State) : Event → State × Option ApprovalError
  | .create r => match create sha256 s.rows r with
    | .error e => (s, some e)
    | .ok rows => ({ s with rows := rows }, none)
  | .select d => match d.select s.rows with
    | .error e => (s, some e)
    | .ok _ => ({ s with deciding := d :: s.deciding }, none)
  | .decide i => match s.deciding[i]? with
    | none => (s, none)
    | some d => match d.update s.rows with
      | .error e => ({ s with deciding := s.deciding.eraseIdx i }, some e)
      | .ok rows => ({ s with rows := rows, deciding := s.deciding.eraseIdx i }, none)
  | .read c => match c.read sha256 s.rows with
    | .error e => (s, some e)
    | .ok _ => ({ s with consuming := c :: s.consuming }, none)
  | .consume i => match s.consuming[i]? with
    | none => (s, none)
    | some c => match c.update s.rows with
      | .error e => ({ s with consuming := s.consuming.eraseIdx i }, some e)
      | .ok rows => ({ s with
          rows := rows
          consuming := s.consuming.eraseIdx i
          consumed := c :: s.consumed }, none)
  | .markDownstream m => ({ s with rows := m.update s.rows }, none)

def run (sha256 : Bytes → String) (es : List Event) : State := es.foldl (fun s e => (step sha256 s e).1) {}

/-- `pending → approved | rejected` and `approved → consumed`. -/
inductive Advance : ApprovalStatus → ApprovalStatus → Prop
  | stay (status : ApprovalStatus) : Advance status status
  | approve : Advance .pending .approved
  | reject : Advance .pending .rejected
  | consume : Advance .approved .consumed

structure Follows (row row' : ApprovalRow) : Prop where
  approvalId : row'.approvalId = row.approvalId
  intentSha256 : row'.intentSha256 = row.intentSha256
  intent : row'.intent = row.intent
  createdAt : row'.createdAt = row.createdAt
  expiresAt : row'.expiresAt = row.expiresAt
  status : Advance row.status row'.status

lemma Follows.refl (row : ApprovalRow) : Follows row row := ⟨rfl, rfl, rfl, rfl, rfl, .stay _⟩

/-- The call had the approved intent and came before the approval expired. -/
def Rightful (sha256 : Bytes → String) (c : Consumption) (row : ApprovalRow) : Prop :=
  intentSha256 sha256 c.intent = row.intentSha256 ∧
    ∃ expiresAt : DateTime, row.expiresAt = expiresAt.isoformat ∧ c.now < expiresAt

variable {sha256 : Bytes → String} {c : Consumption} {rows rows' : Rows} {approvalId : String}
  {condition : ApprovalRow → Bool} {set : ApprovalRow → ApprovalRow} {s : State} {s' : State × Option ApprovalError}

lemma Rightful.follows {row row' : ApprovalRow}
    (h : Rightful sha256 c row) (hrow : Follows row row') : Rightful sha256 c row' := by
  obtain ⟨hsha, expiresAt, hexpires, hnow⟩ := h
  exact ⟨hsha.trans hrow.intentSha256.symm, expiresAt, hrow.expiresAt.trans hexpires, hnow⟩

/-- What one statement may do to the table and to the consumptions. -/
structure Regulated (sha256 : Bytes → String) (s : State) (s' : State × Option ApprovalError) :
    Prop where
  refused : s'.2 ≠ none → s'.1.rows = s.rows
  rows : ∀ id row, s.rows.get id = some row → ∃ row', s'.1.rows.get id = some row' ∧ Follows row row'
  fresh : ∀ id row', s.rows.get id = none → s'.1.rows.get id = some row' → row'.status = .pending
  logged : s'.1.consumed = s.consumed ∨ ∃ c row, s'.1.consumed = c :: s.consumed ∧
    s.rows.get c.approvalId = some row ∧ row.status = .approved ∧ Rightful sha256 c row ∧
    s'.1.rows.get c.approvalId = some (c.set row)
  consumed : ∀ id row', s'.1.rows.get id = some row' → row'.status = .consumed →
    (∃ row, s.rows.get id = some row ∧ row.status = .consumed) ∨ ∃ c, s'.1.consumed = c :: s.consumed ∧ c.approvalId = id

/-- The consumptions of the log are those of the consumed rows, one each, and rightful. -/
structure Accounted (sha256 : Bytes → String) (s : State) : Prop where
  once : (s.consumed.map Consumption.approvalId).Nodup
  consumed : ∀ c ∈ s.consumed, ∃ row, s.rows.get c.approvalId = some row ∧ row.status = .consumed ∧ Rightful sha256 c row
  logged : ∀ id row, s.rows.get id = some row → row.status = .consumed → ∃ c ∈ s.consumed, c.approvalId = id

/-- Single use: so far, and whatever statement comes next. -/
structure SingleUse (sha256 : Bytes → String) (s : State) : Prop extends Accounted sha256 s where
  regulated : ∀ e, Regulated sha256 s (step sha256 s e)

/-- Every expiry is the text of a time, and every consumption under way has compared its
intent with a row that still carries the same hash. -/
structure Sound (sha256 : Bytes → String) (s : State) : Prop where
  expiresAt : ∀ id row, s.rows.get id = some row → ∃ expiresAt : DateTime, row.expiresAt = expiresAt.isoformat
  consuming : ∀ c ∈ s.consuming, ∃ row, s.rows.get c.approvalId = some row ∧
    intentSha256 sha256 c.intent = row.intentSha256

lemma updateWhere_follows (h : updateWhere rows approvalId condition set = some rows')
    (hset : ∀ row, condition row = true → Follows row (set row)) :
    (∀ id row, rows.get id = some row → ∃ row', rows'.get id = some row' ∧ Follows row row') ∧
      ∀ id row', rows'.get id = some row' → ∃ row, rows.get id = some row ∧
        (row' = row ∨ condition row = true ∧ row' = set row) := by
  obtain ⟨found, hfound, hcondition, rfl⟩ := updateWhere_eq_some h
  have hkey : (set found).approvalId = approvalId := (hset found hcondition).approvalId.trans (rows.keyed _ _ hfound)
  constructor
  · intro id row hrow
    by_cases hid : id = approvalId
    · subst hid
      obtain rfl : found = row := Option.some.inj (hfound.symm.trans hrow)
      exact ⟨set found, by rw [Table.get_put, if_pos hkey.symm], hset found hcondition⟩
    · exact ⟨row, by rw [Table.get_put_of_ne _ (by rwa [hkey]), hrow], .refl row⟩
  · intro id row' hrow'
    by_cases hid : id = approvalId
    · subst hid
      rw [Table.get_put, if_pos hkey.symm] at hrow'
      exact ⟨found, hfound, .inr ⟨hcondition, (Option.some.inj hrow').symm⟩⟩
    · rw [Table.get_put_of_ne _ (by rwa [hkey])] at hrow'
      exact ⟨row', hrow', .inl rfl⟩

lemma Decision.set_follows (d : Decision) {row : ApprovalRow} (h : row.status = .pending) :
    Follows row (d.set row) := by
  refine ⟨rfl, rfl, rfl, rfl, rfl, ?_⟩
  rw [h]
  change Advance .pending d.verdict.status
  cases d.verdict with
  | approve => exact .approve
  | reject => exact .reject

lemma Consumption.set_follows (c : Consumption) {row : ApprovalRow} (h : row.status = .approved) :
    Follows row (c.set row) := by
  refine ⟨rfl, rfl, rfl, rfl, rfl, ?_⟩
  rw [h]
  exact .consume

lemma Downstream.set_follows (m : Downstream) (row : ApprovalRow) : Follows row (m.set row) :=
  ⟨rfl, rfl, rfl, rfl, rfl, .stay _⟩

variable {s t : State}

/-- A statement that advances rows and adds none keeps what is known of the expiries and of
the consumptions under way. -/
theorem Sound.follows (h : Sound sha256 s)
    (hrows : ∀ id row, s.rows.get id = some row → ∃ row', t.rows.get id = some row' ∧ Follows row row')
    (hfresh : ∀ id row, s.rows.get id = none → t.rows.get id = some row →
      ∃ expiresAt : DateTime, row.expiresAt = expiresAt.isoformat)
    (hconsuming : ∀ c ∈ t.consuming, c ∈ s.consuming) : Sound sha256 t := by
  constructor
  · intro id row' hrow'
    cases hrow : s.rows.get id with
    | none => exact hfresh id row' hrow hrow'
    | some row =>
      obtain ⟨row'', hrow'', hfollows⟩ := hrows id row hrow
      obtain rfl : row' = row'' := Option.some.inj (hrow'.symm.trans hrow'')
      obtain ⟨expiresAt, hexpires⟩ := h.expiresAt id row hrow
      exact ⟨expiresAt, hfollows.expiresAt.trans hexpires⟩
  · intro c hc
    obtain ⟨row, hrow, hsha⟩ := h.consuming c (hconsuming c hc)
    obtain ⟨row', hrow', hfollows⟩ := hrows _ row hrow
    exact ⟨row', hrow', hsha.trans hfollows.intentSha256.symm⟩

lemma Regulated.same (hrows : s'.1.rows = s.rows) (hconsumed : s'.1.consumed = s.consumed) : Regulated sha256 s s' where
  refused _ := hrows
  rows id row hrow := ⟨row, by rw [hrows, hrow], .refl row⟩
  fresh id row' hnone hrow' := by
    rw [hrows, hnone] at hrow'
    cases hrow'
  logged := .inl hconsumed
  consumed id row' hrow' hstatus := .inl ⟨row', by rw [← hrows, hrow'], hstatus⟩

lemma Regulated.updated (h : updateWhere s.rows approvalId condition set = some s'.1.rows) (haccepted : s'.2 = none)
    (hconsumed : s'.1.consumed = s.consumed) (hset : ∀ row, condition row = true → Follows row (set row))
    (hstatus : ∀ row, (set row).status = .consumed → row.status = .consumed) : Regulated sha256 s s' := by
  obtain ⟨hrows, hback⟩ := updateWhere_follows h hset
  refine ⟨fun hrefused => absurd haccepted hrefused, hrows, ?_, .inl hconsumed, ?_⟩
  · intro id row' hnone hrow'
    obtain ⟨row, hrow, -⟩ := hback id row' hrow'
    rw [hnone] at hrow
    cases hrow
  · intro id row' hrow' hconsumed'
    obtain ⟨row, hrow, rfl | ⟨-, rfl⟩⟩ := hback id row' hrow'
    · exact .inl ⟨row', hrow, hconsumed'⟩
    · exact .inl ⟨row, hrow, hstatus row hconsumed'⟩

lemma create_eq_ok {r : Request} (h : create sha256 rows r = .ok rows') :
    ∃ row, rows' = rows.put row ∧ rows.get row.approvalId = none ∧ row.status = .pending ∧
      ∃ expiresAt : DateTime, row.expiresAt = expiresAt.isoformat := by
  unfold create at h
  cases hexpires : r.now.addMinutes r.ttlMinutes with
  | none => simp [hexpires] at h
  | some expiresAt =>
    cases hrow : rows.get r.approvalId with
    | some row => simp [hexpires, hrow] at h
    | none =>
      simp only [hexpires, hrow, Except.ok.injEq] at h
      exact ⟨_, h.symm, hrow, rfl, expiresAt, rfl⟩

lemma Decision.update_eq_ok {d : Decision} (h : d.update rows = .ok rows') : updateWhere rows d.approvalId
      (fun row => row.status = .pending ∧ d.now.isoformat < row.expiresAt) d.set = some rows' := by
  unfold Decision.update at h
  split at h
  · rename_i rows'' hupdate
    rw [hupdate, Except.ok.inj h]
  · split at h
    · cases h
    · split_ifs at h

lemma Consumption.update_eq_ok (h : c.update rows = .ok rows') : updateWhere rows c.approvalId
      (fun row => row.status = .approved ∧ row.consumedAt = none ∧ c.now.isoformat < row.expiresAt)
      c.set = some rows' := by
  unfold update at h
  split at h
  · rename_i rows'' hupdate
    rw [hupdate, Except.ok.inj h]
  · cases h

lemma Consumption.update_row (h : c.update rows = .ok rows') :
    ∃ row, rows.get c.approvalId = some row ∧ row.status = .approved ∧
      c.now.isoformat < row.expiresAt ∧ rows' = rows.put (c.set row) := by
  obtain ⟨row, hrow, hcondition, hrows'⟩ := updateWhere_eq_some (update_eq_ok h)
  have hcondition' := of_decide_eq_true hcondition
  exact ⟨row, hrow, hcondition'.1, hcondition'.2.2, hrows'⟩

lemma Consumption.read_eq_ok {rows : Rows} (h : c.read sha256 rows = .ok ()) :
    ∃ row, rows.get c.approvalId = some row ∧ intentSha256 sha256 c.intent = row.intentSha256 := by
  unfold read at h
  cases hrow : rows.get c.approvalId with
  | none => simp [hrow] at h
  | some row =>
    simp only [hrow] at h
    split_ifs at h with hsha
    exact ⟨row, rfl, not_not.mp hsha⟩

lemma Sound.updated (h : Sound sha256 s) (hupdate : updateWhere s.rows approvalId condition set = some t.rows)
    (hset : ∀ row, condition row = true → Follows row (set row))
    (hconsuming : ∀ c ∈ t.consuming, c ∈ s.consuming) : Sound sha256 t := by
  obtain ⟨hrows, hback⟩ := updateWhere_follows hupdate hset
  refine h.follows hrows ?_ hconsuming
  intro id row' hnone hrow'
  obtain ⟨row, hrow, -⟩ := hback id row' hrow'
  rw [hnone] at hrow
  cases hrow

lemma Sound.same (h : Sound sha256 s)
    (hrows : t.rows = s.rows) (hconsuming : ∀ c ∈ t.consuming, c ∈ s.consuming) : Sound sha256 t := by
  refine h.follows (fun id row hrow => ⟨row, by rw [hrows, hrow], .refl row⟩) ?_ hconsuming
  intro id row hnone hrow
  rw [hrows, hnone] at hrow
  cases hrow

lemma step_create (h : Sound sha256 s) (r : Request) :
    Regulated sha256 s (step sha256 s (.create r)) ∧ Sound sha256 (step sha256 s (.create r)).1 := by
  simp only [step]
  cases hcreate : create sha256 s.rows r with
  | error e => exact ⟨.same rfl rfl, h⟩
  | ok rows' =>
    obtain ⟨row, rfl, habsent, hpending, hexpires⟩ := create_eq_ok hcreate
    have hrows : ∀ id old, s.rows.get id = some old →
        ∃ row', (s.rows.put row).get id = some row' ∧ Follows old row' := by
      intro id old hold
      have hid : id ≠ row.approvalId := by
        rintro rfl
        rw [habsent] at hold
        cases hold
      exact ⟨old, by rw [Table.get_put_of_ne _ hid, hold], .refl old⟩
    have hback : ∀ id row', (s.rows.put row).get id = some row' →
        row' = row ∨ s.rows.get id = some row' := by
      intro id row' hrow'
      rw [Table.get_put] at hrow'
      split_ifs at hrow'
      · exact .inl (Option.some.inj hrow').symm
      · exact .inr hrow'
    have hfresh : ∀ id row', s.rows.get id = none → (s.rows.put row).get id = some row' →
        row' = row := by
      intro id row' hnone hrow'
      refine (hback id row' hrow').resolve_right ?_
      rw [hnone]
      rintro ⟨⟩
    constructor
    · refine ⟨fun hrefused => absurd rfl hrefused, hrows, ?_, .inl rfl, ?_⟩
      · intro id row' hnone hrow'
        rw [hfresh id row' hnone hrow', hpending]
      · intro id row' hrow' hstatus
        rcases hback id row' hrow' with rfl | hold
        · rw [hpending] at hstatus
          cases hstatus
        · exact .inl ⟨row', hold, hstatus⟩
    · refine h.follows hrows ?_ (fun c hc => hc)
      intro id row' hnone hrow'
      rw [hfresh id row' hnone hrow']
      exact hexpires

lemma step_decide (h : Sound sha256 s) (i : ℕ) :
    Regulated sha256 s (step sha256 s (.decide i)) ∧ Sound sha256 (step sha256 s (.decide i)).1 := by
  simp only [step]
  cases s.deciding[i]? with
  | none => exact ⟨.same rfl rfl, h⟩
  | some d =>
    cases hd : d.update s.rows with
    | error e =>
      simp only [hd]
      exact ⟨.same rfl rfl, h.same rfl fun c hc => hc⟩
    | ok rows' =>
      simp only [hd]
      have hset : ∀ row : ApprovalRow, decide (row.status = .pending ∧
          d.now.isoformat < row.expiresAt) = true → Follows row (d.set row) :=
        fun row hrow => d.set_follows (of_decide_eq_true hrow).1
      refine ⟨.updated (Decision.update_eq_ok hd) rfl rfl hset ?_,
        h.updated (Decision.update_eq_ok hd) hset fun c hc => hc⟩
      intro row hconsumed
      change d.verdict.status = .consumed at hconsumed
      cases hverdict : d.verdict <;> rw [hverdict] at hconsumed <;> cases hconsumed

/-- The heart of the matter: between the comparison of the hashes and the update the hash of
the row cannot change, and the update checks the rest itself. -/
theorem step_consume (h : Sound sha256 s) (i : ℕ) : Regulated sha256 s (step sha256 s (.consume i)) ∧
      Sound sha256 (step sha256 s (.consume i)).1 := by
  simp only [step]
  cases hi : s.consuming[i]? with
  | none => exact ⟨.same rfl rfl, h⟩
  | some c =>
    have herase : ∀ c' ∈ s.consuming.eraseIdx i, c' ∈ s.consuming := fun c' hc' => mem_of_mem_eraseIdx hc'
    cases hc : c.update s.rows with
    | error e =>
      simp only [hc]
      exact ⟨.same rfl rfl, h.same rfl herase⟩
    | ok rows' =>
      simp only [hc]
      have hset : ∀ row : ApprovalRow, decide (row.status = .approved ∧ row.consumedAt = none ∧
          c.now.isoformat < row.expiresAt) = true → Follows row (c.set row) :=
        fun row hrow => c.set_follows (of_decide_eq_true hrow).1
      obtain ⟨hrows, hback⟩ := updateWhere_follows (update_eq_ok hc) hset
      obtain ⟨row, hrow, happroved, hnow, rfl⟩ := update_row hc
      obtain ⟨row', hrow', hsha⟩ := h.consuming c (mem_of_getElem? hi)
      obtain rfl : row = row' := Option.some.inj (hrow.symm.trans hrow')
      obtain ⟨expiresAt, hexpires⟩ := h.expiresAt _ row hrow
      rw [hexpires, DateTime.isoformat_lt_iff] at hnow
      have hkey : (c.set row).approvalId = c.approvalId := by
        change row.approvalId = c.approvalId
        exact s.rows.keyed _ _ hrow
      refine ⟨⟨fun hrefused => absurd rfl hrefused, hrows, ?_, .inr ⟨c, row, rfl, hrow, happroved,
        ⟨hsha, expiresAt, hexpires, hnow⟩, ?_⟩, ?_⟩,
        h.updated (update_eq_ok hc) hset herase⟩
      · intro id row' hnone hrow'
        obtain ⟨old, hold, -⟩ := hback id row' hrow'
        rw [hnone] at hold
        cases hold
      · change (s.rows.put (c.set row)).get c.approvalId = _
        rw [← hkey, Table.get_put_self]
      · intro id row' hrow' hstatus
        by_cases hid : id = c.approvalId
        · exact .inr ⟨c, rfl, hid.symm⟩
        · refine .inl ⟨row', ?_, hstatus⟩
          rwa [Table.get_put_of_ne _ (by rwa [hkey])] at hrow'

lemma step_regulated (h : Sound sha256 s) (e : Event) :
    Regulated sha256 s (step sha256 s e) ∧ Sound sha256 (step sha256 s e).1 := by
  cases e with
  | create r => exact step_create h r
  | select d =>
    simp only [step]
    cases d.select s.rows with
    | error e => exact ⟨.same rfl rfl, h⟩
    | ok _ => exact ⟨.same rfl rfl, h.same rfl fun c hc => hc⟩
  | decide i => exact step_decide h i
  | read c =>
    simp only [step]
    cases hc : c.read sha256 s.rows with
    | error e => exact ⟨.same rfl rfl, h⟩
    | ok _ =>
      refine ⟨.same rfl rfl, h.expiresAt, ?_⟩
      intro c' hc'
      rcases mem_cons.mp hc' with rfl | hmem
      · exact read_eq_ok hc
      · exact h.consuming c' hmem
  | consume i => exact step_consume h i
  | markDownstream m =>
    simp only [step, Downstream.update]
    cases hm : updateWhere s.rows m.approvalId (fun _ => true) m.set with
    | none => exact ⟨.same rfl rfl, h⟩
    | some rows' =>
      exact ⟨.updated hm rfl rfl (fun row _ => m.set_follows row) fun _ hrow => hrow,
        h.updated hm (fun row _ => m.set_follows row) fun c hc => hc⟩

/-- A regulated statement keeps the account of the consumptions: nothing leaves `consumed`,
and what enters it was approved, so it is not yet in the log. -/
theorem Accounted.step (h : Accounted sha256 s) (hs : Regulated sha256 s s') : Accounted sha256 s'.1 := by
  have hkept : ∀ c ∈ s.consumed, ∃ row, s'.1.rows.get c.approvalId = some row ∧
      row.status = .consumed ∧ Rightful sha256 c row := by
    intro c hc
    obtain ⟨row, hrow, hstatus, hrightful⟩ := h.consumed c hc
    obtain ⟨row', hrow', hfollows⟩ := hs.rows _ row hrow
    have hadvance := hfollows.status
    rw [hstatus] at hadvance
    refine ⟨row', hrow', ?_, hrightful.follows hfollows⟩
    generalize row'.status = status at hadvance
    cases hadvance
    rfl
  rcases hs.logged with hsame | ⟨c, row, hlog, hrow, happroved, hrightful, hrow'⟩
  · refine ⟨by rw [hsame]; exact h.once, by rw [hsame]; exact hkept, ?_⟩
    intro id row' hrow' hstatus
    rcases hs.consumed id row' hrow' hstatus with ⟨row, hrow, hold⟩ | ⟨c, hc, -⟩
    · rw [hsame]
      exact h.logged id row hrow hold
    · rw [hsame] at hc
      exact absurd hc.symm (cons_ne_self c s.consumed)
  · have hnew : c.approvalId ∉ s.consumed.map Consumption.approvalId := by
      intro hmem
      obtain ⟨c', hc', hid⟩ := mem_map.mp hmem
      obtain ⟨old, hold, hstatus, -⟩ := h.consumed c' hc'
      rw [hid, hrow] at hold
      cases hold
      rw [happroved] at hstatus
      cases hstatus
    refine ⟨?_, ?_, ?_⟩
    · rw [hlog, map_cons, nodup_cons]
      exact ⟨hnew, h.once⟩
    · rw [hlog]
      intro c' hc'
      rcases mem_cons.mp hc' with rfl | hmem
      · exact ⟨_, hrow', rfl, hrightful⟩
      · exact hkept c' hmem
    · intro id row' hrow' hstatus
      rw [hlog]
      rcases hs.consumed id row' hrow' hstatus with ⟨row, hrow, hold⟩ | ⟨c', hc', hid⟩
      · obtain ⟨c', hc', hid⟩ := h.logged id row hrow hold
        exact ⟨c', mem_cons_of_mem c hc', hid⟩
      · rw [hlog] at hc'
        exact ⟨c', (cons.inj hc').1 ▸ mem_cons_self, hid⟩

lemma run_append (sha256 : Bytes → String) (es : List Event) (e : Event) :
    run sha256 (es ++ [e]) = (step sha256 (run sha256 es) e).1 := by
  simp only [run, foldl_append, foldl_cons, foldl_nil]

lemma run_sound (sha256 : Bytes → String) (es : List Event) :
    Sound sha256 (run sha256 es) ∧ Accounted sha256 (run sha256 es) := by
  induction es using reverseRecOn with
  | nil =>
    refine ⟨⟨?_, ?_⟩, .nil, ?_, ?_⟩
    · rintro id row ⟨⟩
    · rintro c ⟨⟩
    · rintro c ⟨⟩
    · rintro id row ⟨⟩
  | append_singleton es e ih =>
    obtain ⟨hsound, haccounted⟩ := ih
    obtain ⟨hregulated, hsound'⟩ := step_regulated hsound e
    rw [run_append]
    exact ⟨hsound', haccounted.step hregulated⟩

/-- In every interleaving approvals move forward only, and each is consumed at most once, by
a call with the approved intent while approved and before it expires. -/
theorem run_singleUse (sha256 : Bytes → String) (es : List Event) : SingleUse sha256 (run sha256 es) :=
  ⟨(run_sound sha256 es).2, fun e => (step_regulated (run_sound sha256 es).1 e).1⟩

end IncidentLens.Approvals
