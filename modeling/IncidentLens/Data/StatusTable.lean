import IncidentLens.Data.Table
import Mathlib.Data.List.Chain

/-!
# Records with a status column

Rows hold a record and, in a column of its own, the text of the record's status. A whole record
is replaced where the column shows the record's own status; a move reads a record, derives its
successor and later replaces the row where the column still shows the status it has read. A log
of the writes tells what became of a row.
-/
namespace IncidentLens.Data

open Option

/-- What records of a kind show, and the moves from one status to the next. -/
structure RecordKind (R σ υ γ : Type*) where
  key : R → String
  /-- The columns that are written with a new row only. -/
  columns : R → γ
  status : R → σ
  usage : R → υ
  /-- The text of a status. -/
  value : σ → String
  value_injective : Function.Injective value
  moves : σ → σ → Bool
  terminal : σ → Bool
  absorbing : ∀ a b, terminal a = true → moves a b = false
  /-- What a new row asks of the columns of the others. -/
  admits : (String → Option γ) → R → Bool

namespace RecordKind
variable {R σ υ γ : Type*} (K : RecordKind R σ υ γ)

structure Row (R γ : Type*) where
  key : String
  columns : γ
  status : String
  record : R

/-- A move to a status; nothing else of what the record shows is changed. -/
structure Move where
  key : String
  target : σ
  derive : R → Option R
  derived : ∀ r r', derive r = some r' → K.key r' = K.key r ∧ K.status r' = target ∧ K.usage r' = K.usage r

inductive Origin
  | create | update | move
  deriving DecidableEq

/-- A write to the row with a key, with the record that the row held before. -/
structure Write (R : Type*) where
  key : String
  origin : Origin
  before : Option R
  after : R

/-- A move between its two statements, with the writes that were there when it has read. -/
structure Reading (R σ : Type*) where
  key : String
  current : R
  target : σ
  updated : R
  since : List (Write R)

/-- The rows, the moves under way by their writers, and the writes, the last one first. -/
structure Sheet (R σ γ : Type*) where
  rows : Table (Row.key : Row R γ → String) := .empty
  readings : ℕ → Option (Reading R σ) := fun _ => none
  log : List (Write R) := []

inductive Step
  | create (r : R)
  | update (r : R)
  | read (writer : ℕ) (m : K.Move)
  | write (writer : ℕ)

namespace Sheet
variable (s : Sheet R σ γ)

def columns (key : String) : Option γ := (s.rows.get key).map Row.columns

def put (origin : Origin) (before : Option R) (row : Row R γ) : Sheet R σ γ :=
  { s with rows := s.rows.put row, log := ⟨row.key, origin, before, row.record⟩ :: s.log }

def done (writer : ℕ) : Sheet R σ γ := { s with readings := Function.update s.readings writer none }

def reads (writer : ℕ) (p : Reading R σ) : Sheet R σ γ :=
  { s with readings := Function.update s.readings writer (some p) }

@[simp] lemma rows_done (writer : ℕ) : (s.done writer).rows = s.rows := rfl

@[simp] lemma readings_done (writer w : ℕ) :
    (s.done writer).readings w = if w = writer then none else s.readings w := by
  simp only [done, Function.update_apply]

@[simp] lemma readings_reads (writer w : ℕ) (p : Reading R σ) :
    (s.reads writer p).readings w = if w = writer then some p else s.readings w := by
  simp only [reads, Function.update_apply]

end Sheet

def step (s : Sheet R σ γ) : K.Step → Option (Sheet R σ γ)
  | .create r =>
    if (s.rows.get (K.key r)).isNone ∧ K.admits s.columns r then
      some (s.put .create none ⟨K.key r, K.columns r, K.value (K.status r), r⟩)
    else none
  | .update r => (s.rows.get (K.key r)).bind fun row =>
    if row.status = K.value (K.status r) then
      some (s.put .update (some row.record) { row with status := K.value (K.status r), record := r })
    else none
  | .read writer m => (s.rows.get m.key).bind fun row =>
    if (s.readings writer).isNone ∧ K.moves (K.status row.record) m.target then
      (m.derive row.record).map fun updated =>
        s.reads writer ⟨m.key, row.record, m.target, updated, s.log⟩
    else none
  | .write writer => (s.readings writer).map fun p =>
    match s.rows.get p.key with
    | none => s.done writer
    | some row =>
      if row.status = K.value (K.status p.current) then
        (s.done writer).put .move (some row.record)
          { row with status := K.value p.target, record := p.updated }
      else s.done writer

/-- The statuses that a row has shown, the last one first. -/
def history (log : List (Write R)) (key : String) : List σ :=
  (log.filter fun w => w.key = key).map fun w => K.status w.after

/-- From one status of a row to the next: it stays, or the table has the move. -/
def Follows (later earlier : σ) : Prop := later = earlier ∨ K.moves earlier later = true

/-- A write that leaves the usage as the row had it. -/
def Keeps (w : Write R) : Prop := ∃ b, w.before = some b ∧ K.usage w.after = K.usage b

/-- No usage is added to the row with a key by a replacing of its whole record. -/
def Quiet (key : String) (log : List (Write R)) : Prop := ∀ w ∈ log, w.key = key → w.origin = .update → K.Keeps w

/-- When a move's second statement finds the status it has read, nobody has added usage since. -/
def Undisturbed (s : Sheet R σ γ) : K.Step → Prop
  | .write writer => ∀ p row recent, s.readings writer = some p → s.rows.get p.key = some row →
      row.status = K.value (K.status p.current) → s.log = recent ++ p.since → K.Quiet p.key recent
  | _ => True

/-- The column shows the record's status, a row's statuses follow the moves and stay once one is
terminal, and no move has taken usage from a row. -/
structure Consistent (s : Sheet R σ γ) : Prop where
  column : ∀ key row, s.rows.get key = some row → row.status = K.value (K.status row.record)
  follows : ∀ key, (K.history s.log key).IsChain K.Follows
  absorbed : ∀ key later a earlier, K.history s.log key = later ++ a :: earlier → K.terminal a = true →
    ∀ b ∈ later, b = a
  keeps : ∀ w ∈ s.log, w.origin = .move → K.Keeps w

inductive Takes (s : Sheet R σ γ) : K.Step → Sheet R σ γ → Prop
  | create (r : R) : s.rows.get (K.key r) = none →
      Takes s (.create r) (s.put .create none ⟨K.key r, K.columns r, K.value (K.status r), r⟩)
  | update (r : R) (row : Row R γ) : s.rows.get (K.key r) = some row →
      row.status = K.value (K.status r) → Takes s (.update r)
        (s.put .update (some row.record) { row with status := K.value (K.status r), record := r })
  | read (writer : ℕ) (m : K.Move) (row : Row R γ) (updated : R) : s.rows.get m.key = some row →
      K.moves (K.status row.record) m.target = true → m.derive row.record = some updated →
      Takes s (.read writer m) (s.reads writer ⟨m.key, row.record, m.target, updated, s.log⟩)
  | write (writer : ℕ) (p : Reading R σ) (row : Row R γ) : s.readings writer = some p →
      s.rows.get p.key = some row → row.status = K.value (K.status p.current) →
      Takes s (.write writer) ((s.done writer).put .move (some row.record)
        { row with status := K.value p.target, record := p.updated })
  | lapse (writer : ℕ) : Takes s (.write writer) (s.done writer)

variable {K} {s t : Sheet R σ γ} {e : K.Step}

lemma step_takes (h : K.step s e = some t) : K.Takes s e t := by
  cases e with
  | create r =>
    simp only [step, ite_none_right_eq_some, isNone_iff_eq_none, some_inj] at h
    obtain ⟨⟨hnone, -⟩, rfl⟩ := h
    exact .create r hnone
  | update r =>
    simp only [step, bind_eq_some_iff, ite_none_right_eq_some, some_inj] at h
    obtain ⟨row, hrow, hstatus, rfl⟩ := h
    exact .update r row hrow hstatus
  | read writer m =>
    simp only [step, bind_eq_some_iff, ite_none_right_eq_some, map_eq_some_iff] at h
    obtain ⟨row, hrow, ⟨-, hmove⟩, updated, hderive, rfl⟩ := h
    exact .read writer m row updated hrow hmove hderive
  | write writer =>
    obtain ⟨p, hp, rfl⟩ := map_eq_some_iff.mp h
    cases hrow : s.rows.get p.key with
    | none => exact .lapse writer
    | some row =>
      by_cases hstatus : row.status = K.value (K.status p.current)
      · simp only [hstatus, if_true]
        exact .write writer p row hp hrow hstatus
      · simp only [hstatus, if_false]
        exact .lapse writer

/-- The rows and the log of a sheet tell the same, and the moves under way are moves. -/
structure Sound (K : RecordKind R σ υ γ) (s : Sheet R σ γ) : Prop where
  keyed : ∀ key row, s.rows.get key = some row → K.key row.record = key
  column : ∀ key row, s.rows.get key = some row → row.status = K.value (K.status row.record)
  last : ∀ key, (K.history s.log key).head? = (s.rows.get key).map fun row => K.status row.record
  follows : ∀ key, (K.history s.log key).IsChain K.Follows
  readings : ∀ writer p, s.readings writer = some p → K.moves (K.status p.current) p.target = true ∧
    K.key p.updated = p.key ∧ K.status p.updated = p.target ∧ K.usage p.updated = K.usage p.current

lemma Sound.empty : K.Sound {} where
  keyed key row h := by cases h
  column key row h := by cases h
  last key := rfl
  follows key := .nil
  readings writer p h := by cases h

lemma history_cons (w : Write R) (log : List (Write R)) (key : String) : K.history (w :: log) key =
      if key = w.key then K.status w.after :: K.history log key else K.history log key := by
  by_cases h : key = w.key
  · simp [history, h]
  · simp [history, h, Ne.symm h]

lemma Sound.put (h : K.Sound s) {row : Row R γ} (origin : Origin) (before : Option R)
    (hkey : K.key row.record = row.key) (hstatus : row.status = K.value (K.status row.record))
    (hfollows : ∀ old, s.rows.get row.key = some old →
      K.Follows (K.status row.record) (K.status old.record)) : K.Sound (s.put origin before row) where
  keyed key r hr := by
    rw [Sheet.put, Table.get_put] at hr
    split_ifs at hr with hk
    · rw [← some.inj hr, hkey, hk]
    · exact h.keyed key r hr
  column key r hr := by
    rw [Sheet.put, Table.get_put] at hr
    split_ifs at hr with hk
    · rw [← some.inj hr, hstatus]
    · exact h.column key r hr
  last key := by
    rw [Sheet.put, Table.get_put, history_cons]
    split_ifs
    · rfl
    · exact h.last key
  follows key := by
    rw [Sheet.put, history_cons]
    split_ifs with hk
    · rw [List.isChain_cons]
      refine ⟨fun a ha => ?_, h.follows key⟩
      rw [h.last key] at ha
      obtain ⟨old, hold, rfl⟩ := map_eq_some_iff.mp ha
      exact hfollows old (Eq.subst (motive := fun k => s.rows.get k = some old) hk hold)
    · exact h.follows key
  readings := h.readings

lemma Sound.done (h : K.Sound s) (writer : ℕ) : K.Sound (s.done writer) :=
  { h with
    readings := fun w p hp => by
      rw [Sheet.readings_done] at hp
      split_ifs at hp
      exact h.readings w p hp }

lemma Sound.step (h : K.Sound s) (hstep : K.step s e = some t) : K.Sound t := by
  cases step_takes hstep with
  | create r hnone =>
    refine h.put .create none rfl rfl fun old hold => ?_
    rw [hnone] at hold
    cases hold
  | update r row hrow hstatus =>
    refine h.put .update (some row.record) ?_ rfl fun old hold => ?_
    · exact (s.rows.keyed _ _ hrow).symm
    · rw [s.rows.get_key hrow] at hold
      obtain rfl := some.inj hold
      exact .inl (K.value_injective (hstatus.symm.trans (h.column _ _ hrow)))
  | read writer m row updated hrow hmove hderive =>
    refine { h with readings := fun w p hp => ?_ }
    rw [Sheet.readings_reads] at hp
    split_ifs at hp
    · obtain rfl := some.inj hp
      obtain ⟨hkey, hstatus, husage⟩ := m.derived _ _ hderive
      exact ⟨hmove, hkey.trans (h.keyed _ _ hrow), hstatus, husage⟩
    · exact h.readings w p hp
  | write writer p row hp hrow hstatus =>
    obtain ⟨hmove, hkey, htarget, -⟩ := h.readings writer p hp
    refine (h.done writer).put .move (some row.record) ?_ ?_ fun old hold => ?_
    · exact hkey.trans (s.rows.keyed _ _ hrow).symm
    · exact congrArg K.value htarget.symm
    · rw [Sheet.rows_done, s.rows.get_key hrow] at hold
      obtain rfl := some.inj hold
      have hcurrent := K.value_injective (hstatus.symm.trans (h.column _ _ hrow))
      exact .inr (by rw [← hcurrent, htarget, hmove])
  | lapse writer => exact h.done writer

lemma absorbed {statuses : List σ} (h : statuses.IsChain K.Follows) {later earlier : List σ} {a : σ}
    (hstatuses : statuses = later ++ a :: earlier) (ha : K.terminal a = true) : ∀ b ∈ later, b = a := by
  induction later generalizing statuses with
  | nil => simp
  | cons c later ih =>
    subst hstatuses
    have hchain := List.isChain_cons.mp h
    have hlater := ih hchain.2 rfl
    have hc : c = a := by
      cases later with
      | nil =>
        rcases hchain.1 a rfl with heq | hmove
        · exact heq
        · simp [K.absorbing a c ha] at hmove
      | cons d later =>
        obtain rfl := hlater d List.mem_cons_self
        rcases hchain.1 d rfl with heq | hmove
        · exact heq
        · simp [K.absorbing d c ha] at hmove
    exact List.forall_mem_cons.mpr ⟨hc, hlater⟩

/-- No move has taken usage from a row, and the moves under way know its usage unless a
replacing of the record has changed it meanwhile. -/
structure Kept (K : RecordKind R σ υ γ) (s : Sheet R σ γ) : Prop where
  moves : ∀ w ∈ s.log, w.origin = .move → K.Keeps w
  fresh : ∀ writer p, s.readings writer = some p → ∃ recent, s.log = recent ++ p.since ∧
    ∃ row, s.rows.get p.key = some row ∧ (K.Quiet p.key recent → K.usage row.record = K.usage p.current)

lemma Kept.empty : K.Kept {} where
  moves w h := by cases h
  fresh writer p h := by cases h

lemma Kept.done (h : K.Kept s) (writer : ℕ) : K.Kept (s.done writer) where
  moves := h.moves
  fresh w p hp := by
    rw [Sheet.readings_done] at hp
    split_ifs at hp
    exact h.fresh w p hp

lemma Kept.put (h : K.Kept s) {origin : Origin} {before : Option R} {row : Row R γ}
    (hmove : origin = .move → K.Keeps ⟨row.key, origin, before, row.record⟩)
    (hcreate : origin = .create → s.rows.get row.key = none)
    (hbefore : ∀ old, s.rows.get row.key = some old → before = some old.record) :
    K.Kept (s.put origin before row) where
  moves w hw := by
    rcases List.mem_cons.mp hw with rfl | hw
    · exact hmove
    · exact h.moves w hw
  fresh w p hp := by
    obtain ⟨recent, hlog, old, hold, husage⟩ := h.fresh w p hp
    refine ⟨⟨row.key, origin, before, row.record⟩ :: recent, by rw [Sheet.put, hlog]; rfl, ?_⟩
    rw [Sheet.put, Table.get_put]
    split_ifs with hk
    · refine ⟨row, rfl, fun hquiet => ?_⟩
      rw [hk] at hold
      have hkeeps : K.Keeps ⟨row.key, origin, before, row.record⟩ := by
        cases origin with
        | create =>
          rw [hcreate rfl] at hold
          cases hold
        | update => exact hquiet _ List.mem_cons_self hk.symm rfl
        | move => exact hmove rfl
      obtain ⟨b, hb, hafter⟩ := hkeeps
      rw [hbefore old hold] at hb
      obtain rfl := some.inj hb
      exact hafter.trans (husage fun x hx => hquiet x (List.mem_cons_of_mem _ hx))
    · exact ⟨old, hold, fun hquiet => husage fun x hx => hquiet x (List.mem_cons_of_mem _ hx)⟩

lemma Kept.step (h : K.Kept s) (hs : K.Sound s) (hgood : K.Undisturbed s e)
    (hstep : K.step s e = some t) : K.Kept t := by
  cases step_takes hstep with
  | create r hnone =>
    refine h.put (by simp) (fun _ => hnone) fun old hold => ?_
    rw [hnone] at hold
    cases hold
  | update r row hrow hstatus =>
    refine h.put (by simp) (by simp) fun old hold => ?_
    rw [s.rows.get_key hrow] at hold
    rw [some.inj hold]
  | read writer m row updated hrow hmove hderive =>
    refine ⟨h.moves, fun w p hp => ?_⟩
    rw [Sheet.readings_reads] at hp
    split_ifs at hp
    · obtain rfl := some.inj hp
      exact ⟨[], rfl, row, hrow, fun _ => rfl⟩
    · exact h.fresh w p hp
  | write writer p row hp hrow hstatus =>
    obtain ⟨-, -, -, husage⟩ := hs.readings writer p hp
    obtain ⟨recent, hlog, old, hold, hfresh⟩ := h.fresh writer p hp
    rw [hrow] at hold
    obtain rfl := some.inj hold
    have hquiet := hgood p row recent hp hrow hstatus hlog
    refine (h.done writer).put (fun _ => ⟨row.record, rfl, husage.trans (hfresh hquiet).symm⟩)
      (by simp) fun old hold => ?_
    rw [Sheet.rows_done, s.rows.get_key hrow] at hold
    rw [some.inj hold]
  | lapse writer => exact h.done writer

lemma consistent_of_kept (h : K.Kept s) (hs : K.Sound s) : K.Consistent s where
  column := hs.column
  follows := hs.follows
  absorbed key _ _ _ hhistory ha := absorbed (hs.follows key) hhistory ha
  keeps := h.moves

end RecordKind
end IncidentLens.Data
