import Mathlib.Order.Lattice
import Mathlib.Tactic.Ring
import Mathlib.Data.Nat.Basic
import Mathlib.Logic.Function.Iterate

/-!
# UTC timestamps and their texts

Timestamps are stored and compared as the texts of `datetime.isoformat()`, which leaves the
microseconds out when they are zero. The order of the texts is the order of the times.
-/
namespace IncidentLens.Data

open List

/-- The order in which a store compares texts: character by character. -/
abbrev Text := List Char

def daysInMonth (year month : ℕ) : ℕ :=
  if month = 2 then if year % 4 = 0 ∧ (year % 100 ≠ 0 ∨ year % 400 = 0) then 29 else 28
  else if month = 4 ∨ month = 6 ∨ month = 9 ∨ month = 11 then 30 else 31

/-- A UTC `datetime`. -/
@[ext] structure DateTime where
  year : ℕ
  month : ℕ
  day : ℕ
  hour : ℕ
  minute : ℕ
  second : ℕ
  microsecond : ℕ
  year_mem : 1 ≤ year ∧ year ≤ 9999
  month_mem : 1 ≤ month ∧ month ≤ 12
  day_mem : 1 ≤ day ∧ day ≤ daysInMonth year month
  hour_lt : hour < 24
  minute_lt : minute < 60
  second_lt : second < 60
  microsecond_lt : microsecond < 1000000
  deriving DecidableEq

instance neZero_sixty : NeZero 60 := ⟨by decide⟩

/-- A minute of the first hour of 2026. -/
def newYear (minute : Fin 60) : DateTime :=
  ⟨2026, 1, 1, 0, minute, 0, 0, by decide, by decide, by decide, by decide, minute.isLt, by decide, by decide⟩

def digitChar (n : ℕ) : Char := Char.ofNat (48 + n % 10)

/-- `n` with `w` decimal digits. -/
def pad : ℕ → ℕ → Text
  | 0, _ => []
  | w + 1, n => digitChar (n / 10 ^ w) :: pad w (n % 10 ^ w)

lemma digitChar_lt_iff {a b : ℕ} (ha : a < 10) (hb : b < 10) : digitChar a < digitChar b ↔ a < b := by
  have hall : ∀ a b : Fin 10, digitChar a < digitChar b ↔ (a : ℕ) < b := by decide
  exact hall ⟨a, ha⟩ ⟨b, hb⟩

lemma digitChar_inj {a b : ℕ} (ha : a < 10) (hb : b < 10) : digitChar a = digitChar b ↔ a = b := by
  have hall : ∀ a b : Fin 10, digitChar a = digitChar b ↔ (a : ℕ) = b := by decide
  exact hall ⟨a, ha⟩ ⟨b, hb⟩

lemma pad_append_lt_iff {w a b : ℕ} (ha : a < 10 ^ w) (hb : b < 10 ^ w) (s t : Text) :
    pad w a ++ s < pad w b ++ t ↔ a < b ∨ a = b ∧ s < t := by
  induction w generalizing a b with
  | zero =>
    have ha' : a = 0 := by omega
    have hb' : b = 0 := by omega
    simp [pad, ha', hb']
  | succ w ih =>
    have hpos : 0 < 10 ^ w := Nat.pow_pos (by omega)
    have hda : a / 10 ^ w < 10 := Nat.div_lt_of_lt_mul (by rwa [← pow_succ])
    have hdb : b / 10 ^ w < 10 := Nat.div_lt_of_lt_mul (by rwa [← pow_succ])
    rw [pad, pad, cons_append, cons_append, cons_lt_cons_iff, digitChar_lt_iff hda hdb,
      digitChar_inj hda hdb, ih (Nat.mod_lt _ hpos) (Nat.mod_lt _ hpos)]
    have ea := Nat.div_add_mod a (10 ^ w)
    have eb := Nat.div_add_mod b (10 ^ w)
    have hma := Nat.mod_lt a hpos
    have hmb := Nat.mod_lt b hpos
    constructor
    · rintro (hlt | ⟨heq, hlt | ⟨heq', hst⟩⟩)
      · left
        calc a < 10 ^ w * (a / 10 ^ w + 1) := by rw [Nat.mul_add]; omega
          _ ≤ 10 ^ w * (b / 10 ^ w) := Nat.mul_le_mul_left _ hlt
          _ ≤ b := by omega
      · left
        rw [heq] at ea
        omega
      · right
        rw [heq, heq'] at ea
        exact ⟨by omega, hst⟩
    · rintro (hlt | ⟨rfl, hst⟩)
      · rcases Nat.lt_trichotomy (a / 10 ^ w) (b / 10 ^ w) with h | h | h
        · exact .inl h
        · rw [h] at ea
          exact .inr ⟨h, .inl (by omega)⟩
        · have := Nat.div_le_div_right (c := 10 ^ w) hlt.le
          omega
      · exact .inr ⟨rfl, .inr ⟨rfl, hst⟩⟩

@[simp] lemma length_pad (w n : ℕ) : (pad w n).length = w := by
  induction w generalizing n with
  | zero => rfl
  | succ w ih => simp [pad, ih]

/-- `int(t)` of a text of decimal digits. -/
def number (t : Text) : Option ℕ :=
  t.foldl (fun acc c => acc.bind fun n => if c.isDigit then some (10 * n + (c.toNat - 48)) else none)
    (some 0)

lemma number_pad {w n : ℕ} (h : n < 10 ^ w) : number (pad w n) = some n := by
  have hgeneral : ∀ w n acc, n < 10 ^ w → (pad w n).foldl
      (fun acc c => acc.bind fun n => if c.isDigit then some (10 * n + (c.toNat - 48)) else none)
      (some acc) = some (10 ^ w * acc + n) := by
    intro w
    induction w with
    | zero =>
      intro n acc hn
      have hn' : n = 0 := by omega
      simp [pad, hn']
    | succ w ih =>
      intro n acc hn
      have hdigit : ∀ d : Fin 10, (digitChar d).isDigit = true ∧ (digitChar d).toNat - 48 = d := by decide
      have hd : n / 10 ^ w < 10 := Nat.div_lt_of_lt_mul (by rwa [← pow_succ])
      obtain ⟨hisDigit, hvalue⟩ := hdigit ⟨n / 10 ^ w, hd⟩
      simp only at hisDigit hvalue
      rw [pad, foldl_cons, Option.bind_some, if_pos hisDigit, hvalue, ih _ _ (Nat.mod_lt _ (Nat.pow_pos (by omega)))]
      congr 1
      conv_rhs => rw [← Nat.div_add_mod n (10 ^ w)]
      ring
  simpa [number] using hgeneral w n 0 h

namespace DateTime

/-- The fraction of a second, left out when it is zero. -/
def fraction (microsecond : ℕ) : Text := if microsecond = 0 then [] else '.' :: pad 6 microsecond

def isoformat (d : DateTime) : Text :=
  pad 4 d.year ++ '-' :: (pad 2 d.month ++ '-' :: (pad 2 d.day ++ 'T' :: (pad 2 d.hour ++ ':' ::
    (pad 2 d.minute ++ ':' :: (pad 2 d.second ++ (fraction d.microsecond ++ ['+', '0', '0', ':', '0', '0']))))))

/-- The order of times. -/
instance : LT DateTime := ⟨fun a b =>
  a.year < b.year ∨ a.year = b.year ∧ (a.month < b.month ∨ a.month = b.month ∧
    (a.day < b.day ∨ a.day = b.day ∧ (a.hour < b.hour ∨ a.hour = b.hour ∧
      (a.minute < b.minute ∨ a.minute = b.minute ∧ (a.second < b.second ∨ a.second = b.second ∧
        a.microsecond < b.microsecond)))))⟩

instance (a b : DateTime) : Decidable (a < b) := inferInstanceAs (Decidable (_ ∨ _))

lemma fraction_lt_iff {a b : ℕ} (ha : a < 10 ^ 6) (hb : b < 10 ^ 6) (t : Text) :
    fraction a ++ '+' :: t < fraction b ++ '+' :: t ↔ a < b := by
  unfold fraction
  by_cases ha0 : a = 0 <;> by_cases hb0 : b = 0
  · simp [ha0, hb0]
  · have hplus : ('+' : Char) < '.' := by decide
    simp [ha0, hb0, cons_lt_cons_iff, hplus]
    omega
  · have hdot : ¬ ('.' : Char) < '+' := by decide
    simp [ha0, hb0, cons_lt_cons_iff, hdot]
  · simp [ha0, hb0, pad_append_lt_iff ha hb]

lemma day_lt (d : DateTime) : d.day < 10 ^ 2 := by
  have hday := d.day_mem
  unfold daysInMonth at hday
  split_ifs at hday <;> omega

lemma isoformat_lt_iff (a b : DateTime) : a.isoformat < b.isoformat ↔ a < b := by
  have hsep : ∀ (c : Char) (s t : Text), c :: s < c :: t ↔ s < t := by
    intro c s t
    simp
  have hmonth := a.month_mem
  have hmonth' := b.month_mem
  unfold isoformat
  rw [pad_append_lt_iff (by have := a.year_mem; omega) (by have := b.year_mem; omega), hsep,
    pad_append_lt_iff (by omega) (by omega), hsep, pad_append_lt_iff a.day_lt b.day_lt, hsep,
    pad_append_lt_iff (by have := a.hour_lt; omega) (by have := b.hour_lt; omega), hsep,
    pad_append_lt_iff (by have := a.minute_lt; omega) (by have := b.minute_lt; omega), hsep,
    pad_append_lt_iff (by have := a.second_lt; omega) (by have := b.second_lt; omega),
    fraction_lt_iff a.microsecond_lt b.microsecond_lt]
  rfl

/-- A `datetime` from its fields, `none` where the constructor raises. -/
def make? (year month day hour minute second microsecond : ℕ) : Option DateTime :=
  if h : (1 ≤ year ∧ year ≤ 9999) ∧ (1 ≤ month ∧ month ≤ 12) ∧
      (1 ≤ day ∧ day ≤ daysInMonth year month) ∧ hour < 24 ∧ minute < 60 ∧ second < 60 ∧
      microsecond < 1000000 then
    some ⟨year, month, day, hour, minute, second, microsecond, h.1, h.2.1, h.2.2.1, h.2.2.2.1,
      h.2.2.2.2.1, h.2.2.2.2.2.1, h.2.2.2.2.2.2⟩
  else none

lemma make?_self (d : DateTime) : make? d.year d.month d.day d.hour d.minute d.second d.microsecond = some d := by
  rw [make?, dif_pos ⟨d.year_mem, d.month_mem, d.day_mem, d.hour_lt, d.minute_lt, d.second_lt, d.microsecond_lt⟩]

def readMicrosecond (t : Text) : Option ℕ := if t[19]? = some '.' then number ((t.drop 20).take 6) else some 0

/-- `datetime.fromisoformat` on the texts that `isoformat` writes. -/
def fromIsoformat (t : Text) : Option DateTime := do
  let field := fun start width => number ((t.drop start).take width)
  make? (← field 0 4) (← field 5 2) (← field 8 2) (← field 11 2) (← field 14 2) (← field 17 2)
    (← readMicrosecond t)

lemma drop_pad_append (w n k : ℕ) (s : Text) : (pad w n ++ s).drop (w + k) = s.drop k := by
  rw [drop_append, length_pad, drop_of_length_le (by simp), Nat.add_sub_cancel_left, nil_append]

lemma drop_field (w n k : ℕ) (c : Char) (s : Text) : (pad w n ++ c :: s).drop (w + (1 + k)) = s.drop k := by
  rw [drop_pad_append, Nat.add_comm 1 k, drop_succ_cons]

lemma number_take {t s : Text} {w n : ℕ} (h : t = pad w n ++ s) (hn : n < 10 ^ w) : number (t.take w) = some n := by
  rw [h, take_left' (length_pad w n), number_pad hn]

lemma fraction_read {microsecond : ℕ} (h : microsecond < 1000000) (s : Text) :
    let t := fraction microsecond ++ '+' :: s
    (if t.head? = some '.' then number ((t.drop 1).take 6) else some 0) = some microsecond := by
  unfold fraction
  by_cases h0 : microsecond = 0
  · simp [h0]
  · simp only [h0, if_false, cons_append, head?_cons, if_true, drop_succ_cons, drop_zero]
    exact number_take rfl h

lemma fromIsoformat_isoformat (d : DateTime) : fromIsoformat d.isoformat = some d := by
  -- the text behind each separator
  have h5 : d.isoformat.drop 5 = _ := drop_field 4 d.year 0 _ _
  have h8 : d.isoformat.drop 8 = _ :=
    (drop_drop ..).symm.trans ((congrArg (drop 3) h5).trans (drop_field 2 d.month 0 _ _))
  have h11 : d.isoformat.drop 11 = _ :=
    (drop_drop ..).symm.trans ((congrArg (drop 3) h8).trans (drop_field 2 d.day 0 _ _))
  have h14 : d.isoformat.drop 14 = _ :=
    (drop_drop ..).symm.trans ((congrArg (drop 3) h11).trans (drop_field 2 d.hour 0 _ _))
  have h17 : d.isoformat.drop 17 = _ :=
    (drop_drop ..).symm.trans ((congrArg (drop 3) h14).trans (drop_field 2 d.minute 0 _ _))
  have h19 : d.isoformat.drop 19 = _ :=
    (drop_drop ..).symm.trans ((congrArg (drop 2) h17).trans (drop_pad_append 2 d.second 0 _))
  have hyear : number ((d.isoformat.drop 0).take 4) = some d.year := number_take rfl (by have := d.year_mem; omega)
  have hmonth := number_take h5 (by have := d.month_mem; omega)
  have hday := number_take h8 d.day_lt
  have hhour := number_take h11 (by have := d.hour_lt; omega)
  have hminute := number_take h14 (by have := d.minute_lt; omega)
  have hsecond := number_take h17 (by have := d.second_lt; omega)
  have hmicrosecond := fraction_read d.microsecond_lt ['0', '0', ':', '0', '0']
  simp only [drop_zero] at h19
  have h20 : d.isoformat.drop 20 = (d.isoformat.drop 19).drop 1 := by rw [drop_drop]
  dsimp only at hmicrosecond
  rw [← h19, head?_drop, ← h20] at hmicrosecond
  simp only [fromIsoformat, readMicrosecond, hyear, hmonth, hday, hhour, hminute, hsecond, hmicrosecond,
    Option.bind_eq_bind, Option.bind_some]
  exact d.make?_self

def nextDay : ℕ × ℕ × ℕ → ℕ × ℕ × ℕ
  | (year, month, day) =>
    if day < daysInMonth year month then (year, month, day + 1)
    else if month < 12 then (year, month + 1, 1)
    else (year + 1, 1, 1)

/-- `d + timedelta(minutes=n)`, `none` on overflow. -/
def addMinutes (d : DateTime) (n : ℕ) : Option DateTime :=
  let minutes := d.hour * 60 + d.minute + n
  let (year, month, day) := nextDay^[minutes / 1440] (d.year, d.month, d.day)
  make? year month day (minutes % 1440 / 60) (minutes % 60) d.second d.microsecond

end DateTime
end IncidentLens.Data
