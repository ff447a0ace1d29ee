import Mathlib.Data.List.Basic
import Mathlib.Data.List.Infix

/-!
# Byte strings

Searching, slicing and number parsing on byte strings, with the conventions of the
Python methods of the same names: a search that fails answers -1, and a negative slice
bound counts from the end of the string.
-/
namespace IncidentLens.Data

open List

/-- A byte string. -/
abbrev Bytes := List UInt8

def ascii (s : String) : Bytes := s.toList.map fun c => UInt8.ofNat c.toNat

section Search
variable {α : Type*} [DecidableEq α]

/-- Position of the first occurrence of `n`. -/
def find? (n : List α) : List α → Option ℕ
  | [] => if n = [] then some 0 else none
  | b :: s => if n.isPrefixOf (b :: s) then some 0 else (find? n s).map (· + 1)

/-- Position of the last occurrence of one symbol. -/
def rfind? (b : α) : List α → Option ℕ
  | [] => none
  | x :: s => match rfind? b s with
    | some i => some (i + 1)
    | none => if x = b then some 0 else none

/-- `s.find(n)`: the position, or -1. -/
def find (n s : List α) : ℤ := match find? n s with
  | some i => i
  | none => -1

/-- `s.rfind(b)` for a single symbol: the position, or -1. -/
def rfind (b : α) (s : List α) : ℤ := match rfind? b s with
  | some i => i
  | none => -1

/-- `n in s`. -/
def contains (n s : List α) : Bool := (find? n s).isSome

lemma find?_eq_some_iff (n s : List α) (i : ℕ) :
    find? n s = some i ↔ i ≤ s.length ∧ n <+: s.drop i ∧ ∀ j < i, ¬ n <+: s.drop j := by
  induction s generalizing i with
  | nil =>
    cases i with
    | zero => simp [find?]
    | succ i => simp [find?]
  | cons b s ih =>
    by_cases hp : n <+: b :: s
    · cases i with
      | zero => simp [find?, isPrefixOf_iff_prefix, hp]
      | succ i =>
        simp only [find?, isPrefixOf_iff_prefix, hp, if_true, Option.some.injEq]
        exact ⟨fun h => absurd h (by omega), fun h => absurd hp (h.2.2 0 (by omega))⟩
    · cases i with
      | zero => simp [find?, isPrefixOf_iff_prefix, hp]
      | succ i =>
        simp only [find?, isPrefixOf_iff_prefix, hp, if_false, Option.map_eq_some_iff,
          Nat.add_right_cancel_iff, exists_eq_right, ih i, length_cons,
          Nat.add_le_add_iff_right, drop_succ_cons]
        refine and_congr_right fun _ => and_congr_right fun _ => ⟨fun h j hj => ?_, fun h j hj => ?_⟩
        · cases j with
          | zero => exact hp
          | succ j => exact h j (by omega)
        · exact h (j + 1) (by omega)

/-- Cutting a string after its first occurrence of `n` keeps the occurrence; cutting it
before the occurrence is complete leaves none. -/
theorem find?_prefix {n s q : List α} {i : ℕ} (h : find? n s = some i) (hq : q <+: s) :
    find? n q = if i + n.length ≤ q.length then some i else none := by
  obtain ⟨hi, hn, hmin⟩ := (find?_eq_some_iff n s i).mp h
  obtain ⟨r, rfl⟩ := hq
  have hearlier : ∀ j, j ≤ q.length → n <+: q.drop j → i ≤ j := by
    intro j hj hp
    by_contra hlt
    refine hmin j (by omega) (hp.trans ?_)
    rw [drop_append_of_le_length hj]
    exact prefix_append _ _
  split_ifs with hl
  · refine (find?_eq_some_iff n q i).mpr ⟨by omega, ?_, fun j hj hp => ?_⟩
    · rw [drop_append_of_le_length (by omega)] at hn
      exact prefix_of_prefix_length_le hn (prefix_append _ _) (by simp; omega)
    · exact absurd (hearlier j (by omega) hp) (by omega)
  · cases hq : find? n q with
    | none => rfl
    | some j =>
      obtain ⟨hj, hp, -⟩ := (find?_eq_some_iff n q j).mp hq
      have hij := hearlier j hj hp
      have hlen := hp.length_le
      simp only [length_drop] at hlen
      omega

lemma find?_after_separator {n t r : List α} {b : α} (hb : b ∉ n) (ht : ¬ n <:+: t) :
    find? n (t ++ b :: n ++ r) = some (t.length + 1) := by
  refine (find?_eq_some_iff _ _ _).mpr ⟨by simp, ?_, fun j hj hp => ?_⟩
  · rw [append_assoc, drop_append, drop_of_length_le (by omega)]
    simp
  · have hj' : j ≤ t.length := by omega
    rw [append_assoc, drop_append_of_le_length hj'] at hp
    rcases Nat.lt_or_ge (t.drop j).length n.length with hlt | hge
    · -- the occurrence would run over the separator
      have hmem := hp.getElem (i := (t.drop j).length) hlt
      apply hb
      rw [getElem_append_right (by omega)] at hmem
      simp only [Nat.sub_self, cons_append, getElem_cons_zero] at hmem
      rw [← hmem]
      exact getElem_mem _
    · -- the occurrence would lie inside the text
      have hpre := prefix_of_prefix_length_le hp (prefix_append _ _) hge
      exact ht (hpre.isInfix.trans (drop_suffix j t).isInfix)

lemma rfind?_append_cons_of_not_mem {b : α} {t r : List α} (hr : b ∉ r) : rfind? b (t ++ b :: r) = some t.length := by
  have hnone : rfind? b r = none := by
    induction r with
    | nil => rfl
    | cons x r ih =>
      simp only [mem_cons, not_or] at hr
      simp [rfind?, ih hr.2, Ne.symm hr.1]
  induction t with
  | nil => simp [rfind?, hnone]
  | cons x t ih => simp [rfind?, ih]

end Search

section Slice
variable {α : Type*}

/-- A Python slice bound as a position of a string of length `len`. -/
def bound (len : ℕ) (i : ℤ) : ℕ := if i < 0 then (len + i).toNat else min i.toNat len

/-- `s[i:j]`. -/
def slice (s : List α) (i j : ℤ) : List α := (s.take (bound s.length j)).drop (bound s.length i)

/-- `s[i:]`. -/
def sliceFrom (s : List α) (i : ℤ) : List α := s.drop (bound s.length i)

/-- `s[:j]`. -/
def sliceTo (s : List α) (j : ℤ) : List α := s.take (bound s.length j)

@[simp] lemma bound_natCast (len k : ℕ) : bound len (k : ℤ) = min k len := by
  rw [bound, if_neg (by omega)]
  simp

@[simp] lemma sliceFrom_natCast (s : List α) (k : ℕ) : sliceFrom s (k : ℤ) = s.drop k := by
  rw [sliceFrom, bound_natCast]
  rcases Nat.le_total k s.length with h | h
  · rw [Nat.min_eq_left h]
  · rw [Nat.min_eq_right h, drop_length, drop_of_length_le h]

@[simp] lemma sliceTo_natCast (s : List α) (k : ℕ) : sliceTo s (k : ℤ) = s.take k := by
  rw [sliceTo, bound_natCast]
  rcases Nat.le_total k s.length with h | h
  · rw [Nat.min_eq_left h]
  · rw [Nat.min_eq_right h, take_length, take_of_length_le h]

end Slice

/-- Whitespace of `bytes.strip()`. -/
def isSpace (b : UInt8) : Bool := b == 32 || (9 ≤ b && b ≤ 13)

/-- `s.strip()`. -/
def strip (s : Bytes) : Bytes := ((s.dropWhile isSpace).reverse.dropWhile isSpace).reverse

def digit? (b : UInt8) : Option ℕ := if 48 ≤ b ∧ b ≤ 57 then some (b.toNat - 48) else none

/-- Digits with single underscores between them; `acc` holds the value read so far and
`sep` whether an underscore may follow. -/
def digitsFrom (acc : ℕ) (sep : Bool) : Bytes → Option ℕ
  | [] => if sep then some acc else none
  | b :: s => match digit? b with
    | some d => digitsFrom (10 * acc + d) true s
    | none => if b = 95 ∧ sep then digitsFrom acc false s else none

/-- `int(s)` on a byte string, `none` where it raises `ValueError`. -/
def int? (s : Bytes) : Option ℤ := match strip s with
  | 43 :: t => (digitsFrom 0 false t).map (·)
  | 45 :: t => (digitsFrom 0 false t).map (- ·)
  | t => (digitsFrom 0 false t).map (·)

def decimal (n : ℕ) : Bytes := (Nat.toDigits 10 n).map fun c => UInt8.ofNat c.toNat

end IncidentLens.Data
