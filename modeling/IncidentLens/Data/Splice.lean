import Mathlib.Data.List.Sort
import Mathlib.Data.List.Pairwise
import Mathlib.Tactic.SplitIfs

/-!
# Replacing stretches of a list

`simultaneous` replaces stretches of a list at once: each place of the list is looked at for
itself. `splice` copies the list from left to right. Stretches that are disjoint and in order
give the same either way.
-/
namespace IncidentLens.Data

open List

/-- The places from `start` up to `stop`, and what comes instead. -/
structure Patch (α : Type) where
  start : ℕ
  stop : ℕ
  new : List α

namespace Patch
variable {α : Type}

def Covers (p : Patch α) (i : ℕ) : Prop := p.start ≤ i ∧ i < p.stop

instance (p : Patch α) (i : ℕ) : Decidable (p.Covers i) := inferInstanceAs (Decidable (_ ∧ _))

def Disjoint (p q : Patch α) : Prop := p.stop ≤ q.start ∨ q.stop ≤ p.start

instance (p q : Patch α) : Decidable (p.Disjoint q) := inferInstanceAs (Decidable (_ ∨ _))

/-- A stretch of a list of length `n` with at least one place. -/
def Within (p : Patch α) (n : ℕ) : Prop := p.start < p.stop ∧ p.stop ≤ n

/-- What becomes of one place: a stretch that starts there puts its text, and the other places of
stretches disappear. -/
def cell (ps : List (Patch α)) (xs : List α) (i : ℕ) : List α :=
  match ps.find? fun p => p.start = i with
  | some p => p.new
  | none => if ps.any fun p => p.Covers i then [] else xs[i]?.toList

def simultaneous (ps : List (Patch α)) (xs : List α) : List α := (range xs.length).flatMap (cell ps xs)

/-- The list from `cursor` on, with the stretches replaced from left to right. -/
def splice (xs : List α) : ℕ → List (Patch α) → List α
  | cursor, [] => xs.drop cursor
  | cursor, p :: ps => (xs.drop cursor).take (p.start - cursor) ++ p.new ++ splice xs p.stop ps

/-- A stretch begins before the end of the one before it. -/
def overlap : List (Patch α) → Bool
  | p :: q :: ps => q.start < p.stop || overlap (q :: ps)
  | _ => false

variable {ps qs : List (Patch α)} {p q : Patch α} {xs : List α} {n i : ℕ}

lemma Disjoint.symm (h : p.Disjoint q) : q.Disjoint p := Or.symm h

instance symm_disjoint : Std.Symm (Disjoint (α := α)) := ⟨fun _ _ => Disjoint.symm⟩

lemma overlap_eq_false_iff (hsorted : ps.Pairwise fun p q => p.start ≤ q.start) (hwithin : ∀ p ∈ ps, p.start < p.stop) :
    overlap ps = false ↔ ps.Pairwise fun p q => p.stop ≤ q.start := by
  induction ps with
  | nil => simp [overlap]
  | cons p ps ih =>
    have ih := ih hsorted.of_cons fun q hq => hwithin q (mem_cons_of_mem _ hq)
    cases ps with
    | nil => simp [overlap]
    | cons q ps =>
      rw [overlap, Bool.or_eq_false_iff, decide_eq_false_iff_not, not_lt, ih]
      constructor
      · rintro ⟨hpq, hrest⟩
        refine pairwise_cons.mpr ⟨fun r hr => ?_, hrest⟩
        rcases mem_cons.mp hr with rfl | hr
        · exact hpq
        · have hq := hwithin q (by simp)
          have hqr := (pairwise_cons.mp hrest).1 r hr
          omega
      · intro hall
        exact ⟨(pairwise_cons.mp hall).1 q mem_cons_self, hall.of_cons⟩

lemma pairwise_disjoint_iff (hsorted : ps.Pairwise fun p q => p.start ≤ q.start)
    (hwithin : ∀ p ∈ ps, p.start < p.stop) : ps.Pairwise Disjoint ↔ ps.Pairwise fun p q => p.stop ≤ q.start := by
  constructor
  · intro h
    refine (h.and hsorted).imp_of_mem ?_
    rintro p q hp hq ⟨hdisjoint, hle⟩
    have hp := hwithin p hp
    have hq := hwithin q hq
    rcases hdisjoint with h | h
    · exact h
    · omega
  · exact fun h => h.imp fun h => .inl h

section Cell
variable (hdisjoint : ps.Pairwise Disjoint) (hwithin : ∀ p ∈ ps, p.start < p.stop)
include hdisjoint hwithin

lemma eq_of_start (hp : p ∈ ps) (hq : q ∈ ps) (hstart : p.start = q.start) : p = q := by
  by_contra hne
  have hd : Disjoint p q := hdisjoint.forall hp hq hne
  have hp := hwithin p hp
  have hq := hwithin q hq
  rcases hd with h | h
  · omega
  · omega

lemma cell_of_start (hp : p ∈ ps) : cell ps xs p.start = p.new := by
  unfold cell
  cases hfind : ps.find? fun q => q.start = p.start with
  | none => exact absurd (by simp) (find?_eq_none.mp hfind p hp)
  | some q =>
    have hq : q.start = p.start := by simpa using find?_some hfind
    rw [eq_of_start hdisjoint hwithin (mem_of_find?_eq_some hfind) hp hq]

end Cell

lemma cell_of_covers (hnot : ∀ p ∈ ps, p.start ≠ i) (hp : p ∈ ps) (hcovers : p.Covers i) : cell ps xs i = [] := by
  unfold cell
  rw [find?_eq_none.mpr fun q hq => by simpa using hnot q hq]
  have hany : (ps.any fun q => decide (q.Covers i)) = true := any_eq_true.mpr ⟨p, hp, decide_eq_true hcovers⟩
  simp only [hany, if_true]

lemma cell_of_not_covers (hnot : ∀ p ∈ ps, p.start ≠ i) (hfree : ∀ p ∈ ps, ¬ p.Covers i) : cell ps xs i = xs[i]?.toList := by
  unfold cell
  rw [find?_eq_none.mpr fun q hq => by simpa using hnot q hq]
  have hany : (ps.any fun q => decide (q.Covers i)) = false := by
    rw [any_eq_false]
    intro q hq
    simpa using hfree q hq
  simp only [hany, Bool.false_eq_true, if_false]

lemma cell_cons_of_le (hp : p.start < p.stop) (hle : p.stop ≤ i) : cell (p :: ps) xs i = cell ps xs i := by
  have hstart : p.start ≠ i := by omega
  have hcovers : ¬ p.Covers i := fun h => absurd h.2 (not_lt.mpr hle)
  unfold cell
  rw [find?_cons_of_neg (by simpa using hstart), any_cons, decide_eq_false hcovers, Bool.false_or]

lemma cell_perm (hperm : ps.Perm qs) (hdisjoint : ps.Pairwise Disjoint) (hwithin : ∀ p ∈ ps, p.start < p.stop) :
    cell ps xs i = cell qs xs i := by
  have hdisjoint' : qs.Pairwise Disjoint := (hperm.pairwise_iff fun h => h.symm).mp hdisjoint
  have hwithin' : ∀ p ∈ qs, p.start < p.stop := fun p hp => hwithin p (hperm.mem_iff.mpr hp)
  by_cases hstart : ∃ p ∈ ps, p.start = i
  · obtain ⟨p, hp, rfl⟩ := hstart
    rw [cell_of_start hdisjoint hwithin hp, cell_of_start hdisjoint' hwithin' (hperm.mem_iff.mp hp)]
  · push Not at hstart
    have hstart' : ∀ p ∈ qs, p.start ≠ i := fun p hp => hstart p (hperm.mem_iff.mpr hp)
    by_cases hcovers : ∃ p ∈ ps, p.Covers i
    · obtain ⟨p, hp, hcovers⟩ := hcovers
      rw [cell_of_covers hstart hp hcovers, cell_of_covers hstart' (hperm.mem_iff.mp hp) hcovers]
    · push Not at hcovers
      rw [cell_of_not_covers hstart hcovers, cell_of_not_covers hstart' fun p hp => hcovers p (hperm.mem_iff.mpr hp)]

lemma simultaneous_perm (hperm : ps.Perm qs) (hdisjoint : ps.Pairwise Disjoint) (hwithin : ∀ p ∈ ps, p.start < p.stop) :
    simultaneous ps xs = simultaneous qs xs :=
  congrArg (fun f => (range xs.length).flatMap f) (funext fun _ => cell_perm hperm hdisjoint hwithin)

lemma flatMap_getElem? (xs : List α) (start k : ℕ) :
    ((range' start k).flatMap fun i => xs[i]?.toList) = (xs.drop start).take k := by
  induction k generalizing start with
  | zero => simp
  | succ k ih =>
    rw [range'_succ, flatMap_cons, ih]
    by_cases hlt : start < xs.length
    · rw [getElem?_eq_getElem hlt, drop_eq_getElem_cons hlt, take_succ_cons]
      rfl
    · rw [not_lt] at hlt
      rw [getElem?_eq_none hlt, drop_eq_nil_of_le hlt, drop_eq_nil_of_le (Nat.le_succ_of_le hlt)]
      simp

lemma splice_eq_flatMap {cursor : ℕ} (hordered : ps.Pairwise fun p q => p.stop ≤ q.start)
    (hwithin : ∀ p ∈ ps, p.Within xs.length) (hcursor : ∀ p ∈ ps, cursor ≤ p.start) (hle : cursor ≤ xs.length) :
    splice xs cursor ps = (range' cursor (xs.length - cursor)).flatMap (cell ps xs) := by
  induction ps generalizing cursor with
  | nil =>
    have hcell : cell ([] : List (Patch α)) xs = fun i => xs[i]?.toList := rfl
    rw [hcell, flatMap_getElem?, splice, take_of_length_le (by simp)]
  | cons p ps ih =>
    obtain ⟨hp, hp'⟩ := hwithin p mem_cons_self
    have hafter := (pairwise_cons.mp hordered).1
    have hc := hcursor p mem_cons_self
    have hpos : ∀ q ∈ p :: ps, q.start < q.stop := fun q hq => (hwithin q hq).1
    have hdisjoint : (p :: ps).Pairwise Disjoint := hordered.imp fun h => .inl h
    have hfirst : ∀ q ∈ p :: ps, p.start ≤ q.start := by
      intro q hq
      rcases mem_cons.mp hq with rfl | hq
      · exact le_rfl
      · have hq := hafter q hq
        omega
    -- the places before the stretch, in it, and after it
    have hsplit : range' cursor (xs.length - cursor) =
        range' cursor (p.start - cursor) ++ range' p.start (p.stop - p.start) ++
          range' p.stop (xs.length - p.stop) := by
      have hfirst := @range'_append_1 cursor (p.start - cursor) (p.stop - p.start)
      have hsecond := @range'_append_1 cursor (p.stop - cursor) (xs.length - p.stop)
      rw [show cursor + (p.start - cursor) = p.start by omega] at hfirst
      rw [show cursor + (p.stop - cursor) = p.stop by omega] at hsecond
      rw [hfirst, show p.start - cursor + (p.stop - p.start) = p.stop - cursor by omega, hsecond]
      congr 1
      omega
    have hbefore : (range' cursor (p.start - cursor)).flatMap (cell (p :: ps) xs) =
        (xs.drop cursor).take (p.start - cursor) := by
      rw [← flatMap_getElem?]
      refine flatMap_congr fun i hi => cell_of_not_covers ?_ ?_
      · intro q hq
        have hi := (mem_range'_1.mp hi).2
        have hq := hfirst q hq
        omega
      · rintro q hq ⟨hle, -⟩
        have hi := (mem_range'_1.mp hi).2
        have hq := hfirst q hq
        omega
    have hin : (range' p.start (p.stop - p.start)).flatMap (cell (p :: ps) xs) = p.new := by
      rw [show p.stop - p.start = p.stop - p.start - 1 + 1 by omega, range'_succ, flatMap_cons,
        cell_of_start hdisjoint hpos mem_cons_self]
      have hnil : (range' (p.start + 1) (p.stop - p.start - 1)).flatMap (cell (p :: ps) xs) = [] := by
        rw [flatMap_eq_nil_iff]
        intro i hi
        obtain ⟨hlow, hhigh⟩ := mem_range'_1.mp hi
        refine cell_of_covers ?_ mem_cons_self ⟨by omega, by omega⟩
        intro q hq
        rcases mem_cons.mp hq with rfl | hq
        · omega
        · have hq := hafter q hq
          omega
      rw [hnil, append_nil]
    have hrest : (range' p.stop (xs.length - p.stop)).flatMap (cell (p :: ps) xs) =
        (range' p.stop (xs.length - p.stop)).flatMap (cell ps xs) := by
      refine flatMap_congr fun i hi => cell_cons_of_le ?_ ?_
      · exact hp
      · exact (mem_range'_1.mp hi).1
    rw [splice, ih hordered.of_cons (fun q hq => hwithin q (mem_cons_of_mem _ hq)) hafter hp', hsplit,
      flatMap_append, flatMap_append, hbefore, hin, hrest]

lemma splice_eq_simultaneous (hsorted : ps.Pairwise fun p q => p.start ≤ q.start) (hdisjoint : ps.Pairwise Disjoint)
    (hwithin : ∀ p ∈ ps, p.Within xs.length) : splice xs 0 ps = simultaneous ps xs := by
  have hordered := (pairwise_disjoint_iff hsorted fun p hp => (hwithin p hp).1).mp hdisjoint
  rw [splice_eq_flatMap hordered hwithin (fun p _ => Nat.zero_le _) (Nat.zero_le _), simultaneous, range_eq_range',
    Nat.sub_zero]

end Patch
end IncidentLens.Data
