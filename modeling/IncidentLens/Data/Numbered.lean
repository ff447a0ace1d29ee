import Mathlib.Data.List.Nodup
import Mathlib.Tactic.Common

/-!
# Lists with increasing numbers

A list whose elements carry strictly increasing numbers is cut by a number into two parts, and
read in pages that go on where the last one ended.
-/
namespace IncidentLens.Data

open Data List

variable {α : Type*}

/-- The elements have strictly increasing numbers. -/
def Increasing (f : α → ℕ) (l : List α) : Prop := l.Pairwise fun a b => f a < f b

def behind (f : α → ℕ) (p : α → Bool) (low : ℕ) (l : List α) : List α := l.filter fun a => low < f a && p a

/-- What comes behind a position, up to another. -/
def between (f : α → ℕ) (p : α → Bool) (low high : ℕ) (l : List α) : List α :=
  l.filter fun a => (low < f a && p a) && f a ≤ high

section
variable {f : α → ℕ} {p : α → Bool} {l : List α} {low high : ℕ}

lemma Increasing.behind (h : Increasing f l) : Increasing f (behind f p low l) := h.filter _

lemma Increasing.eq_of_eq (h : Increasing f l) {a b : α} (ha : a ∈ l) (hb : b ∈ l) (hab : f a = f b) : a = b := by
  have hnodup : (l.map f).Nodup := pairwise_map.mpr (h.imp fun hlt => Nat.ne_of_lt hlt)
  exact inj_on_of_nodup_map hnodup ha hb hab

variable {a : α}

lemma mem_behind : a ∈ behind f p low l ↔ a ∈ l ∧ low < f a ∧ p a = true := by simp [behind]

lemma Increasing.cut (h : Increasing f l) (high : ℕ) :
    (l.filter fun a => f a ≤ high) ++ l.filter (fun a => high < f a) = l := by
  induction l with
  | nil => rfl
  | cons a l ih =>
    obtain ⟨hfirst, hrest⟩ := pairwise_cons.mp h
    by_cases ha : f a ≤ high
    · have hlt : ¬ high < f a := by omega
      simp only [filter_cons, ha, decide_true, if_true, hlt, decide_false, Bool.false_eq_true, if_false, cons_append]
      rw [ih hrest]
    · have hnone : l.filter (fun b => decide (f b ≤ high)) = [] := by
        refine filter_eq_nil_iff.mpr fun b hb => ?_
        have := hfirst b hb
        simp only [decide_eq_true_eq]
        omega
      have hlt : high < f a := by omega
      have hall : l.filter (fun b => decide (high < f b)) = l := by
        refine filter_eq_self.mpr fun b hb => ?_
        have := hfirst b hb
        simp only [decide_eq_true_eq]
        omega
      simp only [filter_cons, ha, decide_false, Bool.false_eq_true, if_false, hlt, decide_true, if_true, hnone,
        hall, nil_append]

lemma filter_behind : (behind f p low l).filter (fun a => high < f a) = behind f p (max low high) l := by
  simp only [behind, filter_filter]
  refine filter_congr fun a _ => ?_
  rw [Bool.eq_iff_iff]
  simp only [Bool.and_eq_true, decide_eq_true_eq, Nat.max_lt]
  exact ⟨fun ⟨hhigh, hlow, hp⟩ => ⟨⟨hlow, hhigh⟩, hp⟩, fun ⟨⟨hlow, hhigh⟩, hp⟩ => ⟨hhigh, hlow, hp⟩⟩

lemma filter_le_behind : (behind f p low l).filter (fun a => f a ≤ high) = between f p low high l := by
  simp only [behind, between, filter_filter]
  refine filter_congr fun a _ => ?_
  rw [Bool.and_comm]

lemma Increasing.between_append_behind (h : Increasing f l) (p : α → Bool) (low high : ℕ) :
    between f p low high l ++ Data.behind f p (max low high) l = Data.behind f p low l := by
  rw [← filter_le_behind, ← filter_behind]
  exact h.behind.cut high

lemma Increasing.behind_getLast (h : Increasing f l) {n : ℕ} {last : α}
    (hlast : ((Data.behind f p low l).take n).getLast? = some last) :
    Data.behind f p (f last) l = (Data.behind f p low l).drop n := by
  have hmem : last ∈ Data.behind f p low l := mem_of_mem_take (mem_of_getLast? hlast)
  have hlow : max low (f last) = f last := Nat.max_eq_right (Nat.le_of_lt (mem_behind.mp hmem).2.1)
  have hcut : (Data.behind f p low l).filter (fun a => f last < f a) = (Data.behind f p low l).drop n := by
    obtain ⟨before, hbefore⟩ := getLast?_eq_some_iff.mp hlast
    have hsplit : Data.behind f p low l = (before ++ [last]) ++ (Data.behind f p low l).drop n := by
      rw [← hbefore, take_append_drop]
    have hsorted : Increasing f ((before ++ [last]) ++ (Data.behind f p low l).drop n) := by
      rw [← hsplit]
      exact h.behind
    obtain ⟨htake, -, hcross⟩ := pairwise_append.mp hsorted
    obtain ⟨-, -, hend⟩ := pairwise_append.mp htake
    have hnone : (before ++ [last]).filter (fun a => decide (f last < f a)) = [] := by
      refine filter_eq_nil_iff.mpr fun a ha => ?_
      simp only [decide_eq_true_eq]
      rcases mem_append.mp ha with ha | ha
      · have := hend a ha last (mem_singleton_self _)
        omega
      · cases mem_singleton.mp ha
        omega
    have hall : ((Data.behind f p low l).drop n).filter (fun a => decide (f last < f a)) =
        (Data.behind f p low l).drop n := by
      refine filter_eq_self.mpr fun a ha => ?_
      have := hcross last (mem_append_right _ (mem_singleton_self _)) a ha
      simpa only [decide_eq_true_eq] using this
    rw [hsplit, filter_append, hnone, nil_append, ← hsplit, hall]
  rw [← hcut, filter_behind, hlow]

lemma Increasing.between_getLast (h : Increasing f l) {n : ℕ} {last : α}
    (hlast : ((Data.behind f p low l).take n).getLast? = some last) :
    between f p low (f last) l = (Data.behind f p low l).take n := by
  have hmem : last ∈ Data.behind f p low l := mem_of_mem_take (mem_of_getLast? hlast)
  have hcut := h.between_append_behind p low (f last)
  rw [Nat.max_eq_right (Nat.le_of_lt (mem_behind.mp hmem).2.1), h.behind_getLast hlast] at hcut
  refine append_cancel_right (hcut.trans ?_)
  exact (take_append_drop n _).symm

lemma between_self : between f p low low l = [] := by
  refine filter_eq_nil_iff.mpr fun a _ => ?_
  simp only [Bool.and_eq_true, decide_eq_true_eq, not_and]
  omega

lemma Increasing.between_append_between (h : Increasing f l) {mid : ℕ} (hlow : low ≤ mid) (hhigh : mid ≤ high) :
    between f p low mid l ++ between f p mid high l = between f p low high l := by
  have hall := h.between_append_behind p low mid
  rw [Nat.max_eq_right hlow] at hall
  have hfirst : (between f p low mid l).filter (fun a => decide (f a ≤ high)) = between f p low mid l := by
    refine filter_eq_self.mpr fun a ha => decide_eq_true ?_
    have := (mem_filter.mp ha).2
    simp only [Bool.and_eq_true, decide_eq_true_eq] at this
    omega
  have hleft := congrArg (filter fun a => decide (f a ≤ high)) hall
  rwa [filter_append, hfirst, filter_le_behind, filter_le_behind] at hleft

lemma mem_between : a ∈ between f p low high l ↔ a ∈ l ∧ low < f a ∧ f a ≤ high ∧ p a = true := by
  simp only [between, mem_filter, Bool.and_eq_true, decide_eq_true_eq]
  tauto

lemma between_append_above {new : List α} (h : ∀ a ∈ new, high < f a) :
    between f p low high (l ++ new) = between f p low high l := by
  have hnew : between f p low high new = [] := by
    refine filter_eq_nil_iff.mpr fun a ha => ?_
    have := h a ha
    simp only [Bool.and_eq_true, decide_eq_true_eq, not_and]
    omega
  rw [between, filter_append, ← between, ← between, hnew, append_nil]

lemma filter_moved {queue pending : List α} {index : ℕ} (hindex : pending[index]? = some a)
    (horder : p a = true → ∀ earlier ∈ pending.take index, ¬ p earlier = true) :
    (queue ++ [a]).filter p ++ (pending.eraseIdx index).filter p = queue.filter p ++ pending.filter p := by
  obtain ⟨hlt, hget⟩ := List.getElem?_eq_some_iff.mp hindex
  have hsplit : pending = pending.take index ++ a :: pending.drop (index + 1) := by
    rw [← hget, List.getElem_cons_drop, List.take_append_drop]
  rw [List.eraseIdx_eq_take_drop_succ]
  conv_rhs => rw [hsplit]
  by_cases hp : p a = true
  · rw [List.filter_append, List.filter_append, List.filter_append, List.filter_eq_nil_iff.mpr (horder hp),
      List.filter_cons_of_pos hp, List.filter_cons_of_pos hp, List.filter_nil, List.append_assoc]
    rfl
  · rw [List.filter_append, List.filter_append, List.filter_append, List.filter_cons_of_neg hp,
      List.filter_cons_of_neg hp, List.filter_nil, List.append_nil]

end
end IncidentLens.Data
