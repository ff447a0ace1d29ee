import Mathlib.Algebra.BigOperators.Group.List.Basic
import Mathlib.Algebra.Order.BigOperators.Group.List
import Mathlib.Algebra.Order.Ring.Nat

/-!
# Breadth-first order

A queue that is served from the front and filled at the back visits what branches off level by level.
-/
namespace IncidentLens.Data

open List

structure Branching (α : Type*) where
  children : α → List α
  size : α → ℕ
  size_children : ∀ a, ((children a).map size).sum < size a

namespace Branching
variable {α : Type*} (b : Branching α)

def total (as : List α) : ℕ := (as.map b.size).sum

@[simp] lemma total_nil : b.total [] = 0 := rfl

@[simp] lemma total_cons (a : α) (as : List α) : b.total (a :: as) = b.size a + b.total as := by
  simp [total]

@[simp] lemma total_append (as as' : List α) : b.total (as ++ as') = b.total as + b.total as' := by
  simp [total]

lemma total_children_lt (a : α) : b.total (b.children a) < b.size a := b.size_children a

lemma total_flatMap_le (as : List α) : b.total (as.flatMap b.children) ≤ b.total as := by
  induction as with
  | nil => exact le_rfl
  | cons a as ih =>
    have ha := b.total_children_lt a
    simp only [flatMap_cons, total_append, total_cons]
    omega

lemma total_flatMap_lt (a : α) (as : List α) : b.total ((a :: as).flatMap b.children) < b.total (a :: as) := by
  have ha := b.total_children_lt a
  have has := b.total_flatMap_le as
  simp only [flatMap_cons, total_append, total_cons]
  omega

def served : List α → List α
  | [] => []
  | a :: queue => a :: served (queue ++ b.children a)
termination_by queue => b.total queue
decreasing_by
  have ha := b.total_children_lt a
  simp only [total_append, total_cons]
  omega

def levels : List α → List α
  | [] => []
  | a :: level => (a :: level) ++ levels ((a :: level).flatMap b.children)
termination_by level => b.total level
decreasing_by exact b.total_flatMap_lt a level

@[simp] lemma served_nil : b.served [] = [] := by rw [served]

lemma served_cons (a : α) (queue : List α) : b.served (a :: queue) = a :: b.served (queue ++ b.children a) := by
  rw [served]

lemma served_append (front queue : List α) :
    b.served (front ++ queue) = front ++ b.served (queue ++ front.flatMap b.children) := by
  induction front generalizing queue with
  | nil => simp
  | cons a front ih => rw [cons_append, served_cons, append_assoc, ih, append_assoc, flatMap_cons, cons_append]

lemma served_forall {p : α → Prop} {queue : List α} (hqueue : ∀ a ∈ queue, p a)
    (hchildren : ∀ a, p a → ∀ c ∈ b.children a, p c) : ∀ a ∈ b.served queue, p a := by
  induction hserved : b.served queue generalizing queue with
  | nil => simp
  | cons a served ih =>
    cases queue with
    | nil =>
      rw [served_nil] at hserved
      cases hserved
    | cons a' queue =>
      rw [served_cons] at hserved
      obtain ⟨rfl, hrest⟩ := cons.inj hserved
      have ha := hqueue a' mem_cons_self
      have hqueue' : ∀ c ∈ queue ++ b.children a', p c := by
        intro c hc
        rcases mem_append.mp hc with hc | hc
        · exact hqueue c (mem_cons_of_mem _ hc)
        · exact hchildren a' ha c hc
      exact forall_mem_cons.mpr ⟨ha, ih hqueue' hrest⟩

lemma served_eq_levels (level : List α) : b.served level = b.levels level := by
  induction htotal : b.total level using Nat.strong_induction_on generalizing level with
  | _ n ih =>
    cases level with
    | nil => rw [served, levels]
    | cons a level =>
      have hserved := b.served_append (a :: level) []
      rw [append_nil, nil_append] at hserved
      rw [hserved, levels, ih _ (htotal ▸ b.total_flatMap_lt a level) _ rfl]

end Branching
end IncidentLens.Data
