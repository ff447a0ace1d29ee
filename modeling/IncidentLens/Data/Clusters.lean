import Mathlib.Data.List.Basic
import Mathlib.Tactic.Common

/-!
# Clusters of a list

Elements join the first cluster whose head they are related to, or open one. The relation need
not be reflexive: an element that is not even related to itself stays alone.
-/
namespace IncidentLens.Data

open List

variable {α : Type*} (r : α → α → Bool)

/-- A cluster takes in what is related to its head. -/
def place : List (α × List α) → α → List (α × List α)
  | [], a => [(a, [])]
  | (h, t) :: cs, a => if r h a then (h, t ++ [a]) :: cs else (h, t) :: place cs a

/-- Every element that is not in a cluster before opens one, with what it is related to behind it. -/
def clusters : List α → List (α × List α)
  | [] => []
  | a :: l => (a, l.filter (r a)) :: clusters (l.filter fun b => !r a b)
termination_by l => l.length
decreasing_by
  rw [length_unattach]
  exact Nat.lt_succ_of_le (le_of_le_of_eq (length_filter_le _ _) length_attach)

def covers (cs : List (α × List α)) (a : α) : Bool := cs.any fun c => r c.1 a

variable {r}

lemma place_of_covers {cs : List (α × List α)} {a : α} (hcs : cs.Pairwise fun c d => r c.1 a = true → r d.1 a = false)
    (hcovers : covers r cs a = true) : place r cs a = cs.map fun c => if r c.1 a then (c.1, c.2 ++ [a]) else c := by
  induction cs with
  | nil => cases hcovers
  | cons c cs ih =>
    obtain ⟨hfirst, hrest⟩ := pairwise_cons.mp hcs
    simp only [place, map_cons]
    split_ifs with hc
    · refine congrArg _ (Eq.symm ?_)
      conv_rhs => rw [← map_id cs]
      refine map_congr_left fun d hd => ?_
      rw [hfirst d hd hc]
      rfl
    · have : covers r cs a = true := by simpa [covers, hc] using hcovers
      rw [ih hrest this]

lemma place_of_not_covers {cs : List (α × List α)} {a : α} (hcovers : covers r cs a = false) :
    place r cs a = cs ++ [(a, [])] := by
  induction cs with
  | nil => rfl
  | cons c cs ih =>
    obtain ⟨hc, hrest⟩ : r c.1 a = false ∧ covers r cs a = false := by simpa [covers] using hcovers
    simp [place, hc, ih hrest]

lemma foldl_place_append (hsymm : ∀ a b, r a b = true → r b a = true)
    (htrans : ∀ a b c, r a b = true → r b c = true → r a c = true) (l : List α) (cs : List (α × List α))
    (hcs : cs.Pairwise fun c d => r c.1 d.1 = false) : l.foldl (place r) cs =
      cs.map (fun c => (c.1, c.2 ++ l.filter (r c.1))) ++ clusters r (l.filter fun a => !covers r cs a) := by
  induction l generalizing cs with
  | nil => simp [clusters]
  | cons a l ih =>
    have hunique : cs.Pairwise fun c d => r c.1 a = true → r d.1 a = false := by
      refine hcs.imp fun {c d} hcd hc => ?_
      by_contra hd
      exact absurd (htrans _ _ _ hc (hsymm _ _ (by simpa using hd))) (by simp [hcd])
    rw [foldl_cons]
    cases hcovers : covers r cs a with
    | true =>
      rw [place_of_covers hunique hcovers, ih]
      · have hheads : ∀ b, covers r (cs.map fun c => if r c.1 a then (c.1, c.2 ++ [a]) else c) b = covers r cs b := by
          intro b
          simp only [covers, any_map]
          congr 1
          funext c
          simp only [Function.comp_apply]
          split_ifs <;> rfl
        simp only [hheads, map_map]
        congr 1
        · refine map_congr_left fun c _ => ?_
          simp only [Function.comp_apply]
          split_ifs with hc
          · simp [hc]
          · simp [hc]
        · simp [hcovers]
      · rw [pairwise_map]
        refine hcs.imp fun {c d} hcd => ?_
        split_ifs <;> exact hcd
    | false =>
      have hfree : ∀ c ∈ cs, r c.1 a = false := by simpa [covers] using hcovers
      rw [place_of_not_covers hcovers, ih]
      · have hopen : (l.filter fun b => !covers r (cs ++ [(a, [])]) b) =
            (l.filter fun b => !covers r cs b).filter fun b => !r a b := by
          rw [filter_filter]
          refine filter_congr fun b _ => ?_
          simp [covers, Bool.and_comm]
        have hown : (l.filter fun b => !covers r cs b).filter (r a) = l.filter (r a) := by
          rw [filter_filter]
          refine filter_congr fun b _ => ?_
          cases hab : r a b with
          | false => rfl
          | true =>
            -- what is related to a free element is free
            have : covers r cs b = false := by
              rw [covers, any_eq_false]
              intro c hc hcb
              exact absurd (htrans _ _ _ hcb (hsymm _ _ hab)) (by simp [hfree c hc])
            simp [this]
        have hkept : cs.map (fun c => (c.1, c.2 ++ (a :: l).filter (r c.1))) =
            cs.map fun c => (c.1, c.2 ++ l.filter (r c.1)) := by
          refine map_congr_left fun c hc => ?_
          rw [filter_cons_of_neg (by simp [hfree c hc])]
        rw [hkept, filter_cons_of_pos (by simp [hcovers]), clusters, hown, ← hopen]
        simp
      · refine pairwise_append.mpr ⟨hcs, pairwise_singleton _ _, fun c hc d hd => ?_⟩
        rw [mem_singleton.mp hd]
        exact hfree c hc

lemma foldl_place (hsymm : ∀ a b, r a b = true → r b a = true)
    (htrans : ∀ a b c, r a b = true → r b c = true → r a c = true) (l : List α) :
    l.foldl (place r) [] = clusters r l := by
  rw [foldl_place_append hsymm htrans l [] List.Pairwise.nil]
  simp [covers]

end IncidentLens.Data
