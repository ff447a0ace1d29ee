import Mathlib.Data.List.Sort

/-!
# Paging by keys

A page is what comes behind the key of the last row that was read, in the order of the keys, up to a limit; one row
more is read to see whether there are others. The pages, one after the other, list every row once and in order.
-/
namespace IncidentLens.Data.Keyset

open List

section
variable {α κ : Type*} [LinearOrder κ] (key : α → κ)

/-- `ORDER BY`. -/
def inOrder (rows : List α) : List α := rows.insertionSort fun a b => key a ≤ key b

def behind (rows : List α) (after : Option κ) : List α := rows.filter fun a => decide (∀ k ∈ after, k < key a)

/-- A page, and whether there are rows after it. -/
def page (rows : List α) (limit : ℕ) (after : Option κ) : List α × Bool :=
  let found := (inOrder key (behind key rows after)).take (limit + 1)
  (found.take limit, decide (limit < found.length))

variable {key} {rows : List α}

lemma perm_inOrder (rows : List α) : (inOrder key rows).Perm rows := perm_insertionSort _ _

lemma pairwise_inOrder (h : (rows.map key).Nodup) : (inOrder key rows).Pairwise fun a b => key a < key b := by
  have : Std.Total fun a b : α => key a ≤ key b := ⟨fun a b => le_total (key a) (key b)⟩
  have : IsTrans α fun a b => key a ≤ key b := ⟨fun _ _ _ => le_trans⟩
  have hle : (inOrder key rows).Pairwise fun a b => key a ≤ key b := pairwise_insertionSort _ _
  have hne : (inOrder key rows).Pairwise fun a b => key a ≠ key b :=
    pairwise_map.mp (((perm_inOrder rows).map key).nodup_iff.mpr h)
  exact (hle.and hne).imp fun hboth => lt_of_le_of_ne hboth.1 hboth.2

lemma eq_of_perm {L L' : List α} (hperm : L.Perm L') (h : L.Pairwise fun a b => key a < key b)
    (h' : L'.Pairwise fun a b => key a < key b) : L = L' :=
  hperm.eq_of_pairwise (fun _ _ _ _ hab hba => absurd hba (lt_asymm hab)) h h'

variable {front back : List α}

lemma filter_behind {a : α} (h : (front ++ a :: back).Pairwise fun a b => key a < key b) :
    (front ++ a :: back).filter (fun b => decide (key a < key b)) = back := by
  obtain ⟨-, hback, hacross⟩ := pairwise_append.mp h
  have hfront : front.filter (fun b => decide (key a < key b)) = [] := by
    refine filter_eq_nil_iff.mpr fun b hb => ?_
    rw [decide_eq_true_eq]
    exact lt_asymm (hacross b hb a mem_cons_self)
  have hall : back.filter (fun b => decide (key a < key b)) = back :=
    filter_eq_self.mpr fun b hb => decide_eq_true ((pairwise_cons.mp hback).1 b hb)
  rw [filter_append, hfront, nil_append, filter_cons_of_neg (by simp), hall]

lemma inOrder_behind (h : (rows.map key).Nodup) (hsplit : inOrder key rows = front ++ back) :
    inOrder key (behind key rows (front.getLast?.map key)) = back := by
  have hsorted := pairwise_inOrder h
  have hsublist : ((behind key rows (front.getLast?.map key)).map key).Nodup := h.sublist (filter_sublist.map key)
  have hperm : (behind key rows (front.getLast?.map key)).Perm
      (behind key (inOrder key rows) (front.getLast?.map key)) := ((perm_inOrder rows).symm).filter _
  have hfilter : behind key (inOrder key rows) (front.getLast?.map key) = back := by
    rw [hsplit] at hsorted ⊢
    rcases eq_nil_or_concat' front with rfl | ⟨front, a, rfl⟩
    · exact filter_eq_self.mpr fun b _ => by simp
    · rw [append_assoc, singleton_append] at hsorted ⊢
      rw [getLast?_concat, Option.map_some]
      refine (filter_congr fun b _ => ?_).trans (filter_behind hsorted)
      simp
  rw [hfilter] at hperm
  rw [hsplit] at hsorted
  exact eq_of_perm ((perm_inOrder _).trans hperm) (pairwise_inOrder hsublist) (pairwise_append.mp hsorted).2.1

lemma page_eq (h : (rows.map key).Nodup) (hsplit : inOrder key rows = front ++ back) (limit : ℕ) :
    page key rows limit (front.getLast?.map key) = (back.take limit, decide (limit < back.length)) := by
  rw [page, inOrder_behind h hsplit, take_take, Nat.min_eq_left (Nat.le_succ limit), length_take]
  refine congrArg (Prod.mk (back.take limit)) (decide_eq_decide.mpr ?_)
  omega

end

/-! ### All pages -/

section
variable {α β κ : Type*}

/-- The pages one after the other, each from the key of the last item before it; `none` where a page is not read, and
when there are more pages than steps. -/
def walk (pageAt : Option κ → Option (List β × Bool)) (keyOf : β → κ) : ℕ → Option κ → Option (List β)
  | 0, _ => none
  | n + 1, after => (pageAt after).bind fun read =>
    if read.2 = false ∨ read.1 = [] then some read.1
    else (walk pageAt keyOf n (read.1.getLast?.map keyOf)).map fun rest => read.1 ++ rest

variable {pageAt : Option κ → Option (List β × Bool)} {keyOf : β → κ} {key : α → κ} {read : α → Option β} {limit : ℕ}

lemma mapM_eq_some {part : List α} {items : List β} : part.mapM read = some items ↔ part.map read = items.map some := by
  induction part generalizing items with
  | nil => cases items <;> simp
  | cons a part ih =>
    rw [mapM_cons, map_cons]
    cases ha : read a with
    | none => cases items <;> simp
    | some b =>
      cases items with
      | nil => cases part.mapM read <;> simp
      | cons c items =>
        rw [map_cons, cons.injEq, ← ih]
        cases part.mapM read <;> simp

lemma getLast?_of_mapM {part : List α} {items : List β} (hkey : ∀ a ∈ part, ∀ b ∈ read a, keyOf b = key a)
    (h : part.mapM read = some items) : items.getLast?.map keyOf = part.getLast?.map key := by
  have hlast := congrArg getLast? (mapM_eq_some.mp h)
  rw [getLast?_map, getLast?_map] at hlast
  cases hitem : items.getLast? with
  | none =>
    rw [hitem, Option.map_none, Option.map_eq_none_iff] at hlast
    rw [hlast]
    rfl
  | some b =>
    rw [hitem, Option.map_some] at hlast
    obtain ⟨a, ha, hread⟩ := Option.map_eq_some_iff.mp hlast
    rw [ha, Option.map_some, Option.map_some, hkey a (mem_of_getLast? ha) b hread]

lemma walk_eq {L : List α} (hlimit : 0 < limit) (hkey : ∀ a ∈ L, ∀ b ∈ read a, keyOf b = key a)
    (hpage : ∀ front back, L = front ++ back → pageAt (front.getLast?.map key) =
      ((back.take limit).mapM read).map fun items => (items, decide (limit < back.length)))
    (n : ℕ) (front back : List α) (hsplit : L = front ++ back) (hn : back.length < n) :
    walk pageAt keyOf n (front.getLast?.map key) = back.mapM read := by
  induction n generalizing front back with
  | zero => omega
  | succ n ih =>
    have hback : back.mapM read = (back.take limit).mapM read >>= fun items =>
        ((back.drop limit).mapM read).map fun rest => items ++ rest := by
      conv_lhs => rw [← take_append_drop limit back, mapM_append]
      refine bind_congr fun items => ?_
      cases (back.drop limit).mapM read <;> rfl
    rw [walk, hpage front back hsplit, hback]
    cases hitems : (back.take limit).mapM read with
    | none => rfl
    | some items =>
      by_cases hmore : limit < back.length
      · have hne : items ≠ [] := by
          rintro rfl
          have hlength := congrArg length (mapM_eq_some.mp hitems)
          rw [length_map, length_take, map_nil, length_nil] at hlength
          omega
        have hmem : ∀ a ∈ back.take limit, ∀ b ∈ read a, keyOf b = key a := fun a ha =>
          hkey a (hsplit ▸ mem_append_right _ (mem_of_mem_take ha))
        have hcursor : items.getLast?.map keyOf = (front ++ back.take limit).getLast?.map key := by
          rw [getLast?_of_mapM hmem hitems, getLast?_append]
          cases hlast : (back.take limit).getLast? with
          | some a => rfl
          | none =>
            rw [getLast?_eq_none_iff] at hlast
            rw [hlast] at hitems
            exact absurd (Option.some.inj hitems).symm hne
        have hrest := ih (front ++ back.take limit) (back.drop limit)
          (by rw [append_assoc, take_append_drop, hsplit]) (by rw [length_drop]; omega)
        rw [Option.map_some, Option.bind_some, if_neg (by simp [hmore, hne]), hcursor, hrest]
        rfl
      · have hrest : back.drop limit = [] := drop_eq_nil_of_le (not_lt.mp hmore)
        rw [Option.map_some, Option.bind_some, if_pos (.inl (decide_eq_false hmore)), hrest]
        change some items = some (items ++ [])
        rw [append_nil]

end
end IncidentLens.Data.Keyset
