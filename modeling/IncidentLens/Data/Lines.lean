import Mathlib.Data.List.Basic
import Mathlib.Data.List.Infix
import IncidentLens.Data.Bytes

/-!
# Terminated lines

A text is a sequence of lines, each followed by the separator, and a rest without one. Every
prefix of a text is a prefix of its lines followed by a piece of the next.
-/
namespace IncidentLens.Data

open List

section Lines
variable {α : Type*}

/-- `ls` with the separator `b` after each line, then `t`. -/
def content (b : α) : List (List α) → List α → List α
  | [], t => t
  | l :: ls, t => l ++ b :: content b ls t

/-- Neither the lines nor the rest hold the separator. -/
def Separated (b : α) (ls : List (List α)) (t : List α) : Prop := (∀ l ∈ ls, b ∉ l) ∧ b ∉ t

/-- The lines with the positions at which they start. -/
def located : ℕ → List (List α) → List (ℕ × List α)
  | _, [] => []
  | o, l :: ls => (o, l) :: located (o + l.length + 1) ls

/-- Number of symbols in the lines with their separators. -/
def size (ls : List (List α)) : ℕ := ls.foldr (fun l n => l.length + 1 + n) 0

@[simp] lemma size_nil : size ([] : List (List α)) = 0 := rfl

@[simp] lemma size_cons (l : List α) (ls : List (List α)) : size (l :: ls) = l.length + 1 + size ls := rfl

lemma size_append (ls ms : List (List α)) : size (ls ++ ms) = size ls + size ms := by
  induction ls with
  | nil => simp
  | cons l ls ih =>
    simp [ih]
    omega

lemma length_content (b : α) (ls : List (List α)) (t : List α) : (content b ls t).length = size ls + t.length := by
  induction ls with
  | nil => simp [content]
  | cons l ls ih =>
    simp [content, ih]
    omega

lemma content_append (b : α) (ls ms : List (List α)) (t : List α) :
    content b (ls ++ ms) t = content b ls (content b ms t) := by
  induction ls with
  | nil => rfl
  | cons l ls ih => simp [content, ih]

lemma content_eq_append (b : α) (ls : List (List α)) (t : List α) : content b ls t = content b ls [] ++ t := by
  induction ls with
  | nil => rfl
  | cons l ls ih =>
    simp only [content, append_assoc, cons_append]
    rw [ih]

@[simp] lemma drop_size (b : α) (ls : List (List α)) (t : List α) : (content b ls t).drop (size ls) = t := by
  have hlen := length_content b ls []
  rw [length_nil, Nat.add_zero] at hlen
  rw [content_eq_append, ← hlen, drop_left]

lemma take_size_add (b : α) (ls : List (List α)) (t : List α) (n : ℕ) :
    (content b ls t).take (size ls + n) = content b ls (t.take n) := by
  have hlen := length_content b ls []
  rw [length_nil, Nat.add_zero] at hlen
  rw [content_eq_append, content_eq_append b ls (t.take n), ← hlen, take_length_add_append]

lemma content_prefix (b : α) (ls : List (List α)) {t u : List α} (h : t <+: u) :
    content b ls t <+: content b ls u := by
  rw [content_eq_append, content_eq_append b ls u]
  exact (prefix_append_right_inj _).mpr h

variable {ls : List (List α)} {o : ℕ}

lemma getLast?_content (b : α) (h : ls ≠ []) : (content b ls []).getLast? = some b := by
  obtain ⟨init, l, rfl⟩ := (eq_nil_or_concat ls).resolve_left h
  rw [concat_eq_append, content_append, content_eq_append]
  simp [content]

lemma located_append (o : ℕ) (ls ms : List (List α)) :
    located o (ls ++ ms) = located o ls ++ located (o + size ls) ms := by
  induction ls generalizing o with
  | nil => simp [located]
  | cons l ls ih =>
    simp only [cons_append, located, ih, size_cons]
    congr 3
    omega

@[simp] lemma length_located (o : ℕ) (ls : List (List α)) : (located o ls).length = ls.length := by
  induction ls generalizing o with
  | nil => rfl
  | cons l ls ih => simp [located, ih]

lemma map_snd_located (o : ℕ) (ls : List (List α)) : (located o ls).map Prod.snd = ls := by
  induction ls generalizing o with
  | nil => rfl
  | cons l ls ih => simp [located, ih]

lemma le_of_mem_located {x : ℕ × List α} (h : x ∈ located o ls) : o ≤ x.1 := by
  induction ls generalizing o with
  | nil => cases h
  | cons l ls ih =>
    rcases mem_cons.mp h with rfl | h
    · exact le_rfl
    · have := ih h
      omega

lemma exists_of_mem_located {x : ℕ × List α} (h : x ∈ located o ls) :
    ∃ pre post, ls = pre ++ x.2 :: post ∧ x.1 = o + size pre := by
  induction ls generalizing o with
  | nil => cases h
  | cons l ls ih =>
    rcases mem_cons.mp h with rfl | h
    · exact ⟨[], ls, rfl, rfl⟩
    · obtain ⟨pre, post, rfl, hstart⟩ := ih h
      refine ⟨l :: pre, post, rfl, ?_⟩
      rw [hstart, size_cons]
      omega

lemma mem_located (pre : List (List α)) (l : List α) (post : List (List α)) :
    (o + size pre, l) ∈ located o (pre ++ l :: post) := by
  rw [located_append]
  exact mem_append_right _ mem_cons_self

lemma prefix_content {b : α} {t p : List α} (hsep : Separated b ls t)
    (h : p <+: content b ls t) : ∃ j u, j ≤ ls.length ∧ p = content b (ls.take j) u ∧
      Separated b (ls.take j) u ∧ (∀ l, ls[j]? = some l → u <+: l) ∧ (j = ls.length → u <+: t) := by
  induction ls generalizing p with
  | nil =>
    refine ⟨0, p, le_rfl, rfl, ⟨by simp, fun hb => hsep.2 (h.subset hb)⟩, by simp, fun _ => h⟩
  | cons l ls ih =>
    have htail : Separated b ls t := ⟨fun m hm => hsep.1 m (mem_cons_of_mem _ hm), hsep.2⟩
    have hl : b ∉ l := hsep.1 l mem_cons_self
    rcases Nat.lt_or_ge l.length p.length with hlong | hshort
    · -- the prefix reaches past the first separator
      obtain ⟨r, hr⟩ := h
      have hp : l ++ [b] <+: p := by
        refine @prefix_of_prefix_length_le _ _ _ (content b (l :: ls) t) ?_ ⟨r, hr⟩ (by simpa [Nat.succ_le_iff] using hlong)
        exact ⟨content b ls t, by simp [content]⟩
      obtain ⟨q, rfl⟩ := hp
      have hq : q <+: content b ls t := by
        refine ⟨r, ?_⟩
        simpa [content] using hr
      obtain ⟨j, u, hj, rfl, hsep', hnext, hend⟩ := ih htail hq
      refine ⟨j + 1, u, by simpa using hj, by simp [content], ⟨?_, hsep'.2⟩, ?_, ?_⟩
      · intro m hm
        rw [take_succ_cons, mem_cons] at hm
        rcases hm with rfl | hm
        · exact hl
        · exact hsep'.1 m hm
      · intro m hm
        exact hnext m (by simpa using hm)
      · intro h
        exact hend (by simpa using h)
    · have hp : p <+: l := prefix_of_prefix_length_le h (by rw [content]; exact prefix_append _ _) hshort
      refine ⟨0, p, by simp, rfl, ⟨by simp, fun hb => hl (hp.subset hb)⟩, ?_, by simp⟩
      intro m hm
      obtain rfl : l = m := by simpa using hm
      exact hp

end Lines

section Split
variable {α : Type*} [DecidableEq α]

/-- The lines of `s` that the separator ends. -/
def terminated (b : α) (s : List α) : List (List α) := (s.splitOn b).dropLast

variable {b : α} {ls : List (List α)} {t : List α}

lemma splitOn_content (hsep : Separated b ls t) : (content b ls t).splitOn b = ls ++ [t] := by
  induction ls with
  | nil => simpa [content] using splitOn_eq_singleton hsep.2
  | cons l ls ih =>
    have htail : Separated b ls t := ⟨fun m hm => hsep.1 m (mem_cons_of_mem _ hm), hsep.2⟩
    rw [content, splitOn_append_cons_self_of_not_mem (hsep.1 l mem_cons_self), ih htail]
    rfl

lemma terminated_content (hsep : Separated b ls t) : terminated b (content b ls t) = ls := by
  rw [terminated, splitOn_content hsep, dropLast_concat]

lemma exists_content (b : α) (s : List α) : ∃ t, s = content b (terminated b s) t ∧
    Separated b (terminated b s) t := by
  induction s with
  | nil => exact ⟨[], by simp [terminated, content], by simp [terminated, Separated]⟩
  | cons x s ih =>
    obtain ⟨t, hs, hsep⟩ := ih
    by_cases hx : x = b
    · have hsep' : Separated b ([] :: terminated b s) t := by
        refine ⟨fun l hl => ?_, hsep.2⟩
        rcases mem_cons.mp hl with rfl | hl
        · exact not_mem_nil
        · exact hsep.1 l hl
      have h : x :: s = content b ([] :: terminated b s) t := by rw [hx, content, ← hs]; rfl
      have hterm : terminated b (x :: s) = [] :: terminated b s := by rw [h, terminated_content hsep']
      rw [hterm]
      exact ⟨t, h, hsep'⟩
    · cases hls : terminated b s with
      | nil =>
        rw [hls] at hs hsep
        have hsep' : Separated b [] (x :: t) := ⟨by simp, by simp [Ne.symm hx, hsep.2]⟩
        have h : x :: s = content b [] (x :: t) := by rw [hs]; rfl
        have hterm : terminated b (x :: s) = [] := by rw [h, terminated_content hsep']
        rw [hterm]
        exact ⟨x :: t, h, hsep'⟩
      | cons l ls =>
        rw [hls] at hs hsep
        have hsep' : Separated b ((x :: l) :: ls) t := by
          refine ⟨fun m hm => ?_, hsep.2⟩
          rcases mem_cons.mp hm with rfl | hm
          · simp [Ne.symm hx, hsep.1 l mem_cons_self]
          · exact hsep.1 m (mem_cons_of_mem _ hm)
        have h : x :: s = content b ((x :: l) :: ls) t := by rw [hs]; rfl
        have hterm : terminated b (x :: s) = (x :: l) :: ls := by rw [h, terminated_content hsep']
        rw [hterm]
        exact ⟨t, h, hsep'⟩

lemma terminated_prefix {p s : List α} (h : p <+: s) : terminated b p <+: terminated b s := by
  obtain ⟨t, hs, hsep⟩ := exists_content b s
  rw [hs] at h
  obtain ⟨j, u, -, rfl, hsep', -⟩ := prefix_content hsep h
  rw [terminated_content hsep']
  exact take_prefix j _

lemma drop_content (ls : List (List α)) (o : ℕ) :
    (content b ls []).drop o = content b (terminated b ((content b ls []).drop o)) [] := by
  obtain ⟨u, hq, hsep⟩ := exists_content b ((content b ls []).drop o)
  suffices hu : u = [] by
    rw [hu] at hq
    exact hq
  by_contra hne
  have hrest : ((content b ls []).drop o).getLast? = u.getLast? := by
    conv_lhs => rw [hq, content_eq_append, getLast?_append]
    cases h : u.getLast? with
    | none => exact absurd (getLast?_eq_none_iff.mp h) hne
    | some x => rfl
  have hsome : ∃ x, u.getLast? = some x := by
    cases h : u.getLast? with
    | none => exact absurd (getLast?_eq_none_iff.mp h) hne
    | some x => exact ⟨x, rfl⟩
  obtain ⟨x, hx⟩ := hsome
  rw [getLast?_drop, hx] at hrest
  split_ifs at hrest with hlen
  have hls : ls ≠ [] := by
    rintro rfl
    simp [content] at hrest
  rw [getLast?_content b hls] at hrest
  have hmem := mem_of_getLast? hx
  rw [← Option.some.inj hrest] at hmem
  exact hsep.2 hmem

lemma mem_located_drop {s : List α} {o : ℕ} {x : ℕ × List α}
    (hx : x ∈ located 0 (terminated b s)) (ho : o ≤ x.1) : x ∈ located o (terminated b (s.drop o)) := by
  obtain ⟨t, hs, hsep⟩ := exists_content b s
  obtain ⟨pre, post, hls, hstart⟩ := exists_of_mem_located hx
  rw [Nat.zero_add] at hstart
  rw [hls] at hs hsep
  have hlen := length_content b pre []
  rw [length_nil, Nat.add_zero] at hlen
  have hq := drop_content (b := b) pre o
  generalize hqs : terminated b ((content b pre []).drop o) = qs at hq
  have hsepq : ∀ l ∈ qs, b ∉ l := by
    obtain ⟨u, -, hsepu⟩ := exists_content b ((content b pre []).drop o)
    rw [hqs] at hsepu
    exact hsepu.1
  have hdrop : s.drop o = content b (qs ++ x.2 :: post) t := by
    rw [hs, content_append, content_eq_append, drop_append_of_le_length (by omega), hq, content_append,
      ← content_eq_append]
  have hsep' : Separated b (qs ++ x.2 :: post) t := by
    refine ⟨fun l hl => ?_, hsep.2⟩
    rcases mem_append.mp hl with hl | hl
    · exact hsepq l hl
    · exact hsep.1 l (mem_append_right _ hl)
  rw [hdrop, terminated_content hsep']
  have hsize := congrArg length hq
  rw [length_drop, hlen, length_content, length_nil, Nat.add_zero] at hsize
  have hplace : x = (o + size qs, x.2) := by
    refine Prod.ext ?_ rfl
    omega
  rw [hplace]
  exact mem_located _ _ _

lemma rfind_content (hsep : Separated b ls t) : rfind b (content b ls t) = (size ls : ℤ) - 1 := by
  rcases eq_nil_or_concat ls with rfl | ⟨init, l, rfl⟩
  · have hnone : rfind? b t = none := by
      have ht := hsep.2
      generalize t = s at ht
      induction s with
      | nil => rfl
      | cons x s ih =>
        simp only [mem_cons, not_or] at ht
        simp [rfind?, ih ht.2, Ne.symm ht.1]
    simp [content, rfind, hnone]
  · have h : content b (init.concat l) t = (content b init [] ++ l) ++ b :: t := by
      rw [concat_eq_append, content_append, content_eq_append]
      simp [content]
    have hlen := length_content b init []
    rw [h, rfind, rfind?_append_cons_of_not_mem hsep.2, concat_eq_append, size_append]
    simp only [length_append, hlen, length_nil, size_cons, size_nil]
    push_cast
    omega

end Split
end IncidentLens.Data
