import Mathlib.Data.List.Basic

/-!
# Joined texts

Parts that are written one after the other, with a separator behind each. Where no part has the separator in
it, they can be read back.
-/
namespace IncidentLens.Data

open List
variable {α : Type*} {sep : α}

lemma cut_at {a b x y : List α} (ha : sep ∉ a) (hb : sep ∉ b) (h : a ++ sep :: x = b ++ sep :: y) : a = b ∧ x = y := by
  induction a generalizing b with
  | nil =>
    cases b with
    | nil => exact ⟨rfl, (cons.inj h).2⟩
    | cons c b =>
      obtain ⟨rfl, -⟩ := cons.inj h
      exact absurd mem_cons_self hb
  | cons c a ih =>
    cases b with
    | nil =>
      obtain ⟨rfl, -⟩ := cons.inj h
      exact absurd mem_cons_self ha
    | cons d b =>
      obtain ⟨rfl, hrest⟩ := cons.inj h
      obtain ⟨rfl, rfl⟩ := ih (fun hmem => ha (mem_cons_of_mem _ hmem))
        (fun hmem => hb (mem_cons_of_mem _ hmem)) hrest
      exact ⟨rfl, rfl⟩

/-- The parts, each with a separator behind it, and the rest. -/
def joined (sep : α) (parts : List (List α)) (rest : List α) : List α :=
  parts.foldr (fun part text => part ++ sep :: text) rest

@[simp] lemma joined_nil (rest : List α) : joined sep [] rest = rest := rfl

@[simp] lemma joined_cons (part : List α) (parts : List (List α)) (rest : List α) :
    joined sep (part :: parts) rest = part ++ sep :: joined sep parts rest := rfl

lemma joined_append (parts : List (List α)) (rest rest' : List α) :
    joined sep parts (rest ++ rest') = joined sep parts rest ++ rest' := by
  induction parts with
  | nil => rfl
  | cons part parts ih => rw [joined_cons, joined_cons, ih, append_assoc, cons_append]

lemma joined_concat (parts : List (List α)) (part rest : List α) :
    joined sep (parts ++ [part]) rest = joined sep parts part ++ sep :: rest := by
  induction parts with
  | nil => rfl
  | cons p parts ih => rw [cons_append, joined_cons, joined_cons, ih, append_assoc, cons_append]

lemma getLast?_joined (parts : List (List α)) {rest : List α} (h : rest ≠ []) :
    (joined sep parts rest).getLast? = rest.getLast? := by
  rw [← nil_append rest, joined_append, getLast?_append, nil_append, getLast?_eq_some_getLast h, Option.some_or]

lemma joined_inj {parts parts' : List (List α)} {rest rest' : List α} (hlength : parts.length = parts'.length)
    (hparts : ∀ part ∈ parts, sep ∉ part) (hparts' : ∀ part ∈ parts', sep ∉ part)
    (h : joined sep parts rest = joined sep parts' rest') : parts = parts' ∧ rest = rest' := by
  induction parts generalizing parts' with
  | nil =>
    cases parts' with
    | nil => exact ⟨rfl, h⟩
    | cons part' parts' => cases hlength
  | cons part parts ih =>
    cases parts' with
    | nil => cases hlength
    | cons part' parts' =>
      obtain ⟨rfl, hrest⟩ := cut_at (hparts part mem_cons_self) (hparts' part' mem_cons_self) h
      obtain ⟨rfl, rfl⟩ := ih (Nat.succ.inj hlength) (fun p hp => hparts p (mem_cons_of_mem _ hp))
        (fun p hp => hparts' p (mem_cons_of_mem _ hp)) hrest
      exact ⟨rfl, rfl⟩

lemma joined_inj_of_not_mem {parts parts' : List (List α)} {rest rest' : List α}
    (hparts : ∀ part ∈ parts, sep ∉ part) (hparts' : ∀ part ∈ parts', sep ∉ part) (hrest : sep ∉ rest) (hrest' : sep ∉ rest')
    (h : joined sep parts rest = joined sep parts' rest') : parts = parts' ∧ rest = rest' := by
  induction parts generalizing parts' with
  | nil =>
    cases parts' with
    | nil => exact ⟨rfl, h⟩
    | cons part' parts' =>
      rw [joined_nil, joined_cons] at h
      exact absurd (h ▸ mem_append_right part' mem_cons_self) hrest
  | cons part parts ih =>
    cases parts' with
    | nil =>
      rw [joined_nil, joined_cons] at h
      exact absurd (h ▸ mem_append_right part mem_cons_self) hrest'
    | cons part' parts' =>
      obtain ⟨rfl, htail⟩ := cut_at (hparts part mem_cons_self) (hparts' part' mem_cons_self) h
      obtain ⟨rfl, rfl⟩ := ih (fun p hp => hparts p (mem_cons_of_mem _ hp))
        (fun p hp => hparts' p (mem_cons_of_mem _ hp)) htail
      exact ⟨rfl, rfl⟩

lemma splitOn_joined [BEq α] [LawfulBEq α] {parts : List (List α)} {rest : List α} (hparts : ∀ part ∈ parts, sep ∉ part)
    (hrest : sep ∉ rest) : (joined sep parts rest).splitOn sep = parts ++ [rest] := by
  induction parts with
  | nil =>
    refine splitOnP_eq_singleton fun a ha => ?_
    exact beq_eq_false_iff_ne.mpr (ne_of_mem_of_not_mem ha hrest)
  | cons part parts ih =>
    have hpart : ∀ a ∈ part, (a == sep) = false := by
      intro a ha
      exact beq_eq_false_iff_ne.mpr (ne_of_mem_of_not_mem ha (hparts part mem_cons_self))
    rw [joined_cons, splitOn, splitOnP_append_cons_of_forall_mem hpart sep (by simp)]
    exact congrArg _ (ih fun p hp => hparts p (mem_cons_of_mem _ hp))

end IncidentLens.Data
