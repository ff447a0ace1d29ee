import Mathlib.Data.List.Basic

/-!
# Dictionaries that keep the order of insertion
-/
namespace IncidentLens.Data

open List

/-- The items of a dictionary, in the order in which their keys were inserted. -/
abbrev Dict (κ α : Type*) := List (κ × α)

namespace Dict
variable {κ α : Type*} [DecidableEq κ]

def get? : Dict κ α → κ → Option α
  | [], _ => none
  | (k, a) :: d, key => if k = key then some a else get? d key

/-- `d[key] = value`: a key keeps its place. -/
def set : Dict κ α → κ → α → Dict κ α
  | [], key, value => [(key, value)]
  | (k, a) :: d, key, value => if k = key then (k, value) :: d else (k, a) :: set d key value

/-- `d.pop(key, None)` without its value. -/
def pop : Dict κ α → κ → Dict κ α
  | [], _ => []
  | (k, a) :: d, key => if k = key then pop d key else (k, a) :: pop d key

def keys (d : Dict κ α) : List κ := d.map Prod.fst

@[simp] lemma get?_nil (key : κ) : get? ([] : Dict κ α) key = none := rfl

lemma get?_set (d : Dict κ α) (key k : κ) (value : α) :
    (d.set key value).get? k = if key = k then some value else d.get? k := by
  induction d with
  | nil => rfl
  | cons item d ih =>
    obtain ⟨k', a⟩ := item
    by_cases hkey : k' = key
    · subst hkey
      by_cases hk : k' = k
      · simp [set, get?, hk]
      · simp [set, get?, hk]
    · by_cases hk : k' = k
      · subst hk
        simp [set, get?, hkey, Ne.symm hkey]
      · simp [set, get?, hkey, hk, ih]

lemma get?_pop (d : Dict κ α) (key k : κ) : (d.pop key).get? k = if key = k then none else d.get? k := by
  induction d with
  | nil => simp [pop]
  | cons item d ih =>
    obtain ⟨k', a⟩ := item
    by_cases hkey : k' = key
    · subst hkey
      by_cases hk : k' = k
      · subst hk
        simp [pop, ih]
      · simp [pop, ih, get?, hk]
    · by_cases hk : key = k
      · subst hk
        simp [pop, get?, hkey, ih]
      · simp [pop, get?, hkey, ih, hk]

lemma pop_sublist (d : Dict κ α) (key : κ) : (d.pop key).Sublist d := by
  induction d with
  | nil => exact .slnil
  | cons item d ih =>
    obtain ⟨k, a⟩ := item
    simp only [pop]
    split_ifs
    · exact ih.cons _
    · exact ih.cons_cons _

@[simp] lemma get?_set_self (d : Dict κ α) (key : κ) (value : α) : (d.set key value).get? key = some value := by
  simp [get?_set]

lemma get?_set_of_ne (d : Dict κ α) {key k : κ} (value : α) (h : key ≠ k) : (d.set key value).get? k = d.get? k := by
  simp [get?_set, h]

variable {d : Dict κ α} {key : κ} {value : α}

lemma mem_of_get? (h : d.get? key = some value) : (key, value) ∈ d := by
  induction d with
  | nil => cases h
  | cons item d ih =>
    obtain ⟨k, a⟩ := item
    simp only [get?] at h
    split_ifs at h with hk
    · subst hk
      rw [Option.some.inj h]
      exact mem_cons_self
    · exact mem_cons_of_mem _ (ih h)

lemma get?_of_mem (hnodup : d.keys.Nodup) (h : (key, value) ∈ d) : d.get? key = some value := by
  induction d with
  | nil => cases h
  | cons item d ih =>
    obtain ⟨k, a⟩ := item
    obtain ⟨hnot, hrest⟩ := nodup_cons.mp hnodup
    rcases mem_cons.mp h with hsame | hmem
    · cases hsame
      exact if_pos rfl
    · have hne : k ≠ key := by
        rintro rfl
        exact hnot (mem_map.mpr ⟨_, hmem, rfl⟩)
      exact (if_neg hne).trans (ih hrest hmem)

lemma mem_keys_iff : key ∈ d.keys ↔ ∃ value, d.get? key = some value := by
  induction d with
  | nil => simp [keys]
  | cons item d ih =>
    obtain ⟨k, a⟩ := item
    by_cases hk : k = key
    · simp [keys, get?, hk]
    · simp [keys, get?, hk, ← ih, Ne.symm hk, false_or]

lemma keys_set (d : Dict κ α) (key : κ) (value : α) :
    (d.set key value).keys = if key ∈ d.keys then d.keys else d.keys ++ [key] := by
  induction d with
  | nil => rfl
  | cons item d ih =>
    obtain ⟨k, a⟩ := item
    by_cases hk : k = key
    · simp [set, keys, hk]
    · simp only [set, hk, if_false]
      change k :: (set d key value).keys = if key ∈ k :: keys d then k :: keys d else k :: keys d ++ [key]
      rw [ih]
      by_cases hmem : key ∈ keys d
      · simp [hmem]
      · simp [hmem, Ne.symm hk]

lemma set_of_not_mem (h : key ∉ d.keys) (value : α) : d.set key value = d ++ [(key, value)] := by
  induction d with
  | nil => rfl
  | cons item d ih =>
    obtain ⟨k, a⟩ := item
    obtain ⟨hk, hrest⟩ : key ≠ k ∧ key ∉ keys d := by simpa [keys] using h
    simp [set, hk.symm, ih hrest]

lemma nodup_keys_set (h : d.keys.Nodup) (key : κ) (value : α) : (d.set key value).keys.Nodup := by
  rw [keys_set]
  split_ifs with hmem
  · exact h
  · exact nodup_append.mpr ⟨h, by simp, by
      intro a ha b hb
      rw [mem_singleton.mp hb]
      rintro rfl
      exact hmem ha⟩

lemma eq_of_get? {d d' : Dict κ α} (hnodup : d.keys.Nodup) (hkeys : d.keys = d'.keys)
    (hget : ∀ key ∈ d.keys, d.get? key = d'.get? key) : d = d' := by
  induction d generalizing d' with
  | nil =>
    cases d' with
    | nil => rfl
    | cons item d' => cases hkeys
  | cons item d ih =>
    obtain ⟨k, a⟩ := item
    cases d' with
    | nil => cases hkeys
    | cons item' d' =>
      obtain ⟨k', a'⟩ := item'
      obtain ⟨hk, hrest⟩ := cons.inj hkeys
      obtain ⟨hfresh, hnodup⟩ := nodup_cons.mp hnodup
      simp only at hk hrest hfresh hnodup
      subst hk
      have hvalue := hget k mem_cons_self
      simp only [get?, if_true, Option.some.injEq] at hvalue
      subst hvalue
      refine congrArg _ (ih hnodup hrest fun key hkey => ?_)
      have hne : k ≠ key := fun h => hfresh (h ▸ hkey)
      have hsame := hget key (mem_cons_of_mem _ hkey)
      simpa only [get?, if_neg hne] using hsame

lemma mem_set {item : κ × α} (h : item ∈ d.set key value) : item = (key, value) ∨ item ∈ d := by
  induction d with
  | nil => exact .inl (mem_singleton.mp h)
  | cons item' d ih =>
    obtain ⟨k, a⟩ := item'
    simp only [set] at h
    split_ifs at h with hk
    · subst hk
      rcases mem_cons.mp h with rfl | hmem
      · exact .inl rfl
      · exact .inr (mem_cons_of_mem _ hmem)
    · rcases mem_cons.mp h with rfl | hmem
      · exact .inr mem_cons_self
      · exact (ih hmem).imp_right (mem_cons_of_mem _)

section Related
variable {β : Type*} {R : κ → α → β → Prop} {d : Dict κ α} {d' : Dict κ β}

/-- The same keys in the same order, with related values. -/
def Related (R : κ → α → β → Prop) (d : Dict κ α) (d' : Dict κ β) : Prop :=
  List.Forall₂ (fun item item' => item.1 = item'.1 ∧ R item.1 item.2 item'.2) d d'

omit [DecidableEq κ] in
lemma Related.keys_eq (h : Related R d d') : d'.keys = d.keys := by
  induction h with
  | nil => rfl
  | cons hitem _ ih =>
    simp only [keys, map_cons, hitem.1] at ih ⊢
    rw [ih]

lemma Related.get? (h : Related R d d') (key : κ) : Option.Rel (R key) (d.get? key) (d'.get? key) := by
  induction h with
  | nil => exact .none
  | @cons item item' d d' hitem _ ih =>
    obtain ⟨k, a⟩ := item
    obtain ⟨k', b⟩ := item'
    obtain ⟨rfl, hvalue⟩ := hitem
    simp only [Dict.get?]
    split_ifs with hk
    · subst hk
      exact .some hvalue
    · exact ih

lemma Related.set (h : Related R d d') {key : κ} {a : α} {b : β} (hvalue : R key a b) :
    Related R (d.set key a) (d'.set key b) := by
  induction h with
  | nil => exact .cons ⟨rfl, hvalue⟩ .nil
  | @cons item item' d d' hitem hrest ih =>
    obtain ⟨k, a'⟩ := item
    obtain ⟨k', b'⟩ := item'
    obtain ⟨rfl, hvalue'⟩ := hitem
    simp only [Dict.set]
    split_ifs with hk
    · subst hk
      exact .cons ⟨rfl, hvalue⟩ hrest
    · exact .cons ⟨rfl, hvalue'⟩ ih

end Related

end Dict
end IncidentLens.Data
