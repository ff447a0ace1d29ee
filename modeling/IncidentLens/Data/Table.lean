import Mathlib.Data.List.Basic
import Mathlib.Data.List.Nodup
import Mathlib.Logic.Function.Basic
import Mathlib.Tactic.SplitIfs

/-!
# Tables with a primary key

A table holds at most one row for a key, and every row is stored under its own key.
-/
namespace IncidentLens.Data

open Function

structure Table {α κ : Type*} [DecidableEq κ] (key : α → κ) where
  get : κ → Option α
  keyed : ∀ k a, get k = some a → key a = k

namespace Table
variable {α κ : Type*} [DecidableEq κ] {key : α → κ}

def empty : Table key := ⟨fun _ => none, by simp⟩

instance : Inhabited (Table key) := ⟨empty⟩

/-- Insert a row, or replace the one with its key. -/
def put (t : Table key) (a : α) : Table key where
  get := update t.get (key a) (some a)
  keyed k b h := by
    by_cases hk : k = key a
    · subst hk
      rw [update_self] at h
      rw [Option.some.inj h]
    · rw [update_of_ne hk] at h
      exact t.keyed k b h

def remove (t : Table key) (k₀ : κ) : Table key where
  get := update t.get k₀ none
  keyed k a h := by
    by_cases hk : k = k₀
    · subst hk
      rw [update_self] at h
      cases h
    · rw [update_of_ne hk] at h
      exact t.keyed k a h

/-- Delete the rows that do not meet a condition. -/
def filter (t : Table key) (p : α → Bool) : Table key where
  get k := (t.get k).filter p
  keyed k a h := t.keyed k a (Option.filter_eq_some_iff.mp h).1

@[simp] lemma get_empty (k : κ) : (empty : Table key).get k = none := rfl

lemma get_put (t : Table key) (a : α) (k : κ) : (t.put a).get k = if k = key a then some a else t.get k := by
  simp only [put, update_apply]

lemma get_filter (t : Table key) (p : α → Bool) (k : κ) : (t.filter p).get k = (t.get k).filter p := rfl

@[simp] lemma get_put_self (t : Table key) (a : α) : (t.put a).get (key a) = some a := by
  simp [get_put]

lemma get_put_of_ne (t : Table key) {a : α} {k : κ} (h : k ≠ key a) : (t.put a).get k = t.get k := by
  simp [get_put, h]

lemma get_key (t : Table key) {k : κ} {a : α} (h : t.get k = some a) : t.get (key a) = some a := by
  rw [t.keyed k a h, h]

@[ext] lemma ext {t u : Table key} (h : ∀ k, t.get k = u.get k) : t = u := by
  cases t
  cases u
  congr
  funext k
  exact h k

lemma put_put (t : Table key) {a b : α} (h : key a = key b) : (t.put a).put b = t.put b := by
  ext1 k
  simp only [get_put, h]
  split_ifs <;> rfl

end Table

/-! ### Rows in a list -/

section Rows
variable {α κ : Type*} [DecidableEq κ] {key : α → κ} {rows : List α} {a : α}

/-- Replace the rows with the key of `a`. -/
def replaceRow (key : α → κ) (rows : List α) (a : α) : List α := rows.map fun row => if key row = key a then a else row

lemma map_replaceRow (key : α → κ) (rows : List α) (a : α) : (replaceRow key rows a).map key = rows.map key := by
  rw [replaceRow, List.map_map]
  refine List.map_congr_left fun row _ => ?_
  simp only [comp_apply]
  split_ifs with hkey
  · exact hkey.symm
  · rfl

lemma find?_replaceRow (key : α → κ) (rows : List α) (a : α) (k : κ) :
    (replaceRow key rows a).find? (fun row => key row = k) =
      (rows.find? fun row => key row = k).map fun row => if key row = key a then a else row := by
  rw [replaceRow, List.find?_map]
  congr 2
  funext row
  simp only [comp_apply]
  split_ifs with hkey
  · rw [hkey]
  · rfl

lemma find?_of_nodup (hunique : (rows.map key).Nodup) (h : a ∈ rows) :
    rows.find? (fun row => key row = key a) = some a := by
  induction rows with
  | nil => cases h
  | cons first rows ih =>
    rw [List.map_cons, List.nodup_cons] at hunique
    by_cases hfirst : first = a
    · rw [hfirst, List.find?_cons_of_pos (by simp)]
    · have hrow := (List.mem_cons.mp h).resolve_left (Ne.symm hfirst)
      have hkey : key first ≠ key a := by
        intro hkey
        exact hunique.1 (hkey ▸ List.mem_map_of_mem hrow)
      rw [List.find?_cons_of_neg (by simpa using hkey)]
      exact ih hunique.2 hrow

end Rows
end IncidentLens.Data
