import IncidentLens.Data.Dict
import Mathlib.Data.List.Induction

/-!
# Collections kept by key

Elements are folded into a dictionary: one opens the entry of its key or updates it. What comes
out is read off the elements of each key.
-/
namespace IncidentLens.Data

open List Dict

/-- How an element opens the entry of its key, or updates it; an element without a key is passed over. -/
structure Upsert (ε κ β : Type*) where
  key : ε → Option κ
  insert : ε → β
  update : β → ε → β

namespace Upsert
variable {ε κ β γ : Type*} [DecidableEq κ] (u : Upsert ε κ β)

def put (old : Option β) (e : ε) : β :=
  match old with
  | none => u.insert e
  | some b => u.update b e

def step (d : Dict κ β) (e : ε) : Dict κ β :=
  match u.key e with
  | none => d
  | some k => d.set k (u.put (d.get? k) e)

def collect (es : List ε) : Dict κ β := es.foldl u.step []

def group (k : κ) (es : List ε) : List ε := es.filter fun e => u.key e = some k

def merged (es : List ε) : Option β := es.foldl (fun b e => some (u.put b e)) none

def firsts (es : List ε) : List κ := (es.filterMap u.key).eraseDups

variable {u} {es : List ε} {k : κ}

lemma collect_append (e : ε) : u.collect (es ++ [e]) = u.step (u.collect es) e := by simp [collect]

omit [DecidableEq κ] in
lemma merged_append (e : ε) : u.merged (es ++ [e]) = some (u.put (u.merged es) e) := by simp [merged]

lemma get?_collect : (u.collect es).get? k = u.merged (u.group k es) := by
  induction es using reverseRecOn with
  | nil => rfl
  | append_singleton es e ih =>
    rw [collect_append, step, group, filter_append]
    cases hkey : u.key e with
    | none => simp [hkey, ih, group]
    | some k' =>
      by_cases hk : k' = k
      · subst hk
        simp only [filter_cons, filter_nil, hkey, decide_true, if_true, get?_set_self, merged_append]
        rw [ih, group]
      · have hother : ¬ some k' = some k := fun h => hk (Option.some.inj h)
        simp only [filter_cons, filter_nil, hkey, hother, decide_false, Bool.false_eq_true, if_false,
          append_nil, get?_set_of_ne _ _ hk]
        rw [ih, group]

lemma keys_collect : (u.collect es).keys = u.firsts es := by
  induction es using reverseRecOn with
  | nil => rfl
  | append_singleton es e ih =>
    rw [collect_append, step, firsts, filterMap_append]
    cases hkey : u.key e with
    | none => simp [hkey, ih, firsts]
    | some k =>
      simp only [filterMap_cons, filterMap_nil, hkey, keys_set, eraseDups_append]
      rw [ih, firsts]
      by_cases hmem : k ∈ es.filterMap u.key
      · have hold : [k].removeAll (es.filterMap u.key) = [] := by
          rw [removeAll, filter_eq_nil_iff]
          simpa using mem_filterMap.mp hmem
        rw [if_pos (mem_eraseDups.mpr hmem), hold, eraseDups_nil, append_nil]
      · have hnew : [k].removeAll (es.filterMap u.key) = [k] := by
          rw [removeAll, filter_eq_self]
          simpa using fun e he hkey => hmem (mem_filterMap.mpr ⟨e, he, hkey⟩)
        rw [if_neg fun h => hmem (mem_eraseDups.mp h), hnew]
        rfl

lemma nodup_firsts : (u.firsts es).Nodup := by
  rw [← keys_collect]
  induction es using reverseRecOn with
  | nil => exact nodup_nil
  | append_singleton es e ih =>
    rw [collect_append, step]
    cases u.key e with
    | none => exact ih
    | some k => exact nodup_keys_set ih k _

lemma mem_firsts : k ∈ u.firsts es ↔ u.group k es ≠ [] := by simp [firsts, group, mem_eraseDups]

lemma collect_eq_map_iff {ε' β' : Type*} {v : Upsert ε' κ β'} {fs : List ε'} {f : β' → β} :
    u.collect es = (v.collect fs).map (fun item => (item.1, f item.2)) ↔
      u.firsts es = v.firsts fs ∧ ∀ k ∈ u.firsts es, u.merged (u.group k es) = (v.merged (v.group k fs)).map f := by
  have hkeys : Dict.keys ((v.collect fs).map fun item => (item.1, f item.2)) = v.firsts fs := by
    rw [← keys_collect, Dict.keys, map_map]
    rfl
  have hget : ∀ k, get? ((v.collect fs).map fun item => (item.1, f item.2)) k =
      (v.merged (v.group k fs)).map f := by
    intro k
    rw [← get?_collect]
    induction v.collect fs with
    | nil => rfl
    | cons item d ih =>
      simp only [map_cons, get?]
      split_ifs with hk
      · rfl
      · exact ih
  constructor
  · intro h
    constructor
    · rw [← keys_collect, h, hkeys]
    · intro k _
      rw [← get?_collect, h, hget]
  · rintro ⟨hfirsts, hmerged⟩
    refine eq_of_get? ?_ ?_ ?_
    · rw [keys_collect]
      exact nodup_firsts
    · rw [keys_collect, hkeys, hfirsts]
    · intro k hk
      rw [keys_collect] at hk
      rw [get?_collect, hget, hmerged k hk]

lemma key_of_mem_collect {f : β → κ} (hinsert : ∀ e k, u.key e = some k → f (u.insert e) = k)
    (hupdate : ∀ b e, f (u.update b e) = f b) : ∀ item ∈ u.collect es, f item.2 = item.1 := by
  induction es using reverseRecOn with
  | nil => exact fun item hitem => absurd hitem not_mem_nil
  | append_singleton es e ih =>
    intro item hitem
    rw [collect_append, step] at hitem
    cases hkey : u.key e with
    | none =>
      rw [hkey] at hitem
      exact ih item hitem
    | some k =>
      rw [hkey] at hitem
      rcases mem_set hitem with hnew | hold
      · rw [hnew]
        cases hget : (u.collect es).get? k with
        | none => exact hinsert e k hkey
        | some b => exact (hupdate b e).trans (ih _ (mem_of_get? hget))
      · exact ih item hold

/-! ### What is left of a field -/

section
variable {f : β → γ}

omit [DecidableEq κ] in
lemma merged_head {g : ε → γ} (hinsert : ∀ e, f (u.insert e) = g e) (hupdate : ∀ b e, f (u.update b e) = f b) :
    (u.merged es).map f = es.head?.map g := by
  induction es using reverseRecOn with
  | nil => rfl
  | append_singleton es e ih =>
    rw [merged_append]
    cases hmerged : u.merged es with
    | none =>
      rw [hmerged] at ih
      cases es with
      | nil => simp [put, hinsert]
      | cons e' es => simp at ih
    | some b =>
      rw [hmerged] at ih
      cases es with
      | nil => simp at ih
      | cons e' es => simpa [put, hupdate] using ih

omit [DecidableEq κ] in
lemma merged_getLast {g : ε → γ} (hinsert : ∀ e, f (u.insert e) = g e) (hupdate : ∀ b e, f (u.update b e) = g e) :
    (u.merged es).map f = es.getLast?.map g := by
  induction es using reverseRecOn with
  | nil => rfl
  | append_singleton es e _ =>
    rw [merged_append]
    cases u.merged es with
    | none => simp [put, hinsert]
    | some b => simp [put, hupdate]

omit [DecidableEq κ] in
lemma merged_given {g : ε → Option γ} {initial : ε → γ} (hinsert : ∀ e, f (u.insert e) = (g e).getD (initial e))
    (hupdate : ∀ b e, f (u.update b e) = (g e).getD (f b)) :
    (u.merged es).map f = es.head?.map fun e => (es.filterMap g).getLast?.getD (initial e) := by
  induction es using reverseRecOn with
  | nil => rfl
  | append_singleton es e ih =>
    rw [merged_append, filterMap_append]
    cases hmerged : u.merged es with
    | none =>
      rw [hmerged] at ih
      cases es with
      | nil => cases hg : g e <;> simp [put, hinsert, hg]
      | cons e' es => simp at ih
    | some b =>
      rw [hmerged] at ih
      cases es with
      | nil => simp at ih
      | cons e' es =>
        simp only [Option.map_some, head?_cons, Option.some.injEq] at ih
        cases hg : g e <;> simp [put, hupdate, hg, ih]

omit [DecidableEq κ] in
lemma merged_latest {f : β → Option γ} {g : ε → Option γ} (hinsert : ∀ e, f (u.insert e) = g e)
    (hupdate : ∀ b e, f (u.update b e) = (g e).orElse fun _ => f b) :
    (u.merged es).bind f = (es.filterMap g).getLast? := by
  induction es using reverseRecOn with
  | nil => rfl
  | append_singleton es e ih =>
    rw [merged_append, filterMap_append, Option.bind_some]
    cases hmerged : u.merged es with
    | none =>
      rw [hmerged, Option.bind_none] at ih
      cases hg : g e <;> simp [put, hinsert, hg, ← ih]
    | some b =>
      rw [hmerged, Option.bind_some] at ih
      cases hg : g e <;> simp [put, hupdate, hg, ← ih]

end

omit [DecidableEq κ] in
lemma exists_merged (h : es ≠ []) : ∃ b, u.merged es = some b := by
  induction es using reverseRecOn with
  | nil => exact absurd rfl h
  | append_singleton es e _ => exact ⟨_, merged_append e⟩

end Upsert
end IncidentLens.Data
