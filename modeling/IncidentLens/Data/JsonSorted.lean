import IncidentLens.Data.JsonText

/-!
# Values with their keys in order

`json.dumps` with `sort_keys=True` writes a value with the keys of its objects in order, whatever their order was.
Two values with the same keys in order are equal in the sense of `==` on dicts.
-/
namespace IncidentLens.Data.Json

open List

mutual

/-- The value with the keys of every object in order. -/
def sorted : Json → Json
  | null => null
  | bool b => bool b
  | number literal => number literal
  | string s => string s
  | array items => array (sortedItems items)
  | object members => object ((sortedMembers members).insertionSort fun a b => a.1 ≤ b.1)

def sortedItems : List Json → List Json
  | [] => []
  | item :: items => sorted item :: sortedItems items

def sortedMembers : List (String × Json) → List (String × Json)
  | [] => []
  | (key, value) :: members => (key, sorted value) :: sortedMembers members

end

def sortKeys (d : Dict String Json) : Dict String Json := (sortedMembers d).insertionSort fun a b => a.1 ≤ b.1

lemma sorted_object (d : Dict String Json) : sorted (.object d) = .object (sortKeys d) := by
  rw [sorted, sortKeys]

lemma sortedMembers_eq_map (members : List (String × Json)) :
    sortedMembers members = members.map fun m => (m.1, sorted m.2) := by
  induction members with
  | nil => rfl
  | cons m members ih =>
    rw [sortedMembers, ih]
    rfl

lemma perm_sortKeys (d : Dict String Json) : (sortKeys d).Perm (d.map fun m => (m.1, sorted m.2)) := by
  rw [← sortedMembers_eq_map]
  exact perm_insertionSort _ _

lemma pairwise_sortKeys (d : Dict String Json) : (sortKeys d).Pairwise fun a b => a.1 ≤ b.1 :=
  haveI : Std.Total fun a b : String × Json => a.1 ≤ b.1 := ⟨fun a b => le_total a.1 b.1⟩
  haveI : IsTrans (String × Json) fun a b => a.1 ≤ b.1 := ⟨fun _ _ _ => le_trans⟩
  pairwise_insertionSort _ _

lemma keys_sortKeys (d : Dict String Json) : (sortKeys d).keys.Perm d.keys := by
  have hkeys : (d.map fun m => (m.1, sorted m.2)).map Prod.fst = d.keys := by
    rw [map_map]
    rfl
  rw [← hkeys]
  exact (perm_sortKeys d).map Prod.fst

lemma sortKeys_eq_nil_iff {d : Dict String Json} : sortKeys d = [] ↔ d = [] := by
  rw [← length_eq_zero_iff, (perm_sortKeys d).length_eq, length_map, length_eq_zero_iff]

lemma get?_sortKeys {d : Dict String Json} (h : d.keys.Nodup) (key : String) :
    (sortKeys d).get? key = (d.get? key).map sorted := by
  have hnodup : (sortKeys d).keys.Nodup := (keys_sortKeys d).nodup_iff.mpr h
  cases hget : d.get? key with
  | some value =>
    refine Dict.get?_of_mem hnodup ((perm_sortKeys d).mem_iff.mpr ?_)
    exact mem_map.mpr ⟨(key, value), Dict.mem_of_get? hget, rfl⟩
  | none =>
    cases hsorted : (sortKeys d).get? key with
    | none => rfl
    | some value =>
      have hkey : key ∈ d.keys := (keys_sortKeys d).mem_iff.mp (Dict.mem_keys_iff.mpr ⟨value, hsorted⟩)
      obtain ⟨other, hother⟩ := Dict.mem_keys_iff.mp hkey
      rw [hget] at hother
      cases hother

/-! ### The text -/

lemma writeMembers_eq_map (members : List (String × Json)) :
    writeMembers members = members.map fun m => quote m.1 ++ ':' :: write m.2 := by
  induction members with
  | nil => rfl
  | cons m members ih =>
    rw [writeMembers, ih]
    rfl

mutual

lemma dumps_eq : ∀ v : Json, dumps v = write (sorted v)
  | .null => rfl
  | .bool true => rfl
  | .bool false => rfl
  | .number _ => rfl
  | .string _ => rfl
  | .array items => by rw [dumps, sorted, write, dumpsItems_eq items]
  | .object members => by
    have hsorted := map_insertionSort (r := fun a b : String × Json => a.1 ≤ b.1)
      (s := fun a b : String × List Char => a.1 ≤ b.1) (fun m => (m.1, write m.2)) (sortedMembers members)
      fun _ _ _ _ => Iff.rfl
    rw [dumps, sorted, write, writeMembers_eq_map, dumpsMembers_eq members, ← hsorted, map_map]
    refine congrArg (fun texts => ['{'] ++ joinComma texts ++ ['}']) (map_congr_left fun m _ => ?_)
    rw [Function.comp_apply, append_assoc, singleton_append]

lemma dumpsItems_eq : ∀ items : List Json, dumpsItems items = writeItems (sortedItems items)
  | [] => rfl
  | item :: items => by rw [dumpsItems, sortedItems, writeItems, dumps_eq item, dumpsItems_eq items]

lemma dumpsMembers_eq : ∀ members : List (String × Json),
    dumpsMembers members = (sortedMembers members).map fun m => (m.1, write m.2)
  | [] => rfl
  | (key, value) :: members => by
    rw [dumpsMembers, sortedMembers, map_cons, dumps_eq value, dumpsMembers_eq members]

end

/-! ### Twice in order -/

mutual

lemma sorted_sorted : ∀ v : Json, sorted (sorted v) = sorted v
  | .null => rfl
  | .bool _ => rfl
  | .number _ => rfl
  | .string _ => rfl
  | .array items => by rw [sorted, sorted, sortedItems_sortedItems items]
  | .object members => by
    have hsame : sortedMembers (sortKeys members) = sortKeys members := by
      rw [sortedMembers_eq_map]
      refine (map_congr_left fun m hm => ?_).trans (map_id _)
      obtain ⟨key, value⟩ := m
      have hvalue := sorted_of_mem members (key, value) ((perm_insertionSort _ _).mem_iff.mp hm)
      rw [hvalue]
      rfl
    rw [sorted_object, sorted_object, sortKeys, hsame]
    exact congrArg object (List.Pairwise.insertionSort_eq (pairwise_sortKeys members))

lemma sortedItems_sortedItems : ∀ items : List Json, sortedItems (sortedItems items) = sortedItems items
  | [] => rfl
  | item :: items => by rw [sortedItems, sortedItems, sorted_sorted item, sortedItems_sortedItems items]

lemma sorted_of_mem : ∀ (members : List (String × Json)), ∀ m ∈ sortedMembers members, sorted m.2 = m.2
  | [], _, h => by cases h
  | (key, value) :: members, m, h => by
    rw [sortedMembers] at h
    rcases mem_cons.mp h with rfl | hrest
    · exact sorted_sorted value
    · exact sorted_of_mem members m hrest

end

lemma sortKeys_sortKeys (d : Dict String Json) : sortKeys (sortKeys d) = sortKeys d := by
  have hsorted := sorted_sorted (.object d)
  rw [sorted_object, sorted_object] at hsorted
  exact Json.object.inj hsorted

/-! ### What is read back -/

section
variable {numbers : Numbers}

mutual

lemma valid_sorted : ∀ v : Json, Valid numbers v → Valid numbers (sorted v)
  | .null, _ => trivial
  | .bool _, _ => trivial
  | .number _, h => h
  | .string _, _ => trivial
  | .array items, h => validItems_sortedItems items h
  | .object members, h => by
    have hmembers := validMembers_sortedMembers members h.2
    rw [validMembers_iff] at hmembers
    rw [sorted_object]
    refine ⟨(keys_sortKeys members).nodup_iff.mpr h.1, validMembers_iff.mpr fun m hm => ?_⟩
    exact hmembers m ((perm_insertionSort _ _).mem_iff.mp hm)

lemma validItems_sortedItems : ∀ items : List Json, ValidItems numbers items → ValidItems numbers (sortedItems items)
  | [], _ => trivial
  | item :: items, h => ⟨valid_sorted item h.1, validItems_sortedItems items h.2⟩

lemma validMembers_sortedMembers : ∀ members : List (String × Json), ValidMembers numbers members →
    ValidMembers numbers (sortedMembers members)
  | [], _ => trivial
  | (_, value) :: members, h => ⟨valid_sorted value h.1, validMembers_sortedMembers members h.2⟩

end

lemma loads_dumps {v : Json} (h : Valid numbers v) : loads numbers (dumps v) = some (sorted v) := by
  rw [dumps_eq]
  exact loads_write (valid_sorted v h)

lemma loads_dumps_object {d : Dict String Json} (h : Valid numbers (.object d)) :
    loads numbers (dumps (.object d)) = some (.object (sortKeys d)) := by
  rw [loads_dumps h, sorted_object]

end
end IncidentLens.Data.Json
