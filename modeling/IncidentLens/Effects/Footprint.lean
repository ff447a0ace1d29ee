import IncidentLens.Effects.StateError
import Mathlib.Logic.Relation
import Mathlib.Tactic.SplitIfs

/-!
# Footprints

The writes of a computation, one after the other. `Walks I m V` says that from a store on
which the invariant `I` holds every write of `m` is a `T`-step, also where `m` raises, and
that what it returns satisfies `V`.
-/
namespace IncidentLens.Effects
open StateError

/-- A property of stores that no `T`-step breaks. -/
structure Invariant {σ : Type} (T : σ → σ → Prop) where
  holds : σ → Prop
  kept : ∀ s t, holds s → T s t → holds t

namespace Invariant
variable {σ : Type} {T : σ → σ → Prop} (I : Invariant T)

lemma along {s t : σ} (h : I.holds s) (hst : Relation.ReflTransGen T s t) : I.holds t := by
  induction hst with
  | refl => exact h
  | tail _ hstep ih => exact I.kept _ _ ih hstep

end Invariant

variable {ε σ α β : Type} {T : σ → σ → Prop}

def Walks (I : Invariant T) (m : StateError ε σ α) (V : α → Prop) : Prop :=
  ∀ s, I.holds s → wp m (fun r t => Relation.ReflTransGen T s t ∧ ∀ a, r = .ok a → V a) s

namespace Walks
variable {I : Invariant T} {V : α → Prop} {W : β → Prop}

lemma pure {a : α} (h : V a) : Walks I (pure a : StateError ε σ α) V := by
  intro s _
  refine ⟨.refl, ?_⟩
  intro b hb
  cases hb
  exact h

lemma throw (e : ε) : Walks I (throw e : StateError ε σ α) V := by
  intro s _
  refine ⟨.refl, ?_⟩
  intro b hb
  cases hb

lemma modify {f : σ → σ} (h : ∀ s, I.holds s → T s (f s)) :
    Walks I (modify f : StateError ε σ PUnit) fun _ => True := by
  intro s hs
  exact ⟨.single (h s hs), fun _ _ => trivial⟩

variable {m : StateError ε σ α}

lemma mono {V' : α → Prop} (h : Walks I m V) (hV : ∀ a, V a → V' a) : Walks I m V' := by
  intro s hs
  refine wp_mono (h s hs) ?_
  intro r t hr
  exact ⟨hr.1, fun a ha => hV a (hr.2 a ha)⟩

lemma bind {f : α → StateError ε σ β} (hm : Walks I m V) (hf : ∀ a, V a → Walks I (f a) W) : Walks I (m >>= f) W := by
  intro s hs
  rw [wp_bind]
  refine wp_mono (hm s hs) ?_
  intro r t hr
  cases r with
  | ok a =>
    refine wp_mono (hf a (hr.2 a rfl) t (I.along hs hr.1)) ?_
    intro r u hu
    exact ⟨hr.1.trans hu.1, hu.2⟩
  | error e =>
    refine ⟨hr.1, ?_⟩
    intro b hb
    cases hb

lemma get_bind {f : σ → StateError ε σ β}
    (hf : ∀ s, I.holds s → wp (f s) (fun r t => Relation.ReflTransGen T s t ∧ ∀ a, r = .ok a → W a) s) :
    Walks I (get >>= f) W := by
  intro s hs
  rw [wp_bind]
  exact hf s hs

lemma tryCatch {f : ε → StateError ε σ α} (hm : Walks I m V)
    (hf : ∀ e, Walks I (f e) V) : Walks I (tryCatch m f) V := by
  intro s hs
  rw [wp_tryCatch]
  refine wp_mono (hm s hs) ?_
  intro r t hr
  cases r with
  | ok a =>
    refine ⟨hr.1, ?_⟩
    intro b hb
    cases hb
    exact hr.2 _ rfl
  | error e =>
    refine wp_mono (hf e t (I.along hs hr.1)) ?_
    intro r u hu
    exact ⟨hr.1.trans hu.1, hu.2⟩

lemma forM {f : α → StateError ε σ PUnit} (l : List α)
    (hf : ∀ a ∈ l, Walks I (f a) fun _ => True) : Walks I (l.forM f) fun _ => True := by
  induction l with
  | nil => exact Walks.pure trivial
  | cons a l ih =>
    refine Walks.bind (f := fun _ => l.forM f) (hf a List.mem_cons_self) ?_
    intro _ _
    exact ih fun b hb => hf b (List.mem_cons_of_mem a hb)

lemma foldlM {f : β → α → StateError ε σ β} (l : List α) (b : β) (hb : W b)
    (hf : ∀ b, W b → ∀ a ∈ l, Walks I (f b a) W) : Walks I (l.foldlM f b) W := by
  induction l generalizing b with
  | nil => exact Walks.pure hb
  | cons a l ih =>
    rw [List.foldlM_cons]
    refine (hf b hb a List.mem_cons_self).bind ?_
    intro c hc
    exact ih c hc fun b hb a ha => hf b hb a (List.mem_cons_of_mem _ ha)

lemma ite {c : Prop} [Decidable c] {m m' : StateError ε σ α} (hm : c → Walks I m V)
    (hm' : ¬ c → Walks I m' V) : Walks I (if c then m else m') V := by
  split_ifs with hc
  · exact hm hc
  · exact hm' hc

lemma optional {γ : Type} {c : Prop} [Decidable c] {m : StateError ε σ γ} {rest : StateError ε σ α}
    (hm : c → Walks I m fun _ => True) (hrest : Walks I rest V) :
    Walks I (if c then m >>= fun _ => rest else rest) V :=
  ite (fun hc => (hm hc).bind fun _ _ => hrest) fun _ => hrest

lemma weaken {T' : σ → σ → Prop} {J : Invariant T'} (hT : ∀ s t, T s t → T' s t)
    (hI : ∀ s, J.holds s → I.holds s) (hm : Walks I m V) : Walks J m V := by
  intro s hs
  refine wp_mono (hm s (hI s hs)) ?_
  intro r t ht
  exact ⟨Relation.ReflTransGen.mono hT _ _ ht.1, ht.2⟩

end Walks

lemma foldlM_unchanged {s : σ} {f : β → α → StateError ε σ β} (l : List α)
    (hf : ∀ b, ∀ a ∈ l, wp (f b a) (fun _ t => t = s) s) (b : β) : wp (l.foldlM f b) (fun _ t => t = s) s := by
  induction l generalizing b with
  | nil => rfl
  | cons a l ih =>
    rw [List.foldlM_cons, wp_bind]
    refine wp_mono (hf b a List.mem_cons_self) ?_
    intro r t ht
    subst ht
    cases r with
    | ok c => exact ih (fun b a ha => hf b a (List.mem_cons_of_mem _ ha)) c
    | error e => rfl

end IncidentLens.Effects
