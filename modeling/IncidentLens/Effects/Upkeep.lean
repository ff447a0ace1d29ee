import IncidentLens.Effects.Routine

/-!
# Routines that keep an invariant

The invariant relates the local variables to the history of calls. A routine upholds it when
every call it makes is lawful and the invariant holds again at the end, after a return as after
an exception.
-/
namespace IncidentLens.Effects
namespace Routine
variable {C E σ α β : Type} {V : C → Type}

def Upholds (lawful : Trace C (Raising E V) → C → Prop) (I : σ → Trace C (Raising E V) → Prop)
    (m : Routine C V E σ α) : Prop :=
  ∀ l tr, I l tr → wp lawful m (fun _ => I) (fun _ => I) l tr

namespace Upholds
variable {lawful : Trace C (Raising E V) → C → Prop} {I : σ → Trace C (Raising E V) → Prop}

lemma pure (a : α) : Upholds lawful I (pure a : Routine C V E σ α) := fun _ _ h => h

lemma throw (e : E) : Upholds lawful I (throw e : Routine C V E σ α) := fun _ _ h => h

lemma modify {f : σ → σ} (h : ∀ l tr, I l tr → I (f l) tr) : Upholds lawful I (modify f : Routine C V E σ Unit) := h

lemma invoke {c : C} (hlawful : ∀ l tr, I l tr → lawful tr c) (hkeep : ∀ l tr r, I l tr → I l (⟨c, r⟩ :: tr)) :
    Upholds lawful I (invoke c : Routine C V E σ (V c)) := fun l tr h =>
  wp_invoke (hlawful l tr h) (fun _ => hkeep l tr _ h) fun _ => hkeep l tr _ h

lemma bind {m : Routine C V E σ β} {f : β → Routine C V E σ α} (hm : Upholds lawful I m)
    (hf : ∀ b, Upholds lawful I (f b)) : Upholds lawful I (m >>= f) := by
  intro l tr h
  refine wp_bind.mpr (wp_mono (hm l tr h) ?_ fun _ _ _ => id)
  intro b l' tr' h'
  exact hf b l' tr' h'

lemma ofExcept_bind {x : Except E β} {f : β → Routine C V E σ α} (hf : ∀ b, x = .ok b → Upholds lawful I (f b)) :
    Upholds lawful I (Routine.ofExcept x >>= f) := by
  intro l tr h
  refine wp_bind.mpr (wp_ofExcept ?_ fun _ _ => h)
  intro b hb
  exact hf b hb l tr h

lemma attempt {m : Routine C V E σ α} (hm : Upholds lawful I m) : Upholds lawful I (attempt m) := by
  intro l tr h
  exact wp_attempt.mpr (hm l tr h)

lemma forM {xs : List β} {f : β → Routine C V E σ Unit} (hf : ∀ x ∈ xs, Upholds lawful I (f x)) :
    Upholds lawful I (xs.forM f) := by
  induction xs with
  | nil => exact Upholds.pure ()
  | cons x xs ih =>
    refine Upholds.bind (hf x List.mem_cons_self) ?_
    intro _
    exact ih fun y hy => hf y (List.mem_cons_of_mem _ hy)

lemma ite {c : Prop} [Decidable c] {m m' : Routine C V E σ α} (hm : c → Upholds lawful I m)
    (hm' : ¬ c → Upholds lawful I m') : Upholds lawful I (if c then m else m') := by
  by_cases h : c
  · rw [if_pos h]
    exact hm h
  · rw [if_neg h]
    exact hm' h

lemma strengthen {J : σ → Trace C (Raising E V) → Prop} {m : Routine C V E σ α} (hm : Upholds lawful J m)
    (hJI : ∀ l tr, J l tr → I l tr) {l : σ} {tr : Trace C (Raising E V)} (h : J l tr) :
    wp lawful m (fun _ => I) (fun _ => I) l tr :=
  wp_mono (hm l tr h) (fun _ => hJI) fun _ => hJI

end Upholds
end Routine
end IncidentLens.Effects
