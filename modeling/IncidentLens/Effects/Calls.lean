import IncidentLens.Effects.Routine

/-!
# Routines that call only part of the interface

`Calls P m` says that every call of `m` is in the class `P`. What such calls preserve is
preserved by the routine, and a protocol that allows them is kept.
-/
namespace IncidentLens.Effects
namespace Routine
variable {C E σ α β : Type} {V : C → Type} {P P' : C → Prop}

def Calls (P : C → Prop) (m : Routine C V E σ α) : Prop :=
  ∀ l tr, wp (fun _ c => P c) m (fun _ _ _ => True) (fun _ _ _ => True) l tr

lemma calls_pure (a : α) : Calls P (pure a : Routine C V E σ α) := fun _ _ => trivial

lemma calls_throw (e : E) : Calls P (throw e : Routine C V E σ α) := fun _ _ => trivial

lemma calls_get : Calls P (get : Routine C V E σ σ) := fun _ _ => trivial

lemma calls_modify (f : σ → σ) : Calls P (modify f : Routine C V E σ Unit) := fun _ _ => trivial

lemma calls_ofExcept (x : Except E α) : Calls P (ofExcept x : Routine C V E σ α) := fun _ _ =>
  wp_ofExcept (fun _ _ => trivial) fun _ _ => trivial

lemma calls_bind {m : Routine C V E σ β} {f : β → Routine C V E σ α} (hm : Calls P m)
    (hf : ∀ b, Calls P (f b)) : Calls P (m >>= f) := by
  intro l tr
  refine wp_bind.mpr (wp_mono (hm l tr) ?_ fun _ _ _ => id)
  intro b l' tr' _
  exact hf b l' tr'

variable {m : Routine C V E σ α}

lemma calls_attempt (hm : Calls P m) : Calls P (attempt m) := by
  intro l tr
  exact wp_attempt.mpr (hm l tr)

lemma calls_forM {xs : List β} {f : β → Routine C V E σ Unit} (hf : ∀ x ∈ xs, Calls P (f x)) :
    Calls P (xs.forM f) := by
  induction xs with
  | nil => exact calls_pure ()
  | cons x xs ih =>
    refine calls_bind (hf x List.mem_cons_self) ?_
    intro _
    exact ih fun y hy => hf y (List.mem_cons_of_mem _ hy)

lemma calls_ite {c : Prop} [Decidable c] {m m' : Routine C V E σ α} (hm : c → Calls P m)
    (hm' : ¬ c → Calls P m') : Calls P (if c then m else m') := by
  by_cases h : c
  · rw [if_pos h]
    exact hm h
  · rw [if_neg h]
    exact hm' h

lemma Calls.mono (h : Calls P m) (himp : ∀ c, P c → P' c) : Calls P' m := by
  intro l tr
  have hgeneral : ∀ {γ : Type} (p : Program C (Raising E V) γ) (Q : γ → Trace C (Raising E V) → Prop) tr,
      p.wp (fun _ c => P c) Q tr → p.wp (fun _ c => P' c) Q tr := by
    intro γ p Q
    induction p with
    | ret a => exact fun _ => id
    | call c k ih => exact fun tr hp => ⟨himp c hp.1, fun r => ih r _ (hp.2 r)⟩
  exact hgeneral _ _ _ (h l tr)

lemma Calls.wp {lawful : Trace C (Raising E V) → C → Prop}
    {I : Trace C (Raising E V) → Prop} (h : Calls P m) (hlawful : ∀ tr c, I tr → P c → lawful tr c)
    (hkeep : ∀ tr c r, I tr → P c → I (⟨c, r⟩ :: tr)) {l : σ} {tr : Trace C (Raising E V)} (hI : I tr) :
    Routine.wp lawful m (fun _ _ => I) (fun _ _ => I) l tr := by
  have hgeneral : ∀ {γ : Type} (p : Program C (Raising E V) γ) (Q : γ → Trace C (Raising E V) → Prop) tr,
      p.wp (fun _ c => P c) Q tr → I tr → p.wp lawful (fun _ => I) tr := by
    intro γ p Q
    induction p with
    | ret a => exact fun _ _ hI => hI
    | call c k ih =>
      exact fun tr hp hI => ⟨hlawful tr c hI hp.1, fun r => ih r _ (hp.2 r) (hkeep tr c r hI hp.1)⟩
  refine Program.wp_mono (hgeneral _ _ _ (h l tr) hI) ?_
  rintro ⟨r, l'⟩ tr' hI'
  cases r with
  | ok a => exact hI'
  | error e => exact hI'

end Routine
end IncidentLens.Effects
