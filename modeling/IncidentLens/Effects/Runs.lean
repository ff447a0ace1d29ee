import Mathlib.Init

/-!
# Runs of a transition system

A system takes labelled steps and may refuse a label. Runs can be restricted to steps that
meet a condition on the state and the label; an invariant of these steps holds in every
state such a run reaches.
-/
namespace IncidentLens.Effects

/-- A transition system with labels of type `ε`; `step s e = none` refuses the label. -/
structure System (σ ε : Type*) where
  init : σ
  step : σ → ε → Option σ

namespace System
variable {σ ε : Type*} (S : System σ ε)

def runFrom (s : σ) : List ε → Option σ
  | [] => some s
  | e :: es => (S.step s e).bind fun t => runFrom t es

/-- States reached by steps that all meet `good`. -/
inductive Reached (good : σ → ε → Prop) : σ → Prop
  | start : Reached good S.init
  | next {s t : σ} (e : ε) : Reached good s → good s e → S.step s e = some t → Reached good t

variable {S}

lemma Reached.invariant {good : σ → ε → Prop} {inv : σ → Prop} (hinit : inv S.init)
    (hstep : ∀ s e t, inv s → good s e → S.step s e = some t → inv t) {s : σ} (h : S.Reached good s) : inv s := by
  induction h with
  | start => exact hinit
  | next e _ hgood hs ih => exact hstep _ e _ ih hgood hs

lemma Reached.mono {good good' : σ → ε → Prop} (himp : ∀ s e, good s e → good' s e) {s : σ}
    (h : S.Reached good s) : S.Reached good' s := by
  induction h with
  | start => exact .start
  | next e _ hgood hs ih => exact .next e ih (himp _ _ hgood) hs

lemma Reached.runFrom {good : σ → ε → Prop} {s t : σ} (h : S.Reached good s) (es : List ε)
    (hgood : ∀ s, ∀ e ∈ es, good s e) (hrun : S.runFrom s es = some t) : S.Reached good t := by
  induction es generalizing s with
  | nil =>
    cases hrun
    exact h
  | cons e es ih =>
    obtain ⟨u, hu, hrest⟩ := Option.bind_eq_some_iff.mp hrun
    exact ih (.next e h (hgood s e List.mem_cons_self) hu)
      (fun s e' he' => hgood s e' (List.mem_cons_of_mem _ he')) hrest

end System
end IncidentLens.Effects
