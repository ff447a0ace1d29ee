import IncidentLens.Effects.Calls

/-!
# The outcome of a routine in its environment

Where the environment's state matters, a routine is judged by what its run in that environment
ends with; the rules follow those for arbitrary responses.
-/
namespace IncidentLens.Effects
namespace Routine
variable {C E σ α β W : Type} {V : C → Type}

section
variable (respond : Trace C (Raising E V) → (c : C) → W → Raising E V c × W)

/-- The run ends with `Q` after a normal return and with `X` after an exception. -/
def Ends (m : Routine C V E σ α) (Q : α → σ → Trace C (Raising E V) → W → Prop)
    (X : E → σ → Trace C (Raising E V) → W → Prop) (l : σ) (tr : Trace C (Raising E V)) (w : W) : Prop :=
  (∀ a, ((m l).run respond tr w).1.1 = .ok a →
    Q a ((m l).run respond tr w).1.2 ((m l).run respond tr w).2.1 ((m l).run respond tr w).2.2) ∧
  ∀ e, ((m l).run respond tr w).1.1 = .error e →
    X e ((m l).run respond tr w).1.2 ((m l).run respond tr w).2.1 ((m l).run respond tr w).2.2

end

variable {respond : Trace C (Raising E V) → (c : C) → W → Raising E V c × W}
  {Q : α → σ → Trace C (Raising E V) → W → Prop} {X : E → σ → Trace C (Raising E V) → W → Prop}
  {l : σ} {tr : Trace C (Raising E V)} {w : W}

lemma ends_pure {a : α} (h : Q a l tr w) : Ends respond (pure a : Routine C V E σ α) Q X l tr w := by
  refine ⟨?_, ?_⟩
  · rintro _ ⟨⟩
    exact h
  · rintro e ⟨⟩

lemma ends_throw {e : E} (h : X e l tr w) : Ends respond (throw e : Routine C V E σ α) Q X l tr w := by
  refine ⟨?_, ?_⟩
  · rintro a ⟨⟩
  · rintro _ ⟨⟩
    exact h

lemma ends_ofExcept {x : Except E α} (hok : ∀ a, x = .ok a → Q a l tr w)
    (herror : ∀ e, x = .error e → X e l tr w) : Ends respond (ofExcept x) Q X l tr w :=
  ⟨hok, herror⟩

lemma ends_get {Q : σ → σ → Trace C (Raising E V) → W → Prop} (h : Q l l tr w) :
    Ends respond (get : Routine C V E σ σ) Q X l tr w := by
  refine ⟨?_, ?_⟩
  · rintro _ ⟨⟩
    exact h
  · rintro e ⟨⟩

lemma ends_modify {f : σ → σ} {Q : Unit → σ → Trace C (Raising E V) → W → Prop} (h : Q () (f l) tr w) :
    Ends respond (modify f : Routine C V E σ Unit) Q X l tr w := by
  refine ⟨?_, ?_⟩
  · rintro _ ⟨⟩
    exact h
  · rintro e ⟨⟩

lemma ends_invoke {c : C} {Q : V c → σ → Trace C (Raising E V) → W → Prop}
    (hok : ∀ v, (respond tr c w).1 = .ok v → Q v l (⟨c, .ok v⟩ :: tr) (respond tr c w).2)
    (herror : ∀ e, (respond tr c w).1 = .error e → X e l (⟨c, .error e⟩ :: tr) (respond tr c w).2) :
    Ends respond (invoke c : Routine C V E σ (V c)) Q X l tr w := by
  refine ⟨?_, ?_⟩
  · intro v hv
    change (respond tr c w).1 = .ok v at hv
    have h := hok v hv
    rw [← hv] at h
    exact h
  · intro e he
    change (respond tr c w).1 = .error e at he
    have h := herror e he
    rw [← he] at h
    exact h

variable {m : Routine C V E σ α}

lemma ends_mono {Q' : α → σ → Trace C (Raising E V) → W → Prop}
    {X' : E → σ → Trace C (Raising E V) → W → Prop} (h : Ends respond m Q X l tr w)
    (hQ : ∀ a l tr w, Q a l tr w → Q' a l tr w) (hX : ∀ e l tr w, X e l tr w → X' e l tr w) :
    Ends respond m Q' X' l tr w :=
  ⟨fun a ha => hQ _ _ _ _ (h.1 a ha), fun e he => hX _ _ _ _ (h.2 e he)⟩

lemma ends_and {Q' : α → σ → Trace C (Raising E V) → W → Prop}
    {X' : E → σ → Trace C (Raising E V) → W → Prop} (h : Ends respond m Q X l tr w)
    (h' : Ends respond m Q' X' l tr w) :
    Ends respond m (fun a l tr w => Q a l tr w ∧ Q' a l tr w) (fun e l tr w => X e l tr w ∧ X' e l tr w) l tr w :=
  ⟨fun a ha => ⟨h.1 a ha, h'.1 a ha⟩, fun e he => ⟨h.2 e he, h'.2 e he⟩⟩

lemma ends_of_wp {lawful : Trace C (Raising E V) → C → Prop}
    {Q : α → σ → Trace C (Raising E V) → Prop} {X : E → σ → Trace C (Raising E V) → Prop}
    {tr₀ : Trace C (Raising E V)} {w₀ : W} (h : wp lawful m Q X l tr) (hex : Execution lawful respond tr₀ w₀ tr w) :
    Ends respond m (fun a l tr w => Execution lawful respond tr₀ w₀ tr w ∧ Q a l tr)
      (fun e l tr w => Execution lawful respond tr₀ w₀ tr w ∧ X e l tr) l tr w := by
  obtain ⟨hex', hok, herror⟩ := run_execution h hex
  exact ⟨fun a ha => ⟨hex', hok a ha⟩, fun e he => ⟨hex', herror e he⟩⟩

lemma ends_ite {c : Prop} [Decidable c] {m m' : Routine C V E σ α} (hm : c → Ends respond m Q X l tr w)
    (hm' : ¬ c → Ends respond m' Q X l tr w) : Ends respond (if c then m else m') Q X l tr w := by
  by_cases h : c
  · rw [if_pos h]
    exact hm h
  · rw [if_neg h]
    exact hm' h

lemma ends_bind {m : Routine C V E σ β} {f : β → Routine C V E σ α}
    (h : Ends respond m (fun b l' tr' w' => Ends respond (f b) Q X l' tr' w') X l tr w) :
    Ends respond (m >>= f) Q X l tr w := by
  unfold Ends at h ⊢
  cases hr : ((m l).run respond tr w).1.1 with
  | ok b =>
    rw [run_bind_ok hr]
    exact h.1 b hr
  | error e =>
    rw [run_bind_error hr]
    refine ⟨?_, ?_⟩
    · rintro a ⟨⟩
    · rintro _ ⟨⟩
      exact h.2 e hr

lemma ends_attempt {m : Routine C V E σ β} {Q : Except E β → σ → Trace C (Raising E V) → W → Prop}
    (h : Ends respond m (fun b => Q (.ok b)) (fun e => Q (.error e)) l tr w) :
    Ends respond (attempt m) Q X l tr w := by
  unfold Ends at h ⊢
  rw [run_attempt]
  refine ⟨?_, ?_⟩
  · rintro _ ⟨⟩
    cases hr : ((m l).run respond tr w).1.1 with
    | ok b => exact h.1 b hr
    | error e => exact h.2 e hr
  · rintro e ⟨⟩

lemma ends_forM {xs : List β} {f : β → Routine C V E σ Unit}
    {Q : Unit → σ → Trace C (Raising E V) → W → Prop}
    (I : List β → σ → Trace C (Raising E V) → W → Prop)
    (hstep : ∀ done x rest, xs = done ++ x :: rest → ∀ l tr w, I done l tr w →
      Ends respond (f x) (fun _ => I (done ++ [x])) X l tr w)
    (hstart : I [] l tr w) (hend : ∀ l tr w, I xs l tr w → Q () l tr w) :
    Ends respond (xs.forM f) Q X l tr w := by
  have hgeneral : ∀ rest done, xs = done ++ rest → ∀ l tr w, I done l tr w →
      Ends respond (rest.forM f) Q X l tr w := by
    intro rest
    induction rest with
    | nil =>
      intro done hxs l tr w hI
      rw [List.append_nil] at hxs
      subst hxs
      exact ends_pure (hend l tr w hI)
    | cons x rest ih =>
      intro done hxs l tr w hI
      refine ends_bind (ends_mono (hstep done x rest hxs l tr w hI) ?_ fun _ _ _ _ => id)
      intro _ l' tr' w' hI'
      exact ih (done ++ [x]) (by rw [hxs, List.append_assoc, List.singleton_append]) l' tr' w' hI'
  exact hgeneral xs [] rfl l tr w hstart

end Routine
end IncidentLens.Effects
