import IncidentLens.Effects.Routine

/-!
# Two routines side by side

Two routines in one environment are compared by running each from its own configuration: both
return or both raise, and what they return and where they end is related. The rules reduce the
comparison of two routines to that of their parts.
-/
namespace IncidentLens.Effects
namespace Routine

/-- The local variables, the calls made so far and the state of the environment. -/
structure Config (C : Type) (V : C → Type) (E σ W : Type) where
  locals : σ
  history : Trace C (Raising E V)
  world : W

variable {C E σ W α β γ δ : Type} {V : C → Type}

section Exec
variable (respond : Trace C (Raising E V) → (c : C) → W → Raising E V c × W)

def exec (m : Routine C V E σ α) (s : Config C V E σ W) : Except E α × Config C V E σ W :=
  let out := (m s.locals).run respond s.history s.world
  (out.1.1, ⟨out.1.2, out.2.1, out.2.2⟩)

lemma exec_bind (m : Routine C V E σ α) (f : α → Routine C V E σ β) (s : Config C V E σ W) :
    exec respond (m >>= f) s = match exec respond m s with
      | (.ok a, t) => exec respond (f a) t
      | (.error e, t) => (.error e, t) := by
  cases hr : (exec respond m s).1 with
  | ok a =>
    have hrun := @run_bind_ok _ _ _ _ _ _ _ respond m f s.locals s.history s.world a hr
    have hexec : exec respond m s = (.ok a, (exec respond m s).2) := Prod.ext hr rfl
    rw [hexec]
    simp only [exec, hrun]
  | error e =>
    have hrun := @run_bind_error _ _ _ _ _ _ _ respond m f s.locals s.history s.world e hr
    have hexec : exec respond m s = (.error e, (exec respond m s).2) := Prod.ext hr rfl
    rw [hexec]
    simp only [exec, hrun]

lemma exec_attempt (m : Routine C V E σ α) (s : Config C V E σ W) :
    exec respond (attempt m) s = (.ok (exec respond m s).1, (exec respond m s).2) := by
  simp only [exec, run_attempt]

/-- `Q` when both return, `X` when both raise; one never returns when the other raises. -/
@[irreducible] def Paired (m : Routine C V E σ α) (n : Routine C V E σ β)
    (Q : α → β → Config C V E σ W → Config C V E σ W → Prop)
    (X : E → E → Config C V E σ W → Config C V E σ W → Prop) (s t : Config C V E σ W) : Prop :=
  match exec respond m s, exec respond n t with
  | (.ok a, s'), (.ok b, t') => Q a b s' t'
  | (.error e, s'), (.error e', t') => X e e' s' t'
  | _, _ => False

end Exec

section Rules
variable {respond : Trace C (Raising E V) → (c : C) → W → Raising E V c × W} {m : Routine C V E σ α}
  {n : Routine C V E σ β} {Q Q' : α → β → Config C V E σ W → Config C V E σ W → Prop}
  {X X' : E → E → Config C V E σ W → Config C V E σ W → Prop} {s t : Config C V E σ W}

lemma paired_pure {a : α} {b : β} (h : Q a b s t) : Paired respond (pure a) (pure b) Q X s t := by
  unfold Paired
  exact h

lemma paired_throw {e e' : E} (h : X e e' s t) : Paired respond (throw e) (throw e') Q X s t := by
  unfold Paired
  exact h

lemma paired_get {Q : σ → σ → Config C V E σ W → Config C V E σ W → Prop} (h : Q s.locals t.locals s t) :
    Paired respond get get Q X s t := by
  unfold Paired
  exact h

lemma paired_modify {Q : Unit → Unit → Config C V E σ W → Config C V E σ W → Prop} {f g : σ → σ}
    (h : Q () () { s with locals := f s.locals } { t with locals := g t.locals }) :
    Paired respond (modify f) (modify g) Q X s t := by
  unfold Paired
  exact h

lemma paired_ofExcept {x : Except E α} {y : Except E β} (h : match x, y with
      | .ok a, .ok b => Q a b s t
      | .error e, .error e' => X e e' s t
      | _, _ => False) : Paired respond (ofExcept x) (ofExcept y) Q X s t := by
  unfold Paired
  cases x <;> cases y <;> exact h

lemma paired_ofExcept_self {x : Except E γ} {Q : γ → γ → Config C V E σ W → Config C V E σ W → Prop}
    (hok : ∀ a, x = .ok a → Q a a s t) (herror : ∀ e, x = .error e → X e e s t) :
    Paired respond (ofExcept x) (ofExcept x) Q X s t := by
  unfold Paired
  cases x with
  | ok a => exact hok a rfl
  | error e => exact herror e rfl

lemma paired_mono (h : Paired respond m n Q X s t) (hQ : ∀ a b s t, Q a b s t → Q' a b s t)
    (hX : ∀ e e' s t, X e e' s t → X' e e' s t) : Paired respond m n Q' X' s t := by
  unfold Paired at h ⊢
  generalize exec respond m s = out at h
  generalize exec respond n t = out' at h
  obtain ⟨r, s'⟩ := out
  obtain ⟨r', t'⟩ := out'
  cases r with
  | ok a =>
    cases r' with
    | ok b => exact hQ a b s' t' h
    | error e => exact h
  | error e =>
    cases r' with
    | ok b => exact h
    | error e' => exact hX e e' s' t' h

variable {Q : γ → δ → Config C V E σ W → Config C V E σ W → Prop}

lemma paired_bind {f : α → Routine C V E σ γ} {g : β → Routine C V E σ δ}
    (h : Paired respond m n (fun a b => Paired respond (f a) (g b) Q X) X s t) :
    Paired respond (m >>= f) (n >>= g) Q X s t := by
  unfold Paired at h ⊢
  rw [exec_bind, exec_bind]
  generalize exec respond m s = out at h
  generalize exec respond n t = out' at h
  obtain ⟨r, s'⟩ := out
  obtain ⟨r', t'⟩ := out'
  cases r with
  | ok a =>
    cases r' with
    | ok b => exact h
    | error e => exact h.elim
  | error e =>
    cases r' with
    | ok b => exact h.elim
    | error e' => exact h

lemma paired_left {f : α → Routine C V E σ γ} {n : Routine C V E σ δ} {a : α} {s' : Config C V E σ W}
    (hm : exec respond m s = (.ok a, s')) (h : Paired respond (f a) n Q X s' t) :
    Paired respond (m >>= f) n Q X s t := by
  unfold Paired at h ⊢
  rw [exec_bind, hm]
  exact h

lemma paired_right {m : Routine C V E σ γ} {g : β → Routine C V E σ δ} {b : β} {t' : Config C V E σ W}
    (hn : exec respond n t = (.ok b, t')) (h : Paired respond m (g b) Q X s t') :
    Paired respond m (n >>= g) Q X s t := by
  unfold Paired at h ⊢
  rw [exec_bind, hn]
  exact h

lemma paired_attempt {Q : Except E α → Except E β → Config C V E σ W → Config C V E σ W → Prop}
    (h : Paired respond m n (fun a b => Q (.ok a) (.ok b)) (fun e e' => Q (.error e) (.error e')) s t) :
    Paired respond (attempt m) (attempt n) Q X s t := by
  unfold Paired at h ⊢
  rw [exec_attempt, exec_attempt]
  generalize exec respond m s = out at h
  generalize exec respond n t = out' at h
  obtain ⟨r, s'⟩ := out
  obtain ⟨r', t'⟩ := out'
  cases r with
  | ok a =>
    cases r' with
    | ok b => exact h
    | error e => exact h.elim
  | error e =>
    cases r' with
    | ok b => exact h.elim
    | error e' => exact h

/-- Two loops over related elements: `I done` before each round, where `done` are the elements of
the first that were visited. -/
theorem paired_forM {R : γ → δ → Prop} {f : γ → Routine C V E σ Unit} {g : δ → Routine C V E σ Unit}
    {Q : Unit → Unit → Config C V E σ W → Config C V E σ W → Prop} {xs : List γ} {ys : List δ}
    (hall : List.Forall₂ R xs ys) (I : List γ → Config C V E σ W → Config C V E σ W → Prop)
    (hstep : ∀ done x rest y, xs = done ++ x :: rest → R x y → ∀ s t, I done s t →
      Paired respond (f x) (g y) (fun _ _ => I (done ++ [x])) X s t)
    (hstart : I [] s t) (hend : ∀ s t, I xs s t → Q () () s t) :
    Paired respond (xs.forM f) (ys.forM g) Q X s t := by
  have hgeneral : ∀ rest rest', List.Forall₂ R rest rest' → ∀ done, xs = done ++ rest → ∀ s t, I done s t →
      Paired respond (rest.forM f) (rest'.forM g) Q X s t := by
    intro rest rest' hrest
    induction hrest with
    | nil =>
      intro done hxs s t hI
      rw [List.append_nil] at hxs
      subst hxs
      exact paired_pure (hend s t hI)
    | @cons x y rest rest' hxy _ ih =>
      intro done hxs s t hI
      refine paired_bind (paired_mono (hstep done x rest y hxs hxy s t hI) ?_ fun _ _ _ _ => id)
      intro _ _ s' t' hI'
      exact ih (done ++ [x]) (by rw [hxs, List.append_assoc, List.singleton_append]) s' t' hI'
  exact hgeneral xs ys hall [] rfl s t hstart

end Rules
end Routine
end IncidentLens.Effects
