import Mathlib.Init

/-!
# Synchronous code over a shared store

Code that reads and writes a store and may raise, keeping what it wrote before it raised.
`wp m Q s` says that `m`, run from `s`, ends with a result and a store that satisfy `Q`.
-/
namespace IncidentLens.Effects

/-- Computations on a store `σ` that return `α` or raise `ε`. -/
abbrev StateError (ε σ α : Type) := ExceptT ε (StateM σ) α

namespace StateError
variable {ε σ α β : Type}

/-- Run from a store: the result or the exception, and the store left behind. -/
def exec (m : StateError ε σ α) (s : σ) : Except ε α × σ := (ExceptT.run m).run s

/-- The result and the store after `m` satisfy `Q`. -/
def wp (m : StateError ε σ α) (Q : Except ε α → σ → Prop) (s : σ) : Prop := Q (m.exec s).1 (m.exec s).2

@[simp] lemma wp_pure (a : α) (Q : Except ε α → σ → Prop) (s : σ) : wp (pure a) Q s ↔ Q (.ok a) s := Iff.rfl

@[simp] lemma wp_throw (e : ε) (Q : Except ε α → σ → Prop) (s : σ) : wp (throw e) Q s ↔ Q (.error e) s := Iff.rfl

@[simp] lemma wp_get (Q : Except ε σ → σ → Prop) (s : σ) : wp get Q s ↔ Q (.ok s) s := Iff.rfl

@[simp] lemma wp_modify (f : σ → σ) (Q : Except ε PUnit → σ → Prop) (s : σ) :
    wp (modify f) Q s ↔ Q (.ok ⟨⟩) (f s) := Iff.rfl

lemma exec_bind (m : StateError ε σ α) (f : α → StateError ε σ β) (s : σ) :
    (m >>= f).exec s = match m.exec s with
      | (.ok a, t) => (f a).exec t
      | (.error e, t) => (.error e, t) := by
  simp only [exec, ExceptT.run_bind, StateT.run_bind]
  rcases (ExceptT.run m).run s with ⟨a | e, t⟩ <;> rfl

@[simp] lemma wp_bind (m : StateError ε σ α) (f : α → StateError ε σ β)
    (Q : Except ε β → σ → Prop) (s : σ) :
    wp (m >>= f) Q s ↔ wp m (fun r t => match r with
      | .ok a => wp (f a) Q t
      | .error e => Q (.error e) t) s := by
  unfold wp
  rw [exec_bind]
  rcases m.exec s with ⟨a | e, t⟩ <;> rfl

@[simp] lemma wp_map (f : α → β) (m : StateError ε σ α) (Q : Except ε β → σ → Prop) (s : σ) :
    wp (f <$> m) Q s ↔ wp m (fun r t => match r with
      | .ok a => Q (.ok (f a)) t
      | .error e => Q (.error e) t) s := by
  rw [map_eq_pure_bind, wp_bind]
  unfold wp
  rcases m.exec s with ⟨a | e, t⟩ <;> rfl

lemma exec_tryCatch (m : StateError ε σ α) (f : ε → StateError ε σ α) (s : σ) :
    (tryCatch m f).exec s = match m.exec s with
      | (.ok a, t) => (.ok a, t)
      | (.error e, t) => (f e).exec t := by
  have hrun : (tryCatch m f).exec s = (ExceptT.tryCatch m f).run.run s := rfl
  have hm : StateT.run m s = m.exec s := rfl
  rw [hrun, ExceptT.tryCatch, ExceptT.run_mk, StateT.run_bind, hm]
  rcases m.exec s with ⟨a | e, t⟩ <;> rfl

@[simp] lemma wp_tryCatch (m : StateError ε σ α) (f : ε → StateError ε σ α)
    (Q : Except ε α → σ → Prop) (s : σ) :
    wp (tryCatch m f) Q s ↔ wp m (fun r t => match r with
      | .ok a => Q (.ok a) t
      | .error e => wp (f e) Q t) s := by
  unfold wp
  rw [exec_tryCatch]
  rcases m.exec s with ⟨a | e, t⟩ <;> rfl

lemma wp_mono {m : StateError ε σ α} {Q Q' : Except ε α → σ → Prop} {s : σ}
    (h : wp m Q s) (hQ : ∀ r t, Q r t → Q' r t) : wp m Q' s := hQ _ _ h

lemma of_raised {V : α → Prop} {e : ε} (a : α) (h : Except.error e = .ok a) : V a := by cases h

lemma wp_and {m : StateError ε σ α} {Q Q' : Except ε α → σ → Prop} {s : σ}
    (h : wp m Q s) (h' : wp m Q' s) : wp m (fun r t => Q r t ∧ Q' r t) s := ⟨h, h'⟩

def atomic (m : StateError ε σ α) : StateError ε σ α := do
  let s ← get
  tryCatch m fun e => do
    set s
    throw e

@[simp] lemma wp_atomic (m : StateError ε σ α) (Q : Except ε α → σ → Prop) (s : σ) :
    wp (atomic m) Q s ↔ wp m (fun r t => match r with
      | .ok a => Q (.ok a) t
      | .error e => Q (.error e) s) s := by
  rw [atomic, wp_bind, wp_get]
  dsimp only
  rw [wp_tryCatch]
  unfold wp
  rcases m.exec s with ⟨a | e, t⟩ <;> rfl

/-- `m` moves the store along `R`, whether it returns or raises. -/
def Along (R : σ → σ → Prop) (m : StateError ε σ α) : Prop := ∀ s, wp m (fun _ t => R s t) s

section Along
variable {R : σ → σ → Prop}

lemma Along.bind (htrans : ∀ a b c, R a b → R b c → R a c) {m : StateError ε σ α}
    {f : α → StateError ε σ β} (hm : Along R m) (hf : ∀ a, Along R (f a)) : Along R (m >>= f) := by
  intro s
  rw [wp_bind]
  refine wp_mono (hm s) fun r t hr => ?_
  cases r with
  | ok a => exact wp_mono (hf a t) fun _ _ h => htrans _ _ _ hr h
  | error e => exact hr

end Along
end StateError
end IncidentLens.Effects
