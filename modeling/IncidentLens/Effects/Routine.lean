import IncidentLens.Effects.Program

/-!
# Routines: local variables and exceptions

A routine is a program with local variables `σ` whose calls may raise an `E`. Its rules
reduce the judgement of a routine to those of its parts; a loop is judged by an invariant
over the elements already visited.
-/
namespace IncidentLens.Effects

open Program

/-- A call `c` returns a `V c` or raises. -/
abbrev Raising (E : Type) {C : Type} (V : C → Type) (c : C) : Type := Except E (V c)

def Routine (C : Type) (V : C → Type) (E σ α : Type) : Type := σ → Program C (Raising E V) (Except E α × σ)

namespace Routine
variable {C E σ α β : Type} {V : C → Type}

instance : Monad (Routine C V E σ) where
  pure a := fun l => .ret (.ok a, l)
  bind m f := fun l => (m l).bind fun
    | (.ok a, l') => f a l'
    | (.error e, l') => .ret (.error e, l')

def throw (e : E) : Routine C V E σ α := fun l => .ret (.error e, l)

def get : Routine C V E σ σ := fun l => .ret (.ok l, l)

def modify (f : σ → σ) : Routine C V E σ Unit := fun l => .ret (.ok (), f l)

def invoke (c : C) : Routine C V E σ (V c) := fun l => .call c fun r => .ret (r, l)

def ofExcept (x : Except E α) : Routine C V E σ α := fun l => .ret (x, l)

/-- `try`: the exception becomes a value; the local variables keep what was assigned. -/
def attempt (m : Routine C V E σ α) : Routine C V E σ (Except E α) := fun l =>
  (m l).bind fun (r, l') => .ret (.ok r, l')

variable {lawful : Trace C (Raising E V) → C → Prop}

/-- `Q` after a normal return, `X` after an exception. -/
def wp (lawful : Trace C (Raising E V) → C → Prop) (m : Routine C V E σ α)
    (Q : α → σ → Trace C (Raising E V) → Prop) (X : E → σ → Trace C (Raising E V) → Prop) (l : σ)
    (tr : Trace C (Raising E V)) : Prop :=
  (m l).wp lawful (fun out tr' => match out with
    | (.ok a, l') => Q a l' tr'
    | (.error e, l') => X e l' tr') tr

section
variable {Q : α → σ → Trace C (Raising E V) → Prop} {X : E → σ → Trace C (Raising E V) → Prop}
  {l : σ} {tr : Trace C (Raising E V)}

@[simp] lemma wp_pure (a : α) : wp lawful (pure a : Routine C V E σ α) Q X l tr ↔ Q a l tr := Iff.rfl

@[simp] lemma wp_throw (e : E) : wp lawful (throw e : Routine C V E σ α) Q X l tr ↔ X e l tr := Iff.rfl

@[simp] lemma wp_get {Q : σ → σ → Trace C (Raising E V) → Prop} :
    wp lawful (get : Routine C V E σ σ) Q X l tr ↔ Q l l tr := Iff.rfl

@[simp] lemma wp_modify {Q : Unit → σ → Trace C (Raising E V) → Prop} (f : σ → σ) :
    wp lawful (modify f : Routine C V E σ Unit) Q X l tr ↔ Q () (f l) tr := Iff.rfl

lemma wp_ofExcept {x : Except E α} (hok : ∀ a, x = .ok a → Q a l tr)
    (herror : ∀ e, x = .error e → X e l tr) : wp lawful (ofExcept x) Q X l tr := by
  cases x with
  | ok a => exact hok a rfl
  | error e => exact herror e rfl

lemma wp_invoke {c : C} {Q : V c → σ → Trace C (Raising E V) → Prop} (hlawful : lawful tr c)
    (hok : ∀ v, Q v l (⟨c, .ok v⟩ :: tr)) (herror : ∀ e, X e l (⟨c, .error e⟩ :: tr)) :
    wp lawful (invoke c : Routine C V E σ (V c)) Q X l tr := by
  refine ⟨hlawful, ?_⟩
  intro r
  cases r with
  | ok v => exact hok v
  | error e => exact herror e

lemma wp_bind {m : Routine C V E σ β} {f : β → Routine C V E σ α} :
    wp lawful (m >>= f) Q X l tr ↔ wp lawful m (fun b l' tr' => wp lawful (f b) Q X l' tr') X l tr := by
  unfold wp
  refine Program.wp_bind.trans ?_
  have heq : ∀ out : Except E β × σ, ∀ tr',
      (Program.wp lawful (match out with
        | (.ok a, l') => f a l'
        | (.error e, l') => .ret (.error e, l')) (fun out tr' => match out with
          | (.ok a, l') => Q a l' tr'
          | (.error e, l') => X e l' tr') tr' ↔ match out with
        | (.ok a, l') => wp lawful (f a) Q X l' tr'
        | (.error e, l') => X e l' tr') := by
    rintro ⟨b | e, l'⟩ tr'
    · exact Iff.rfl
    · exact Iff.rfl
  constructor
  · intro h
    exact Program.wp_mono h fun out tr' => (heq out tr').mp
  · intro h
    exact Program.wp_mono h fun out tr' => (heq out tr').mpr

lemma wp_attempt {m : Routine C V E σ β} {Q : Except E β → σ → Trace C (Raising E V) → Prop} :
    wp lawful (attempt m) Q X l tr ↔ wp lawful m (fun b => Q (.ok b)) (fun e => Q (.error e)) l tr := by
  unfold wp attempt
  refine Program.wp_bind.trans ?_
  have heq : ∀ out : Except E β × σ, ∀ tr', (Q out.1 out.2 tr' ↔ match out with
      | (.ok b, l') => Q (.ok b) l' tr'
      | (.error e, l') => Q (.error e) l' tr') := by
    rintro ⟨b | e, l'⟩ tr'
    · exact Iff.rfl
    · exact Iff.rfl
  constructor
  · intro h
    exact wp_mono h fun out tr' => (heq out tr').mp
  · intro h
    exact wp_mono h fun out tr' => (heq out tr').mpr

lemma wp_mono {m : Routine C V E σ α} {Q' : α → σ → Trace C (Raising E V) → Prop}
    {X' : E → σ → Trace C (Raising E V) → Prop} (h : wp lawful m Q X l tr)
    (hQ : ∀ a l tr, Q a l tr → Q' a l tr) (hX : ∀ e l tr, X e l tr → X' e l tr) : wp lawful m Q' X' l tr := by
  refine Program.wp_mono h ?_
  rintro ⟨a | e, l'⟩ tr'
  · exact hX _ _ _
  · exact hQ _ _ _

lemma wp_forM {xs : List β} {f : β → Routine C V E σ Unit}
    {Q : Unit → σ → Trace C (Raising E V) → Prop}
    (I : List β → σ → Trace C (Raising E V) → Prop)
    (hstep : ∀ done x rest, xs = done ++ x :: rest → ∀ l tr, I done l tr →
      wp lawful (f x) (fun _ => I (done ++ [x])) X l tr)
    (hstart : I [] l tr) (hend : ∀ l tr, I xs l tr → Q () l tr) : wp lawful (xs.forM f) Q X l tr := by
  have hgeneral : ∀ rest done, xs = done ++ rest → ∀ l tr, I done l tr →
      wp lawful (rest.forM f) Q X l tr := by
    intro rest
    induction rest with
    | nil =>
      intro done hxs l tr hI
      rw [List.append_nil] at hxs
      subst hxs
      exact hend l tr hI
    | cons x rest ih =>
      intro done hxs l tr hI
      refine wp_bind.mpr (wp_mono (hstep done x rest hxs l tr hI) ?_ fun _ _ _ => id)
      intro _ l' tr' hI'
      exact ih (done ++ [x]) (by rw [hxs, List.append_assoc, List.singleton_append]) l' tr' hI'
  exact hgeneral xs [] rfl l tr hstart

lemma run_execution {W : Type} {respond : Trace C (Raising E V) → (c : C) → W → Raising E V c × W}
    {m : Routine C V E σ α} {tr₀ : Trace C (Raising E V)} {w₀ w : W} (h : wp lawful m Q X l tr)
    (hex : Execution lawful respond tr₀ w₀ tr w) :
    Execution lawful respond tr₀ w₀ ((m l).run respond tr w).2.1 ((m l).run respond tr w).2.2 ∧
      (∀ a, ((m l).run respond tr w).1.1 = .ok a → Q a ((m l).run respond tr w).1.2 ((m l).run respond tr w).2.1) ∧
      ∀ e, ((m l).run respond tr w).1.1 = .error e →
        X e ((m l).run respond tr w).1.2 ((m l).run respond tr w).2.1 := by
  obtain ⟨hex', hout⟩ := Program.run_execution h hex
  generalize (m l).run respond tr w = out at hex' hout
  obtain ⟨⟨r, l'⟩, tr', w'⟩ := out
  cases r with
  | ok a =>
    refine ⟨hex', ?_, ?_⟩
    · rintro _ ⟨⟩
      exact hout
    · rintro e ⟨⟩
  | error e =>
    refine ⟨hex', ?_, ?_⟩
    · rintro a ⟨⟩
    · rintro _ ⟨⟩
      exact hout

end

section Run
variable {W : Type} {respond : Trace C (Raising E V) → (c : C) → W → Raising E V c × W}
  {m : Routine C V E σ β} {f : β → Routine C V E σ α} {l : σ} {tr : Trace C (Raising E V)} {w : W}

lemma run_bind_ok {b : β} (h : ((m l).run respond tr w).1.1 = .ok b) :
    ((m >>= f) l).run respond tr w = (f b ((m l).run respond tr w).1.2).run respond
      ((m l).run respond tr w).2.1 ((m l).run respond tr w).2.2 := by
  refine (run_bind _ _ _ _ _).trans ?_
  generalize (m l).run respond tr w = out at h
  obtain ⟨⟨r, l'⟩, tr', w'⟩ := out
  subst h
  rfl

lemma run_bind_error {e : E} (h : ((m l).run respond tr w).1.1 = .error e) :
    ((m >>= f) l).run respond tr w = ((.error e, ((m l).run respond tr w).1.2),
      ((m l).run respond tr w).2.1, ((m l).run respond tr w).2.2) := by
  refine (run_bind _ _ _ _ _).trans ?_
  generalize (m l).run respond tr w = out at h
  obtain ⟨⟨r, l'⟩, tr', w'⟩ := out
  subst h
  rfl

lemma run_attempt : ((attempt m) l).run respond tr w = ((.ok ((m l).run respond tr w).1.1,
    ((m l).run respond tr w).1.2), ((m l).run respond tr w).2.1, ((m l).run respond tr w).2.2) :=
  run_bind _ _ _ _ _

end Run
end Routine
end IncidentLens.Effects
