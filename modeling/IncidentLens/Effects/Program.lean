import Mathlib.Data.List.Basic

/-!
# Programs that call their environment

A program either returns or makes a call and continues with the response. What a program
may call can be judged from the history of its own calls and responses alone; such a
judgement holds in every environment, whatever the responses are.
-/
namespace IncidentLens.Effects

/-- A program over calls `C`, where a call `c` is answered by an `R c`. -/
inductive Program (C : Type) (R : C → Type) (α : Type) where
  | ret (a : α)
  | call (c : C) (k : R c → Program C R α)

structure Event (C : Type) (R : C → Type) where
  call : C
  response : R call

/-- The calls made so far, the last one first. -/
abbrev Trace (C : Type) (R : C → Type) := List (Event C R)

namespace Program
variable {C W α β : Type} {R : C → Type}

def bind : Program C R α → (α → Program C R β) → Program C R β
  | .ret a, f => f a
  | .call c k, f => .call c fun r => (k r).bind f

/-- An environment answers a call from its state, given the calls made before. -/
def run (respond : Trace C R → (c : C) → W → R c × W) : Program C R α → Trace C R → W → α × Trace C R × W
  | .ret a, tr, w => (a, tr, w)
  | .call c k, tr, w =>
    let answer := respond tr c w
    (k answer.1).run respond (⟨c, answer.1⟩ :: tr) answer.2

/-- The first `n` calls only, and the program that is left. -/
def runFor (respond : Trace C R → (c : C) → W → R c × W) :
    ℕ → Program C R α → Trace C R → W → Program C R α × Trace C R × W
  | 0, p, tr, w => (p, tr, w)
  | _ + 1, .ret a, tr, w => (.ret a, tr, w)
  | n + 1, .call c k, tr, w =>
    let answer := respond tr c w
    (k answer.1).runFor respond n (⟨c, answer.1⟩ :: tr) answer.2

lemma run_bind (respond : Trace C R → (c : C) → W → R c × W) (p : Program C R α)
    (f : α → Program C R β) (tr : Trace C R) (w : W) : (p.bind f).run respond tr w =
      (f (p.run respond tr w).1).run respond (p.run respond tr w).2.1 (p.run respond tr w).2.2 := by
  induction p generalizing tr w with
  | ret a => rfl
  | call c k ih =>
    simp only [bind, run]
    exact ih _ _ _

/-- Whatever the responses are, every call is lawful in view of the history, and the result
is as `Q` says. -/
def wp (lawful : Trace C R → C → Prop) : Program C R α → (α → Trace C R → Prop) → Trace C R → Prop
  | .ret a, Q, tr => Q a tr
  | .call c k, Q, tr => lawful tr c ∧ ∀ r, (k r).wp lawful Q (⟨c, r⟩ :: tr)

variable {lawful : Trace C R → C → Prop}

lemma wp_mono {p : Program C R α} {Q Q' : α → Trace C R → Prop} {tr : Trace C R}
    (h : p.wp lawful Q tr) (himp : ∀ a tr, Q a tr → Q' a tr) : p.wp lawful Q' tr := by
  induction p generalizing tr with
  | ret a => exact himp a tr h
  | call c k ih => exact ⟨h.1, fun r => ih r (h.2 r)⟩

lemma wp_bind {p : Program C R α} {f : α → Program C R β} {Q : β → Trace C R → Prop} {tr : Trace C R} :
    (p.bind f).wp lawful Q tr ↔ p.wp lawful (fun a tr' => (f a).wp lawful Q tr') tr := by
  induction p generalizing tr with
  | ret a => exact Iff.rfl
  | call c k ih =>
    simp only [bind, wp]
    constructor
    · rintro ⟨hc, hk⟩
      exact ⟨hc, fun r => (ih r).mp (hk r)⟩
    · rintro ⟨hc, hk⟩
      exact ⟨hc, fun r => (ih r).mpr (hk r)⟩

end Program

/-- Lawful calls answered by the environment, from a history and a state on. -/
inductive Execution {C W : Type} {R : C → Type} (lawful : Trace C R → C → Prop)
    (respond : Trace C R → (c : C) → W → R c × W) (tr₀ : Trace C R) (w₀ : W) :
    Trace C R → W → Prop
  | start : Execution lawful respond tr₀ w₀ tr₀ w₀
  | call {tr : Trace C R} {w : W} (c : C) : Execution lawful respond tr₀ w₀ tr w → lawful tr c →
      Execution lawful respond tr₀ w₀ (⟨c, (respond tr c w).1⟩ :: tr) (respond tr c w).2

lemma Execution.lawful_at {C W : Type} {R : C → Type} {lawful : Trace C R → C → Prop}
    {respond : Trace C R → (c : C) → W → R c × W} {tr tr' : Trace C R} {w₀ w : W} {e : Event C R}
    (h : Execution lawful respond [] w₀ tr w) (hsuffix : e :: tr' <:+ tr) : lawful tr' e.call := by
  induction h with
  | start => cases List.suffix_nil.mp hsuffix
  | @call tr w c _ hlawful ih =>
    rcases List.suffix_cons_iff.mp hsuffix with heq | hsuffix
    · obtain ⟨rfl, rfl⟩ := List.cons.inj heq
      exact hlawful
    · exact ih hsuffix

lemma Execution.lawful_of_mem {C W : Type} {R : C → Type} {lawful : Trace C R → C → Prop}
    {respond : Trace C R → (c : C) → W → R c × W} {tr : Trace C R} {w₀ w : W} {e : Event C R}
    (h : Execution lawful respond [] w₀ tr w) (he : e ∈ tr) : ∃ tr', tr' ⊆ tr ∧ lawful tr' e.call := by
  obtain ⟨es, tr', rfl⟩ := List.append_of_mem he
  exact ⟨tr', List.Subset.trans (List.subset_cons_self _ _) (List.subset_append_right _ _),
    h.lawful_at (List.suffix_append _ _)⟩

namespace Program
variable {C W α : Type} {R : C → Type} {lawful : Trace C R → C → Prop}
  {respond : Trace C R → (c : C) → W → R c × W} {tr₀ tr : Trace C R} {w₀ w : W}

lemma run_execution {p : Program C R α} {Q : α → Trace C R → Prop} (h : p.wp lawful Q tr)
    (hex : Execution lawful respond tr₀ w₀ tr w) :
    Execution lawful respond tr₀ w₀ (p.run respond tr w).2.1 (p.run respond tr w).2.2 ∧
      Q (p.run respond tr w).1 (p.run respond tr w).2.1 := by
  induction p generalizing tr w with
  | ret a => exact ⟨hex, h⟩
  | call c k ih => exact ih _ (h.2 _) (hex.call c h.1)

lemma runFor_execution {p : Program C R α} {Q : α → Trace C R → Prop} (n : ℕ)
    (h : p.wp lawful Q tr) (hex : Execution lawful respond tr₀ w₀ tr w) :
    Execution lawful respond tr₀ w₀ (p.runFor respond n tr w).2.1 (p.runFor respond n tr w).2.2 ∧
      (p.runFor respond n tr w).1.wp lawful Q (p.runFor respond n tr w).2.1 := by
  induction n generalizing p tr w with
  | zero => exact ⟨hex, h⟩
  | succ n ih =>
    cases p with
    | ret a => exact ⟨hex, h⟩
    | call c k => exact ih (h.2 _) (hex.call c h.1)

end Program
end IncidentLens.Effects
