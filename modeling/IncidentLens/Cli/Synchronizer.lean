import Mathlib.Data.List.Basic
import Mathlib.Tactic.Common

/-!
# The session synchronizer of the CLI

It keeps, for one session, the sequence up to which the events of a stream are counted.
-/
namespace IncidentLens.Cli

structure StreamCursor (α : Type) where
  sessionId : String
  sequence : α

structure SessionSynchronizer (α : Type) where
  cursor : StreamCursor α
  /-- A gap snapshot is in flight. -/
  paused : Bool := false

namespace SessionSynchronizer
variable {α : Type} (passed : ℕ → α → Bool) (number : ℕ → α)

/-- `onEvent`: an event that is dispatched moves the cursor; `none`, if it is not dispatched. -/
def onEvent (s : SessionSynchronizer α) (sequence : Option ℕ) : Option (SessionSynchronizer α) :=
  if s.paused then none
  else match sequence with
  | none => none
  | some n => if passed n s.cursor.sequence then none else some { s with cursor := ⟨s.cursor.sessionId, number n⟩ }

variable {passed number} {s t : SessionSynchronizer α} {sequence : Option ℕ}

lemma onEvent_eq_some (h : s.onEvent passed number sequence = some t) :
    s.paused = false ∧ ∃ n, sequence = some n ∧ passed n s.cursor.sequence = false ∧
      t = { s with cursor := ⟨s.cursor.sessionId, number n⟩ } := by
  unfold onEvent at h
  split_ifs at h with hpaused
  cases hsequence : sequence with
  | none => simp [hsequence] at h
  | some n =>
    simp only [hsequence] at h
    split_ifs at h with hpassed
    cases h
    exact ⟨by simpa using hpaused, n, rfl, by simpa using hpassed, rfl⟩

end SessionSynchronizer
end IncidentLens.Cli
