import Mathlib.Algebra.Order.Ring.Nat

/-!
# Searching for the last index that fits

`lastFit` halves an interval between an index that fits and one that may not; a probe may fail.
Indices that fit and indices that can be probed form initial segments.
-/
namespace IncidentLens.Data

def lastFit (probe : ℕ → Option Bool) (low high : ℕ) : Option ℕ :=
  if low < high then
    match probe ((low + high + 1) / 2) with
    | none => none
    | some true => lastFit probe ((low + high + 1) / 2) high
    | some false => lastFit probe low ((low + high + 1) / 2 - 1)
  else some low
termination_by high - low

/-- What fits or can be probed at an index fits and can be probed below. -/
structure Descending (probe : ℕ → Option Bool) : Prop where
  fits {m n : ℕ} : m ≤ n → probe n = some true → probe m = some true
  probed {m n : ℕ} : m ≤ n → probe m = none → probe n = none

section
variable {probe : ℕ → Option Bool} {low high r : ℕ}

lemma lastFit_step (h : low < high) : lastFit probe low high = (probe ((low + high + 1) / 2)).bind fun fit =>
      if fit then lastFit probe ((low + high + 1) / 2) high else lastFit probe low ((low + high + 1) / 2 - 1) := by
  rw [lastFit, if_pos h]
  split <;> simp_all

lemma lastFit_spec (hdesc : Descending probe) (hle : low ≤ high) (h : lastFit probe low high = some r) :
    low ≤ r ∧ r ≤ high ∧ (r = low ∨ probe r = some true) ∧ ∀ m ≤ high, probe m = some true → m ≤ r := by
  induction low, high using lastFit.induct probe with
  | case1 low high hlt hprobe => simp [lastFit_step hlt, hprobe] at h
  | case2 low high hlt hprobe ih =>
    obtain ⟨hlow, hhigh, hr, hmax⟩ := ih (by omega) (by simpa [lastFit_step hlt, hprobe] using h)
    refine ⟨by omega, hhigh, .inr ?_, hmax⟩
    rcases hr with rfl | hr
    · exact hprobe
    · exact hr
  | case3 low high hlt hprobe ih =>
    obtain ⟨hlow, hhigh, hr, hmax⟩ := ih (by omega) (by simpa [lastFit_step hlt, hprobe] using h)
    refine ⟨hlow, by omega, hr, fun m _ hm => ?_⟩
    by_cases hbelow : m ≤ (low + high + 1) / 2 - 1
    · exact hmax m hbelow hm
    · -- what fits at `m` fits at the middle
      have hmiddle := hdesc.fits (by omega : (low + high + 1) / 2 ≤ m) hm
      simp [hprobe] at hmiddle
  | case4 low high hlt =>
    rw [lastFit, if_neg hlt] at h
    cases h
    exact ⟨le_rfl, hle, .inl rfl, fun m hm _ => by omega⟩

lemma lastFit_eq_none (hdesc : Descending probe) (hle : low ≤ high) : lastFit probe low high = none ↔
    ∃ k, 0 < (high - low) / 2 ^ k ∧ (∀ j < k, probe (high - (high - low) / 2 ^ (j + 1)) = some true) ∧
      probe (high - (high - low) / 2 ^ (k + 1)) = none := by
  have hhalf (low high j : ℕ) (h : low < high) :
      (high - (low + high + 1) / 2) / 2 ^ j = (high - low) / 2 ^ (j + 1) := by
    rw [pow_succ', ← Nat.div_div_eq_div_mul]
    congr 1
    omega
  have hfirst (low high : ℕ) (h : low < high) : high - (high - low) / 2 ^ (0 + 1) = (low + high + 1) / 2 := by
    simp only [zero_add, pow_one]
    omega
  induction low, high using lastFit.induct probe with
  | case1 low high hlt hprobe =>
    refine iff_of_true (by simp [lastFit_step hlt, hprobe]) ⟨0, by simpa using Nat.sub_pos_of_lt hlt, by simp, ?_⟩
    rwa [hfirst low high hlt]
  | case2 low high hlt hprobe ih =>
    have hrun : lastFit probe low high = lastFit probe ((low + high + 1) / 2) high := by
      simp [lastFit_step hlt, hprobe]
    rw [hrun]
    refine (ih (by omega)).trans ?_
    simp only [hhalf low high _ hlt]
    constructor
    · rintro ⟨k, hk, hfit, hnone⟩
      refine ⟨k + 1, hk, fun j hj => ?_, hnone⟩
      cases j with
      | zero => rw [hfirst low high hlt, hprobe]
      | succ j => exact hfit j (by omega)
    · rintro ⟨k, hk, hfit, hnone⟩
      cases k with
      | zero =>
        rw [hfirst low high hlt, hprobe] at hnone
        cases hnone
      | succ k => exact ⟨k, hk, fun j hj => hfit (j + 1) (by omega), hnone⟩
  | case3 low high hlt hprobe ih =>
    have hrun : lastFit probe low high = lastFit probe low ((low + high + 1) / 2 - 1) := by
      simp [lastFit_step hlt, hprobe]
    rw [hrun]
    refine (ih (by omega)).trans (iff_of_false ?_ ?_)
    · rintro ⟨k, _, _, hnone⟩
      -- below the middle everything can be probed
      have hmiddle := hdesc.probed ((Nat.sub_le _ _).trans (Nat.sub_le _ _)) hnone
      simp [hprobe] at hmiddle
    · rintro ⟨k, _, hfit, hnone⟩
      cases k with
      | zero =>
        rw [hfirst low high hlt, hprobe] at hnone
        cases hnone
      | succ k =>
        have hmiddle := hfit 0 (by omega)
        rw [hfirst low high hlt, hprobe] at hmiddle
        cases hmiddle
  | case4 low high hlt =>
    have hzero : high - low = 0 := by omega
    refine iff_of_false (by rw [lastFit, if_neg hlt]; simp) ?_
    rintro ⟨k, hk, _⟩
    simp [hzero] at hk

end

end IncidentLens.Data
