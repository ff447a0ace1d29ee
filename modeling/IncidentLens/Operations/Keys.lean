import IncidentLens.Operations.Dispatcher

/-!
# Serialization keys

A process keeps the sessions of what is in flight, and the targets of the rollbacks. A key that stayed behind would
block its operations until the process ends.
-/
namespace IncidentLens.Operations
open Effects Function List

/-- The key of a dangerous operation. -/
def Operation.dangerousTarget (op : Operation) : Option String := if op.kind = .rollback then some op.targetId else none

/-- Every key is that of an operation in flight. -/
def Owned {n : ℕ} (key : Operation → Option String) (keys : List String) (workers : Fin n → Worker) : Prop :=
  ∀ k ∈ keys, ∃ i a, (workers i).operation = some a ∧ key a = some k

structure Process.Tidy {n : ℕ} (p : Process n) : Prop where
  sessions : Owned Operation.sessionId p.activeSessions p.workers
  targets : Owned Operation.dangerousTarget p.activeDangerousTargets p.workers

def Control.Tidy {n : ℕ} (s : Control n) : Prop := ∀ p, s.process = some p → p.Tidy

/-- The keys of a process are those of its operations in flight, and each of these has its row, which is not over. -/
structure KeysHeld {n : ℕ} (p : Process n) (t : OperationTable) : Prop where
  sessions : ∀ session, session ∈ p.activeSessions ↔ ∃ i a, (p.workers i).operation = some a ∧ a.sessionId = some session
  targets : ∀ target, target ∈ p.activeDangerousTargets ↔
    ∃ i a, (p.workers i).operation = some a ∧ a.kind = .rollback ∧ a.targetId = target
  rows : ∀ i a, (p.workers i).operation = some a →
    ∃ row, t.get a.operationId = some row ∧ row.kind = a.kind ∧ InFlight row.status

section
variable {n : ℕ} {s s' : Control n} {p : Process n} {op : Operation} {key : Operation → Option String}
  {keys : List String} {workers : Fin n → Worker} {i : Fin n} {handlers : OperationKind → Bool}

lemma dangerousTarget_eq_some {target : String} :
    op.dangerousTarget = some target ↔ op.kind = .rollback ∧ op.targetId = target := by
  unfold Operation.dangerousTarget
  split_ifs with hkind <;> simp [hkind]

lemma hold_targets : (p.hold i op).activeDangerousTargets = op.dangerousTarget.toList ++ p.activeDangerousTargets := by
  unfold Process.hold Operation.dangerousTarget
  split_ifs <;> rfl

lemma release_targets : (p.release i op).activeDangerousTargets =
    p.activeDangerousTargets.filter fun target => op.dangerousTarget ≠ some target := by
  by_cases hkind : op.kind = .rollback
  · simp only [Process.release, Operation.dangerousTarget, if_pos hkind]
    exact filter_congr fun target _ => by simp [eq_comm]
  · simp only [Process.release, Operation.dangerousTarget, if_neg hkind]
    exact (filter_eq_self.mpr fun target _ => by simp).symm

/-- An idle worker takes an operation, with its key. -/
lemma Owned.hold (h : Owned key keys workers) (hidle : (workers i).operation = none) :
    Owned key ((key op).toList ++ keys) (update workers i (.claimed op)) := by
  intro k hk
  rcases mem_append.mp hk with hk | hk
  · exact ⟨i, op, by rw [update_self]; rfl, Option.mem_toList.mp hk⟩
  · obtain ⟨j, a, ha, hkey⟩ := h k hk
    have hne : j ≠ i := by
      rintro rfl
      rw [hidle] at ha
      cases ha
    exact ⟨j, a, by rwa [update_of_ne hne], hkey⟩

/-- Only the keys of what is given back may lose their operation, and these go with it. -/
lemma Owned.release (h : Owned key keys workers) (hop : (workers i).operation = some op) (worker : Worker) :
    Owned key (keys.filter fun k => key op ≠ some k) (update workers i worker) := by
  intro k hk
  obtain ⟨hmem, hother⟩ := mem_filter.mp hk
  obtain ⟨j, a, ha, hkey⟩ := h k hmem
  have hne : j ≠ i := by
    rintro rfl
    rw [hop] at ha
    cases ha
    exact of_decide_eq_true hother hkey
  exact ⟨j, a, by rwa [update_of_ne hne], hkey⟩

lemma Owned.congr {workers' : Fin n → Worker} (h : Owned key keys workers)
    (hsame : ∀ j, (workers' j).operation = (workers j).operation) : Owned key keys workers' := by
  intro k hk
  obtain ⟨j, a, ha, hkey⟩ := h k hk
  exact ⟨j, a, (hsame j).trans ha, hkey⟩

lemma Process.Tidy.hold (h : p.Tidy) (hidle : (p.workers i).operation = none) : (p.hold i op).Tidy where
  sessions := h.sessions.hold hidle
  targets := by
    rw [hold_targets]
    exact h.targets.hold hidle

lemma Process.Tidy.release (h : p.Tidy) (hop : (p.workers i).operation = some op) : (p.release i op).Tidy where
  sessions := h.sessions.release hop _
  targets := by
    rw [release_targets]
    exact h.targets.release hop _

theorem Process.Tidy.stepAlive {move : ControlMove n} (h : p.Tidy) (hprocess : s.process = some p)
    (hstep : s.stepAlive handlers p move = some s') : s'.Tidy := by
  intro q hq
  have hkept : s'.process = s.process → q.Tidy := by
    intro hsame
    rw [hsame, hprocess] at hq
    cases hq
    exact h
  cases move with
  | create op =>
    simp only [Control.stepAlive] at hstep
    split at hstep <;> cases hstep
    exact hkept rfl
  | cancel operationId now =>
    simp only [Control.stepAlive] at hstep
    split at hstep <;> cases hstep
    exact hkept rfl
  | claim i now =>
    simp only [Control.stepAlive] at hstep
    split at hstep
    · next hactive hpolling =>
      split at hstep <;> cases hstep
      cases hq
      exact h.hold (by rw [hpolling]; rfl)
    · cases hstep
  | start i =>
    simp only [Control.stepAlive] at hstep
    split at hstep
    · next op hclaimed =>
      cases hstep
      cases hq
      have hsame : ∀ j, (update p.workers i (.handling op) j).operation = (p.workers j).operation := by
        intro j
        rw [operation_update]
        split_ifs with hj
        · rw [hj, hclaimed]
          rfl
        · rfl
      exact ⟨h.sessions.congr hsame, h.targets.congr hsame⟩
    · cases hstep
  | heartbeat i now =>
    simp only [Control.stepAlive] at hstep
    split at hstep <;> cases hstep
    exact hkept rfl
  | finish i outcome now =>
    simp only [Control.stepAlive] at hstep
    split at hstep
    · next op hhandling =>
      cases hstep
      cases hq
      exact h.release (by rw [hhandling]; rfl)
    · cases hstep
  | stop =>
    cases hstep
    cases hq
    exact ⟨h.sessions, h.targets⟩
  | interrupt i =>
    simp only [Control.stepAlive] at hstep
    split at hstep
    · next op hactive hhandling =>
      cases hstep
      cases hq
      exact h.release (by rw [hhandling]; rfl)
    · cases hstep
  | sweep count now =>
    simp only [Control.stepAlive] at hstep
    split_ifs at hstep
    cases hstep
    exact hkept rfl
  | die =>
    cases hstep
    cases hq
  | boot linked now => cases hstep
  | dieInRecovery count linked now => cases hstep

lemma Control.Tidy.step {move : ControlMove n} (h : s.Tidy) (hstep : s.step handlers move = some s') : s'.Tidy := by
  unfold Control.step at hstep
  split at hstep
  · next p hprocess => exact (h p hprocess).stepAlive hprocess hstep
  · next hdead =>
    split at hstep <;> cases hstep
    · rintro _ ⟨⟩
      exact ⟨fun _ => nofun, fun _ => nofun⟩
    · exact h

lemma sound_reached (hs : (control n handlers).Reached (fun _ _ => True) s) : s.Sound := by
  refine hs.invariant ⟨⟨nofun, ?_⟩, nofun⟩ fun _ _ _ hsound _ hstep => hsound.step hstep
  rintro operationId (hmem | hmem) <;> cases hmem

/-- However processes come, stop and die over the table, no key is missing and none stays behind. -/
theorem keys_held (hs : (control n handlers).Reached (fun _ _ => True) s) (hp : s.process = some p) :
    KeysHeld p s.table := by
  have hsound := (sound_reached hs).process p hp
  have htidy : s.Tidy := hs.invariant (fun _ => nofun) fun _ _ _ htidy _ hstep => htidy.step hstep
  refine ⟨fun session => ⟨(htidy p hp).sessions session, ?_⟩, fun target => ⟨fun htarget => ?_, ?_⟩, hsound.held⟩
  · rintro ⟨i, a, ha, hsession⟩
    exact (hsound.keys i a ha).1 session hsession
  · obtain ⟨i, a, ha, hkey⟩ := (htidy p hp).targets target htarget
    exact ⟨i, a, ha, dangerousTarget_eq_some.mp hkey⟩
  · rintro ⟨i, a, ha, hkind, rfl⟩
    exact (hsound.keys i a ha).2 hkind

end

theorem claimed_rollback_held : ∃ (s : Control 1) (p : Process 1), s.process = some p ∧
    p.activeDangerousTargets = ["web"] ∧ KeysHeld p s.table :=
  ⟨_, _, rfl, rfl, keys_held (.next (.start 0) (.next (.claim 0 1) (.next (.create (rollbackOf "op-1" "web"))
    (.next (.boot noInvestigations 0) (.start (S := control 1 fun _ => true)) trivial rfl) trivial rfl) trivial rfl)
    trivial rfl) rfl⟩

end IncidentLens.Operations
