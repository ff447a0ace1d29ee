import IncidentLens.Effects.Program
import IncidentLens.Effects.Runs
import Mathlib.Data.Finset.Max
import Mathlib.Logic.Function.Basic

/-!
# Concurrent programs and locks

Tasks run interleaved, one call at a time; a task that asks for a lock waits until it is
free, and a cancelled task goes on with its clean-up. If every task takes its locks in
increasing order and gives them back before it ends, no lock has two owners, no tasks wait
for each other, and no ended task owns a lock.
-/
namespace IncidentLens.Effects

open Function

inductive LockAction (K : Type)
  | acquire (key : K)
  | release (key : K)

/-- Which calls are about locks, and how they are answered. -/
structure Locking (C : Type) (R : C → Type) (K : Type) where
  action : C → Option (LockAction K)
  grant : (c : C) → R c

/-- What the tasks of a system do for a job, and what they do once cancelled. -/
structure Jobs (J C : Type) (R : C → Type) where
  program : J → Program C R Unit
  cleanup : J → Trace C R → Program C R Unit

structure Task (J C : Type) (R : C → Type) where
  job : J
  rest : Program C R Unit
  trace : Trace C R

structure Pool (J C : Type) (R : C → Type) (K : Type) where
  tasks : ℕ → Option (Task J C R) := fun _ => none
  locked : K → Bool := fun _ => false

/-- What happens next: a new task, the answer to the call of a task, or its cancellation. -/
inductive Move (J C : Type) (R : C → Type)
  | start (i : ℕ) (job : J)
  | answer (i : ℕ) (r : (c : C) → R c)
  | cancel (i : ℕ)

variable {J C K : Type} {R : C → Type}

namespace Pool

def setTask (s : Pool J C R K) (i : ℕ) (task : Task J C R) : Pool J C R K :=
  { s with tasks := update s.tasks i (some task) }

def setLock [DecidableEq K] (s : Pool J C R K) (key : K) (locked : Bool) : Pool J C R K :=
  { s with locked := update s.locked key locked }

end Pool

section
variable [DecidableEq K] (L : Locking C R K) (jobs : Jobs J C R)

/-- The call of task `i` is answered; a lock that is taken is not granted. -/
def answerCall (s : Pool J C R K) (i : ℕ) (r : (c : C) → R c) : Option (Pool J C R K) :=
  match s.tasks i with
  | some ⟨job, .call c k, tr⟩ => match L.action c with
    | none => some (s.setTask i ⟨job, k (r c), ⟨c, r c⟩ :: tr⟩)
    | some (.acquire key) =>
      if s.locked key then none
      else some ((s.setLock key true).setTask i ⟨job, k (L.grant c), ⟨c, L.grant c⟩ :: tr⟩)
    | some (.release key) =>
      some ((s.setLock key false).setTask i ⟨job, k (L.grant c), ⟨c, L.grant c⟩ :: tr⟩)
  | _ => none

def cancelTask (s : Pool J C R K) (i : ℕ) : Option (Pool J C R K) :=
  match s.tasks i with
  | some ⟨job, .call _ _, tr⟩ => some (s.setTask i ⟨job, jobs.cleanup job tr, tr⟩)
  | _ => none

def scheduler : System (Pool J C R K) (Move J C R) where
  init := {}
  step s
    | .start i job =>
      if (s.tasks i).isNone then some (s.setTask i ⟨job, jobs.program job, []⟩) else none
    | .answer i r => answerCall L s i r
    | .cancel i => cancelTask jobs s i

/-- The locks taken and not given back, the last one first. -/
def held : Trace C R → List K
  | [] => []
  | e :: tr => match L.action e.call with
    | some (.acquire key) => key :: held tr
    | some (.release key) => (held tr).erase key
    | none => held tr

/-- Some call about a lock was not answered as such calls are. -/
def Ungranted (tr : Trace C R) : Prop := ∃ e ∈ tr, L.action e.call ≠ none ∧ e.response ≠ L.grant e.call

/-- The end of a program that gives back its locks. -/
def Settled (tr : Trace C R) : Prop := held L tr = [] ∨ Ungranted L tr

variable {L jobs}

/-- A discipline: locks are taken in increasing order, and only a lock that is held is given
back. -/
structure Disciplined [LinearOrder K] (L : Locking C R K) (lawful : J → Trace C R → C → Prop) : Prop where
  acquire : ∀ job tr c key, lawful job tr c → L.action c = some (.acquire key) → ∀ key' ∈ held L tr, key' < key
  release : ∀ job tr c key, lawful job tr c → L.action c = some (.release key) → key ∈ held L tr

namespace Pool
variable (L)

def Holds (s : Pool J C R K) (i : ℕ) (key : K) : Prop := ∃ task, s.tasks i = some task ∧ key ∈ held L task.trace

/-- The next call of the task asks for a lock that is taken. -/
def Waits (s : Pool J C R K) (i : ℕ) (key : K) : Prop :=
  s.locked key = true ∧ ∃ job c k tr, s.tasks i = some ⟨job, .call c k, tr⟩ ∧ L.action c = some (.acquire key)

def Ended (s : Pool J C R K) (i : ℕ) : Prop := ∃ job tr, s.tasks i = some ⟨job, .ret (), tr⟩

/-- A set of tasks none of which can ever go on: each waits for a lock of another one, or of
a task that has ended. -/
def Stuck (s : Pool J C R K) (S : Finset ℕ) : Prop :=
  S.Nonempty ∧ ∀ i ∈ S, ∃ key, s.Waits L i key ∧ ∃ j, s.Holds L j key ∧ (j ∈ S ∨ s.Ended j)

/-- What holds of the tasks and the locks in every state. -/
structure Orderly (lawful : J → Trace C R → C → Prop) (I : J → Trace C R → Prop) (s : Pool J C R K) :
    Prop where
  tasks : ∀ i task, s.tasks i = some task →
    task.rest.wp (lawful task.job) (fun _ => Settled L) task.trace ∧ ¬ Ungranted L task.trace ∧
      (held L task.trace).Nodup ∧ I task.job task.trace
  locked : ∀ key, s.locked key = true ↔ ∃ i, s.Holds L i key
  single : ∀ i j key, s.Holds L i key → s.Holds L j key → i = j

variable {L} {s s' : Pool J C R K} {i : ℕ} {task : Task J C R}
  {lawful : J → Trace C R → C → Prop} {I : J → Trace C R → Prop}

lemma holds_of_tasks (htasks : s'.tasks = update s.tasks i (some task)) (j : ℕ) (key : K) :
    s'.Holds L j key ↔ if j = i then key ∈ held L task.trace else s.Holds L j key := by
  unfold Holds
  rw [htasks]
  by_cases hj : j = i
  · subst hj
    simp
  · simp [hj]

lemma Orderly.update (h : s.Orderly L lawful I) (htasks : s'.tasks = update s.tasks i (some task))
    (hrest : task.rest.wp (lawful task.job) (fun _ => Settled L) task.trace)
    (hgranted : ¬ Ungranted L task.trace) (hnodup : (held L task.trace).Nodup) (hI : I task.job task.trace)
    (hlocked : ∀ key, s'.locked key = true ↔ key ∈ held L task.trace ∨ ∃ j ≠ i, s.Holds L j key)
    (hown : ∀ key ∈ held L task.trace, ∀ j ≠ i, ¬ s.Holds L j key) : s'.Orderly L lawful I := by
  have hholds := holds_of_tasks (L := L) htasks
  refine ⟨?_, ?_, ?_⟩
  · intro j t ht
    rw [htasks] at ht
    by_cases hj : j = i
    · subst hj
      rw [update_self] at ht
      obtain rfl := Option.some.inj ht
      exact ⟨hrest, hgranted, hnodup, hI⟩
    · rw [update_of_ne hj] at ht
      exact h.tasks j t ht
  · intro key
    rw [hlocked]
    constructor
    · rintro (hmem | ⟨j, hj, hmem⟩)
      · exact ⟨i, (hholds i key).mpr (by rwa [if_pos rfl])⟩
      · exact ⟨j, (hholds j key).mpr (by rwa [if_neg hj])⟩
    · rintro ⟨j, hmem⟩
      by_cases hj : j = i
      · subst hj
        exact .inl (by simpa using (hholds j key).mp hmem)
      · exact .inr ⟨j, hj, by simpa [hj] using (hholds j key).mp hmem⟩
  · intro j k key hj hk
    rw [hholds] at hj hk
    by_cases hji : j = i <;> by_cases hki : k = i
    · rw [hji, hki]
    · rw [if_pos hji] at hj
      rw [if_neg hki] at hk
      exact absurd hk (hown key hj k hki)
    · rw [if_neg hji] at hj
      rw [if_pos hki] at hk
      exact absurd hj (hown key hk j hji)
    · rw [if_neg hji] at hj
      rw [if_neg hki] at hk
      exact h.single j k key hj hk

lemma Orderly.locked_keep (h : s.Orderly L lawful I) {old : Task J C R} (hold : s.tasks i = some old)
    (key : K) : s.locked key = true ↔ key ∈ held L old.trace ∨ ∃ j ≠ i, s.Holds L j key := by
  rw [h.locked]
  constructor
  · rintro ⟨j, hj⟩
    by_cases hji : j = i
    · subst hji
      obtain ⟨t, ht, hmem⟩ := hj
      rw [hold] at ht
      obtain rfl := Option.some.inj ht
      exact .inl hmem
    · exact .inr ⟨j, hji, hj⟩
  · rintro (hmem | ⟨j, -, hj⟩)
    · exact ⟨i, old, hold, hmem⟩
    · exact ⟨j, hj⟩

lemma Orderly.own (h : s.Orderly L lawful I) {old : Task J C R} (hold : s.tasks i = some old) :
    ∀ key ∈ held L old.trace, ∀ j ≠ i, ¬ s.Holds L j key := fun key hmem j hj hholds =>
  hj (h.single j i key hholds ⟨old, hold, hmem⟩)

end Pool

section Steps
variable {s s' : Pool J C R K} {i : ℕ} {lawful : J → Trace C R → C → Prop} {I : J → Trace C R → Prop}

lemma answerCall_cases {r : (c : C) → R c} (h : answerCall L s i r = some s') :
    ∃ job c k tr, s.tasks i = some ⟨job, .call c k, tr⟩ ∧
      ((L.action c = none ∧ s' = s.setTask i ⟨job, k (r c), ⟨c, r c⟩ :: tr⟩) ∨
      (∃ key, L.action c = some (.acquire key) ∧ s.locked key = false ∧
        s' = (s.setLock key true).setTask i ⟨job, k (L.grant c), ⟨c, L.grant c⟩ :: tr⟩) ∨
      ∃ key, L.action c = some (.release key) ∧
        s' = (s.setLock key false).setTask i ⟨job, k (L.grant c), ⟨c, L.grant c⟩ :: tr⟩) := by
  unfold answerCall at h
  cases htask : s.tasks i with
  | none => simp [htask] at h
  | some task =>
    obtain ⟨job, rest, tr⟩ := task
    cases rest with
    | ret a => simp [htask] at h
    | call c k =>
      refine ⟨job, c, k, tr, rfl, ?_⟩
      simp only [htask] at h
      cases haction : L.action c with
      | none =>
        simp only [haction, Option.some.injEq] at h
        exact .inl ⟨rfl, h.symm⟩
      | some action =>
        cases action with
        | acquire key =>
          simp only [haction] at h
          cases hlocked : s.locked key with
          | true => simp [hlocked] at h
          | false =>
            simp only [hlocked, Bool.false_eq_true, if_false, Option.some.injEq] at h
            exact .inr (.inl ⟨key, rfl, hlocked, h.symm⟩)
        | release key =>
          simp only [haction, Option.some.injEq] at h
          exact .inr (.inr ⟨key, rfl, h.symm⟩)

omit [DecidableEq K] in
lemma ungranted_cons {e : Event C R} {tr : Trace C R}
    (he : L.action e.call = none ∨ e.response = L.grant e.call) (h : ¬ Ungranted L tr) : ¬ Ungranted L (e :: tr) := by
  rintro ⟨e', he', haction, hresponse⟩
  rcases List.mem_cons.mp he' with rfl | he'
  · exact he.elim haction hresponse
  · exact h ⟨e', he', haction, hresponse⟩

variable [LinearOrder K]

lemma Pool.Orderly.answer {r : (c : C) → R c} (hdiscipline : Disciplined L lawful)
    (hkeep : ∀ job tr c r, I job tr → lawful job tr c → I job (⟨c, r⟩ :: tr))
    (h : s.Orderly L lawful I) (hstep : answerCall L s i r = some s') : s'.Orderly L lawful I := by
  obtain ⟨job, c, k, tr, htask, hcases⟩ := answerCall_cases hstep
  obtain ⟨hrest, hgranted, hnodup, hI⟩ := h.tasks i _ htask
  have hlocked := h.locked_keep htask
  have hown := h.own htask
  rcases hcases with ⟨haction, rfl⟩ | ⟨key, haction, hfree, rfl⟩ | ⟨key, haction, rfl⟩
  · have hheld : held L (⟨c, r c⟩ :: tr) = held L tr := by simp only [held, haction]
    refine h.update rfl (hrest.2 (r c)) (ungranted_cons (.inl haction) hgranted) ?_
      (hkeep _ _ _ _ hI hrest.1) ?_ ?_
    · rwa [hheld]
    · rwa [hheld]
    · rwa [hheld]
  · -- the lock was free, so no task holds it
    have hheld : held L (⟨c, L.grant c⟩ :: tr) = key :: held L tr := by simp only [held, haction]
    have hnone : ∀ j, ¬ s.Holds L j key := by
      intro j hj
      have := (h.locked key).mpr ⟨j, hj⟩
      rw [hfree] at this
      cases this
    refine h.update rfl (hrest.2 (L.grant c)) (ungranted_cons (.inr rfl) hgranted) ?_
      (hkeep _ _ _ _ hI hrest.1) ?_ ?_
    · rw [hheld]
      exact List.nodup_cons.mpr ⟨fun hmem => hnone i ⟨_, htask, hmem⟩, hnodup⟩
    · intro key'
      simp only [hheld, Pool.setTask, Pool.setLock, update_apply, List.mem_cons]
      by_cases hkey : key' = key
      · simp [hkey]
      · rw [if_neg hkey, hlocked]
        simp [hkey]
    · intro key' hmem j hj
      rw [hheld] at hmem
      rcases List.mem_cons.mp hmem with rfl | hmem
      · exact hnone j
      · exact hown key' hmem j hj
  · have hmem := hdiscipline.release job tr c key hrest.1 haction
    have hheld : held L (⟨c, L.grant c⟩ :: tr) = (held L tr).erase key := by simp only [held, haction]
    have hiff : ∀ key', key' ∈ (held L tr).erase key ↔ key' ≠ key ∧ key' ∈ held L tr := fun key' =>
      hnodup.mem_erase_iff
    refine h.update rfl (hrest.2 (L.grant c)) (ungranted_cons (.inr rfl) hgranted) ?_
      (hkeep _ _ _ _ hI hrest.1) ?_ ?_
    · rw [hheld]
      exact hnodup.erase key
    · intro key'
      simp only [hheld, hiff, Pool.setTask, Pool.setLock, update_apply]
      by_cases hkey : key' = key
      · subst hkey
        simpa using fun j hj => hown key' hmem j hj
      · rw [if_neg hkey, hlocked]
        simp [hkey]
    · intro key' hmem' j hj
      rw [hheld, hiff] at hmem'
      exact hown key' hmem'.2 j hj

omit [LinearOrder K] in
lemma Pool.Orderly.start {job : J} (hfree : s.tasks i = none)
    (hprogram : (jobs.program job).wp (lawful job) (fun _ => Settled L) []) (hI : I job [])
    (h : s.Orderly L lawful I) : (s.setTask i ⟨job, jobs.program job, []⟩).Orderly L lawful I := by
  have hnot : ∀ j key, s.Holds L j key → j ≠ i := by
    rintro j key ⟨task, htask, -⟩ rfl
    rw [hfree] at htask
    cases htask
  refine h.update rfl hprogram ?_ List.nodup_nil hI ?_ ?_
  · rintro ⟨e, he, -⟩
    cases he
  · intro key
    rw [show (s.setTask i ⟨job, jobs.program job, []⟩).locked key = s.locked key from rfl, h.locked]
    constructor
    · rintro ⟨j, hj⟩
      exact .inr ⟨j, hnot j key hj, hj⟩
    · rintro (hmem | ⟨j, -, hj⟩)
      · cases hmem
      · exact ⟨j, hj⟩
  · rintro key hmem
    cases hmem

omit [LinearOrder K] in
lemma Pool.Orderly.cancel (h : s.Orderly L lawful I) (hcleanup : ∀ task, s.tasks i = some task →
      (jobs.cleanup task.job task.trace).wp (lawful task.job) (fun _ => Settled L) task.trace)
    (hstep : cancelTask jobs s i = some s') : s'.Orderly L lawful I := by
  unfold cancelTask at hstep
  cases htask : s.tasks i with
  | none => simp [htask] at hstep
  | some task =>
    obtain ⟨job, rest, tr⟩ := task
    cases rest with
    | ret a => simp [htask] at hstep
    | call c k =>
      simp only [htask, Option.some.injEq] at hstep
      subst hstep
      obtain ⟨-, hgranted, hnodup, hI⟩ := h.tasks i _ htask
      have hrest := hcleanup _ htask
      have hlocked := h.locked_keep htask
      have hown := h.own htask
      exact h.update rfl hrest hgranted hnodup hI hlocked hown

/-- Cancellations that leave the task a lawful clean-up. -/
def GoodCancel (L : Locking C R K) (jobs : Jobs J C R) (lawful : J → Trace C R → C → Prop)
    (s : Pool J C R K) : Move J C R → Prop
  | .cancel i => ∀ task, s.tasks i = some task →
      (jobs.cleanup task.job task.trace).wp (lawful task.job) (fun _ => Settled L) task.trace
  | _ => True

lemma orderly_of_reached (hdiscipline : Disciplined L lawful)
    (hprogram : ∀ job, (jobs.program job).wp (lawful job) (fun _ => Settled L) [])
    (hstart : ∀ job, I job []) (hkeep : ∀ job tr c r, I job tr → lawful job tr c → I job (⟨c, r⟩ :: tr))
    (h : (scheduler L jobs).Reached (fun s e => s.Orderly L lawful I → GoodCancel L jobs lawful s e) s) :
    s.Orderly L lawful I := by
  have hinit : (scheduler L jobs).init.Orderly L lawful I := by
    refine ⟨?_, ?_, ?_⟩
    · rintro i task ⟨⟩
    · intro key
      constructor
      · rintro ⟨⟩
      · rintro ⟨i, task, htask, -⟩
        cases htask
    · rintro i j key ⟨task, htask, -⟩
      cases htask
  refine h.invariant hinit ?_
  · intro s e s' h hgood hstep
    cases e with
    | start i job =>
      simp only [scheduler, Option.ite_none_right_eq_some, Option.some.injEq] at hstep
      obtain ⟨hfree, rfl⟩ := hstep
      exact h.start (Option.isNone_iff_eq_none.mp hfree) (hprogram job) (hstart job)
    | answer i r => exact h.answer hdiscipline hkeep hstep
    | cancel i => exact h.cancel (hgood h) hstep

omit [LinearOrder K] in
lemma Pool.Orderly.ended (h : s.Orderly L lawful I) (hended : s.Ended i) (key : K) : ¬ s.Holds L i key := by
  obtain ⟨job, tr, htask⟩ := hended
  rintro ⟨task, htask', hmem⟩
  rw [htask] at htask'
  obtain rfl := Option.some.inj htask'
  obtain ⟨hrest, hgranted, -, -⟩ := h.tasks i _ htask
  rcases hrest with hnil | hungranted
  · rw [hnil] at hmem
    cases hmem
  · exact hgranted hungranted

lemma Pool.Orderly.not_stuck (hdiscipline : Disciplined L lawful) (h : s.Orderly L lawful I)
    (S : Finset ℕ) : ¬ s.Stuck L S := by
  rintro ⟨hne, hall⟩
  have hinhabited : Nonempty K := ⟨(hall _ hne.choose_spec).choose⟩
  choose! key hwaits hholder using hall
  obtain ⟨i, hi, hmax⟩ := S.exists_max_image key hne
  obtain ⟨j, hholds, hj⟩ := hholder i hi
  rcases hj with hj | hended
  · obtain ⟨-, job, c, k, tr, htask, haction⟩ := hwaits j hj
    obtain ⟨task, htask', hmem⟩ := hholds
    rw [htask] at htask'
    obtain rfl := Option.some.inj htask'
    have hlt := hdiscipline.acquire job tr c (key j) (h.tasks j _ htask).1.1 haction (key i) hmem
    exact absurd (hmax j hj) (not_le.mpr hlt)
  · exact h.ended hended (key i) hholds

end Steps
end
end IncidentLens.Effects
