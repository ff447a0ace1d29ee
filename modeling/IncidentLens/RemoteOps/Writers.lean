import IncidentLens.Effects.Runs
import IncidentLens.RemoteOps.Registry

/-!
# Writers of the registry

A writer reads a record and later replaces it on the condition that `updated_at` is still the one
it has read. The time of a write is the writer's own, and nothing keeps two writes from having one.
-/
namespace IncidentLens.RemoteOps.Writers
open Data Effects Function

/-- The registry, what each writer has read, and the times at which each project was ever written. -/
structure World where
  registry : Registry
  reads : String → Option ProjectRecord := fun _ => none
  stamps : String → List String

inductive Event
  | read (writer projectId : String)
  | replace (writer : String) (registration : ProjectRegistration) (now : String)

/-- A writer replaces the project it has read; a replace that raises changes nothing. -/
def step (w : World) : Event → Option World
  | .read writer projectId => (w.registry.get projectId).map fun record =>
    { w with reads := update w.reads writer (some record) }
  | .replace writer registration now => (w.reads writer).bind fun record =>
    if registration.projectId = record.projectId then
      match w.registry.replace registration now (some record.updatedAt) with
      | .ok registry => some { w with
          registry
          stamps := update w.stamps record.projectId (now :: w.stamps record.projectId) }
      | .error _ => some w
    else none

def writers (registry : Registry) : System World Event where
  init := { registry, stamps := fun projectId => ((registry.get projectId).map (·.updatedAt)).toList }
  step := step

/-- A replace with what a writer has read goes through only where that is still stored, and is
refused as a conflict everywhere else. -/
def Guarded (w : World) : Prop :=
  ∀ (writer : String) (record : ProjectRecord), w.reads writer = some record →
    ∀ (registration : ProjectRegistration) (now : String), registration.projectId = record.projectId →
      (w.registry.get record.projectId = some record →
        ∃ registry, w.registry.replace registration now (some record.updatedAt) = .ok registry) ∧
      (w.registry.get record.projectId ≠ some record →
        w.registry.replace registration now (some record.updatedAt) = .error .registryUpdateConflict)

/-- The time of a write is none at which its project was written before. -/
def Fresh (w : World) : Event → Prop
  | .read _ _ => True
  | .replace _ registration now => now ∉ w.stamps registration.projectId

/-- What is stored and what was read was written at a time on record, and records of one time are one. -/
structure Kept (w : World) : Prop where
  stored : ∀ projectId record, w.registry.get projectId = some record → record.updatedAt ∈ w.stamps projectId
  read : ∀ writer record, w.reads writer = some record → record.updatedAt ∈ w.stamps record.projectId ∧
    ∃ current, w.registry.get record.projectId = some current ∧ (current.updatedAt = record.updatedAt → current = record)

section
variable {w w' : World} {registry : Registry} {registration : ProjectRegistration} {record : ProjectRecord} {now : String}

lemma replace_eq_ok (h : w.registry.replace registration now (some record.updatedAt) = .ok registry) :
    ∃ old, w.registry.get registration.projectId = some old ∧ record.updatedAt = old.updatedAt ∧
      registry = w.registry.put ⟨registration, old.createdAt, now⟩ := by
  unfold Registry.replace at h
  cases hold : w.registry.get registration.projectId with
  | none => simp [hold] at h
  | some old =>
    simp only [hold] at h
    split_ifs at h with hsame
    cases h
    exact ⟨old, rfl, of_decide_eq_true hsame, rfl⟩

lemma Kept.step {event : Event} (h : Kept w) (hfresh : Fresh w event) (hstep : step w event = some w') : Kept w' := by
  cases event with
  | read writer projectId =>
    obtain ⟨record, hrecord, rfl⟩ := Option.map_eq_some_iff.mp hstep
    refine ⟨h.stored, fun other read hread => ?_⟩
    by_cases hother : other = writer
    · subst hother
      cases (update_self _ _ w.reads).symm.trans hread
      have hkey := w.registry.get_key hrecord
      exact ⟨h.stored _ _ hkey, record, hkey, fun _ => rfl⟩
    · exact h.read other read ((update_of_ne hother _ _).symm.trans hread)
  | replace writer registration now =>
    obtain ⟨record, hread, hstep⟩ := Option.bind_eq_some_iff.mp hstep
    split_ifs at hstep with hproject
    cases hreplace : w.registry.replace registration now (some record.updatedAt) with
    | error _ =>
      rw [hreplace] at hstep
      cases hstep
      exact h
    | ok registry =>
      rw [hreplace] at hstep
      cases hstep
      obtain ⟨old, hold, -, rfl⟩ := replace_eq_ok hreplace
      rw [← hproject]
      have hother : ∀ projectId ≠ registration.projectId,
          (w.registry.put ⟨registration, old.createdAt, now⟩).get projectId = w.registry.get projectId :=
        fun projectId hne => w.registry.get_put_of_ne hne
      refine ⟨fun projectId stored hstored => ?_, fun other read hread => ?_⟩
      · by_cases hsame : projectId = registration.projectId
        · subst hsame
          cases (Table.get_put_self w.registry ⟨registration, old.createdAt, now⟩).symm.trans hstored
          simp
        · change stored.updatedAt ∈ update w.stamps _ _ projectId
          rw [update_of_ne hsame]
          exact h.stored projectId stored ((hother projectId hsame).symm.trans hstored)
      · obtain ⟨hstamp, current, hcurrent, heq⟩ := h.read other read hread
        by_cases hsame : read.projectId = registration.projectId
        · rw [hsame] at hstamp ⊢
          refine ⟨by simp [hstamp], _, Table.get_put_self w.registry ⟨registration, old.createdAt, now⟩, ?_⟩
          -- nothing that was read is as new as this write
          rintro rfl
          exact absurd hstamp hfresh
        · refine ⟨?_, current, (hother _ hsame).trans hcurrent, heq⟩
          change read.updatedAt ∈ update w.stamps _ _ read.projectId
          rwa [update_of_ne hsame]

lemma Kept.guarded (h : Kept w) : Guarded w := by
  intro writer record hread registration now hproject
  obtain ⟨-, current, hcurrent, heq⟩ := h.read writer record hread
  unfold Registry.replace
  rw [hproject, hcurrent]
  refine ⟨?_, fun hne => ?_⟩
  · rintro ⟨⟩
    exact ⟨_, if_pos (decide_eq_true rfl)⟩
  · refine if_neg fun hsame => hne ?_
    rw [heq (of_decide_eq_true hsame).symm]

end

/-- A project as it was registered, and as another writer changes it. -/
def registered : ProjectRecord where
  projectId := "project"
  targets := []
  services := []
  uniqueTargets := List.nodup_nil
  uniqueServices := List.nodup_nil
  createdAt := "2026-01-01T00:00:00+00:00"
  updatedAt := "2026-01-01T00:00:00+00:00"

def extended : ProjectRegistration := { registered with services := ["api"], uniqueServices := List.nodup_singleton _ }

/-- A change made at the time of the registration, with an older read of another writer. -/
def overtaken : World where
  registry := (Table.empty.put registered).put ⟨extended, registered.createdAt, registered.updatedAt⟩
  reads := update (update (fun _ => none) "first" (some registered)) "second" (some registered)
  stamps := update (fun projectId => (((Table.empty.put registered : Registry).get projectId).map (·.updatedAt)).toList)
    "project" [registered.updatedAt, registered.updatedAt]

lemma reached_overtaken : (writers (Table.empty.put registered)).Reached (fun _ _ => True) overtaken :=
  .next (.replace "second" extended registered.updatedAt)
    (.next (.read "second" "project") (.next (.read "first" "project") .start trivial rfl) trivial rfl) trivial rfl

end IncidentLens.RemoteOps.Writers
