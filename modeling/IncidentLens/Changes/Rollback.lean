import IncidentLens.Changes.Atomicity
import IncidentLens.Effects.Outcome

/-!
# Rollback

How the files of a change set stand between the journal and the file system, and what a
rollback makes of them: a file is pending while its backup (or the created file) is there, and
spent once it has been restored.
-/
namespace IncidentLens.Changes
open Data Effects

section
variable (env : Env) (rq : ChangeSetRequest) (ts : String) (goal : FileRequest → Option Entry) (w : World)

/-- The entry of a file; `goal` is what its location is to hold in the end. -/
structure Held (f : FileRequest) (change : FileChange) : Prop where
  fileChangeId : change.fileChangeId = f.operationId
  remotePath : change.remotePath = f.path
  scope : backendForChange change = .ok rq.context.scope
  originallyAbsent : change.originallyAbsent = f.creates
  backup : change.applied = true → f.creates = false →
    change.remoteBackupPath = some (backupPath (rq.canonical env f.path) ts)
  absent : change.applied = true → f.creates = true → goal f = none

def Pending (f : FileRequest) : Prop :=
  (f.creates = true → w.files rq.context.scope (rq.location env f.path) ≠ none) ∧
    (f.creates = false → w.files rq.context.scope (rq.backupLocation env ts f.path) = goal f ∧ goal f ≠ none)

def Spent (f : FileRequest) : Prop :=
  w.files rq.context.scope (rq.location env f.path) = goal f ∧
    (f.creates = false → w.files rq.context.scope (rq.backupLocation env ts f.path) = none)

structure Shelf (cs : ChangeSet) : Prop where
  row : w.journal.get rq.changesetId = some cs
  project : cs.projectId = rq.context.projectId
  target : cs.targetId = rq.context.targetId
  distinct : (rq.files.map FileRequest.operationId).Nodup
  held : List.Forall₂ (fun f change => Held env rq ts goal f change ∧
    (change.applied = true → Pending env rq ts goal w f ∨ Spent env rq ts goal w f) ∧
    (change.applied = false → w.files rq.context.scope (rq.location env f.path) = goal f)) rq.files cs.files

def Others (f : FileRequest) (w w' : World) : Prop :=
  ∀ g ∈ rq.files, g ≠ f → ∀ location ∈ rq.workingPaths env ts g,
    w'.files rq.context.scope location = w.files rq.context.scope location

end

variable {m : Manager} {env : Env} {rq : ChangeSetRequest} {ts : String} {goal : FileRequest → Option Entry}
  {faults : Faults} {tr : History} {w w' : World} {cs cs' : ChangeSet} {f : FileRequest} {change : FileChange}

lemma exists_of_forall₂' {α β : Type} {R : α → β → Prop} {xs : List α} {ys : List β}
    (h : List.Forall₂ R xs ys) {y : β} (hy : y ∈ ys) : ∃ x ∈ xs, R x y := by
  induction h with
  | nil => cases hy
  | cons hR _ ih =>
    rcases List.mem_cons.mp hy with rfl | hy
    · exact ⟨_, List.mem_cons_self, hR⟩
    · obtain ⟨x, hx, hR'⟩ := ih hy
      exact ⟨x, List.mem_cons_of_mem _ hx, hR'⟩

lemma Pending.of_files (hw : ∀ location ∈ rq.workingPaths env ts f,
      w'.files rq.context.scope location = w.files rq.context.scope location)
    (h : Pending env rq ts goal w f) : Pending env rq ts goal w' f := by
  refine ⟨fun hcreates => ?_, fun hcreates => ?_⟩
  · rw [hw _ (mem_workingPaths.mpr (.inl rfl))]
    exact h.1 hcreates
  · rw [hw _ (mem_workingPaths.mpr (.inr (.inr ⟨hcreates, rfl⟩)))]
    exact h.2 hcreates

lemma Spent.of_files (hw : ∀ location ∈ rq.workingPaths env ts f,
      w'.files rq.context.scope location = w.files rq.context.scope location)
    (h : Spent env rq ts goal w f) : Spent env rq ts goal w' f := by
  refine ⟨?_, fun hcreates => ?_⟩
  · rw [hw _ (mem_workingPaths.mpr (.inl rfl))]
    exact h.1
  · rw [hw _ (mem_workingPaths.mpr (.inr (.inr ⟨hcreates, rfl⟩)))]
    exact h.2 hcreates

namespace Shelf

lemma file_eq (h : Shelf env rq ts goal w cs) {g : FileRequest} (hf : f ∈ rq.files) (hg : g ∈ rq.files)
    (hid : f.operationId = g.operationId) : f = g :=
  List.inj_on_of_nodup_map h.distinct hf hg hid

lemma find (h : Shelf env rq ts goal w cs) (hchange : change ∈ cs.files) : ∃ f ∈ rq.files,
    Held env rq ts goal f change ∧ (change.applied = true → Pending env rq ts goal w f ∨ Spent env rq ts goal w f) ∧
    (change.applied = false → w.files rq.context.scope (rq.location env f.path) = goal f) :=
  exists_of_forall₂' h.held hchange

lemma nodup_ids (h : Shelf env rq ts goal w cs) : (cs.files.map FileChange.fileChangeId).Nodup := by
  have hids : cs.files.map FileChange.fileChangeId = rq.files.map FileRequest.operationId := by
    rw [← List.forall₂_eq_eq_eq, List.forall₂_map_left_iff, List.forall₂_map_right_iff]
    exact (h.held.imp fun f change hf => hf.1.fileChangeId).flip
  rw [hids]
  exact h.distinct

lemma restore (h : Shelf env rq ts goal w cs) (hjournal : w'.journal = w.journal) (hf : f ∈ rq.files)
    (hothers : Others env rq ts f w w') (hspent : Spent env rq ts goal w' f) : Shelf env rq ts goal w' cs := by
  refine ⟨by rw [hjournal, h.row], h.project, h.target, h.distinct, ?_⟩
  refine ((List.forall₂_and_left rq.files cs.files).mpr ⟨fun _ hg => hg, h.held⟩).imp ?_
  rintro g change ⟨hg, hheld, happlied, hsettled⟩
  by_cases hgf : g = f
  · subst hgf
    exact ⟨hheld, fun _ => .inr hspent, fun _ => hspent.1⟩
  · have hw := hothers g hg hgf
    refine ⟨hheld, fun ha => (happlied ha).imp (·.of_files hw) (·.of_files hw), fun ha => ?_⟩
    rw [hw _ (mem_workingPaths.mpr (.inl rfl))]
    exact hsettled ha

lemma withdraw (h : Shelf env rq ts goal w cs) (hf : f ∈ rq.files) (hspent : Spent env rq ts goal w f)
    (hchange : change ∈ cs.files) (hid : change.fileChangeId = f.operationId) (result : RollbackResult) :
    ∃ journal, w.journal.updateFileChange rq.changesetId f.operationId
        { rollbackResult := some result, applied := some false } = .ok journal ∧
      Shelf env rq ts goal { w with journal := journal }
        (Journal.patchFile cs f.operationId { rollbackResult := some result, applied := some false }) := by
  obtain ⟨journal, hupdate⟩ := Journal.updateFileChange_ne_error (j := w.journal)
    (p := { rollbackResult := some result, applied := some false }) (by simp) h.row ⟨change, hchange, hid⟩
  obtain ⟨cs', hget, -, hrow⟩ := Journal.updateFileChange_eq_ok hupdate
  obtain rfl : cs = cs' := Option.some.inj (h.row.symm.trans hget)
  refine ⟨journal, hupdate, ?_, h.project, h.target, h.distinct, ?_⟩
  · change journal.get rq.changesetId = _
    rw [hrow, if_pos rfl]
  · change List.Forall₂ _ rq.files (cs.files.map _)
    rw [List.forall₂_map_right_iff]
    refine ((List.forall₂_and_left rq.files cs.files).mpr ⟨fun _ hg => hg, h.held⟩).imp ?_
    rintro g d ⟨hg, hheld, happlied, hsettled⟩
    rw [hheld.fileChangeId]
    by_cases hgf : g.operationId = f.operationId
    · obtain rfl := h.file_eq hg hf hgf
      rw [if_pos rfl]
      refine ⟨⟨hheld.fileChangeId, hheld.remotePath, hheld.scope, hheld.originallyAbsent, ?_, ?_⟩, ?_, ?_⟩
      · rintro ⟨⟩
      · rintro ⟨⟩
      · rintro ⟨⟩
      · exact fun _ => hspent.1
    · rw [if_neg hgf]
      exact ⟨hheld, happlied, hsettled⟩

end Shelf

end IncidentLens.Changes
