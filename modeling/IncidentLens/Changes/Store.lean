import IncidentLens.Changes.Types
import IncidentLens.Data.Table

/-!
# The journal of change sets

A change set is stored with its file changes, whose ids are unique over all change sets.
-/
namespace IncidentLens.Changes
open Data

structure Journal where
  changesets : Table ChangeSet.changesetId := default
  fileChangeIds : List String := []

/-- The columns `update_file_change` sets. -/
structure FileChangePatch where
  localBackupRef : Option String := none
  remoteBackupPath : Option Path := none
  tempPath : Option Path := none
  applied : Option Bool := none
  validationResult : Option String := none
  rollbackResult : Option RollbackResult := none
  deriving DecidableEq

def FileChange.patch (f : FileChange) (p : FileChangePatch) : FileChange :=
  { f with
    localBackupRef := p.localBackupRef <|> f.localBackupRef
    remoteBackupPath := p.remoteBackupPath <|> f.remoteBackupPath
    tempPath := p.tempPath <|> f.tempPath
    applied := p.applied.getD f.applied
    validationResult := p.validationResult <|> f.validationResult
    rollbackResult := p.rollbackResult <|> f.rollbackResult }

def changeSetNotFound (changesetId : String) : Exc := ⟨.changeSetNotFound, "ChangeSet '" ++ changesetId ++ "' not found"⟩

def fileChangeNotFound (changesetId fileChangeId : String) : Exc :=
  ⟨.changeSetNotFound, "file change '" ++ fileChangeId ++ "' not found in '" ++ changesetId ++ "'"⟩

namespace Journal

def get (j : Journal) (changesetId : String) : Option ChangeSet := j.changesets.get changesetId

/-- `create_changeset`: the rows are inserted together. -/
def createChangeset (j : Journal) (cs : ChangeSet) : Except Exc Journal :=
  match j.get cs.changesetId with
  | some _ => .error ⟨.integrity, "UNIQUE constraint failed: changesets.changeset_id"⟩
  | none =>
    if (cs.files.map FileChange.fileChangeId ++ j.fileChangeIds).Nodup then
      .ok { changesets := j.changesets.put cs
            fileChangeIds := cs.files.map FileChange.fileChangeId ++ j.fileChangeIds }
    else .error ⟨.integrity, "UNIQUE constraint failed: file_changes.file_change_id"⟩

def patchFile (cs : ChangeSet) (fileChangeId : String) (p : FileChangePatch) : ChangeSet :=
  { cs with files := cs.files.map fun f => if f.fileChangeId = fileChangeId then f.patch p else f }

def updateFileChange (j : Journal) (changesetId fileChangeId : String) (p : FileChangePatch) : Except Exc Journal :=
  if p = {} then .error ⟨.other, "no fields to update"⟩
  else match j.get changesetId with
    | none => .error (fileChangeNotFound changesetId fileChangeId)
    | some cs =>
      if cs.files.any fun f => f.fileChangeId = fileChangeId then
        .ok { j with changesets := j.changesets.put (patchFile cs fileChangeId p) }
      else .error (fileChangeNotFound changesetId fileChangeId)

/-- `transition`; a status can only follow one of its predecessors. -/
def transition (j : Journal) (changesetId : String) (target : ChangeSetStatus) : Except Exc Journal :=
  match j.get changesetId with
  | none => .error (changeSetNotFound changesetId)
  | some cs =>
    if cs.status.terminal then .error ⟨.invalidChangeTransition,
      "Cannot transition from terminal status '" ++ cs.status.value ++ "'"⟩
    else if cs.status ∉ target.validPredecessors then .error ⟨.invalidChangeTransition,
      "Cannot transition from '" ++ cs.status.value ++ "' to '" ++ target.value ++ "'"⟩
    else .ok { j with changesets := j.changesets.put { cs with status := target } }

variable {j j' : Journal} {cs : ChangeSet} {changesetId fileChangeId : String} {p : FileChangePatch}
  {target : ChangeSetStatus}

lemma createChangeset_eq_ok (h : j.createChangeset cs = .ok j') :
    j.get cs.changesetId = none ∧ (cs.files.map FileChange.fileChangeId).Nodup ∧
      ∀ id, j'.get id = if id = cs.changesetId then some cs else j.get id := by
  unfold createChangeset at h
  cases hget : j.get cs.changesetId with
  | some _ => simp [hget] at h
  | none =>
    simp only [hget] at h
    split_ifs at h with hnodup
    obtain rfl := Except.ok.inj h
    exact ⟨rfl, (List.nodup_append.mp hnodup).1, fun id => Table.get_put _ _ _⟩

lemma updateFileChange_eq_ok (h : j.updateFileChange changesetId fileChangeId p = .ok j') :
    ∃ cs, j.get changesetId = some cs ∧ (∃ f ∈ cs.files, f.fileChangeId = fileChangeId) ∧
      ∀ id, j'.get id = if id = changesetId then some (patchFile cs fileChangeId p) else j.get id := by
  unfold updateFileChange at h
  split_ifs at h
  cases hget : j.get changesetId with
  | none => simp [hget] at h
  | some cs =>
    simp only [hget] at h
    split_ifs at h with hmem
    obtain rfl := Except.ok.inj h
    refine ⟨cs, rfl, by simpa using hmem, fun id => ?_⟩
    have hkey : cs.changesetId = changesetId := j.changesets.keyed _ _ hget
    change (j.changesets.put _).get id = _
    rw [Table.get_put]
    change (if id = cs.changesetId then _ else _) = _
    rw [hkey]
    rfl

lemma updateFileChange_ne_error (hp : p ≠ {}) (hget : j.get changesetId = some cs)
    (hmem : ∃ f ∈ cs.files, f.fileChangeId = fileChangeId) :
    ∃ j', j.updateFileChange changesetId fileChangeId p = .ok j' := by
  have hany : (cs.files.any fun f => f.fileChangeId = fileChangeId) = true := by simpa using hmem
  unfold updateFileChange
  rw [if_neg hp, hget]
  simp only [hany, if_true]
  exact ⟨_, rfl⟩

lemma transition_eq_ok (h : j.transition changesetId target = .ok j') :
    ∃ cs, j.get changesetId = some cs ∧ cs.status.terminal = false ∧
      cs.status ∈ target.validPredecessors ∧
      ∀ id, j'.get id = if id = changesetId then some { cs with status := target } else j.get id := by
  unfold transition at h
  cases hget : j.get changesetId with
  | none => simp [hget] at h
  | some cs =>
    simp only [hget] at h
    split_ifs at h with hterminal hpredecessor
    obtain rfl := Except.ok.inj h
    refine ⟨cs, rfl, by simpa using hterminal, hpredecessor, fun id => ?_⟩
    have hkey : cs.changesetId = changesetId := j.changesets.keyed _ _ hget
    change (j.changesets.put _).get id = _
    rw [Table.get_put]
    change (if id = cs.changesetId then _ else _) = _
    rw [hkey]
    rfl

lemma terminal_of_mem_validPredecessors {s target : ChangeSetStatus}
    (h : s ∈ target.validPredecessors) : s.terminal = false := by
  cases target <;> cases s <;> simp_all [ChangeSetStatus.validPredecessors, ChangeSetStatus.terminal]

lemma transition_ne_error (hget : j.get changesetId = some cs) (hmem : cs.status ∈ target.validPredecessors) :
    ∃ j', j.transition changesetId target = .ok j' := by
  unfold transition
  rw [hget]
  simp only [terminal_of_mem_validPredecessors hmem, hmem, not_true, if_false]
  exact ⟨_, rfl⟩

end Journal
end IncidentLens.Changes
