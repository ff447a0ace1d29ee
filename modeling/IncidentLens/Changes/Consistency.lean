import IncidentLens.Changes.Tracking

/-!
# The joint invariant of calls, files and journal
-/
namespace IncidentLens.Changes
open Data Effects ChangeSetRequest

variable {env : Env} {rq : ChangeSetRequest} {ts : String} {faults : Faults} {tr tr' : History}
  {w w' w₀ : World} {c : Call} {f : FileRequest}

lemma respond_eq_perform {v : c.Value} (h : (respond env faults tr c w).1 = .ok v) :
    respond env faults tr c w = perform env c.op w := by
  rcases respond_cases env faults tr c w with heq | ⟨-, -, e, heq⟩
  · exact heq
  · rw [heq] at h
    cases h

lemma respond_handler {o : Op} : respond env faults tr ⟨.handler, o⟩ w = perform env o w := by
  simp [respond]

lemma respond_unfaultable {origin : Origin} {o : Op} (ho : o.faultable = false) :
    respond env faults tr ⟨origin, o⟩ w = perform env o w := by
  simp [respond, ho]

lemma Lawful.owner (hapart : rq.Apart env ts) (hgenuine : Genuine env rq w₀ tr)
    (h : Lawful rq ts tr c) {location : Path} (hloc : location ∈ c.op.touches env) :
    ∃ g ∈ rq.files, c.op.concerns env rq g.path ∧ location ∈ rq.workingPaths env ts g := by
  obtain ⟨origin, o⟩ := c
  cases o with
  | copyFile scope source target =>
    simp only [Op.touches, List.mem_singleton] at hloc
    cases origin with
    | apply =>
      obtain ⟨-, rfl, rfl, path, original, hold, hat⟩ := h
      obtain rfl := hat.canonical_eq hgenuine
      obtain ⟨g, hg, rfl, -⟩ := hat
      rw [loc_backup] at hloc
      have hcreates : g.creates = false := by
        rw [← Bool.not_eq_true]
        exact fun hnew => hold ((hapart.isNew hg).mpr hnew)
      exact ⟨g, hg, rfl, mem_workingPaths.mpr (.inr (.inr ⟨hcreates, hloc⟩))⟩
    | handler => exact h.elim
    | rollback => exact h.elim
  | writeBytes scope temp content mode exclusive =>
    simp only [Op.touches, List.mem_singleton] at hloc
    cases origin with
    | apply =>
      obtain ⟨-, rfl, -, path, canonical, original, hprepared, rfl, -⟩ := h
      obtain rfl := hprepared.survey.canonical_eq hgenuine
      obtain ⟨g, hg, rfl, -⟩ := hprepared.survey
      rw [loc_temp] at hloc
      exact ⟨g, hg, rfl, mem_workingPaths.mpr (.inr (.inl hloc))⟩
    | handler => exact h.elim
    | rollback => exact h.elim
  | rename scope source target =>
    simp only [Op.touches, List.mem_cons, List.not_mem_nil, or_false] at hloc
    cases origin with
    | apply =>
      obtain ⟨-, rfl, rfl, path, original, content, mode, hprepared, -⟩ := h
      obtain rfl := hprepared.survey.canonical_eq hgenuine
      obtain ⟨g, hg, rfl, -⟩ := hprepared.survey
      rw [loc_temp, loc_canonical] at hloc
      exact ⟨g, hg, rfl, mem_workingPaths.mpr (hloc.symm.imp id .inl)⟩
    | handler =>
      obtain ⟨rfl, path, hold, hplaced, rfl, -⟩ := h
      obtain ⟨rfl, -⟩ := hplaced.renamed hgenuine
      obtain ⟨⟨_, g, hg, rfl, -⟩, -⟩ := hplaced
      rw [loc_backup, loc_canonical] at hloc
      have hcreates : g.creates = false := by
        rw [← Bool.not_eq_true]
        exact fun hnew => hold ((hapart.isNew hg).mpr hnew)
      exact ⟨g, hg, rfl, mem_workingPaths.mpr (hloc.symm.imp id fun h => .inr ⟨hcreates, h⟩)⟩
    | rollback => exact h.elim
  | removeFile scope target =>
    simp only [Op.touches, List.mem_singleton] at hloc
    cases origin with
    | apply => exact h.elim
    | handler =>
      obtain ⟨rfl, ⟨path, -, hplaced, -⟩ | ⟨path, canonical, original, content, mode, hat, rfl, -⟩⟩ := h
      · obtain ⟨rfl, -⟩ := hplaced.renamed hgenuine
        obtain ⟨⟨_, g, hg, rfl, -⟩, -⟩ := hplaced
        rw [loc_canonical] at hloc
        exact ⟨g, hg, .inl rfl, mem_workingPaths.mpr (.inl hloc)⟩
      · obtain rfl := hat.canonical_eq hgenuine
        obtain ⟨g, hg, rfl, -⟩ := hat
        rw [loc_temp] at hloc
        exact ⟨g, hg, .inr rfl, mem_workingPaths.mpr (.inr (.inl hloc))⟩
    | rollback => exact h.elim
  | _ => cases hloc

section Steps
variable (hapart : rq.Apart env ts) (hgenuine : Genuine env rq w₀ tr) (hf : f ∈ rq.files)
  (h : FileTracked env rq ts w₀ f tr w)
include hapart hgenuine hf h

variable {scope : RemoteScope} {origin : Origin}

lemma FileTracked.copy_step {source target : Path} (hlawful : Lawful rq ts tr ⟨origin, .copyFile scope source target⟩)
    (hconcern : source = rq.canonical env f.path) :
    FileTracked env rq ts w₀ f (⟨⟨origin, .copyFile scope source target⟩,
        (respond env faults tr ⟨origin, .copyFile scope source target⟩ w).1⟩ :: tr)
      (respond env faults tr ⟨origin, .copyFile scope source target⟩ w).2 := by
  cases origin with
  | handler => exact hlawful.elim
  | rollback => exact hlawful.elim
  | apply =>
    obtain ⟨hquiet, rfl, rfl, path, original, hold, hat⟩ := hlawful
    obtain rfl := hat.path_eq hapart hgenuine hf hconcern
    subst hconcern
    rcases respond_cases env faults tr ⟨.apply, .copyFile rq.context.scope (rq.canonical env f.path)
      (backupPath (rq.canonical env f.path) ts)⟩ w with heq | ⟨-, -, e, heq⟩
    · rw [heq]
      have hnot : ¬ Renamed env rq tr f.path := fun hdid => by cases hdid.stage_le hquiet
      simp only [perform, loc_canonical, loc_backup]
      cases hentry : w.files rq.context.scope (rq.location env f.path) with
      | none => exact h.failed (by rintro ⟨⟩)
      | some entry =>
        have hcreates : f.creates = false := by
          rw [← Bool.not_eq_true]
          exact fun hnew => hold ((hapart.isNew hf).mpr hnew)
        have hB := (hapart.nodup hf).2 hcreates
        exact h.copy hB.1 hB.2 hnot (fun hdid => by cases hdid.stage_le hquiet) hentry
    · rw [heq]
      exact h.failed (by rintro ⟨⟩)

lemma FileTracked.write_step {temp : Path} {content : Bytes} {mode : ℕ} {exclusive : Bool}
    (hlawful : Lawful rq ts tr ⟨origin, .writeBytes scope temp content mode exclusive⟩)
    (hconcern : temp = tempPath (rq.canonical env f.path) rq.changesetId) :
    FileTracked env rq ts w₀ f (⟨⟨origin, .writeBytes scope temp content mode exclusive⟩,
        (respond env faults tr ⟨origin, .writeBytes scope temp content mode exclusive⟩ w).1⟩ :: tr)
      (respond env faults tr ⟨origin, .writeBytes scope temp content mode exclusive⟩ w).2 := by
  cases origin with
  | handler => exact hlawful.elim
  | rollback => exact hlawful.elim
  | apply =>
    obtain ⟨hquiet, rfl, rfl, path, canonical, original, hprepared, htemp, hclash⟩ := hlawful
    subst hconcern
    rcases respond_cases env faults tr ⟨.apply, .writeBytes rq.context.scope
      (tempPath (rq.canonical env f.path) rq.changesetId) content mode true⟩ w with heq | ⟨-, -, e, heq⟩
    · rw [heq]
      simp only [perform, loc_temp]
      split_ifs
      · exact h.failed (by rintro ⟨⟩)
      · have hfirst : ∀ content mode, ¬ Wrote env rq tr f.path content mode := fun content mode hwrote =>
          not_clash hapart hgenuine (hclash ⟨content, mode, hwrote⟩)
        have hnot : ¬ Renamed env rq tr f.path := fun hdid => by
          exact absurd (hdid.stage_le hquiet) (by simp [Call.stage])
        have hcleared : ¬ Cleared env rq tr f.path := by
          rintro ⟨r, hmem⟩
          exact absurd (hquiet _ hmem) (by simp [Call.stage])
        exact h.write (hapart.nodup hf).1 (fun hcreates => ((hapart.nodup hf).2 hcreates).2) hfirst hnot
          hcleared
    · rw [heq]
      exact h.failed (by rintro ⟨⟩)

lemma FileTracked.rename_step (hpast : Past rq ts tr) {source target : Path}
    (hlawful : Lawful rq ts tr ⟨origin, .rename scope source target⟩) (hconcern : target = rq.canonical env f.path) :
    FileTracked env rq ts w₀ f (⟨⟨origin, .rename scope source target⟩,
        (respond env faults tr ⟨origin, .rename scope source target⟩ w).1⟩ :: tr)
      (respond env faults tr ⟨origin, .rename scope source target⟩ w).2 := by
  cases origin with
  | rollback => exact hlawful.elim
  | apply =>
    obtain ⟨hquiet, rfl, rfl, path, original, content, mode, hprepared, hwrite⟩ := hlawful
    obtain rfl := hprepared.survey.path_eq hapart hgenuine hf hconcern
    subst hconcern
    rcases respond_cases env faults tr ⟨.apply, .rename rq.context.scope
      (tempPath (rq.canonical env f.path) rq.changesetId) (rq.canonical env f.path)⟩ w with
      heq | ⟨-, -, e, heq⟩
    · rw [heq]
      simp only [perform, loc_temp, loc_canonical]
      cases hentry : w.files rq.context.scope (rq.tempLocation env f.path) with
      | none => exact h.failed (by rintro ⟨⟩)
      | some entry =>
        have hcleared : ¬ Cleared env rq tr f.path := by
          rintro ⟨r, hmem⟩
          exact absurd (hquiet _ hmem) (by simp [Call.stage])
        have hnot : ¬ Renamed env rq tr f.path := by
          intro hrenamed
          rw [h.gone (.inl hrenamed)] at hentry
          cases hentry
        have hrestored : ¬ Restored rq ts tr f.path (rq.canonical env f.path) := by
          rintro (⟨-, hdid⟩ | ⟨-, hdid⟩)
          · exact absurd (hdid.stage_le hquiet) (by simp [Call.stage])
          · exact absurd (hdid.stage_le hquiet) (by simp [Call.stage])
        obtain rfl : ⟨content, mode⟩ = entry :=
          Option.some.inj ((h.temp content mode hwrite hnot hcleared).symm.trans hentry)
        exact h.rename (hapart.nodup hf).1 (hapart.nodup hf).2 hwrite hrestored
    · rw [heq]
      exact h.failed (by rintro ⟨⟩)
  | handler =>
    obtain ⟨rfl, path, hold, hplaced, rfl, hclash⟩ := hlawful
    obtain ⟨⟨original, hat⟩, -⟩ := id hplaced
    obtain rfl := hat.path_eq hapart hgenuine hf hconcern
    subst hconcern
    obtain ⟨-, hrenamed⟩ := hplaced.renamed hgenuine
    obtain ⟨_, _, _, hprepared, -⟩ := hpast.renamed hapart hgenuine hf hrenamed
    obtain ⟨_, -, hcopy, -⟩ := hprepared.secured hold
    have hcreates : f.creates = false := by
      rw [← Bool.not_eq_true]
      exact fun hnew => hold ((hapart.isNew hf).mpr hnew)
    have hfirst : ¬ PutBack env rq ts tr f.path := fun hdid => not_clash hapart hgenuine (hclash hdid)
    obtain ⟨hbackup, hsome⟩ := h.backup hcreates hcopy hfirst
    obtain ⟨entry, hentry⟩ := Option.isSome_iff_exists.mp hsome
    rw [hentry] at hbackup
    rw [respond_handler]
    simp only [perform, loc_backup, loc_canonical, hbackup]
    exact h.putBack (hapart.nodup hf).1 (hapart.nodup hf).2 hcreates hold hrenamed hentry

lemma FileTracked.remove_step {target : Path} (hlawful : Lawful rq ts tr ⟨origin, .removeFile scope target⟩)
    (hconcern : target = rq.canonical env f.path ∨ target = tempPath (rq.canonical env f.path) rq.changesetId) :
    FileTracked env rq ts w₀ f (⟨⟨origin, .removeFile scope target⟩,
        (respond env faults tr ⟨origin, .removeFile scope target⟩ w).1⟩ :: tr)
      (respond env faults tr ⟨origin, .removeFile scope target⟩ w).2 := by
  cases origin with
  | apply => exact hlawful.elim
  | rollback => exact hlawful.elim
  | handler =>
    obtain ⟨rfl, ⟨path, hnew, hplaced, -⟩ | ⟨path, canonical, original, content, mode, hat, rfl, hwrite⟩⟩ := hlawful
    · -- a file that was created
      obtain ⟨rfl, hrenamed⟩ := hplaced.renamed hgenuine
      obtain ⟨⟨original, hat⟩, -⟩ := hplaced
      obtain ⟨g, hg, rfl, hpre⟩ := hat
      rcases hconcern with heq | heq
      · obtain rfl : g = f := by
          refine hapart.eq_of_path hg hf ?_
          exact At.path_eq hapart hgenuine hf ⟨g, hg, rfl, hpre⟩ heq
        rw [respond_handler]
        simp only [perform, loc_canonical]
        cases hentry : w.files rq.context.scope (rq.location env g.path) with
        | none =>
          refine h.failed ?_
          intro hcall
          simp only [Call.mk.injEq, Op.removeFile.injEq, true_and] at hcall
          exact canonical_ne_temp hapart hg hg hcall
        | some entry =>
          exact h.remove (hapart.nodup hf).1 ((hapart.isNew hf).mp hnew) hnew hrenamed
      · exact absurd heq (canonical_ne_temp hapart hg hf)
    · -- a temporary file
      obtain rfl := hat.canonical_eq hgenuine
      obtain ⟨g, hg, rfl, hpre⟩ := id hat
      rcases hconcern with heq | heq
      · exact absurd heq.symm (canonical_ne_temp hapart hf hg)
      · obtain hpath := hat.path_eq_of_temp hapart hgenuine hf heq
        obtain rfl : g = f := hapart.eq_of_path hg hf hpath
        have hLT := (hapart.nodup hf).1
        have hTB := fun hcreates => ((hapart.nodup hf).2 hcreates).2
        rw [respond_handler]
        simp only [perform, loc_temp]
        cases hentry : w.files rq.context.scope (rq.tempLocation env g.path) with
        | none =>
          exact h.clear hLT hTB hwrite (canonical_ne_temp hapart hg hg) hentry fun _ _ => rfl
        | some entry =>
          refine h.clear hLT hTB hwrite (canonical_ne_temp hapart hg hg) ?_ ?_
          · rw [World.files_setFile, if_pos ⟨rfl, rfl⟩]
          · intro location hne
            rw [World.files_setFile, if_neg fun hloc => hne hloc.2]

lemma FileTracked.step (hpast : Past rq ts tr) (hlawful : Lawful rq ts tr c) :
    FileTracked env rq ts w₀ f (⟨c, (respond env faults tr c w).1⟩ :: tr) (respond env faults tr c w).2 := by
  by_cases hconcern : c.op.concerns env rq f.path
  · obtain ⟨origin, o⟩ := c
    cases o with
    | copyFile => exact h.copy_step hapart hgenuine hf hlawful hconcern
    | writeBytes => exact h.write_step hapart hgenuine hf hlawful hconcern
    | rename => exact h.rename_step hapart hgenuine hf hpast hlawful hconcern
    | removeFile => exact h.remove_step hapart hgenuine hf hlawful hconcern
    | _ => exact hconcern.elim
  · refine h.frame hconcern ?_
    intro location hlocation
    refine files_respond fun htouched => ?_
    obtain ⟨g, hg, hconcern', hlocation'⟩ := hlawful.owner hapart hgenuine htouched
    exact hconcern (hapart.owner hf hg hlocation hlocation' ▸ hconcern')

end Steps

lemma Genuine.step (hlawful : Lawful rq ts tr c) (hgenuine : Genuine env rq w₀ tr)
    (hkeep : UpTo 0 tr → ∀ f ∈ rq.files, w.files rq.context.scope (rq.location env f.path) =
      w₀.files rq.context.scope (rq.location env f.path)) :
    Genuine env rq w₀ (⟨c, (respond env faults tr c w).1⟩ :: tr) := by
  have hnew : ∀ {op : Op} {v : op.Value},
      Did (⟨c, (respond env faults tr c w).1⟩ :: tr) .apply op v → Did tr .apply op v ∨
        (Lawful rq ts tr ⟨.apply, op⟩ ∧ (perform env op w).1 = .ok v) := by
    intro op v hdid
    rcases List.mem_cons.mp hdid with heq | hmem
    · obtain rfl : c = ⟨.apply, op⟩ := (congrArg Event.call heq).symm
      simp only [Event.mk.injEq, heq_eq_eq, true_and] at heq
      refine .inr ⟨hlawful, ?_⟩
      rw [← respond_eq_perform heq.symm, heq]
    · exact .inl hmem
  refine ⟨?_, ?_, ?_⟩
  · intro path v hdid
    rcases hnew hdid with hdid | ⟨-, hperform⟩
    · exact hgenuine.realpath path v hdid
    · exact (Except.ok.inj hperform).symm
  · intro f hf metadata hdid hlink
    rcases hnew hdid with hdid | ⟨hquiet, hperform⟩
    · exact hgenuine.lstat f hf metadata hdid hlink
    · simp only [perform] at hperform
      split_ifs at hperform with hdir
      · rw [← Except.ok.inj hperform] at hlink
        cases hlink
      · have hdir' := not_not.mp hdir
        refine ⟨hdir', ?_⟩
        rw [← hkeep hquiet f hf]
        change (w.files rq.context.scope (env.layout.loc rq.context.scope f.path)).isSome
        cases hentry : w.files rq.context.scope (env.layout.loc rq.context.scope f.path) with
        | none =>
          rw [hentry] at hperform
          cases hperform
        | some entry => rfl
  · intro f hf content hdid
    rcases hnew hdid with hdid | ⟨hquiet, hperform⟩
    · exact hgenuine.read f hf content hdid
    · simp only [perform, loc_canonical, hkeep hquiet f hf] at hperform
      cases hentry : w₀.files rq.context.scope (rq.location env f.path) with
      | none =>
        rw [hentry] at hperform
        cases hperform
      | some entry =>
        rw [hentry] at hperform
        exact ⟨entry, rfl, (Except.ok.inj hperform).symm⟩

end IncidentLens.Changes
