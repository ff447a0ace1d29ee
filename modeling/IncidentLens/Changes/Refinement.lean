import IncidentLens.Changes.Mirroring

/-!
# The container run refines the host run

From the preflight on the two runs take the same steps, up to the temporary files and the check of compose
files.
-/
namespace IncidentLens.Changes
open Data Effects Routine ChangeSetRequest List

section Preparation
variable {m : Manager} {policy : ServiceRegistration} {rq : ChangeSetRequest} {ts container : String} {w : World}
  {s t : Side}

lemma forall₂_inContainer (files : List FileRequest) :
    List.Forall₂ (fun f f' => f' = f.inContainer container) files (files.map fun f => f.inContainer container) := by
  induction files with
  | nil => exact .nil
  | cons f files ih => exact .cons rfl ih

/-- Every file has passed, and some have their replacement content. -/
structure Computed (m : Manager) (rq : ChangeSetRequest) (policy : ServiceRegistration) (w : World)
    (done : List FileRequest) (l : Locals) (w' : World) : Prop extends
    Passed m rq policy w rq.files (replacements m rq w done) l w' where
  replaced : ∀ f ∈ done, ∃ content, f.replacement (readable m.env rq w f) = .ok content

lemma paired_computeReplacement {done rest : List FileRequest} {f : FileRequest} (hfiles : rq.files = done ++ f :: rest)
    (h : Abreast m policy rq ts container (Computed m rq policy w done) s t) :
    Together m policy rq ts container (Computed m rq policy w (done ++ [f]))
      (computeReplacement f) (computeReplacement (f.inContainer container)) s t := by
  have hf : f ∈ rq.files := by simp [hfiles]
  refine paired_bind (paired_get ?_)
  rw [h.1.locals.originalContents]
  refine paired_bind (paired_ofExcept_self ?_ fun e _ => ⟨rfl, h.1⟩)
  intro original horiginal
  have hreadable : original = readable m.env rq w f :=
    Option.some.inj ((lookup_eq_ok horiginal).symm.trans (h.2.original f hf))
  subst hreadable
  refine paired_bind (paired_ofExcept_self ?_ fun e _ => ⟨rfl, h.1⟩)
  intro content hcontent
  refine paired_modify ⟨⟨?_, h.1.world, h.1.confined⟩, ⟨h.2.files, h.2.journal, h.2.accepted, h.2.original, ?_⟩, ?_⟩
  · exact { h.1.locals with newContents := by rw [h.1.locals.newContents]; rfl }
  · have hstep : replacements m rq w (done ++ [f]) = addReplacement m rq w (replacements m rq w done) f := by
      rw [replacements, foldl_append]
      rfl
    rw [hstep, addReplacement, hcontent, ← h.2.contents]
  · intro g hg
    rcases mem_append.mp hg with hg | hg
    · exact h.2.replaced g hg
    · rw [mem_singleton.mp hg]
      exact ⟨content, hcontent⟩

/-- Every file has its replacement content, and some contents are valid. -/
structure Valid (m : Manager) (rq : ChangeSetRequest) (policy : ServiceRegistration) (w : World)
    (done : List FileRequest) (l : Locals) (w' : World) : Prop extends Computed m rq policy w rq.files l w' where
  validated : ∀ f ∈ done, ∀ content, (replacements m rq w rq.files).get? f.path = some content →
    ∃ result, validateContent m.env f.path content = .ok result

lemma paired_validate {done : List FileRequest} {f : FileRequest}
    (h : Abreast m policy rq ts container (Valid m rq policy w done) s t) :
    Together m policy rq ts container (Valid m rq policy w (done ++ [f]))
      (validate m f) (validate m (f.inContainer container)) s t := by
  unfold validate
  rw [path_inContainer]
  refine paired_bind (paired_get ?_)
  rw [h.1.locals.newContents]
  refine paired_bind (paired_ofExcept_self ?_ fun e _ => ⟨rfl, h.1⟩)
  intro content hcontent
  refine paired_bind (paired_ofExcept_self ?_ fun e _ => ⟨rfl, h.1⟩)
  intro result hresult
  refine paired_modify ⟨⟨?_, h.1.world, h.1.confined⟩,
    ⟨⟨h.2.files, h.2.journal, h.2.accepted, h.2.original, h.2.contents⟩, h.2.replaced⟩, ?_⟩
  · exact { h.1.locals with validationResults := by rw [h.1.locals.validationResults] }
  · intro g hg
    rcases mem_append.mp hg with hg | hg
    · exact h.2.validated g hg
    · rw [mem_singleton.mp hg]
      intro content' hcontent'
      have hsame := lookup_eq_ok hcontent
      rw [h.2.contents, hcontent'] at hsame
      cases hsame
      exact ⟨result, hresult⟩

lemma buildFileChange_inContainer (f : FileRequest) (contents : Dict Path Bytes) (news : List Path) :
    (∃ e, buildFileChange m.env f contents news = .error e ∧
      buildFileChange m.env (f.inContainer container) contents news = .error e) ∨
    ∃ change change', buildFileChange m.env f contents news = .ok change ∧
      buildFileChange m.env (f.inContainer container) contents news = .ok change' ∧ change'.told = change.told ∧
      change.fileChangeId = f.operationId ∧ f.path.str.length ≤ 512 := by
  have hpath : (f.inContainer container).path = f.path := rfl
  unfold buildFileChange
  rw [hpath]
  cases lookup contents f.path with
  | error e => exact .inl ⟨e, rfl, rfl⟩
  | ok content =>
    by_cases hshort : 512 < f.path.str.length
    · simp only [if_pos hshort]
      exact .inl ⟨_, rfl, rfl⟩
    · simp only [if_neg hshort]
      exact .inr ⟨_, _, rfl, rfl, rfl, rfl, not_lt.mp hshort⟩

lemma mapM_buildFileChange (contents : Dict Path Bytes) (news : List Path) (files : List FileRequest) :
    (∃ e, files.mapM (fun f => buildFileChange m.env f contents news) = .error e ∧
      (files.map fun f => f.inContainer container).mapM (fun f => buildFileChange m.env f contents news) = .error e) ∨
    ∃ changes changes', files.mapM (fun f => buildFileChange m.env f contents news) = .ok changes ∧
      (files.map fun f => f.inContainer container).mapM (fun f => buildFileChange m.env f contents news) = .ok changes' ∧
      changes'.map FileChange.told = changes.map FileChange.told ∧
      changes.map FileChange.fileChangeId = files.map FileRequest.operationId ∧
      ∀ f ∈ files, f.path.str.length ≤ 512 := by
  induction files with
  | nil => exact .inr ⟨[], [], rfl, rfl, rfl, rfl, nofun⟩
  | cons f files ih =>
    simp only [map_cons, mapM_cons]
    rcases @buildFileChange_inContainer m container f contents news with
      ⟨e, hx, hy⟩ | ⟨change, change', hx, hy, htold, hid, hshort⟩
    · rw [hx, hy]
      exact .inl ⟨e, rfl, rfl⟩
    · rw [hx, hy]
      rcases ih with ⟨e, hxs, hys⟩ | ⟨changes, changes', hxs, hys, htolds, hids, hshorts⟩
      · rw [hxs, hys]
        exact .inl ⟨e, rfl, rfl⟩
      · rw [hxs, hys]
        refine .inr ⟨change :: changes, change' :: changes', rfl, rfl, ?_, ?_, ?_⟩
        · rw [map_cons, map_cons, htold, htolds]
        · rw [map_cons, hid, hids]
        · exact forall_mem_cons.mpr ⟨hshort, hshorts⟩

lemma createChangeset_fresh {j j' : Journal} {cs : ChangeSet} (h : j.createChangeset cs = .ok j') :
    j.get cs.changesetId = none ∧ (cs.files.map FileChange.fileChangeId ++ j.fileChangeIds).Nodup := by
  refine ⟨(Journal.createChangeset_eq_ok h).1, ?_⟩
  unfold Journal.createChangeset at h
  rw [(Journal.createChangeset_eq_ok h).1] at h
  dsimp only at h
  split_ifs at h with hnodup
  exact hnodup

/-- The journal entry is made: everything is ready, and the files are as before. -/
def Drafted (m : Manager) (rq : ChangeSetRequest) (policy : ServiceRegistration) (w : World) (_ : Locals)
    (w' : World) : Prop := Staged m rq policy w ∧ w'.files .host = w.files .host

lemma steady_drafted : Steady (Drafted m rq policy w) := by
  rintro l w₁ w₂ hfiles ⟨hstaged, hsame⟩
  refine ⟨hstaged, ?_⟩
  rw [hfiles]
  exact hsame

lemma paired_createDraft (approvalId : Option String)
    (h : Abreast m policy rq ts container (Valid m rq policy w rq.files) s t) :
    Together m policy rq ts container (Drafted m rq policy w)
      (createDraft m rq approvalId) (createDraft m (rq.inContainer container) approvalId) s t := by
  refine paired_bind (paired_get ?_)
  rw [h.1.locals.newContents, h.1.locals.newFiles]
  rcases @mapM_buildFileChange m container s.locals.newContents s.locals.newFiles rq.files with
    ⟨e, hx, hy⟩ | ⟨changes, changes', hx, hy, htold, hids, hshort⟩
  · have hy' : (rq.inContainer container).files.mapM (fun f => buildFileChange m.env f s.locals.newContents
        s.locals.newFiles) = .error e := hy
    rw [hx, hy']
    exact paired_bind (paired_ofExcept ⟨rfl, h.1⟩)
  · have hy' : (rq.inContainer container).files.mapM (fun f => buildFileChange m.env f s.locals.newContents
        s.locals.newFiles) = .ok changes' := hy
    rw [hx, hy']
    refine paired_bind (paired_ofExcept (paired_bind (paired_call ?_)))
    have hdraft : (draft (rq.inContainer container) changes' approvalId).told = (draft rq changes approvalId).told := by
      simp only [draft, ChangeSet.told, inContainer, htold]
    rcases (told_createChangeset h.1.world.journal hdraft).cases with ⟨j, j', hj, hj', hrows⟩ | ⟨e, e', hj, hj', hflag⟩
    · simp only [perform, hj, hj']
      refine paired_bind (paired_modify ?_)
      have hworld : Mirrored container { s.world with journal := j } { t.world with journal := j' } :=
        ⟨h.1.world.files, hrows, h.1.world.vault⟩
      have halike : Alike m policy rq ts container { s.locals with changesetCreated := true }
          { t.locals with changesetCreated := true } := { h.1.locals with changesetCreated := rfl }
      have hcreated := createChangeset_fresh hj
      rw [h.2.journal] at hcreated
      have hfresh : (rq.files.map FileRequest.operationId ++ w.journal.fileChangeIds).Nodup := hids ▸ hcreated.2
      have hstaged : Staged m rq policy w := ⟨h.2.accepted, h.2.replaced, h.2.validated, hshort, hcreated.1, hfresh⟩
      refine paired_emitChangesetEvent ⟨⟨halike, hworld, h.1.confined.cons ?_⟩, hstaged, h.2.files⟩ _ _ _
      rintro _ ⟨⟩
    · simp only [perform, hj, hj']
      exact h.1.fail hflag rfl

end Preparation

section Backups
variable {m : Manager} {policy : ServiceRegistration} {rq : ChangeSetRequest} {ts container : String} {w : World}
  {s t : Side} {P : Locals → World → Prop}

lemma paired_vaultStore (hP : Steady P) (h : Abreast m policy rq ts container P s t)
    (targetId incidentId changesetId : String) (path : Path) (content : Bytes) :
    Routine.Paired (faultless m.env) (call .apply (.vaultStore targetId incidentId changesetId path content))
      (call .apply (.vaultStore targetId incidentId changesetId path content))
      (fun ref ref' s t => ref = ref' ∧ Abreast m policy rq ts container P s t) (Failing m policy rq ts container) s t := by
  refine paired_call ?_
  simp only [perform, h.1.world.vault]
  have hworld : ∀ vault, Mirrored container { s.world with vault := vault } { t.world with vault := vault } :=
    fun _ => ⟨h.1.world.files, h.1.world.journal, rfl⟩
  refine ⟨trivial, h.1.call (hworld _) ?_, hP _ s.world _ rfl h.2⟩
  rintro _ ⟨⟩

lemma paired_vaultLoad (h : Abreast m policy rq ts container P s t) (ref : BackupReference) :
    Routine.Paired (faultless m.env) (call .apply (.vaultLoad ref)) (call .apply (.vaultLoad ref))
      (fun loaded loaded' s t => loaded = loaded' ∧ Abreast m policy rq ts container P s t)
      (Failing m policy rq ts container) s t := by
  refine paired_call ?_
  simp only [perform, h.1.world.vault]
  cases s.world.vault ref.directory ref.name with
  | none => exact h.1.fail rfl rfl
  | some content =>
    dsimp only
    by_cases hsame : m.env.sha256 content = ref.sha256
    · simp only [if_pos hsame]
      refine ⟨trivial, h.look ?_⟩
      rintro _ ⟨⟩
    · simp only [if_neg hsame]
      exact h.1.fail rfl rfl

lemma paired_backUpLocally (hP : Steady P) (f : FileRequest) (h : Abreast m policy rq ts container P s t) :
    Together m policy rq ts container P
      (backUpLocally rq f) (backUpLocally (rq.inContainer container) (f.inContainer container)) s t := by
  have hrecord : ∀ ref ref' : BackupReference, ∀ s t, ref = ref' ∧ Abreast m policy rq ts container P s t →
      Together m policy rq ts container P
        (call (σ := Locals) .apply (.updateFileChange rq.changesetId f.operationId { localBackupRef := some ref.name }))
        (call (σ := Locals) .apply (.updateFileChange rq.changesetId f.operationId { localBackupRef := some ref'.name })) s t := by
    rintro ref _ s t ⟨rfl, h⟩
    exact paired_updateFileChange hP h _ _ (.refl _)
  refine paired_bind (paired_get ?_)
  have hnews : (f.inContainer container).path ∈ t.locals.newFiles ↔ f.path ∈ s.locals.newFiles := by
    rw [h.1.locals.newFiles]
    exact Iff.rfl
  by_cases hnew : f.path ∈ s.locals.newFiles
  · simp only [if_pos hnew, if_pos (hnews.mpr hnew)]
    exact paired_bind (paired_mono (paired_vaultStore hP h _ _ _ _ _) hrecord fun _ _ _ _ => id)
  · simp only [if_neg hnew, if_neg fun h => hnew (hnews.mp h), h.1.locals.originalContents]
    refine paired_bind (paired_ofExcept_self ?_ fun e _ => ⟨rfl, h.1⟩)
    intro original _
    refine paired_bind (paired_mono (paired_vaultStore hP h _ _ _ _ _) ?_ fun _ _ _ _ => id)
    rintro ref _ s' t' ⟨rfl, h'⟩
    refine paired_bind (paired_mono (paired_vaultLoad h' ref) ?_ fun _ _ _ _ => id)
    rintro loaded _ s'' t'' ⟨rfl, h''⟩
    by_cases hsame : loaded = original
    · simp only [if_pos hsame]
      exact paired_bind (paired_pure (hrecord ref ref s'' t'' ⟨rfl, h''⟩))
    · simp only [if_neg hsame]
      exact paired_bind (paired_throw ⟨rfl, h''.1⟩)

lemma paired_lookup {α β : Type} {R : Path → α → β → Prop} {d : Dict Path α} {d' : Dict Path β} {key : Path}
    (hd : Dict.Related R d d') {Q : α → β → Side → Side → Prop} {X : Exc → Exc → Side → Side → Prop}
    (hok : ∀ a b, R key a b → Q a b s t) (herror : ∀ e, X e e s t) :
    Routine.Paired (faultless m.env) (ofExcept (lookup d key)) (ofExcept (lookup d' key)) Q X s t := by
  refine paired_ofExcept ?_
  unfold lookup
  have hget := hd.get? key
  generalize d.get? key = x at hget
  generalize d'.get? key = y at hget
  cases hget with
  | none => exact herror _
  | some hvalue => exact hok _ _ hvalue

lemma paired_lookup_eq {α : Type} {d d' : Dict Path α} {key : Path} (hd : d' = d) {Q : α → α → Side → Side → Prop}
    {X : Exc → Exc → Side → Side → Prop} (hok : ∀ a, lookup d key = .ok a → Q a a s t) (herror : ∀ e, X e e s t) :
    Routine.Paired (faultless m.env) (ofExcept (lookup d key)) (ofExcept (lookup d' key)) Q X s t := by
  subst hd
  exact paired_ofExcept_self hok fun e _ => herror e

lemma Mirrored.setFile {w w' : World} (h : Mirrored container w w') (location : Path) (entry : Option Entry) :
    Mirrored container (w.setFile .host location entry) (w'.setFile (.container container) location entry) := by
  refine ⟨?_, h.journal, h.vault⟩
  unfold World.setFile
  simp only [Function.update_self, h.files]

lemma Points.loc_onHost {place : Path → Path} {path p q : Path} (h : Points m policy rq container place path p q)
    (hplace : m.env.layout.loc .host (place path) = place path) : m.env.layout.loc .host p = place path := by
  rw [h.onHost, hplace]

lemma loc_location (hhost : rq.context.scope = .host) (path : Path) :
    m.env.layout.loc .host (rq.location m.env path) = rq.location m.env path := by
  rw [location_host hhost, Layout.loc_loc]

lemma loc_backupLocation (hhost : rq.context.scope = .host) (path : Path) :
    m.env.layout.loc .host (rq.backupLocation m.env ts path) = rq.backupLocation m.env ts path := by
  rw [backupLocation, Layout.loc_backupPath, loc_location hhost]

lemma loc_tempLocation (hhost : rq.context.scope = .host) (path : Path) :
    m.env.layout.loc .host (rq.tempLocation m.env path) = rq.tempLocation m.env path := by
  rw [tempLocation, Layout.loc_tempPath, loc_location hhost]

lemma Points.backup {path p q : Path} (h : Points m policy rq container (rq.location m.env) path p q) :
    Points m policy rq container (rq.backupLocation m.env ts) path (backupPath p ts) (backupPath q ts) := by
  refine ⟨by rw [h.onHost, backupLocation], ?_, h.within⟩
  rw [Layout.loc_backupPath, h.inContainer, backupLocation]

lemma Points.temp {path p q : Path} (h : Points m policy rq container (rq.location m.env) path p q) :
    Points m policy rq container (rq.tempLocation m.env) path (tempPath p rq.changesetId) (tempPath q rq.changesetId) := by
  refine ⟨by rw [h.onHost, tempLocation], ?_, h.within⟩
  rw [Layout.loc_tempPath, h.inContainer, tempLocation]

section Places
variable {path : Path} (hin : Within m policy rq container path)
include hin

lemma inside_location : Inside m policy rq ts container (rq.location m.env path) := ⟨path, hin, by simp⟩

lemma inside_temp : Inside m policy rq ts container (rq.tempLocation m.env path) := ⟨path, hin, by simp⟩

lemma inside_backup : Inside m policy rq ts container (rq.backupLocation m.env ts path) := ⟨path, hin, by simp⟩

end Places

def Vacant (m : Manager) (rq : ChangeSetRequest) (written : List FileRequest) (_ : Locals) (w' : World) : Prop :=
  ∀ f ∈ rq.files, (∀ g ∈ written, rq.tempLocation m.env g.path ≠ rq.tempLocation m.env f.path) →
    w'.files .host (rq.tempLocation m.env f.path) = none

lemma steady_vacant (written : List FileRequest) : Steady (Vacant m rq written) := by
  intro l w₁ w₂ hfiles h f hf hwritten
  rw [hfiles]
  exact h f hf hwritten

lemma paired_backUpRemotely (hhost : rq.context.scope = .host) (hclear : Clear m rq ts w) {f : FileRequest}
    (hf : f ∈ rq.files) (h : Abreast m policy rq ts container (Vacant m rq []) s t) :
    Together m policy rq ts container (Vacant m rq [])
      (backUpRemotely rq ts f) (backUpRemotely (rq.inContainer container) ts (f.inContainer container)) s t := by
  have hscope := scope_host hhost hf
  refine paired_bind (paired_get ?_)
  have hnews : (f.inContainer container).path ∈ t.locals.newFiles ↔ f.path ∈ s.locals.newFiles := by
    rw [h.1.locals.newFiles]
    exact Iff.rfl
  by_cases hnew : f.path ∈ s.locals.newFiles
  · rw [if_pos hnew, if_pos (hnews.mpr hnew)]
    exact paired_pure h
  · rw [if_neg hnew, if_neg fun h => hnew (hnews.mp h), h.1.locals.originalContents]
    refine paired_bind (paired_lookup h.1.locals.canonicalPaths ?_ fun e => ⟨rfl, h.1⟩)
    intro p q hpoints
    refine paired_bind (paired_ofExcept_self ?_ fun e _ => ⟨rfl, h.1⟩)
    intro original _
    have hbackup := @Points.backup m policy rq ts container _ _ _ hpoints
    refine paired_bind (paired_call ?_)
    simp only [perform, hscope, FileRequest.inContainer, hpoints.loc_onHost (loc_location hhost _), hpoints.inContainer,
      hbackup.loc_onHost (loc_backupLocation hhost _), hbackup.inContainer, h.1.world.files]
    have hcopied : ∀ location ∈ Op.accesses m.env (.copyFile (.container container) q (backupPath q ts)),
        Inside m policy rq ts container location := by
      intro location hmem
      simp only [Op.accesses, hpoints.inContainer, hbackup.inContainer, mem_cons, not_mem_nil, or_false] at hmem
      rcases hmem with rfl | rfl
      · exact inside_location hpoints.within
      · exact inside_backup hpoints.within
    cases hentry : s.world.files .host (rq.location m.env f.path) with
    | none => exact ⟨rfl, h.1.call h.1.world hcopied⟩
    | some entry =>
      dsimp only
      refine paired_bind (paired_call ?_)
      have hread : ∀ location ∈ Op.accesses m.env (.readBytes (.container container) (backupPath q ts) maxChangeFileBytes),
          Inside m policy rq ts container location := by
        intro location hmem
        rw [Op.accesses, mem_singleton, hbackup.inContainer] at hmem
        rw [hmem]
        exact inside_backup hpoints.within
      have hworld := h.1.world.setFile (rq.backupLocation m.env ts f.path) (some entry)
      have hvacant : Vacant m rq [] s.locals (s.world.setFile .host (rq.backupLocation m.env ts f.path) (some entry)) := by
        intro g hg hwritten
        rw [World.files_setFile, if_neg fun hsame => hclear.apart g hg f hf hsame.2]
        exact h.2 g hg hwritten
      have hthere : (s.world.setFile .host (rq.backupLocation m.env ts f.path) (some entry)).files .host
          (rq.backupLocation m.env ts f.path) = some entry := by
        rw [World.files_setFile, if_pos ⟨rfl, rfl⟩]
      simp only [perform, hscope, hbackup.loc_onHost (loc_backupLocation hhost _), hbackup.inContainer, hworld.files,
        hthere]
      by_cases hsame : entry.content.take maxChangeFileBytes = original
      · simp only [if_pos hsame]
        refine paired_bind (paired_modify ?_)
        have halike : Alike m policy rq ts container
            { s.locals with backupPaths := s.locals.backupPaths.set f.path (backupPath p ts) }
            { t.locals with backupPaths := t.locals.backupPaths.set f.path (backupPath q ts) } :=
          { h.1.locals with backupPaths := h.1.locals.backupPaths.set hbackup }
        refine paired_updateFileChange (steady_vacant []) ⟨⟨halike, hworld, (h.1.confined.cons hcopied).cons hread⟩,
          hvacant⟩ _ _ ⟨?_, rfl⟩
        simp
      · simp only [if_neg hsame]
        exact paired_throw ⟨rfl, h.1.locals, hworld, (h.1.confined.cons hcopied).cons hread⟩

lemma paired_writeTemp (hhost : rq.context.scope = .host) (hclear : Clear m rq ts w) {done rest : List FileRequest}
    {f : FileRequest} (hfiles : rq.files = done ++ f :: rest)
    (h : Abreast m policy rq ts container (Vacant m rq done) s t) :
    Together m policy rq ts container (Vacant m rq (done ++ [f]))
      (writeTemp rq f) (writeTemp (rq.inContainer container) (f.inContainer container)) s t := by
  have hf : f ∈ rq.files := by simp [hfiles]
  have hscope := scope_host hhost hf
  have hnone : s.world.files .host (rq.tempLocation m.env f.path) = none := by
    refine h.2 f hf fun g hg hsame => ?_
    have hdistinct := hclear.distinct
    rw [hfiles, map_append, map_cons, nodup_append] at hdistinct
    exact hdistinct.2.2 _ (mem_map.mpr ⟨g, hg, rfl⟩) _ mem_cons_self hsame
  unfold writeTemp
  simp only [path_inContainer, operationId_inContainer, scope_inContainer, changesetId_inContainer]
  refine paired_bind (paired_get ?_)
  refine paired_bind (paired_lookup h.1.locals.canonicalPaths ?_ fun e => ⟨rfl, h.1⟩)
  intro p q hpoints
  have htemp := hpoints.temp
  refine paired_bind (paired_modify ?_)
  have halike : Alike m policy rq ts container
      { s.locals with tempPaths := s.locals.tempPaths.set f.path (tempPath p rq.changesetId) }
      { t.locals with tempPaths := t.locals.tempPaths.set f.path (tempPath q rq.changesetId) } :=
    { h.1.locals with tempPaths := h.1.locals.tempPaths.set htemp }
  refine paired_bind (paired_lookup_eq h.1.locals.newContents ?_ fun e => ⟨rfl, halike, h.1.world, h.1.confined⟩)
  intro content _
  refine paired_bind (paired_lookup_eq h.1.locals.originalModes ?_ fun e => ⟨rfl, halike, h.1.world, h.1.confined⟩)
  intro mode _
  have hwrite : ∀ location ∈ Op.accesses m.env (.writeBytes (.container container) (tempPath q rq.changesetId) content
      mode true), Inside m policy rq ts container location := by
    intro location hmem
    simp only [Op.accesses, Op.touches, htemp.inContainer, mem_singleton] at hmem
    rw [hmem]
    exact inside_temp hpoints.within
  have hworld := h.1.world.setFile (rq.tempLocation m.env f.path) (some ⟨content, mode⟩)
  have hhostWrite : perform m.env (.writeBytes f.scope (tempPath p rq.changesetId) content mode true) s.world =
      (.ok (), s.world.setFile .host (rq.tempLocation m.env f.path) (some ⟨content, mode⟩)) := by
    simp [perform, hscope, htemp.loc_onHost (loc_tempLocation hhost _), hnone]
  have hcontainerWrite : perform m.env (.writeBytes (.container container) (tempPath q rq.changesetId) content mode true)
      t.world = (.ok (), t.world.setFile (.container container) (rq.tempLocation m.env f.path) (some ⟨content, mode⟩)) := by
    simp [perform, htemp.inContainer]
  refine paired_bind (paired_call_ok hhostWrite hcontainerWrite (paired_bind (paired_modify ?_)))
  dsimp only
  have halike' : Alike m policy rq ts container { s.locals with
        tempPaths := s.locals.tempPaths.set f.path (tempPath p rq.changesetId)
        writtenTemps := f.path :: s.locals.writtenTemps }
      { t.locals with
        tempPaths := t.locals.tempPaths.set f.path (tempPath q rq.changesetId)
        writtenTemps := f.path :: t.locals.writtenTemps } :=
    { halike with writtenTemps := by rw [h.1.locals.writtenTemps] }
  have hvacant : Vacant m rq (done ++ [f]) s.locals
      (s.world.setFile .host (rq.tempLocation m.env f.path) (some ⟨content, mode⟩)) := by
    intro g hg hwritten
    have hother : rq.tempLocation m.env g.path ≠ rq.tempLocation m.env f.path :=
      (hwritten f (mem_append_right _ (mem_singleton.mpr rfl))).symm
    rw [World.files_setFile, if_neg fun hsame => hother hsame.2]
    exact h.2 g hg fun g' hg' => hwritten g' (mem_append_left _ hg')
  have htold : FileChangePatch.Told { tempPath := some (tempPath p rq.changesetId) }
      { tempPath := some (tempPath q rq.changesetId) } := ⟨by simp, rfl⟩
  refine paired_updateFileChange (steady_vacant _) ?_ rq.changesetId f.operationId htold
  refine ⟨⟨halike', hworld, ?_⟩, hvacant⟩
  exact h.1.confined.cons hwrite

end Backups

section Placement
variable {m : Manager} {policy : ServiceRegistration} {rq : ChangeSetRequest} {ts container : String} {w : World}
  {s t : Side}

/-- Nothing more is known of the host. -/
abbrev Anything (_ : Locals) (_ : World) : Prop := True

lemma steady_anything : Steady Anything := fun _ _ _ _ _ => trivial

lemma Beside.abreast (h : Beside m policy rq ts container s t) : Abreast m policy rq ts container Anything s t :=
  ⟨h, trivial⟩

lemma Beside.left (h : Beside m policy rq ts container s t) (tr : History) :
    Beside m policy rq ts container ⟨s.locals, tr, s.world⟩ t := ⟨h.locals, h.world, h.confined⟩

lemma paired_checkCompose (hhost : rq.context.scope = .host) (hclear : Clear m rq ts w) {f : FileRequest}
    (hf : f ∈ rq.files) (h : Abreast m policy rq ts container Anything s t) :
    Together m policy rq ts container Anything (checkCompose f) (checkCompose (f.inContainer container)) s t := by
  have hscope := scope_host hhost hf
  unfold checkCompose
  rw [path_inContainer, scope_inContainer]
  by_cases hcompose : isComposeYaml f.path = true
  · simp only [if_pos hcompose]
    refine paired_bind (paired_get ?_)
    refine paired_bind (paired_lookup h.1.locals.tempPaths ?_ fun e => ⟨rfl, h.1⟩)
    intro p q hpoints
    simp only [hscope, if_true, reduceCtorEq, if_false]
    refine paired_left (exec_call _ _ _ _) ?_
    have hvalid := hclear.composed f hf hcompose
    simp only [perform, hpoints.onHost, hvalid, if_true]
    exact paired_pure (h.1.left _).abreast
  · simp only [if_neg hcompose]
    exact paired_pure h

lemma paired_consumeApproval (protectedPaths : List Path) (approvalId : Option String)
    (h : Abreast m policy rq ts container Anything s t) : Together m policy rq ts container Anything
      (consumeApproval m rq protectedPaths approvalId)
      (consumeApproval m (rq.inContainer container) protectedPaths approvalId) s t := by
  have hpaths : (rq.inContainer container).files.map FileRequest.path = rq.files.map FileRequest.path := by
    simp [inContainer, map_map, path_inContainer]
  unfold consumeApproval
  rw [hpaths]
  dsimp only
  by_cases hprotected : (rq.files.map FileRequest.path).filter (fun path => isProtectedPath path protectedPaths) = []
  · rw [if_pos hprotected, if_pos hprotected]
    exact paired_pure h
  · rw [if_neg hprotected, if_neg hprotected]
    cases approvalId with
    | none => exact paired_throw ⟨rfl, h.1⟩
    | some approvalId =>
      dsimp only
      by_cases happrovals : m.approvals = true
      · rw [if_pos happrovals, if_pos happrovals]
        refine paired_call ?_
        exact h.look nofun
      · rw [if_neg happrovals, if_neg happrovals]
        exact paired_throw ⟨rfl, h.1⟩

lemma fileReqByPath_inContainer (path : Path) :
    (∃ e, fileReqByPath rq path = .error e ∧ fileReqByPath (rq.inContainer container) path = .error e) ∨
    ∃ f, fileReqByPath rq path = .ok f ∧
      fileReqByPath (rq.inContainer container) path = .ok (f.inContainer container) := by
  have hfind : (rq.inContainer container).files.find? (fun f => f.path = path) =
      (rq.files.find? fun f => f.path = path).map fun f => f.inContainer container := by
    simp only [inContainer, find?_map, Function.comp_def, path_inContainer]
    rfl
  unfold fileReqByPath
  rw [hfind]
  cases rq.files.find? fun f => f.path = path with
  | none => exact .inl ⟨_, rfl, rfl⟩
  | some f => exact .inr ⟨f, rfl, rfl⟩

lemma paired_fileReqByPath (path : Path) {Q : FileRequest → FileRequest → Side → Side → Prop}
    {X : Exc → Exc → Side → Side → Prop} (hok : ∀ f, Q f (f.inContainer container) s t) (herror : ∀ e, X e e s t) :
    Routine.Paired (faultless m.env) (ofExcept (fileReqByPath rq path))
      (ofExcept (fileReqByPath (rq.inContainer container) path)) Q X s t := by
  refine paired_ofExcept ?_
  rcases @fileReqByPath_inContainer rq container path with ⟨e, hx, hy⟩ | ⟨f, hx, hy⟩
  · rw [hx, hy]
    exact herror e
  · rw [hx, hy]
    exact hok f

lemma paired_recheckOriginal (path : Path) (h : Abreast m policy rq ts container Anything s t) :
    Together m policy rq ts container Anything
      (recheckOriginal m rq path) (recheckOriginal m (rq.inContainer container) path) s t := by
  refine paired_bind (paired_get ?_)
  refine paired_bind (paired_fileReqByPath path ?_ fun e => ⟨rfl, h.1⟩)
  intro f
  have hsha : (f.inContainer container).expectedSha256 = f.expectedSha256 := rfl
  rw [hsha]
  cases f.expectedSha256 with
  | none => exact paired_pure h
  | some expected =>
    dsimp only
    refine paired_bind (paired_lookup h.1.locals.canonicalPaths ?_ fun e => ⟨rfl, h.1⟩)
    intro p q _
    refine paired_bind (paired_lookup_eq h.1.locals.originalContents ?_ fun e => ⟨rfl, h.1⟩)
    intro original _
    refine paired_ofExcept ?_
    unfold checkSha
    split_ifs
    · exact h
    · exact ⟨rfl, h.1⟩

lemma paired_rename {origin : Origin} {scope scope' : RemoteScope} (hscope : scope = .host)
    (hscope' : scope' = .container container) {source target p q p' q' : Path}
    (hp : m.env.layout.loc .host p = source) (hq : m.env.layout.loc (.container container) q = source)
    (hp' : m.env.layout.loc .host p' = target) (hq' : m.env.layout.loc (.container container) q' = target)
    (hsource : Inside m policy rq ts container source) (htarget : Inside m policy rq ts container target)
    (h : Abreast m policy rq ts container Anything s t) : Together m policy rq ts container Anything
      (call origin (.rename scope p p')) (call origin (.rename scope' q q')) s t := by
  subst hscope
  subst hscope'
  have hinside : ∀ location ∈ Op.accesses m.env (.rename (.container container) q q'),
      Inside m policy rq ts container location := by
    intro location hmem
    simp only [Op.accesses, Op.touches, hq, hq', mem_cons, not_mem_nil, or_false] at hmem
    rcases hmem with rfl | rfl
    · exact hsource
    · exact htarget
  refine paired_call ?_
  simp only [perform, hp, hq, hp', hq', h.1.world.files]
  cases s.world.files .host source with
  | none => exact ⟨rfl, h.1.call h.1.world hinside⟩
  | some entry =>
    exact (h.1.call ((h.1.world.setFile source none).setFile target (some entry)) hinside).abreast

lemma paired_removeFile {origin : Origin} {scope scope' : RemoteScope} (hscope : scope = .host)
    (hscope' : scope' = .container container) {place p q : Path} (hp : m.env.layout.loc .host p = place)
    (hq : m.env.layout.loc (.container container) q = place) (hplace : Inside m policy rq ts container place)
    (h : Abreast m policy rq ts container Anything s t) : Together m policy rq ts container Anything
      (call origin (.removeFile scope p)) (call origin (.removeFile scope' q)) s t := by
  subst hscope
  subst hscope'
  have hinside : ∀ location ∈ Op.accesses m.env (.removeFile (.container container) q),
      Inside m policy rq ts container location := by
    intro location hmem
    simp only [Op.accesses, Op.touches, hq, mem_singleton] at hmem
    rw [hmem]
    exact hplace
  refine paired_call ?_
  simp only [perform, hp, hq, h.1.world.files]
  cases s.world.files .host place with
  | none => exact ⟨rfl, h.1.call h.1.world hinside⟩
  | some entry => exact (h.1.call (h.1.world.setFile place none) hinside).abreast

lemma paired_renameIntoPlace (hhost : rq.context.scope = .host) (path : Path)
    (h : Abreast m policy rq ts container Anything s t) : Together m policy rq ts container Anything
      (renameIntoPlace m rq path) (renameIntoPlace m (rq.inContainer container) path) s t := by
  unfold renameIntoPlace
  refine paired_bind (paired_get ?_)
  refine paired_bind (paired_fileReqByPath path ?_ fun e => ⟨rfl, h.1⟩)
  intro f
  rw [operationId_inContainer, changesetId_inContainer]
  refine paired_bind (paired_lookup h.1.locals.backends ?_ fun e => ⟨rfl, h.1⟩)
  rintro scope scope' ⟨hscope, hscope'⟩
  refine paired_bind (paired_lookup h.1.locals.tempPaths ?_ fun e => ⟨rfl, h.1⟩)
  intro temp temp' htemp
  refine paired_bind (paired_lookup h.1.locals.canonicalPaths ?_ fun e => ⟨rfl, h.1⟩)
  intro p q hpoints
  refine paired_bind (paired_mono (paired_rename hscope hscope'
    (htemp.loc_onHost (loc_tempLocation hhost _)) htemp.inContainer (hpoints.loc_onHost (loc_location hhost _))
    hpoints.inContainer (inside_temp hpoints.within) (inside_location hpoints.within) h) ?_ fun _ _ _ _ => id)
  intro _ _ s' t' h'
  refine paired_bind (paired_modify ?_)
  have halike : Alike m policy rq ts container { s'.locals with appliedFiles := s'.locals.appliedFiles ++ [path] }
      { t'.locals with appliedFiles := t'.locals.appliedFiles ++ [path] } :=
    { h'.1.locals with appliedFiles := by rw [h'.1.locals.appliedFiles] }
  have happlied : Abreast m policy rq ts container Anything
      ⟨{ s'.locals with appliedFiles := s'.locals.appliedFiles ++ [path] }, s'.history, s'.world⟩
      ⟨{ t'.locals with appliedFiles := t'.locals.appliedFiles ++ [path] }, t'.history, t'.world⟩ :=
    ⟨⟨halike, h'.1.world, h'.1.confined⟩, trivial⟩
  refine paired_bind (paired_lookup_eq h.1.locals.validationResults ?_ fun e => ⟨rfl, happlied.1⟩)
  intro result _
  refine paired_bind (paired_mono (paired_updateFileChange steady_anything happlied _ _ (.refl _)) ?_
    fun _ _ _ _ => id)
  intro _ _ s'' t'' h''
  rw [h.1.locals.appliedFiles]
  split_ifs
  · exact paired_transition steady_anything h'' _ _
  · exact paired_pure h''

lemma paired_files {f g : FileRequest → M Locals Unit} (I : List FileRequest → Locals → World → Prop)
    (hstep : ∀ done x rest, rq.files = done ++ x :: rest → ∀ s t, Abreast m policy rq ts container (I done) s t →
      Together m policy rq ts container (I (done ++ [x])) (f x) (g (x.inContainer container)) s t)
    (h : Abreast m policy rq ts container (I []) s t) :
    Together m policy rq ts container (I rq.files)
      (rq.files.forM f) ((rq.inContainer container).files.forM g) s t := by
  refine paired_forM (forall₂_inContainer rq.files) (fun done => Abreast m policy rq ts container (I done))
    ?_ h fun _ _ => id
  rintro done x rest _ hfiles rfl s t h
  exact hstep done x rest hfiles s t h

lemma paired_paths {f g : Path → M Locals Unit} (paths : List Path)
    (hstep : ∀ path, ∀ s t, Abreast m policy rq ts container Anything s t → Together m policy rq ts container Anything
        (f path) (g path) s t) (h : Abreast m policy rq ts container Anything s t) :
    Together m policy rq ts container Anything (paths.forM f) (paths.forM g) s t := by
  refine paired_forM (forall₂_same.mpr fun _ _ => rfl)
    (fun _ => Abreast m policy rq ts container Anything) ?_ h fun _ _ => id
  rintro done path rest _ - rfl s t h
  exact hstep path s t h

lemma paired_applySteps (hhost : rq.context.scope = .host) (htwin : Twin m rq container w)
    (hnamed : container ∈ policy.containerNames) (hroots : policy.allowedContainerPaths = policy.allowedHostPaths)
    (hportable : Portable m rq ts policy w) (protectedPaths : List Path) (approvalId : Option String)
    (h : Abreast m policy rq ts container (Passed m rq policy w [] []) s t) :
    Routine.Paired (faultless m.env) (applySteps m rq policy protectedPaths approvalId ts)
      (applySteps m (rq.inContainer container) policy protectedPaths approvalId ts)
      (fun r r' s t => r'.told = r.told ∧ Beside m policy rq ts container s t) (Failing m policy rq ts container) s t := by
  unfold applySteps
  rw [changesetId_inContainer]
  have hpreflight := @paired_files m policy rq ts container s t (preflight m policy) (preflight m policy)
    (fun done => Passed m rq policy w done [])
    (fun _ _ _ hfiles _ _ h => paired_preflight hhost htwin hnamed hroots hportable hfiles h) h
  refine paired_bind (paired_mono hpreflight ?_ fun _ _ _ _ => id)
  intro _ _ s t h
  have hcompute := @paired_files m policy rq ts container s t computeReplacement computeReplacement
    (Computed m rq policy w) (fun _ _ _ hfiles _ _ h => paired_computeReplacement hfiles h) ⟨h.1, h.2, nofun⟩
  refine paired_bind (paired_mono hcompute ?_ fun _ _ _ _ => id)
  intro _ _ s t h
  have hvalidate := @paired_files m policy rq ts container s t (validate m) (validate m)
    (Valid m rq policy w) (fun _ _ _ _ _ _ h => paired_validate h) ⟨h.1, h.2, nofun⟩
  refine paired_bind (paired_mono hvalidate ?_ fun _ _ _ _ => id)
  intro _ _ s t h
  refine paired_bind (paired_mono (paired_createDraft approvalId h) ?_ fun _ _ _ _ => id)
  intro _ _ s t h
  refine paired_bind (paired_mono (paired_transition steady_drafted h _ _) ?_ fun _ _ _ _ => id)
  intro _ _ s t h
  have hlocal := @paired_files m policy rq ts container s t (backUpLocally rq) (backUpLocally (rq.inContainer container))
    (fun _ => Drafted m rq policy w) (fun _ f _ _ _ _ h => paired_backUpLocally steady_drafted f h) h
  refine paired_bind (paired_mono hlocal ?_ fun _ _ _ _ => id)
  intro _ _ s t h
  refine paired_bind (paired_mono (paired_transition steady_drafted h _ _) ?_ fun _ _ _ _ => id)
  intro _ _ s t h
  -- everything is ready, so nothing is in the way of the temporary files
  have hclear := hportable.clear h.2.1
  have hvacant : Vacant m rq [] s.locals s.world := by
    intro f hf _
    have habsent := hclear.absent f hf
    rw [hhost] at habsent
    rw [h.2.2, habsent]
  have hremote := @paired_files m policy rq ts container s t (backUpRemotely rq ts)
    (backUpRemotely (rq.inContainer container) ts) (fun _ => Vacant m rq [])
    (fun _ f _ hfiles _ _ h => paired_backUpRemotely hhost hclear (by simp [hfiles]) h) ⟨h.1, hvacant⟩
  refine paired_bind (paired_mono hremote ?_ fun _ _ _ _ => id)
  intro _ _ s t h
  refine paired_bind (paired_mono (paired_transition (steady_vacant []) h _ _) ?_ fun _ _ _ _ => id)
  intro _ _ s t h
  have hwrite := @paired_files m policy rq ts container s t (writeTemp rq) (writeTemp (rq.inContainer container))
    (Vacant m rq) (fun _ _ _ hfiles _ _ h => paired_writeTemp hhost hclear hfiles h) h
  refine paired_bind (paired_mono hwrite ?_ fun _ _ _ _ => id)
  intro _ _ s t h
  have hcompose := @paired_files m policy rq ts container s t checkCompose checkCompose (fun _ => Anything)
    (fun _ f _ hfiles _ _ h => paired_checkCompose hhost hclear (by simp [hfiles]) h) h.1.abreast
  refine paired_bind (paired_mono hcompose ?_ fun _ _ _ _ => id)
  intro _ _ s t h
  refine paired_bind (paired_mono (paired_consumeApproval protectedPaths approvalId h) ?_
    fun _ _ _ _ => id)
  intro _ _ s t h
  refine paired_bind (paired_get ?_)
  rw [h.1.locals.canonicalPaths.keys_eq, h.1.locals.tempPaths.keys_eq]
  have hrecheck := paired_paths (f := recheckOriginal m rq) (g := recheckOriginal m (rq.inContainer container))
    (sortedPaths s.locals.canonicalPaths.keys) (fun path _ _ h => paired_recheckOriginal path h) h
  refine paired_bind (paired_mono hrecheck ?_ fun _ _ _ _ => id)
  intro _ _ s' t' h'
  have hrename := paired_paths (f := renameIntoPlace m rq) (g := renameIntoPlace m (rq.inContainer container))
    (sortedPaths s.locals.tempPaths.keys) (fun path _ _ h => paired_renameIntoPlace hhost path h) h'
  refine paired_bind (paired_mono hrename ?_ fun _ _ _ _ => id)
  intro _ _ s'' t'' h''
  refine paired_bind (paired_mono (paired_emitChangesetEvent h'' _ _ _) ?_ fun _ _ _ _ => id)
  intro _ _ s₃ t₃ h₃
  refine paired_bind (paired_get (paired_pure ⟨?_, h₃.1⟩))
  simp only [ChangeResult.told, h₃.1.locals.appliedFiles]

end Placement

section Failures
variable {m : Manager} {policy : ServiceRegistration} {rq : ChangeSetRequest} {ts container : String} {s t : Side}

lemma paired_restoreFile (hhost : rq.context.scope = .host) (path : Path)
    (h : Abreast m policy rq ts container Anything s t) : Together m policy rq ts container Anything
      (restoreFile rq path) (restoreFile (rq.inContainer container) path) s t := by
  unfold restoreFile
  refine paired_bind (paired_get ?_)
  refine paired_bind (paired_fileReqByPath path ?_ fun e => ⟨rfl, h.1⟩)
  intro f
  rw [operationId_inContainer, changesetId_inContainer]
  refine paired_bind (paired_lookup h.1.locals.backends ?_ fun e => ⟨rfl, h.1⟩)
  rintro scope scope' ⟨hscope, hscope'⟩
  refine paired_bind (paired_lookup h.1.locals.canonicalPaths ?_ fun e => ⟨rfl, h.1⟩)
  intro p q hpoints
  have hrestore : Together m policy rq ts container Anything
    (if path ∈ s.locals.newFiles then do
        call .handler (.removeFile scope p)
        call .handler (.updateFileChange rq.changesetId f.operationId
          { rollbackResult := some .removed, applied := some false })
      else do
        let backup ← ofExcept (lookup s.locals.backupPaths path)
        call .handler (.rename scope backup p)
        call .handler (.updateFileChange rq.changesetId f.operationId
          { rollbackResult := some .restored, applied := some false }) : M Locals Unit)
    (if path ∈ t.locals.newFiles then do
        call .handler (.removeFile scope' q)
        call .handler (.updateFileChange rq.changesetId f.operationId
          { rollbackResult := some .removed, applied := some false })
      else do
        let backup ← ofExcept (lookup t.locals.backupPaths path)
        call .handler (.rename scope' backup q)
        call .handler (.updateFileChange rq.changesetId f.operationId
          { rollbackResult := some .restored, applied := some false }) : M Locals Unit) s t := by
    rw [h.1.locals.newFiles]
    split_ifs
    · refine paired_bind (paired_mono (paired_removeFile hscope hscope'
        (hpoints.loc_onHost (loc_location hhost _)) hpoints.inContainer (inside_location hpoints.within) h) ?_
        fun _ _ _ _ => id)
      intro _ _ s t h
      exact paired_updateFileChange steady_anything h _ _ (.refl _)
    · refine paired_bind (paired_lookup h.1.locals.backupPaths ?_ fun e => ⟨rfl, h.1⟩)
      intro backup backup' hbackup
      refine paired_bind (paired_mono (paired_rename hscope hscope'
        (hbackup.loc_onHost (loc_backupLocation hhost _)) hbackup.inContainer
        (hpoints.loc_onHost (loc_location hhost _)) hpoints.inContainer (inside_backup hpoints.within)
        (inside_location hpoints.within) h) ?_ fun _ _ _ _ => id)
      intro _ _ s t h
      exact paired_updateFileChange steady_anything h _ _ (.refl _)
  refine paired_bind (paired_attempt (paired_mono hrestore ?_ ?_))
  · intro _ _ s t h
    exact paired_pure h
  · rintro e e' s t ⟨-, hbeside⟩
    refine paired_modify ⟨⟨?_, hbeside.world, hbeside.confined⟩, trivial⟩
    exact { hbeside.locals with rollbackFailures := by rw [hbeside.locals.rollbackFailures] }

lemma paired_removeTemp (hhost : rq.context.scope = .host) {item item' : Path × Path}
    (hitem : item.1 = item'.1 ∧ Points m policy rq container (rq.tempLocation m.env) item.1 item.2 item'.2)
    (h : Abreast m policy rq ts container Anything s t) :
    Together m policy rq ts container Anything (removeTemp item) (removeTemp item') s t := by
  obtain ⟨path, p⟩ := item
  obtain ⟨path', q⟩ := item'
  obtain ⟨rfl, hpoints⟩ := hitem
  unfold removeTemp
  refine paired_bind (paired_get ?_)
  rw [h.1.locals.appliedFiles, h.1.locals.writtenTemps]
  split_ifs
  · exact paired_pure h
  · have hremove : Together m policy rq ts container Anything
        (do
          let scope ← ofExcept (lookup s.locals.backends path)
          call .handler (.removeFile scope p) : M Locals Unit)
        (do
          let scope ← ofExcept (lookup t.locals.backends path)
          call .handler (.removeFile scope q) : M Locals Unit) s t := by
      refine paired_bind (paired_lookup h.1.locals.backends ?_ fun e => ⟨rfl, h.1⟩)
      rintro scope scope' ⟨hscope, hscope'⟩
      exact paired_removeFile hscope hscope' (hpoints.loc_onHost (loc_tempLocation hhost _)) hpoints.inContainer
        (inside_temp hpoints.within) h
    refine paired_bind (paired_attempt (paired_mono hremove ?_ ?_))
    · intro _ _ s t h
      exact paired_pure h
    · rintro e e' s t ⟨-, hbeside⟩
      exact paired_pure hbeside.abreast

lemma paired_handleFailure (hhost : rq.context.scope = .host) {e e' : Exc}
    (hflag : e.isUncertainFailure = e'.isUncertainFailure) (h : Beside m policy rq ts container s t) :
    Routine.Paired (faultless m.env) (handleFailure m rq e) (handleFailure m (rq.inContainer container) e')
      (fun r r' s t => r'.told = r.told ∧ Beside m policy rq ts container s t) (Failing m policy rq ts container) s t := by
  unfold handleFailure
  rw [changesetId_inContainer]
  refine paired_bind (paired_get ?_)
  rw [h.locals.appliedFiles]
  have hrestore := paired_paths (f := restoreFile rq) (g := restoreFile (rq.inContainer container))
    s.locals.appliedFiles.reverse (fun path _ _ h => paired_restoreFile hhost path h) h.abreast
  refine paired_bind (paired_mono hrestore ?_ fun _ _ _ _ => id)
  intro _ _ s' t' h'
  have htemps : Together m policy rq ts container Anything
    (s.locals.tempPaths.forM removeTemp) (t.locals.tempPaths.forM removeTemp) s' t' := by
    refine paired_forM h.locals.tempPaths (fun _ => Abreast m policy rq ts container Anything) ?_ h'
      fun _ _ => id
    intro done item rest item' _ hitem s t h
    exact paired_removeTemp hhost hitem h
  refine paired_bind (paired_mono htemps ?_ fun _ _ _ _ => id)
  intro _ _ s'' t'' h''
  refine paired_bind (paired_get ?_)
  rw [h''.1.locals.appliedFiles, h''.1.locals.rollbackFailures, h''.1.locals.changesetCreated]
  have hresult : ∀ (rolledBack : Bool) s t, Abreast m policy rq ts container Anything s t →
      Routine.Paired (faultless m.env)
        (pure
          { changesetId := rq.changesetId
            status := if rolledBack then .rolledBack else .failed
            appliedFiles := if rolledBack then s''.locals.appliedFiles else []
            error := some e.message
            uncertain := e.isUncertainFailure } : M Locals ChangeResult)
        (pure
          { changesetId := rq.changesetId
            status := if rolledBack then .rolledBack else .failed
            appliedFiles := if rolledBack then s''.locals.appliedFiles else []
            error := some e'.message
            uncertain := e'.isUncertainFailure } : M Locals ChangeResult)
        (fun r r' s t => r'.told = r.told ∧ Beside m policy rq ts container s t) (Failing m policy rq ts container) s t := by
    intro rolledBack s t h
    refine paired_pure ⟨?_, h.1⟩
    simp only [ChangeResult.told, hflag]
  dsimp only
  generalize decide (s''.locals.appliedFiles ≠ [] ∧ s''.locals.rollbackFailures = []) = rolledBack
  by_cases hcreated : s''.locals.changesetCreated = true
  · cases rolledBack with
    | true =>
      simp only [if_pos hcreated, reduceIte]
      refine paired_bind (paired_mono (paired_transition steady_anything h'' _ _) ?_ fun _ _ _ _ => id)
      intro _ _ s t h
      refine paired_bind (paired_mono (paired_emitChangesetEvent h _ _ _) ?_ fun _ _ _ _ => id)
      intro _ _ s t h
      exact hresult true s t h
    | false =>
      simp only [if_pos hcreated, Bool.false_eq_true, reduceIte]
      refine paired_bind (paired_mono (paired_transition steady_anything h'' _ _) ?_ fun _ _ _ _ => id)
      intro _ _ s t h
      exact hresult false s t h
  · simp only [if_neg hcreated]
    exact hresult rolledBack s'' t'' h''

lemma paired_applyLocked (hhost : rq.context.scope = .host) {w : World} (htwin : Twin m rq container w)
    (hnamed : container ∈ policy.containerNames) (hroots : policy.allowedContainerPaths = policy.allowedHostPaths)
    (hportable : Portable m rq ts policy w) (protectedPaths : List Path) (approvalId : Option String)
    (h : Abreast m policy rq ts container (Passed m rq policy w [] []) s t) :
    Routine.Paired (faultless m.env) (applyLocked m rq policy protectedPaths approvalId ts)
      (applyLocked m (rq.inContainer container) policy protectedPaths approvalId ts)
      (fun r r' s t => r'.told = r.told ∧ Beside m policy rq ts container s t) (Failing m policy rq ts container) s t := by
  refine paired_bind (paired_attempt (paired_mono
    (paired_applySteps hhost htwin hnamed hroots hportable protectedPaths approvalId h) ?_ ?_))
  · intro r r' s t h
    exact paired_pure h
  · rintro e e' s t ⟨hflag, hbeside⟩
    exact paired_handleFailure hhost hflag hbeside

end Failures

section Whole
variable {m : Manager} {policy : ServiceRegistration} {rq : ChangeSetRequest} {ts container : String} {s t u : Side}

structure Quiet (env : Env) (s t : Side) : Prop where
  locals : t.locals = s.locals
  files : t.world.files = s.world.files
  journal : t.world.journal = s.world.journal
  vault : t.world.vault = s.world.vault
  history : ∀ e ∈ t.history, e ∈ s.history ∨ e.call.op.accesses env = []

lemma Quiet.trans {env : Env} (h : Quiet env s t) (h' : Quiet env t u) : Quiet env s u where
  locals := h'.locals.trans h.locals
  files := h'.files.trans h.files
  journal := h'.journal.trans h.journal
  vault := h'.vault.trans h.vault
  history e he := (h'.history e he).elim (h.history e) .inr

lemma exec_quiet {env : Env} {f : LockKey → M Locals Unit}
    (hstep : ∀ key s, ∃ t, exec (faultless env) (f key) s = (.ok (), t) ∧ Quiet env s t)
    (keys : List LockKey) (s : Side) : ∃ t, exec (faultless env) (keys.forM f) s = (.ok (), t) ∧ Quiet env s t := by
  induction keys generalizing s with
  | nil => exact ⟨s, rfl, rfl, rfl, rfl, rfl, fun _ he => .inl he⟩
  | cons key keys ih =>
    obtain ⟨t, hfirst, hquiet⟩ := hstep key s
    obtain ⟨u, hrest, hquiet'⟩ := ih t
    refine ⟨u, ?_, hquiet.trans hquiet'⟩
    have hforM : (key :: keys).forM f = f key >>= fun _ => keys.forM f := rfl
    rw [hforM, exec_bind, hfirst]
    exact hrest

lemma quiet_acquire (env : Env) (key : LockKey) (s : Side) :
    ∃ t, exec (faultless env) (call .apply (.acquire key)) s = (.ok (), t) ∧ Quiet env s t := by
  refine ⟨_, exec_call env .apply (.acquire key) s, rfl, rfl, rfl, rfl, fun e he => ?_⟩
  exact (mem_cons.mp he).elim (fun h => .inr (h ▸ rfl)) .inl

lemma quiet_release (env : Env) (key : LockKey) (s : Side) :
    ∃ t, exec (faultless env) (call .apply (.release key)) s = (.ok (), t) ∧ Quiet env s t := by
  refine ⟨_, exec_call env .apply (.release key) s, rfl, rfl, rfl, rfl, fun e he => ?_⟩
  exact (mem_cons.mp he).elim (fun h => .inr (h ▸ rfl)) .inl

lemma Beside.quiet (h : Beside m policy rq ts container s t) {s' t' : Side} (hs : Quiet m.env s s')
    (ht : Quiet m.env t t') : Beside m policy rq ts container s' t' := by
  refine ⟨?_, ⟨?_, ?_, ?_⟩, ?_⟩
  · rw [hs.locals, ht.locals]
    exact h.locals
  · rw [hs.files, ht.files]
    exact h.world.files
  · rw [hs.journal, ht.journal]
    exact h.world.journal
  · rw [hs.vault, ht.vault]
    exact h.world.vault
  · intro e he location hlocation
    rcases ht.history e he with hold | hnone
    · exact h.confined e hold location hlocation
    · rw [hnone] at hlocation
      cases hlocation

lemma paired_resolveTransportFor {env : Env} {origin : Origin} (projectId targetId : String) (hs : Quiet env u s) :
    Routine.Paired (faultless env) (resolveTransportFor m origin projectId targetId)
      (resolveTransportFor m origin projectId targetId) (fun _ _ s t => Quiet env u s ∧ Quiet env u t)
      (fun _ _ s t => Quiet env u s ∧ Quiet env u t) s s := by
  have hsame : Quiet env u s ∧ Quiet env u s := ⟨hs, hs⟩
  have hnone : Routine.Paired (faultless env)
      (if m.transport then pure () else raise (changeApplyError "no transport available") : M Locals Unit)
      (if m.transport then pure () else raise (changeApplyError "no transport available") : M Locals Unit)
      (fun _ _ s t => Quiet env u s ∧ Quiet env u t) (fun _ _ s t => Quiet env u s ∧ Quiet env u t) s s := by
    by_cases htransport : m.transport = true
    · rw [if_pos htransport]
      exact paired_pure hsame
    · rw [if_neg htransport]
      exact paired_throw hsame
  unfold resolveTransportFor
  cases m.projects with
  | none => exact hnone
  | some projects =>
    by_cases hsessions : m.sessions = true
    · simp only [if_pos hsessions]
      refine paired_bind (paired_ofExcept_self ?_ fun _ _ => hsame)
      intro record _
      by_cases htarget : targetId ∈ record.targets
      · rw [if_pos htarget]
        have hcall : ∀ e : Event Call (Raising Exc Call.Value), e.call.op.accesses env = [] →
            Quiet env u ⟨s.locals, e :: s.history, s.world⟩ := by
          intro e hnone
          refine ⟨hs.locals, hs.files, hs.journal, hs.vault, fun e' he' => ?_⟩
          rcases mem_cons.mp he' with rfl | hold
          · exact .inr hnone
          · exact hs.history e' hold
        exact paired_call_ok rfl rfl ⟨hcall _ rfl, hcall _ rfl⟩
      · rw [if_neg htarget]
        exact paired_throw hsame
    · simp only [if_neg hsessions]
      exact hnone

/-- What a finished run has in common with the other. -/
def Ended (m : Manager) (rq : ChangeSetRequest) (ts container : String) (s t : Side) : Prop :=
  t.world.files (.container container) = s.world.files .host ∧ s.world.journal.Told t.world.journal ∧
  ∀ e ∈ t.history, ∀ location ∈ e.call.op.accesses m.env,
    ∃ policy protectedPaths, resolvePolicy m rq = .ok (policy, protectedPaths) ∧ ∃ f ∈ rq.files,
      RemotePathPolicy.contains policy (rq.location m.env f.path) (.container container) ∧
      location ∈ [rq.location m.env f.path, rq.tempLocation m.env f.path, rq.backupLocation m.env ts f.path]

lemma Beside.ended (h : Beside m policy rq ts container s t) {protectedPaths : List Path}
    (hpolicy : resolvePolicy m rq = .ok (policy, protectedPaths)) : Ended m rq ts container s t := by
  refine ⟨h.world.files, h.world.journal, fun e he location hlocation => ?_⟩
  obtain ⟨_, ⟨f, hf, rfl, hcontains⟩, hplace⟩ := h.confined e he location hlocation
  exact ⟨policy, protectedPaths, hpolicy, f, hf, hcontains, hplace⟩

lemma alike_start : Alike m policy rq ts container {} {} :=
  ⟨rfl, rfl, rfl, .nil, .nil, rfl, rfl, rfl, rfl, .nil, .nil, rfl, rfl⟩

lemma paired_apply_transported (hhost : rq.context.scope = .host) {w : World} (htwin : Twin m rq container w)
    (hportable : ∀ policy protectedPaths, resolvePolicy m rq = .ok (policy, protectedPaths) → Portable m rq ts policy w)
    (approvalId : Option String) (hs : Quiet m.env ⟨{}, [], w⟩ s) (ht : Quiet m.env ⟨{}, [], w⟩ t)
    (hended : Ended m rq ts container s t) :
    Routine.Paired (faultless m.env) (apply m rq approvalId true ts) (apply m (rq.inContainer container) approvalId true ts)
      (fun r r' s t => r'.told = r.told ∧ Ended m rq ts container s t) (fun _ _ => Ended m rq ts container) s t := by
  refine paired_bind (paired_ofExcept_self ?_ fun _ _ => hended)
  rintro ⟨policy, protectedPaths⟩ hpolicy
  obtain ⟨hnamed, hroots⟩ := htwin.roots policy protectedPaths hpolicy
  obtain ⟨s₁, hacquire, hs₁⟩ := exec_quiet (quiet_acquire m.env) (lockKeys rq) s
  obtain ⟨t₁, hacquire', ht₁⟩ := exec_quiet (quiet_acquire m.env) (lockKeys (rq.inContainer container)) t
  refine paired_left hacquire (paired_right hacquire' ?_)
  have hstart : Beside m policy rq ts container ⟨{}, [], w⟩ ⟨{}, [], w⟩ :=
    ⟨alike_start, ⟨htwin.files, ⟨fun _ => rfl, rfl⟩, rfl⟩, fun _ he => absurd he not_mem_nil⟩
  have hbeside : Beside m policy rq ts container s₁ t₁ := hstart.quiet (hs.trans hs₁) (ht.trans ht₁)
  have hpassed : Passed m rq policy w [] [] s₁.locals s₁.world := by
    refine ⟨?_, ?_, nofun, nofun, ?_⟩
    · rw [(hs.trans hs₁).files]
    · rw [(hs.trans hs₁).journal]
    · rw [(hs.trans hs₁).locals]
  have hlocked := paired_applyLocked hhost htwin hnamed hroots (hportable policy protectedPaths hpolicy)
    protectedPaths approvalId ⟨hbeside, hpassed⟩
  refine paired_bind (paired_attempt (paired_mono hlocked ?_ ?_))
  · rintro r r' s t ⟨htold, hbeside⟩
    obtain ⟨s₂, hrelease, hs₂⟩ := exec_quiet (quiet_release m.env) (lockKeys rq).reverse s
    obtain ⟨t₂, hrelease', ht₂⟩ := exec_quiet (quiet_release m.env) (lockKeys (rq.inContainer container)).reverse t
    refine paired_left hrelease (paired_right hrelease' ?_)
    exact paired_ofExcept ⟨htold, (hbeside.quiet hs₂ ht₂).ended hpolicy⟩
  · rintro e e' s t ⟨-, hbeside⟩
    obtain ⟨s₂, hrelease, hs₂⟩ := exec_quiet (quiet_release m.env) (lockKeys rq).reverse s
    obtain ⟨t₂, hrelease', ht₂⟩ := exec_quiet (quiet_release m.env) (lockKeys (rq.inContainer container)).reverse t
    refine paired_left hrelease (paired_right hrelease' ?_)
    exact paired_ofExcept ((hbeside.quiet hs₂ ht₂).ended hpolicy)

lemma ended_quiet {w : World} (htwin : Twin m rq container w) (hs : Quiet m.env ⟨{}, [], w⟩ s)
    (ht : Quiet m.env ⟨{}, [], w⟩ t) : Ended m rq ts container s t := by
  refine ⟨?_, ?_, fun e he location hlocation => ?_⟩
  · rw [hs.files, ht.files]
    exact htwin.files
  · rw [hs.journal, ht.journal]
    exact ⟨fun _ => rfl, rfl⟩
  · rcases ht.history e he with hnew | hnone
    · cases hnew
    · rw [hnone] at hlocation
      cases hlocation

lemma paired_apply (hhost : rq.context.scope = .host) {w : World} (htwin : Twin m rq container w)
    (hportable : ∀ policy protectedPaths, resolvePolicy m rq = .ok (policy, protectedPaths) → Portable m rq ts policy w)
    (approvalId : Option String) (transport : Bool) :
    Routine.Paired (faultless m.env) (apply m rq approvalId transport ts)
      (apply m (rq.inContainer container) approvalId transport ts)
      (fun r r' s t => r'.told = r.told ∧ Ended m rq ts container s t) (fun _ _ => Ended m rq ts container)
      ⟨{}, [], w⟩ ⟨{}, [], w⟩ := by
  have hstart : Quiet m.env ⟨{}, [], w⟩ ⟨{}, [], w⟩ := ⟨rfl, rfl, rfl, rfl, fun _ he => .inl he⟩
  cases transport with
  | true =>
    exact paired_apply_transported hhost htwin hportable approvalId hstart hstart (ended_quiet htwin hstart hstart)
  | false =>
    refine paired_bind (paired_mono (paired_resolveTransportFor _ _ hstart) ?_ ?_)
    · rintro _ _ s t ⟨hs, ht⟩
      exact paired_apply_transported hhost htwin hportable approvalId hs ht (ended_quiet htwin hs ht)
    · rintro _ _ s t ⟨hs, ht⟩
      exact ended_quiet htwin hs ht

end Whole

/-- A change in a container is the change on the host, with the path policy kept, when no reached file is
missing or lies outside the roots through a link, and nothing is in the way of the temporary files. -/
theorem container_refines_host (m : Manager) (rq : ChangeSetRequest) (approvalId : Option String) (transport : Bool)
    (ts container : String) (w : World) (hhost : rq.context.scope = .host) (htwin : Twin m rq container w)
    (hportable : ∀ policy protectedPaths, resolvePolicy m rq = .ok (policy, protectedPaths) →
      Portable m rq ts policy w) : Refines m rq ts container
      ((apply m rq approvalId transport ts {}).run (respond m.env fun _ => none) [] w)
      ((apply m (rq.inContainer container) approvalId transport ts {}).run (respond m.env fun _ => none) [] w) := by
  have hpaired := paired_apply hhost htwin hportable approvalId transport
  unfold Routine.Paired exec at hpaired
  generalize (apply m rq approvalId transport ts {}).run (respond m.env fun _ => none) [] w = host at hpaired ⊢
  generalize (apply m (rq.inContainer container) approvalId transport ts {}).run (respond m.env fun _ => none) [] w =
    inContainer at hpaired ⊢
  obtain ⟨⟨r, l⟩, tr, v⟩ := host
  obtain ⟨⟨r', l'⟩, tr', v'⟩ := inContainer
  cases r with
  | ok result =>
    cases r' with
    | ok result' =>
      obtain ⟨htold, hfiles, hjournal, hconfined⟩ := hpaired
      exact ⟨congrArg some htold, hfiles, hjournal.rows, hconfined⟩
    | error e => exact hpaired.elim
  | error e =>
    cases r' with
    | ok result' => exact hpaired.elim
    | error e' =>
      obtain ⟨hfiles, hjournal, hconfined⟩ := hpaired
      exact ⟨rfl, hfiles, hjournal.rows, hconfined⟩

/-! ### A container with the files of the host -/

def twinManager : Manager where
  env := sampleEnv
  policy := some
    { composeService := "web"
      allowedHostPaths := [⟨true, ["srv", "app"]⟩]
      allowedContainerPaths := [⟨true, ["srv", "app"]⟩]
      containerNames := ["web-1"] }
  transport := true

def twinWorld : World where
  files _ path := if path = samplePath then some ⟨[97], 0o644⟩ else none

lemma sample_twin : Twin twinManager sampleRequest "web-1" twinWorld where
  directories _ := rfl
  files := rfl
  roots _ _ hpolicy := by
    cases hpolicy
    exact ⟨by decide, rfl⟩

lemma sample_portable (policy : ServiceRegistration) (protectedPaths : List Path)
    (hpolicy : resolvePolicy twinManager sampleRequest = .ok (policy, protectedPaths)) :
    Portable twinManager sampleRequest sampleTs policy twinWorld := by
  have hfile : ∀ f, Reached twinManager sampleRequest policy twinWorld f → f = sampleFile := by
    rintro f ⟨done, rest, hfiles, -⟩
    have hf : f ∈ sampleRequest.files := by simp [hfiles]
    exact mem_singleton.mp hf
  cases hpolicy
  refine ⟨?_, ?_, fun _ => ⟨?_, ?_, ?_, ?_⟩⟩
  · intro f hreached _ hcreates
    rw [hfile f hreached] at hcreates
    cases hcreates
  · intro f hreached _ _ _
    rw [hfile f hreached]
    decide +kernel
  · decide +kernel
  · decide +kernel
  · decide +kernel
  · intro f _ _
    rfl

theorem sample_refines :
    Refines twinManager sampleRequest sampleTs "web-1"
      ((apply twinManager sampleRequest none true sampleTs {}).run (respond sampleEnv fun _ => none) [] twinWorld)
      ((apply twinManager (sampleRequest.inContainer "web-1") none true sampleTs {}).run
        (respond sampleEnv fun _ => none) [] twinWorld) :=
  container_refines_host twinManager sampleRequest none true sampleTs "web-1" twinWorld rfl sample_twin sample_portable

/-- Creates a file with the content `b`. -/
def creatingFile : FileRequest where
  toOperationContext := sampleContext
  operationId := "op-1"
  path := ⟨true, ["srv", "app", "b.conf"]⟩
  mutation := .write none [98] none

def creatingRequest : ChangeSetRequest where
  changesetId := "cs-1"
  files := [creatingFile]
  verificationPlan := "check the service"
  rollbackPlan := "remove the file"
  context := sampleContext
  nonempty := cons_ne_nil _ _
  shared _ hf := mem_singleton.mp hf ▸ rfl

/-- The host creates the missing file; the container reports it as an unsupported operation. -/
theorem creating_not_refines :
    creatingRequest.context.scope = .host ∧ Twin twinManager creatingRequest "web-1" twinWorld ∧
      ¬ Refines twinManager creatingRequest sampleTs "web-1"
        ((apply twinManager creatingRequest none true sampleTs {}).run (respond sampleEnv fun _ => none) [] twinWorld)
        ((apply twinManager (creatingRequest.inContainer "web-1") none true sampleTs {}).run
          (respond sampleEnv fun _ => none) [] twinWorld) := by
  refine ⟨rfl, ⟨fun _ => rfl, rfl, ?_⟩, fun hrefines => ?_⟩
  · intro policy protectedPaths hpolicy
    cases hpolicy
    exact ⟨by decide, rfl⟩
  · have hresult := hrefines.result
    revert hresult
    decide +kernel

end IncidentLens.Changes
