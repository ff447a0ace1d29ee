import IncidentLens.Changes.Survey

/-!
# Steps 7-10: temporary files and renames

From the first temporary file on, the local variables tell exactly which temporary files have
been written and which files have been renamed into place. This is what the failure handler
relies on.
-/
namespace IncidentLens.Changes
open Data Effects Routine List Option

section
variable (rq : ChangeSetRequest) (ts : String)

/-- A journal write of the renames has raised. -/
def JournalRaised (tr : History) : Prop :=
  (∃ fileChangeId, ∃ patch : FileChangePatch, patch.applied = some true ∧
    Raised tr .apply (.updateFileChange rq.changesetId fileChangeId patch)) ∨
  Raised tr .apply (.transition rq.changesetId .applied)

structure Recoverable (l : Locals) (tr : History) : Prop where
  calls : ∀ e ∈ tr, e.call.origin = .apply
  created : l.changesetCreated = true ↔ Created tr
  failures : l.rollbackFailures = []
  nodup : l.appliedFiles.Nodup
  applied : ∀ path ∈ l.appliedFiles, ∃ canonical, l.canonicalPaths.get? path = some canonical ∧
    l.backends.get? path = some rq.context.scope ∧ Placed rq tr path canonical ∧
    (path ∈ l.newFiles ↔ IsNew rq path) ∧
    (¬ IsNew rq path → l.backupPaths.get? path = some (backupPath canonical ts)) ∧
    ∃ f ∈ rq.files, f.path = path
  placed : ∀ scope temp canonical, Did tr .apply (.rename scope temp canonical) () →
    ∃ path ∈ l.appliedFiles, l.canonicalPaths.get? path = some canonical
  written : ∀ scope temp content mode exclusive,
    Did tr .apply (.writeBytes scope temp content mode exclusive) () →
    ∃ path ∈ l.writtenTemps, (path, temp) ∈ l.tempPaths
  temps : ∀ path temp, (path, temp) ∈ l.tempPaths → path ∈ l.writtenTemps →
    l.backends.get? path = some rq.context.scope ∧ ∃ canonical original content mode,
      l.canonicalPaths.get? path = some canonical ∧ At rq tr path canonical original ∧
      temp = tempPath canonical rq.changesetId ∧
      Did tr .apply (.writeBytes rq.context.scope temp content mode true) ()
  marked : l.appliedFiles ≠ [] → Did tr .apply (.transition rq.changesetId .applied) () ∨ JournalRaised rq tr

/-- What steps 1-6 have arranged for every file. -/
structure Arranged (l : Locals) (tr : History) : Prop where
  ready : ∀ f ∈ rq.files, ∃ canonical original content,
    l.canonicalPaths.get? f.path = some canonical ∧ l.newContents.get? f.path = some content ∧
    l.backends.get? f.path = some rq.context.scope ∧
    (¬ IsNew rq f.path → l.backupPaths.get? f.path = some (backupPath canonical ts)) ∧
    Prepared rq ts tr f.path canonical original content
  news : ∀ path, path ∈ l.newFiles ↔ IsNew rq path
  results : ∀ f ∈ rq.files, ∃ result, l.validationResults.get? f.path = some result
  flag : l.changesetCreated = true
  created : Created tr

/-- Step 7 for the files before the current one. -/
structure Writing (done : List FileRequest) (l : Locals) (tr : History) : Prop where
  arranged : Arranged rq ts l tr
  calls : ∀ e ∈ tr, e.call.origin = .apply ∧ e.call.stage ≤ 1
  applied : l.appliedFiles = []
  failures : l.rollbackFailures = []
  keys : (Dict.keys l.tempPaths).Nodup
  items : ∀ path temp, (path, temp) ∈ l.tempPaths → ∃ f ∈ rq.files, f.path = path ∧
    ∃ canonical, l.canonicalPaths.get? path = some canonical ∧ temp = tempPath canonical rq.changesetId
  writes : ∀ scope temp content mode exclusive,
    Did tr .apply (.writeBytes scope temp content mode exclusive) () → ∃ f ∈ done, ∃ canonical,
      l.canonicalPaths.get? f.path = some canonical ∧ temp = tempPath canonical rq.changesetId
  temps : ∀ f ∈ done, f.path ∈ l.writtenTemps ∧ ∃ canonical content mode,
    l.canonicalPaths.get? f.path = some canonical ∧
    l.tempPaths.get? f.path = some (tempPath canonical rq.changesetId) ∧
    l.newContents.get? f.path = some content ∧
    Did tr .apply (.writeBytes rq.context.scope (tempPath canonical rq.changesetId) content mode true) ()
  written : ∀ path ∈ l.writtenTemps, ∃ f ∈ done, f.path = path

end

variable {m : Manager} {rq : ChangeSetRequest} {ts : String} {l : Locals} {tr tr' : History}

lemma Arranged.mono (h : Arranged rq ts l tr) (hsub : tr ⊆ tr') : Arranged rq ts l tr' := by
  refine ⟨?_, h.news, h.results, h.flag, h.created.mono hsub⟩
  intro f hf
  obtain ⟨canonical, original, content, hcanonical, hcontent, hscope, hbackup, hprepared⟩ := h.ready f hf
  exact ⟨canonical, original, content, hcanonical, hcontent, hscope, hbackup, hprepared.mono hsub⟩

lemma Base.recoverable (h : Base l tr) : Recoverable rq ts l tr := by
  have hnone : ∀ {op : Op} {v : op.Value}, Did tr .apply op v → Call.stage ⟨.apply, op⟩ = 0 :=
    fun hdid => (h.calls _ hdid).2
  refine ⟨fun e he => (h.calls e he).1, h.created, h.failures, ?_, ?_, ?_, ?_, ?_, ?_⟩
  · rw [h.applied]
    exact nodup_nil
  · rw [h.applied]
    rintro path ⟨⟩
  · intro scope temp canonical hdid
    cases hnone hdid
  · intro scope temp content mode exclusive hdid
    cases hnone hdid
  · rw [h.temps]
    rintro path temp ⟨⟩
  · intro hne
    exact absurd h.applied hne

lemma At.isNew {path canonical : Path} (h : At rq tr path canonical none) : IsNew rq path := by
  obtain ⟨f, hf, hpath, -, hcreates, -⟩ := h
  exact ⟨f, hf, hpath, hcreates⟩

lemma Securing.writing (h : Securing rq ts rq.files l tr) : Writing rq ts [] l tr := by
  have hnone : ∀ {op : Op} {v : op.Value}, Did tr .apply op v → Call.stage ⟨.apply, op⟩ = 0 :=
    fun hdid => (h.calls _ hdid).2
  refine ⟨⟨?_, h.plan.news, h.plan.results, h.created.mpr h.plan.created, h.plan.created⟩,
    fun e he => ⟨(h.calls e he).1, (h.calls e he).2.trans_le (Nat.zero_le 1)⟩, h.applied, h.failures,
    ?_, ?_, ?_, ?_, ?_⟩
  · intro f hf
    obtain ⟨canonical, original, hcanonical, horiginal, hscope, hat⟩ := h.plan.known f hf
    obtain ⟨o, content, ho, hcontent, hnew⟩ := h.plan.contents f hf
    obtain rfl : original.getD [] = o := some.inj (horiginal.symm.trans ho)
    refine ⟨canonical, original, content, hcanonical, hcontent, hscope, ?_, hat, hnew, ?_, h.plan.created⟩
    · intro hold
      obtain ⟨c, -, hc, -, hbackup, -⟩ := h.secured f hf hold
      obtain rfl : canonical = c := some.inj (hcanonical.symm.trans hc)
      exact hbackup
    · intro hold
      obtain ⟨c, found, hc, hfound, -, hcopy, hread, -⟩ := h.secured f hf hold
      obtain rfl : canonical = c := some.inj (hcanonical.symm.trans hc)
      cases original with
      | none => exact absurd hat.isNew hold
      | some o =>
        obtain rfl : o = found := some.inj (horiginal.symm.trans hfound)
        refine ⟨o, rfl, hcopy, hread, ?_⟩
        intro g hg hpath
        obtain ⟨c', -, hc', -, -, -, -, hrecord⟩ := h.secured g hg (by rwa [hpath])
        rw [hpath, hcanonical] at hc'
        rwa [← some.inj hc'] at hrecord
  · rw [h.temps]
    exact nodup_nil
  · rw [h.temps]
    rintro path temp ⟨⟩
  · intro scope temp content mode exclusive hdid
    cases hnone hdid
  · rintro f ⟨⟩
  · rw [h.written]
    rintro path ⟨⟩

variable {done : List FileRequest} {f : FileRequest}

lemma Writing.recoverable (hdone : ∀ f ∈ done, f ∈ rq.files)
    (h : Writing rq ts done l tr) : Recoverable rq ts l tr := by
  refine ⟨fun e he => (h.calls e he).1, ⟨fun _ => h.arranged.created, fun _ => h.arranged.flag⟩,
    h.failures, ?_, ?_, ?_, ?_, ?_, ?_⟩
  · rw [h.applied]
    exact nodup_nil
  · rw [h.applied]
    rintro path ⟨⟩
  · intro scope temp canonical hdid
    exact absurd (h.calls _ hdid).2 (by simp [Call.stage])
  · intro scope temp content mode exclusive hdid
    obtain ⟨f, hf, canonical, hcanonical, rfl⟩ := h.writes scope temp content mode exclusive hdid
    obtain ⟨hwritten, c, -, -, hc, htemp, -⟩ := h.temps f hf
    obtain rfl : canonical = c := some.inj (hcanonical.symm.trans hc)
    exact ⟨f.path, hwritten, Dict.mem_of_get? htemp⟩
  · intro path temp hmem hwritten
    obtain ⟨f, hf, rfl⟩ := h.written path hwritten
    obtain ⟨-, c, content, mode, hc, -, -, hwrite⟩ := h.temps f hf
    obtain ⟨-, -, -, canonical, hcanonical, rfl⟩ := h.items f.path temp hmem
    obtain rfl : c = canonical := some.inj (hc.symm.trans hcanonical)
    obtain ⟨c', original, content', hc', -, hscope, -, hprepared⟩ := h.arranged.ready f (hdone f hf)
    obtain rfl : c = c' := some.inj (hc.symm.trans hc')
    exact ⟨hscope, c, original, content, mode, hc, hprepared.survey, rfl, hwrite⟩
  · intro hne
    exact absurd h.applied hne

lemma Writing.cons {o : Op} {r : Raising Exc Call.Value ⟨.apply, o⟩} (hstage : Call.stage ⟨.apply, o⟩ ≤ 1)
    (hquiet : ∀ scope temp content mode exclusive, Did (⟨⟨.apply, o⟩, r⟩ :: tr) .apply
      (.writeBytes scope temp content mode exclusive) () → Did tr .apply (.writeBytes scope temp content mode exclusive) ())
    (h : Writing rq ts done l tr) : Writing rq ts done l (⟨⟨.apply, o⟩, r⟩ :: tr) := by
  have hsub := subset_cons_self (⟨⟨.apply, o⟩, r⟩ : Event Call (Raising Exc Call.Value)) tr
  refine ⟨h.arranged.mono hsub, forall_mem_cons.mpr ⟨⟨rfl, hstage⟩, h.calls⟩, h.applied, h.failures, h.keys, h.items,
    fun _ _ _ _ _ hdid => h.writes _ _ _ _ _ (hquiet _ _ _ _ _ hdid), fun f hf => ?_, h.written⟩
  obtain ⟨hwritten, canonical, content, mode, hcanonical, htemp, hcontent, hwrite⟩ := h.temps f hf
  exact ⟨hwritten, canonical, content, mode, hcanonical, htemp, hcontent, hwrite.mono hsub⟩

lemma Writing.call {o : Op} (hop : o.inspects = true)
    (r : Raising Exc Call.Value ⟨.apply, o⟩) (h : Writing rq ts done l tr) :
    Writing rq ts done l (⟨⟨.apply, o⟩, r⟩ :: tr) := by
  have hstage : Call.stage ⟨.apply, o⟩ = 0 := by cases o <;> simp_all [Op.inspects]
  refine h.cons (hstage.trans_le (Nat.zero_le 1)) fun _ _ _ _ _ hdid => hdid.of_cons ?_
  rintro ⟨⟩
  cases hstage

lemma Writing.setTemp {canonical : Path} (hf : f ∈ rq.files)
    (hcanonical : l.canonicalPaths.get? f.path = some canonical) (h : Writing rq ts done l tr) :
    Writing rq ts done { l with tempPaths := l.tempPaths.set f.path (tempPath canonical rq.changesetId) } tr := by
  refine ⟨⟨h.arranged.ready, h.arranged.news, h.arranged.results, h.arranged.flag, h.arranged.created⟩,
    h.calls, h.applied, h.failures, Dict.nodup_keys_set h.keys _ _, ?_, h.writes, ?_, h.written⟩
  · intro path temp hmem
    rcases Dict.mem_set hmem with heq | hmem
    · cases heq
      exact ⟨f, hf, rfl, canonical, hcanonical, rfl⟩
    · exact h.items path temp hmem
  · intro g hg
    obtain ⟨hwritten, c, content, mode, hc, htemp, hcontent, hwrite⟩ := h.temps g hg
    refine ⟨hwritten, c, content, mode, hc, ?_, hcontent, hwrite⟩
    change (l.tempPaths.set f.path _).get? g.path = _
    by_cases hpath : f.path = g.path
    · rw [hpath, Dict.get?_set_self]
      rw [hpath, hc] at hcanonical
      rw [some.inj hcanonical]
    · rw [Dict.get?_set_of_ne _ _ hpath, htemp]

/-- Two files with one temporary file: a path that is requested twice, or two paths with
one canonical path. -/
theorem Writing.clash {done rest : List FileRequest} {canonical : Path}
    {scope : RemoteScope} (hfiles : rq.files = done ++ f :: rest) (h : Writing rq ts done l tr)
    (hcanonical : l.canonicalPaths.get? f.path = some canonical) (hdid : ∃ content mode, Did tr .apply
      (.writeBytes scope (tempPath canonical rq.changesetId) content mode true) ()) : Clash rq tr canonical := by
  obtain ⟨content, mode, hdid⟩ := hdid
  obtain ⟨g, hg, c, hc, htemp⟩ := h.writes _ _ _ _ _ hdid
  have hf : f ∈ rq.files := by simp [hfiles]
  have hgfiles : g ∈ rq.files := by simp [hfiles, hg]
  obtain ⟨cf, o, new, hcf, -, -, -, hf'⟩ := h.arranged.ready f hf
  obtain ⟨cg, o', new', hcg, -, -, -, hg'⟩ := h.arranged.ready g hgfiles
  obtain rfl : canonical = cf := some.inj (hcanonical.symm.trans hcf)
  obtain rfl : c = cg := some.inj (hc.symm.trans hcg)
  by_cases hpath : f.path = g.path
  · left
    rw [hfiles, map_append, map_cons]
    intro hnodup
    have hdisjoint := (nodup_append.mp hnodup).2.2
    exact hdisjoint g.path (mem_map_of_mem hg) f.path mem_cons_self hpath.symm
  · exact .inr ⟨f.path, g.path, c, o, o', hpath, hf'.survey, hg'.survey, htemp⟩

lemma writeTemp_spec {done rest : List FileRequest}
    (hfiles : rq.files = done ++ f :: rest) (h : Writing rq ts done l tr) :
    wp (Lawful rq ts) (writeTemp rq f) (fun _ => Writing rq ts (done ++ [f]))
      (fun _ => Recoverable rq ts) l tr := by
  have hf : f ∈ rq.files := by simp [hfiles]
  have hdone : ∀ g ∈ done, g ∈ rq.files := fun g hg => by simp [hfiles, hg]
  obtain ⟨canonical, original, content, hcanonical, hcontent, -, -, hprepared⟩ := h.arranged.ready f hf
  unfold writeTemp
  simp only [wp_bind, wp_get, wp_modify]
  refine wp_ofExcept ?_ fun _ _ => h.recoverable hdone
  intro canonical' hcanonical'
  obtain rfl : canonical = canonical' := some.inj (hcanonical.symm.trans (lookup_eq_ok hcanonical'))
  have hset := h.setTemp hf hcanonical
  refine wp_ofExcept ?_ fun _ _ => hset.recoverable hdone
  intro content' hcontent'
  obtain rfl : content = content' := some.inj (hcontent.symm.trans (lookup_eq_ok hcontent'))
  refine wp_ofExcept ?_ fun _ _ => hset.recoverable hdone
  intro mode _
  have hlawful : Lawful rq ts tr ⟨.apply, .writeBytes f.scope (tempPath canonical rq.changesetId) content
      mode true⟩ :=
    ⟨fun e he => (h.calls e he).2, ChangeSetRequest.scope_eq hf, rfl, f.path, canonical, original,
      hprepared, rfl, h.clash hfiles hcanonical⟩
  refine wp_call hlawful ?_ fun _ => (hset.cons le_rfl fun _ _ _ _ _ hdid => hdid.of_cons_error).recoverable hdone
  intro _
  have hsub := subset_cons_self (⟨⟨.apply, .writeBytes f.scope (tempPath canonical rq.changesetId)
    content mode true⟩, .ok ()⟩ : Event Call (Raising Exc Call.Value)) tr
  have hend : Writing rq ts (done ++ [f]) { l with
      tempPaths := l.tempPaths.set f.path (tempPath canonical rq.changesetId)
      writtenTemps := f.path :: l.writtenTemps } (⟨⟨.apply, .writeBytes f.scope
        (tempPath canonical rq.changesetId) content mode true⟩, .ok ()⟩ :: tr) := by
    have harranged := hset.arranged.mono hsub
    refine ⟨⟨harranged.ready, harranged.news, harranged.results, harranged.flag, harranged.created⟩,
      forall_mem_cons.mpr ⟨⟨rfl, le_rfl⟩, h.calls⟩, h.applied, h.failures, hset.keys, hset.items, ?_, ?_, ?_⟩
    · intro scope temp content' mode' exclusive hdid
      rcases mem_cons.mp hdid with heq | hmem
      · cases heq
        exact ⟨f, by simp, canonical, hcanonical, rfl⟩
      · obtain ⟨g, hg, c, hc, htemp⟩ := h.writes scope temp content' mode' exclusive hmem
        exact ⟨g, mem_append_left _ hg, c, hc, htemp⟩
    · intro g hg
      rcases mem_append.mp hg with hg | hg
      · obtain ⟨hwritten, c, content', mode', hc, htemp, hcontent', hwrite⟩ := hset.temps g hg
        exact ⟨mem_cons_of_mem _ hwritten, c, content', mode', hc, htemp, hcontent', hwrite.mono hsub⟩
      · rw [mem_singleton.mp hg, ← ChangeSetRequest.scope_eq hf]
        exact ⟨mem_cons_self, canonical, content, mode, hcanonical, Dict.get?_set_self _ _ _, hcontent, mem_cons_self⟩
    · intro path hpath
      rcases mem_cons.mp hpath with rfl | hpath
      · exact ⟨f, by simp, rfl⟩
      · obtain ⟨g, hg, hgpath⟩ := h.written path hpath
        exact ⟨g, mem_append_left _ hg, hgpath⟩
  have hdone' : ∀ g ∈ done ++ [f], g ∈ rq.files := by
    intro g hg
    rcases mem_append.mp hg with hg | hg
    · exact hdone g hg
    · rwa [mem_singleton.mp hg]
  exact wp_call (lawful_record hf hend.arranged.created rfl rfl rfl) (fun _ => hend.call rfl _)
    fun _ => (hend.call rfl _).recoverable hdone'

lemma checkCompose_spec (h : Writing rq ts rq.files l tr) :
    wp (Lawful rq ts) (checkCompose f) (fun _ => Writing rq ts rq.files) (fun _ => Recoverable rq ts) l tr := by
  have hexit := h.recoverable fun _ hg => hg
  unfold checkCompose
  by_cases hcompose : isComposeYaml f.path = true
  · rw [if_pos hcompose]
    simp only [wp_bind, wp_get]
    refine wp_ofExcept ?_ fun _ _ => hexit
    intro temp _
    by_cases hscope : f.scope = .host
    · rw [if_pos hscope]
      simp only [wp_bind]
      refine wp_call trivial ?_ fun _ => (h.call rfl _).recoverable fun _ hg => hg
      intro result
      have h' := h.call (o := .runArgv ["docker", "compose", "-f", temp.str, "config", "-q"]) rfl
        (.ok result)
      split_ifs
      · exact h'
      · exact h'.recoverable fun _ hg => hg
    · rw [if_neg hscope]
      exact h
  · rw [if_neg hcompose]
    exact h

lemma consumeApproval_spec (protectedPaths : List Path) (approvalId : Option String)
    (h : Writing rq ts rq.files l tr) : wp (Lawful rq ts) (consumeApproval m rq protectedPaths approvalId)
      (fun _ => Writing rq ts rq.files) (fun _ => Recoverable rq ts) l tr := by
  have hexit := h.recoverable fun _ hg => hg
  unfold consumeApproval
  dsimp only
  generalize (rq.files.map FileRequest.path).filter (fun path => isProtectedPath path protectedPaths) = paths
  by_cases hpaths : paths = []
  · rw [if_pos hpaths]
    exact h
  · rw [if_neg hpaths]
    cases approvalId with
    | none => exact hexit
    | some approvalId =>
      by_cases happrovals : m.approvals = true
      · simp only [happrovals, if_true]
        exact wp_call trivial (fun _ => h.call rfl _) fun _ => (h.call rfl _).recoverable fun _ hg => hg
      · simp only [happrovals]
        exact hexit

lemma recheckOriginal_spec (path : Path) (h : Writing rq ts rq.files l tr) :
    wp (Lawful rq ts) (recheckOriginal m rq path)
      (fun _ l' tr' => l' = l ∧ Writing rq ts rq.files l' tr') (fun _ => Recoverable rq ts) l tr := by
  have hexit := h.recoverable fun _ hg => hg
  unfold recheckOriginal
  simp only [wp_bind, wp_get]
  refine wp_ofExcept ?_ fun _ _ => hexit
  intro f _
  cases f.expectedSha256 with
  | none => exact ⟨rfl, h⟩
  | some expected =>
    simp only [wp_bind]
    refine wp_ofExcept ?_ fun _ _ => hexit
    intro canonical _
    refine wp_ofExcept ?_ fun _ _ => hexit
    intro original _
    exact wp_ofExcept (fun _ _ => ⟨rfl, h⟩) fun _ _ => hexit


section
variable (rq : ChangeSetRequest) (ts : String)

/-- Step 10: the files at the paths `done` have been renamed into place. -/
structure Moving (done : List Path) (l : Locals) (tr : History) : Prop where
  arranged : Arranged rq ts l tr
  calls : ∀ e ∈ tr, e.call.origin = .apply ∧ e.call.stage ≤ 2
  applied : l.appliedFiles = done
  requested : ∀ path ∈ done, ∃ f ∈ rq.files, f.path = path
  failures : l.rollbackFailures = []
  items : ∀ path temp, (path, temp) ∈ l.tempPaths → ∃ f ∈ rq.files, f.path = path ∧
    ∃ canonical, l.canonicalPaths.get? path = some canonical ∧ temp = tempPath canonical rq.changesetId
  writes : ∀ scope temp content mode exclusive,
    Did tr .apply (.writeBytes scope temp content mode exclusive) () → ∃ f ∈ rq.files, ∃ canonical,
      l.canonicalPaths.get? f.path = some canonical ∧ temp = tempPath canonical rq.changesetId
  temps : ∀ f ∈ rq.files, f.path ∈ l.writtenTemps ∧ ∃ canonical content mode,
    l.canonicalPaths.get? f.path = some canonical ∧
    l.tempPaths.get? f.path = some (tempPath canonical rq.changesetId) ∧
    l.newContents.get? f.path = some content ∧
    Did tr .apply (.writeBytes rq.context.scope (tempPath canonical rq.changesetId) content mode true) ()
  written : ∀ path ∈ l.writtenTemps, ∃ f ∈ rq.files, f.path = path
  placed : ∀ path ∈ done, ∃ canonical, l.canonicalPaths.get? path = some canonical ∧ Placed rq tr path canonical
  renames : ∀ scope temp canonical, Did tr .apply (.rename scope temp canonical) () →
    ∃ path ∈ done, l.canonicalPaths.get? path = some canonical

/-- The journal says that the file is applied. -/
def Recorded (tr : History) (path : Path) : Prop :=
  ∃ f ∈ rq.files, f.path = path ∧ ∃ result, Did tr .apply (.updateFileChange rq.changesetId f.operationId
    { applied := some true, validationResult := some result }) ()

/-- Step 10 between two files. -/
structure Renaming (done : List Path) (l : Locals) (tr : History) : Prop extends
    Moving rq ts done l tr where
  recorded : ∀ path ∈ done, Recorded rq tr path
  marked : done ≠ [] → Did tr .apply (.transition rq.changesetId .applied) ()

structure Completed (tr : History) : Prop where
  calls : ∀ e ∈ tr, e.call.origin = .apply
  placed : ∀ f ∈ rq.files, ∃ canonical, Placed rq tr f.path canonical
  recorded : ∀ f ∈ rq.files, Recorded rq tr f.path
  marked : Did tr .apply (.transition rq.changesetId .applied) ()

end

variable {done : List Path} {path : Path}

lemma Moving.recoverable (hnodup : done.Nodup) (h : Moving rq ts done l tr)
    (hmarked : done ≠ [] → Did tr .apply (.transition rq.changesetId .applied) () ∨ JournalRaised rq tr) :
    Recoverable rq ts l tr := by
  refine ⟨fun e he => (h.calls e he).1, ⟨fun _ => h.arranged.created, fun _ => h.arranged.flag⟩,
    h.failures, ?_, ?_, ?_, ?_, ?_, ?_⟩
  · rwa [h.applied]
  · rw [h.applied]
    intro path hpath
    obtain ⟨f, hf, rfl⟩ := h.requested path hpath
    obtain ⟨canonical, hcanonical, hplaced⟩ := h.placed f.path hpath
    obtain ⟨c, original, content, hc, -, hscope, hbackup, -⟩ := h.arranged.ready f hf
    obtain rfl : canonical = c := some.inj (hcanonical.symm.trans hc)
    exact ⟨canonical, hcanonical, hscope, hplaced, h.arranged.news _, hbackup, f, hf, rfl⟩
  · rw [h.applied]
    exact h.renames
  · intro scope temp content mode exclusive hdid
    obtain ⟨f, hf, canonical, hcanonical, rfl⟩ := h.writes scope temp content mode exclusive hdid
    obtain ⟨hwritten, c, new, mode', hc, htemp, -⟩ := h.temps f hf
    obtain rfl : canonical = c := some.inj (hcanonical.symm.trans hc)
    exact ⟨f.path, hwritten, Dict.mem_of_get? htemp⟩
  · intro path temp hmem hwritten
    obtain ⟨f, hf, rfl⟩ := h.written path hwritten
    obtain ⟨-, c, content, mode, hc, -, -, hwrite⟩ := h.temps f hf
    obtain ⟨-, -, -, canonical, hcanonical, rfl⟩ := h.items f.path temp hmem
    obtain rfl : c = canonical := some.inj (hc.symm.trans hcanonical)
    obtain ⟨c', original, content', hc', -, hscope, -, hprepared⟩ := h.arranged.ready f hf
    obtain rfl : c = c' := some.inj (hc.symm.trans hc')
    exact ⟨hscope, c, original, content, mode, hc, hprepared.survey, rfl, hwrite⟩
  · rwa [h.applied]

def Op.moves : Op → Bool
  | writeBytes .. | rename .. | copyFile .. | removeFile .. => true
  | _ => false

lemma Moving.cons {o : Op} {r : Raising Exc Call.Value ⟨.apply, o⟩} (hstage : Call.stage ⟨.apply, o⟩ ≤ 2)
    (hquiet : ∀ op : Op, op.moves = true → ∀ v, Did (⟨⟨.apply, o⟩, r⟩ :: tr) .apply op v → Did tr .apply op v)
    (h : Moving rq ts done l tr) : Moving rq ts done l (⟨⟨.apply, o⟩, r⟩ :: tr) := by
  have hsub := subset_cons_self (⟨⟨.apply, o⟩, r⟩ : Event Call (Raising Exc Call.Value)) tr
  refine ⟨h.arranged.mono hsub, forall_mem_cons.mpr ⟨⟨rfl, hstage⟩, h.calls⟩, h.applied, h.requested, h.failures, h.items,
    fun _ _ _ _ _ hdid => h.writes _ _ _ _ _ (hquiet _ rfl _ hdid), ?_, h.written, ?_,
    fun _ _ _ hdid => h.renames _ _ _ (hquiet _ rfl _ hdid)⟩
  · intro f hf
    obtain ⟨hwritten, canonical, content, mode, hcanonical, htemp, hcontent, hwrite⟩ := h.temps f hf
    exact ⟨hwritten, canonical, content, mode, hcanonical, htemp, hcontent, hwrite.mono hsub⟩
  · intro path hpath
    obtain ⟨canonical, hcanonical, hplaced⟩ := h.placed path hpath
    exact ⟨canonical, hcanonical, hplaced.mono hsub⟩

lemma Moving.journal {o : Op} (hstage : Call.stage ⟨.apply, o⟩ ≤ 2)
    (hmoves : o.moves = false) (r : Raising Exc Call.Value ⟨.apply, o⟩) (h : Moving rq ts done l tr) :
    Moving rq ts done l (⟨⟨.apply, o⟩, r⟩ :: tr) := by
  refine h.cons hstage fun op hop v hdid => hdid.of_cons ?_
  rintro ⟨⟩
  simp [hmoves] at hop

lemma Moving.place {path canonical : Path} (hrequested : ∃ f ∈ rq.files, f.path = path)
    (hcanonical : l.canonicalPaths.get? path = some canonical)
    (hat : ∃ original, At rq tr path canonical original) (h : Moving rq ts done l tr) :
    Moving rq ts (done ++ [path]) { l with appliedFiles := l.appliedFiles ++ [path] }
      (⟨⟨.apply, .rename rq.context.scope (tempPath canonical rq.changesetId) canonical⟩, .ok ()⟩ :: tr) := by
  have hsub := subset_cons_self (⟨⟨.apply, .rename rq.context.scope
    (tempPath canonical rq.changesetId) canonical⟩, .ok ()⟩ : Event Call (Raising Exc Call.Value)) tr
  have harranged := h.arranged.mono hsub
  refine ⟨⟨harranged.ready, harranged.news, harranged.results, harranged.flag, harranged.created⟩,
    forall_mem_cons.mpr ⟨⟨rfl, le_rfl⟩, h.calls⟩, ?_, ?_, h.failures, h.items, ?_, ?_, h.written, ?_, ?_⟩
  · change l.appliedFiles ++ [path] = done ++ [path]
    rw [h.applied]
  · intro p hp
    rcases mem_append.mp hp with hp | hp
    · exact h.requested p hp
    · rwa [mem_singleton.mp hp]
  · intro scope temp content mode exclusive hdid
    refine h.writes scope temp content mode exclusive (hdid.of_cons ?_)
    rintro ⟨⟩
  · intro f hf
    obtain ⟨hwritten, c, content, mode, hc, htemp, hcontent, hwrite⟩ := h.temps f hf
    exact ⟨hwritten, c, content, mode, hc, htemp, hcontent, hwrite.mono hsub⟩
  · intro p hp
    rcases mem_append.mp hp with hp | hp
    · obtain ⟨c, hc, hplaced⟩ := h.placed p hp
      exact ⟨c, hc, hplaced.mono hsub⟩
    · rw [mem_singleton.mp hp]
      obtain ⟨original, hat⟩ := hat
      exact ⟨canonical, hcanonical, ⟨original, hat.mono hsub⟩, mem_cons_self⟩
  · intro scope temp c hdid
    rcases mem_cons.mp hdid with heq | hmem
    · cases heq
      exact ⟨path, by simp, hcanonical⟩
    · obtain ⟨p, hp, hc⟩ := h.renames scope temp c hmem
      exact ⟨p, mem_append_left _ hp, hc⟩

lemma Recorded.mono (h : Recorded rq tr path) (hsub : tr ⊆ tr') : Recorded rq tr' path := by
  obtain ⟨f, hf, hpath, result, hdid⟩ := h
  exact ⟨f, hf, hpath, result, hdid.mono hsub⟩

lemma Renaming.recoverable (hnodup : done.Nodup) (h : Renaming rq ts done l tr) : Recoverable rq ts l tr :=
  h.toMoving.recoverable hnodup fun hne => .inl (h.marked hne)

lemma fileReqByPath_eq_ok {f : FileRequest} (h : fileReqByPath rq path = .ok f) : f ∈ rq.files ∧ f.path = path := by
  unfold fileReqByPath at h
  cases hfind : rq.files.find? fun f => f.path = path with
  | none => simp [hfind] at h
  | some g =>
    simp only [hfind, Except.ok.injEq] at h
    subst h
    exact ⟨mem_of_find?_eq_some hfind, by simpa using find?_some hfind⟩

lemma Moving.mark (hnodup : done.Nodup) (hne : done ≠ []) (hrecorded : ∀ path ∈ done, Recorded rq tr path)
    (h : Moving rq ts done l tr) :
    wp (Lawful rq ts) (transition m .apply rq.changesetId .applied) (fun _ => Renaming rq ts done)
      (fun _ => Recoverable rq ts) l tr := by
  have hlawful : Lawful rq ts tr ⟨.apply, .transition rq.changesetId .applied⟩ := by
    refine ⟨rfl, h.arranged.created, fun e he => (h.calls e he).2, by simp, fun _ => ?_⟩
    obtain ⟨path, hpath⟩ := exists_mem_of_ne_nil done hne
    obtain ⟨canonical, -, hplaced⟩ := h.placed path hpath
    exact ⟨path, canonical, hplaced⟩
  unfold transition
  refine wp_bind.mpr (wp_call hlawful ?_ ?_)
  · intro _
    have h' := h.journal (o := .transition rq.changesetId .applied) le_rfl rfl (.ok ())
    refine emitChangesetEvent_spec (fun _ => trivial) ?_ ?_ ?_
    · exact ⟨h', fun p hp => (hrecorded p hp).mono (subset_cons_self _ _), fun _ => mem_cons_self⟩
    · intro type
      exact ⟨h'.journal (o := .publish type rq.changesetId .applied) (Nat.zero_le 2) rfl _, fun p hp => (hrecorded p hp).mono fun e he =>
        mem_cons_of_mem _ (mem_cons_of_mem _ he),
        fun _ => mem_cons_of_mem _ mem_cons_self⟩
    · intro type e
      exact (h'.journal (o := .publish type rq.changesetId .applied) (Nat.zero_le 2) rfl _).recoverable
        hnodup fun _ => .inl (mem_cons_of_mem _ mem_cons_self)
  · intro e
    exact (h.journal le_rfl rfl _).recoverable hnodup fun _ => .inr (.inr ⟨e, mem_cons_self⟩)

lemma Moving.record (m : Manager) {f : FileRequest} (result : String)
    (hnodup : (done ++ [path]).Nodup) (hf : f ∈ rq.files) (hpath : f.path = path)
    (hrecorded : ∀ p ∈ done, Recorded rq tr p)
    (hmarked : done ≠ [] → Did tr .apply (.transition rq.changesetId .applied) ())
    (h : Moving rq ts (done ++ [path]) l tr) :
    wp (Lawful rq ts) (do
        call .apply (.updateFileChange rq.changesetId f.operationId
          { applied := some true, validationResult := some result })
        if done = [] then transition m .apply rq.changesetId .applied else pure ())
      (fun _ => Renaming rq ts (done ++ [path])) (fun _ => Recoverable rq ts) l tr := by
  obtain ⟨canonical, -, hplaced⟩ := h.placed path (by simp)
  have hlawful : Lawful rq ts tr ⟨.apply, .updateFileChange rq.changesetId f.operationId
      { applied := some true, validationResult := some result }⟩ := by
    refine ⟨rfl, h.arranged.created, rfl, ⟨f, hf, rfl⟩, ?_, ?_⟩
    · intro backup hbackup
      cases hbackup
    · intro applied happlied
      cases happlied
      exact ⟨rfl, fun e he => (h.calls e he).2, f, hf, rfl, canonical, by rwa [hpath]⟩
  refine wp_bind.mpr (wp_call hlawful ?_ ?_)
  · intro _
    have h' := h.journal (o := .updateFileChange rq.changesetId f.operationId
      { applied := some true, validationResult := some result }) le_rfl rfl (.ok ())
    have hrecorded' : ∀ p ∈ done ++ [path], Recorded rq (⟨⟨.apply, .updateFileChange rq.changesetId
        f.operationId { applied := some true, validationResult := some result }⟩, .ok ()⟩ :: tr) p := by
      intro p hp
      rcases mem_append.mp hp with hp | hp
      · exact (hrecorded p hp).mono (subset_cons_self _ _)
      · exact ⟨f, hf, by rw [mem_singleton.mp hp, hpath], result, mem_cons_self⟩
    by_cases hfirst : done = []
    · rw [if_pos hfirst]
      exact h'.mark hnodup (by simp) hrecorded'
    · rw [if_neg hfirst]
      exact ⟨h', hrecorded', fun _ => mem_cons_of_mem _ (hmarked hfirst)⟩
  · intro e
    exact (h.journal le_rfl rfl _).recoverable hnodup fun _ =>
      .inr (.inl ⟨_, _, rfl, e, mem_cons_self⟩)

lemma renameIntoPlace_spec (hnodup : (done ++ [path]).Nodup)
    (hrequested : ∃ f ∈ rq.files, f.path = path) (h : Renaming rq ts done l tr) :
    wp (Lawful rq ts) (renameIntoPlace m rq path) (fun _ => Renaming rq ts (done ++ [path]))
      (fun _ => Recoverable rq ts) l tr := by
  obtain rfl : l.appliedFiles = done := h.applied
  have hnodup' : l.appliedFiles.Nodup := (nodup_append.mp hnodup).1
  have hexit := h.recoverable hnodup'
  obtain ⟨g, hg, hgpath⟩ := hrequested
  obtain ⟨canonical, original, content, hcanonical, hcontent, hscope, -, hprepared⟩ := h.arranged.ready g hg
  obtain ⟨-, c, new, mode, hc, htemp, hnew, hwrite⟩ := h.temps g hg
  obtain rfl : canonical = c := some.inj (hcanonical.symm.trans hc)
  obtain rfl : content = new := some.inj (hcontent.symm.trans hnew)
  obtain ⟨result, hresult⟩ := h.arranged.results g hg
  rw [hgpath] at hcanonical hscope hprepared htemp hresult
  unfold renameIntoPlace
  simp only [wp_bind, wp_get, wp_modify]
  refine wp_ofExcept ?_ fun _ _ => hexit
  intro f hf
  obtain ⟨hf, hfpath⟩ := fileReqByPath_eq_ok hf
  refine wp_ofExcept ?_ fun _ _ => hexit
  intro scope hscope'
  obtain rfl : rq.context.scope = scope := some.inj (hscope.symm.trans (lookup_eq_ok hscope'))
  refine wp_ofExcept ?_ fun _ _ => hexit
  intro temp htemp'
  obtain rfl := some.inj (htemp.symm.trans (lookup_eq_ok htemp'))
  refine wp_ofExcept ?_ fun _ _ => hexit
  intro canonical' hcanonical'
  obtain rfl : canonical = canonical' := some.inj (hcanonical.symm.trans (lookup_eq_ok hcanonical'))
  have hlawful : Lawful rq ts tr ⟨.apply, .rename rq.context.scope (tempPath canonical rq.changesetId)
      canonical⟩ :=
    ⟨fun e he => (h.calls e he).2, rfl, rfl, path, original, content, mode, hprepared, hwrite⟩
  refine wp_call hlawful ?_ fun _ => (h.toMoving.cons le_rfl fun _ _ _ hdid => hdid.of_cons_error).recoverable hnodup' fun hne =>
    .inl (mem_cons_of_mem _ (h.marked hne))
  intro _
  -- from here on the file is in `applied_files`
  have hmoving := h.toMoving.place ⟨g, hg, hgpath⟩ hcanonical ⟨original, hprepared.survey⟩
  refine wp_ofExcept ?_ ?_
  · intro result' _
    have hrecord := hmoving.record m result' hnodup hf hfpath
      (fun p hp => (h.recorded p hp).mono (subset_cons_self _ _))
      fun hne => mem_cons_of_mem _ (h.marked hne)
    exact wp_bind.mp hrecord
  · intro e herror
    simp [lookup, hresult] at herror

lemma mem_sortedPaths {paths : List Path} : path ∈ sortedPaths paths ↔ path ∈ paths := mem_insertionSort _

lemma nodup_sortedPaths {paths : List Path} (h : paths.Nodup) : (sortedPaths paths).Nodup :=
  (perm_insertionSort _ paths).nodup_iff.mpr h

lemma Writing.mem_keys (h : Writing rq ts rq.files l tr) (f : FileRequest) (hf : f ∈ rq.files) :
    f.path ∈ l.tempPaths.keys := by
  obtain ⟨-, canonical, -, -, -, htemp, -⟩ := h.temps f hf
  exact mem_map_of_mem (Dict.mem_of_get? htemp)

lemma Writing.requested {done rest : List Path} (h : Writing rq ts rq.files l tr)
    (hpaths : sortedPaths l.tempPaths.keys = done ++ path :: rest) : ∃ f ∈ rq.files, f.path = path := by
  have hmem : path ∈ sortedPaths l.tempPaths.keys := by simp [hpaths]
  obtain ⟨⟨_, temp⟩, htemp, rfl⟩ := mem_map.mp (mem_sortedPaths.mp hmem)
  obtain ⟨f, hf, hpath, -⟩ := h.items _ temp htemp
  exact ⟨f, hf, hpath⟩

lemma Writing.nodup_done {done rest : List Path} (h : Writing rq ts rq.files l tr)
    (hpaths : sortedPaths l.tempPaths.keys = done ++ path :: rest) : (done ++ [path]).Nodup := by
  have hnodup := nodup_sortedPaths h.keys
  rw [hpaths, ← singleton_append, ← append_assoc] at hnodup
  exact (nodup_append.mp hnodup).1

lemma Writing.renaming (h : Writing rq ts rq.files l tr) : Renaming rq ts [] l tr := by
  refine ⟨⟨h.arranged, fun e he => ⟨(h.calls e he).1, (h.calls e he).2.trans (Nat.le_succ 1)⟩, h.applied,
    ?_, h.failures, h.items, h.writes, h.temps, h.written, ?_, ?_⟩, ?_, ?_⟩
  · rintro path ⟨⟩
  · rintro path ⟨⟩
  · intro scope temp canonical hdid
    exact absurd (h.calls _ hdid).2 (by simp [Call.stage])
  · rintro path ⟨⟩
  · exact fun hne => absurd rfl hne

lemma Renaming.completed (hall : ∀ f ∈ rq.files, f.path ∈ done) (h : Renaming rq ts done l tr) : Completed rq tr := by
  refine ⟨fun e he => (h.calls e he).1, ?_, fun f hf => h.recorded f.path (hall f hf), ?_⟩
  · intro f hf
    obtain ⟨canonical, -, hplaced⟩ := h.placed f.path (hall f hf)
    exact ⟨canonical, hplaced⟩
  · obtain ⟨f, hf⟩ := exists_mem_of_ne_nil rq.files rq.nonempty
    exact h.marked (ne_nil_of_mem (hall f hf))

lemma Completed.cons {c : Call} {r : Raising Exc Call.Value c} (horigin : c.origin = .apply)
    (h : Completed rq tr) : Completed rq (⟨c, r⟩ :: tr) := by
  have hsub := subset_cons_self (⟨c, r⟩ : Event Call (Raising Exc Call.Value)) tr
  refine ⟨?_, ?_, fun f hf => (h.recorded f hf).mono hsub, h.marked.mono hsub⟩
  · exact forall_mem_cons.mpr ⟨horigin, h.calls⟩
  · intro f hf
    obtain ⟨canonical, hplaced⟩ := h.placed f hf
    exact ⟨canonical, hplaced.mono hsub⟩

lemma Renaming.published (hnodup : done.Nodup) (hall : ∀ f ∈ rq.files, f.path ∈ done) (h : Renaming rq ts done l tr) :
    wp (Lawful rq ts) (emitChangesetEvent m .apply rq.changesetId .applied) (fun _ _ => Completed rq)
      (fun _ => Recoverable rq ts) l tr := by
  have hcompleted := h.completed hall
  refine emitChangesetEvent_spec (fun _ => trivial) hcompleted (fun _ => hcompleted.cons rfl) ?_
  intro type e
  have hjournal := h.toMoving.journal (o := .publish type rq.changesetId .applied) (Nat.zero_le 2)
    rfl (.error e)
  exact hjournal.recoverable hnodup fun _ => .inl (mem_cons_of_mem _ hcompleted.marked)

lemma applySteps_spec (policy : ServiceRegistration) (protectedPaths : List Path)
    (approvalId : Option String) (h : Base {} tr) :
    wp (Lawful rq ts) (applySteps m rq policy protectedPaths approvalId ts)
      (fun result _ tr' => result.status = .applied ∧ Completed rq tr') (fun _ => Recoverable rq ts) {} tr := by
  have hexit : ∀ (_ : Exc) l tr, Base l tr → Recoverable rq ts l tr := fun _ _ _ => Base.recoverable
  unfold applySteps
  simp only [wp_bind, wp_get, wp_pure]
  -- steps 1 to 4 and the draft
  refine wp_mono (survey_spec policy h) ?_ hexit
  intro _ l tr hsurvey
  refine wp_mono (computing_spec hsurvey) ?_ hexit
  intro _ l tr hcomputed
  refine wp_mono (validating_spec hcomputed) ?_ hexit
  intro _ l tr hvalidated
  refine wp_mono (createDraft_spec approvalId hvalidated) ?_ hexit
  intro _ l tr hdraft
  -- steps 5 and 6
  refine wp_mono (hdraft.transition (by simp)) ?_ hexit
  intro _ l tr hpreflighted
  refine wp_mono (backingUpLocally_spec hpreflighted) ?_ hexit
  intro _ l tr hlocal
  refine wp_mono (hlocal.transition (by simp)) ?_ hexit
  intro _ l tr hlocally
  refine wp_mono (backingUpRemotely_spec hlocally) ?_ hexit
  intro _ l tr hremote
  refine wp_mono (hremote.transition (by simp)) ?_ hexit
  intro _ l tr hsecured
  -- steps 7 to 9
  refine wp_forM (Writing rq ts) ?_ hsecured.writing ?_
  · intro done f rest hfiles l tr h
    exact writeTemp_spec hfiles h
  intro l tr hwritten
  refine wp_forM (fun _ => Writing rq ts rq.files) ?_ hwritten ?_
  · intro _ f _ _ l tr h
    exact checkCompose_spec h
  intro l tr hcomposed
  refine wp_mono (consumeApproval_spec protectedPaths approvalId hcomposed) ?_ fun _ _ _ => id
  intro _ l tr happroved
  refine wp_forM (fun _ l' tr' => l' = l ∧ Writing rq ts rq.files l' tr') ?_ ⟨rfl, happroved⟩ ?_
  · rintro _ path _ _ l' tr' ⟨rfl, h⟩
    exact recheckOriginal_spec path h
  rintro l' tr ⟨rfl, hchecked⟩
  -- step 10
  refine wp_forM (Renaming rq ts) ?_ hchecked.renaming ?_
  · intro done path rest hpaths l tr h
    exact renameIntoPlace_spec (hchecked.nodup_done hpaths) (hchecked.requested hpaths) h
  intro l tr hrenamed
  refine wp_mono (hrenamed.published (nodup_sortedPaths hchecked.keys) fun f hf =>
    mem_sortedPaths.mpr (hchecked.mem_keys f hf)) ?_ fun _ _ _ => id
  intro _ l tr hcompleted
  exact ⟨trivial, hcompleted⟩

end IncidentLens.Changes
