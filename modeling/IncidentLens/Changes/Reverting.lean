import IncidentLens.Changes.Duplicates
import IncidentLens.Changes.Rollback

/-!
# The rollback of an applied change set

A rollback restores one file after the other; it comes to its end unless a call of the transport or of
the stores raises.
-/
namespace IncidentLens.Changes
open Data Effects Routine List

section
variable (env : Env) (rq : ChangeSetRequest) (ts : String) (goal : FileRequest → Option Entry)

/-- Between two files of a rollback: those of `done` have been restored. -/
structure Reverting (done : List FileChange) (w : World) : Prop where
  shelf : ∃ cs, cs.status = .applied ∧ Shelf env rq ts goal w cs
  spent : ∀ f ∈ rq.files, (∃ change ∈ done, change.fileChangeId = f.operationId) → Spent env rq ts goal w f
  pending : ∀ f ∈ rq.files, (∀ change ∈ done, change.fileChangeId ≠ f.operationId) → Pending env rq ts goal w f

end

variable {m : Manager} {env : Env} {rq : ChangeSetRequest} {ts : String} {goal : FileRequest → Option Entry}
  {faults : Faults} {tr : History} {w w' w₀ : World} {c : Call} {cs : ChangeSet} {f : FileRequest}
  {change : FileChange}

lemma fault_of_respond_error {e : Exc} (h : (respond env faults tr c w).1 = .error e) :
    (∃ n, faults n ≠ none) ∨ (perform env c.op w).1 = .error e := by
  unfold respond at h
  split_ifs at h
  · cases hfault : faults tr.length with
    | some e' => exact .inl ⟨tr.length, by simp [hfault]⟩
    | none => exact .inr (by simpa [hfault] using h)
  · exact .inr h

section Files
variable (hapart : rq.Apart env ts) (hf : f ∈ rq.files)
include hapart hf

lemma Pending.remove (habsent : goal f = none) (hcreates : f.creates = true) (h : Pending env rq ts goal w f) :
    ∃ w', perform env (.removeFile rq.context.scope f.path) w = (.ok (), w') ∧ w'.journal = w.journal ∧
      Spent env rq ts goal w' f ∧ Others env rq ts f w w' := by
  obtain ⟨entry, hentry⟩ := Option.ne_none_iff_exists'.mp (h.1 hcreates)
  refine ⟨w.setFile rq.context.scope (rq.location env f.path) none, ?_, rfl, ⟨?_, ?_⟩, ?_⟩
  · unfold ChangeSetRequest.location at hentry ⊢
    simp only [perform, hentry]
  · rw [World.files_setFile, if_pos ⟨rfl, rfl⟩, habsent]
  · intro hold
    rw [hcreates] at hold
    cases hold
  · intro g hg hne location hlocation
    rw [World.files_setFile, if_neg]
    rintro ⟨-, rfl⟩
    exact hne (hapart.owner hg hf hlocation (mem_workingPaths.mpr (.inl rfl)))

lemma Pending.putBack (hcreates : f.creates = false) (h : Pending env rq ts goal w f) :
    ∃ w', perform env (.rename rq.context.scope (backupPath (rq.canonical env f.path) ts) f.path) w = (.ok (), w') ∧
      w'.journal = w.journal ∧ Spent env rq ts goal w' f ∧ Others env rq ts f w w' := by
  obtain ⟨hbackup, hgoal⟩ := h.2 hcreates
  obtain ⟨entry, hentry⟩ := Option.ne_none_iff_exists'.mp hgoal
  have hLB := ((hapart.nodup hf).2 hcreates).1
  refine ⟨(w.setFile rq.context.scope (rq.backupLocation env ts f.path) none).setFile rq.context.scope
    (rq.location env f.path) (some entry), ?_, rfl, ⟨?_, fun _ => ?_⟩, ?_⟩
  · simp only [perform, ChangeSetRequest.loc_backup, hbackup, hentry]
    rfl
  · rw [World.files_setFile, if_pos ⟨rfl, rfl⟩, hentry]
  · rw [World.files_setFile, if_neg fun heq => hLB heq.2.symm, World.files_setFile, if_pos ⟨rfl, rfl⟩]
  · intro g hg hne location hlocation
    have hmine : location ∉ rq.workingPaths env ts f := fun hmem => hne (hapart.owner hg hf hlocation hmem)
    rw [mem_workingPaths] at hmine
    simp only [hcreates, true_and, not_or] at hmine
    rw [World.files_setFile, if_neg fun heq => hmine.1 heq.2, World.files_setFile, if_neg fun heq => hmine.2.2 heq.2]

end Files

lemma Reverting.restore {done : List FileChange} (hf : f ∈ rq.files)
    (hchange : change.fileChangeId = f.operationId) (hjournal : w'.journal = w.journal)
    (hspent : Spent env rq ts goal w' f) (hothers : Others env rq ts f w w') (result : RollbackResult)
    (h : Reverting env rq ts goal done w) :
    ∃ journal, w'.journal.updateFileChange rq.changesetId f.operationId
        { rollbackResult := some result, applied := some false } = .ok journal ∧
      Reverting env rq ts goal (done ++ [change]) { w' with journal := journal } := by
  obtain ⟨cs, hstatus, hshelf⟩ := h.shelf
  have hshelf' := hshelf.restore hjournal hf hothers hspent
  obtain ⟨d, hd, hid⟩ := exists_of_forall₂ hshelf'.held hf
  obtain ⟨journal, hupdate, hshelf''⟩ := hshelf'.withdraw hf hspent hd hid.1.fileChangeId result
  have hworking : ∀ g ∈ rq.files, g ≠ f → ∀ location ∈ rq.workingPaths env ts g,
      ({ w' with journal := journal } : World).files rq.context.scope location =
        w.files rq.context.scope location := hothers
  refine ⟨journal, hupdate, ⟨Journal.patchFile cs f.operationId _, hstatus, hshelf''⟩, ?_, ?_⟩
  · rintro g hg ⟨d', hd', hid'⟩
    by_cases heq : g = f
    · rw [heq]
      exact hspent
    · refine (h.spent g hg ⟨d', ?_, hid'⟩).of_files (hworking g hg heq)
      rcases mem_append.mp hd' with hd' | hd'
      · exact hd'
      · rw [mem_singleton.mp hd', hchange] at hid'
        exact absurd (hshelf.file_eq hg hf hid'.symm) heq
  · intro g hg hnot
    have heq : g ≠ f := by
      rintro rfl
      exact hnot change (by simp) hchange
    exact (h.pending g hg fun d' hd' => hnot d' (mem_append_left _ hd')).of_files (hworking g hg heq)

lemma rollbackFile_ends {done : List FileChange} (hapart : rq.Apart env ts) (hf : f ∈ rq.files)
    (hheld : Held env rq ts goal f change) (happlied : change.applied = true)
    (hfresh : ∀ d ∈ done, d.fileChangeId ≠ f.operationId) (h : Reverting env rq ts goal done w) :
    Routine.Ends (respond env faults) (rollbackFile rq.changesetId change)
      (fun _ _ _ => Reverting env rq ts goal (done ++ [change])) (fun _ _ _ _ => ∃ n, faults n ≠ none) () tr w := by
  have hpending := h.pending f hf hfresh
  unfold rollbackFile
  rw [if_pos happlied]
  refine ends_bind (ends_ofExcept ?_ ?_)
  swap
  · intro e he
    rw [hheld.scope] at he
    cases he
  intro scope hscope
  obtain rfl := Except.ok.inj (hheld.scope.symm.trans hscope)
  rw [hheld.fileChangeId, hheld.remotePath, hheld.originallyAbsent]
  have hrecord : ∀ {w' : World} {tr' : History} (result : RollbackResult), w'.journal = w.journal →
      Spent env rq ts goal w' f → Others env rq ts f w w' →
      Routine.Ends (respond env faults) (call .rollback (.updateFileChange rq.changesetId f.operationId
        { rollbackResult := some result, applied := some false }) : M Unit Unit)
        (fun _ _ _ => Reverting env rq ts goal (done ++ [change])) (fun _ _ _ _ => ∃ n, faults n ≠ none) () tr' w' := by
    intro w' tr' result hjournal hspent hothers
    obtain ⟨journal, hupdate, hreverting⟩ := h.restore hf hheld.fileChangeId hjournal hspent hothers result
    have hworld : perform env (.updateFileChange rq.changesetId f.operationId
        { rollbackResult := some result, applied := some false }) w' = (.ok (), { w' with journal := journal }) := by
      simp only [perform, hupdate]
    refine ends_invoke ?_ ?_
    · intro _ hok
      rw [respond_eq_perform hok, hworld]
      exact hreverting
    · intro e herror
      rcases fault_of_respond_error herror with hfault | herror
      · exact hfault
      · rw [hworld] at herror
        cases herror
  refine ends_bind (ends_attempt (ends_mono
    (Q := fun _ _ _ => Reverting env rq ts goal (done ++ [change])) (X := fun _ _ _ _ => ∃ n, faults n ≠ none)
    (ends_ite (fun hcreates => ?_) fun hcreates => ?_) ?_ ?_))
  · obtain ⟨w', hworld, hjournal, hspent, hothers⟩ := hpending.remove hapart hf (hheld.absent happlied hcreates) hcreates
    refine ends_bind (ends_invoke ?_ ?_)
    · intro _ hok
      rw [respond_eq_perform hok, hworld]
      exact hrecord .removed hjournal hspent hothers
    · intro e herror
      refine (fault_of_respond_error herror).resolve_right ?_
      rw [hworld]
      rintro ⟨⟩
  · have hold : f.creates = false := by simpa using hcreates
    obtain ⟨w', hworld, hjournal, hspent, hothers⟩ := hpending.putBack hapart hf hold
    rw [hheld.backup happlied hold, Option.getD_some]
    refine ends_bind (ends_invoke ?_ ?_)
    · intro _ hok
      rw [respond_eq_perform hok, hworld]
      exact hrecord .restored hjournal hspent hothers
    · intro e herror
      refine (fault_of_respond_error herror).resolve_right ?_
      rw [hworld]
      rintro ⟨⟩
  · exact fun _ _ _ _ h => ends_pure h
  · exact fun _ _ _ _ h => ends_throw h

/-- A change set as `apply` leaves it. -/
structure Applied (env : Env) (rq : ChangeSetRequest) (ts : String) (goal : FileRequest → Option Entry) (w : World)
    (cs : ChangeSet) : Prop extends Shelf env rq ts goal w cs where
  status : cs.status = .applied
  applied : ∀ change ∈ cs.files, change.applied = true
  pending : ∀ f ∈ rq.files, Pending env rq ts goal w f

lemma Applied.rollbackFiles_ends (hapart : rq.Apart env ts) (h : Applied env rq ts goal w cs) :
    Routine.Ends (respond env faults) (cs.files.reverse.forM (rollbackFile rq.changesetId))
      (fun _ _ _ => Reverting env rq ts goal cs.files.reverse) (fun _ _ _ _ => ∃ n, faults n ≠ none) () tr w := by
  refine ends_forM (fun done _ _ => Reverting env rq ts goal done) ?_ ?_ fun _ _ _ h => h
  · rintro done change rest hfiles ⟨⟩ tr w hreverting
    have hmem : change ∈ cs.files := by
      rw [← mem_reverse, hfiles]
      simp
    obtain ⟨f, hf, hheld, -⟩ := h.find hmem
    refine rollbackFile_ends hapart hf hheld (h.applied change hmem) ?_ hreverting
    intro d hd hid
    have hnodup := (reverse_perm cs.files).map FileChange.fileChangeId |>.nodup_iff.mpr h.nodup_ids
    rw [hfiles, map_append, map_cons] at hnodup
    refine (nodup_append.mp hnodup).2.2 _ (mem_map_of_mem hd) _ mem_cons_self ?_
    rw [hid, hheld.fileChangeId]
  · refine ⟨⟨cs, h.status, h.toShelf⟩, ?_, fun f hf _ => h.pending f hf⟩
    rintro f - ⟨d, ⟨⟩, -⟩

lemma ends_silent {origin : Origin} {o : Op} {v : o.Value} {Q : o.Value → Unit → History → World → Prop}
    {X : Exc → Unit → History → World → Prop} (hperform : perform env o w = (.ok v, w)) (hQ : ∀ tr', Q v () tr' w)
    (hX : ∀ e tr' w', (∃ n, faults n ≠ none) → X e () tr' w') :
    Routine.Ends (respond env faults) (call origin o : M Unit o.Value) Q X () tr w := by
  refine ends_invoke ?_ ?_
  · intro v' hok
    have hresponse := respond_eq_perform hok
    rw [hresponse, hperform] at hok ⊢
    rw [← Except.ok.inj hok]
    exact hQ _
  · intro e herror
    refine hX e _ _ ((fault_of_respond_error herror).resolve_right ?_)
    rw [hperform]
    rintro ⟨⟩

/-- What keeps a rollback from its end: a call that fails, no transport, or no approval. -/
def Hindered (m : Manager) (rq : ChangeSetRequest) (cs : ChangeSet) (approvalId : Option String) (faults : Faults) : Prop :=
  (∃ n, faults n ≠ none) ∨ ¬ m.Resolves rq.context.projectId rq.context.targetId ∨
    interruptsService m cs = true ∧ approvalId = none

lemma resolveTransportFor_ends {Q : Unit → Unit → History → World → Prop} {X : Exc → Unit → History → World → Prop}
    {projectId targetId : String} (hQ : ∀ tr', Q () () tr' w)
    (hX : ∀ e tr' w', (∃ n, faults n ≠ none) ∨ ¬ m.Resolves projectId targetId → X e () tr' w') :
    Routine.Ends (respond env faults) (resolveTransportFor m .rollback projectId targetId) Q X () tr w := by
  unfold resolveTransportFor
  unfold Manager.Resolves at hX
  cases hprojects : m.projects with
  | none =>
    simp only [hprojects] at hX ⊢
    refine ends_ite (fun _ => ends_pure (hQ _)) fun htransport => ?_
    exact ends_throw (hX _ _ _ (.inr htransport))
  | some projects =>
    simp only [hprojects] at hX ⊢
    by_cases hsessions : m.sessions = true
    · simp only [hsessions, if_true] at hX ⊢
      refine ends_bind (ends_ofExcept ?_ ?_)
      · intro record hrecord
        refine ends_ite (fun _ => ends_silent rfl hQ fun e _ _ hfault => hX e _ _ (.inl hfault)) fun htarget => ?_
        refine ends_throw (hX _ _ _ (.inr ?_))
        rintro ⟨record', hrecord', htarget'⟩
        rw [hrecord] at hrecord'
        exact htarget (Except.ok.inj hrecord' ▸ htarget')
      · intro e he
        refine hX e _ _ (.inr ?_)
        rintro ⟨record, hrecord, -⟩
        rw [he] at hrecord
        cases hrecord
    · simp only [hsessions, Bool.false_eq_true, if_false] at hX ⊢
      refine ends_ite (fun _ => ends_pure (hQ _)) fun htransport => ?_
      exact ends_throw (hX _ _ _ (.inr htransport))

lemma Applied.finish_ends (hapart : rq.Apart env ts) (h : Applied env rq ts goal w cs) :
    Routine.Ends (respond env faults) (do
        cs.files.reverse.forM (rollbackFile rq.changesetId)
        transition m .rollback rq.changesetId .rolledBack)
      (fun _ _ _ w' => ∀ f ∈ rq.files, w'.files rq.context.scope (rq.location env f.path) = goal f)
      (fun _ _ _ _ => ∃ n, faults n ≠ none) () tr w := by
  refine ends_bind (ends_mono (h.rollbackFiles_ends hapart) ?_ fun _ _ _ _ h => h)
  rintro _ ⟨⟩ tr w hreverting
  have hgoal : ∀ f ∈ rq.files, w.files rq.context.scope (rq.location env f.path) = goal f := by
    intro f hf
    obtain ⟨change, hchange, hheld, -⟩ := exists_of_forall₂ h.held hf
    exact (hreverting.spent f hf ⟨change, mem_reverse.mpr hchange, hheld.fileChangeId⟩).1
  obtain ⟨cs', hstatus, hshelf⟩ := hreverting.shelf
  have hmem : cs'.status ∈ ChangeSetStatus.rolledBack.validPredecessors := by
    rw [hstatus]
    decide
  obtain ⟨journal, htransition⟩ := Journal.transition_ne_error hshelf.row hmem
  have hworld : perform env (.transition rq.changesetId .rolledBack) w = (.ok (), { w with journal := journal }) := by
    simp only [perform, htransition]
  unfold transition
  refine ends_bind (ends_invoke ?_ ?_)
  · intro _ hok
    rw [respond_eq_perform hok, hworld]
    unfold emitChangesetEvent
    refine ends_ite (fun _ => ends_silent rfl (fun _ => hgoal) fun _ _ _ h => h) fun _ => ?_
    exact ends_pure hgoal
  · intro e herror
    refine (fault_of_respond_error herror).resolve_right ?_
    rw [hworld]
    rintro ⟨⟩

lemma Applied.rollback_ends (hapart : rq.Apart env ts) {approvalId : Option String}
    (h : Applied env rq ts goal w cs) : Routine.Ends (respond env faults) (rollback m rq.changesetId approvalId)
      (fun _ _ _ w' => ∀ f ∈ rq.files, w'.files rq.context.scope (rq.location env f.path) = goal f)
      (fun _ _ _ _ => Hindered m rq cs approvalId faults) () [] w := by
  have hrow : perform env (.getChangeset rq.changesetId) w = (.ok (some cs), w) := by simp only [perform, h.row]
  have hfault : (∃ n, faults n ≠ none) → Hindered m rq cs approvalId faults := .inl
  unfold rollback
  refine ends_bind (ends_silent hrow (fun tr' => ?_) fun _ _ _ => hfault)
  refine ends_ite (fun hstatus => absurd h.status hstatus.1) fun _ => ?_
  refine ends_ite (fun happroval => ends_throw (.inr (.inr happroval))) fun _ => ?_
  refine ends_bind (resolveTransportFor_ends (fun tr' => ?_) ?_)
  · have hfinish := fun tr'' => ends_mono (@Applied.finish_ends m env rq ts goal faults tr'' w cs hapart h)
      (fun _ _ _ _ h => h) fun _ _ _ _ => hfault
    cases approvalId with
    | none => exact hfinish _
    | some approvalId =>
      refine ends_ite (fun _ => ?_) fun _ => hfinish _
      exact ends_bind (ends_silent rfl hfinish fun _ _ _ => hfault)
  · intro _ _ _ hhindered
    rw [h.project, h.target] at hhindered
    exact hhindered.elim hfault fun h => .inr (.inl h)

lemma Completed.applied (hapart : rq.Apart env ts) (hwatched : Watched env rq ts w₀ tr w)
    (hjoint : Joint env rq ts w₀ tr w) (h : Completed rq tr) :
    ∃ cs, Applied env rq ts (fun f => w₀.files rq.context.scope (rq.location env f.path)) w cs := by
  have hrenamed : ∀ f ∈ rq.files, Renamed env rq tr f.path := by
    intro f hf
    obtain ⟨canonical, hplaced⟩ := h.placed f hf
    exact (hplaced.renamed hjoint.genuine).2
  have hprepared : ∀ f ∈ rq.files, ∃ original content, Prepared rq ts tr f.path (rq.canonical env f.path) original content := by
    intro f hf
    obtain ⟨original, content, mode, hprepared, -⟩ := hjoint.past.renamed hapart hjoint.genuine hf (hrenamed f hf)
    exact ⟨original, content, hprepared⟩
  obtain ⟨f₀, hf₀⟩ := exists_mem_of_ne_nil rq.files rq.nonempty
  obtain ⟨_, _, hprepared₀⟩ := hprepared f₀ hf₀
  obtain ⟨cs, hrow, hproject, htarget, hprogress, hchanges⟩ := hjoint.row.row hprepared₀.created
  have hmarked : ∀ f ∈ rq.files, ∀ change, ChangeTracked env rq ts tr f change → change.applied = true := by
    intro f hf change htracked
    refine htracked.applied.mpr ⟨?_, ?_⟩
    · obtain ⟨g, hg, hpath, result, hdid⟩ := h.recorded f hf
      obtain rfl := hapart.eq_of_path hg hf hpath
      exact ⟨_, rfl, hdid⟩
    · rintro ⟨patch, hdid⟩
      exact h.no_handler hdid
  have hpending : ∀ f ∈ rq.files, Pending env rq ts (fun f => w₀.files rq.context.scope (rq.location env f.path)) w f := by
    intro f hf
    refine ⟨fun _ hnone => ?_, fun hcreates => ?_⟩
    · obtain ⟨content, mode, -, hfile⟩ := (hjoint.files f hf).placed (hrenamed f hf) (by
        rintro (⟨-, hdid⟩ | ⟨-, hdid⟩) <;> exact h.no_handler hdid)
      rw [hfile] at hnone
      cases hnone
    · have hold : ¬ IsNew rq f.path := fun hnew => by simp [(hapart.isNew hf).mp hnew] at hcreates
      obtain ⟨_, _, hprepared⟩ := hprepared f hf
      obtain ⟨_, -, hcopied, -⟩ := hprepared.secured hold
      obtain ⟨hbackup, hsome⟩ := (hjoint.files f hf).backup hcreates hcopied fun hdid => h.no_handler hdid
      exact ⟨hbackup, Option.isSome_iff_ne_none.mp hsome⟩
  have hheld : ∀ f ∈ rq.files, ∀ change, ChangeTracked env rq ts tr f change →
      Held env rq ts (fun f => w₀.files rq.context.scope (rq.location env f.path)) f change := by
    intro f hf change htracked
    refine ⟨htracked.fileChangeId, htracked.remotePath, htracked.scope, ?_, fun _ hcreates => ?_, fun _ hcreates => ?_⟩
    · exact Bool.eq_iff_iff.mpr (htracked.originallyAbsent.trans (hapart.isNew hf))
    · have hold : ¬ IsNew rq f.path := fun hnew => by simp [(hapart.isNew hf).mp hnew] at hcreates
      obtain ⟨_, _, hprepared⟩ := hprepared f hf
      obtain ⟨_, -, -, -, hnoted⟩ := hprepared.secured hold
      exact htracked.backup ⟨_, rfl, hnoted f hf rfl⟩
    · obtain ⟨original, _, hprepared⟩ := hprepared f hf
      obtain ⟨g, hg, hpath, -, hpreflighted⟩ := hprepared.survey
      obtain rfl := hapart.eq_of_path hg hf hpath
      cases original with
      | some original => simp [hpreflighted.1] at hcreates
      | none =>
        obtain ⟨-, e, hkind, hraised⟩ := hpreflighted
        exact hwatched.absent g hg hcreates e hkind hraised
  have hshelf : Shelf env rq ts (fun f => w₀.files rq.context.scope (rq.location env f.path)) w cs := by
    refine ⟨hrow, hproject, htarget, hjoint.row.distinct hprepared₀.created, ?_⟩
    refine ((forall₂_and_left rq.files cs.files).mpr ⟨fun _ hf => hf, hchanges⟩).imp ?_
    rintro f change ⟨hf, htracked⟩
    refine ⟨hheld f hf change htracked, fun _ => .inl (hpending f hf), fun hnot => ?_⟩
    simp [hmarked f hf change htracked] at hnot
  refine ⟨cs, hshelf, ?_, ?_, hpending⟩
  · exact (hprogress.opened fun _ => h.no_handler).2.mpr h.marked
  · intro change hchange
    obtain ⟨f, hf, htracked⟩ := exists_of_forall₂' (((forall₂_and_left rq.files cs.files).mpr
      ⟨fun _ hf => hf, hchanges⟩).imp fun f change h => h) hchange
    exact hmarked f hf change htracked.2

section
variable (env : Env) (rq : ChangeSetRequest) (w w' : World)

/-- Unless something hinders it, a rollback ends, and then every file is as it was before the first entry. -/
def RollsBack : Prop := ∀ (m : Manager) (approvalId : Option String) (faults : Faults),
  let run := (rollback m rq.changesetId approvalId ()).run (respond env faults) [] w'
  (run.1.1 = .ok () → Intact env rq w run.2.2) ∧ ∀ e, run.1.1 = .error e →
    ∃ cs, w'.journal.get rq.changesetId = some cs ∧ Hindered m rq cs approvalId faults

/-- `apply` ends with the results of all entries, which a rollback takes back, or no file has changed. -/
def KeepsEntries (out : Except Exc ChangeResult) : Prop :=
  (∃ result, out = .ok result ∧ result.status = .applied ∧ Combined env rq w w' ∧ RollsBack env rq w w') ∨
    (∀ result, out = .ok result → result.status ≠ .applied) ∧ Intact env rq w w'

end

lemma Applied.rollsBack (hapart : rq.Apart env ts)
    (h : Applied env rq ts (fun f => w₀.files rq.context.scope (rq.location env f.path)) w cs) :
    RollsBack env rq w₀ w := by
  intro m approvalId faults
  obtain ⟨hok, herror⟩ := @Applied.rollback_ends m env rq ts _ faults w cs hapart approvalId h
  exact ⟨fun hreturned => hok () hreturned, fun e he => ⟨cs, h.row, herror e he⟩⟩

def pairSha256 (content : Bytes) : String :=
  if content = [97, 98] then "fb8e20fc2e4c3f248c60c39bd652f3c1347298bb977b8b4d5903b85055620603"
  else if content = [120, 98] then "ff108ea1c0a069a00ee5a1c9bbe72fc3d67b5f0d3accb8e132cd9e1a8dbbd50f"
  else if content = [97, 121] then "69d61997a241e97931db9dd1cfcef218041a752485f5f7956b09766287682da3"
  else sampleSha256 content

def pairManager : Manager where
  env := { sampleEnv with sha256 := pairSha256 }
  policy := some
    { composeService := "web"
      allowedContainerPaths := [⟨true, ["srv", "app"]⟩]
      containerNames := ["web-1"] }
  transport := true

def pairContext : OperationContext := { sampleContext with scope := .container "web-1" }

/-- An edit of the file with the content `ab`. -/
def pairEdit (operationId : String) (oldText newText : Text) : FileRequest where
  toOperationContext := pairContext
  operationId := operationId
  path := samplePath
  mutation := .edit (pairSha256 [97, 98]) [{ oldText := oldText, newText := newText }]

/-- Replaces `a` by `x` and `b` by `y`, in two entries. -/
def pairRequest : ChangeSetRequest where
  changesetId := "cs-1"
  files := [pairEdit "op-1" ['a'] ['x'], pairEdit "op-2" ['b'] ['y']]
  verificationPlan := "check the service"
  rollbackPlan := "restore the file"
  context := pairContext
  nonempty := cons_ne_nil _ _
  shared f hf := by
    rcases mem_pair.mp hf with rfl | rfl
    · rfl
    · rfl

def pairWorld : World where
  files _ path := if path = samplePath then some ⟨[97, 98], 0o644⟩ else none

end IncidentLens.Changes
