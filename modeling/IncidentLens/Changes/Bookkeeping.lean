import IncidentLens.Changes.Consistency

/-!
# The journal entry along a run

The entry of a change set is what the journal calls made of it: its status is the last
transition, and a file is marked as applied from its record until that is withdrawn.
-/
namespace IncidentLens.Changes
open Data Effects List ChangeSetStatus Journal

section
variable (env : Env) (rq : ChangeSetRequest) (ts : String) (w₀ : World)

/-- The journal has been told that the file is applied. -/
def Marked (tr : History) (f : FileRequest) : Prop :=
  ∃ patch : FileChangePatch, patch.applied = some true ∧
    Did tr .apply (.updateFileChange rq.changesetId f.operationId patch) ()

/-- The journal has been told that the file is restored. -/
def Unmarked (tr : History) (f : FileRequest) : Prop :=
  ∃ patch, Did tr .handler (.updateFileChange rq.changesetId f.operationId patch) ()

/-- The journal has been told where the backup is. -/
def Noted (tr : History) (f : FileRequest) : Prop :=
  ∃ patch : FileChangePatch, patch.remoteBackupPath = some (backupPath (rq.canonical env f.path) ts) ∧
    Did tr .apply (.updateFileChange rq.changesetId f.operationId patch) ()

structure ChangeTracked (tr : History) (f : FileRequest) (change : FileChange) : Prop where
  fileChangeId : change.fileChangeId = f.operationId
  remotePath : change.remotePath = f.path
  scope : backendForChange change = .ok rq.context.scope
  originallyAbsent : change.originallyAbsent = true ↔ IsNew rq f.path
  applied : change.applied = true ↔ Marked rq tr f ∧ ¬ Unmarked rq tr f
  backup : Noted env rq ts tr f → change.remoteBackupPath = some (backupPath (rq.canonical env f.path) ts)

/-- The status of the entry is the last transition of the handler, otherwise one of the steps. -/
structure Progress (tr : History) (status : ChangeSetStatus) : Prop where
  closed : ∀ target, Did tr .handler (.transition rq.changesetId target) () → status = target
  opened : (∀ target, ¬ Did tr .handler (.transition rq.changesetId target) ()) →
    status ∈ [.draft, .preflighted, .locallyBackedUp, .remotelyBackedUp, .applied] ∧
      (status = .applied ↔ Did tr .apply (.transition rq.changesetId .applied) ())

structure RowTracked (tr : History) (w : World) : Prop where
  absent : ¬ Created tr → w.journal.get rq.changesetId = w₀.journal.get rq.changesetId
  fresh : Created tr → w₀.journal.get rq.changesetId = none
  row : Created tr → ∃ cs, w.journal.get rq.changesetId = some cs ∧
    cs.projectId = rq.context.projectId ∧ cs.targetId = rq.context.targetId ∧
    Progress rq tr cs.status ∧ List.Forall₂ (ChangeTracked env rq ts tr) rq.files cs.files
  distinct : Created tr → (rq.files.map FileRequest.operationId).Nodup

end

/-- The calls that change the journal. -/
def Op.records : Op → Bool
  | createChangeset _ | updateFileChange _ _ _ | transition _ _ => true
  | _ => false

variable {env : Env} {rq : ChangeSetRequest} {ts : String} {faults : Faults} {tr tr' : History}
  {w w' w₀ : World} {c : Call} {f : FileRequest}

lemma journal_perform {o : Op} (ho : o.records = false) : (perform env o w).2.journal = w.journal := by
  cases o with
  | createChangeset _ => cases ho
  | updateFileChange _ _ _ => cases ho
  | transition _ _ => cases ho
  | _ =>
    simp only [perform]
    repeat' split
    all_goals rfl

section Frame
variable {r : Raising Exc Call.Value c}

lemma Created.of_records (hold : ∀ {origin op v}, op.records = true →
    Did (⟨c, r⟩ :: tr) origin op v → Did tr origin op v) (h : Created (⟨c, r⟩ :: tr)) : Created tr := by
  obtain ⟨cs, hcs⟩ := h
  exact ⟨cs, hold rfl hcs⟩

lemma ChangeTracked.frame {change : FileChange}
    (hold : ∀ {origin op v}, op.records = true → Did (⟨c, r⟩ :: tr) origin op v → Did tr origin op v)
    (h : ChangeTracked env rq ts tr f change) : ChangeTracked env rq ts (⟨c, r⟩ :: tr) f change := by
  have hsub := subset_cons_self (⟨c, r⟩ : Event Call (Raising Exc Call.Value)) tr
  refine ⟨h.fileChangeId, h.remotePath, h.scope, h.originallyAbsent, h.applied.trans ?_, ?_⟩
  · constructor
    · rintro ⟨⟨patch, happlied, hdid⟩, hnot⟩
      refine ⟨⟨patch, happlied, hdid.mono hsub⟩, ?_⟩
      rintro ⟨patch', hdid'⟩
      exact hnot ⟨patch', hold rfl hdid'⟩
    · rintro ⟨⟨patch, happlied, hdid⟩, hnot⟩
      refine ⟨⟨patch, happlied, hold rfl hdid⟩, ?_⟩
      rintro ⟨patch', hdid'⟩
      exact hnot ⟨patch', hdid'.mono hsub⟩
  · rintro ⟨patch, hbackup, hdid⟩
    exact h.backup ⟨patch, hbackup, hold rfl hdid⟩

lemma Progress.frame {status : ChangeSetStatus}
    (hold : ∀ {origin op v}, op.records = true → Did (⟨c, r⟩ :: tr) origin op v → Did tr origin op v)
    (h : Progress rq tr status) : Progress rq (⟨c, r⟩ :: tr) status := by
  have hsub := subset_cons_self (⟨c, r⟩ : Event Call (Raising Exc Call.Value)) tr
  refine ⟨fun target hdid => h.closed target (hold rfl hdid), ?_⟩
  intro hopen
  obtain ⟨hmem, hiff⟩ := h.opened fun target hdid => hopen target (hdid.mono hsub)
  exact ⟨hmem, hiff.trans ⟨fun hdid => hdid.mono hsub, hold rfl⟩⟩

lemma RowTracked.frame
    (hold : ∀ {origin op v}, op.records = true → Did (⟨c, r⟩ :: tr) origin op v → Did tr origin op v)
    (hw : w'.journal = w.journal) (h : RowTracked env rq ts w₀ tr w) : RowTracked env rq ts w₀ (⟨c, r⟩ :: tr) w' := by
  have hsub := subset_cons_self (⟨c, r⟩ : Event Call (Raising Exc Call.Value)) tr
  refine ⟨?_, fun hc => h.fresh (hc.of_records hold), ?_, fun hc => h.distinct (hc.of_records hold)⟩
  · intro hnot
    rw [hw]
    exact h.absent fun hc => hnot (hc.mono hsub)
  · intro hc
    obtain ⟨cs, hget, hproject, htarget, hprogress, hfiles⟩ := h.row (hc.of_records hold)
    exact ⟨cs, by rw [hw, hget], hproject, htarget, hprogress.frame hold, hfiles.imp fun f change hf => hf.frame hold⟩

end Frame

lemma Past.created_of_rename (hpast : Past rq ts tr) {scope : RemoteScope} {temp canonical : Path}
    (h : Did tr .apply (.rename scope temp canonical) ()) : Created tr := by
  obtain ⟨tr', hsub, -, -, -, path, original, content, mode, hprepared, -⟩ := hpast _ h
  exact hprepared.created.mono hsub

variable {journal : Journal} {origin : Origin} {p : FileChangePatch}

lemma RowTracked.create {cs : ChangeSet} (hpast : Past rq ts tr)
    (hlawful : Lawful rq ts tr ⟨.apply, .createChangeset cs⟩)
    (hcreate : w.journal.createChangeset cs = .ok journal) (h : RowTracked env rq ts w₀ tr w) :
    RowTracked env rq ts w₀ (⟨⟨.apply, .createChangeset cs⟩, .ok ()⟩ :: tr) { w with journal := journal } := by
  obtain ⟨hquiet, hcs, hdrafts⟩ := hlawful
  obtain ⟨hnone, hnodup, hget⟩ := createChangeset_eq_ok hcreate
  have hid : cs.changesetId = rq.changesetId := by rw [hcs]; rfl
  rw [hid] at hnone hget
  have hnot : ¬ Created tr := by
    intro hc
    obtain ⟨cs', hcs', -⟩ := h.row hc
    rw [hnone] at hcs'
    cases hcs'
  have hstage : ∀ {origin op v}, Did (⟨⟨.apply, .createChangeset cs⟩, .ok ()⟩ :: tr) origin op v →
      Call.stage ⟨origin, op⟩ = 0 := by
    intro origin op v hdid
    rcases mem_cons.mp hdid with heq | hmem
    · obtain ⟨horigin, hop⟩ := Call.mk.inj (congrArg Event.call heq)
      subst horigin hop
      rfl
    · exact Nat.le_zero.mp (hquiet _ hmem)
  refine ⟨fun hnot' => absurd ⟨cs, mem_cons_self⟩ hnot', ?_, ?_, ?_⟩
  · intro _
    rw [← h.absent hnot, hnone]
  · intro _
    refine ⟨cs, ?_, by rw [hcs]; rfl, by rw [hcs]; rfl, ⟨?_, ?_⟩, ?_⟩
    · change journal.get rq.changesetId = some cs
      rw [hget, if_pos rfl]
    · intro target hdid
      cases hstage hdid
    · intro _
      have hstatus : cs.status = .draft := by rw [hcs]; rfl
      refine ⟨by simp [hstatus], ?_⟩
      constructor
      · intro happlied
        rw [hstatus] at happlied
        cases happlied
      · intro hdid
        cases hstage hdid
    · refine hdrafts.imp ?_
      intro f change hf
      refine ⟨hf.fileChangeId, hf.remotePath, hf.scope, hf.originallyAbsent, ?_, ?_⟩
      · rw [hf.applied]
        constructor
        · rintro ⟨⟩
        · rintro ⟨⟨patch, happlied, hdid⟩, -⟩
          have := hstage hdid
          simp [Call.stage, happlied] at this
      · rintro ⟨patch, -, hdid⟩
        obtain ⟨tr', hsub, -, hcreated, -⟩ := hpast _ (hdid.of_cons (by rintro ⟨⟩))
        exact absurd (hcreated.mono hsub) hnot
  · intro _
    have hids : rq.files.map FileRequest.operationId = cs.files.map FileChange.fileChangeId := by
      rw [← forall₂_eq_eq_eq, forall₂_map_left_iff, forall₂_map_right_iff]
      exact hdrafts.imp fun f change hf => hf.fileChangeId.symm
    rw [hids]
    exact hnodup

lemma ChangeTracked.patch {fileChangeId : String} {change : FileChange} (hgenuine : Genuine env rq w₀ tr)
    (hdistinct : (rq.files.map FileRequest.operationId).Nodup) (hf : f ∈ rq.files)
    (hlawful : Lawful rq ts tr ⟨origin, .updateFileChange rq.changesetId fileChangeId p⟩)
    (h : ChangeTracked env rq ts tr f change) :
    ChangeTracked env rq ts (⟨⟨origin, .updateFileChange rq.changesetId fileChangeId p⟩, .ok ()⟩ :: tr) f
      (if change.fileChangeId = fileChangeId then change.patch p else change) := by
  have hsub := subset_cons_self (⟨⟨origin, .updateFileChange rq.changesetId fileChangeId p⟩,
    .ok ()⟩ : Event Call (Raising Exc Call.Value)) tr
  have hunique : ∀ g ∈ rq.files, fileChangeId = g.operationId → f.operationId = fileChangeId → g = f :=
    fun g hg heq hid => inj_on_of_nodup_map hdistinct hg hf (by rw [← heq, hid])
  rw [h.fileChangeId]
  by_cases hid : f.operationId = fileChangeId
  · rw [if_pos hid]
    subst hid
    cases origin with
    | rollback => exact hlawful.elim
    | apply =>
      obtain ⟨-, -, -, -, hbackup, happlied⟩ := hlawful
      have hunmarked : Unmarked rq (⟨⟨.apply, .updateFileChange rq.changesetId f.operationId p⟩, .ok ()⟩ ::
          tr) f ↔ Unmarked rq tr f := by
        constructor
        · rintro ⟨p', hdid⟩
          exact ⟨p', hdid.of_cons (by rintro ⟨⟩)⟩
        · rintro ⟨p', hdid⟩
          exact ⟨p', hdid.mono hsub⟩
      refine ⟨h.fileChangeId, h.remotePath, h.scope, h.originallyAbsent, ?_, ?_⟩
      · change p.applied.getD change.applied = true ↔ _
        rw [hunmarked]
        cases hp : p.applied with
        | none =>
          refine h.applied.trans (and_congr_left fun _ => ?_)
          constructor
          · rintro ⟨p', hp', hdid⟩
            exact ⟨p', hp', hdid.mono hsub⟩
          · rintro ⟨p', hp', hdid⟩
            refine ⟨p', hp', hdid.of_cons ?_⟩
            rintro ⟨⟩
            rw [hp] at hp'
            cases hp'
        | some applied =>
          obtain ⟨rfl, hquiet, -⟩ := happlied applied hp
          refine ⟨fun _ => ⟨⟨p, hp, mem_cons_self⟩, ?_⟩, fun _ => rfl⟩
          rintro ⟨p', hdid⟩
          exact absurd (hdid.stage_le hquiet) (by simp [Call.stage])
      · rintro ⟨p', hp', hdid⟩
        change (p.remoteBackupPath <|> change.remoteBackupPath) = _
        cases hp : p.remoteBackupPath with
        | none =>
          refine h.backup ⟨p', hp', hdid.of_cons ?_⟩
          rintro ⟨⟩
          rw [hp] at hp'
          cases hp'
        | some backup =>
          obtain ⟨-, -, g, hg, hgid, canonical, original, hat, rfl⟩ := hbackup backup hp
          obtain rfl := hunique g hg hgid rfl
          rw [hat.canonical_eq hgenuine]
          rfl
    | handler =>
      obtain ⟨-, happlied, hbackup, -⟩ := hlawful
      refine ⟨h.fileChangeId, h.remotePath, h.scope, h.originallyAbsent, ?_, ?_⟩
      · change p.applied.getD change.applied = true ↔ _
        rw [happlied]
        constructor
        · rintro ⟨⟩
        · rintro ⟨-, hnot⟩
          exact absurd ⟨p, mem_cons_self⟩ hnot
      · rintro ⟨p', hp', hdid⟩
        change (p.remoteBackupPath <|> change.remoteBackupPath) = _
        rw [hbackup]
        exact h.backup ⟨p', hp', hdid.of_cons (by rintro ⟨⟩)⟩
  · rw [if_neg hid]
    have hold : ∀ {origin' p'}, Did (⟨⟨origin, .updateFileChange rq.changesetId fileChangeId p⟩, .ok ()⟩ ::
        tr) origin' (.updateFileChange rq.changesetId f.operationId p') () →
        Did tr origin' (.updateFileChange rq.changesetId f.operationId p') () := by
      intro origin' p' hdid
      refine hdid.of_cons ?_
      rintro ⟨⟩
      exact hid rfl
    refine ⟨h.fileChangeId, h.remotePath, h.scope, h.originallyAbsent, h.applied.trans ?_, ?_⟩
    · constructor
      · rintro ⟨⟨p', hp', hdid⟩, hnot⟩
        exact ⟨⟨p', hp', hdid.mono hsub⟩, fun h' => hnot (Exists.imp (fun _ => hold) h')⟩
      · rintro ⟨⟨p', hp', hdid⟩, hnot⟩
        exact ⟨⟨p', hp', hold hdid⟩, fun h' => hnot (Exists.imp (fun _ hdid' => hdid'.mono hsub) h')⟩
    · rintro ⟨p', hp', hdid⟩
      exact h.backup ⟨p', hp', hold hdid⟩

lemma Lawful.created (hpast : Past rq ts tr) {changesetId fileChangeId : String}
    (h : Lawful rq ts tr ⟨origin, .updateFileChange changesetId fileChangeId p⟩) :
    changesetId = rq.changesetId ∧ Created tr ∧ ∃ f ∈ rq.files, fileChangeId = f.operationId := by
  cases origin with
  | apply => exact ⟨h.1, h.2.1, h.2.2.2.1⟩
  | handler =>
    obtain ⟨hid, -, -, f, hf, hfid, canonical, ⟨-, hrename⟩, -⟩ := h
    exact ⟨hid, hpast.created_of_rename hrename, f, hf, hfid⟩
  | rollback => exact h.elim

lemma RowTracked.update {changesetId fileChangeId : String}
    (hgenuine : Genuine env rq w₀ tr) (hpast : Past rq ts tr)
    (hlawful : Lawful rq ts tr ⟨origin, .updateFileChange changesetId fileChangeId p⟩)
    (hupdate : w.journal.updateFileChange changesetId fileChangeId p = .ok journal)
    (h : RowTracked env rq ts w₀ tr w) :
    RowTracked env rq ts w₀
      (⟨⟨origin, .updateFileChange changesetId fileChangeId p⟩, .ok ()⟩ :: tr) { w with journal := journal } := by
  have hsub := subset_cons_self (⟨⟨origin, .updateFileChange changesetId fileChangeId p⟩,
    .ok ()⟩ : Event Call (Raising Exc Call.Value)) tr
  obtain ⟨rfl, hcreated, -⟩ := hlawful.created hpast
  obtain ⟨cs, hrow, -, hget⟩ := updateFileChange_eq_ok hupdate
  obtain ⟨cs', hrow', hproject, htarget, hprogress, hfiles⟩ := h.row hcreated
  obtain rfl : cs = cs' := Option.some.inj (hrow.symm.trans hrow')
  have hdistinct := h.distinct hcreated
  refine ⟨fun hnot => absurd (hcreated.mono hsub) hnot, fun _ => h.fresh hcreated, ?_, fun _ => hdistinct⟩
  intro _
  refine ⟨patchFile cs fileChangeId p, ?_, hproject, htarget, ⟨?_, ?_⟩, ?_⟩
  · change journal.get rq.changesetId = _
    rw [hget, if_pos rfl]
  · exact fun target hdid => hprogress.closed target (hdid.of_cons (by rintro ⟨⟩))
  · intro hopen
    obtain ⟨hmem, hiff⟩ := hprogress.opened fun target hdid => hopen target (hdid.mono hsub)
    exact ⟨hmem, hiff.trans ⟨fun hdid => hdid.mono hsub, fun hdid => hdid.of_cons (by rintro ⟨⟩)⟩⟩
  · change List.Forall₂ _ rq.files (cs.files.map _)
    rw [forall₂_map_right_iff]
    refine ((forall₂_and_left rq.files cs.files).mpr ⟨fun _ hf => hf, hfiles⟩).imp ?_
    rintro f change ⟨hf, hchange⟩
    exact hchange.patch hgenuine hdistinct hf hlawful

lemma RowTracked.transition {changesetId : String} {target : ChangeSetStatus}
    (hlawful : Lawful rq ts tr ⟨origin, .transition changesetId target⟩)
    (htransition : w.journal.transition changesetId target = .ok journal) (h : RowTracked env rq ts w₀ tr w) :
    RowTracked env rq ts w₀ (⟨⟨origin, .transition changesetId target⟩, .ok ()⟩ :: tr) { w with journal := journal } := by
  have hsub := subset_cons_self (⟨⟨origin, .transition changesetId target⟩,
    .ok ()⟩ : Event Call (Raising Exc Call.Value)) tr
  have hcreated : changesetId = rq.changesetId ∧ Created tr := by
    cases origin with
    | apply => exact ⟨hlawful.1, hlawful.2.1⟩
    | handler => exact ⟨hlawful.1, hlawful.2.1⟩
    | rollback => exact hlawful.elim
  obtain ⟨rfl, hcreated⟩ := hcreated
  obtain ⟨cs, hrow, -, hmem, hget⟩ := transition_eq_ok htransition
  obtain ⟨cs', hrow', hproject, htarget, hprogress, hfiles⟩ := h.row hcreated
  obtain rfl : cs = cs' := Option.some.inj (hrow.symm.trans hrow')
  have hframe : ∀ f change, ChangeTracked env rq ts tr f change → ChangeTracked env rq ts
      (⟨⟨origin, .transition rq.changesetId target⟩, .ok ()⟩ :: tr) f change := by
    intro f change hf
    refine ⟨hf.fileChangeId, hf.remotePath, hf.scope, hf.originallyAbsent, hf.applied.trans ?_, ?_⟩
    · constructor
      · rintro ⟨⟨p', hp', hdid⟩, hnot⟩
        exact ⟨⟨p', hp', hdid.mono hsub⟩, fun h' =>
          hnot (Exists.imp (fun _ hdid' => hdid'.of_cons (by rintro ⟨⟩)) h')⟩
      · rintro ⟨⟨p', hp', hdid⟩, hnot⟩
        exact ⟨⟨p', hp', hdid.of_cons (by rintro ⟨⟩)⟩, fun h' => hnot (Exists.imp (fun _ hdid' => hdid'.mono hsub) h')⟩
    · rintro ⟨p', hp', hdid⟩
      exact hf.backup ⟨p', hp', hdid.of_cons (by rintro ⟨⟩)⟩
  refine ⟨fun hnot => absurd (hcreated.mono hsub) hnot, fun _ => h.fresh hcreated, ?_, fun _ => h.distinct hcreated⟩
  intro _
  refine ⟨{ cs with status := target }, ?_, hproject, htarget, ?_, hfiles.imp hframe⟩
  · change journal.get rq.changesetId = _
    rw [hget, if_pos rfl]
  · cases origin with
    | rollback => exact hlawful.elim
    | apply =>
      obtain ⟨-, -, hquiet, hstep, -⟩ := hlawful
      have hnone : ∀ target', ¬ Did tr .handler (.transition rq.changesetId target') () :=
        fun target' hdid => absurd (hdid.stage_le hquiet) (by simp [Call.stage])
      refine ⟨?_, ?_⟩
      · intro target' hdid
        exact absurd (hdid.of_cons (by rintro ⟨⟩)) (hnone target')
      · intro _
        refine ⟨mem_cons_of_mem _ hstep, ?_⟩
        constructor
        · intro happlied
          subst happlied
          exact mem_cons_self
        · intro hdid
          rcases mem_cons.mp hdid with heq | hdid
          · cases heq
            rfl
          · rw [(hprogress.opened hnone).2.mpr hdid] at hmem
            simp only [mem_cons, not_mem_nil, or_false] at hstep
            rcases hstep with rfl | rfl | rfl | rfl <;> simp [validPredecessors] at hmem
    | handler =>
      obtain ⟨-, -, -, hnone⟩ := hlawful
      refine ⟨?_, fun hopen => absurd mem_cons_self (hopen target)⟩
      intro target' hdid
      rcases mem_cons.mp hdid with heq | hdid
      · cases heq
        rfl
      · exact absurd hdid (hnone target')

lemma RowTracked.step (hgenuine : Genuine env rq w₀ tr) (hpast : Past rq ts tr)
    (hlawful : Lawful rq ts tr c) (h : RowTracked env rq ts w₀ tr w) :
    RowTracked env rq ts w₀ (⟨c, (respond env faults tr c w).1⟩ :: tr) (respond env faults tr c w).2 := by
  rcases respond_cases env faults tr c w with heq | ⟨-, -, e, heq⟩
  · rw [heq]
    obtain ⟨origin, o⟩ := c
    cases o with
    | createChangeset cs =>
      cases origin with
      | handler => exact hlawful.elim
      | rollback => exact hlawful.elim
      | apply =>
        simp only [perform]
        cases hcreate : w.journal.createChangeset cs with
        | ok journal => exact h.create hpast hlawful hcreate
        | error e => exact h.frame (fun _ hdid => hdid.of_cons_error) rfl
    | updateFileChange changesetId fileChangeId p =>
      simp only [perform]
      cases hupdate : w.journal.updateFileChange changesetId fileChangeId p with
      | ok journal => exact h.update hgenuine hpast hlawful hupdate
      | error e => exact h.frame (fun _ hdid => hdid.of_cons_error) rfl
    | transition changesetId target =>
      simp only [perform]
      cases htransition : w.journal.transition changesetId target with
      | ok journal => exact h.transition hlawful htransition
      | error e => exact h.frame (fun _ hdid => hdid.of_cons_error) rfl
    | _ =>
      refine h.frame (fun hrecords hdid => hdid.of_cons ?_) (journal_perform rfl)
      rintro ⟨⟩
      cases hrecords
  · rw [heq]
    exact h.frame (fun _ hdid => hdid.of_cons_error) rfl

section
variable (env : Env) (rq : ChangeSetRequest) (ts : String) (w₀ : World)

/-- The handler's calls succeed, but for the removal of temporary files and a transition to
`ROLLED_BACK` from another status than `APPLIED`. -/
structure HandlerTracked (tr : History) : Prop where
  raised : ∀ o, Raised tr .handler o →
    (∃ f ∈ rq.files, o = .removeFile rq.context.scope
      (tempPath (rq.canonical env f.path) rq.changesetId)) ∨
    (o = .transition rq.changesetId .rolledBack ∧ ¬ Did tr .apply (.transition rq.changesetId .applied) ())
  unfaulted : ∀ o, o.faultable = false → ¬ Raised tr .apply o
  rolledBack : Did tr .handler (.transition rq.changesetId .rolledBack) () →
    Did tr .apply (.transition rq.changesetId .applied) ()

structure Joint (tr : History) (w : World) : Prop where
  genuine : Genuine env rq w₀ tr
  past : Past rq ts tr
  files : ∀ f ∈ rq.files, FileTracked env rq ts w₀ f tr w
  row : RowTracked env rq ts w₀ tr w
  handler : HandlerTracked env rq tr

end

lemma Joint.backup_ready (hapart : rq.Apart env ts) (h : Joint env rq ts w₀ tr w) (hf : f ∈ rq.files)
    (hold : ¬ IsNew rq f.path) (hrenamed : Renamed env rq tr f.path) (hfirst : ¬ PutBack env rq ts tr f.path) :
    ∃ entry, w₀.files rq.context.scope (rq.location env f.path) = some entry ∧
      w.files rq.context.scope (rq.backupLocation env ts f.path) = some entry := by
  obtain ⟨_, _, _, hprepared, -⟩ := h.past.renamed hapart h.genuine hf hrenamed
  obtain ⟨_, -, hcopy, -⟩ := hprepared.secured hold
  have hcreates : f.creates = false := by
    rw [← Bool.not_eq_true]
    exact fun hnew => hold ((hapart.isNew hf).mpr hnew)
  obtain ⟨hbackup, hsome⟩ := (h.files f hf).backup hcreates hcopy hfirst
  obtain ⟨entry, hentry⟩ := Option.isSome_iff_exists.mp hsome
  exact ⟨entry, hentry, hbackup.trans hentry⟩

lemma exists_of_forall₂ {α β : Type} {R : α → β → Prop} {xs : List α} {ys : List β}
    (h : List.Forall₂ R xs ys) {x : α} (hx : x ∈ xs) : ∃ y ∈ ys, R x y := by
  induction h with
  | nil => cases hx
  | cons hR _ ih =>
    rcases mem_cons.mp hx with rfl | hx
    · exact ⟨_, mem_cons_self, hR⟩
    · obtain ⟨y, hy, hR'⟩ := ih hx
      exact ⟨y, mem_cons_of_mem _ hy, hR'⟩

lemma Joint.handler_error (hapart : rq.Apart env ts) (h : Joint env rq ts w₀ tr w) {o : Op} {e : Exc}
    (hlawful : Lawful rq ts tr ⟨.handler, o⟩) (herror : (perform env o w).1 = .error e) :
    (∃ f ∈ rq.files, o = .removeFile rq.context.scope (tempPath (rq.canonical env f.path) rq.changesetId)) ∨
    (o = .transition rq.changesetId .rolledBack ∧ ¬ Did tr .apply (.transition rq.changesetId .applied) ()) := by
  cases o with
  | rename scope source target =>
    obtain ⟨rfl, path, hold, hplaced, rfl, hclash⟩ := hlawful
    obtain ⟨rfl, hrenamed⟩ := hplaced.renamed h.genuine
    obtain ⟨⟨_, f, hf, rfl, -⟩, -⟩ := hplaced
    obtain ⟨entry, -, hbackup⟩ := h.backup_ready hapart hf hold hrenamed fun hdid =>
      not_clash hapart h.genuine (hclash hdid)
    simp [perform, ChangeSetRequest.loc_backup, hbackup] at herror
  | removeFile scope target =>
    obtain ⟨rfl, ⟨path, hnew, hplaced, hclash⟩ | ⟨path, canonical, original, content, mode, hat, rfl, -⟩⟩ := hlawful
    · obtain ⟨rfl, hrenamed⟩ := hplaced.renamed h.genuine
      obtain ⟨⟨_, f, hf, rfl, -⟩, -⟩ := hplaced
      have hnot : ¬ Restored rq ts tr f.path (rq.canonical env f.path) := by
        rintro (⟨-, hdid⟩ | ⟨hold, -⟩)
        · exact not_clash hapart h.genuine (hclash hdid)
        · exact hold hnew
      obtain ⟨content, mode, -, hfile⟩ := (h.files f hf).placed hrenamed hnot
      simp [perform, ChangeSetRequest.loc_canonical, hfile] at herror
    · obtain rfl := hat.canonical_eq h.genuine
      obtain ⟨f, hf, rfl, -⟩ := hat
      exact .inl ⟨f, hf, rfl⟩
  | updateFileChange changesetId fileChangeId p =>
    obtain ⟨rfl, hcreated, f, hf, rfl⟩ := hlawful.created h.past
    obtain ⟨cs, hget, -, -, -, hfiles⟩ := h.row.row hcreated
    obtain ⟨change, hchange, htracked⟩ := exists_of_forall₂ hfiles hf
    have hp : p ≠ {} := by
      rintro rfl
      obtain ⟨-, happlied, -⟩ := hlawful
      cases happlied
    obtain ⟨journal, hupdate⟩ := updateFileChange_ne_error hp hget
      ⟨change, hchange, htracked.fileChangeId⟩
    simp [perform, hupdate] at herror
  | transition changesetId target =>
    obtain ⟨rfl, hcreated, htarget, hopen⟩ := hlawful
    obtain ⟨cs, hget, -, -, hprogress, -⟩ := h.row.row hcreated
    obtain ⟨hmem, hiff⟩ := hprogress.opened hopen
    simp only [mem_cons, not_mem_nil, or_false] at htarget
    rcases htarget with rfl | rfl
    · refine .inr ⟨rfl, fun hdid => ?_⟩
      obtain ⟨journal, htransition⟩ := transition_ne_error hget
        (show cs.status ∈ validPredecessors .rolledBack by
          rw [hiff.mpr hdid]; simp [validPredecessors])
      simp [perform, htransition] at herror
    · obtain ⟨journal, htransition⟩ := transition_ne_error hget
        (show cs.status ∈ validPredecessors .failed by
          simp only [mem_cons, not_mem_nil, or_false] at hmem
          rcases hmem with hs | hs | hs | hs | hs <;> simp [hs, validPredecessors])
      simp [perform, htransition] at herror
  | publish type changesetId status => cases herror
  | _ => exact hlawful.elim

lemma Joint.handler_step (hapart : rq.Apart env ts) (hlawful : Lawful rq ts tr c) (h : Joint env rq ts w₀ tr w) :
    HandlerTracked env rq (⟨c, (respond env faults tr c w).1⟩ :: tr) := by
  have hsub := subset_cons_self (⟨c, (respond env faults tr c w).1⟩ :
    Event Call (Raising Exc Call.Value)) tr
  refine ⟨?_, ?_, ?_⟩
  · rintro o ⟨e, hraised⟩
    rcases mem_cons.mp hraised with heq | hmem
    · obtain rfl : c = ⟨.handler, o⟩ := (congrArg Event.call heq).symm
      simp only [Event.mk.injEq, heq_eq_eq, true_and, respond_handler] at heq
      refine (h.handler_error hapart hlawful heq.symm).imp id fun h' => ⟨h'.1, fun hdid => ?_⟩
      exact h'.2 (hdid.of_cons (by rintro ⟨⟩))
    · refine (h.handler.raised o ⟨e, hmem⟩).imp id fun h' => ⟨h'.1, fun hdid => ?_⟩
      rcases mem_cons.mp hdid with heq | hdid
      · obtain rfl : c = ⟨.apply, .transition rq.changesetId .applied⟩ := (congrArg Event.call heq).symm
        obtain ⟨-, -, hquiet, -⟩ := hlawful
        exact absurd (hquiet _ hmem) (by simp [Call.stage])
      · exact h'.2 hdid
  · rintro o ho ⟨e, hraised⟩
    rcases mem_cons.mp hraised with heq | hmem
    · obtain rfl : c = ⟨.apply, o⟩ := (congrArg Event.call heq).symm
      simp only [Event.mk.injEq, heq_eq_eq, true_and, respond_unfaultable ho] at heq
      cases o with
      | connect _ _ => cases heq
      | acquire _ => cases heq
      | release _ => cases heq
      | _ => cases ho
    · exact h.handler.unfaulted o ho ⟨e, hmem⟩
  · intro hdid
    rcases mem_cons.mp hdid with heq | hmem
    · obtain rfl : c = ⟨.handler, .transition rq.changesetId .rolledBack⟩ := (congrArg Event.call heq).symm
      simp only [Event.mk.injEq, heq_eq_eq, true_and, respond_handler] at heq
      obtain ⟨-, hcreated, -, hopen⟩ := hlawful
      obtain ⟨cs, hget, -, -, hprogress, -⟩ := h.row.row hcreated
      obtain ⟨hmem, hiff⟩ := hprogress.opened hopen
      refine Did.mono (hiff.mp ?_) hsub
      simp only [perform] at heq
      cases htransition : w.journal.transition rq.changesetId .rolledBack with
      | error e => rw [htransition] at heq; cases heq
      | ok journal =>
        obtain ⟨cs', hget', -, hpredecessor, -⟩ := transition_eq_ok htransition
        obtain rfl : cs = cs' := Option.some.inj (hget.symm.trans hget')
        simp only [validPredecessors, mem_cons, not_mem_nil, or_false]
          at hpredecessor
        rcases hpredecessor with hs | hs
        · exact hs
        · simp [hs] at hmem
    · exact (h.handler.rolledBack hmem).mono hsub

lemma joint_of_execution (hapart : rq.Apart env ts)
    (hex : Execution (Lawful rq ts) (respond env faults) [] w₀ tr w) : Joint env rq ts w₀ tr w := by
  induction hex with
  | start =>
    have hnone : ∀ {origin op v}, ¬ Did [] origin op v := by
      rintro origin op v ⟨⟩
    refine ⟨⟨fun _ _ h => absurd h hnone, fun _ _ _ h => absurd h hnone, fun _ _ _ h => absurd h hnone⟩,
      by rintro e ⟨⟩, ?_, ⟨fun _ => rfl, ?_, ?_, ?_⟩,
      ⟨?_, ?_, fun h => absurd h hnone⟩⟩
    · intro f _
      refine ⟨fun _ => rfl, fun _ h => absurd h hnone, fun _ _ h => absurd h hnone,
        fun h => absurd h hnone, ?_, ?_, fun _ => rfl, fun _ h => absurd h hnone⟩
      · rintro (⟨-, h⟩ | ⟨-, h⟩) <;> exact absurd h hnone
      · rintro (h | ⟨r, ⟨⟩⟩)
        exact absurd h hnone
    · rintro ⟨cs, h⟩
      exact absurd h hnone
    · rintro ⟨cs, h⟩
      exact absurd h hnone
    · rintro ⟨cs, h⟩
      exact absurd h hnone
    · rintro o ⟨e, ⟨⟩⟩
    · rintro o - ⟨e, ⟨⟩⟩
  | call c hex hlawful ih =>
    have hkeep : UpTo 0 _ → ∀ f ∈ rq.files, _ := fun hquiet f hf =>
      (ih.files f hf).keep fun hdid => by cases hdid.stage_le hquiet
    refine ⟨ih.genuine.step hlawful hkeep, ?_,
      fun f hf => (ih.files f hf).step hapart ih.genuine hf ih.past hlawful,
      ih.row.step ih.genuine ih.past hlawful, ih.handler_step hapart hlawful⟩
    exact fun e he => (hex.call c hlawful).lawful_of_mem he

end IncidentLens.Changes
