import IncidentLens.Changes.Recovery
import Mathlib.Data.List.Pairwise

/-!
# Files and journal along a run

What the environment holds is determined by the calls made so far. Every file of a request
has a few locations of its own: that of the file, of its temporary file and of its backup.
-/
namespace IncidentLens.Changes
open Data Effects ChangeSetRequest World List

lemma Layout.loc_loc (layout : Layout) (scope : RemoteScope) (path : Path) :
    layout.loc scope (layout.loc scope path) = layout.loc scope path :=
  layout.loc_child_dir scope path.parent path.name

lemma Layout.loc_backupPath (layout : Layout) (scope : RemoteScope) (path : Path) (ts : String) :
    layout.loc scope (backupPath path ts) = backupPath (layout.loc scope path) ts := by
  simp [Layout.loc, backupPath]

lemma Layout.loc_tempPath (layout : Layout) (scope : RemoteScope) (path : Path) (changesetId : String) :
    layout.loc scope (tempPath path changesetId) = tempPath (layout.loc scope path) changesetId := by
  simp [Layout.loc, tempPath]

section
variable (env : Env) (rq : ChangeSetRequest) (ts : String)

namespace ChangeSetRequest

def location (path : Path) : Path := env.layout.loc rq.context.scope path

def backupLocation (path : Path) : Path := backupPath (rq.location env path) ts

def tempLocation (path : Path) : Path := tempPath (rq.location env path) rq.changesetId

/-- The canonical path of a requested path that is not a symbolic link. -/
def canonical (path : Path) : Path :=
  match rq.context.scope with
  | .host => env.layout.loc .host path
  | .container _ => path

/-- The locations `apply` works on for one file. -/
def workingPaths (f : FileRequest) : List Path :=
  rq.location env f.path :: rq.tempLocation env f.path ::
    if f.creates then [] else [rq.backupLocation env ts f.path]

/-- The files of the request, their temporary files and their backups are distinct. -/
def Apart : Prop := (rq.files.flatMap (rq.workingPaths env ts)).Nodup

end ChangeSetRequest

def Op.touches : Op → List Path
  | .copyFile scope _ target => [env.layout.loc scope target]
  | .writeBytes scope path _ _ _ => [env.layout.loc scope path]
  | .rename scope source target => [env.layout.loc scope source, env.layout.loc scope target]
  | .removeFile scope path => [env.layout.loc scope path]
  | _ => []

def Op.concerns (path : Path) : Op → Prop
  | .copyFile _ source _ => source = rq.canonical env path
  | .writeBytes _ temp _ _ _ => temp = tempPath (rq.canonical env path) rq.changesetId
  | .rename _ _ target => target = rq.canonical env path
  | .removeFile _ target =>
    target = rq.canonical env path ∨ target = tempPath (rq.canonical env path) rq.changesetId
  | _ => False

end

variable {env : Env} {rq : ChangeSetRequest} {ts : String} {faults : Faults} {tr tr' : History}
  {w w' w₀ : World}

lemma files_perform {o : Op} {scope : RemoteScope} {location : Path}
    (h : location ∉ o.touches env) : (perform env o w).2.files scope location = w.files scope location := by
  cases o with
  | copyFile s source target =>
    simp only [Op.touches, mem_singleton] at h
    simp only [perform]
    split
    · simp [files_setFile, h]
    · rfl
  | writeBytes s path content mode exclusive =>
    simp only [Op.touches, mem_singleton] at h
    simp only [perform]
    split_ifs
    · rfl
    · simp [files_setFile, h]
  | rename s source target =>
    simp only [Op.touches, mem_cons, not_mem_nil, or_false, not_or] at h
    simp only [perform]
    split
    · simp [files_setFile, h]
    · rfl
  | removeFile s path =>
    simp only [Op.touches, mem_singleton] at h
    simp only [perform]
    split
    · simp [files_setFile, h]
    · rfl
  | _ =>
    simp only [perform]
    repeat' split
    all_goals rfl

lemma respond_cases (env : Env) (faults : Faults) (tr : History) (c : Call) (w : World) :
    respond env faults tr c w = perform env c.op w ∨
      (c.origin ≠ .handler ∧ c.op.faultable = true ∧ ∃ e, respond env faults tr c w = (.error e, w)) := by
  unfold respond
  split_ifs with hfault
  · cases hfaults : faults tr.length with
    | none => exact .inl rfl
    | some e => exact .inr ⟨hfault.1, hfault.2, e, rfl⟩
  · exact .inl rfl

lemma files_respond {c : Call} {scope : RemoteScope} {location : Path} (h : location ∉ c.op.touches env) :
    (respond env faults tr c w).2.files scope location = w.files scope location := by
  rcases respond_cases env faults tr c w with heq | ⟨-, -, e, heq⟩
  · rw [heq, files_perform h]
  · rw [heq]

section Working

lemma ChangeSetRequest.loc_canonical (path : Path) :
    env.layout.loc rq.context.scope (rq.canonical env path) = rq.location env path := by
  unfold canonical location
  cases rq.context.scope with
  | host => exact env.layout.loc_loc _ _
  | container _ => rfl

lemma ChangeSetRequest.loc_backup (path : Path) :
    env.layout.loc rq.context.scope (backupPath (rq.canonical env path) ts) = rq.backupLocation env ts path := by
  rw [Layout.loc_backupPath, loc_canonical]
  rfl

lemma ChangeSetRequest.loc_temp (path : Path) :
    env.layout.loc rq.context.scope (tempPath (rq.canonical env path) rq.changesetId) = rq.tempLocation env path := by
  rw [Layout.loc_tempPath, loc_canonical]
  rfl

variable {f g : FileRequest}

lemma mem_workingPaths {location : Path} : location ∈ rq.workingPaths env ts f ↔
    location = rq.location env f.path ∨ location = rq.tempLocation env f.path ∨
      f.creates = false ∧ location = rq.backupLocation env ts f.path := by
  unfold workingPaths
  cases hcreates : f.creates <;> simp

lemma ChangeSetRequest.Apart.owner (h : rq.Apart env ts) (hf : f ∈ rq.files) (hg : g ∈ rq.files)
    {location : Path} (hlf : location ∈ rq.workingPaths env ts f)
    (hlg : location ∈ rq.workingPaths env ts g) : f = g := by
  by_contra hne
  have hsymm : Std.Symm (Function.onFun List.Disjoint (rq.workingPaths env ts)) :=
    ⟨fun _ _ hdisjoint _ hf hg => hdisjoint hg hf⟩
  exact (nodup_flatMap.mp h).2.forall hf hg hne hlf hlg

lemma ChangeSetRequest.Apart.nodup (h : rq.Apart env ts) (hf : f ∈ rq.files) :
    rq.location env f.path ≠ rq.tempLocation env f.path ∧ (f.creates = false →
      rq.location env f.path ≠ rq.backupLocation env ts f.path ∧
      rq.tempLocation env f.path ≠ rq.backupLocation env ts f.path) := by
  have hnodup := (nodup_flatMap.mp h).1 f hf
  unfold workingPaths at hnodup
  cases hcreates : f.creates <;> simp_all

lemma ChangeSetRequest.Apart.eq_of_path (h : rq.Apart env ts) (hf : f ∈ rq.files) (hg : g ∈ rq.files)
    (hpath : f.path = g.path) : f = g := by
  refine h.owner hf hg (mem_workingPaths.mpr (.inl rfl))
    (mem_workingPaths.mpr (.inl ?_))
  rw [hpath]

lemma ChangeSetRequest.Apart.nodup_paths (h : rq.Apart env ts) : (rq.files.map FileRequest.path).Nodup := by
  have hpairwise := (nodup_flatMap.mp h).2
  refine pairwise_map.mpr (hpairwise.imp ?_)
  intro f g hdisjoint hpath
  refine hdisjoint (a := rq.location env f.path) (mem_workingPaths.mpr (.inl rfl))
    (mem_workingPaths.mpr (.inl ?_))
  rw [hpath]

lemma ChangeSetRequest.Apart.isNew (h : rq.Apart env ts) (hf : f ∈ rq.files) :
    IsNew rq f.path ↔ f.creates = true := by
  constructor
  · rintro ⟨g, hg, hpath, hcreates⟩
    rwa [← h.eq_of_path hg hf hpath]
  · exact fun hcreates => ⟨f, hf, rfl, hcreates⟩

end Working

section
variable (env : Env) (rq : ChangeSetRequest) (ts : String) (w₀ : World)

/-- The responses agree with the files as they were. -/
structure Genuine (tr : History) : Prop where
  realpath : ∀ path v, Did tr .apply (.realpath path) v → v = env.layout.dir .host path
  lstat : ∀ f ∈ rq.files, ∀ metadata : FileMetadata,
    Did tr .apply (.lstat rq.context.scope f.path) metadata → metadata.isSymlink = false →
    env.layout.dir rq.context.scope f.path = rq.location env f.path ∧
      (w₀.files rq.context.scope (rq.location env f.path)).isSome
  read : ∀ f ∈ rq.files, ∀ content,
    Did tr .apply (.readBytes rq.context.scope (rq.canonical env f.path) maxChangeFileBytes) content →
    ∃ entry, w₀.files rq.context.scope (rq.location env f.path) = some entry ∧
      content = entry.content.take maxChangeFileBytes

abbrev Copied (tr : History) (path : Path) : Prop :=
  Did tr .apply (.copyFile rq.context.scope (rq.canonical env path)
    (backupPath (rq.canonical env path) ts)) ()

abbrev Wrote (tr : History) (path : Path) (content : Bytes) (mode : ℕ) : Prop :=
  Did tr .apply (.writeBytes rq.context.scope (tempPath (rq.canonical env path) rq.changesetId)
    content mode true) ()

abbrev Renamed (tr : History) (path : Path) : Prop :=
  Did tr .apply (.rename rq.context.scope (tempPath (rq.canonical env path) rq.changesetId)
    (rq.canonical env path)) ()

/-- The backup has been renamed back. -/
abbrev PutBack (tr : History) (path : Path) : Prop :=
  Did tr .handler (.rename rq.context.scope (backupPath (rq.canonical env path) ts)
    (rq.canonical env path)) ()

/-- The removal of the temporary file has been tried. -/
abbrev Cleared (tr : History) (path : Path) : Prop :=
  ∃ r, (⟨⟨.handler, .removeFile rq.context.scope (tempPath (rq.canonical env path) rq.changesetId)⟩, r⟩ :
    Event Call (Raising Exc Call.Value)) ∈ tr

structure FileTracked (f : FileRequest) (tr : History) (w : World) : Prop where
  keep : ¬ Renamed env rq tr f.path → w.files rq.context.scope (rq.location env f.path) =
    w₀.files rq.context.scope (rq.location env f.path)
  backup : f.creates = false → Copied env rq ts tr f.path → ¬ PutBack env rq ts tr f.path →
    w.files rq.context.scope (rq.backupLocation env ts f.path) =
        w₀.files rq.context.scope (rq.location env f.path) ∧
      (w₀.files rq.context.scope (rq.location env f.path)).isSome
  temp : ∀ content mode, Wrote env rq tr f.path content mode → ¬ Renamed env rq tr f.path →
    ¬ Cleared env rq tr f.path →
    w.files rq.context.scope (rq.tempLocation env f.path) = some ⟨content, mode⟩
  placed : Renamed env rq tr f.path → ¬ Restored rq ts tr f.path (rq.canonical env f.path) →
    ∃ content mode, Wrote env rq tr f.path content mode ∧
      w.files rq.context.scope (rq.location env f.path) = some ⟨content, mode⟩
  restored : Restored rq ts tr f.path (rq.canonical env f.path) →
    w.files rq.context.scope (rq.location env f.path) =
      if f.creates then none else w₀.files rq.context.scope (rq.location env f.path)
  gone : Renamed env rq tr f.path ∨ Cleared env rq tr f.path →
    w.files rq.context.scope (rq.tempLocation env f.path) = none
  untouched : (∀ content mode, ¬ Wrote env rq tr f.path content mode) →
    w.files rq.context.scope (rq.tempLocation env f.path) = w₀.files rq.context.scope (rq.tempLocation env f.path)
  spent : f.creates = false → PutBack env rq ts tr f.path →
    w.files rq.context.scope (rq.backupLocation env ts f.path) = none

end

section Files
variable {f g : FileRequest} {c : Call}

lemma FileTracked.frame {r : Raising Exc Call.Value c} (hc : ¬ c.op.concerns env rq f.path)
    (hw : ∀ location ∈ rq.workingPaths env ts f, w'.files rq.context.scope location = w.files rq.context.scope location)
    (h : FileTracked env rq ts w₀ f tr w) : FileTracked env rq ts w₀ f (⟨c, r⟩ :: tr) w' := by
  have hsub := subset_cons_self (⟨c, r⟩ : Event Call (Raising Exc Call.Value)) tr
  have hold : ∀ {origin : Origin} {op : Op} {v : op.Value}, op.concerns env rq f.path →
      Did (⟨c, r⟩ :: tr) origin op v → Did tr origin op v := by
    intro origin op v hconcerns hdid
    refine hdid.of_cons ?_
    rintro rfl
    exact hc hconcerns
  have hcleared : Cleared env rq (⟨c, r⟩ :: tr) f.path → Cleared env rq tr f.path := by
    rintro ⟨r', hmem⟩
    rcases mem_cons.mp hmem with heq | hmem
    · obtain rfl : c = _ := (congrArg Event.call heq).symm
      exact absurd (.inr rfl) hc
    · exact ⟨r', hmem⟩
  have hrestored : Restored rq ts (⟨c, r⟩ :: tr) f.path (rq.canonical env f.path) →
      Restored rq ts tr f.path (rq.canonical env f.path) := fun h =>
    h.imp (fun h => ⟨h.1, hold (.inl rfl) h.2⟩) fun h => ⟨h.1, hold rfl h.2⟩
  have hL := hw _ (mem_workingPaths.mpr (.inl rfl))
  have hT := hw _ (mem_workingPaths.mpr (.inr (.inl rfl)))
  refine ⟨?_, ?_, ?_, ?_, ?_, ?_, ?_, ?_⟩
  · intro hnot
    rw [hL]
    exact h.keep fun hdid => hnot (hdid.mono hsub)
  · intro hcreates hcopy hnot
    rw [hw _ (mem_workingPaths.mpr (.inr (.inr ⟨hcreates, rfl⟩)))]
    exact h.backup hcreates (hold rfl hcopy) fun hdid => hnot (hdid.mono hsub)
  · intro content mode hwrite hnot hkeep
    rw [hT]
    refine h.temp content mode (hold rfl hwrite) (fun hdid => hnot (hdid.mono hsub)) ?_
    rintro ⟨r', hmem⟩
    exact hkeep ⟨r', hsub hmem⟩
  · intro hrename hnot
    obtain ⟨content, mode, hwrite, hfile⟩ := h.placed (hold rfl hrename) fun h => hnot (h.mono hsub)
    exact ⟨content, mode, hwrite.mono hsub, by rw [hL, hfile]⟩
  · intro h'
    rw [hL]
    exact h.restored (hrestored h')
  · intro h'
    rw [hT]
    exact h.gone (h'.imp (hold rfl) hcleared)
  · intro hnot
    rw [hT]
    exact h.untouched fun content mode hwrite => hnot content mode (hwrite.mono hsub)
  · intro hcreates hputBack
    rw [hw _ (mem_workingPaths.mpr (.inr (.inr ⟨hcreates, rfl⟩)))]
    exact h.spent hcreates (hold rfl hputBack)

lemma FileTracked.failed {e : Exc} (hc : c ≠ ⟨.handler, .removeFile rq.context.scope
      (tempPath (rq.canonical env f.path) rq.changesetId)⟩)
    (h : FileTracked env rq ts w₀ f tr w) : FileTracked env rq ts w₀ f (⟨c, .error e⟩ :: tr) w := by
  have hsub := subset_cons_self (⟨c, .error e⟩ : Event Call (Raising Exc Call.Value)) tr
  have hrestored : Restored rq ts (⟨c, .error e⟩ :: tr) f.path (rq.canonical env f.path) →
      Restored rq ts tr f.path (rq.canonical env f.path) := fun h =>
    h.imp (fun h => ⟨h.1, h.2.of_cons_error⟩) fun h => ⟨h.1, h.2.of_cons_error⟩
  refine ⟨?_, ?_, ?_, ?_, ?_, ?_, ?_, fun hcreates hdid => h.spent hcreates hdid.of_cons_error⟩
  · exact fun hnot => h.keep fun hdid => hnot (hdid.mono hsub)
  · exact fun hcreates hcopy hnot => h.backup hcreates hcopy.of_cons_error fun hdid =>
      hnot (hdid.mono hsub)
  · intro content mode hwrite hnot hkeep
    refine h.temp content mode hwrite.of_cons_error (fun hdid => hnot (hdid.mono hsub)) ?_
    rintro ⟨r', hmem⟩
    exact hkeep ⟨r', hsub hmem⟩
  · intro hrename hnot
    obtain ⟨content, mode, hwrite, hfile⟩ := h.placed hrename.of_cons_error fun h => hnot (h.mono hsub)
    exact ⟨content, mode, hwrite.mono hsub, hfile⟩
  · exact fun h' => h.restored (hrestored h')
  · intro h'
    refine h.gone (h'.imp Did.of_cons_error ?_)
    rintro ⟨r', hmem⟩
    rcases mem_cons.mp hmem with heq | hmem
    · exact absurd (congrArg Event.call heq).symm hc
    · exact ⟨r', hmem⟩
  · exact fun hnot => h.untouched fun content mode hwrite => hnot content mode (hwrite.mono hsub)

lemma Restored.of_apply {r : Raising Exc Call.Value c} {path canonical : Path} (horigin : c.origin = .apply)
    (h : Restored rq ts (⟨c, r⟩ :: tr) path canonical) : Restored rq ts tr path canonical := by
  refine h.imp (fun h => ⟨h.1, h.2.of_cons ?_⟩) fun h => ⟨h.1, h.2.of_cons ?_⟩
  all_goals
    rintro rfl
    cases horigin

lemma Cleared.of_cons {r : Raising Exc Call.Value c} {path : Path}
    (hne : c ≠ ⟨.handler, .removeFile rq.context.scope (tempPath (rq.canonical env path) rq.changesetId)⟩)
    (h : Cleared env rq (⟨c, r⟩ :: tr) path) : Cleared env rq tr path := by
  obtain ⟨r', hmem⟩ := h
  rcases mem_cons.mp hmem with heq | hmem
  · exact absurd (congrArg Event.call heq).symm hne
  · exact ⟨r', hmem⟩

lemma Cleared.mono {path : Path} (h : Cleared env rq tr path) (hsub : tr ⊆ tr') : Cleared env rq tr' path := by
  obtain ⟨r, hmem⟩ := h
  exact ⟨r, hsub hmem⟩

lemma FileTracked.copy {entry : Entry} (hLB : rq.location env f.path ≠ rq.backupLocation env ts f.path)
    (hTB : rq.tempLocation env f.path ≠ rq.backupLocation env ts f.path)
    (hnot : ¬ Renamed env rq tr f.path) (hputBack : ¬ PutBack env rq ts tr f.path)
    (hentry : w.files rq.context.scope (rq.location env f.path) = some entry) (h : FileTracked env rq ts w₀ f tr w) :
    FileTracked env rq ts w₀ f (⟨⟨.apply, .copyFile rq.context.scope (rq.canonical env f.path)
        (backupPath (rq.canonical env f.path) ts)⟩, .ok ()⟩ :: tr)
      (w.setFile rq.context.scope (rq.backupLocation env ts f.path) (some entry)) := by
  refine ⟨?_, ?_, ?_, ?_, ?_, ?_, ?_, fun _ hdid => absurd (hdid.of_cons (by rintro ⟨⟩)) hputBack⟩
  · intro _
    rw [files_setFile, if_neg fun hloc => hLB hloc.2, h.keep hnot]
  · intro _ _ _
    rw [files_setFile, if_pos ⟨rfl, rfl⟩, ← h.keep hnot, hentry]
    exact ⟨rfl, rfl⟩
  · intro content mode hwrite _ hcleared
    rw [files_setFile, if_neg fun hloc => hTB hloc.2]
    exact h.temp content mode (hwrite.of_cons (by rintro ⟨⟩)) hnot fun h' =>
      hcleared (h'.mono (subset_cons_self _ _))
  · intro hrename _
    exact absurd (hrename.of_cons (by rintro ⟨⟩)) hnot
  · intro h'
    rw [files_setFile, if_neg fun hloc => hLB hloc.2]
    exact h.restored (h'.of_apply rfl)
  · intro h'
    rw [files_setFile, if_neg fun hloc => hTB hloc.2]
    exact h.gone (h'.imp (fun hdid => hdid.of_cons (by rintro ⟨⟩)) fun hc => hc.of_cons (by rintro ⟨⟩))
  · intro hnot'
    rw [files_setFile, if_neg fun hloc => hTB hloc.2]
    exact h.untouched fun content mode hwrite => hnot' content mode (mem_cons_of_mem _ hwrite)

lemma FileTracked.write {content : Bytes} {mode : ℕ} (hLT : rq.location env f.path ≠ rq.tempLocation env f.path)
    (hTB : f.creates = false → rq.tempLocation env f.path ≠ rq.backupLocation env ts f.path)
    (hfirst : ∀ content mode, ¬ Wrote env rq tr f.path content mode)
    (hnot : ¬ Renamed env rq tr f.path) (hnotCleared : ¬ Cleared env rq tr f.path)
    (h : FileTracked env rq ts w₀ f tr w) : FileTracked env rq ts w₀ f (⟨⟨.apply, .writeBytes rq.context.scope
        (tempPath (rq.canonical env f.path) rq.changesetId) content mode true⟩, .ok ()⟩ :: tr)
      (w.setFile rq.context.scope (rq.tempLocation env f.path) (some ⟨content, mode⟩)) := by
  refine ⟨?_, ?_, ?_, ?_, ?_, ?_, ?_, ?_⟩
  · intro _
    rw [files_setFile, if_neg fun hloc => hLT hloc.2, h.keep hnot]
  · intro hcreates hcopy hputBack
    rw [files_setFile, if_neg fun hloc => hTB hcreates hloc.2.symm]
    exact h.backup hcreates (hcopy.of_cons (by rintro ⟨⟩)) fun hdid =>
      hputBack (mem_cons_of_mem _ hdid)
  · intro content' mode' hwrite _ _
    rw [files_setFile, if_pos ⟨rfl, rfl⟩]
    rcases mem_cons.mp hwrite with heq | hmem
    · cases heq
      rfl
    · exact absurd hmem (hfirst content' mode')
  · intro hrename _
    exact absurd (hrename.of_cons (by rintro ⟨⟩)) hnot
  · intro h'
    rw [files_setFile, if_neg fun hloc => hLT hloc.2]
    exact h.restored (h'.of_apply rfl)
  · intro h'
    rcases h' with hrename | hcleared
    · exact absurd (hrename.of_cons (by rintro ⟨⟩)) hnot
    · exact absurd (hcleared.of_cons (by rintro ⟨⟩)) hnotCleared
  · intro hnot'
    exact absurd mem_cons_self (hnot' content mode)
  · intro hcreates hdid
    rw [files_setFile, if_neg fun hloc => hTB hcreates hloc.2.symm]
    exact h.spent hcreates (hdid.of_cons (by rintro ⟨⟩))

lemma FileTracked.rename {content : Bytes} {mode : ℕ} (hLT : rq.location env f.path ≠ rq.tempLocation env f.path)
    (hB : f.creates = false → rq.location env f.path ≠ rq.backupLocation env ts f.path ∧
      rq.tempLocation env f.path ≠ rq.backupLocation env ts f.path) (hwrite : Wrote env rq tr f.path content mode)
    (hnot : ¬ Restored rq ts tr f.path (rq.canonical env f.path)) (h : FileTracked env rq ts w₀ f tr w) :
    FileTracked env rq ts w₀ f (⟨⟨.apply, .rename rq.context.scope
        (tempPath (rq.canonical env f.path) rq.changesetId) (rq.canonical env f.path)⟩, .ok ()⟩ :: tr)
      ((w.setFile rq.context.scope (rq.tempLocation env f.path) none).setFile rq.context.scope
        (rq.location env f.path) (some ⟨content, mode⟩)) := by
  refine ⟨?_, ?_, ?_, ?_, ?_, ?_, ?_, ?_⟩
  · exact fun hnot' => absurd mem_cons_self hnot'
  · intro hcreates hcopy hputBack
    rw [files_setFile, if_neg fun hloc => (hB hcreates).1 hloc.2.symm, files_setFile,
      if_neg fun hloc => (hB hcreates).2 hloc.2.symm]
    exact h.backup hcreates (hcopy.of_cons (by rintro ⟨⟩)) fun hdid =>
      hputBack (mem_cons_of_mem _ hdid)
  · exact fun _ _ _ hnot' => absurd mem_cons_self hnot'
  · intro _ _
    refine ⟨content, mode, mem_cons_of_mem _ hwrite, ?_⟩
    rw [files_setFile, if_pos ⟨rfl, rfl⟩]
  · exact fun h' => absurd (h'.of_apply rfl) hnot
  · intro _
    rw [files_setFile, if_neg fun hloc => hLT hloc.2.symm, files_setFile, if_pos ⟨rfl, rfl⟩]
  · exact fun hnot' => absurd (mem_cons_of_mem _ hwrite) (hnot' content mode)
  · intro hcreates hdid
    rw [files_setFile, if_neg fun hloc => (hB hcreates).1 hloc.2.symm, files_setFile,
      if_neg fun hloc => (hB hcreates).2 hloc.2.symm]
    exact h.spent hcreates (hdid.of_cons (by rintro ⟨⟩))

lemma FileTracked.putBack (hLT : rq.location env f.path ≠ rq.tempLocation env f.path)
    (hB : f.creates = false → rq.location env f.path ≠ rq.backupLocation env ts f.path ∧
      rq.tempLocation env f.path ≠ rq.backupLocation env ts f.path)
    (hcreates : f.creates = false) (hold : ¬ IsNew rq f.path) (hrename : Renamed env rq tr f.path)
    {entry : Entry} (hentry : w₀.files rq.context.scope (rq.location env f.path) = some entry)
    (h : FileTracked env rq ts w₀ f tr w) : FileTracked env rq ts w₀ f (⟨⟨.handler, .rename rq.context.scope
        (backupPath (rq.canonical env f.path) ts) (rq.canonical env f.path)⟩, .ok ()⟩ :: tr)
      ((w.setFile rq.context.scope (rq.backupLocation env ts f.path) none).setFile rq.context.scope
        (rq.location env f.path) (some entry)) := by
  have hT : ((w.setFile rq.context.scope (rq.backupLocation env ts f.path) none).setFile
      rq.context.scope (rq.location env f.path) (some entry)).files rq.context.scope
        (rq.tempLocation env f.path) = w.files rq.context.scope (rq.tempLocation env f.path) := by
    rw [files_setFile, if_neg fun hloc => hLT hloc.2.symm, files_setFile, if_neg fun hloc => (hB hcreates).2 hloc.2]
  have hrestored : Restored rq ts (⟨⟨.handler, .rename rq.context.scope
      (backupPath (rq.canonical env f.path) ts) (rq.canonical env f.path)⟩, .ok ()⟩ :: tr) f.path
      (rq.canonical env f.path) := .inr ⟨hold, mem_cons_self⟩
  refine ⟨?_, ?_, ?_, ?_, ?_, ?_, ?_, ?_⟩
  · exact fun hnot => absurd (mem_cons_of_mem _ hrename) hnot
  · exact fun _ _ hnot => absurd mem_cons_self hnot
  · exact fun _ _ _ hnot => absurd (mem_cons_of_mem _ hrename) hnot
  · exact fun _ hnot => absurd hrestored hnot
  · intro _
    rw [files_setFile, if_pos ⟨rfl, rfl⟩, hcreates, hentry]
    rfl
  · intro _
    rw [hT]
    exact h.gone (.inl hrename)
  · intro hnot
    rw [hT]
    exact h.untouched fun content mode hwrite => hnot content mode (mem_cons_of_mem _ hwrite)
  · intro _ _
    rw [files_setFile, if_neg fun hloc => (hB hcreates).1 hloc.2.symm, files_setFile, if_pos ⟨rfl, rfl⟩]

lemma FileTracked.remove (hLT : rq.location env f.path ≠ rq.tempLocation env f.path) (hcreates : f.creates = true)
    (hnew : IsNew rq f.path) (hrename : Renamed env rq tr f.path) (h : FileTracked env rq ts w₀ f tr w) :
    FileTracked env rq ts w₀ f (⟨⟨.handler, .removeFile rq.context.scope (rq.canonical env f.path)⟩, .ok ()⟩ :: tr)
      (w.setFile rq.context.scope (rq.location env f.path) none) := by
  have hT : (w.setFile rq.context.scope (rq.location env f.path) none).files rq.context.scope
      (rq.tempLocation env f.path) = w.files rq.context.scope (rq.tempLocation env f.path) := by
    rw [files_setFile, if_neg fun hloc => hLT hloc.2.symm]
  have hrestored : Restored rq ts (⟨⟨.handler, .removeFile rq.context.scope (rq.canonical env f.path)⟩,
      .ok ()⟩ :: tr) f.path (rq.canonical env f.path) := .inl ⟨hnew, mem_cons_self⟩
  refine ⟨?_, ?_, ?_, ?_, ?_, ?_, ?_, fun hold => by simp [hcreates] at hold⟩
  · exact fun hnot => absurd (mem_cons_of_mem _ hrename) hnot
  · intro hold
    rw [hcreates] at hold
    cases hold
  · exact fun _ _ _ hnot => absurd (mem_cons_of_mem _ hrename) hnot
  · exact fun _ hnot => absurd hrestored hnot
  · intro _
    rw [files_setFile, if_pos ⟨rfl, rfl⟩, hcreates]
    rfl
  · intro _
    rw [hT]
    exact h.gone (.inl hrename)
  · intro hnot
    rw [hT]
    exact h.untouched fun content mode hwrite => hnot content mode (mem_cons_of_mem _ hwrite)

lemma FileTracked.clear {r : Raising Exc Call.Value ⟨.handler, .removeFile rq.context.scope
      (tempPath (rq.canonical env f.path) rq.changesetId)⟩}
    (hLT : rq.location env f.path ≠ rq.tempLocation env f.path)
    (hTB : f.creates = false → rq.tempLocation env f.path ≠ rq.backupLocation env ts f.path)
    {content : Bytes} {mode : ℕ} (hwrote : Wrote env rq tr f.path content mode)
    (hcanonical : rq.canonical env f.path ≠ tempPath (rq.canonical env f.path) rq.changesetId)
    (hw' : w'.files rq.context.scope (rq.tempLocation env f.path) = none)
    (hother : ∀ location, location ≠ rq.tempLocation env f.path →
      w'.files rq.context.scope location = w.files rq.context.scope location) (h : FileTracked env rq ts w₀ f tr w) :
    FileTracked env rq ts w₀ f (⟨⟨.handler, .removeFile rq.context.scope
      (tempPath (rq.canonical env f.path) rq.changesetId)⟩, r⟩ :: tr) w' := by
  have hrestored : Restored rq ts (⟨⟨.handler, .removeFile rq.context.scope
      (tempPath (rq.canonical env f.path) rq.changesetId)⟩, r⟩ :: tr) f.path (rq.canonical env f.path) →
      Restored rq ts tr f.path (rq.canonical env f.path) := by
    intro h'
    refine h'.imp (fun h' => ⟨h'.1, h'.2.of_cons ?_⟩) fun h' => ⟨h'.1, h'.2.of_cons (by rintro ⟨⟩)⟩
    intro heq
    simp only [Call.mk.injEq, Op.removeFile.injEq, true_and] at heq
    exact hcanonical heq.symm
  refine ⟨?_, ?_, ?_, ?_, ?_, fun _ => hw', ?_, ?_⟩
  · intro hnot
    rw [hother _ hLT]
    exact h.keep fun hdid => hnot (mem_cons_of_mem _ hdid)
  · intro hcreates hcopy hnot
    rw [hother _ (hTB hcreates).symm]
    exact h.backup hcreates (hcopy.of_cons (by rintro ⟨⟩)) fun hdid => hnot (mem_cons_of_mem _ hdid)
  · exact fun _ _ _ _ hnot => absurd ⟨r, mem_cons_self⟩ hnot
  · intro hrename hnot
    obtain ⟨content, mode, hwrite, hfile⟩ := h.placed (hrename.of_cons (by rintro ⟨⟩)) fun h' =>
      hnot (h'.mono (subset_cons_self _ _))
    exact ⟨content, mode, mem_cons_of_mem _ hwrite, by rw [hother _ hLT, hfile]⟩
  · intro h'
    rw [hother _ hLT]
    exact h.restored (hrestored h')
  · exact fun hnot => absurd (mem_cons_of_mem _ hwrote) (hnot content mode)
  · intro hcreates hdid
    rw [hother _ (hTB hcreates).symm]
    exact h.spent hcreates (hdid.of_cons (by rintro ⟨⟩))

end Files

section Past
variable {f : FileRequest} {path canonical : Path} {original : Option Bytes}

def Past (rq : ChangeSetRequest) (ts : String) (tr : History) : Prop :=
  ∀ e ∈ tr, ∃ tr', tr' ⊆ tr ∧ Lawful rq ts tr' e.call

lemma Did.stage_le {k : ℕ} {origin : Origin} {op : Op} {v : op.Value} (h : Did tr origin op v)
    (hquiet : UpTo k tr) : Call.stage ⟨origin, op⟩ ≤ k := hquiet _ h

lemma At.canonical_eq (hgenuine : Genuine env rq w₀ tr) (h : At rq tr path canonical original) :
    canonical = rq.canonical env path := by
  obtain ⟨f, hf, rfl, hcanonical, horiginal⟩ := h
  have hscope := ChangeSetRequest.scope_eq hf
  unfold Canonical at hcanonical
  cases hctx : rq.context.scope with
  | container container =>
    rw [hscope, hctx] at hcanonical
    simpa [ChangeSetRequest.canonical, hctx] using hcanonical
  | host =>
    rw [hscope, hctx] at hcanonical
    simp only at hcanonical
    simp only [ChangeSetRequest.canonical, hctx]
    cases hcreates : f.creates with
    | true =>
      rw [hcreates, if_pos rfl] at hcanonical
      obtain ⟨parent, hparent, rfl⟩ := hcanonical
      rw [hgenuine.realpath _ _ hparent]
      rfl
    | false =>
      rw [hcreates, if_neg Bool.false_ne_true] at hcanonical
      cases original with
      | none =>
        rw [hcreates] at horiginal
        exact absurd horiginal.1 Bool.false_ne_true
      | some content =>
        obtain ⟨-, ⟨metadata, hlink, hstat⟩, -⟩ := horiginal
        rw [hscope] at hstat
        have hdir := (hgenuine.lstat f hf metadata hstat hlink).1
        rw [hctx] at hdir
        rw [hgenuine.realpath _ _ hcanonical, hdir, ChangeSetRequest.location, hctx]

lemma At.original_eq (hapart : rq.Apart env ts) (hgenuine : Genuine env rq w₀ tr) (hf : f ∈ rq.files)
    (h : At rq tr f.path canonical original) :
    match original with
    | none => f.creates = true
    | some content => f.creates = false ∧ ∃ entry,
        w₀.files rq.context.scope (rq.location env f.path) = some entry ∧
          content = entry.content.take maxChangeFileBytes := by
  have hcanonical := h.canonical_eq hgenuine
  obtain ⟨g, hg, hpath, -, horiginal⟩ := h
  obtain rfl : g = f := hapart.eq_of_path hg hf hpath
  cases original with
  | none => exact horiginal.1
  | some content =>
    obtain ⟨hcreates, -, hread⟩ := horiginal
    rw [scope_eq hg, hcanonical] at hread
    exact ⟨hcreates, hgenuine.read g hg content hread⟩

lemma At.path_eq (hapart : rq.Apart env ts) (hgenuine : Genuine env rq w₀ tr) (hf : f ∈ rq.files)
    (h : At rq tr path canonical original) (heq : canonical = rq.canonical env f.path) : path = f.path := by
  have hcanonical := h.canonical_eq hgenuine
  obtain ⟨g, hg, rfl, -⟩ := h
  have hloc := congrArg (env.layout.loc rq.context.scope) (hcanonical.symm.trans heq)
  rw [loc_canonical, loc_canonical] at hloc
  rw [hapart.owner hg hf (mem_workingPaths.mpr (.inl rfl)) (mem_workingPaths.mpr (.inl hloc))]

lemma At.path_eq_of_temp (hapart : rq.Apart env ts) (hgenuine : Genuine env rq w₀ tr)
    (hf : f ∈ rq.files) (h : At rq tr path canonical original)
    (heq : tempPath canonical rq.changesetId = tempPath (rq.canonical env f.path) rq.changesetId) :
    path = f.path := by
  have hcanonical := h.canonical_eq hgenuine
  obtain ⟨g, hg, rfl, -⟩ := h
  have hloc := congrArg (env.layout.loc rq.context.scope) heq
  rw [hcanonical, loc_temp, loc_temp] at hloc
  rw [hapart.owner hg hf (mem_workingPaths.mpr (.inr (.inl rfl)))
    (mem_workingPaths.mpr (.inr (.inl hloc)))]

lemma not_clash (hapart : rq.Apart env ts) (hgenuine : Genuine env rq w₀ tr) : ¬ Clash rq tr canonical := by
  rintro (hpaths | ⟨path, path', canonical', original, original', hne, hat, hat', htemp⟩)
  · exact hpaths hapart.nodup_paths
  · have hcanonical' := hat'.canonical_eq hgenuine
    obtain ⟨g, hg, hpath, hpre⟩ := hat'
    refine hne (hat.path_eq_of_temp hapart hgenuine hg ?_ |>.trans hpath)
    rw [htemp, hcanonical', hpath]

lemma canonical_ne_temp (hapart : rq.Apart env ts) (hf : f ∈ rq.files) {g : FileRequest} (hg : g ∈ rq.files) :
    rq.canonical env f.path ≠ tempPath (rq.canonical env g.path) rq.changesetId := by
  intro heq
  have hloc := congrArg (env.layout.loc rq.context.scope) heq
  rw [loc_canonical, loc_temp] at hloc
  obtain rfl := hapart.owner hf hg (mem_workingPaths.mpr (.inl rfl))
    (mem_workingPaths.mpr (.inr (.inl hloc)))
  exact (hapart.nodup hf).1 hloc

lemma Past.wrote (hapart : rq.Apart env ts) (hgenuine : Genuine env rq w₀ tr) (hpast : Past rq ts tr)
    (hf : f ∈ rq.files) {content : Bytes} {mode : ℕ} (h : Wrote env rq tr f.path content mode) :
    ∃ original, Prepared rq ts tr f.path (rq.canonical env f.path) original content := by
  obtain ⟨tr', hsub, -, -, -, path, canonical, original, hprepared, htemp, -⟩ := hpast _ h
  have hprepared' := hprepared.mono hsub
  obtain rfl := hprepared'.survey.path_eq_of_temp hapart hgenuine hf htemp.symm
  obtain rfl := hprepared'.survey.canonical_eq hgenuine
  exact ⟨original, hprepared'⟩

lemma Past.renamed (hapart : rq.Apart env ts) (hgenuine : Genuine env rq w₀ tr) (hpast : Past rq ts tr)
    (hf : f ∈ rq.files) (h : Renamed env rq tr f.path) : ∃ original content mode,
      Prepared rq ts tr f.path (rq.canonical env f.path) original content ∧ Wrote env rq tr f.path content mode := by
  obtain ⟨tr', hsub, -, -, -, path, original, content, mode, hprepared, hwrite⟩ := hpast _ h
  have hprepared' := hprepared.mono hsub
  obtain rfl := hprepared'.survey.path_eq hapart hgenuine hf rfl
  exact ⟨original, content, mode, hprepared', hwrite.mono hsub⟩

lemma Placed.renamed (hgenuine : Genuine env rq w₀ tr) (h : Placed rq tr path canonical) :
    canonical = rq.canonical env path ∧ Renamed env rq tr path := by
  obtain ⟨⟨original, hat⟩, hrename⟩ := h
  obtain rfl := hat.canonical_eq hgenuine
  exact ⟨rfl, hrename⟩

end Past

end IncidentLens.Changes
