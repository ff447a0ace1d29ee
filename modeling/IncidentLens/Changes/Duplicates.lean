import IncidentLens.Changes.Atomicity
import IncidentLens.Changes.Steps
import IncidentLens.Effects.Outcome

/-!
# Files requested more than once

Contents are computed per path, temporary files and backups are made per canonical path. Unless the
locations `apply` works on can be told apart, one entry of a request takes the place of another.
-/
namespace IncidentLens.Changes
open Data Effects Routine ChangeSetRequest World List FileRequest

section
variable (env : Env) (rq : ChangeSetRequest) (ts : String)

/-- What all entries of a file make of its content, one after another. -/
def combined (w : World) (f : FileRequest) : Except Exc Bytes :=
  (rq.files.filter fun g => rq.location env g.path = rq.location env f.path).foldlM
    (fun content g => g.replacement content) (readable env rq w f)

/-- Every file holds the result of all of its entries. -/
def Combined (w w' : World) : Prop :=
  ∀ f ∈ rq.files, ∃ content mode, combined env rq w f = .ok content ∧
    w'.files rq.context.scope (rq.location env f.path) = some ⟨content, mode⟩

namespace ChangeSetRequest

/-- No file of the request is a backup made for it, and none is a temporary file that is written over
it: `docker cp` replaces whatever is there, so in a container no path may be requested twice either. -/
def Untangled : Prop :=
  (∀ f ∈ rq.files, ∀ g ∈ rq.files, g.creates = false → rq.location env f.path ≠ rq.backupLocation env ts g.path) ∧
  match rq.context.scope with
  | .host => ∀ f ∈ rq.files, ∀ g ∈ rq.files, f.creates = true → rq.location env f.path ≠ rq.tempLocation env g.path
  | .container _ => (rq.files.map path).Nodup ∧ ∀ f ∈ rq.files, ∀ g ∈ rq.files,
      rq.location env f.path ≠ rq.tempLocation env g.path ∧
      (g.creates = false → rq.tempLocation env f.path ≠ rq.backupLocation env ts g.path)

end ChangeSetRequest

/-- A file that is to be created and is there is not reported as absent. -/
def Truthful (faults : Faults) (w : World) : Prop :=
  (∀ f ∈ rq.files, f.creates = true → w.files rq.context.scope (rq.location env f.path) = none) ∨
    ∀ n e, faults n = some e → e.kind ≠ .remotePath

variable (w₀ : World)

/-- What the calls before the first temporary file say of the files. -/
structure Watched (tr : History) (w : World) : Prop where
  genuine : Genuine env rq w₀ tr
  absent : ∀ f ∈ rq.files, f.creates = true → ∀ e : Exc, e.kind = .remotePath →
    RaisedWith tr .apply (.lstat f.scope f.path) e →
    w₀.files rq.context.scope (rq.location env f.path) = none
  files : UpTo 0 tr → ∀ f ∈ rq.files, w.files rq.context.scope (rq.location env f.path) =
    w₀.files rq.context.scope (rq.location env f.path)
  backups : UpTo 0 tr → ∀ f ∈ rq.files, ¬ IsNew rq f.path → Copied env rq ts tr f.path →
    w.files rq.context.scope (rq.backupLocation env ts f.path) =
        w₀.files rq.context.scope (rq.location env f.path) ∧
      (w₀.files rq.context.scope (rq.location env f.path)).isSome

/-- Step 7 for the files `done`. -/
structure TempsReady (done : List FileRequest) (w : World) : Prop where
  files : ∀ f ∈ rq.files, w.files rq.context.scope (rq.location env f.path) =
    w₀.files rq.context.scope (rq.location env f.path)
  backups : ∀ f ∈ rq.files, ¬ IsNew rq f.path →
    w.files rq.context.scope (rq.backupLocation env ts f.path) =
        w₀.files rq.context.scope (rq.location env f.path) ∧
      (w₀.files rq.context.scope (rq.location env f.path)).isSome
  temps : ∀ f ∈ done, (w.files rq.context.scope (rq.tempLocation env f.path)).isSome
  clear : ∀ f ∈ done, ∀ g ∈ rq.files, rq.location env g.path ≠ rq.tempLocation env f.path ∧
    (¬ IsNew rq g.path → rq.backupLocation env ts g.path ≠ rq.tempLocation env f.path)
  distinct : rq.context.scope = .host → (done.map fun f => rq.tempLocation env f.path).Nodup

/-- Every location `apply` works on belongs to one path. -/
structure Sorted : Prop where
  paths : (rq.files.map path).Nodup
  temps : ∀ f ∈ rq.files, ∀ g ∈ rq.files, rq.location env g.path ≠ rq.tempLocation env f.path ∧
    (¬ IsNew rq g.path → rq.backupLocation env ts g.path ≠ rq.tempLocation env f.path)
  backups : ∀ f ∈ rq.files, ∀ g ∈ rq.files, ¬ IsNew rq g.path → rq.location env f.path ≠ rq.backupLocation env ts g.path
  absent : ∀ f ∈ rq.files, IsNew rq f.path → w₀.files rq.context.scope (rq.location env f.path) = none

/-- Step 10: the files at the paths `done` have been renamed into place. -/
structure Swapped (done : List Path) (w : World) : Prop where
  files : ∀ f ∈ rq.files, (∀ p ∈ done, rq.location env p ≠ rq.location env f.path) →
    w.files rq.context.scope (rq.location env f.path) = w₀.files rq.context.scope (rq.location env f.path)
  backups : ∀ f ∈ rq.files, ¬ IsNew rq f.path →
    w.files rq.context.scope (rq.backupLocation env ts f.path) =
        w₀.files rq.context.scope (rq.location env f.path) ∧
      (w₀.files rq.context.scope (rq.location env f.path)).isSome
  placed : ∀ p ∈ done, (w.files rq.context.scope (rq.location env p)).isSome ∧
    w.files rq.context.scope (rq.tempLocation env p) = none
  distinct : (done.map (rq.location env)).Nodup

/-- What the failure handler needs to restore the files at the paths `applied`. -/
structure Salvage (applied written : List Path) (w : World) : Prop where
  files : ∀ f ∈ rq.files, (∀ p ∈ applied, rq.location env p ≠ rq.location env f.path) →
    w.files rq.context.scope (rq.location env f.path) = w₀.files rq.context.scope (rq.location env f.path)
  removable : ∀ p ∈ applied, IsNew rq p → (w.files rq.context.scope (rq.location env p)).isSome ∧
    w₀.files rq.context.scope (rq.location env p) = none
  restorable : ∀ p ∈ applied, ¬ IsNew rq p →
    w.files rq.context.scope (rq.backupLocation env ts p) = w₀.files rq.context.scope (rq.location env p) ∧
      (w₀.files rq.context.scope (rq.location env p)).isSome
  distinct : (applied.map (rq.location env)).Nodup
  clear : ∀ p ∈ written, ∀ f ∈ rq.files, rq.location env f.path ≠ rq.tempLocation env p

end

variable {m : Manager} {env : Env} {rq : ChangeSetRequest} {ts : String} {faults : Faults} {tr : History}
  {w w' w₀ : World} {c : Call} {f g : FileRequest} {p q : Path}

/-! ### Locations -/

lemma backupLocation_inj :
    rq.backupLocation env ts p = rq.backupLocation env ts q ↔ rq.location env p = rq.location env q := by
  unfold backupLocation location Layout.loc backupPath
  simp [Path.child_inj]

lemma tempLocation_inj : rq.tempLocation env p = rq.tempLocation env q ↔ rq.location env p = rq.location env q := by
  unfold tempLocation location Layout.loc tempPath
  simp [Path.child_inj]

lemma creates_of_not_isNew (hf : f ∈ rq.files) (h : ¬ IsNew rq f.path) : f.creates = false := by
  rw [← Bool.not_eq_true]
  exact fun hcreates => h ⟨f, hf, rfl, hcreates⟩

/-! ### Calls -/

variable {e : Exc}

lemma perform_error {o : Op} (h : (perform env o w).1 = .error e) : (perform env o w).2 = w := by
  cases o with
  | writeBytes scope path content mode exclusive =>
    simp only [perform] at h ⊢
    split_ifs at h ⊢
    rfl
  | _ =>
    simp only [perform] at h ⊢
    repeat' split at h
    all_goals simp_all

lemma respond_error (h : (respond env faults tr c w).1 = .error e) : (respond env faults tr c w).2 = w := by
  rcases respond_cases env faults tr c w with heq | ⟨-, -, e', heq⟩
  · rw [heq] at h ⊢
    exact perform_error h
  · rw [heq]

lemma files_respond_of_untouching (h : c.op.touches env = []) : (respond env faults tr c w).2.files = w.files := by
  funext scope location
  exact files_respond (by simp [h])

lemma absent_of_lstat {scope : RemoteScope} (h : (respond env faults tr ⟨.apply, .lstat scope p⟩ w).1 = .error e) :
    (∃ n, faults n = some e) ∨ w.files scope (env.layout.loc scope p) = none := by
  unfold respond at h
  simp only [Op.faultable] at h
  cases hfault : faults tr.length with
  | some e' =>
    left
    simp [hfault] at h
    exact ⟨_, h ▸ hfault⟩
  | none =>
    right
    simp [hfault, perform] at h
    split_ifs at h
    split at h
    · simp at h
    · assumption

/-! ### Steps 1 to 6 -/

lemma Call.apply_of_stage_zero (h : c.stage ≤ 0) : c.origin = .apply := by
  obtain ⟨origin, o⟩ := c
  cases origin <;> first | rfl | simp [Call.stage] at h

lemma Lawful.backup_of_touch (hgenuine : Genuine env rq w₀ tr) (hlawful : Lawful rq ts tr c) (hstage : c.stage ≤ 0)
    {location : Path} (hloc : location ∈ c.op.touches env) : ∃ g ∈ rq.files, ¬ IsNew rq g.path ∧
      c = ⟨.apply, .copyFile rq.context.scope (rq.canonical env g.path) (backupPath (rq.canonical env g.path) ts)⟩ ∧
      location = rq.backupLocation env ts g.path := by
  have horigin := Call.apply_of_stage_zero hstage
  obtain ⟨origin, o⟩ := c
  obtain rfl : origin = .apply := horigin
  cases o with
  | copyFile scope source target =>
    obtain ⟨-, rfl, rfl, path, original, hold, hat⟩ := hlawful
    obtain rfl := hat.canonical_eq hgenuine
    obtain ⟨g, hg, rfl, -⟩ := hat
    simp only [Op.touches, mem_singleton, loc_backup] at hloc
    exact ⟨g, hg, hold, rfl, hloc⟩
  | writeBytes scope temp content mode exclusive => simp [Call.stage] at hstage
  | rename scope source target => simp [Call.stage] at hstage
  | removeFile scope target => exact hlawful.elim
  | _ => cases hloc

lemma Watched.backup_step (hlawful : Lawful rq ts tr c) (h : Watched env rq ts w₀ tr w) (hquiet : UpTo 0 tr)
    (hstage : c.stage ≤ 0) (hf : f ∈ rq.files)
    (hcopied : Copied env rq ts (⟨c, (respond env faults tr c w).1⟩ :: tr) f.path) (hold : ¬ IsNew rq f.path) :
    (respond env faults tr c w).2.files rq.context.scope (rq.backupLocation env ts f.path) =
        w₀.files rq.context.scope (rq.location env f.path) ∧
      (w₀.files rq.context.scope (rq.location env f.path)).isSome := by
  by_cases htouch : rq.backupLocation env ts f.path ∈ c.op.touches env
  · obtain ⟨g, hg, -, rfl, hloc⟩ := hlawful.backup_of_touch h.genuine hstage htouch
    have hlocation := backupLocation_inj.mp hloc
    cases hout : (respond env faults tr ⟨.apply, .copyFile rq.context.scope (rq.canonical env g.path)
        (backupPath (rq.canonical env g.path) ts)⟩ w).1 with
    | error e =>
      rw [hout] at hcopied
      rw [respond_error hout]
      exact h.backups hquiet f hf hold hcopied.of_cons_error
    | ok v =>
      have hperform := respond_eq_perform hout
      rw [hperform] at hout ⊢
      simp only [perform, loc_canonical, loc_backup] at hout ⊢
      cases hentry : w.files rq.context.scope (rq.location env g.path) with
      | none => simp [hentry] at hout
      | some entry =>
        simp only
        rw [files_setFile, if_pos ⟨rfl, hloc⟩, hlocation, ← h.files hquiet g hg, hentry]
        exact ⟨rfl, rfl⟩
  · rw [files_respond htouch]
    refine h.backups hquiet f hf hold (hcopied.of_cons ?_)
    rintro rfl
    refine htouch ?_
    simp only [Op.touches, mem_singleton, loc_backup]

lemma Watched.step (hbackup : ∀ f ∈ rq.files, ∀ g ∈ rq.files, g.creates = false →
      rq.location env f.path ≠ rq.backupLocation env ts g.path) (htruth : Truthful env rq faults w₀)
    (hlawful : Lawful rq ts tr c) (h : Watched env rq ts w₀ tr w) :
    Watched env rq ts w₀ (⟨c, (respond env faults tr c w).1⟩ :: tr) (respond env faults tr c w).2 := by
  have hpast : UpTo 0 (⟨c, (respond env faults tr c w).1⟩ :: tr) → UpTo 0 tr ∧ c.stage ≤ 0 := fun hquiet =>
    ⟨fun e he => hquiet e (mem_cons_of_mem _ he), hquiet _ mem_cons_self⟩
  refine ⟨h.genuine.step hlawful h.files, ?_, ?_, ?_⟩
  · intro f hf hcreates e hkind hraised
    rcases mem_cons.mp hraised with heq | hraised
    · obtain rfl : c = ⟨.apply, .lstat f.scope f.path⟩ := (congrArg Event.call heq).symm
      simp only [Event.mk.injEq, heq_eq_eq, true_and] at heq
      rcases absent_of_lstat heq.symm with ⟨n, hfault⟩ | hnone
      · rcases htruth with habsent | hkinds
        · exact habsent f hf hcreates
        · exact absurd hkind (hkinds n e hfault)
      · rw [← h.files hlawful f hf, location, ← scope_eq hf]
        exact hnone
    · exact h.absent f hf hcreates e hkind hraised
  · intro hquiet f hf
    obtain ⟨hquiet, hstage⟩ := hpast hquiet
    rw [files_respond, h.files hquiet f hf]
    intro htouch
    obtain ⟨g, hg, hold, -, hloc⟩ := hlawful.backup_of_touch h.genuine hstage htouch
    exact hbackup f hf g hg (creates_of_not_isNew hg hold) hloc
  · intro hquiet f hf hold hcopied
    obtain ⟨hquiet, hstage⟩ := hpast hquiet
    exact h.backup_step hlawful hquiet hstage hf hcopied hold

lemma watched_of_execution (hbackup : ∀ f ∈ rq.files, ∀ g ∈ rq.files, g.creates = false →
      rq.location env f.path ≠ rq.backupLocation env ts g.path) (htruth : Truthful env rq faults w₀)
    (hex : Execution (Lawful rq ts) (respond env faults) [] w₀ tr w) : Watched env rq ts w₀ tr w := by
  induction hex with
  | start =>
    refine ⟨⟨?_, ?_, ?_⟩, ?_, fun _ _ _ => rfl, ?_⟩
    · rintro path v ⟨⟩
    · rintro f - metadata ⟨⟩
    · rintro f - content ⟨⟩
    · rintro f - - e - ⟨⟩
    · rintro - f - - ⟨⟩
  | call c _ hlawful ih => exact ih.step hbackup htruth hlawful

/-! ### Step 7 -/

lemma ends_call {origin : Origin} {o : Op} {Q : o.Value → Locals → History → World → Prop}
    {X : Exc → Locals → History → World → Prop} {l : Locals}
    (hok : ∀ v, (respond env faults tr ⟨origin, o⟩ w).1 = .ok v →
      Q v l (⟨⟨origin, o⟩, .ok v⟩ :: tr) (respond env faults tr ⟨origin, o⟩ w).2)
    (herror : ∀ e, (respond env faults tr ⟨origin, o⟩ w).1 = .error e → X e l (⟨⟨origin, o⟩, .error e⟩ :: tr) w) :
    Routine.Ends (respond env faults) (call origin o) Q X l tr w := by
  refine ends_invoke hok ?_
  intro e he
  rw [respond_error he]
  exact herror e he

/-- Neither the files nor the local variables change. -/
def Idle {α : Type} (env : Env) (faults : Faults) (k : M Locals α) : Prop :=
  ∀ l tr w, Routine.Ends (respond env faults) k (fun _ l' _ w' => l' = l ∧ w'.files = w.files)
    (fun _ l' _ w' => l' = l ∧ w'.files = w.files) l tr w

section Idle
variable {α β : Type} {k : M Locals α}

lemma Idle.ends {Q : α → Locals → History → World → Prop} {X : Exc → Locals → History → World → Prop} {l : Locals}
    (h : Idle env faults k) (hok : ∀ a tr' w', w'.files = w.files → Q a l tr' w')
    (herror : ∀ e tr' w', w'.files = w.files → X e l tr' w') : Routine.Ends (respond env faults) k Q X l tr w := by
  refine ends_mono (h l tr w) ?_ ?_
  · rintro a _ tr' w' ⟨rfl, hw⟩
    exact hok a tr' w' hw
  · rintro e _ tr' w' ⟨rfl, hw⟩
    exact herror e tr' w' hw

lemma idle_pure (a : α) : Idle env faults (pure a : M Locals α) := fun _ _ _ => ends_pure ⟨rfl, rfl⟩

lemma idle_raise (e : Exc) : Idle env faults (raise e : M Locals α) := fun _ _ _ => ends_throw ⟨rfl, rfl⟩

lemma idle_ofExcept (x : Except Exc α) : Idle env faults (ofExcept x : M Locals α) := fun _ _ _ =>
  ends_ofExcept (fun _ _ => ⟨rfl, rfl⟩) fun _ _ => ⟨rfl, rfl⟩

lemma idle_get : Idle env faults (get : M Locals Locals) := fun _ _ _ => ends_get ⟨rfl, rfl⟩

variable {origin : Origin}

lemma idle_call {o : Op} (h : o.touches env = []) : Idle env faults (call origin o : M Locals o.Value) := fun _ _ _ =>
  ends_call (fun _ _ => ⟨rfl, files_respond_of_untouching h⟩) fun _ _ => ⟨rfl, rfl⟩

lemma idle_bind {k' : α → M Locals β} (h : Idle env faults k) (hk : ∀ a, Idle env faults (k' a)) :
    Idle env faults (k >>= k') := fun _ _ _ =>
  ends_bind (h.ends (fun a _ _ hw => (hk a).ends (fun _ _ _ hw' => ⟨rfl, hw'.trans hw⟩)
    fun _ _ _ hw' => ⟨rfl, hw'.trans hw⟩) fun _ _ _ hw => ⟨rfl, hw⟩)

lemma idle_ite {P : Prop} [Decidable P] {k' : M Locals α} (h : P → Idle env faults k)
    (h' : ¬ P → Idle env faults k') : Idle env faults (if P then k else k') := fun l tr w =>
  ends_ite (fun hP => h hP l tr w) fun hP => h' hP l tr w

lemma idle_emitChangesetEvent {changesetId : String} {status : ChangeSetStatus} {created : Bool} :
    Idle env faults (emitChangesetEvent m origin changesetId status created) :=
  idle_ite (fun _ => idle_call rfl) fun _ => idle_pure ()

lemma idle_transition {changesetId : String} {status : ChangeSetStatus} :
    Idle env faults (transition m origin changesetId status) :=
  idle_bind (idle_call rfl) fun _ => idle_emitChangesetEvent

lemma idle_checkCompose : Idle env faults (checkCompose f) := by
  refine idle_ite (fun _ => ?_) fun _ => idle_pure ()
  refine idle_bind idle_get fun l => idle_bind (idle_ofExcept _) fun temp => ?_
  refine idle_ite (fun _ => ?_) fun _ => idle_pure ()
  exact idle_bind (idle_call rfl) fun result => idle_ite (fun _ => idle_pure ()) fun _ => idle_raise _

lemma idle_consumeApproval {protectedPaths : List Path} {approvalId : Option String} :
    Idle env faults (consumeApproval m rq protectedPaths approvalId) := by
  refine idle_ite (fun _ => idle_pure ()) fun _ => ?_
  cases approvalId with
  | none => exact idle_raise _
  | some approvalId => exact idle_ite (fun _ => idle_call rfl) fun _ => idle_raise _

lemma idle_recheckOriginal : Idle env faults (recheckOriginal m rq p) := by
  refine idle_bind idle_get fun l => idle_bind (idle_ofExcept _) fun f => ?_
  cases f.expectedSha256 with
  | none => exact idle_pure ()
  | some expected =>
    exact idle_bind (idle_ofExcept _) fun _ => idle_bind (idle_ofExcept _) fun _ => idle_ofExcept _

end Idle

namespace TempsReady

variable {done : List FileRequest}

lemma of_files (hw : w'.files = w.files) (h : TempsReady env rq ts w₀ done w) : TempsReady env rq ts w₀ done w' := by
  refine ⟨?_, ?_, ?_, h.clear, h.distinct⟩
  · rw [hw]
    exact h.files
  · rw [hw]
    exact h.backups
  · rw [hw]
    exact h.temps

lemma salvage {applied written : List Path} (happlied : applied = [])
    (hwritten : ∀ p ∈ written, ∃ f ∈ done, f.path = p) (h : TempsReady env rq ts w₀ done w) :
    Salvage env rq ts w₀ applied written w := by
  subst happlied
  refine ⟨fun f hf _ => h.files f hf, ?_, ?_, nodup_nil, ?_⟩
  · rintro p ⟨⟩
  · rintro p ⟨⟩
  · intro p hp f hf
    obtain ⟨g, hg, rfl⟩ := hwritten p hp
    exact (h.clear g hg f hf).1

lemma write {content : Bytes} {mode : ℕ} (huntangled : rq.Untangled env ts)
    (hpresent : ∀ g ∈ rq.files, (w₀.files rq.context.scope (rq.location env g.path)).isSome ∨ IsNew rq g.path)
    (hf : f ∈ rq.files) (h : TempsReady env rq ts w₀ done w)
    (hwrite : (perform env (.writeBytes rq.context.scope (tempPath (rq.canonical env f.path) rq.changesetId)
      content mode true) w).1 = .ok ()) :
    TempsReady env rq ts w₀ (done ++ [f]) (perform env (.writeBytes rq.context.scope
      (tempPath (rq.canonical env f.path) rq.changesetId) content mode true) w).2 := by
  have hvacant : rq.context.scope = .host →
      w.files rq.context.scope (rq.tempLocation env f.path) = none := by
    intro hhost
    by_contra hsome
    simp only [perform, loc_temp] at hwrite
    rw [if_pos ⟨hhost, trivial, Option.isSome_iff_ne_none.mpr hsome⟩] at hwrite
    cases hwrite
  have hclear : ∀ g ∈ rq.files, rq.location env g.path ≠ rq.tempLocation env f.path ∧
      (¬ IsNew rq g.path → rq.backupLocation env ts g.path ≠ rq.tempLocation env f.path) := by
    intro g hg
    obtain ⟨-, hscoped⟩ := huntangled
    cases hscope : rq.context.scope with
    | container container =>
      rw [hscope] at hscoped
      obtain ⟨-, hscoped⟩ := hscoped
      refine ⟨(hscoped g hg f hf).1, fun hold heq => ?_⟩
      exact (hscoped f hf g hg).2 (creates_of_not_isNew hg hold) heq.symm
    | host =>
      rw [hscope] at hscoped
      have hnone := hvacant hscope
      refine ⟨fun heq => ?_, fun hold heq => ?_⟩
      · rcases hpresent g hg with hsome | ⟨g', hg', hpath, hcreates⟩
        · rw [← h.files g hg, heq, hnone] at hsome
          cases hsome
        · refine hscoped g' hg' f hf hcreates ?_
          rw [hpath, heq]
      · obtain ⟨hbackup, hsome⟩ := h.backups g hg hold
        rw [← hbackup, heq, hnone] at hsome
        cases hsome
  have hworld : (perform env (.writeBytes rq.context.scope (tempPath (rq.canonical env f.path) rq.changesetId)
      content mode true) w).2 = w.setFile rq.context.scope (rq.tempLocation env f.path) (some ⟨content, mode⟩) := by
    simp only [perform, loc_temp] at hwrite ⊢
    split_ifs at hwrite ⊢
    rfl
  rw [hworld]
  refine ⟨?_, ?_, ?_, ?_, ?_⟩
  · intro g hg
    rw [files_setFile, if_neg fun heq => (hclear g hg).1 heq.2]
    exact h.files g hg
  · intro g hg hold
    rw [files_setFile, if_neg fun heq => (hclear g hg).2 hold heq.2]
    exact h.backups g hg hold
  · intro g hg
    rw [files_setFile]
    split_ifs with heq
    · rfl
    · rcases mem_append.mp hg with hg | hg
      · exact h.temps g hg
      · exact absurd ⟨rfl, by rw [mem_singleton.mp hg]⟩ heq
  · intro g hg
    rcases mem_append.mp hg with hg | hg
    · exact h.clear g hg
    · rw [mem_singleton.mp hg]
      exact hclear
  · intro hhost
    rw [map_append, map_singleton]
    refine List.Nodup.append (h.distinct hhost) (nodup_singleton _) ?_
    intro location hmem heq
    obtain ⟨g, hg, rfl⟩ := mem_map.mp hmem
    have hsome := h.temps g hg
    rw [mem_singleton.mp heq, hvacant hhost] at hsome
    cases hsome

end TempsReady

variable {l : Locals}

lemma Writing.present {done : List FileRequest} (hwriting : Writing rq ts done l tr)
    (hwatched : Watched env rq ts w₀ tr w) (hg : g ∈ rq.files) :
    (w₀.files rq.context.scope (rq.location env g.path)).isSome ∨ IsNew rq g.path := by
  obtain ⟨canonical, original, content, -, -, -, -, hprepared⟩ := hwriting.arranged.ready g hg
  obtain ⟨g', hg', hpath, -, hpreflighted⟩ := hprepared.survey
  cases original with
  | none => exact .inr ⟨g', hg', hpath, hpreflighted.1⟩
  | some original =>
    left
    obtain ⟨-, ⟨metadata, hlink, hdid⟩, -⟩ := hpreflighted
    rw [scope_eq hg'] at hdid
    rw [← hpath]
    exact (hwatched.genuine.lstat g' hg' metadata hdid hlink).2

lemma Watched.staged (h : Watched env rq ts w₀ tr w) (hwriting : Writing rq ts [] l tr)
    (hquiet : UpTo 0 tr) : TempsReady env rq ts w₀ [] w := by
  refine ⟨h.files hquiet, ?_, ?_, ?_, fun _ => nodup_nil⟩
  · intro f hf hold
    obtain ⟨canonical, original, content, -, -, -, -, hprepared⟩ := hwriting.arranged.ready f hf
    obtain rfl := hprepared.survey.canonical_eq h.genuine
    obtain ⟨_, -, hcopied, -⟩ := hprepared.secured hold
    exact h.backups hquiet f hf hold hcopied
  · rintro f ⟨⟩
  · rintro f ⟨⟩

lemma writeTemp_staged {done rest : List FileRequest} (hfiles : rq.files = done ++ f :: rest)
    (huntangled : rq.Untangled env ts) (hwatched : Watched env rq ts w₀ tr w) (hwriting : Writing rq ts done l tr)
    (h : TempsReady env rq ts w₀ done w) :
    Routine.Ends (respond env faults) (writeTemp rq f) (fun _ _ _ => TempsReady env rq ts w₀ (done ++ [f]))
      (fun _ l' _ => Salvage env rq ts w₀ l'.appliedFiles l'.writtenTemps) l tr w := by
  have hf : f ∈ rq.files := by simp [hfiles]
  obtain ⟨canonical, original, content, hcanonical, hcontent, -, -, hprepared⟩ := hwriting.arranged.ready f hf
  obtain rfl := hprepared.survey.canonical_eq hwatched.genuine
  have hexit := h.salvage hwriting.applied hwriting.written
  unfold writeTemp
  refine ends_bind (ends_get ?_)
  refine ends_bind (ends_ofExcept ?_ fun _ _ => hexit)
  intro canonical hcanonical'
  obtain rfl := Option.some.inj (hcanonical.symm.trans (lookup_eq_ok hcanonical'))
  refine ends_bind (ends_modify ?_)
  refine ends_bind (ends_ofExcept ?_ fun _ _ => hexit)
  intro content _
  refine ends_bind (ends_ofExcept ?_ fun _ _ => hexit)
  intro mode _
  refine ends_bind (ends_call ?_ fun _ _ => hexit)
  intro _ hwrite
  have hperform := respond_eq_perform hwrite
  rw [hperform] at hwrite ⊢
  have hstaged : TempsReady env rq ts w₀ (done ++ [f]) (perform env (.writeBytes f.scope
      (tempPath (rq.canonical env f.path) rq.changesetId) content mode true) w).2 := by
    rw [scope_eq hf] at hwrite ⊢
    exact h.write huntangled (fun g hg => hwriting.present hwatched hg) hf hwrite
  refine ends_bind (ends_modify ?_)
  refine ends_call (fun _ _ => hstaged.of_files (files_respond_of_untouching rfl)) fun _ _ => ?_
  refine hstaged.salvage hwriting.applied ?_
  intro p hp
  rcases mem_cons.mp hp with rfl | hp
  · exact ⟨f, by simp, rfl⟩
  · obtain ⟨g, hg, rfl⟩ := hwriting.written p hp
    exact ⟨g, mem_append_left _ hg, rfl⟩

/-! ### Step 10 -/

lemma nodup_paths_of_temps (h : (rq.files.map fun f => rq.tempLocation env f.path).Nodup) :
    (rq.files.map path).Nodup := by
  rw [show (fun f : FileRequest => rq.tempLocation env f.path) = rq.tempLocation env ∘ path from rfl, ← map_map] at h
  exact h.of_map _

lemma TempsReady.sorted (huntangled : rq.Untangled env ts) (hwatched : Watched env rq ts w₀ tr w)
    (hwriting : Writing rq ts rq.files l tr) (h : TempsReady env rq ts w₀ rq.files w) : Sorted env rq ts w₀ := by
  have hpaths : (rq.files.map path).Nodup := by
    cases hscope : rq.context.scope with
    | host => exact nodup_paths_of_temps (h.distinct hscope)
    | container container =>
      obtain ⟨-, hscoped⟩ := huntangled
      rw [hscope] at hscoped
      exact hscoped.1
  refine ⟨hpaths, h.clear, fun f hf g hg hold => huntangled.1 f hf g hg (creates_of_not_isNew hg hold), ?_⟩
  rintro f hf ⟨g, hg, hpath, hcreates⟩
  obtain ⟨canonical, original, content, -, -, -, -, hprepared⟩ := hwriting.arranged.ready f hf
  obtain ⟨g', hg', hpath', -, hpreflighted⟩ := hprepared.survey
  obtain rfl : g = g' := inj_on_of_nodup_map hpaths hg hg' (hpath.trans hpath'.symm)
  cases original with
  | some original => exact absurd hcreates (by simp [hpreflighted.1])
  | none =>
    obtain ⟨-, e, hkind, hraised⟩ := hpreflighted
    rw [← hpath]
    exact hwatched.absent g hg hcreates e hkind hraised

lemma TempsReady.swapped (h : TempsReady env rq ts w₀ rq.files w) : Swapped env rq ts w₀ [] w := by
  refine ⟨fun f hf _ => h.files f hf, h.backups, ?_, nodup_nil⟩
  rintro p ⟨⟩

namespace Swapped

variable {done : List Path}

lemma of_files (hw : w'.files = w.files) (h : Swapped env rq ts w₀ done w) : Swapped env rq ts w₀ done w' := by
  refine ⟨?_, ?_, ?_, h.distinct⟩
  · rw [hw]
    exact h.files
  · rw [hw]
    exact h.backups
  · rw [hw]
    exact h.placed

lemma salvage {done applied written : List Path} (hsorted : Sorted env rq ts w₀) (happlied : applied = done)
    (hrequested : ∀ p ∈ done, ∃ f ∈ rq.files, f.path = p) (hwritten : ∀ p ∈ written, ∃ f ∈ rq.files, f.path = p)
    (h : Swapped env rq ts w₀ done w) : Salvage env rq ts w₀ applied written w := by
  subst happlied
  refine ⟨h.files, ?_, ?_, h.distinct, ?_⟩
  · intro p hp hnew
    obtain ⟨f, hf, rfl⟩ := hrequested p hp
    exact ⟨(h.placed f.path hp).1, hsorted.absent f hf hnew⟩
  · intro p hp hold
    obtain ⟨f, hf, rfl⟩ := hrequested p hp
    exact h.backups f hf hold
  · intro p hp f hf
    obtain ⟨g, hg, rfl⟩ := hwritten p hp
    exact (hsorted.temps g hg f hf).1

lemma rename (hsorted : Sorted env rq ts w₀) (hf : f ∈ rq.files)
    (hrequested : ∀ p ∈ done, ∃ f ∈ rq.files, f.path = p) (h : Swapped env rq ts w₀ done w)
    (hrename : (perform env (.rename rq.context.scope (tempPath (rq.canonical env f.path) rq.changesetId)
      (rq.canonical env f.path)) w).1 = .ok ()) :
    Swapped env rq ts w₀ (done ++ [f.path]) (perform env (.rename rq.context.scope
      (tempPath (rq.canonical env f.path) rq.changesetId) (rq.canonical env f.path)) w).2 := by
  simp only [perform, loc_temp, loc_canonical] at hrename ⊢
  cases hentry : w.files rq.context.scope (rq.tempLocation env f.path) with
  | none => simp [hentry] at hrename
  | some entry =>
    simp only
    have hfresh : ∀ p ∈ done, rq.location env p ≠ rq.location env f.path := by
      intro p hp heq
      have hnone := (h.placed p hp).2
      rw [tempLocation_inj.mpr heq, hentry] at hnone
      cases hnone
    refine ⟨?_, ?_, ?_, ?_⟩
    · intro g hg hothers
      have hne := hothers f.path (by simp)
      rw [files_setFile, if_neg fun heq => hne heq.2.symm, files_setFile,
        if_neg fun heq => (hsorted.temps f hf g hg).1 heq.2]
      exact h.files g hg fun p hp => hothers p (mem_append_left _ hp)
    · intro g hg hold
      rw [files_setFile, if_neg fun heq => hsorted.backups f hf g hg hold heq.2.symm, files_setFile,
        if_neg fun heq => (hsorted.temps f hf g hg).2 hold heq.2]
      exact h.backups g hg hold
    · intro p hp
      rcases mem_append.mp hp with hp | hp
      · obtain ⟨g, hg, rfl⟩ := hrequested p hp
        have hne := hfresh g.path hp
        refine ⟨?_, ?_⟩
        · rw [files_setFile, if_neg fun heq => hne heq.2, files_setFile,
            if_neg fun heq => (hsorted.temps f hf g hg).1 heq.2]
          exact (h.placed g.path hp).1
        · rw [files_setFile, if_neg fun heq => (hsorted.temps g hg f hf).1 heq.2.symm, files_setFile]
          split_ifs
          · rfl
          · exact (h.placed g.path hp).2
      · rw [mem_singleton.mp hp]
        refine ⟨?_, ?_⟩
        · rw [files_setFile, if_pos ⟨rfl, rfl⟩]
          rfl
        · rw [files_setFile, if_neg fun heq => (hsorted.temps f hf f hf).1 heq.2.symm, files_setFile, if_pos ⟨rfl, rfl⟩]
    · rw [map_append, map_singleton]
      refine List.Nodup.append h.distinct (nodup_singleton _) ?_
      intro location hmem heq
      obtain ⟨p, hp, rfl⟩ := mem_map.mp hmem
      exact hfresh p hp (mem_singleton.mp heq)

lemma apart (hsorted : Sorted env rq ts w₀) (hall : ∀ f ∈ rq.files, f.path ∈ done)
    (h : Swapped env rq ts w₀ done w) : rq.Apart env ts := by
  have hfiles : rq.files.Nodup := hsorted.paths.of_map _
  have heq : ∀ f ∈ rq.files, ∀ g ∈ rq.files, rq.location env f.path = rq.location env g.path → f = g := by
    intro f hf g hg hlocation
    refine inj_on_of_nodup_map hsorted.paths hf hg ?_
    exact inj_on_of_nodup_map h.distinct (hall f hf) (hall g hg) hlocation
  have hnew : ∀ f ∈ rq.files, f.creates = false → ¬ IsNew rq f.path := by
    rintro f hf hcreates ⟨g, hg, hpath, hcreates'⟩
    obtain rfl := inj_on_of_nodup_map hsorted.paths hg hf hpath
    simp [hcreates] at hcreates'
  refine nodup_flatMap.mpr ⟨?_, ?_⟩
  · intro f hf
    have htemp := (hsorted.temps f hf f hf).1
    unfold workingPaths
    cases hcreates : f.creates with
    | true => simpa using htemp
    | false =>
      have hold := hnew f hf hcreates
      have hbackup := hsorted.backups f hf f hf hold
      have htempBackup := (hsorted.temps f hf f hf).2 hold
      simp [htemp, hbackup, htempBackup.symm]
  · refine hfiles.pairwise_of_forall_ne ?_
    intro f hf g hg hne location hlocation hlocation'
    have hL : rq.location env f.path ≠ rq.location env g.path := fun hL => hne (heq f hf g hg hL)
    rcases mem_workingPaths.mp hlocation with rfl | rfl | ⟨hcreates, rfl⟩ <;>
      rcases mem_workingPaths.mp hlocation' with heq' | heq' | ⟨hcreates', heq'⟩
    · exact hL heq'
    · exact (hsorted.temps g hg f hf).1 heq'
    · exact hsorted.backups f hf g hg (hnew g hg hcreates') heq'
    · exact (hsorted.temps f hf g hg).1 heq'.symm
    · exact hL (tempLocation_inj.mp heq')
    · exact (hsorted.temps f hf g hg).2 (hnew g hg hcreates') heq'.symm
    · exact hsorted.backups g hg f hf (hnew f hf hcreates) heq'.symm
    · exact (hsorted.temps g hg f hf).2 (hnew f hf hcreates) heq'
    · exact hL (backupLocation_inj.mp heq')

end Swapped

lemma renameIntoPlace_swapped {done : List Path} {l : Locals} (hsorted : Sorted env rq ts w₀)
    (hgenuine : Genuine env rq w₀ tr) (hf : f ∈ rq.files) (hrenaming : Renaming rq ts done l tr)
    (h : Swapped env rq ts w₀ done w) :
    Routine.Ends (respond env faults) (renameIntoPlace m rq f.path)
      (fun _ _ _ => Swapped env rq ts w₀ (done ++ [f.path]))
      (fun _ l' _ => Salvage env rq ts w₀ l'.appliedFiles l'.writtenTemps) l tr w := by
  obtain ⟨canonical, original, content, hcanonical, -, hscope, -, hprepared⟩ := hrenaming.arranged.ready f hf
  obtain rfl := hprepared.survey.canonical_eq hgenuine
  obtain ⟨-, canonical, -, -, hcanonical', htemp, -⟩ := hrenaming.temps f hf
  obtain rfl := Option.some.inj (hcanonical.symm.trans hcanonical')
  have hexit := h.salvage hsorted hrenaming.applied hrenaming.requested hrenaming.written
  unfold renameIntoPlace
  refine ends_bind (ends_get ?_)
  refine ends_bind (ends_ofExcept ?_ fun _ _ => hexit)
  intro g _
  refine ends_bind (ends_ofExcept ?_ fun _ _ => hexit)
  intro scope hscope'
  obtain rfl := Option.some.inj (hscope.symm.trans (lookup_eq_ok hscope'))
  refine ends_bind (ends_ofExcept ?_ fun _ _ => hexit)
  intro temp htemp'
  obtain rfl := Option.some.inj (htemp.symm.trans (lookup_eq_ok htemp'))
  refine ends_bind (ends_ofExcept ?_ fun _ _ => hexit)
  intro canonical hcanonical''
  obtain rfl := Option.some.inj (hcanonical.symm.trans (lookup_eq_ok hcanonical''))
  refine ends_bind (ends_call ?_ fun _ _ => hexit)
  intro _ hrename
  have hperform := respond_eq_perform hrename
  rw [hperform] at hrename ⊢
  have hswapped := h.rename hsorted hf hrenaming.requested hrename
  have hrequested : ∀ p ∈ done ++ [f.path], ∃ g ∈ rq.files, g.path = p := by
    intro p hp
    rcases mem_append.mp hp with hp | hp
    · exact hrenaming.requested p hp
    · exact ⟨f, hf, (mem_singleton.mp hp).symm⟩
  -- from here on the path is in `applied_files`
  have happlied : l.appliedFiles ++ [f.path] = done ++ [f.path] := by rw [hrenaming.applied]
  have hsalvage : ∀ {w' : World}, Swapped env rq ts w₀ (done ++ [f.path]) w' →
      Salvage env rq ts w₀ (l.appliedFiles ++ [f.path]) l.writtenTemps w' := fun hswapped' =>
    hswapped'.salvage hsorted happlied hrequested hrenaming.written
  refine ends_bind (ends_modify ?_)
  refine ends_bind (ends_ofExcept ?_ fun _ _ => hsalvage hswapped)
  intro result _
  refine ends_bind (ends_call ?_ fun _ _ => hsalvage hswapped)
  intro _ _
  refine ends_ite (fun _ => ?_) fun _ => ends_pure ?_
  · exact idle_transition.ends
      (fun _ _ _ hw => hswapped.of_files (hw.trans (files_respond_of_untouching rfl)))
      fun _ _ _ hw => hsalvage (hswapped.of_files (hw.trans (files_respond_of_untouching rfl)))
  · exact hswapped.of_files (files_respond_of_untouching rfl)

/-! ### The failure handler -/

def Intact (env : Env) (rq : ChangeSetRequest) (w w' : World) : Prop := ∀ f ∈ rq.files, Unchanged env rq w w' f

namespace Salvage
variable {applied written : List Path}

lemma of_files (hw : w'.files = w.files) (h : Salvage env rq ts w₀ applied written w) :
    Salvage env rq ts w₀ applied written w' := by
  refine ⟨?_, ?_, ?_, h.distinct, h.clear⟩
  · rw [hw]
    exact h.files
  · rw [hw]
    exact h.removable
  · rw [hw]
    exact h.restorable

lemma intact (h : Salvage env rq ts w₀ [] written w) : Intact env rq w₀ w := fun f hf =>
  h.files f hf (by rintro p ⟨⟩)

lemma restore (hbackups : ∀ f ∈ rq.files, ∀ g ∈ rq.files, ¬ IsNew rq g.path →
      rq.location env f.path ≠ rq.backupLocation env ts g.path)
    (hrequested : ∀ q ∈ applied ++ [p], ∃ f ∈ rq.files, f.path = q)
    (h : Salvage env rq ts w₀ (applied ++ [p]) written w)
    (hp : w'.files rq.context.scope (rq.location env p) = w₀.files rq.context.scope (rq.location env p))
    (hothers : ∀ location, location ≠ rq.location env p → (¬ IsNew rq p → location ≠ rq.backupLocation env ts p) →
      w'.files rq.context.scope location = w.files rq.context.scope location) :
    Salvage env rq ts w₀ applied written w' := by
  have hsub : ∀ q ∈ applied, q ∈ applied ++ [p] := fun q hq => mem_append_left _ hq
  obtain ⟨g, hg, rfl⟩ := hrequested p (by simp)
  have hdistinct := h.distinct
  rw [map_append, nodup_append] at hdistinct
  obtain ⟨hnodup, -, hne⟩ := hdistinct
  have hfresh : ∀ q ∈ applied, rq.location env q ≠ rq.location env g.path := fun q hq =>
    hne _ (mem_map_of_mem hq) _ (by simp)
  refine ⟨?_, ?_, ?_, hnodup, h.clear⟩
  · intro f hf hnot
    by_cases heq : rq.location env f.path = rq.location env g.path
    · rw [heq, hp]
    · rw [hothers _ heq fun hold => hbackups f hf g hg hold]
      refine h.files f hf fun q hq => ?_
      rcases mem_append.mp hq with hq | hq
      · exact hnot q hq
      · rw [mem_singleton.mp hq]
        exact Ne.symm heq
  · intro q hq hnew
    obtain ⟨f, hf, rfl⟩ := hrequested q (hsub q hq)
    rw [hothers _ (hfresh _ hq) fun hold => hbackups f hf g hg hold]
    exact h.removable _ (hsub _ hq) hnew
  · intro q hq hold
    obtain ⟨f, hf, rfl⟩ := hrequested q (hsub q hq)
    rw [hothers _ (hbackups g hg f hf hold).symm fun _ heq => hfresh _ hq (backupLocation_inj.mp heq)]
    exact h.restorable _ (hsub _ hq) hold

end Salvage

section Handler
variable {l₀ : Locals} {tr₀ : History} {applied written : List Path} {fs : List Path}

lemma restoreFile_ends (h₀ : Recoverable rq ts l₀ tr₀) (hgenuine : Genuine env rq w₀ tr₀)
    (hbackups : ∀ f ∈ rq.files, ∀ g ∈ rq.files, ¬ IsNew rq g.path →
      rq.location env f.path ≠ rq.backupLocation env ts g.path)
    (happlied : ∀ q ∈ applied ++ [p], q ∈ l₀.appliedFiles)
    (h : Salvage env rq ts w₀ (applied ++ [p]) written w) :
    Routine.Ends (respond env faults) (restoreFile rq p)
      (fun _ l' _ w' => (∃ fs, l' = { l₀ with rollbackFailures := fs }) ∧ Salvage env rq ts w₀ applied written w')
      (fun _ _ _ _ => False) { l₀ with rollbackFailures := fs } tr w := by
  have hrequested : ∀ q ∈ applied ++ [p], ∃ f ∈ rq.files, f.path = q := by
    intro q hq
    obtain ⟨-, -, -, -, -, -, hf⟩ := h₀.applied q (happlied q hq)
    exact hf
  obtain ⟨canonical, hcanonical, hscope, hplaced, hnews, hbackup, hfile⟩ := h₀.applied p (happlied p (by simp))
  obtain ⟨rfl, -⟩ := hplaced.renamed hgenuine
  unfold restoreFile
  refine ends_bind (ends_get ?_)
  refine ends_bind (ends_ofExcept ?_ fun e he => fileReqByPath_ne_error hfile e he)
  intro f _
  refine ends_bind (ends_ofExcept ?_ fun e he => lookup_ne_error hscope e he)
  intro scope hscope'
  obtain rfl := Option.some.inj (hscope.symm.trans (lookup_eq_ok hscope'))
  refine ends_bind (ends_ofExcept ?_ fun e he => lookup_ne_error hcanonical e he)
  intro canonical hcanonical'
  obtain rfl := Option.some.inj (hcanonical.symm.trans (lookup_eq_ok hcanonical'))
  refine ends_bind (ends_mono (Q := fun _ l' _ w' => l' = { l₀ with rollbackFailures := fs } ∧
    Salvage env rq ts w₀ applied written w') (X := fun _ _ _ _ => False) (ends_attempt ?_) ?_
    fun _ _ _ _ h => h.elim)
  swap
  · -- whether or not the journal could be told
    rintro r _ tr' w' ⟨rfl, hsalvage⟩
    cases r with
    | ok _ => exact ends_pure ⟨⟨fs, rfl⟩, hsalvage⟩
    | error _ => exact ends_modify ⟨⟨_, rfl⟩, hsalvage⟩
  refine ends_ite (fun hnew => ?_) fun hold => ?_
  · have hisNew : IsNew rq p := hnews.mp hnew
    obtain ⟨hsome, hnone⟩ := h.removable p (by simp) hisNew
    obtain ⟨entry, hentry⟩ := Option.isSome_iff_exists.mp hsome
    have hworld : perform env (.removeFile rq.context.scope (rq.canonical env p)) w =
        (.ok (), w.setFile rq.context.scope (rq.location env p) none) := by
      simp only [perform, loc_canonical, hentry]
    have hplace : (w.setFile rq.context.scope (rq.location env p) none).files rq.context.scope (rq.location env p) =
        w₀.files rq.context.scope (rq.location env p) := by
      rw [files_setFile, if_pos ⟨rfl, rfl⟩, hnone]
    have hrestored := h.restore hbackups hrequested hplace fun location hne _ => by
      rw [files_setFile, if_neg fun heq => hne heq.2]
    refine ends_bind (ends_call ?_ ?_)
    · intro _ _
      rw [respond_handler, hworld]
      exact ends_call (fun _ _ => ⟨rfl, hrestored.of_files (files_respond_of_untouching rfl)⟩)
        fun _ _ => ⟨rfl, hrestored⟩
    · intro e herror
      rw [respond_handler, hworld] at herror
      cases herror
  · have hisOld : ¬ IsNew rq p := fun hisNew => hold (hnews.mpr hisNew)
    obtain ⟨hfiles, hsome⟩ := h.restorable p (by simp) hisOld
    obtain ⟨entry, hentry⟩ := Option.isSome_iff_exists.mp hsome
    rw [hentry] at hfiles
    have hworld : perform env (.rename rq.context.scope (backupPath (rq.canonical env p) ts) (rq.canonical env p)) w =
        (.ok (), (w.setFile rq.context.scope (rq.backupLocation env ts p) none).setFile rq.context.scope
          (rq.location env p) (some entry)) := by
      simp only [perform, loc_canonical, loc_backup, hfiles]
    have hplace : ((w.setFile rq.context.scope (rq.backupLocation env ts p) none).setFile rq.context.scope
        (rq.location env p) (some entry)).files rq.context.scope (rq.location env p) =
          w₀.files rq.context.scope (rq.location env p) := by
      rw [files_setFile, if_pos ⟨rfl, rfl⟩, hentry]
    have hrestored := h.restore hbackups hrequested hplace fun location hne hne' => by
      rw [files_setFile, if_neg fun heq => hne heq.2, files_setFile, if_neg fun heq => hne' hisOld heq.2]
    refine ends_bind (ends_ofExcept ?_ fun e he => absurd he (lookup_ne_error (hbackup hisOld) e))
    intro backup hbackup'
    obtain rfl := Option.some.inj ((hbackup hisOld).symm.trans (lookup_eq_ok hbackup'))
    refine ends_bind (ends_call ?_ ?_)
    · intro _ _
      rw [respond_handler, hworld]
      exact ends_call (fun _ _ => ⟨rfl, hrestored.of_files (files_respond_of_untouching rfl)⟩)
        fun _ _ => ⟨rfl, hrestored⟩
    · intro e herror
      rw [respond_handler, hworld] at herror
      cases herror

lemma removeTemp_ends {item : Path × Path} (h₀ : Recoverable rq ts l₀ tr₀) (hgenuine : Genuine env rq w₀ tr₀)
    (hitem : item ∈ l₀.tempPaths) (h : Salvage env rq ts w₀ [] l₀.writtenTemps w) :
    Routine.Ends (respond env faults) (removeTemp item)
      (fun _ l' _ w' => (∃ fs, l' = { l₀ with rollbackFailures := fs }) ∧
        Salvage env rq ts w₀ [] l₀.writtenTemps w')
      (fun _ _ _ _ => False) { l₀ with rollbackFailures := fs } tr w := by
  obtain ⟨path, temp⟩ := item
  unfold removeTemp
  refine ends_bind (ends_get ?_)
  refine ends_ite (fun _ => ends_pure ⟨⟨fs, rfl⟩, h⟩) fun hwritten => ?_
  simp only [not_or, not_not] at hwritten
  obtain ⟨hscope, canonical, original, content, mode, -, hat, rfl, -⟩ := h₀.temps path temp hitem hwritten.2
  obtain rfl := hat.canonical_eq hgenuine
  refine ends_bind (ends_attempt ?_)
  refine ends_bind (ends_ofExcept ?_ fun e he => absurd he (lookup_ne_error hscope e))
  intro scope hscope'
  obtain rfl := Option.some.inj (hscope.symm.trans (lookup_eq_ok hscope'))
  refine ends_call (fun _ _ => ends_pure ⟨⟨fs, rfl⟩, ?_⟩) fun _ _ => ends_pure ⟨⟨fs, rfl⟩, h⟩
  refine ⟨?_, ?_, ?_, nodup_nil, h.clear⟩
  · intro f hf _
    rw [files_respond, h.intact f hf]
    simp only [Op.touches, mem_singleton, loc_temp]
    exact h.clear path hwritten.2 f hf
  · rintro p ⟨⟩
  · rintro p ⟨⟩

lemma handleFailure_ends {e : Exc} (h₀ : Recoverable rq ts l₀ tr₀) (hgenuine : Genuine env rq w₀ tr₀)
    (hbackups : ∀ f ∈ rq.files, ∀ g ∈ rq.files, ¬ IsNew rq g.path →
      rq.location env f.path ≠ rq.backupLocation env ts g.path)
    (h : Salvage env rq ts w₀ l₀.appliedFiles l₀.writtenTemps w) :
    Routine.Ends (respond env faults) (handleFailure m rq e)
      (fun result _ _ w' => result.status ≠ .applied ∧ Intact env rq w₀ w') (fun _ _ _ => Intact env rq w₀)
      l₀ tr₀ w := by
  unfold handleFailure
  refine ends_bind (ends_get ?_)
  refine ends_bind (ends_forM (fun done l' _ w' => (∃ fs, l' = { l₀ with rollbackFailures := fs }) ∧
    ∀ rest, l₀.appliedFiles.reverse = done ++ rest → Salvage env rq ts w₀ rest.reverse l₀.writtenTemps w')
    ?_ ?_ ?_)
  · rintro done p rest hpaths _ tr w ⟨⟨fs, rfl⟩, hsalvage⟩
    have hrest := hsalvage (p :: rest) hpaths
    rw [reverse_cons] at hrest
    have happlied : ∀ q ∈ rest.reverse ++ [p], q ∈ l₀.appliedFiles := by
      intro q hq
      have hmem : q ∈ l₀.appliedFiles.reverse := by
        rw [hpaths]
        simp only [mem_append, mem_reverse, mem_cons] at hq ⊢
        tauto
      exact mem_reverse.mp hmem
    refine ends_mono (restoreFile_ends h₀ hgenuine hbackups happlied hrest) ?_ fun _ _ _ _ h => h.elim
    rintro _ l' tr' w' ⟨hl, hsalvage'⟩
    refine ⟨hl, fun rest' hrest' => ?_⟩
    rw [hpaths, append_assoc, singleton_append] at hrest'
    obtain rfl := (cons.inj (append_cancel_left hrest')).2
    exact hsalvage'
  · refine ⟨⟨_, rfl⟩, fun rest hrest => ?_⟩
    rw [nil_append] at hrest
    rw [← hrest, reverse_reverse]
    exact h
  rintro _ tr w ⟨⟨fs, rfl⟩, hsalvage⟩
  refine ends_bind (ends_forM (fun _ l' _ w' => (∃ fs, l' = { l₀ with rollbackFailures := fs }) ∧
    Salvage env rq ts w₀ [] l₀.writtenTemps w') ?_ ⟨⟨fs, rfl⟩, hsalvage [] (by simp)⟩ ?_)
  · rintro done item rest hitems _ tr w ⟨⟨fs, rfl⟩, hsalvage⟩
    have hitem : item ∈ l₀.tempPaths := by
      change l₀.tempPaths = _ at hitems
      simp [hitems]
    exact ends_mono (removeTemp_ends h₀ hgenuine hitem hsalvage) (fun _ _ _ _ h => h) fun _ _ _ _ h => h.elim
  rintro _ tr w ⟨⟨fs, rfl⟩, hsalvage⟩
  have hintact := hsalvage.intact
  have hlast : ∀ {w' : World}, w'.files = w.files → Intact env rq w₀ w' := fun hw => (hsalvage.of_files hw).intact
  have hstatus : ∀ rolledBack : Bool, (if rolledBack then ChangeSetStatus.rolledBack else .failed) ≠ .applied := by
    decide
  refine ends_bind (ends_get ?_)
  refine ends_ite (fun _ => ?_) fun _ => ?_
  · refine ends_ite (fun _ => ?_) fun _ => ?_
    · refine ends_bind (idle_transition.ends (fun _ _ _ hw => ?_) fun _ _ _ => hlast)
      refine ends_bind (idle_emitChangesetEvent.ends (fun _ _ _ hw' => ?_) fun _ _ _ hw' => hlast (hw'.trans hw))
      exact ends_pure ⟨hstatus _, hlast (hw'.trans hw)⟩
    · refine ends_bind (idle_transition.ends (fun _ _ _ hw => ?_) fun _ _ _ => hlast)
      exact ends_pure ⟨hstatus _, hlast hw⟩
  · exact ends_bind (ends_pure (ends_pure ⟨hstatus _, hintact⟩))

end Handler

/-! ### `apply` -/

section Apply
variable (huntangled : rq.Untangled env ts) (htruth : Truthful env rq faults w₀)
include huntangled htruth

lemma watched (hex : Execution (Lawful rq ts) (respond env faults) [] w₀ tr w) : Watched env rq ts w₀ tr w :=
  watched_of_execution huntangled.1 htruth hex

/-- The state the failure handler starts from. -/
def Stopped (env : Env) (rq : ChangeSetRequest) (ts : String) (faults : Faults) (w₀ : World) (l : Locals)
    (tr : History) (w : World) : Prop :=
  Execution (Lawful rq ts) (respond env faults) [] w₀ tr w ∧ Recoverable rq ts l tr ∧
    Salvage env rq ts w₀ l.appliedFiles l.writtenTemps w

omit huntangled htruth in
lemma Base.stopped {l : Locals} (hbase : Base l tr) (hwatched : Watched env rq ts w₀ tr w)
    (hex : Execution (Lawful rq ts) (respond env faults) [] w₀ tr w) : Stopped env rq ts faults w₀ l tr w := by
  refine ⟨hex, hbase.recoverable, ?_⟩
  rw [hbase.applied, hbase.written]
  refine ⟨fun f hf _ => hwatched.files hbase.upTo f hf, ?_, ?_, nodup_nil, ?_⟩
  · rintro p ⟨⟩
  · rintro p ⟨⟩
  · rintro p ⟨⟩

lemma applySteps_ends (policy : ServiceRegistration) (protectedPaths : List Path) (approvalId : Option String)
    (hbase : Base {} tr) (hex : Execution (Lawful rq ts) (respond env faults) [] w₀ tr w) :
    Routine.Ends (respond env faults) (applySteps m rq policy protectedPaths approvalId ts)
      (fun result _ _ _ => result.status = .applied ∧ rq.Apart env ts)
      (fun _ => Stopped env rq ts faults w₀) {} tr w := by
  have hexit : ∀ (_ : Exc) l tr w, Execution (Lawful rq ts) (respond env faults) [] w₀ tr w ∧ Base l tr →
      Stopped env rq ts faults w₀ l tr w := fun _ _ _ _ h => h.2.stopped (watched huntangled htruth h.1) h.1
  unfold applySteps
  -- steps 1 to 6
  refine ends_bind (ends_mono (ends_of_wp (survey_spec policy hbase) hex) ?_ hexit)
  rintro _ l tr w ⟨hex, hsurvey⟩
  refine ends_bind (ends_mono (ends_of_wp (computing_spec hsurvey) hex) ?_ hexit)
  rintro _ l tr w ⟨hex, hcomputed⟩
  refine ends_bind (ends_mono (ends_of_wp (validating_spec hcomputed) hex) ?_ hexit)
  rintro _ l tr w ⟨hex, hvalidated⟩
  refine ends_bind (ends_mono (ends_of_wp (createDraft_spec approvalId hvalidated) hex) ?_ hexit)
  rintro _ l tr w ⟨hex, hdraft⟩
  refine ends_bind (ends_mono (ends_of_wp (hdraft.transition (by simp)) hex) ?_ hexit)
  rintro _ l tr w ⟨hex, hpreflighted⟩
  refine ends_bind (ends_mono (ends_of_wp (backingUpLocally_spec hpreflighted) hex) ?_ hexit)
  rintro _ l tr w ⟨hex, hlocal⟩
  refine ends_bind (ends_mono (ends_of_wp (hlocal.transition (by simp)) hex) ?_ hexit)
  rintro _ l tr w ⟨hex, hlocally⟩
  refine ends_bind (ends_mono (ends_of_wp (backingUpRemotely_spec hlocally) hex) ?_ hexit)
  rintro _ l tr w ⟨hex, hremote⟩
  refine ends_bind (ends_mono (ends_of_wp (hremote.transition (by simp)) hex) ?_ hexit)
  rintro _ l tr w ⟨hex, hsecured⟩
  have hstart := (watched huntangled htruth hex).staged hsecured.writing hsecured.upTo
  -- step 7
  refine ends_bind (ends_forM (fun done l tr w => Execution (Lawful rq ts) (respond env faults) [] w₀ tr w ∧
    Writing rq ts done l tr ∧ TempsReady env rq ts w₀ done w) ?_ ⟨hex, hsecured.writing, hstart⟩ ?_)
  · rintro done f rest hfiles l tr w ⟨hex, hwriting, hstaged⟩
    have hwatched := watched huntangled htruth hex
    refine ends_mono (ends_and (ends_of_wp (writeTemp_spec hfiles hwriting) hex)
      (writeTemp_staged hfiles huntangled hwatched hwriting hstaged)) ?_ ?_
    · rintro _ l tr w ⟨⟨hex, hwriting⟩, hstaged⟩
      exact ⟨hex, hwriting, hstaged⟩
    · rintro e l tr w ⟨⟨hex, hrecoverable⟩, hsalvage⟩
      exact ⟨hex, hrecoverable, hsalvage⟩
  rintro l tr w ⟨hex, hwritten, hstaged⟩
  have hsorted := hstaged.sorted huntangled (watched huntangled htruth hex) hwritten
  -- steps 8 and 9 look on
  have hidle : ∀ {k : M Locals Unit} {l : Locals} {tr : History} {w : World}, Idle env faults k →
      wp (Lawful rq ts) k (fun _ => Writing rq ts rq.files) (fun _ => Recoverable rq ts) l tr →
      Execution (Lawful rq ts) (respond env faults) [] w₀ tr w → Writing rq ts rq.files l tr →
      TempsReady env rq ts w₀ rq.files w → Routine.Ends (respond env faults) k
        (fun _ l' tr' w' => l' = l ∧ Execution (Lawful rq ts) (respond env faults) [] w₀ tr' w' ∧
          Writing rq ts rq.files l' tr' ∧ TempsReady env rq ts w₀ rq.files w')
        (fun _ => Stopped env rq ts faults w₀) l tr w := by
    intro k l tr w hk hspec hex hwriting hstaged
    refine ends_mono (ends_and (ends_of_wp hspec hex) (hk l tr w)) ?_ ?_
    · rintro _ l' tr' w' ⟨⟨hex', hwriting'⟩, rfl, hw⟩
      exact ⟨rfl, hex', hwriting', hstaged.of_files hw⟩
    · rintro e l' tr' w' ⟨⟨hex', hrecoverable⟩, rfl, hw⟩
      exact ⟨hex', hrecoverable, (hstaged.of_files hw).salvage hwriting.applied hwriting.written⟩
  refine ends_bind (ends_forM (fun _ l tr w => Execution (Lawful rq ts) (respond env faults) [] w₀ tr w ∧
    Writing rq ts rq.files l tr ∧ TempsReady env rq ts w₀ rq.files w) ?_ ⟨hex, hwritten, hstaged⟩ ?_)
  · rintro _ f _ _ l tr w ⟨hex, hwriting, hstaged⟩
    exact ends_mono (hidle idle_checkCompose (checkCompose_spec hwriting) hex hwriting hstaged)
      (fun _ _ _ _ h => h.2) fun _ _ _ _ h => h
  rintro l tr w ⟨hex, hcomposed, hstaged⟩
  refine ends_bind (ends_mono (hidle idle_consumeApproval
    (consumeApproval_spec protectedPaths approvalId hcomposed) hex hcomposed hstaged) ?_ fun _ _ _ _ h => h)
  rintro _ l tr w ⟨-, hex, happroved, hstaged⟩
  refine ends_bind (ends_get ?_)
  refine ends_bind (ends_forM (fun _ l' tr w => l' = l ∧
    Execution (Lawful rq ts) (respond env faults) [] w₀ tr w ∧ Writing rq ts rq.files l' tr ∧
    TempsReady env rq ts w₀ rq.files w) ?_ ⟨rfl, hex, happroved, hstaged⟩ ?_)
  · rintro _ path _ _ l' tr w ⟨rfl, hex, hwriting, hstaged⟩
    have hspec := wp_mono (recheckOriginal_spec (m := m) path hwriting) (fun _ _ _ h => h.2) fun _ _ _ h => h
    exact hidle idle_recheckOriginal hspec hex hwriting hstaged
  rintro l' tr w ⟨rfl, hex, hchecked, hstaged⟩
  -- step 10
  refine ends_bind (ends_forM (fun done l tr w => Execution (Lawful rq ts) (respond env faults) [] w₀ tr w ∧
    Renaming rq ts done l tr ∧ Swapped env rq ts w₀ done w) ?_ ⟨hex, hchecked.renaming, hstaged.swapped⟩ ?_)
  · rintro done path rest hpaths l tr w ⟨hex, hrenaming, hswapped⟩
    have hrequested := hchecked.requested hpaths
    have hspec := renameIntoPlace_spec (m := m) (hchecked.nodup_done hpaths) hrequested hrenaming
    obtain ⟨f, hf, rfl⟩ := hrequested
    refine ends_mono (ends_and (ends_of_wp hspec hex)
      (renameIntoPlace_swapped hsorted (watched huntangled htruth hex).genuine hf hrenaming hswapped)) ?_ ?_
    · rintro _ l tr w ⟨⟨hex, hrenaming⟩, hswapped⟩
      exact ⟨hex, hrenaming, hswapped⟩
    · rintro e l tr w ⟨⟨hex, hrecoverable⟩, hsalvage⟩
      exact ⟨hex, hrecoverable, hsalvage⟩
  rintro l tr w ⟨hex, hrenamed, hswapped⟩
  have hall : ∀ f ∈ rq.files, f.path ∈ sortedPaths l'.tempPaths.keys := fun f hf =>
    mem_sortedPaths.mpr (hchecked.mem_keys f hf)
  have hapart := hswapped.apart hsorted hall
  refine ends_bind (ends_mono (ends_and
    (ends_of_wp (hrenamed.published (nodup_sortedPaths hchecked.keys) hall) hex)
    (idle_emitChangesetEvent l tr w)) ?_ ?_)
  · exact fun _ _ _ _ _ => ends_bind (ends_get (ends_pure ⟨rfl, hapart⟩))
  · rintro e _ tr w ⟨⟨hex, hrecoverable⟩, rfl, hw⟩
    have hsalvage := (hswapped.of_files hw).salvage hsorted hrenamed.applied hrenamed.requested hrenamed.written
    exact ⟨hex, hrecoverable, hsalvage⟩

lemma applyLocked_ends (policy : ServiceRegistration) (protectedPaths : List Path) (approvalId : Option String)
    (hbase : Base {} tr) (hex : Execution (Lawful rq ts) (respond env faults) [] w₀ tr w) :
    Routine.Ends (respond env faults) (applyLocked m rq policy protectedPaths approvalId ts)
      (fun result _ _ w' => result.status = .applied ∧ rq.Apart env ts ∨ result.status ≠ .applied ∧ Intact env rq w₀ w')
      (fun _ _ _ => Intact env rq w₀) {} tr w := by
  unfold applyLocked
  refine ends_bind (ends_attempt (ends_mono
    (applySteps_ends huntangled htruth policy protectedPaths approvalId hbase hex) ?_ ?_))
  · exact fun result _ _ _ h => ends_pure (.inl h)
  · rintro e l tr w ⟨hex, hrecoverable, hsalvage⟩
    have hgenuine := (watched huntangled htruth hex).genuine
    refine ends_mono (handleFailure_ends hrecoverable hgenuine ?_ hsalvage) (fun _ _ _ _ => .inr) fun _ _ _ _ h => h
    exact fun f hf g hg hold => huntangled.1 f hf g hg (creates_of_not_isNew hg hold)

omit huntangled htruth in
lemma release_ends {keys : List LockKey} {Q : Unit → Locals → History → World → Prop}
    {X : Exc → Locals → History → World → Prop} {l : Locals} (h : ∀ tr' w', w'.files = w.files → Q () l tr' w') :
    Routine.Ends (respond env faults) (keys.forM fun key => call .apply (.release key)) Q X l tr w := by
  refine ends_forM (fun _ l' _ w' => l' = l ∧ w'.files = w.files) ?_ ⟨rfl, rfl⟩ ?_
  · rintro _ key _ _ _ tr' w' ⟨rfl, hw⟩
    refine ends_call (fun _ _ => ⟨rfl, (files_respond_of_untouching rfl).trans hw⟩) ?_
    intro e herror
    rw [respond_unfaultable rfl] at herror
    cases herror
  · rintro _ tr' w' ⟨rfl, hw⟩
    exact h tr' w' hw

lemma apply_ends (approvalId : Option String) (transport : Bool) :
    Routine.Ends (respond env faults) (apply m rq approvalId transport ts)
      (fun result _ _ w' => result.status = .applied ∧ rq.Apart env ts ∨ result.status ≠ .applied ∧ Intact env rq w₀ w')
      (fun _ _ _ => Intact env rq w₀) {} [] w₀ := by
  have hquiet : ∀ {l tr w}, Base l tr → Execution (Lawful rq ts) (respond env faults) [] w₀ tr w →
      Intact env rq w₀ w := fun hbase hex => (watched huntangled htruth hex).files hbase.upTo
  have hstart : Base {} [] := by
    refine ⟨by rintro e ⟨⟩, rfl, rfl, rfl, rfl, ⟨by rintro ⟨⟩, ?_⟩⟩
    rintro ⟨cs, ⟨⟩⟩
  -- from the locks on
  have hlocked : ∀ policy protectedPaths tr w, Base {} tr →
      Execution (Lawful rq ts) (respond env faults) [] w₀ tr w → Routine.Ends (respond env faults) (do
        (lockKeys rq).forM fun key => call .apply (.acquire key)
        let result ← attempt (applyLocked m rq policy protectedPaths approvalId ts)
        (lockKeys rq).reverse.forM fun key => call .apply (.release key)
        ofExcept result)
      (fun result _ _ w' => result.status = .applied ∧ rq.Apart env ts ∨ result.status ≠ .applied ∧ Intact env rq w₀ w')
      (fun _ _ _ => Intact env rq w₀) {} tr w := by
    intro policy protectedPaths tr w hbase hex
    have hrelease : ∀ {w w' : World}, w'.files = w.files → Intact env rq w₀ w → Intact env rq w₀ w' := by
      intro w w' hw h f hf
      unfold Unchanged
      rw [hw]
      exact h f hf
    refine ends_bind (ends_forM (fun _ l tr w => l = {} ∧ Base l tr ∧
      Execution (Lawful rq ts) (respond env faults) [] w₀ tr w) ?_ ⟨rfl, hbase, hex⟩ ?_)
    · rintro _ key _ _ _ tr w ⟨rfl, hbase, hex⟩
      have hspec : wp (Lawful rq ts) (call .apply (.acquire key) : M Locals Unit)
          (fun _ l tr => l = {} ∧ Base l tr) (fun _ => Base) {} tr :=
        wp_call trivial (fun _ => ⟨rfl, hbase.call rfl _⟩) fun _ => hbase.call rfl _
      refine ends_mono (ends_of_wp hspec hex) ?_ fun _ _ _ _ h => hquiet h.2 h.1
      exact fun _ _ _ _ h => ⟨h.2.1, h.2.2, h.1⟩
    rintro _ tr w ⟨rfl, hbase, hex⟩
    refine ends_bind (ends_attempt (ends_mono
      (applyLocked_ends huntangled htruth policy protectedPaths approvalId hbase hex) ?_ ?_))
    · intro result l tr w h
      refine ends_bind (release_ends fun _ _ hw => ends_ofExcept ?_ ?_)
      · intro _ heq
        cases heq
        exact h.imp_right fun h => ⟨h.1, hrelease hw h.2⟩
      · intro e heq
        cases heq
    · intro e l tr w h
      refine ends_bind (release_ends fun _ _ hw => ends_ofExcept ?_ fun _ _ => hrelease hw h)
      intro _ heq
      cases heq
  unfold apply
  by_cases htransport : transport = true
  · rw [if_pos htransport]
    refine ends_bind (ends_ofExcept ?_ fun _ _ => hquiet hstart .start)
    intro registration _
    exact hlocked registration.1 registration.2 [] w₀ hstart .start
  · rw [if_neg htransport]
    have hspec : wp (Lawful rq ts) (resolveTransportFor m .apply rq.context.projectId rq.context.targetId)
        (fun _ l tr => l = {} ∧ Base l tr) (fun _ => Base) {} [] :=
      resolveTransportFor_spec trivial (fun _ => ⟨rfl, hstart⟩) (fun _ => ⟨rfl, hstart.call rfl _⟩)
        (fun _ => hstart.call rfl _) fun _ _ => hstart
    refine ends_bind (ends_mono (ends_of_wp hspec .start) ?_ fun _ _ _ _ h => hquiet h.2 h.1)
    rintro _ _ tr w ⟨hex, rfl, hbase⟩
    refine ends_bind (ends_ofExcept ?_ fun _ _ => hquiet hbase hex)
    intro registration _
    exact hlocked registration.1 registration.2 tr w hbase hex

end Apply

/-! ### The results of all entries -/

lemma combined_of_apart (hapart : rq.Apart env ts) (hf : f ∈ rq.files) (w : World) :
    combined env rq w f = f.replacement (readable env rq w f) := by
  have hfiles : rq.files.Nodup := hapart.nodup_paths.of_map _
  have hsingle : (rq.files.filter fun g => rq.location env g.path = rq.location env f.path) = [f] := by
    refine perm_singleton.mp ((perm_ext_iff_of_nodup (hfiles.filter _) (nodup_singleton f)).mpr ?_)
    intro g
    simp only [mem_filter, decide_eq_true_eq, mem_singleton]
    constructor
    · rintro ⟨hg, hlocation⟩
      exact hapart.owner hg hf (mem_workingPaths.mpr (.inl rfl)) (mem_workingPaths.mpr (.inl hlocation))
    · rintro rfl
      exact ⟨hf, rfl⟩
  unfold combined
  rw [hsingle]
  simp

lemma Completed.combined (hapart : rq.Apart env ts) (hjoint : Joint env rq ts w₀ tr w)
    (h : Completed rq tr) : Combined env rq w₀ w := by
  intro f hf
  obtain ⟨canonical, hplaced⟩ := h.placed f hf
  have hreplaced := hjoint.replaced hapart hf (hplaced.renamed hjoint.genuine).2 (by
    rintro (⟨-, hdid⟩ | ⟨-, hdid⟩) <;> exact h.no_handler hdid)
  obtain ⟨content, mode, hcontent, hfile⟩ := hreplaced
  exact ⟨content, mode, by rw [combined_of_apart hapart hf, hcontent], hfile⟩

end IncidentLens.Changes
