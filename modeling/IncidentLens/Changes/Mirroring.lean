import IncidentLens.Changes.Transport

/-!
# The container run mirrors the host run

The two runs of `apply` go side by side. Their local variables differ in the texts of canonical paths only,
and the container has at each point the files that the host has.
-/
namespace IncidentLens.Changes
open Data Effects Routine RemotePathPolicy FileChange List

section Journals

structure Journal.Told (j j' : Journal) : Prop where
  rows : ∀ id, (j'.get id).map ChangeSet.told = (j.get id).map ChangeSet.told
  ids : j'.fileChangeIds = j.fileChangeIds

variable {j j' : Journal} {cs cs' : ChangeSet}

lemma told_changesetId (h : cs'.told = cs.told) : cs'.changesetId = cs.changesetId := by
  have hkey : cs'.told.changesetId = cs.told.changesetId := congrArg ChangeSet.changesetId h
  exact hkey

lemma told_ids (h : cs'.told = cs.told) : cs'.files.map fileChangeId = cs.files.map fileChangeId := by
  have hfiles : cs'.files.map told = cs.files.map told := congrArg ChangeSet.files h
  have hids := congrArg (map fileChangeId) hfiles
  rw [map_map, map_map] at hids
  exact hids

lemma told_put (h : j.Told j') (hcs : cs'.told = cs.told) (hids : j'.fileChangeIds = j.fileChangeIds) :
    Journal.Told { j with changesets := j.changesets.put cs } { j' with changesets := j'.changesets.put cs' } := by
  have hkey := told_changesetId hcs
  refine ⟨fun id => ?_, hids⟩
  change ((j'.changesets.put cs').get id).map _ = ((j.changesets.put cs).get id).map _
  rw [Table.get_put, Table.get_put, hkey]
  split_ifs
  · simp only [Option.map_some, hcs]
  · exact h.rows id

/-- Both journals take a row or both refuse it. -/
def SameRecord (x y : Except Exc Journal) : Prop :=
  match x, y with
  | .ok j, .ok j' => j.Told j'
  | .error e, .error e' => e.isUncertainFailure = e'.isUncertainFailure
  | _, _ => False

lemma Journal.Told.get_cases (h : j.Told j') (id : String) : (j.get id = none ∧ j'.get id = none) ∨
    ∃ cs cs', j.get id = some cs ∧ j'.get id = some cs' ∧ cs'.told = cs.told := by
  have hrow := h.rows id
  cases hget : j.get id with
  | none =>
    rw [hget, Option.map_none, Option.map_eq_none_iff] at hrow
    exact .inl ⟨rfl, hrow⟩
  | some cs =>
    rw [hget, Option.map_some, Option.map_eq_some_iff] at hrow
    obtain ⟨cs', hget', htold⟩ := hrow
    exact .inr ⟨cs, cs', rfl, hget', htold⟩

lemma told_createChangeset (h : j.Told j') (hcs : cs'.told = cs.told) :
    SameRecord (j.createChangeset cs) (j'.createChangeset cs') := by
  have hkey := told_changesetId hcs
  unfold Journal.createChangeset
  rw [hkey, told_ids hcs, h.ids]
  rcases h.get_cases cs.changesetId with ⟨hget, hget'⟩ | ⟨stored, stored', hget, hget', -⟩
  · simp only [hget, hget']
    split_ifs
    · refine ⟨fun id => ?_, rfl⟩
      exact (told_put h hcs h.ids).rows id
    · exact rfl
  · simp only [hget, hget']
    exact rfl

lemma told_transition (h : j.Told j') (id : String) (target : ChangeSetStatus) :
    SameRecord (j.transition id target) (j'.transition id target) := by
  unfold Journal.transition
  rcases h.get_cases id with ⟨hget, hget'⟩ | ⟨cs, cs', hget, hget', htold⟩
  · simp only [hget, hget']
    exact rfl
  · have hstatus : cs'.told.status = cs.told.status := congrArg ChangeSet.status htold
    change cs'.status = cs.status at hstatus
    simp only [hget, hget', hstatus]
    split_ifs
    · exact rfl
    · refine told_put h ?_ h.ids
      exact congrArg (fun row : ChangeSet => { row with status := target }) htold
    · exact rfl

structure FileChangePatch.Told (p p' : FileChangePatch) : Prop where
  empty : p' = {} ↔ p = {}
  rest : { p' with remoteBackupPath := none, tempPath := none } = { p with remoteBackupPath := none, tempPath := none }

lemma FileChangePatch.Told.refl (p : FileChangePatch) : p.Told p := ⟨Iff.rfl, rfl⟩

variable {p p' : FileChangePatch}

lemma told_patch (hp : p.Told p') {f f' : FileChange} (hf : f'.told = f.told) :
    (f'.patch p').told = (f.patch p).told := by
  obtain ⟨localBackup, remoteBackup, temp, applied, validation, result⟩ := p
  obtain ⟨localBackup', remoteBackup', temp', applied', validation', result'⟩ := p'
  have hrest := hp.rest
  simp only [FileChangePatch.mk.injEq, true_and] at hrest
  obtain ⟨rfl, rfl, rfl, rfl⟩ := hrest
  simp only [told, mk.injEq, true_and] at hf
  obtain ⟨hid, hpath, hexpected, hreplacement, habsent, hlocal, happlied, hvalidation, hresult⟩ := hf
  simp only [patch, told, hid, hpath, hexpected, hreplacement, habsent, hlocal, happlied, hvalidation, hresult]

lemma told_patchFile (hp : p.Told p') (h : cs'.told = cs.told) (id : String) :
    (Journal.patchFile cs' id p').told = (Journal.patchFile cs id p).told := by
  have hfiles : ∀ fs fs' : List FileChange, fs'.map told = fs.map told →
      (fs'.map fun f => if f.fileChangeId = id then f.patch p' else f).map told =
        (fs.map fun f => if f.fileChangeId = id then f.patch p else f).map told := by
    intro fs
    induction fs with
    | nil =>
      intro fs' hfs
      rw [map_eq_nil_iff.mp hfs]
      rfl
    | cons f fs ih =>
      intro fs' hfs
      cases fs' with
      | nil => cases hfs
      | cons f' fs' =>
        obtain ⟨hf, hrest⟩ := cons.inj hfs
        have hid : f'.fileChangeId = f.fileChangeId := by
          have hsame : f'.told.fileChangeId = f.told.fileChangeId := congrArg fileChangeId hf
          exact hsame
        simp only [map_cons, hid]
        refine congrArg₂ cons ?_ (ih fs' hrest)
        split_ifs
        · exact told_patch hp hf
        · exact hf
  have hrow := congrArg (fun row : ChangeSet => { row with files := [] }) h
  have htold : cs'.files.map told = cs.files.map told := congrArg ChangeSet.files h
  have hall := hfiles cs.files cs'.files htold
  unfold Journal.patchFile ChangeSet.told
  exact congrArg₂ (fun (row : ChangeSet) files => { row with files := files }) hrow hall

lemma told_updateFileChange (h : j.Told j') (hp : p.Told p') (changesetId id : String) :
    SameRecord (j.updateFileChange changesetId id p) (j'.updateFileChange changesetId id p') := by
  unfold Journal.updateFileChange
  by_cases hempty : p = {}
  · rw [if_pos hempty, if_pos (hp.empty.mpr hempty)]
    exact rfl
  · rw [if_neg hempty, if_neg fun h => hempty (hp.empty.mp h)]
    rcases h.get_cases changesetId with ⟨hget, hget'⟩ | ⟨cs, cs', hget, hget', htold⟩
    · simp only [hget, hget']
      exact rfl
    · have hany : (cs'.files.any fun f => f.fileChangeId = id) = cs.files.any fun f => f.fileChangeId = id := by
        have hids := congrArg (any · (· = id)) (told_ids htold)
        simpa only [any_map, Function.comp_def] using hids
      simp only [hget, hget', hany]
      split_ifs
      · exact told_put h (told_patchFile hp htold id) h.ids
      · exact rfl

end Journals

/-- The local variables, the calls and the environment of a run. -/
abbrev Side := Routine.Config Call Call.Value Exc Locals World

/-- No call is made to raise. -/
abbrev faultless (env : Env) := respond env fun _ => none

section Sides
variable (m : Manager) (policy : ServiceRegistration) (rq : ChangeSetRequest) (ts container : String)

/-- A path of the request within the allowed roots. -/
def Within (path : Path) : Prop := ∃ f ∈ rq.files, f.path = path ∧
  contains policy (rq.location m.env path) (.container container)

/-- `p` on the host and `q` in the container are the place that belongs to a path. -/
structure Points (place : Path → Path) (path p q : Path) : Prop where
  onHost : p = place path
  inContainer : m.env.layout.loc (.container container) q = place path
  within : Within m policy rq container path

structure Alike (l l' : Locals) : Prop where
  appliedFiles : l'.appliedFiles = l.appliedFiles
  changesetCreated : l'.changesetCreated = l.changesetCreated
  writtenTemps : l'.writtenTemps = l.writtenTemps
  canonicalPaths : Dict.Related (Points m policy rq container (rq.location m.env)) l.canonicalPaths l'.canonicalPaths
  backends : Dict.Related (fun _ scope scope' => scope = .host ∧ scope' = .container container) l.backends l'.backends
  originalContents : l'.originalContents = l.originalContents
  originalModes : l'.originalModes = l.originalModes
  newContents : l'.newContents = l.newContents
  newFiles : l'.newFiles = l.newFiles
  backupPaths : Dict.Related (Points m policy rq container (rq.backupLocation m.env ts)) l.backupPaths l'.backupPaths
  tempPaths : Dict.Related (Points m policy rq container (rq.tempLocation m.env)) l.tempPaths l'.tempPaths
  validationResults : l'.validationResults = l.validationResults
  rollbackFailures : l'.rollbackFailures = l.rollbackFailures

structure Mirrored (w w' : World) : Prop where
  files : w'.files (.container container) = w.files .host
  journal : w.journal.Told w'.journal
  vault : w'.vault = w.vault

/-- A place that belongs to a path within the allowed roots. -/
def Inside (location : Path) : Prop := ∃ path, Within m policy rq container path ∧
  location ∈ [rq.location m.env path, rq.tempLocation m.env path, rq.backupLocation m.env ts path]

def Confined (tr : History) : Prop :=
  ∀ e ∈ tr, ∀ location ∈ e.call.op.accesses m.env, Inside m policy rq ts container location

structure Beside (s t : Side) : Prop where
  locals : Alike m policy rq ts container s.locals t.locals
  world : Mirrored container s.world t.world
  confined : Confined m policy rq ts container t.history

/-- The two sides, and what is known of the host. -/
def Abreast (P : Locals → World → Prop) (s t : Side) : Prop := Beside m policy rq ts container s t ∧ P s.locals s.world

def Failing (e e' : Exc) (s t : Side) : Prop :=
  e.isUncertainFailure = e'.isUncertainFailure ∧ Beside m policy rq ts container s t

/-- From sides that are abreast two routines go on side by side. -/
abbrev Together {α β : Type} (P : Locals → World → Prop) (x : M Locals α) (y : M Locals β) : Side → Side → Prop :=
  Routine.Paired (faultless m.env) x y (fun _ _ => Abreast m policy rq ts container P) (Failing m policy rq ts container)

/-- What only depends on the local variables and the files. -/
def Steady (P : Locals → World → Prop) : Prop := ∀ l w w', w'.files = w.files → P l w → P l w'

end Sides

section Calls
variable {m : Manager} {policy : ServiceRegistration} {rq : ChangeSetRequest} {ts container : String}
  {P : Locals → World → Prop} {s t : Side}

lemma respond_faultless (env : Env) (tr : History) (c : Call) (w : World) :
    faultless env tr c w = perform env c.op w := by
  unfold faultless respond
  split_ifs <;> rfl

lemma exec_call (env : Env) (origin : Origin) (o : Op) (s : Side) :
    exec (faultless env) (call origin o) s = ((perform env o s.world).1,
      ⟨s.locals, ⟨⟨origin, o⟩, (perform env o s.world).1⟩ :: s.history, (perform env o s.world).2⟩) := by
  have hexec : exec (faultless env) (call origin o) s = ((faultless env s.history ⟨origin, o⟩ s.world).1,
      ⟨s.locals, ⟨⟨origin, o⟩, (faultless env s.history ⟨origin, o⟩ s.world).1⟩ :: s.history,
        (faultless env s.history ⟨origin, o⟩ s.world).2⟩) := rfl
  rw [hexec, respond_faultless]

lemma paired_call {env : Env} {origin : Origin} {o o' : Op} {Q : o.Value → o'.Value → Side → Side → Prop}
    {X : Exc → Exc → Side → Side → Prop} (h : match perform env o s.world, perform env o' t.world with
      | (.ok a, w), (.ok b, w') => Q a b ⟨s.locals, ⟨⟨origin, o⟩, .ok a⟩ :: s.history, w⟩
          ⟨t.locals, ⟨⟨origin, o'⟩, .ok b⟩ :: t.history, w'⟩
      | (.error e, w), (.error e', w') => X e e' ⟨s.locals, ⟨⟨origin, o⟩, .error e⟩ :: s.history, w⟩
          ⟨t.locals, ⟨⟨origin, o'⟩, .error e'⟩ :: t.history, w'⟩
      | _, _ => False) :
    Routine.Paired (faultless env) (call origin o) (call origin o') Q X s t := by
  unfold Routine.Paired
  rw [exec_call, exec_call]
  generalize perform env o s.world = out at h
  generalize perform env o' t.world = out' at h
  obtain ⟨r, w⟩ := out
  obtain ⟨r', w'⟩ := out'
  cases r <;> cases r' <;> exact h

lemma paired_call_ok {env : Env} {origin : Origin} {o o' : Op} {Q : o.Value → o'.Value → Side → Side → Prop}
    {X : Exc → Exc → Side → Side → Prop} {a : o.Value} {b : o'.Value} {w w' : World}
    (ho : perform env o s.world = (.ok a, w)) (ho' : perform env o' t.world = (.ok b, w'))
    (h : Q a b ⟨s.locals, ⟨⟨origin, o⟩, .ok a⟩ :: s.history, w⟩ ⟨t.locals, ⟨⟨origin, o'⟩, .ok b⟩ :: t.history, w'⟩) :
    Routine.Paired (faultless env) (call origin o) (call origin o') Q X s t := by
  refine paired_call ?_
  rw [ho, ho']
  exact h

lemma Confined.cons {tr : History} (h : Confined m policy rq ts container tr)
    {e : Event Call (Raising Exc Call.Value)}
    (haccess : ∀ location ∈ e.call.op.accesses m.env, Inside m policy rq ts container location) :
    Confined m policy rq ts container (e :: tr) := by
  exact forall_mem_cons.mpr ⟨haccess, h⟩

variable {e e' : Event Call (Raising Exc Call.Value)}

lemma Beside.call (h : Beside m policy rq ts container s t) {w w' : World} (hw : Mirrored container w w')
    (haccess : ∀ location ∈ e'.call.op.accesses m.env, Inside m policy rq ts container location) :
    Beside m policy rq ts container ⟨s.locals, e :: s.history, w⟩ ⟨t.locals, e' :: t.history, w'⟩ :=
  ⟨h.locals, hw, h.confined.cons haccess⟩

lemma SameRecord.cases {x y : Except Exc Journal} (h : SameRecord x y) :
    (∃ j j', x = .ok j ∧ y = .ok j' ∧ j.Told j') ∨
    ∃ e e', x = .error e ∧ y = .error e' ∧ e.isUncertainFailure = e'.isUncertainFailure := by
  cases x with
  | ok j =>
    cases y with
    | ok j' => exact .inl ⟨j, j', rfl, rfl, h⟩
    | error e => exact h.elim
  | error e =>
    cases y with
    | ok j' => exact h.elim
    | error e' => exact .inr ⟨e, e', rfl, rfl, h⟩

lemma Abreast.record (hP : Steady P) (h : Abreast m policy rq ts container P s t) {j j' : Journal} (hj : j.Told j')
    (haccess : e'.call.op.accesses m.env = []) :
    Abreast m policy rq ts container P ⟨s.locals, e :: s.history, { s.world with journal := j }⟩
      ⟨t.locals, e' :: t.history, { t.world with journal := j' }⟩ := by
  have hworld : Mirrored container { s.world with journal := j } { t.world with journal := j' } :=
    ⟨h.1.world.files, hj, h.1.world.vault⟩
  refine ⟨h.1.call hworld ?_, hP _ s.world _ rfl h.2⟩
  rw [haccess]
  exact nofun

lemma Abreast.look (h : Abreast m policy rq ts container P s t) {e o : Event Call (Raising Exc Call.Value)}
    (haccess : ∀ location ∈ o.call.op.accesses m.env, Inside m policy rq ts container location) :
    Abreast m policy rq ts container P ⟨s.locals, e :: s.history, s.world⟩ ⟨t.locals, o :: t.history, t.world⟩ :=
  ⟨h.1.call h.1.world haccess, h.2⟩

lemma Beside.fail (h : Beside m policy rq ts container s t) {exc exc' : Exc}
    (hflag : exc.isUncertainFailure = exc'.isUncertainFailure) (haccess : e'.call.op.accesses m.env = []) :
    Failing m policy rq ts container exc exc' ⟨s.locals, e :: s.history, s.world⟩
      ⟨t.locals, e' :: t.history, t.world⟩ := by
  refine ⟨hflag, h.call h.world ?_⟩
  rw [haccess]
  exact nofun

variable {origin : Origin}

lemma paired_transitionRow (hP : Steady P) (h : Abreast m policy rq ts container P s t) (changesetId : String)
    (target : ChangeSetStatus) : Together m policy rq ts container P
      (call origin (.transition changesetId target)) (call origin (.transition changesetId target)) s t := by
  refine paired_call ?_
  rcases (told_transition h.1.world.journal changesetId target).cases with ⟨j, j', hx, hy, hj⟩ | ⟨e, e', hx, hy, hflag⟩
  · simp only [perform, hx, hy]
    exact h.record hP hj rfl
  · simp only [perform, hx, hy]
    exact h.1.fail hflag rfl

lemma paired_updateFileChange (hP : Steady P) (h : Abreast m policy rq ts container P s t) (changesetId fileChangeId : String)
    {p p' : FileChangePatch} (hp : p.Told p') : Together m policy rq ts container P
      (call origin (.updateFileChange changesetId fileChangeId p))
      (call origin (.updateFileChange changesetId fileChangeId p')) s t := by
  refine paired_call ?_
  rcases (told_updateFileChange h.1.world.journal hp changesetId fileChangeId).cases with
    ⟨j, j', hx, hy, hj⟩ | ⟨e, e', hx, hy, hflag⟩
  · simp only [perform, hx, hy]
    exact h.record hP hj rfl
  · simp only [perform, hx, hy]
    exact h.1.fail hflag rfl

lemma paired_emitChangesetEvent (h : Abreast m policy rq ts container P s t) (changesetId : String) (status : ChangeSetStatus)
    (created : Bool) : Together m policy rq ts container P (emitChangesetEvent m origin changesetId status created)
      (emitChangesetEvent m origin changesetId status created) s t := by
  unfold emitChangesetEvent
  by_cases hevents : m.events = true
  · simp only [if_pos hevents]
    exact paired_call (h.look nofun)
  · simp only [if_neg hevents]
    exact paired_pure h

lemma paired_transition (hP : Steady P) (h : Abreast m policy rq ts container P s t) (changesetId : String)
    (status : ChangeSetStatus) : Together m policy rq ts container P
      (transition m origin changesetId status) (transition m origin changesetId status) s t := by
  refine paired_bind (paired_mono (paired_transitionRow hP h changesetId status) ?_ fun _ _ _ _ => id)
  intro _ _ s' t' h'
  exact paired_emitChangesetEvent h' changesetId status false

end Calls

/-! ### The steps -/

section Steps
variable {m : Manager} {policy : ServiceRegistration} {rq : ChangeSetRequest} {ts container : String} {w : World}
  {s t : Side}

lemma loc_container (htwin : Twin m rq container w) (path : Path) :
    m.env.layout.loc (.container container) path = m.env.layout.loc .host path := by
  simp only [Layout.loc, htwin.directories]

lemma location_host (hhost : rq.context.scope = .host) (path : Path) :
    rq.location m.env path = m.env.layout.loc .host path := by
  rw [ChangeSetRequest.location, hhost]

variable {f : FileRequest} {env : Env}

lemma scope_host (hhost : rq.context.scope = .host) (hf : f ∈ rq.files) : f.scope = .host :=
  (ChangeSetRequest.scope_eq hf).trans hhost

lemma contains_container (hroots : policy.allowedContainerPaths = policy.allowedHostPaths) (path : Path) :
    RemotePathPolicy.contains policy path (.container container) = RemotePathPolicy.contains policy path .host := by
  simp only [RemotePathPolicy.contains, RemotePathPolicy.allowedRoots, hroots]

lemma authorize_container (hnamed : container ∈ policy.containerNames)
    (hroots : policy.allowedContainerPaths = policy.allowedHostPaths) (path : Path) :
    (authorize policy .host path = .ok () ∧ authorize policy (.container container) path = .ok ()) ∨
    ∃ e e', authorize policy .host path = .error e ∧ authorize policy (.container container) path = .error e' ∧
      e.isUncertainFailure = e'.isUncertainFailure := by
  simp only [authorize, allowedRoots, hnamed, hroots, if_true]
  by_cases habsolute : path.absolute = true
  · by_cases hdots : ".." ∈ path.parts
    · simp [habsolute, hdots]
    · by_cases hroot : policy.allowedHostPaths.any path.isRelativeTo = true
      · exact .inl (by simp only [habsolute, hdots, hroot, not_true, if_false, if_true, and_self])
      · simp [habsolute, hdots, hroot]
  · simp [habsolute]

lemma exec_lstatOrAbsent_some {metadata : FileMetadata} (s : Side)
    (h : perform env (.lstat f.scope f.path) s.world = (.ok metadata, s.world)) :
    exec (faultless env) (lstatOrAbsent f) s =
      (.ok (some metadata), ⟨s.locals, ⟨⟨.apply, .lstat f.scope f.path⟩, .ok metadata⟩ :: s.history, s.world⟩) := by
  unfold lstatOrAbsent
  rw [exec_bind, exec_attempt, exec_call, h]
  rfl

lemma exec_lstatOrAbsent_none {e : Exc} (s : Side) (hkind : e.kind = .remotePath)
    (h : perform env (.lstat f.scope f.path) s.world = (.error e, s.world)) :
    exec (faultless env) (lstatOrAbsent f) s =
      (.ok none, ⟨s.locals, ⟨⟨.apply, .lstat f.scope f.path⟩, .error e⟩ :: s.history, s.world⟩) := by
  unfold lstatOrAbsent
  rw [exec_bind, exec_attempt, exec_call, h]
  simp only [if_pos hkind]
  rfl

lemma exec_lstatOrAbsent_error {e : Exc} (s : Side) (hkind : e.kind ≠ .remotePath)
    (h : perform env (.lstat f.scope f.path) s.world = (.error e, s.world)) :
    exec (faultless env) (lstatOrAbsent f) s =
      (.error e, ⟨s.locals, ⟨⟨.apply, .lstat f.scope f.path⟩, .error e⟩ :: s.history, s.world⟩) := by
  unfold lstatOrAbsent
  rw [exec_bind, exec_attempt, exec_call, h]
  simp only [if_neg hkind]
  rfl

lemma exec_canonicalize (hscope : f.scope = .host) (metadata : FileMetadata)
    (hunlinked : m.env.layout.dir .host f.path = m.env.layout.loc .host f.path)
    (hwithin : contains policy (m.env.layout.loc .host f.path) .host = true) (s : Side) :
    exec (faultless m.env) (canonicalize policy f (some metadata)) s =
      (.ok (m.env.layout.loc .host f.path), ⟨s.locals,
        ⟨⟨.apply, .realpath f.path⟩, .ok (m.env.layout.loc .host f.path)⟩ :: s.history, s.world⟩) := by
  simp only [canonicalize, hscope]
  rw [exec_bind, exec_call]
  simp only [perform, hunlinked, hwithin, if_true]
  rfl

/-- The preflight has passed some files, and some replacement contents have been computed. -/
structure Passed (m : Manager) (rq : ChangeSetRequest) (policy : ServiceRegistration) (w : World)
    (done : List FileRequest) (contents : Dict Path Bytes) (l : Locals) (w' : World) : Prop where
  files : w'.files .host = w.files .host
  journal : w'.journal = w.journal
  accepted : ∀ f ∈ done, Accepted m rq policy w f
  original : ∀ f ∈ done, l.originalContents.get? f.path = some (readable m.env rq w f)
  contents : l.newContents = contents

lemma readable_of_path {f g : FileRequest} (h : f.path = g.path) : readable m.env rq w f = readable m.env rq w g := by
  rw [readable, readable, h]

lemma Passed.snoc {done : List FileRequest} {l l' : Locals} {w' : World}
    (h : Passed m rq policy w done [] l w') (hf : Accepted m rq policy w f)
    (hl : l'.originalContents = l.originalContents.set f.path (readable m.env rq w f))
    (hcontents : l'.newContents = l.newContents) :
    Passed m rq policy w (done ++ [f]) [] l' w' := by
  refine ⟨h.files, h.journal, fun g hg => ?_, fun g hg => ?_, hcontents.trans h.contents⟩
  · rcases mem_append.mp hg with hg | hg
    · exact h.accepted g hg
    · rw [mem_singleton.mp hg]
      exact hf
  · rw [hl]
    by_cases hpath : f.path = g.path
    · rw [hpath, Dict.get?_set_self, readable_of_path hpath]
    · rw [Dict.get?_set_of_ne _ _ hpath]
      rcases mem_append.mp hg with hg | hg
      · exact h.original g hg
      · exact absurd (by rw [mem_singleton.mp hg]) hpath

lemma perform_lstat (htwin : Twin m rq container w) (h : Mirrored container s.world t.world) (path : Path) :
    (m.env.layout.dir .host path ≠ m.env.layout.loc .host path ∧
      perform m.env (.lstat .host path) s.world = (.ok ⟨0o120777, true⟩, s.world) ∧
      perform m.env (.lstat (.container container) path) t.world = (.ok ⟨0o120777, true⟩, t.world)) ∨
    (m.env.layout.dir .host path = m.env.layout.loc .host path ∧
      ((∃ entry, s.world.files .host (m.env.layout.loc .host path) = some entry ∧
        perform m.env (.lstat .host path) s.world = (.ok ⟨entry.mode, false⟩, s.world) ∧
        perform m.env (.lstat (.container container) path) t.world = (.ok ⟨entry.mode, false⟩, t.world)) ∨
      (s.world.files .host (m.env.layout.loc .host path) = none ∧
        perform m.env (.lstat .host path) s.world = (.error (missing .host path), s.world) ∧
        perform m.env (.lstat (.container container) path) t.world =
          (.error (missing (.container container) path), t.world)))) := by
  simp only [perform, loc_container htwin, htwin.directories, h.files]
  by_cases hlink : m.env.layout.dir .host path = m.env.layout.loc .host path
  · simp only [hlink, ne_eq, not_true, if_false, false_and, true_and, false_or]
    cases hentry : s.world.files .host (m.env.layout.loc .host path) with
    | none => exact .inr ⟨rfl, rfl, rfl⟩
    | some entry => exact .inl ⟨entry, rfl, rfl, rfl⟩
  · exact .inl ⟨hlink, by simp [hlink]⟩

lemma accesses_inside (htwin : Twin m rq container w) (hhost : rq.context.scope = .host) {path : Path}
    (hin : Within m policy rq container path) : ∀ location ∈ Op.accesses m.env (.readBytes (.container container) path
      maxChangeFileBytes), Inside m policy rq ts container location := by
  intro location hmem
  rw [Op.accesses, mem_singleton, loc_container htwin, ← location_host hhost] at hmem
  exact ⟨path, hin, by simp [hmem]⟩

lemma paired_readOriginal {done : List FileRequest} {entry : Entry}
    (hhost : rq.context.scope = .host) (htwin : Twin m rq container w) (hscope : f.scope = .host)
    (hentry : s.world.files .host (m.env.layout.loc .host f.path) = some entry)
    (hreadable : readable m.env rq w f = entry.content.take maxChangeFileBytes)
    (haccepted : (∀ expected, f.expectedSha256 = some expected → m.env.sha256 (readable m.env rq w f) = expected) →
      Accepted m rq policy w f) (hin : Within m policy rq container f.path)
    (h : Abreast m policy rq ts container (Passed m rq policy w done []) s t) :
    Together m policy rq ts container (Passed m rq policy w (done ++ [f]) [])
      (readOriginal m f (m.env.layout.loc .host f.path) (some ⟨entry.mode, false⟩))
      (readOriginal m (f.inContainer container) f.path (some ⟨entry.mode, false⟩)) s t := by
  simp only [readOriginal]
  refine paired_bind (paired_call ?_)
  simp only [perform, hscope, FileRequest.inContainer, Layout.loc_loc, loc_container htwin, h.1.world.files, hentry]
  refine paired_bind (paired_modify ?_)
  have halike : Alike m policy rq ts container { s.locals with
        originalContents := s.locals.originalContents.set f.path (entry.content.take maxChangeFileBytes)
        originalModes := s.locals.originalModes.set f.path entry.mode }
      { t.locals with
        originalContents := t.locals.originalContents.set f.path (entry.content.take maxChangeFileBytes)
        originalModes := t.locals.originalModes.set f.path entry.mode } :=
    { h.1.locals with
      originalContents := by rw [h.1.locals.originalContents]
      originalModes := by rw [h.1.locals.originalModes] }
  have hconfined : Confined m policy rq ts container (⟨⟨.apply, .readBytes (.container container) f.path
      maxChangeFileBytes⟩, .ok (entry.content.take maxChangeFileBytes)⟩ :: t.history) :=
    h.1.confined.cons (accesses_inside htwin hhost hin)
  have hpassed : ∀ hf : Accepted m rq policy w f, Passed m rq policy w (done ++ [f]) [] { s.locals with
      originalContents := s.locals.originalContents.set f.path (entry.content.take maxChangeFileBytes)
      originalModes := s.locals.originalModes.set f.path entry.mode } s.world :=
    fun hf => h.2.snoc hf (by rw [hreadable]) rfl
  have hsha : FileRequest.expectedSha256 { f with scope := .container container } = f.expectedSha256 := rfl
  rw [hsha]
  cases hexpected : f.expectedSha256 with
  | none =>
    refine paired_pure ⟨⟨halike, h.1.world, hconfined⟩, hpassed (haccepted ?_)⟩
    rw [hexpected]
    rintro _ ⟨⟩
  | some expected =>
    refine paired_ofExcept_self ?_ fun e _ => ⟨rfl, halike, h.1.world, hconfined⟩
    intro _ hcheck
    refine ⟨⟨halike, h.1.world, hconfined⟩, hpassed (haccepted ?_)⟩
    rintro _ hsome
    rw [hexpected] at hsome
    cases hsome
    rw [hreadable]
    unfold checkSha at hcheck
    split_ifs at hcheck with hsame
    exact hsame

lemma paired_found {done rest : List FileRequest} {entry : Entry}
    (hhost : rq.context.scope = .host) (htwin : Twin m rq container w) (hnamed : container ∈ policy.containerNames)
    (hroots : policy.allowedContainerPaths = policy.allowedHostPaths) (hportable : Portable m rq ts policy w)
    (hfiles : rq.files = done ++ f :: rest) (hunlinked : m.env.layout.dir .host f.path = m.env.layout.loc .host f.path)
    (hentry : s.world.files .host (m.env.layout.loc .host f.path) = some entry)
    (h : Abreast m policy rq ts container (Passed m rq policy w done []) s t) :
    Together m policy rq ts container (Passed m rq policy w (done ++ [f]) [])
      (do
        ofExcept (checkPresence f (some ⟨entry.mode, false⟩))
        ofExcept (authorize policy f.scope f.path)
        let canonical ← canonicalize policy f (some ⟨entry.mode, false⟩)
        modify fun l : Locals => { l with canonicalPaths := l.canonicalPaths.set f.path canonical }
        readOriginal m f canonical (some ⟨entry.mode, false⟩))
      (do
        ofExcept (checkPresence (f.inContainer container) (some ⟨entry.mode, false⟩))
        ofExcept (authorize policy (.container container) f.path)
        let canonical ← canonicalize policy (f.inContainer container) (some ⟨entry.mode, false⟩)
        modify fun l : Locals => { l with canonicalPaths := l.canonicalPaths.set f.path canonical }
        readOriginal m (f.inContainer container) canonical (some ⟨entry.mode, false⟩)) s t := by
  have hf : f ∈ rq.files := by simp [hfiles]
  have hscope := scope_host hhost hf
  have hlocation := @location_host m rq hhost f.path
  refine paired_bind (paired_ofExcept_self ?_ fun e _ => ⟨rfl, h.1⟩)
  intro _ hpresence
  obtain ⟨hcreates, -⟩ := checkPresence_eq_ok hpresence
  rw [hscope]
  rcases authorize_container hnamed hroots f.path with ⟨hok, hok'⟩ | ⟨e, e', herror, herror', hflag⟩
  · rw [hok, hok']
    refine paired_bind (paired_ofExcept ?_)
    have hentryOf : entryOf m rq w f = some entry := by
      rw [entryOf, hhost, hlocation, ← h.2.files]
      exact hentry
    have hplain : Unlinked m rq f := by
      rw [Unlinked, hhost, hlocation]
      exact hunlinked
    have hpresent : (entryOf m rq w f).isNone = f.creates := by
      rw [hentryOf]
      exact hcreates
    have hauthorized : authorize policy rq.context.scope f.path = .ok () := by
      rw [hhost]
      exact hok
    have hwithin := hportable.within f ⟨done, rest, hfiles, h.2.accepted⟩ hplain hpresent hauthorized
    have hwithin' : contains policy (m.env.layout.loc .host f.path) .host = true := by
      rw [hlocation, hhost] at hwithin
      exact hwithin
    have hin : Within m policy rq container f.path := by
      refine ⟨f, hf, rfl, ?_⟩
      rw [contains_container hroots, hlocation]
      exact hwithin'
    have hpoints : Points m policy rq container (rq.location m.env) f.path (m.env.layout.loc .host f.path) f.path := by
      refine ⟨hlocation.symm, ?_, hin⟩
      rw [loc_container htwin, hlocation]
    have hreadable : readable m.env rq w f = entry.content.take maxChangeFileBytes := by
      have hfound : w.files rq.context.scope (rq.location m.env f.path) = some entry := hentryOf
      rw [readable, hfound]
    have hpure : exec (faultless m.env) (canonicalize policy (f.inContainer container)
        (some ⟨entry.mode, false⟩)) t = (.ok f.path, t) := rfl
    refine paired_left (exec_canonicalize hscope _ hunlinked hwithin' s) ?_
    refine paired_right hpure (paired_bind (paired_modify ?_))
    refine paired_readOriginal hhost htwin hscope hentry hreadable
      (fun hexpected => ⟨hplain, hpresent, hauthorized, hwithin, hexpected⟩) hin ⟨⟨?_, h.1.world, h.1.confined⟩, ?_⟩
    · exact { h.1.locals with canonicalPaths := h.1.locals.canonicalPaths.set hpoints }
    · exact ⟨h.2.files, h.2.journal, h.2.accepted, h.2.original, h.2.contents⟩
  · rw [herror, herror']
    exact paired_bind (paired_ofExcept ⟨hflag, h.1⟩)

lemma paired_preflight {done rest : List FileRequest}
    (hhost : rq.context.scope = .host) (htwin : Twin m rq container w) (hnamed : container ∈ policy.containerNames)
    (hroots : policy.allowedContainerPaths = policy.allowedHostPaths) (hportable : Portable m rq ts policy w)
    (hfiles : rq.files = done ++ f :: rest)
    (h : Abreast m policy rq ts container (Passed m rq policy w done []) s t) :
    Together m policy rq ts container (Passed m rq policy w (done ++ [f]) [])
      (preflight m policy f) (preflight m policy (f.inContainer container)) s t := by
  have hf : f ∈ rq.files := by simp [hfiles]
  have hscope := scope_host hhost hf
  have hlocation := @location_host m rq hhost f.path
  unfold preflight
  refine paired_bind (paired_modify ?_)
  have halike : Alike m policy rq ts container { s.locals with backends := s.locals.backends.set f.path f.scope }
      { t.locals with backends := t.locals.backends.set f.path (.container container) } :=
    { h.1.locals with backends := h.1.locals.backends.set ⟨hscope, rfl⟩ }
  have hbeside : Beside m policy rq ts container
      ⟨{ s.locals with backends := s.locals.backends.set f.path f.scope }, s.history, s.world⟩
      ⟨{ t.locals with backends := t.locals.backends.set f.path (.container container) }, t.history, t.world⟩ :=
    ⟨halike, h.1.world, h.1.confined⟩
  have hbefore : Abreast m policy rq ts container (Passed m rq policy w done [])
      ⟨{ s.locals with backends := s.locals.backends.set f.path f.scope }, s.history, s.world⟩
      ⟨{ t.locals with backends := t.locals.backends.set f.path (.container container) }, t.history, t.world⟩ :=
    ⟨hbeside, h.2.files, h.2.journal, h.2.accepted, h.2.original, h.2.contents⟩
  rcases perform_lstat htwin h.1.world f.path with ⟨-, hhostStat, hcontainerStat⟩ |
    ⟨hunlinked, ⟨entry, hentry, hhostStat, hcontainerStat⟩ | ⟨hnone, hhostStat, hcontainerStat⟩⟩
  · have hstat : perform m.env (.lstat f.scope f.path) s.world = (.ok ⟨0o120777, true⟩, s.world) := hscope ▸ hhostStat
    refine paired_left (exec_lstatOrAbsent_some _ hstat)
      (paired_right (exec_lstatOrAbsent_some _ hcontainerStat) ?_)
    have hseen := hbefore.look (e := ⟨⟨.apply, .lstat f.scope f.path⟩, .ok ⟨0o120777, true⟩⟩)
      (o := ⟨⟨.apply, .lstat (.container container) f.path⟩, .ok ⟨0o120777, true⟩⟩) nofun
    refine paired_bind (paired_ofExcept_self ?_ fun e _ => ⟨rfl, hseen.1⟩)
    intro _ hpresence
    cases (checkPresence_eq_ok hpresence).2 _ rfl
  · have hstat : perform m.env (.lstat f.scope f.path) s.world = (.ok ⟨entry.mode, false⟩, s.world) := hscope ▸ hhostStat
    refine paired_left (exec_lstatOrAbsent_some _ hstat)
      (paired_right (exec_lstatOrAbsent_some _ hcontainerStat) ?_)
    have hseen := hbefore.look (e := ⟨⟨.apply, .lstat f.scope f.path⟩, .ok ⟨entry.mode, false⟩⟩)
      (o := ⟨⟨.apply, .lstat (.container container) f.path⟩, .ok ⟨entry.mode, false⟩⟩) nofun
    exact paired_found hhost htwin hnamed hroots hportable hfiles hunlinked hentry hseen
  · have hstat : perform m.env (.lstat f.scope f.path) s.world = (.error (missing .host f.path), s.world) :=
      hscope ▸ hhostStat
    refine paired_left (exec_lstatOrAbsent_none _ rfl hstat) ?_
    have hkept : f.creates = false := by
      have hplain : Unlinked m rq f := by
        rw [Unlinked, hhost, hlocation]
        exact hunlinked
      have habsent : entryOf m rq w f = none := by
        rw [entryOf, hhost, hlocation, ← h.2.files]
        exact hnone
      cases hcreates : f.creates with
      | false => rfl
      | true =>
        have hpresent := hportable.present f ⟨done, rest, hfiles, h.2.accepted⟩ hplain hcreates
        rw [habsent] at hpresent
        cases hpresent
    have hrefused : checkPresence f none = .error (changeApplyError ("path does not exist: " ++ f.path.str)) := by
      rw [checkPresence, hkept]
      rfl
    rw [hrefused]
    refine paired_bind ?_
    unfold Routine.Paired
    have hkind : (missing (.container container) f.path).kind ≠ .remotePath := by simp [missing]
    rw [exec_lstatOrAbsent_error _ hkind hcontainerStat]
    have hseen : ∀ location ∈ Op.accesses m.env (.lstat (.container container) f.path),
        Inside m policy rq ts container location := nofun
    exact ⟨rfl, hbeside.locals, h.1.world, h.1.confined.cons hseen⟩

end Steps

end IncidentLens.Changes
