import IncidentLens.Changes.Gate

/-!
# The approval of rollbacks

`apply` asks whether a requested path is protected by any service of the project, `rollback`
whether it is protected by the service of the change set, as both are registered by then. An
approval that is handed to `rollback` is consumed where there is an approval service.
-/
namespace IncidentLens.Changes
open Data Effects Routine Program FileChange List

/-- The change set has been made for the files of the request. -/
structure Records (rq : ChangeSetRequest) (cs : ChangeSet) : Prop where
  changesetId : cs.changesetId = rq.changesetId
  projectId : cs.projectId = rq.context.projectId
  targetId : cs.targetId = rq.context.targetId
  serviceName : cs.serviceName = rq.context.service
  paths : cs.files.map remotePath = rq.files.map FileRequest.path

/-- An approval of this rollback has been consumed. -/
def RollbackConsumed (cs : ChangeSet) (tr : History) : Prop :=
  ∃ approvalId, Did tr .rollback (.consume approvalId (rollbackIntent cs)) ()

/-- No file is replaced or removed before an approval of this rollback has been consumed. -/
def RollbackApproved (cs : ChangeSet) (tr : History) : Prop :=
  ∀ e tr', e :: tr' <:+ tr → e.call.op.target ≠ none → e.response.isOk = true → RollbackConsumed cs tr'

section
variable (m : Manager) (cs : ChangeSet) (approvalId : Option String)

/-- In every run of `rollback` on the change set. -/
def RollbackGated : Prop :=
  ∀ (faults : Faults) (w : World) (n : ℕ), w.journal.get cs.changesetId = some cs →
    RollbackApproved cs ((rollback m cs.changesetId approvalId ()).runFor (respond m.env faults) n [] w).2.1

def firstRestored : Option FileChange := cs.files.reverse.find? applied

/-- `rollback` goes on to the files without an approval. -/
structure Unguarded : Prop where
  status : cs.status = .applied ∨ cs.status = .validated
  notInterrupts : approvalId = none → interruptsService m cs = false
  notConsumed : approvalId ≠ none → m.approvals = false
  resolves : m.Resolves cs.projectId cs.targetId
  restores : ∃ f scope, firstRestored cs = some f ∧ backendForChange f = .ok scope

end

variable {m : Manager} {cs : ChangeSet} {approvalId : Option String} {tr : History}

/-! ### The gate -/

/-- Files are changed only after an approval of this rollback has been consumed. -/
def RollbackLawful (cs : ChangeSet) (tr : History) (c : Call) : Prop := c.op.target ≠ none → RollbackConsumed cs tr

lemma RollbackConsumed.mono {tr' : History} (h : RollbackConsumed cs tr) (hsub : tr ⊆ tr') : RollbackConsumed cs tr' := by
  obtain ⟨approvalId, hdid⟩ := h
  exact ⟨approvalId, hdid.mono hsub⟩

lemma RollbackConsumed.spec {σ α : Type} {k : M σ α} {l : σ} (h : RollbackConsumed cs tr) :
    wp (RollbackLawful cs) k (fun _ _ _ => True) (fun _ _ _ => True) l tr := by
  have hprogram : ∀ (p : Program Call (Raising Exc Call.Value) (Except Exc α × σ)) tr, RollbackConsumed cs tr →
      p.wp (RollbackLawful cs) (fun _ _ => True) tr := by
    intro p
    induction p with
    | ret _ => exact fun _ _ => trivial
    | call c k ih =>
      intro tr h
      exact ⟨fun _ => h, fun r => ih r _ (h.mono (subset_cons_self _ _))⟩
  refine wp_mono (hprogram (k l) tr h) ?_
  rintro ⟨a | e, l'⟩ tr' _
  · trivial
  · trivial

lemma untouched_spec {σ α : Type} {k : M σ α} {l : σ} (hk : Routine.Calls (fun c => c.op.target = none) k) :
    wp (RollbackLawful cs) k (fun _ _ _ => True) (fun _ _ _ => True) l tr := by
  refine wp_mono (hk.wp (I := fun _ => True) ?_ (fun _ _ _ _ _ => trivial) trivial) (fun _ _ _ _ => trivial)
    fun _ _ _ _ => trivial
  intro tr c _ hc htarget
  exact absurd hc htarget

/-- What `rollback` does with the change set it finds. -/
def rollbackFound (m : Manager) (cs : ChangeSet) (changesetId : String) (approvalId : Option String) : M Unit Unit :=
  if cs.status ≠ .applied ∧ cs.status ≠ .validated then
    raise (changeRollbackError ("cannot roll back changeset in status " ++ cs.status.value))
  else if interruptsService m cs ∧ approvalId = none then
    raise (changeRollbackError "an approval is required to roll back a service-interrupting changeset")
  else do
    resolveTransportFor m .rollback cs.projectId cs.targetId
    match approvalId with
    | some approvalId => if m.approvals then call .rollback (.consume approvalId (rollbackIntent cs)) else pure ()
    | none => pure ()
    cs.files.reverse.forM (rollbackFile changesetId)
    transition m .rollback changesetId .rolledBack

lemma rollback_eq (m : Manager) (changesetId : String) (approvalId : Option String) :
    rollback m changesetId approvalId = (do
      match ← call .rollback (.getChangeset changesetId) with
      | none => raise (changeRollbackError ("changeset '" ++ changesetId ++ "' not found"))
      | some cs => rollbackFound m cs changesetId approvalId) := rfl

lemma forM_rollbackFile_spec {files : List FileChange} {changesetId : String} {k : M Unit Unit} {l : Unit}
    (hnone : ∀ f scope, files.find? applied = some f → backendForChange f ≠ .ok scope)
    (hk : Routine.Calls (fun c => c.op.target = none) k) :
    wp (RollbackLawful cs) (do files.forM (rollbackFile changesetId); k) (fun _ _ _ => True)
      (fun _ _ _ => True) l tr := by
  induction files with
  | nil => exact untouched_spec hk
  | cons f files ih =>
    have hcons : (do (f :: files).forM (rollbackFile changesetId); k) =
        (rollbackFile changesetId f >>= fun _ => files.forM (rollbackFile changesetId)) >>= fun _ => k := rfl
    rw [hcons]
    by_cases happlied : f.applied = true
    · have hscope := fun scope => hnone f scope (find?_cons_of_pos happlied)
      have hfile : wp (RollbackLawful cs) (rollbackFile changesetId f) (fun _ _ _ => False)
          (fun _ _ _ => True) l tr := by
        rw [rollbackFile, if_pos happlied]
        refine wp_bind.mpr (wp_ofExcept ?_ fun _ _ => trivial)
        exact fun scope hok => absurd hok (hscope scope)
      exact wp_bind.mpr (wp_bind.mpr (wp_mono hfile (fun _ _ _ h => h.elim) fun _ _ _ => id))
    · have hfile : rollbackFile changesetId f = pure () := by rw [rollbackFile, if_neg happlied]
      rw [hfile]
      refine ih fun g scope hg => hnone g scope ?_
      rwa [find?_cons_of_neg happlied]

lemma rollbackFound_lawful (h : ¬ Unguarded m cs approvalId) (changesetId : String) :
    wp (RollbackLawful cs) (rollbackFound m cs changesetId approvalId) (fun _ _ _ => True)
      (fun _ _ _ => True) () tr := by
  have htransition : Routine.Calls (fun c => c.op.target = none)
      (transition m .rollback changesetId .rolledBack : M Unit Unit) := calls_transition rfl fun _ => rfl
  unfold rollbackFound
  by_cases hstatus : cs.status ≠ .applied ∧ cs.status ≠ .validated
  · rw [if_pos hstatus]
    trivial
  by_cases hinterrupts : interruptsService m cs = true ∧ approvalId = none
  · rw [if_neg hstatus, if_pos hinterrupts]
    trivial
  rw [if_neg hstatus, if_neg hinterrupts]
  -- Behind the transport only the consumption of an approval lets the files be changed.
  have hrest : m.Resolves cs.projectId cs.targetId → ∀ tr, wp (RollbackLawful cs) (do
      match approvalId with
      | some approvalId => if m.approvals then call .rollback (.consume approvalId (rollbackIntent cs)) else pure ()
      | none => pure ()
      cs.files.reverse.forM (rollbackFile changesetId)
      transition m .rollback changesetId .rolledBack : M Unit Unit) (fun _ _ _ => True) (fun _ _ _ => True) () tr := by
    intro hresolves tr
    have hbody : (approvalId ≠ none → m.approvals = false) → wp (RollbackLawful cs) (do
        cs.files.reverse.forM (rollbackFile changesetId)
        transition m .rollback changesetId .rolledBack : M Unit Unit) (fun _ _ _ => True) (fun _ _ _ => True) () tr := by
      intro hconsumed
      refine forM_rollbackFile_spec (fun f scope hf hscope => h ⟨?_, ?_, hconsumed, hresolves, f, scope, hf, hscope⟩)
        htransition
      · by_contra hnot
        exact hstatus (not_or.mp hnot)
      · intro hnone
        simpa [hnone] using hinterrupts
    cases approvalId with
    | none => exact hbody fun hne => absurd rfl hne
    | some approvalId =>
      by_cases happrovals : m.approvals = true
      · simp only [happrovals, if_true]
        refine wp_bind.mpr (wp_call (fun htarget => absurd rfl htarget) (fun _ => ?_) fun _ => trivial)
        exact RollbackConsumed.spec ⟨approvalId, mem_cons_self⟩
      · simp only [happrovals, if_false, Bool.false_eq_true]
        exact hbody fun _ => by simpa using happrovals
  exact wp_bind.mpr (resolveTransportFor_spec (fun htarget => absurd rfl htarget) (fun h => hrest h _)
    (fun h => hrest h _) (fun _ => trivial) fun _ _ => trivial)

variable {w : World} {faults : Faults}

lemma respond_getChangeset (hrow : w.journal.get cs.changesetId = some cs) (hfault : faults 0 = none) :
    respond m.env faults [] ⟨.rollback, .getChangeset cs.changesetId⟩ w = (.ok (some cs), w) := by
  simp [respond, Op.faultable, hfault, perform, hrow]

lemma runFor_rollback (hrow : w.journal.get cs.changesetId = some cs) (n : ℕ) (hfault : faults 0 = none) :
    (rollback m cs.changesetId approvalId ()).runFor (respond m.env faults) (n + 1) [] w =
      (rollbackFound m cs cs.changesetId approvalId ()).runFor (respond m.env faults) n
        [⟨⟨.rollback, .getChangeset cs.changesetId⟩, .ok (some cs)⟩] w := by
  rw [rollback_eq]
  change runFor _ _ (.call _ _) _ _ = _
  rw [runFor, respond_getChangeset hrow hfault]
  rfl

lemma runFor_rollback_error {error : Exc} (n : ℕ) (hfault : faults 0 = some error) :
    ((rollback m cs.changesetId approvalId ()).runFor (respond m.env faults) (n + 1) [] w).2.1 =
      [⟨⟨.rollback, .getChangeset cs.changesetId⟩, .error error⟩] := by
  have hanswer : respond m.env faults [] ⟨.rollback, .getChangeset cs.changesetId⟩ w = (.error error, w) := by
    simp [respond, Op.faultable, hfault]
  rw [rollback_eq]
  change (runFor _ _ (.call _ _) _ _).2.1 = _
  rw [runFor, hanswer]
  cases n <;> rfl

lemma gated_of_guarded (h : ¬ Unguarded m cs approvalId) : RollbackGated m cs approvalId := by
  intro faults w n hrow e tr' hsuffix htarget _
  have hget : RollbackLawful cs [] ⟨.rollback, .getChangeset cs.changesetId⟩ := fun htarget => absurd rfl htarget
  cases n with
  | zero => cases suffix_nil.mp hsuffix
  | succ n =>
    cases hfault : faults 0 with
    | none =>
      rw [runFor_rollback hrow n hfault] at hsuffix
      have hstart : Execution (RollbackLawful cs) (respond m.env faults) [] w
          (⟨⟨.rollback, .getChangeset cs.changesetId⟩, _⟩ :: []) _ := .call _ .start hget
      rw [respond_getChangeset hrow hfault] at hstart
      exact (runFor_execution n (rollbackFound_lawful h cs.changesetId) hstart).1.lawful_at hsuffix htarget
    | some error =>
      rw [runFor_rollback_error n hfault] at hsuffix
      rcases suffix_cons_iff.mp hsuffix with heq | hnil
      · obtain ⟨rfl, -⟩ := cons.inj heq
        exact absurd rfl htarget
      · cases suffix_nil.mp hnil

/-! ### Where the gate is open -/

lemma forM_rollbackFile_call {files : List FileChange} {f : FileChange} {scope : RemoteScope} (changesetId : String)
    (k : M Unit Unit) (hfirst : files.find? applied = some f) (hscope : backendForChange f = .ok scope) :
    ∃ op next, (do files.forM (rollbackFile changesetId); k : M Unit Unit) () = .call ⟨.rollback, op⟩ next ∧
      (op = .removeFile scope f.remotePath ∨
        op = .rename scope (f.remoteBackupPath.getD ⟨false, []⟩) f.remotePath) := by
  induction files with
  | nil => cases hfirst
  | cons g files ih =>
    by_cases happlied : g.applied = true
    · rw [find?_cons_of_pos happlied] at hfirst
      obtain rfl := Option.some.inj hfirst
      have hfile : (do (g :: files).forM (rollbackFile changesetId); k : M Unit Unit) =
          (rollbackFile changesetId g >>= fun _ => files.forM (rollbackFile changesetId)) >>= fun _ => k := rfl
      rw [hfile, rollbackFile, if_pos happlied, hscope]
      by_cases habsent : g.originallyAbsent = true
      · simp only [habsent, if_true]
        exact ⟨_, _, rfl, .inl rfl⟩
      · simp only [habsent, if_false, Bool.false_eq_true]
        exact ⟨_, _, rfl, .inr rfl⟩
    · rw [find?_cons_of_neg happlied] at hfirst
      obtain ⟨op, next, hcall, hop⟩ := ih hfirst
      refine ⟨op, next, ?_, hop⟩
      rw [← hcall]
      have hfile : rollbackFile changesetId g = pure () := by rw [rollbackFile, if_neg happlied]
      change ((rollbackFile changesetId g >>= fun _ => files.forM (rollbackFile changesetId)) >>= fun _ => k) () = _
      rw [hfile]
      rfl

/-- A world with the change set in its journal and every file. -/
def fullWorld (cs : ChangeSet) : World where
  files _ _ := some ⟨[], 0⟩
  journal := { changesets := (default : Table ChangeSet.changesetId).put cs }

lemma resolveTransportFor_cases {projectId targetId : String} (h : m.Resolves projectId targetId) :
    (resolveTransportFor m .rollback projectId targetId : M Unit Unit) = pure () ∨
      (resolveTransportFor m .rollback projectId targetId : M Unit Unit) = call .rollback (.connect projectId targetId) := by
  unfold Manager.Resolves at h
  unfold resolveTransportFor
  cases hprojects : m.projects with
  | none =>
    simp only [hprojects] at h
    simp [h]
  | some projects =>
    simp only [hprojects] at h
    by_cases hsessions : m.sessions = true
    · simp only [hsessions, if_true] at h
      obtain ⟨record, hrecord, htarget⟩ := h
      right
      simp only [hsessions, if_true, hrecord]
      change (if targetId ∈ record.targets then _ else _) = _
      rw [if_pos htarget]
    · simp only [hsessions, if_false, Bool.false_eq_true] at h
      simp [hsessions, h]

lemma rollbackFound_of_unguarded (h : Unguarded m cs approvalId) (changesetId : String) :
    rollbackFound m cs changesetId approvalId = (do
      resolveTransportFor m .rollback cs.projectId cs.targetId
      cs.files.reverse.forM (rollbackFile changesetId)
      transition m .rollback changesetId .rolledBack) := by
  have hstatus : ¬ (cs.status ≠ .applied ∧ cs.status ≠ .validated) := by
    rintro ⟨happlied, hvalidated⟩
    exact h.status.elim happlied hvalidated
  have hinterrupts : ¬ (interruptsService m cs = true ∧ approvalId = none) := by
    rintro ⟨hinterrupts, hnone⟩
    rw [h.notInterrupts hnone] at hinterrupts
    cases hinterrupts
  rw [rollbackFound, if_neg hstatus, if_neg hinterrupts]
  cases approvalId with
  | none => rfl
  | some approvalId =>
    have happrovals : m.approvals = false := h.notConsumed (by simp)
    simp [happrovals]

lemma respond_file {op : Op} {f : FileChange} {scope : RemoteScope} (hfiles : w.files = fun _ _ => some ⟨[], 0⟩)
    (hop : op = .removeFile scope f.remotePath ∨ op = .rename scope (f.remoteBackupPath.getD ⟨false, []⟩) f.remotePath) :
    op.target ≠ none ∧ (respond m.env (fun _ => none) tr ⟨.rollback, op⟩ w).1.isOk = true := by
  rcases hop with rfl | rfl
  · exact ⟨Option.some_ne_none _, by simp [respond, perform, hfiles, Except.isOk, Except.toBool]⟩
  · exact ⟨Option.some_ne_none _, by simp [respond, perform, hfiles, Except.isOk, Except.toBool]⟩

lemma not_gated_of_unguarded (h : Unguarded m cs approvalId) : ¬ RollbackGated m cs approvalId := by
  intro hgated
  have hrow : (fullWorld cs).journal.get cs.changesetId = some cs := Table.get_put_self _ _
  obtain ⟨f, scope, hfirst, hscope⟩ := h.restores
  obtain ⟨op, next, hcall, hop⟩ := forM_rollbackFile_call cs.changesetId
    (transition m .rollback cs.changesetId .rolledBack) hfirst hscope
  -- The call on the first file comes after calls none of which consumes an approval.
  have hopen : ∀ tr, (∀ e ∈ tr, e.call.op.consumes = false) →
      ∀ n, ((rollback m cs.changesetId approvalId ()).runFor (respond m.env fun _ => none) n [] (fullWorld cs)).2.1 =
        ⟨⟨.rollback, op⟩, (respond m.env (fun _ => none) tr ⟨.rollback, op⟩ (fullWorld cs)).1⟩ :: tr → False := by
    intro tr hconsumes n hrun
    have hfile : op.target ≠ none ∧ (respond m.env (fun _ => none) tr ⟨.rollback, op⟩ (fullWorld cs)).1.isOk = true :=
      respond_file rfl hop
    have happroved := hgated (fun _ => none) (fullWorld cs) n hrow
    rw [hrun] at happroved
    obtain ⟨approvalId', hdid⟩ := happroved _ tr (suffix_refl _) hfile.1 hfile.2
    have hnone := hconsumes _ hdid
    cases hnone
  rcases resolveTransportFor_cases h.resolves with hresolve | hresolve
  · refine hopen [⟨⟨.rollback, .getChangeset cs.changesetId⟩, .ok (some cs)⟩] (by simp [Op.consumes]) 2 ?_
    rw [runFor_rollback hrow 1 rfl, rollbackFound_of_unguarded h, hresolve]
    change (runFor _ _ ((do cs.files.reverse.forM _; _ : M Unit Unit) ()) _ _).2.1 = _
    rw [hcall]
    rfl
  · refine hopen [⟨⟨.rollback, .connect cs.projectId cs.targetId⟩, .ok ()⟩,
      ⟨⟨.rollback, .getChangeset cs.changesetId⟩, .ok (some cs)⟩] (by simp [Op.consumes]) 3 ?_
    rw [runFor_rollback hrow 2 rfl, rollbackFound_of_unguarded h, hresolve]
    change (runFor _ _ ((do cs.files.reverse.forM _; _ : M Unit Unit) ()) _ _).2.1 = _
    rw [hcall]
    rfl

/-- For a change set of a request whose application needs an approval, `rollback` is gated exactly
unless it goes on unguarded. -/
theorem rollback_gated_iff (m m' : Manager) (rq : ChangeSetRequest) (cs : ChangeSet) (approvalId : Option String) :
    (Records rq cs → gatedPaths m rq ≠ [] → RollbackGated m' cs approvalId) ↔
      (Records rq cs → gatedPaths m rq ≠ [] → ¬ Unguarded m' cs approvalId) := by
  constructor
  · exact fun h hrecords hgated hunguarded => not_gated_of_unguarded hunguarded (h hrecords hgated)
  · exact fun h hrecords hgated => gated_of_guarded (h hrecords hgated)

/-! ### A path that another service protects -/

/-- The service `db` protects what the service `web` may change. -/
def sharedManager : Manager where
  env := sampleEnv
  transport := true
  projects := some fun _ => .ok ⟨["web-1"],
    [{ composeService := "web", allowedHostPaths := [⟨true, ["srv", "app"]⟩] },
      { composeService := "db", protectedRemotePaths := [⟨true, ["srv", "app"]⟩] }]⟩

lemma not_rollbackApproved (hmem : (tr.any fun e => e.call.op.target.isSome && e.response.isOk) = true)
    (hconsumes : (tr.any fun e => e.call.op.consumes) = false) : ¬ RollbackApproved cs tr := by
  intro h
  obtain ⟨e, he, hfile⟩ := any_eq_true.mp hmem
  obtain ⟨es, tr', rfl⟩ := append_of_mem he
  obtain ⟨htarget, hok⟩ := Bool.and_eq_true_iff.mp hfile
  obtain ⟨approvalId, hdid⟩ := h e tr' (suffix_append _ _) (by simpa [Option.isSome_iff_ne_none] using htarget) hok
  have hall := any_eq_false.mp hconsumes _ (mem_append_right es (mem_cons_of_mem e hdid))
  exact hall rfl

/-- The change consumes an approval, and without one its file is restored. -/
theorem restored_unapproved :
    let run := (apply sharedManager sampleRequest (some "ap-1") true sampleTs {}).run
      (respond sampleEnv fun _ => none) [] sampleWorld
    let back := (rollback sharedManager sampleRequest.changesetId none ()).run
      (respond sampleEnv fun _ => none) [] run.2.2
    gatedPaths sharedManager sampleRequest ≠ [] ∧
      (run.2.1.any fun e => e.call.op.consumes && e.response.isOk) = true ∧
      ∃ cs, run.2.2.journal.get sampleRequest.changesetId = some cs ∧ Records sampleRequest cs ∧
        ¬ RollbackApproved cs back.2.1 := by
  intro run back
  have hrow : (run.2.2.journal.get sampleRequest.changesetId).map (fun cs =>
      (cs.changesetId, cs.projectId, cs.targetId, cs.serviceName, cs.files.map remotePath)) =
        some ("cs-1", "shop", "web-1", "web", [samplePath]) := by decide +kernel
  obtain ⟨cs, hcs, hfields⟩ := Option.map_eq_some_iff.mp hrow
  simp only [Prod.mk.injEq] at hfields
  obtain ⟨hid, hproject, htarget, hservice, hpaths⟩ := hfields
  refine ⟨by decide +kernel, by decide +kernel, cs, hcs, ⟨hid, hproject, htarget, hservice, hpaths⟩, ?_⟩
  exact not_rollbackApproved (by decide +kernel) (by decide +kernel)

end IncidentLens.Changes
