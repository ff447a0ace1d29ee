import IncidentLens.Changes.Recovery
import IncidentLens.Effects.Calls

/-!
# The calls of each step

Which part of the interface the steps of `apply`, its failure handler and `rollback` use,
whatever their local variables hold.
-/
namespace IncidentLens.Changes
open Data Effects Call

def Op.consumes : Op → Bool
  | consume _ _ => true
  | _ => false

/-- The calls outside the block the path locks protect. -/
def Op.outside : Op → Bool
  | connect _ _ | acquire _ | release _ => true
  | _ => false

/-- A call of `apply` that neither replaces a file nor consumes an approval. -/
def Call.harmless (c : Call) : Prop := c.origin = .apply ∧ c.op.target = none ∧ c.op.consumes = false

/-- A call of the steps before the first rename. -/
def Call.preparatory (c : Call) : Prop := c.harmless ∧ c.op.outside = false

def Call.placing (c : Call) : Prop := c.op.consumes = false ∧ c.op.outside = false

def Call.restoring (c : Call) : Prop := c.origin = .handler ∧ c.placing

variable {m : Manager} {rq : ChangeSetRequest}

section
open Routine
variable {σ : Type} {P : Call → Prop}

variable {origin : Origin}

lemma calls_call {o : Op} (h : P ⟨origin, o⟩) :
    Calls P (call origin o : M σ o.Value) := fun _ _ => wp_call h (fun _ => trivial) fun _ => trivial

lemma calls_emitChangesetEvent {changesetId : String} {status : ChangeSetStatus}
    {created : Bool} (h : ∀ type, P ⟨origin, .publish type changesetId status⟩) :
    Calls P (emitChangesetEvent m origin changesetId status created : M σ Unit) := fun _ _ =>
  emitChangesetEvent_spec h trivial (fun _ => trivial) fun _ _ => trivial

lemma calls_transition {changesetId : String} {status : ChangeSetStatus}
    (htransition : P ⟨origin, .transition changesetId status⟩)
    (hpublish : ∀ type, P ⟨origin, .publish type changesetId status⟩) :
    Calls P (transition m origin changesetId status : M σ Unit) :=
  calls_bind (calls_call htransition) fun _ => calls_emitChangesetEvent hpublish

lemma calls_resolveTransportFor {projectId targetId : String} (h : P ⟨origin, .connect projectId targetId⟩) :
    Calls P (resolveTransportFor m origin projectId targetId : M σ Unit) := fun _ _ =>
  resolveTransportFor_spec h (fun _ => trivial) (fun _ => trivial) (fun _ => trivial) fun _ _ => trivial

lemma resolved_wp {lawful : History → Call → Prop} {α : Type} {k : M Locals α}
    {Q : α → Locals → History → Prop} {X : Exc → Locals → History → Prop} {I : History → Prop}
    {projectId targetId : String} (transport : Bool) (hstart : I [])
    (hresolve : Routine.wp lawful (resolveTransportFor m .apply projectId targetId) (fun _ _ => I) X {} [])
    (hk : ∀ l tr, I tr → Routine.wp lawful k Q X l tr) :
    Routine.wp lawful (if transport then k else do
        resolveTransportFor m .apply projectId targetId
        k) Q X {} [] := by
  by_cases htransport : transport = true
  · rw [if_pos htransport]
    exact hk _ _ hstart
  · rw [if_neg htransport]
    exact Routine.wp_bind.mpr (Routine.wp_mono hresolve (fun _ => hk) fun _ _ _ => id)

lemma preflight_calls (policy : ServiceRegistration) (f : FileRequest) :
    Calls preparatory (preflight m policy f) := by
  have hlstat : Calls preparatory (lstatOrAbsent f) := by
    refine calls_bind (calls_attempt (calls_call ⟨⟨rfl, rfl, rfl⟩, rfl⟩)) ?_
    intro r
    cases r with
    | ok metadata => exact calls_pure _
    | error e => exact calls_ite (fun _ => calls_pure _) fun _ => calls_throw _
  have hcanonicalize : ∀ metadata, Calls preparatory (canonicalize policy f metadata) := by
    intro metadata
    unfold canonicalize
    cases f.scope with
    | host =>
      cases metadata with
      | none =>
        refine calls_bind (calls_call ⟨⟨rfl, rfl, rfl⟩, rfl⟩) fun parent => calls_bind (calls_pure _) fun _ => ?_
        exact calls_ite (fun _ => calls_pure _) fun _ => calls_throw _
      | some metadata =>
        refine calls_bind (calls_call ⟨⟨rfl, rfl, rfl⟩, rfl⟩) fun canonical => ?_
        exact calls_ite (fun _ => calls_pure _) fun _ => calls_throw _
    | container container => exact calls_pure _
  have hread : ∀ canonical metadata, Calls preparatory (readOriginal m f canonical metadata) := by
    intro canonical metadata
    unfold readOriginal
    cases metadata with
    | none => exact calls_modify _
    | some metadata =>
      refine calls_bind (calls_call ⟨⟨rfl, rfl, rfl⟩, rfl⟩) fun content => calls_bind (calls_modify _) fun _ => ?_
      cases f.expectedSha256 with
      | none => exact calls_pure _
      | some expected => exact calls_ofExcept _
  refine calls_bind (calls_modify _) fun _ => calls_bind hlstat fun metadata => ?_
  refine calls_bind (calls_ofExcept _) fun _ => calls_bind (calls_ofExcept _) fun _ => ?_
  refine calls_bind (hcanonicalize metadata) fun canonical => calls_bind (calls_modify _) fun _ => ?_
  exact hread canonical metadata

lemma createDraft_calls (approvalId : Option String) : Calls preparatory (createDraft m rq approvalId) := by
  refine calls_bind calls_get fun _ => calls_bind (calls_ofExcept _) fun _ => ?_
  refine calls_bind (calls_call ⟨⟨rfl, rfl, rfl⟩, rfl⟩) fun _ => calls_bind (calls_modify _) fun _ => ?_
  exact calls_emitChangesetEvent fun _ => ⟨⟨rfl, rfl, rfl⟩, rfl⟩

lemma backUpLocally_calls (f : FileRequest) : Calls preparatory (backUpLocally rq f) := by
  have hrecord : ∀ ref : BackupReference, Calls preparatory (call .apply
      (.updateFileChange rq.changesetId f.operationId { localBackupRef := some ref.name }) : M Locals Unit) :=
    fun ref => calls_call ⟨⟨rfl, rfl, rfl⟩, rfl⟩
  refine calls_bind calls_get fun l => calls_ite (fun _ => ?_) fun _ => ?_
  · exact calls_bind (calls_call ⟨⟨rfl, rfl, rfl⟩, rfl⟩) hrecord
  · refine calls_bind (calls_ofExcept _) fun original => calls_bind (calls_call ⟨⟨rfl, rfl, rfl⟩, rfl⟩) fun ref => ?_
    refine calls_bind (calls_call ⟨⟨rfl, rfl, rfl⟩, rfl⟩) fun loaded => calls_ite (fun _ => ?_) fun _ => ?_
    · exact calls_bind (calls_pure _) hrecord
    · exact calls_bind (calls_throw _) hrecord

lemma backUpRemotely_calls (ts : String) (f : FileRequest) : Calls preparatory (backUpRemotely rq ts f) := by
  refine calls_bind calls_get fun l => calls_ite (fun _ => calls_pure _) fun _ => ?_
  refine calls_bind (calls_ofExcept _) fun _ => calls_bind (calls_ofExcept _) fun _ => ?_
  refine calls_bind (calls_call ⟨⟨rfl, rfl, rfl⟩, rfl⟩) fun _ => calls_bind (calls_call ⟨⟨rfl, rfl, rfl⟩, rfl⟩) fun _ => ?_
  refine calls_ite (fun _ => ?_) fun _ => calls_throw _
  exact calls_bind (calls_modify _) fun _ => calls_call ⟨⟨rfl, rfl, rfl⟩, rfl⟩

lemma writeTemp_calls (f : FileRequest) : Calls preparatory (writeTemp rq f) := by
  refine calls_bind calls_get fun l => calls_bind (calls_ofExcept _) fun _ => ?_
  refine calls_bind (calls_modify _) fun _ => calls_bind (calls_ofExcept _) fun _ => ?_
  refine calls_bind (calls_ofExcept _) fun _ => calls_bind (calls_call ⟨⟨rfl, rfl, rfl⟩, rfl⟩) fun _ => ?_
  exact calls_bind (calls_modify _) fun _ => calls_call ⟨⟨rfl, rfl, rfl⟩, rfl⟩

lemma checkCompose_calls (f : FileRequest) : Calls preparatory (checkCompose f) := by
  refine calls_ite (fun _ => ?_) fun _ => calls_pure _
  refine calls_bind calls_get fun l => calls_bind (calls_ofExcept _) fun _ => ?_
  refine calls_ite (fun _ => ?_) fun _ => calls_pure _
  refine calls_bind (calls_call ⟨⟨rfl, rfl, rfl⟩, rfl⟩) fun _ => ?_
  exact calls_ite (fun _ => calls_pure _) fun _ => calls_throw _

lemma recheckOriginal_calls (path : Path) : Calls preparatory (recheckOriginal m rq path) := by
  refine calls_bind calls_get fun l => calls_bind (calls_ofExcept _) fun f => ?_
  cases f.expectedSha256 with
  | none => exact calls_pure _
  | some expected =>
    exact calls_bind (calls_ofExcept _) fun _ => calls_bind (calls_ofExcept _) fun _ => calls_ofExcept _

lemma handleFailure_calls (e : Exc) : Calls restoring (handleFailure m rq e) := by
  have hrestore : ∀ path, Calls restoring (restoreFile rq path) := by
    intro path
    refine calls_bind calls_get fun l => calls_bind (calls_ofExcept _) fun f => ?_
    refine calls_bind (calls_ofExcept _) fun _ => calls_bind (calls_ofExcept _) fun _ => ?_
    refine calls_bind (calls_attempt (calls_ite (fun _ => ?_) fun _ => ?_)) fun r => ?_
    · exact calls_bind (calls_call ⟨rfl, rfl, rfl⟩) fun _ => calls_call ⟨rfl, rfl, rfl⟩
    · refine calls_bind (calls_ofExcept _) fun _ => calls_bind (calls_call ⟨rfl, rfl, rfl⟩) fun _ => ?_
      exact calls_call ⟨rfl, rfl, rfl⟩
    · cases r with
      | ok _ => exact calls_pure _
      | error _ => exact calls_modify _
  have hremove : ∀ item, Calls restoring (removeTemp item) := by
    intro item
    refine calls_bind calls_get fun l => calls_ite (fun _ => calls_pure _) fun _ => ?_
    refine calls_bind (calls_attempt ?_) fun _ => calls_pure _
    exact calls_bind (calls_ofExcept _) fun _ => calls_call ⟨rfl, rfl, rfl⟩
  refine calls_bind calls_get fun l => calls_bind (calls_forM fun path _ => hrestore path) fun _ => ?_
  refine calls_bind (calls_forM fun item _ => hremove item) fun _ => calls_bind calls_get fun l => ?_
  refine calls_ite (fun _ => calls_ite (fun _ => ?_) fun _ => ?_) fun _ => ?_
  · refine calls_bind (calls_transition ⟨rfl, rfl, rfl⟩ fun _ => ⟨rfl, rfl, rfl⟩) fun _ => ?_
    exact calls_bind (calls_emitChangesetEvent fun _ => ⟨rfl, rfl, rfl⟩) fun _ => calls_pure _
  · exact calls_bind (calls_transition ⟨rfl, rfl, rfl⟩ fun _ => ⟨rfl, rfl, rfl⟩) fun _ => calls_pure _
  · exact calls_bind (calls_pure _) fun _ => calls_pure _

lemma renameIntoPlace_calls (path : Path) : Calls placing (renameIntoPlace m rq path) := by
  refine calls_bind calls_get fun l => calls_bind (calls_ofExcept _) fun f => ?_
  refine calls_bind (calls_ofExcept _) fun _ => calls_bind (calls_ofExcept _) fun _ => ?_
  refine calls_bind (calls_ofExcept _) fun _ => calls_bind (calls_call ⟨rfl, rfl⟩) fun _ => ?_
  refine calls_bind (calls_modify _) fun _ => calls_bind (calls_ofExcept _) fun _ => ?_
  refine calls_bind (calls_call ⟨rfl, rfl⟩) fun _ => calls_ite (fun _ => ?_) fun _ => calls_pure _
  exact calls_transition ⟨rfl, rfl⟩ fun _ => ⟨rfl, rfl⟩

lemma consumeApproval_calls (entries : List Path) (approvalId : Option String) :
    Calls (fun c => c.op.outside = false) (consumeApproval m rq entries approvalId) := by
  refine calls_ite (fun _ => calls_pure _) fun _ => ?_
  cases approvalId with
  | none => exact calls_throw _
  | some approvalId => exact calls_ite (fun _ => calls_call rfl) fun _ => calls_throw _

lemma computeReplacement_calls (f : FileRequest) : Calls preparatory (computeReplacement f) :=
  calls_bind calls_get fun _ => calls_bind (calls_ofExcept _) fun _ =>
    calls_bind (calls_ofExcept _) fun _ => calls_modify _

lemma validate_calls (f : FileRequest) : Calls preparatory (validate m f) :=
  calls_bind calls_get fun _ => calls_bind (calls_ofExcept _) fun _ =>
    calls_bind (calls_ofExcept _) fun _ => calls_modify _

lemma transition_calls (status : ChangeSetStatus) :
    Calls preparatory (transition m .apply rq.changesetId status : M Locals Unit) :=
  calls_transition ⟨⟨rfl, rfl, rfl⟩, rfl⟩ fun _ => ⟨⟨rfl, rfl, rfl⟩, rfl⟩

lemma applyLocked_calls (policy : ServiceRegistration) (entries : List Path) (approvalId : Option String)
    (ts : String) : Calls (fun c => c.op.outside = false) (applyLocked m rq policy entries approvalId ts) := by
  have hprepare : ∀ {α : Type} {k : M Locals α}, Calls preparatory k →
      Calls (fun c => c.op.outside = false) k := fun h => h.mono fun _ hc => hc.2
  have hsteps : Calls (fun c => c.op.outside = false) (applySteps m rq policy entries approvalId ts) := by
    refine calls_bind (calls_forM fun f _ => hprepare (preflight_calls policy f)) fun _ => ?_
    refine calls_bind (calls_forM fun f _ => hprepare (computeReplacement_calls f)) fun _ => ?_
    refine calls_bind (calls_forM fun f _ => hprepare (validate_calls f)) fun _ => ?_
    refine calls_bind (hprepare (createDraft_calls approvalId)) fun _ => ?_
    refine calls_bind (hprepare (transition_calls _)) fun _ => ?_
    refine calls_bind (calls_forM fun f _ => hprepare (backUpLocally_calls f)) fun _ => ?_
    refine calls_bind (hprepare (transition_calls _)) fun _ => ?_
    refine calls_bind (calls_forM fun f _ => hprepare (backUpRemotely_calls ts f)) fun _ => ?_
    refine calls_bind (hprepare (transition_calls _)) fun _ => ?_
    refine calls_bind (calls_forM fun f _ => hprepare (writeTemp_calls f)) fun _ => ?_
    refine calls_bind (calls_forM fun f _ => hprepare (checkCompose_calls f)) fun _ => ?_
    refine calls_bind (consumeApproval_calls entries approvalId) fun _ => calls_bind calls_get fun l => ?_
    refine calls_bind (calls_forM fun path _ => hprepare (recheckOriginal_calls path)) fun _ => ?_
    refine calls_bind (calls_forM fun path _ => (renameIntoPlace_calls path).mono fun _ hc => hc.2) fun _ => ?_
    refine calls_bind (calls_emitChangesetEvent fun _ => rfl) fun _ => ?_
    exact calls_bind calls_get fun _ => calls_pure _
  refine calls_bind (calls_attempt hsteps) fun r => ?_
  cases r with
  | ok result => exact calls_pure _
  | error e => exact (handleFailure_calls e).mono fun _ hc => hc.2.2

lemma rollbackFile_calls (changesetId : String) (f : FileChange) :
    Calls (fun c => c.op.outside = false) (rollbackFile changesetId f) := by
  refine calls_ite (fun _ => ?_) fun _ => calls_pure _
  refine calls_bind (calls_ofExcept _) fun scope => calls_bind (calls_attempt ?_) fun r => ?_
  · exact calls_ite (fun _ => calls_bind (calls_call rfl) fun _ => calls_call rfl)
      fun _ => calls_bind (calls_call rfl) fun _ => calls_call rfl
  · cases r with
    | ok _ => exact calls_pure _
    | error e => exact calls_throw _

def Op.locks : Op → Bool
  | acquire _ | release _ => true
  | _ => false

lemma rollback_calls (changesetId : String) (approvalId : Option String) :
    Calls (fun c => c.op.locks = false) (rollback m changesetId approvalId) := by
  have hbody : ∀ cs : ChangeSet, Calls (fun c => c.op.locks = false) (do
      cs.files.reverse.forM (rollbackFile changesetId)
      transition m .rollback changesetId .rolledBack) := by
    intro cs
    refine calls_bind (calls_forM fun f _ => (rollbackFile_calls changesetId f).mono ?_) fun _ =>
      calls_transition rfl fun _ => rfl
    rintro ⟨origin, o⟩ ho
    cases o <;> first | rfl | cases ho
  refine calls_bind (calls_call rfl) fun r => ?_
  cases r with
  | none => exact calls_throw _
  | some cs =>
    refine calls_ite (fun _ => calls_throw _) fun _ => calls_ite (fun _ => calls_throw _) fun _ => ?_
    refine calls_bind (calls_resolveTransportFor rfl) fun _ => ?_
    cases approvalId with
    | none => exact hbody cs
    | some approvalId =>
      exact calls_ite (fun _ => calls_bind (calls_call rfl) fun _ => hbody cs) fun _ => hbody cs

end
end IncidentLens.Changes
