import IncidentLens.Changes.Atomicity
import IncidentLens.Changes.Steps
import Mathlib.Data.List.Dedup

/-!
# The approval of protected paths

`apply` consumes an approval before it replaces the first file if a requested path is
protected. The gate looks at the requested paths; a file is protected by where it is.
-/
namespace IncidentLens.Changes
open Data Effects Routine List

section
variable (m : Manager) (rq : ChangeSetRequest)

/-- The protected paths of every service of the project. -/
def protectedEntries : List Path :=
  match m.projects with
  | some projects => match projects rq.context.projectId with
    | .ok record => record.services.flatMap ServiceRegistration.protectedRemotePaths
    | .error _ => []
  | none => m.protectedPaths

def gatedPaths : List Path :=
  (rq.files.map FileRequest.path).filter fun path => isProtectedPath path (protectedEntries m rq)

/-- The text of a requested path the gate is about. -/
def Gated (text : String) : Prop := text ∈ (gatedPaths m rq).map Path.str

/-- The intent of a change to some protected paths. -/
def changeIntent (paths : List Path) : List (String × Json) :=
  protectedPathsIntent m.env.sha256 rq.changesetId rq.context.targetId rq.context.service paths

def Unmutated (tr : History) : Prop := ∀ e ∈ tr, e.call.op.target = none

/-- An approval of these paths was consumed before any file was replaced. -/
def Consumed (tr : History) (paths : List Path) : Prop :=
  ∃ tr', tr' <:+ tr ∧ Unmutated tr' ∧ ∃ approvalId, Did tr' .apply (.consume approvalId (changeIntent m rq paths)) ()

def Changed (tr : History) (location : Path) : Prop :=
  ∃ source target, Did tr .apply (.rename rq.context.scope source target) () ∧
    m.env.layout.loc rq.context.scope target = location

/-- The call replaces the file at the location. -/
def Op.replaces (location : Path) : Op → Bool
  | rename scope _ target =>
    scope = rq.context.scope ∧ m.env.layout.loc rq.context.scope target = location
  | _ => false

lemma changed_iff {tr : History} {location : Path} : Changed m rq tr location ↔
    (tr.any fun e => e.call.origin = .apply ∧ e.call.op.replaces m rq location = true ∧
      e.response.toBool = true) = true := by
  rw [any_eq_true]
  constructor
  · rintro ⟨source, target, hdid, hlocation⟩
    exact ⟨_, hdid, by simp [Op.replaces, hlocation, Except.toBool]⟩
  · rintro ⟨⟨⟨origin, o⟩, r⟩, he, hreplaces⟩
    obtain ⟨rfl, hreplaces, hok⟩ := of_decide_eq_true hreplaces
    cases o with
    | rename scope source target =>
      obtain ⟨rfl, hlocation⟩ := of_decide_eq_true hreplaces
      cases r with
      | ok v => exact ⟨source, target, he, hlocation⟩
      | error e => cases hok
    | _ => cases hreplaces

/-- The location is equal to or below a protected entry. -/
def Protected (location : Path) : Prop := ∃ entry ∈ protectedEntries m rq, location.isRelativeTo entry = true

/-- The approval that was consumed names a requested path of the file. -/
def Approved (tr : History) (location : Path) : Prop :=
  ∃ paths, Consumed m rq tr paths ∧ ∃ f ∈ rq.files, rq.location m.env f.path = location ∧ f.path.str ∈ paths.map Path.str

def Permitted (tr : History) : Prop := gatedPaths m rq = [] ∨ Consumed m rq tr (gatedPaths m rq)

/-- What the gate allows after the calls of a history. -/
def GateLawful (tr : History) (c : Call) : Prop :=
  match c.origin, c.op with
  | .apply, .consume _ intent => Unmutated tr ∧ intent = changeIntent m rq (gatedPaths m rq)
  | _, .consume _ _ => False
  | .apply, .rename _ _ _ => Permitted m rq tr
  | _, _ => True

end

variable {m : Manager} {rq : ChangeSetRequest} {tr tr' : History}

/-! ### The gate -/

section Spec
open Routine
variable {l : Locals} {entries : List Path}

lemma isProtectedPath_congr {path : Path} {entries' : List Path} (h : ∀ entry, entry ∈ entries ↔ entry ∈ entries') :
    isProtectedPath path entries = isProtectedPath path entries' := by
  have hany : entries.any path.isRelativeTo = entries'.any path.isRelativeTo := by
    rw [Bool.eq_iff_iff, any_eq_true, any_eq_true]
    simp only [h]
  simp only [isProtectedPath, hany]

lemma resolvePolicy_entries {registration : ServiceRegistration} (h : resolvePolicy m rq = .ok (registration, entries)) :
    ∀ entry, entry ∈ entries ↔ entry ∈ protectedEntries m rq := by
  intro entry
  unfold resolvePolicy at h
  unfold protectedEntries
  cases hprojects : m.projects with
  | none =>
    simp only [hprojects] at h
    cases hpolicy : m.policy with
    | none => simp [hpolicy] at h
    | some policy =>
      simp only [hpolicy, Except.ok.injEq, Prod.mk.injEq] at h
      rw [h.2]
  | some projects =>
    simp only [hprojects] at h
    cases hrecord : projects rq.context.projectId with
    | error e => simp [hrecord] at h
    | ok record =>
      simp only [hrecord] at h
      cases hfind : record.services.find? fun svc => svc.composeService = rq.context.service with
      | none => simp [hfind] at h
      | some svc =>
        simp only [hfind, Except.ok.injEq, Prod.mk.injEq] at h
        simp only [← h.2, mem_dedup, hrecord]

lemma Unmutated.cons {c : Call} {r : Raising Exc Call.Value c} (hc : c.op.target = none)
    (h : Unmutated tr) : Unmutated (⟨c, r⟩ :: tr) := by
  exact forall_mem_cons.mpr ⟨hc, h⟩

lemma Consumed.mono {paths : List Path} (h : Consumed m rq tr paths) (hsub : tr <:+ tr') :
    Consumed m rq tr' paths := by
  obtain ⟨tr₀, htr₀, hrest⟩ := h
  exact ⟨tr₀, htr₀.trans hsub, hrest⟩

variable {α : Type} {k : M Locals α} {approvalId : Option String}

lemma harmless_spec (hk : Calls Call.harmless k) (h : Unmutated tr) :
    wp (GateLawful m rq) k (fun _ _ => Unmutated) (fun _ _ => Unmutated) l tr := by
  refine hk.wp ?_ (fun tr c r h hc => h.cons hc.2.1) h
  rintro tr ⟨origin, o⟩ h ⟨rfl, htarget, hconsumes⟩
  cases o with
  | consume approvalId intent => cases hconsumes
  | rename scope source target => cases htarget
  | _ => exact trivial

lemma Permitted.spec (hk : Calls (fun c => c.op.consumes = false) k) (h : Permitted m rq tr) :
    wp (GateLawful m rq) k (fun _ _ => Permitted m rq) (fun _ _ => Permitted m rq) l tr := by
  refine hk.wp ?_ (fun tr c r h _ => h.imp_right fun h => h.mono (suffix_cons _ _)) h
  rintro tr ⟨origin, o⟩ h hconsumes
  cases o with
  | consume approvalId intent => cases hconsumes
  | rename scope source target =>
    cases origin with
    | apply => exact h
    | _ => exact trivial
  | _ => cases origin <;> exact trivial

lemma preparatory_spec (hk : Calls Call.preparatory k) (h : Unmutated tr) :
    wp (GateLawful m rq) k (fun _ _ => Unmutated) (fun _ _ => Unmutated) l tr :=
  harmless_spec (hk.mono fun _ hc => hc.1) h

lemma consumeApproval_gate (hentries : ∀ entry, entry ∈ entries ↔ entry ∈ protectedEntries m rq) (h : Unmutated tr) :
    wp (GateLawful m rq) (consumeApproval m rq entries approvalId) (fun _ _ => Permitted m rq)
      (fun _ _ _ => True) l tr := by
  have hpaths : (rq.files.map FileRequest.path).filter (fun path => isProtectedPath path entries) =
      gatedPaths m rq := by
    unfold gatedPaths
    refine filter_congr fun path _ => ?_
    rw [isProtectedPath_congr hentries]
  unfold consumeApproval
  rw [hpaths]
  by_cases hnil : gatedPaths m rq = []
  · rw [if_pos hnil]
    exact .inl hnil
  rw [if_neg hnil]
  cases approvalId with
  | none => exact trivial
  | some approvalId =>
    by_cases happrovals : m.approvals = true
    · simp only [happrovals, if_true]
      refine wp_call ⟨h, rfl⟩ ?_ fun _ => trivial
      intro _
      exact .inr ⟨_, suffix_refl _, h.cons rfl, approvalId, mem_cons_self⟩
    · simp only [happrovals, Bool.false_eq_true, if_false]
      exact trivial

lemma applySteps_gate (policy : ServiceRegistration) {ts : String}
    (hentries : ∀ entry, entry ∈ entries ↔ entry ∈ protectedEntries m rq) (h : Unmutated tr) :
    wp (GateLawful m rq) (applySteps m rq policy entries approvalId ts) (fun _ _ _ => True) (fun _ _ _ => True) l tr := by
  have hexit : ∀ (_ : Exc) (_ : Locals) tr, Unmutated tr → True := fun _ _ _ _ => trivial
  unfold applySteps
  simp only [wp_bind, wp_get, wp_pure]
  refine wp_mono (preparatory_spec (calls_forM fun f _ => preflight_calls policy f) h) ?_ hexit
  intro _ l tr h
  refine wp_mono (preparatory_spec (calls_forM fun f _ => computeReplacement_calls f) h) ?_ hexit
  intro _ l tr h
  refine wp_mono (preparatory_spec (calls_forM fun f _ => validate_calls f) h) ?_ hexit
  intro _ l tr h
  refine wp_mono (preparatory_spec (createDraft_calls approvalId) h) ?_ hexit
  intro _ l tr h
  refine wp_mono (preparatory_spec (transition_calls _) h) ?_ hexit
  intro _ l tr h
  refine wp_mono (preparatory_spec (calls_forM fun f _ => backUpLocally_calls f) h) ?_ hexit
  intro _ l tr h
  refine wp_mono (preparatory_spec (transition_calls _) h) ?_ hexit
  intro _ l tr h
  refine wp_mono (preparatory_spec (calls_forM fun f _ => backUpRemotely_calls ts f) h) ?_ hexit
  intro _ l tr h
  refine wp_mono (preparatory_spec (transition_calls _) h) ?_ hexit
  intro _ l tr h
  refine wp_mono (preparatory_spec (calls_forM fun f _ => writeTemp_calls f) h) ?_ hexit
  intro _ l tr h
  refine wp_mono (preparatory_spec (calls_forM fun f _ => checkCompose_calls f) h) ?_ hexit
  intro _ l tr h
  refine wp_mono (consumeApproval_gate hentries h) ?_ fun _ _ _ => id
  intro _ l tr h
  refine wp_mono (h.spec (calls_forM fun path _ => (recheckOriginal_calls path).mono
    fun _ hc => hc.1.2.2)) ?_ fun _ _ _ _ => trivial
  intro _ l tr h
  refine wp_mono (h.spec (calls_forM fun path _ => (renameIntoPlace_calls path).mono
    fun _ hc => hc.1)) ?_ fun _ _ _ _ => trivial
  intro _ l tr h
  exact emitChangesetEvent_spec (fun _ => trivial) trivial (fun _ => trivial) fun _ _ => trivial

lemma applyLocked_gate (policy : ServiceRegistration) {ts : String}
    (hentries : ∀ entry, entry ∈ entries ↔ entry ∈ protectedEntries m rq) (h : Unmutated tr) :
    wp (GateLawful m rq) (applyLocked m rq policy entries approvalId ts) (fun _ _ _ => True)
      (fun _ _ _ => True) l tr := by
  unfold applyLocked
  simp only [wp_bind, wp_attempt]
  refine wp_mono (applySteps_gate policy hentries h) (fun _ _ _ => id) ?_
  intro e l tr _
  refine (handleFailure_calls e).wp (I := fun _ => True) ?_ (fun _ _ _ _ _ => trivial) trivial
  rintro tr ⟨origin, o⟩ - ⟨rfl, hconsumes, -⟩
  cases o with
  | consume approvalId intent => cases hconsumes
  | _ => exact trivial

lemma apply_gate (approvalId : Option String) (transport : Bool) (ts : String) :
    wp (GateLawful m rq) (apply m rq approvalId transport ts) (fun _ _ _ => True) (fun _ _ _ => True) {} [] := by
  have hrelease : ∀ {l : Locals} {tr : History} {result : Except Exc ChangeResult},
      wp (GateLawful m rq) ((lockKeys rq).reverse.forM fun key => call .apply (.release key))
        (fun _ l tr => wp (GateLawful m rq) (ofExcept result) (fun _ _ _ => True)
          (fun _ _ _ => True) l tr) (fun _ _ _ => True) l tr := by
    intro l tr result
    refine wp_forM (fun _ _ _ => True) ?_ trivial ?_
    · exact fun _ key _ _ l tr _ => wp_call trivial (fun _ => trivial) fun _ => trivial
    · exact fun l tr _ => wp_ofExcept (fun _ _ => trivial) fun _ _ => trivial
  have hstart : Unmutated [] := by
    rintro e ⟨⟩
  unfold apply
  refine resolved_wp transport hstart (wp_mono (harmless_spec
    (calls_resolveTransportFor ⟨rfl, rfl, rfl⟩) hstart) (fun _ _ _ => id) fun _ _ _ _ => trivial) ?_
  intro l tr h
  refine wp_bind.mpr (wp_ofExcept ?_ fun _ _ => trivial)
  rintro ⟨policy, entries⟩ hpolicy
  simp only [wp_bind, wp_attempt]
  refine wp_mono (harmless_spec (calls_forM fun key _ => calls_call ⟨rfl, rfl, rfl⟩) h) ?_
    fun _ _ _ _ => trivial
  intro _ l tr h
  exact wp_mono (applyLocked_gate policy (resolvePolicy_entries hpolicy) h)
    (fun _ _ _ _ => hrelease) fun _ _ _ _ => hrelease

end Spec

/-! ### What the gate is worth -/

lemma Approved.gated {location : Path} {env : Env} {faults : Faults} {w₀ w : World}
    (hex : Execution (GateLawful m rq) (respond env faults) [] w₀ tr w) (h : Approved m rq tr location) :
    ∃ f ∈ rq.files, rq.location m.env f.path = location ∧ Gated m rq f.path.str := by
  obtain ⟨paths, ⟨tr₀, hsuffix, -, approvalId, hdid⟩, f, hf, hlocation, hmem⟩ := h
  refine ⟨f, hf, hlocation, ?_⟩
  obtain ⟨tr₁, -, -, hintent⟩ := hex.lawful_of_mem (hsuffix.subset hdid)
  have htexts : (sortedPaths paths).map Path.str = (sortedPaths (gatedPaths m rq)).map Path.str := by
    have hinj : Function.Injective Json.string := fun _ _ => Json.string.inj
    refine map_injective_iff.mpr hinj ?_
    simp only [changeIntent, protectedPathsIntent, cons.injEq, Prod.mk.injEq, Json.array.injEq,
      and_true, true_and] at hintent
    exact hintent.1
  obtain ⟨path, hpath, htext⟩ := mem_map.mp hmem
  have hsorted : path.str ∈ (sortedPaths (gatedPaths m rq)).map Path.str :=
    htexts ▸ mem_map_of_mem (mem_sortedPaths.mpr hpath)
  obtain ⟨path', hpath', htext'⟩ := mem_map.mp hsorted
  exact mem_map.mpr ⟨path', mem_sortedPaths.mp hpath', htext'.trans htext⟩

lemma Changed.approved {f : FileRequest} {env : Env} {faults : Faults} {w₀ w : World}
    (hex : Execution (GateLawful m rq) (respond env faults) [] w₀ tr w)
    (h : Changed m rq tr (rq.location m.env f.path)) (hf : f ∈ rq.files) (hgated : Gated m rq f.path.str) :
    Approved m rq tr (rq.location m.env f.path) := by
  obtain ⟨source, target, hdid, -⟩ := h
  obtain ⟨es, tr', rfl⟩ := append_of_mem hdid
  have hsuffix := suffix_append es (⟨⟨.apply, .rename rq.context.scope source target⟩, .ok ()⟩ :: tr')
  rcases hex.lawful_at hsuffix with hnil | hconsumed
  · simp [Gated, hnil] at hgated
  · exact ⟨_, hconsumed.mono ((suffix_cons _ _).trans hsuffix), f, hf, rfl, hgated⟩

/-- At every point of a run of `apply`, the replaced files in protected places are approved
exactly if each has been requested by a protected path. -/
theorem apply_gated_iff (m : Manager) (rq : ChangeSetRequest) (approvalId : Option String)
    (transport : Bool) (ts : String) (faults : Faults) (w₀ : World) (n : ℕ) :
    let tr := ((apply m rq approvalId transport ts {}).runFor (respond m.env faults) n [] w₀).2.1
    (∀ location, Changed m rq tr location → Protected m rq location → Approved m rq tr location) ↔
      ∀ location, Changed m rq tr location → Protected m rq location →
        ∃ f ∈ rq.files, rq.location m.env f.path = location ∧ Gated m rq f.path.str := by
  intro tr
  have hex : Execution (GateLawful m rq) (respond m.env faults) [] w₀ tr _ :=
    (Program.runFor_execution n (apply_gate approvalId transport ts) .start).1
  constructor
  · exact fun h location hchanged hprotected => (h location hchanged hprotected).gated hex
  · intro h location hchanged hprotected
    obtain ⟨f, hf, rfl, hgated⟩ := h location hchanged hprotected
    exact hchanged.approved hex hf hgated

/-! ### A linked directory -/

/-- `/srv/app` is a link to `/srv/prod`. -/
def linkedDir (path : Path) : Path :=
  if ["srv", "app"] <+: path.parts then { path with parts := "srv" :: "prod" :: path.parts.drop 2 }
  else path

lemma linkedDir_linkedDir (path : Path) : linkedDir (linkedDir path) = linkedDir path := by
  unfold linkedDir
  by_cases h : ["srv", "app"] <+: path.parts
  · simp [h]
  · simp [h]

def linkedManager : Manager where
  env := { sampleEnv with layout := ⟨fun _ => linkedDir, fun _ => linkedDir_linkedDir⟩ }
  policy := some { composeService := "web", allowedHostPaths := [⟨true, ["srv", "app"]⟩, ⟨true, ["srv", "prod"]⟩] }
  transport := true
  protectedPaths := [⟨true, ["srv", "prod"]⟩]

def linkedPath : Path := ⟨true, ["srv", "prod", "a.conf"]⟩

def linkedWorld : World where
  files scope path := if scope = .host ∧ path = linkedPath then some ⟨[97], 0o644⟩ else none

/-- The file is requested by way of the link and replaced without an approval. -/
theorem linked_not_approved :
    let tr := ((apply linkedManager sampleRequest none true sampleTs {}).runFor
      (respond linkedManager.env fun _ => none) 26 [] linkedWorld).2.1
    Changed linkedManager sampleRequest tr linkedPath ∧ Protected linkedManager sampleRequest linkedPath ∧
      ¬ Approved linkedManager sampleRequest tr linkedPath := by
  intro tr
  refine ⟨(changed_iff _ _).mpr (by decide +kernel), ⟨_, mem_cons_self, by decide +kernel⟩, ?_⟩
  rintro ⟨_, ⟨tr', hsuffix, -, approvalId, hdid⟩, -⟩
  have hnone : ∀ e ∈ tr, e.call.op.consumes = false := by decide +kernel
  cases hnone _ (hsuffix.subset hdid)

end IncidentLens.Changes
