import IncidentLens.Proposals.Decision
import Mathlib

/-!
# What an approved proposal widens

A container that is added is the approved one. The paths that are added are those the target
names when the proposal is decided, which need not be the approved ones.
-/
namespace IncidentLens.Proposals
open Data Approvals Investigations

def member (intent : Intent) (key : String) : Option Json := (intent.find? fun m => m.1 = key).map Prod.snd

/-- What an intent tells of a service: its name with a path or a container. -/
def showsPath (intent : Intent) (service : String) (path : RemotePath) : Prop :=
  member intent "service" = some (.string service) ∧
    ∃ items, member intent "paths" = some (.array items) ∧ .string path.str ∈ items

def showsContainer (intent : Intent) (service container : String) : Prop :=
  member intent "service" = some (.string service) ∧ member intent "container" = some (.string container)

/-- The approval is for this very intent, and whatever the derived registration adds to the
scope of a service is shown there. -/
structure ExactlyApproved (sha256 : Bytes → String) (stores : Stores) (proposal : RegistryUpdateProposal)
    (approvalId : String) (project derived : ProjectRegistration) : Prop where
  approved : ∃ row, stores.approvals.get approvalId = some row ∧ row.status = .approved ∧
    intentSha256 sha256 (registryUpdateIntent proposal) = row.intentSha256
  paths : ∀ service path, derived.allows service path → ¬ project.allows service path →
    showsPath (registryUpdateIntent proposal) service path
  containers : ∀ service container, derived.contains service container → ¬ project.contains service container →
    showsContainer (registryUpdateIntent proposal) service container

/-- The proposal is pending and its own approval is good at the time. -/
def Authorized (sha256 : Bytes → String) (stores : Stores) (proposal : RegistryUpdateProposal)
    (approvalId : String) (now : DateTime) : Prop :=
  (∃ current, stores.proposals.get proposal.proposalId = some current ∧ current.status = .pending) ∧
    ∃ row expiresAt, stores.approvals.get approvalId = some row ∧ row.status = .approved ∧
      DateTime.fromIsoformat row.expiresAt = some expiresAt ∧ ¬ expiresAt < now ∧
      intentSha256 sha256 (registryUpdateIntent proposal) = row.intentSha256

/-- An extension by paths that is ready to be written: the project still has the service and
the target, and every path has a plain canonical form there. -/
structure Extends (project : ProjectRegistration) (remote : Remote) (proposal : RegistryUpdateProposal) : Prop where
  kind : proposal.kind = .pathExtension
  target : findTarget project proposal.proposedTargetId ≠ none
  service : ∃ svc ∈ project.services, svc.composeService = proposal.proposedServiceName
  session : remote.session = .done ()
  resolved : ∀ i raw, proposal.proposedPaths[i]? = some raw → ∃ path, remote.realpath i raw = .done path ∧ path.isPlain

/-- What a proposed path leads to is a proposed path itself, or the service may read it already. -/
def Unmoved (project : ProjectRegistration) (remote : Remote) (proposal : RegistryUpdateProposal) : Prop :=
  ∀ (i : ℕ) (raw path : RemotePath), proposal.proposedPaths[i]? = some raw → remote.realpath i raw = .done path →
    project.allows proposal.proposedServiceName path ∨ ∃ shown ∈ proposal.proposedPaths, shown.str = path.str

variable {sha256 : Bytes → String} {stores : Stores} {proposal : RegistryUpdateProposal} {approvalId : String}
  {now : DateTime} {remote : Remote} {project derived : ProjectRegistration}

lemma authorize_ok_iff : authorize sha256 stores proposal approvalId now = .ok () ↔
    Authorized sha256 stores proposal approvalId now := by
  unfold authorize Authorized
  split
  next hnone => simp [hnone]
  next current hcurrent =>
    by_cases hpending : current.status = .pending
    · simp only [hpending, ne_eq, not_true_eq_false, if_false, hcurrent, Option.some.injEq, exists_eq_left', true_and]
      split
      next hnone => simp [hnone]
      next row hrow =>
        split
        next hnone => simp [hrow, hnone]
        next expiresAt hexpires =>
          simp only [hrow, Option.some.injEq, hexpires, exists_eq_left', exists_and_left]
          split_ifs with hrejected happroved hexpired hmatch <;> simp_all
    · simp [hpending, hcurrent]

lemma showsPath_iff (hkind : proposal.kind = .pathExtension) (service : String) (path : RemotePath) :
    showsPath (registryUpdateIntent proposal) service path ↔
      service = proposal.proposedServiceName ∧ ∃ shown ∈ proposal.proposedPaths, shown.str = path.str := by
  simp [showsPath, member, registryUpdateIntent, hkind, eq_comm]

lemma showsContainer_self (hkind : proposal.kind = .containerRegistration) :
    showsContainer (registryUpdateIntent proposal) proposal.proposedServiceName proposal.proposedContainerName := by
  simp [showsContainer, member, registryUpdateIntent, hkind]

lemma forall_getElem?_cons {α : Type*} {a : α} {l : List α} {P : ℕ → α → Prop} :
    (∀ j x, (a :: l)[j]? = some x → P j x) ↔ P 0 a ∧ ∀ j x, l[j]? = some x → P (j + 1) x := by
  constructor
  · intro h
    exact ⟨h 0 a rfl, fun j x hx => h (j + 1) x hx⟩
  · rintro ⟨hzero, hsucc⟩ j x hx
    cases j with
    | zero =>
      obtain rfl := Option.some.inj hx
      exact hzero
    | succ j => exact hsucc j x hx

variable {i : ℕ}

lemma resolvePaths_done {paths canonical result : List RemotePath}
    (h : resolvePaths remote i paths canonical = .done result) : (∀ path ∈ canonical, path ∈ result) ∧
      (∀ j raw, paths[j]? = some raw → ∃ path ∈ result, remote.realpath (i + j) raw = .done path) ∧
      ∀ path ∈ result, path ∈ canonical ∨
        path.isPlain ∧ ∃ j raw, paths[j]? = some raw ∧ remote.realpath (i + j) raw = .done path := by
  induction paths generalizing i canonical with
  | nil =>
    cases h
    simp
  | cons raw rest ih =>
    simp only [resolvePaths] at h
    cases hreal : remote.realpath i raw with
    | refused => simp [hreal] at h
    | failed => simp [hreal] at h
    | done resolved =>
      by_cases hplain : resolved.isPlain
      · simp only [hreal, hplain, Bool.not_true, Bool.false_eq_true, if_false] at h
        obtain ⟨hkept, hrest, horigin⟩ := ih h
        have hmem : resolved ∈ result := by
          refine hkept resolved ?_
          split_ifs with hold
          · exact hold
          · simp
        refine ⟨fun path hpath => hkept path ?_, ?_, fun path hpath => ?_⟩
        · split_ifs
          · exact hpath
          · exact List.mem_append_left _ hpath
        · refine forall_getElem?_cons.mpr ⟨⟨resolved, hmem, hreal⟩, fun j x hx => ?_⟩
          obtain ⟨path, hpath, hx⟩ := hrest j x hx
          exact ⟨path, hpath, by rwa [show i + (j + 1) = i + 1 + j by omega]⟩
        · rcases horigin path hpath with hin | ⟨hpathPlain, j, x, hx, hpathReal⟩
          · split_ifs at hin with hold
            · exact .inl hin
            · rcases List.mem_append.mp hin with hin | hin
              · exact .inl hin
              · obtain rfl := List.mem_singleton.mp hin
                exact .inr ⟨hplain, 0, raw, rfl, hreal⟩
          · exact .inr ⟨hpathPlain, j + 1, x, hx, by rwa [show i + (j + 1) = i + 1 + j by omega]⟩
      · simp [hreal, hplain] at h

lemma resolvePaths_eq_done {paths : List RemotePath} (canonical : List RemotePath)
    (h : ∀ j raw, paths[j]? = some raw → ∃ path, remote.realpath (i + j) raw = .done path ∧ path.isPlain) :
    ∃ result, resolvePaths remote i paths canonical = .done result := by
  induction paths generalizing i canonical with
  | nil => exact ⟨canonical, rfl⟩
  | cons raw rest ih =>
    obtain ⟨⟨resolved, hreal, hplain⟩, hrest⟩ := forall_getElem?_cons.mp h
    simp only [resolvePaths, Nat.add_zero] at hreal ⊢
    simp only [hreal, hplain, Bool.not_true, Bool.false_eq_true, if_false]
    refine ih _ fun j x hx => ?_
    obtain ⟨path, hpath, hplain⟩ := hrest j x hx
    exact ⟨path, by rwa [show i + 1 + j = i + (j + 1) by omega], hplain⟩

lemma decideProposal_ok_iff {project : ProjectRecord} :
    decideProposal sha256 stores remote proposal approvalId now = .ok (project, derived) ↔
      Authorized sha256 stores proposal approvalId now ∧
        stores.projects.get proposal.proposedProjectId = some project ∧
        widen project.toProjectRegistration remote proposal = .ok derived := by
  rw [← authorize_ok_iff, decideProposal]
  cases authorize sha256 stores proposal approvalId now with
  | error refusal => simp [bind, Except.bind]
  | ok =>
    cases stores.projects.get proposal.proposedProjectId with
    | none => simp [bind, Except.bind, throw, throwThe, MonadExceptOf.throw]
    | some read =>
      cases hwiden : widen read.toProjectRegistration remote proposal with
      | error refusal =>
        simp only [bind, Except.bind, hwiden, reduceCtorEq, Option.some.injEq, true_and, false_iff]
        rintro ⟨rfl, h⟩
        rw [hwiden] at h
        cases h
      | ok registration =>
        simp only [bind, Except.bind, hwiden, pure, Except.pure, Except.ok.injEq, Prod.mk.injEq,
          Option.some.injEq, true_and]
        constructor
        · rintro ⟨rfl, rfl⟩
          exact ⟨rfl, hwiden⟩
        · rintro ⟨rfl, h⟩
          rw [hwiden] at h
          exact ⟨rfl, Except.ok.inj h⟩

lemma mapError_eq_ok {ε ε' α : Type} {x : Except ε α} {f : ε → ε'} {a : α} : x.mapError f = .ok a ↔ x = .ok a := by
  cases x with
  | error e => simp [Except.mapError]
  | ok b => simp [Except.mapError]

lemma widen_paths_iff (hkind : proposal.kind = .pathExtension) :
    widen project remote proposal = .ok derived ↔ findTarget project proposal.proposedTargetId ≠ none ∧
      remote.session = .done () ∧ ∃ paths, resolvePaths remote 0 proposal.proposedPaths [] = .done paths ∧
        deriveRegistrationWithUpdates project proposal.proposedServiceName none paths = .ok derived := by
  simp only [widen, hkind, canonicalizeHostPaths]
  cases findTarget project proposal.proposedTargetId with
  | none => simp
  | some target =>
    cases remote.session with
    | refused => simp
    | failed => simp
    | done =>
      cases resolvePaths remote 0 proposal.proposedPaths [] with
      | refused => simp
      | failed => simp
      | done paths => simp [mapError_eq_ok]

lemma widen_container (hkind : proposal.kind = .containerRegistration)
    (h : widen project remote proposal = .ok derived) :
    deriveRegistrationWithUpdates project proposal.proposedServiceName (some proposal.proposedContainerName) [] =
      .ok derived := by
  simp only [widen, hkind] at h
  split at h
  all_goals first | cases h | exact mapError_eq_ok.mp h

lemma exactly_container (hkind : proposal.kind = .containerRegistration)
    (hauth : Authorized sha256 stores proposal approvalId now) (h : widen project remote proposal = .ok derived) :
    ExactlyApproved sha256 stores proposal approvalId project derived where
  approved := by
    obtain ⟨-, row, expiresAt, hrow, happroved, -, -, hsha⟩ := hauth
    exact ⟨row, hrow, happroved, hsha⟩
  paths service path hafter hbefore := by
    rcases (allows_derive (widen_container hkind h) service path).mp hafter with hold | ⟨-, hnew⟩
    · exact absurd hold hbefore
    · cases hnew
  containers service container hafter hbefore := by
    rcases contains_derive (widen_container hkind h) hafter with hold | ⟨rfl, hnew⟩
    · exact absurd hold hbefore
    · obtain rfl := Option.some.inj hnew
      exact showsContainer_self hkind

lemma exactly_paths_iff (hkind : proposal.kind = .pathExtension)
    (hauth : Authorized sha256 stores proposal approvalId now) (h : widen project remote proposal = .ok derived) :
    ExactlyApproved sha256 stores proposal approvalId project derived ↔ Unmoved project remote proposal := by
  obtain ⟨-, -, paths, hresolve, hderive⟩ := (widen_paths_iff hkind).mp h
  obtain ⟨-, hall, horigin⟩ := resolvePaths_done hresolve
  constructor
  · intro hexact i raw path hraw hreal
    refine or_iff_not_imp_left.mpr fun hnew => ?_
    obtain ⟨path', hmem, hreal'⟩ := hall i raw hraw
    rw [Nat.zero_add, hreal] at hreal'
    obtain rfl : path = path' := by injection hreal'
    have hafter := (allows_derive hderive _ _).mpr (.inr ⟨rfl, hmem⟩)
    exact ((showsPath_iff hkind _ _).mp (hexact.paths _ path hafter hnew)).2
  · intro hunmoved
    refine ⟨?_, fun service path hafter hbefore => ?_, fun service container hafter hbefore => ?_⟩
    · obtain ⟨-, row, expiresAt, hrow, happroved, -, -, hsha⟩ := hauth
      exact ⟨row, hrow, happroved, hsha⟩
    · rcases (allows_derive hderive service path).mp hafter with hold | ⟨rfl, hnew⟩
      · exact absurd hold hbefore
      · obtain ⟨-, i, raw, hraw, hreal⟩ := (horigin path hnew).resolve_left List.not_mem_nil
        rw [Nat.zero_add] at hreal
        exact (showsPath_iff hkind _ _).mpr ⟨rfl, (hunmoved i raw path hraw hreal).resolve_left hbefore⟩
    · rcases contains_derive hderive hafter with hold | ⟨-, hnew⟩
      · exact absurd hold hbefore
      · cases hnew

lemma Extends.widen (h : Extends project remote proposal) {raw path : RemotePath}
    (hraw : proposal.proposedPaths[i]? = some raw) (hreal : remote.realpath i raw = .done path)
    (hnew : ¬ project.allows proposal.proposedServiceName path) : ∃ derived, widen project remote proposal = .ok derived := by
  obtain ⟨paths, hresolve⟩ : ∃ paths, resolvePaths remote 0 proposal.proposedPaths [] = .done paths :=
    resolvePaths_eq_done [] (by simpa using h.resolved)
  obtain ⟨-, hall, horigin⟩ := resolvePaths_done hresolve
  obtain ⟨path', hmem, hreal'⟩ := hall i raw hraw
  rw [Nat.zero_add, hreal] at hreal'
  obtain rfl : path = path' := by injection hreal'
  obtain ⟨derived, hderive⟩ := derive_paths_iff.mpr ⟨h.service,
    fun p hp => ((horigin p hp).resolve_left List.not_mem_nil).1, path, hmem, hnew⟩
  exact ⟨derived, (widen_paths_iff h.kind).mpr ⟨h.target, h.session, paths, hresolve, hderive⟩⟩

lemma extends_of_widen (hkind : proposal.kind = .pathExtension) (h : widen project remote proposal = .ok derived) :
    Extends project remote proposal := by
  obtain ⟨htarget, hsession, paths, hresolve, hderive⟩ := (widen_paths_iff hkind).mp h
  obtain ⟨hservice, hplain, -⟩ := derive_paths_iff.mp ⟨derived, hderive⟩
  refine ⟨hkind, htarget, hservice, hsession, fun i raw hraw => ?_⟩
  obtain ⟨path, hmem, hreal⟩ := (resolvePaths_done hresolve).2.1 i raw hraw
  exact ⟨path, by simpa using hreal, hplain path hmem⟩

/-- Everything that decisions add has been approved exactly when every path of an extension
still leads to a proposed one. -/
theorem exactlyApproved_iff (sha256 : Bytes → String) (stores : Stores) (remote : Remote)
    (proposal : RegistryUpdateProposal) (approvalId : String) (now : DateTime) :
    (∀ project derived, decideProposal sha256 stores remote proposal approvalId now = .ok (project, derived) →
      ExactlyApproved sha256 stores proposal approvalId project.toProjectRegistration derived) ↔
    (Authorized sha256 stores proposal approvalId now → ∀ project,
      stores.projects.get proposal.proposedProjectId = some project →
        Extends project.toProjectRegistration remote proposal → Unmoved project.toProjectRegistration remote proposal) := by
  constructor
  · intro hexact hauth project hproject hextends
    by_contra hmoved
    unfold Unmoved at hmoved
    push Not at hmoved
    obtain ⟨i, raw, path, hraw, hreal, hnew, hshown⟩ := hmoved
    obtain ⟨derived, hwiden⟩ := hextends.widen hraw hreal hnew
    have happly := hexact project derived (decideProposal_ok_iff.mpr ⟨hauth, hproject, hwiden⟩)
    have hunmoved := (exactly_paths_iff hextends.kind hauth hwiden).mp happly
    obtain ⟨shown, hmem, hstr⟩ := (hunmoved i raw path hraw hreal).resolve_left hnew
    exact hshown shown hmem hstr
  · intro hunmoved project derived hdecide
    obtain ⟨hauth, hproject, hwiden⟩ := decideProposal_ok_iff.mp hdecide
    cases hkind : proposal.kind with
    | containerRegistration => exact exactly_container hkind hauth hwiden
    | pathExtension =>
      exact (exactly_paths_iff hkind hauth hwiden).mpr
        (hunmoved hauth project hproject (extends_of_widen hkind hwiden))

section Relinked

/-- `/srv/app/logs` -/
def logsPath : RemotePath := ⟨some .single, ["srv", "app", "logs"]⟩

/-- `/etc` -/
def etcPath : RemotePath := ⟨some .single, ["etc"]⟩

def webProject : ProjectRecord :=
  { projectId := "app", displayName := "App", targets := [⟨"prod", "prod.example", "deploy", none, none⟩],
    services := [⟨"web", [], []⟩], createdAt := [], updatedAt := [] }

def logsProposal : RegistryUpdateProposal :=
  { proposalId := "proposal", kind := .pathExtension, proposedProjectId := "app", proposedTargetId := "prod",
    proposedServiceName := "web", proposedContainerName := "web", proposedPaths := [logsPath] }

def proposedAt : DateTime := newYear 0

def logsApproval (sha256 : Bytes → String) : ApprovalRow :=
  { approvalId := "approval", intentSha256 := intentSha256 sha256 (registryUpdateIntent logsProposal)
    intent := registryUpdateIntent logsProposal, status := .approved
    createdAt := proposedAt.isoformat, expiresAt := proposedAt.isoformat }

def logsStores (sha256 : Bytes → String) : Stores where
  proposals := Table.empty.put logsProposal
  approvals := Table.empty.put (logsApproval sha256)
  projects := Table.empty.put webProject

/-- The approved directory has become a symbolic link to `/etc`. -/
def relinked : Remote where
  session := .done ()
  inspect _ := .done true
  realpath _ path := .done (if path = logsPath then etcPath else path)

lemma authorized_logs (sha256 : Bytes → String) :
    Authorized sha256 (logsStores sha256) logsProposal "approval" proposedAt :=
  ⟨⟨logsProposal, rfl, rfl⟩, logsApproval sha256, proposedAt, rfl, rfl,
    DateTime.fromIsoformat_isoformat proposedAt, by decide, rfl⟩

lemma extends_logs : Extends webProject.toProjectRegistration relinked logsProposal where
  kind := rfl
  target := by simp [findTarget, webProject, logsProposal]
  service := ⟨⟨"web", [], []⟩, by simp [webProject], rfl⟩
  session := rfl
  resolved i raw hraw := by
    refine ⟨_, rfl, ?_⟩
    split_ifs
    · rfl
    · have hmem := List.mem_of_getElem? hraw
      exact List.all_eq_true.mp logsProposal.plainPaths raw hmem

theorem etc_unseen : ¬ ∀ sha256 stores remote proposal approvalId now project derived,
    decideProposal sha256 stores remote proposal approvalId now = .ok (project, derived) →
      ExactlyApproved sha256 stores proposal approvalId project.toProjectRegistration derived := by
  intro hall
  have hnew : ¬ webProject.allows "web" etcPath := by simp [ProjectRegistration.allows, webProject]
  obtain ⟨derived, hwiden⟩ := extends_logs.widen (i := 0) rfl rfl hnew
  have hauth := authorized_logs fun _ => ""
  have happly := hall _ _ _ _ _ _ webProject derived (decideProposal_ok_iff.mpr ⟨hauth, rfl, hwiden⟩)
  have hunmoved := (exactly_paths_iff rfl hauth hwiden).mp happly
  obtain ⟨shown, hmem, hstr⟩ := (hunmoved 0 logsPath etcPath rfl rfl).resolve_left hnew
  obtain rfl := List.mem_singleton.mp hmem
  exact absurd hstr (by decide)

end Relinked
end IncidentLens.Proposals
