import IncidentLens.Effects.Upkeep
import IncidentLens.Investigations.Discovery

/-!
# The confinement of source discovery

Every path that a discovery names was checked against the scope of the run, except the one that
the remote side resolves it to: that one is only checked against the root of the service. The
operations keep within the scope exactly when these answers do.
-/
namespace IncidentLens.Investigations.Discovery
open Data Effects Logs RemoteOps List Effects.Routine.Upholds
open Effects.Routine

abbrev History := Trace Op (Raising Exc Op.Value)

section Scope
variable (run : AgentScope) (svc : SourceService)

/-- Inside the run's scope and the roots of the service. -/
structure Inside (scope : LogScope) (roots : List SimplePath) (path : RemotePath) : Prop where
  simple : ".." ∉ path.parts
  allowed : pathAllowed run path scope = true
  rooted : ∃ root ∈ roots, path.isRelativeTo root = true

/-- A registered container, the own one for a container run. -/
structure OwnContainer (container : String) : Prop where
  registered : container ∈ svc.containerNames
  own : run.scope = .container → some container = run.containerName ∧ some svc.composeService = run.serviceName

def Confined (registry : Registry) : Op → Prop
  | .connect targetId => targetId = run.targetId
  | .docker .ps => run.scope = .host
  | .docker (.composeConfig target directory) => run.scope = .host ∧
      resolveTarget registry run.projectId run.targetId = .ok target ∧ target.composeWorkingDirectory = some directory
  | .docker (.inspect container) => run.scope = .host ∧ OwnContainer run svc container
  | .find container path => OwnContainer run svc container ∧ Inside run .container svc.allowedContainerPaths path
  | .realpath path => run.scope = .host ∧ Inside run .host svc.allowedHostPaths path
  | .lstat path => run.scope = .host ∧ Inside run .host svc.allowedHostPaths path
  | .listDirectory path => run.scope = .host ∧ Inside run .host svc.allowedHostPaths path
  | .readBytes path _ => run.scope = .host ∧ Inside run .host svc.allowedHostPaths path
  | .record _ => True

def Op.Reads : Op → DiscoveryCandidate → Prop
  | .docker (.inspect container), .container name _ _ => container = name
  | .find container _, .container name _ _ => container = name
  | .realpath path, .hostPath candidate _ _ => path = remotePath candidate
  | .lstat path, .hostPath candidate _ _ => path = remotePath candidate
  | .listDirectory path, .hostPath candidate _ _ => path = remotePath candidate
  | .readBytes path _, .hostPath candidate _ _ => path = remotePath candidate
  | _, _ => False

def Unregistered : DiscoveryCandidate → Prop
  | .container name _ _ => name ∉ svc.containerNames
  | .hostPath path _ _ => pathAllowed run (remotePath path) .host = false

/-- The remote side resolved the path within the root of the service that the path is in. -/
def Accepted (history : History) (canonical : RemotePath) : Prop :=
  ∃ path root, (⟨.realpath path, .ok canonical⟩ : Event Op (Raising Exc Op.Value)) ∈ history ∧
    svc.allowedHostPaths.find? path.isRelativeTo = some root ∧ canonical.isRelativeTo root = true

/-- Every path resolved within a root of the service is one of the run's scope. -/
def Faithful (history : History) : Prop :=
  ∀ canonical, Accepted svc history canonical → ".." ∉ canonical.parts ∧ pathAllowed run canonical .host = true

/-- What holds between the operations: resolved paths were looked at, candidates are unregistered. -/
structure Kept (found : Found) (history : History) : Prop where
  followed : ∀ canonical, Accepted svc history canonical →
    ∃ answer, (⟨.lstat canonical, answer⟩ : Event Op (Raising Exc Op.Value)) ∈ history
  unregistered : ∀ candidate ∈ found.candidates, Unregistered run svc candidate

def Lawful (registry : Registry) (history : History) (op : Op) : Prop :=
  Faithful run svc history → Confined run svc registry op

end Scope

section Histories
variable {run : AgentScope} {svc : SourceService} {found : Found} {history : History} {canonical : RemotePath}

lemma Accepted.mono {history' : History} (h : Accepted svc history canonical) (hsubset : history ⊆ history') :
    Accepted svc history' canonical := by
  obtain ⟨path, root, hmem, hroot, hrel⟩ := h
  exact ⟨path, root, hsubset hmem, hroot, hrel⟩

lemma Faithful.mono {history' : History} (h : Faithful run svc history') (hsubset : history ⊆ history') :
    Faithful run svc history := fun canonical hcanonical => h canonical (hcanonical.mono hsubset)

variable {e : Event Op (Raising Exc Op.Value)}

lemma Faithful.tail (h : Faithful run svc (e :: history)) : Faithful run svc history := h.mono (subset_cons_self _ _)

lemma Accepted.of_cons (h : Accepted svc (e :: history) canonical) :
    Accepted svc history canonical ∨ ∃ path root, e = ⟨.realpath path, .ok canonical⟩ ∧
      svc.allowedHostPaths.find? path.isRelativeTo = some root ∧ canonical.isRelativeTo root = true := by
  obtain ⟨path, root, hmem, hroot, hrel⟩ := h
  cases mem_cons.mp hmem with
  | inl heq => exact .inr ⟨path, root, heq.symm, hroot, hrel⟩
  | inr hmem => exact .inl ⟨path, root, hmem, hroot, hrel⟩

lemma Kept.cons (h : Kept run svc found history) (he : ∀ canonical path root, e = ⟨.realpath path, .ok canonical⟩ →
      svc.allowedHostPaths.find? path.isRelativeTo = some root → canonical.isRelativeTo root = false) :
    Kept run svc found (e :: history) := by
  refine ⟨?_, h.unregistered⟩
  intro canonical haccepted
  rcases haccepted.of_cons with haccepted | ⟨path, root, heq, hroot, hrel⟩
  · obtain ⟨answer, hmem⟩ := h.followed canonical haccepted
    exact ⟨answer, mem_cons_of_mem _ hmem⟩
  · rw [he canonical path root heq hroot] at hrel
    cases hrel

lemma Kept.lstat {path : RemotePath} (h : Kept run svc found history) (answer : Raising Exc Op.Value (.lstat canonical)) :
    Kept run svc found (⟨.lstat canonical, answer⟩ :: ⟨.realpath path, .ok canonical⟩ :: history) := by
  refine ⟨?_, h.unregistered⟩
  intro resolved haccepted
  rcases haccepted.of_cons with haccepted | ⟨path', root, heq, -, -⟩
  · rcases haccepted.of_cons with haccepted | ⟨path', root, heq, -, -⟩
    · obtain ⟨answer', hmem⟩ := h.followed resolved haccepted
      exact ⟨answer', mem_cons_of_mem _ (mem_cons_of_mem _ hmem)⟩
    · cases heq
      exact ⟨answer, mem_cons_self⟩
  · cases heq

end Histories

section Registry
variable {registry : Registry} {projectId targetId service : String} {svc : SourceService}

lemma targetId_of_resolveTarget {target : ComposeTarget} (h : resolveTarget registry projectId targetId = .ok target) :
    target.targetId = targetId := by
  unfold resolveTarget at h
  split at h
  · cases h
  · split at h
    · next hfind =>
      cases h
      simpa using find?_some hfind
    · cases h

lemma composeService_of_resolveService (h : resolveService registry projectId targetId service = .ok svc) :
    svc.composeService = service := by
  obtain ⟨_, -, h⟩ := bind_eq_ok_iff.mp h
  split at h
  · cases h
  · split at h
    · next hfind =>
      cases h
      simpa using find?_some hfind
    · split_ifs at h with hhost
      cases h
      exact hhost.2.symm

lemma ok_of_reported {α : Type} {x : Except Exc α} {a : α} (h : reported x = .ok a) : x = .ok a := by
  unfold reported at h
  split at h
  · cases h
  · exact h

lemma resolveProjectService_ok (hsvc : resolveService registry projectId targetId svc.composeService = .ok svc)
    {found : ComposeTarget × SourceService}
    (h : resolveProjectService registry projectId targetId svc.composeService = .ok found) :
    found.1.targetId = targetId ∧ found.2 = svc := by
  obtain ⟨target, htarget, h⟩ := bind_eq_ok_iff.mp h
  obtain ⟨svc', hsvc', h⟩ := bind_eq_ok_iff.mp h
  cases h
  rw [hsvc] at hsvc'
  cases hsvc'
  exact ⟨targetId_of_resolveTarget htarget, rfl⟩

end Registry

section Checks
variable {run : AgentScope} {svc : SourceService} {container : String} {path : RemotePath} {root : SimplePath}

lemma ownContainer_of_validateContainer {c : String} (h : validateContainer run svc container = .ok c) :
    c = container ∧ OwnContainer run svc container := by
  unfold validateContainer at h
  split_ifs at h with hname hown
  cases h
  refine ⟨rfl, by simpa using hname, ?_⟩
  intro hscope
  simpa [hscope] using hown

lemma authorizeLexically_ok {unknown : Option String} {roots : List SimplePath}
    (h : authorizeLexically unknown roots path = .ok root) :
    ".." ∉ path.parts ∧ unknown = none ∧ roots.find? path.isRelativeTo = some root := by
  unfold authorizeLexically at h
  split_ifs at h with habsolute hsimple
  split at h
  · cases h
  · split at h
    · next hfind =>
      cases h
      exact ⟨hsimple, rfl, hfind⟩
    · cases h

lemma rooted_of_find {roots : List SimplePath} (h : roots.find? path.isRelativeTo = some root) :
    ∃ root ∈ roots, path.isRelativeTo root = true := ⟨root, mem_of_find?_eq_some h, find?_some h⟩

lemma authorizeContainer_ok {canonical : RemotePath} (h : authorizeContainer svc container path = .ok canonical) :
    canonical = path ∧ ".." ∉ path.parts ∧ ∃ root ∈ svc.allowedContainerPaths, path.isRelativeTo root = true := by
  obtain ⟨root, hroot, h⟩ := bind_eq_ok_iff.mp h
  cases h
  obtain ⟨hsimple, -, hfind⟩ := authorizeLexically_ok hroot
  exact ⟨rfl, hsimple, rooted_of_find hfind⟩

end Checks

section Routines
variable {registry : Registry} {jsonLoads : String → Option Json} {run : AgentScope} {svc : SourceService}
  {found : Found} {history : History}

/-- The routine keeps to the scope as far as the resolved paths do. -/
abbrev Keeps (registry : Registry) (run : AgentScope) (svc : SourceService) {α : Type} (m : Disc α) : Prop :=
  Upholds (Lawful run svc registry) (Kept run svc) m

lemma keeps_call {op : Op} (hop : Confined run svc registry op) (hresolve : ∀ path, op ≠ .realpath path) :
    Keeps registry run svc (call op) := by
  refine invoke (fun _ _ _ _ => hop) ?_
  intro found history answer hkept
  refine hkept.cons ?_
  intro canonical path root heq
  exact absurd (congrArg Event.call heq) (hresolve path)

lemma keeps_recordEvidence (sourceRef : String) : Keeps registry run svc (recordEvidence sourceRef) := by
  refine bind (keeps_call trivial (fun _ => nofun)) fun evidenceId => ?_
  refine bind (modify ?_) fun _ => pure evidenceId
  exact fun _ _ hkept => ⟨hkept.followed, hkept.unregistered⟩

lemma keeps_addCandidate {candidate : DiscoveryCandidate} (h : Unregistered run svc candidate) :
    Keeps registry run svc (addCandidate candidate) := by
  refine modify fun found history hkept => ⟨hkept.followed, ?_⟩
  intro c hc
  cases mem_append.mp hc with
  | inl hc => exact hkept.unregistered c hc
  | inr hc =>
    rw [mem_singleton.mp hc]
    exact h

/-- What is known of a resolved path, from then on. -/
def Resolved (run : AgentScope) (svc : SourceService) (canonical : RemotePath) (found : Found) (history : History) :
    Prop :=
  Kept run svc found history ∧ (Faithful run svc history → Inside run .host svc.allowedHostPaths canonical)

lemma resolved_call {op : Op} {canonical : RemotePath}
    (hop : Inside run .host svc.allowedHostPaths canonical → Confined run svc registry op)
    (hresolve : ∀ path, op ≠ .realpath path) :
    Upholds (Lawful run svc registry) (Resolved run svc canonical) (call op) := by
  refine invoke (fun _ _ h hfaithful => hop (h.2 hfaithful)) ?_
  intro found history answer h
  refine ⟨h.1.cons ?_, fun hfaithful => h.2 hfaithful.tail⟩
  intro canonical path root heq
  exact absurd (congrArg Event.call heq) (hresolve path)

variable {path : RemotePath}

/-- A host path of the scope is resolved; what it resolves to is in the scope if the remote side
is faithful. -/
theorem authorizeHost_wp (hhost : run.scope = .host) (hallowed : pathAllowed run path .host = true)
    (hkept : Kept run svc found history) :
    wp (Lawful run svc registry) (authorizeHost svc path) (fun canonical => Resolved run svc canonical)
      (fun _ => Kept run svc) found history := by
  refine wp_bind.mpr (wp_ofExcept ?_ fun _ _ => hkept)
  intro root hroot
  obtain ⟨hsimple, -, hfind⟩ := authorizeLexically_ok hroot
  have hinside : Inside run .host svc.allowedHostPaths path := ⟨hsimple, hallowed, rooted_of_find hfind⟩
  refine wp_bind.mpr (wp_invoke (fun _ => ⟨hhost, hinside⟩) ?_ fun _ => hkept.cons (fun _ _ _ heq => by cases heq))
  intro canonical
  by_cases hrel : canonical.isRelativeTo root = true
  · rw [if_pos hrel]
    have hcanonical : Faithful run svc (⟨.realpath path, .ok canonical⟩ :: history) →
        Inside run .host svc.allowedHostPaths canonical := by
      intro hfaithful
      obtain ⟨hsimple', hallowed'⟩ := hfaithful canonical ⟨path, root, mem_cons_self, hfind, hrel⟩
      exact ⟨hsimple', hallowed', root, mem_of_find?_eq_some hfind, hrel⟩
    refine wp_bind.mpr (wp_invoke (fun hfaithful => ⟨hhost, hcanonical hfaithful⟩) ?_ fun _ => hkept.lstat _)
    intro metadata
    by_cases hlink : metadata.isSymlink = true
    · rw [if_pos hlink]
      exact hkept.lstat _
    · rw [if_neg hlink]
      exact ⟨hkept.lstat _, fun hfaithful => hcanonical hfaithful.tail⟩
  · rw [if_neg hrel]
    refine hkept.cons ?_
    intro resolved path' root' heq hfind'
    cases heq
    rw [hfind] at hfind'
    cases hfind'
    simpa using hrel

variable (hsvc : resolveService registry run.projectId run.targetId svc.composeService = .ok svc)
include hsvc

lemma keeps_gatewayListDir (hhost : run.scope = .host) (hallowed : pathAllowed run path .host = true) :
    Keeps registry run svc (gatewayListDir registry run svc.composeService path) := by
  refine ofExcept_bind ?_
  rintro ⟨target, svc'⟩ hresolved
  obtain ⟨htarget, rfl⟩ := resolveProjectService_ok hsvc hresolved
  refine bind (keeps_call htarget (fun _ => nofun)) fun _ => ?_
  intro found history hkept
  refine wp_bind.mpr (wp_mono (authorizeHost_wp hhost hallowed hkept) ?_ fun _ _ _ => id)
  intro canonical found' history' hresolved'
  have hlist : Upholds (Lawful run svc' registry) (Resolved run svc' canonical) (call (.listDirectory canonical)) :=
    resolved_call (fun hinside => ⟨hhost, hinside⟩) (fun _ => nofun)
  exact hlist.strengthen (fun _ _ h => h.1) hresolved'

lemma keeps_gatewayRead (hhost : run.scope = .host) (hallowed : pathAllowed run path .host = true) (limit : ℕ) :
    Keeps registry run svc (gatewayRead registry run svc.composeService path limit) := by
  refine ofExcept_bind ?_
  rintro ⟨target, svc'⟩ hresolved
  obtain ⟨htarget, rfl⟩ := resolveProjectService_ok hsvc hresolved
  refine bind (keeps_call htarget (fun _ => nofun)) fun _ => ?_
  intro found history hkept
  refine wp_bind.mpr (wp_mono (authorizeHost_wp hhost hallowed hkept) ?_ fun _ _ _ => id)
  intro canonical found' history' hresolved'
  refine strengthen (J := Resolved run svc' canonical) ?_ (fun _ _ h => h.1) hresolved'
  refine bind (resolved_call (fun hinside => ⟨hhost, hinside⟩) (fun _ => nofun)) fun content => ?_
  refine ite (fun _ => throw _) fun _ => ?_
  exact bind (resolved_call (fun hinside => ⟨hhost, hinside⟩) (fun _ => nofun)) fun _ => pure _

lemma keeps_gatewayListContainer {container : String} (hown : OwnContainer run svc container)
    (hallowed : pathAllowed run path .container = true) :
    Keeps registry run svc (gatewayListContainer registry run svc.composeService container path) := by
  refine ofExcept_bind ?_
  rintro ⟨target, svc'⟩ hresolved
  obtain ⟨htarget, rfl⟩ := resolveProjectService_ok hsvc hresolved
  refine ofExcept_bind fun canonical hcanonical => ?_
  obtain ⟨rfl, hsimple, hrooted⟩ := authorizeContainer_ok hcanonical
  refine bind (keeps_call htarget (fun _ => nofun)) fun _ => ?_
  exact keeps_call ⟨hown, hsimple, hallowed, hrooted⟩ (fun _ => nofun)

omit hsvc in
lemma keeps_runDockerRead {read : DockerRead} (hread : Confined run svc registry (.docker read)) (sourceRef : String) :
    Keeps registry run svc (runDockerRead registry run read sourceRef) := by
  refine ofExcept_bind fun target htarget => ?_
  have hconnect : Confined run svc registry (.connect target.targetId) :=
    targetId_of_resolveTarget (ok_of_reported htarget)
  refine bind (attempt (bind (keeps_call hconnect (fun _ => nofun)) fun _ =>
    keeps_call hread (fun _ => nofun))) fun answer => ?_
  cases answer with
  | error e =>
    refine ite (fun _ => ?_) fun _ => throw e
    exact bind (keeps_recordEvidence sourceRef) fun _ => pure none
  | ok result => exact bind (keeps_recordEvidence sourceRef) fun _ => pure _

omit hsvc in
lemma keeps_collectContainerCandidates (psOutput : String) :
    Keeps registry run svc (collectContainerCandidates svc psOutput) := by
  refine forM fun name _ => ite (fun _ => pure _) fun hname => ?_
  refine bind (keeps_recordEvidence _) fun evidenceId => keeps_addCandidate ?_
  exact fun hmem => hname (by simpa using hmem)

omit hsvc in
lemma keeps_discoverComposeConfig (hhost : run.scope = .host) :
    Keeps registry run svc (discoverComposeConfig registry run) := by
  refine ofExcept_bind fun target htarget => ?_
  cases hdirectory : target.composeWorkingDirectory with
  | none => exact pure _
  | some directory =>
    have hread : Confined run svc registry (.docker (.composeConfig target directory)) :=
      ⟨hhost, ok_of_reported htarget, hdirectory⟩
    refine bind (keeps_runDockerRead hread _) fun config => ?_
    cases config with
    | none => exact pure _
    | some text => exact bind (keeps_recordEvidence _) fun _ => pure _

lemma keeps_discoverContainerPaths (container : String) :
    Keeps registry run svc (discoverContainerPaths registry run svc container) := by
  refine ofExcept_bind fun c hc => ?_
  obtain ⟨rfl, hown⟩ := ownContainer_of_validateContainer hc
  refine forM fun hint _ => ofExcept_bind fun path _ => ?_
  refine ite (fun hallowed => ?_) fun _ => pure _
  refine bind (attempt (keeps_gatewayListContainer hsvc hown hallowed)) fun listed => ?_
  cases listed with
  | error e =>
    cases e with
    | remotePath => exact pure _
    | _ => exact throw _
  | ok entries => exact bind (keeps_recordEvidence _) fun _ => pure _

omit hsvc in
lemma keeps_collectMountCandidates (container : String) (mounts : List Json) :
    Keeps registry run svc (collectMountCandidates run svc container mounts) := by
  refine forM fun mount _ => ?_
  cases mountSource mount with
  | none => exact pure _
  | some source =>
    refine ofExcept_bind fun path _ => ite (fun _ => pure _) fun hallowed => ?_
    refine bind (keeps_recordEvidence _) fun evidenceId => keeps_addCandidate ?_
    simpa [Unregistered] using hallowed

lemma keeps_discoverContainer (hhost : run.scope = .host) (container : String) :
    Keeps registry run svc (discoverContainer registry jsonLoads run svc container) := by
  refine ofExcept_bind fun c hc => ?_
  obtain ⟨rfl, hown⟩ := ownContainer_of_validateContainer hc
  have hread : Confined run svc registry (.docker (.inspect c)) := ⟨hhost, hown⟩
  refine bind (keeps_runDockerRead hread _) fun output => ?_
  refine bind (keeps_recordEvidence _) fun _ => ?_
  refine bind (keeps_collectMountCandidates _ _) fun _ => ?_
  exact keeps_discoverContainerPaths hsvc _

lemma keeps_hashEntries (hhost : run.scope = .host) (entries : List FileMetadata) (reads : ℕ) :
    Keeps registry run svc (hashEntries registry run svc reads entries) := by
  induction entries generalizing reads with
  | nil => exact pure _
  | cons entry entries ih =>
    unfold hashEntries
    refine ite (fun _ => ih reads) fun _ => ite (fun hallowed => ?_) fun _ => ih reads
    refine ite (fun _ => pure _) fun _ => ?_
    refine bind (keeps_gatewayRead hsvc hhost hallowed _) fun path => ?_
    exact bind (keeps_recordEvidence _) fun _ => ih (reads + 1)

lemma keeps_discoverHostPath (hhost : run.scope = .host) (path : SimplePath) :
    Keeps registry run svc (discoverHostPath registry run svc path) := by
  refine ofExcept_bind fun p hp => ?_
  unfold validatePathInScope at hp
  split_ifs at hp with hallowed
  cases hp
  refine bind (attempt (keeps_gatewayListDir hsvc hhost hallowed)) fun listed => ?_
  cases listed with
  | error e =>
    cases e with
    | remotePath => exact pure _
    | _ => exact throw _
  | ok entries =>
    refine bind (keeps_recordEvidence _) fun _ => ?_
    refine bind (keeps_hashEntries hsvc hhost _ 0) fun reads => ?_
    refine ite (fun _ => pure _) fun _ => ?_
    exact bind (keeps_recordEvidence _) fun _ => pure _

lemma keeps_discoverService : Keeps registry run svc (discoverService registry jsonLoads run svc) := by
  unfold discoverService
  cases hscope : run.scope with
  | container => exact ofExcept_bind fun _ _ => keeps_discoverContainerPaths hsvc _
  | host =>
    have hread : Confined run svc registry (.docker .ps) := hscope
    refine bind (keeps_runDockerRead hread _) fun psOutput => ?_
    have hrest : Keeps registry run svc (do
        discoverComposeConfig registry run
        (svc.containerNames.take maxRegisteredContainers).forM fun name =>
          discoverContainer registry jsonLoads run svc name
        (svc.allowedHostPaths.take maxHostPaths).forM fun path =>
          if pathAllowed run (remotePath path) .host then discoverHostPath registry run svc path else pure ()) := by
      refine bind (keeps_discoverComposeConfig hscope) fun _ => ?_
      refine bind (forM fun name _ => keeps_discoverContainer hsvc hscope name) fun _ => ?_
      exact forM fun path _ =>
        ite (fun _ => keeps_discoverHostPath hsvc hscope path) fun _ => pure _
    cases psOutput with
    | none => exact hrest
    | some output => exact bind (keeps_collectContainerCandidates output) fun _ => hrest

omit hsvc in
lemma keeps_discover {request : Request}
    (h : resolveService registry run.projectId run.targetId request.serviceName = .ok svc) :
    Keeps registry run svc (discover registry jsonLoads run request) := by
  have hsvc : resolveService registry run.projectId run.targetId svc.composeService = .ok svc := by
    rw [composeService_of_resolveService h, h]
  refine ofExcept_bind fun found hfound => ?_
  rw [ok_of_reported hfound] at h
  cases h
  cases request.container with
  | some container =>
    refine ofExcept_bind fun c hc => ?_
    cases hscope : run.scope with
    | container => exact keeps_discoverContainerPaths hsvc _
    | host => exact keeps_discoverContainer hsvc hscope _
  | none =>
    cases request.path with
    | none => exact keeps_discoverService hsvc
    | some path =>
      refine ofExcept_bind fun _ hassert => ?_
      have hhost : run.scope = .host := by
        unfold assertRunScope at hassert
        cases hscope : run.scope with
        | host => rfl
        | container => simp [hscope] at hassert
      refine ofExcept_bind fun parsed _ => ofExcept_bind fun _ _ => ?_
      exact keeps_discoverHostPath hsvc hhost parsed

end Routines

lemma discover_unresolved {registry : Registry} {jsonLoads : String → Option Json} {run : AgentScope}
    {request : Request} {e : Exc}
    (h : resolveService registry run.projectId run.targetId request.serviceName = .error e) {W : Type}
    (respond : History → (op : Op) → W → Raising Exc Op.Value op × W) (w : W) :
    ((discover registry jsonLoads run request {}).run respond [] w).2.1 = [] := by
  unfold discover
  rw [h]
  cases e <;> rfl

section Confinement
variable (registry : Registry) (jsonLoads : String → Option Json) (run : AgentScope) (request : Request) {W : Type}
  (respond : History → (op : Op) → W → Raising Exc Op.Value op × W) (w : W)

/-- What is left of a run: how it ended, what was found, the history and the remote side. -/
abbrev outcome := (discover registry jsonLoads run request {}).run respond [] w

/-- Every operation is one for the requested service, and none is on a candidate. -/
def StaysConfined (found : Found) (history : History) : Prop :=
  (∀ e ∈ history, ∃ svc, resolveService registry run.projectId run.targetId request.serviceName = .ok svc ∧
    Confined run svc registry e.call) ∧
  ∀ candidate ∈ found.candidates, ∀ e ∈ history, ¬ e.call.Reads candidate

lemma not_reads {svc : SourceService} {op : Op} {candidate : DiscoveryCandidate}
    (hop : Confined run svc registry op) (hcandidate : Unregistered run svc candidate) : ¬ op.Reads candidate := by
  intro hreads
  cases candidate with
  | container name serviceName evidenceId =>
    cases op with
    | docker read =>
      cases read with
      | inspect container => exact hcandidate (hreads ▸ hop.2.registered)
      | _ => exact hreads
    | find container path => exact hcandidate (hreads ▸ hop.1.registered)
    | _ => exact hreads
  | hostPath path serviceName evidenceId =>
    have hnot : ∀ p, p = remotePath path → Inside run .host svc.allowedHostPaths p → False := by
      intro p hp hinside
      have hallowed := hinside.allowed
      rw [hp, hcandidate] at hallowed
      cases hallowed
    cases op with
    | docker read => cases read <;> exact hreads
    | realpath p => exact hnot p hreads hop.2
    | lstat p => exact hnot p hreads hop.2
    | listDirectory p => exact hnot p hreads hop.2
    | readBytes p maxBytes => exact hnot p hreads hop.2
    | _ => exact hreads

variable {registry jsonLoads run request respond w} {svc : SourceService}

lemma kept_outcome (hsvc : resolveService registry run.projectId run.targetId request.serviceName = .ok svc) :
    Execution (Lawful run svc registry) respond [] w (outcome registry jsonLoads run request respond w).2.1
        (outcome registry jsonLoads run request respond w).2.2 ∧
      Kept run svc (outcome registry jsonLoads run request respond w).1.2
        (outcome registry jsonLoads run request respond w).2.1 := by
  have hstart : Kept run svc {} [] := ⟨fun _ ⟨_, _, hmem, _⟩ => absurd hmem not_mem_nil, nofun⟩
  have hkeeps : Keeps registry run svc (discover registry jsonLoads run request) := keeps_discover hsvc
  have hnothing : Execution (Lawful run svc registry) respond [] w [] w := .start
  obtain ⟨hexecution, hok, herror⟩ := Routine.run_execution (hkeeps {} [] hstart) hnothing
  refine ⟨hexecution, ?_⟩
  cases hresult : (outcome registry jsonLoads run request respond w).1.1 with
  | ok a => exact hok a hresult
  | error e => exact herror e hresult

lemma staysConfined_of_faithful
    (hsvc : resolveService registry run.projectId run.targetId request.serviceName = .ok svc)
    (hfaithful : Faithful run svc (outcome registry jsonLoads run request respond w).2.1) :
    StaysConfined registry run request (outcome registry jsonLoads run request respond w).1.2
      (outcome registry jsonLoads run request respond w).2.1 := by
  obtain ⟨hexecution, hkept⟩ := @kept_outcome registry jsonLoads run request _ respond w svc hsvc
  have hops : ∀ e ∈ (outcome registry jsonLoads run request respond w).2.1, Confined run svc registry e.call := by
    intro e he
    obtain ⟨earlier, hsubset, hlawful⟩ := hexecution.lawful_of_mem he
    exact hlawful (hfaithful.mono hsubset)
  refine ⟨fun e he => ⟨svc, hsvc, hops e he⟩, ?_⟩
  intro candidate hcandidate e he
  exact not_reads registry run (hops e he) (hkept.unregistered candidate hcandidate)

/-- A discovery stays confined exactly when every path that the remote side resolves within the
root of the service is a path of the run's scope. -/
theorem staysConfined_iff : StaysConfined registry run request (outcome registry jsonLoads run request respond w).1.2
        (outcome registry jsonLoads run request respond w).2.1 ↔
      ∀ svc, resolveService registry run.projectId run.targetId request.serviceName = .ok svc →
        Faithful run svc (outcome registry jsonLoads run request respond w).2.1 := by
  cases hsvc : resolveService registry run.projectId run.targetId request.serviceName with
  | error e =>
    have hempty : (outcome registry jsonLoads run request respond w).2.1 = [] := discover_unresolved hsvc respond w
    rw [hempty]
    refine iff_of_true ⟨fun _ he => absurd he not_mem_nil, fun _ _ _ he => absurd he not_mem_nil⟩ ?_
    intro svc hresolved
    cases hresolved
  | ok svc =>
    constructor
    · rintro hconfined svc' ⟨⟩ canonical haccepted
      obtain ⟨answer, hlstat⟩ := (kept_outcome hsvc).2.followed canonical haccepted
      obtain ⟨svc', hsvc', -, hinside⟩ := hconfined.1 _ hlstat
      rw [hsvc] at hsvc'
      cases hsvc'
      exact ⟨hinside.simple, hinside.allowed⟩
    · intro hfaithful
      exact staysConfined_of_faithful hsvc (hfaithful svc rfl)

end Confinement

def hostPath (parts : List String) (h : ".." ∉ parts := by decide) : SimplePath := ⟨.single, parts, h⟩

/-- A project with one service below `/srv/app`. -/
def appRegistry : Registry := fun projectId =>
  if projectId = "shop" then
    some ⟨[{ targetId := "prod", host := "prod.example", sshUser := "deploy" }],
      [{ composeService := "api", allowedHostPaths := [hostPath ["srv", "app"]] }]⟩
  else none

/-- A run of the host that is bounded to one directory of the service. -/
def confRun : AgentScope where
  projectId := "shop"
  targetId := "prod"
  scope := .host
  allowedHostPaths := [hostPath ["srv", "app", "conf"]]
  identity := identity_host

/-- A host on which `/srv/app/conf/current` is a link to `/srv/app/secrets`. -/
def linkedHost (_ : History) (op : Op) (w : Unit) : Raising Exc Op.Value op × Unit :=
  (match op with
    | .connect _ => .ok ()
    | .realpath _ => .ok ⟨some .single, ["srv", "app", "secrets"]⟩
    | .lstat path => .ok ⟨path, 4096, 0o040755, false⟩
    | .listDirectory _ => .ok []
    | .record _ => .ok "evidence-1"
    | .docker _ => .error .os
    | .find _ _ => .error .os
    | .readBytes _ _ => .error .os, w)

/-- A link inside the scope of the run leads out of it. -/
theorem linked_secrets : ¬ StaysConfined appRegistry confRun { serviceName := "api", path := "/srv/app/conf/current" }
    (outcome appRegistry (fun _ => none) confRun { serviceName := "api", path := "/srv/app/conf/current" }
      linkedHost ()).1.2
    (outcome appRegistry (fun _ => none) confRun { serviceName := "api", path := "/srv/app/conf/current" }
      linkedHost ()).2.1 := by
  have hlist : (outcome appRegistry (fun _ => none) confRun { serviceName := "api", path := "/srv/app/conf/current" }
      linkedHost ()).2.1.any (fun e => match e.call with
        | .listDirectory path => path = ⟨some .single, ["srv", "app", "secrets"]⟩
        | _ => false) = true := by decide +kernel
  intro hconfined
  obtain ⟨e, he, hlisted⟩ := any_eq_true.mp hlist
  obtain ⟨svc, -, hop⟩ := hconfined.1 e he
  split at hlisted
  · rename_i path hcall
    obtain rfl := of_decide_eq_true hlisted
    rw [hcall] at hop
    have hallowed : pathAllowed confRun ⟨some .single, ["srv", "app", "secrets"]⟩ .host = true := hop.2.allowed
    revert hallowed
    decide
  · cases hlisted

end IncidentLens.Investigations.Discovery
