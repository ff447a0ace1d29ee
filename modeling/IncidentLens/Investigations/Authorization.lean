import IncidentLens.Effects.Outcome
import IncidentLens.Investigations.Confinement

/-!
# Authorisation of host paths over a static file system

`RemotePathPolicy.authorize` chooses a root lexically, lets the remote side resolve the path and
compares the result with that root alone.
-/
namespace IncidentLens.Investigations.Discovery
open Data Effects RemoteOps
open Effects.Routine

/-- A remote file system that does not change. An operation on a path acts on what the path
resolves to. -/
structure RemoteFileSystem where
  realpath : RemotePath → Except Exc RemotePath
  lstat : RemotePath → Except Exc FileMetadata
  resolved : ∀ path canonical, realpath path = .ok canonical → realpath canonical = .ok canonical

namespace RemoteFileSystem
variable (fs : RemoteFileSystem)

/-- The answers to the two calls of `authorize`. -/
def respond (_ : History) (op : Op) (_ : Unit) : Raising Exc Op.Value op × Unit :=
  (match op with
    | .realpath path => fs.realpath path
    | .lstat path => fs.lstat path
    | _ => .error .os, ())

def authorize (svc : SourceService) (path : RemotePath) : Except Exc RemotePath :=
  ((authorizeHost svc path {}).run fs.respond [] ()).1.1

/-- The path denotes a file that is not a symbolic link, and operations on it act on this very path. -/
structure Plain (path : RemotePath) : Prop where
  resolved : fs.realpath path = .ok path
  file : ∃ metadata, fs.lstat path = .ok metadata ∧ metadata.isSymlink = false

def Allowed (svc : SourceService) (path : RemotePath) : Prop :=
  ∃ root ∈ svc.allowedHostPaths, path.isRelativeTo root = true

/-- Only plain files below the roots are authorised, and every path that some root contains and that resolves
to such a file is. -/
structure Authorizes (svc : SourceService) (path : RemotePath) : Prop where
  sound : ∀ canonical, fs.authorize svc path = .ok canonical → Allowed svc canonical ∧ fs.Plain canonical
  complete : path.root ≠ none → ".." ∉ path.parts → Allowed svc path →
    ∀ canonical, fs.realpath path = .ok canonical → Allowed svc canonical → fs.Plain canonical →
      fs.authorize svc path = .ok canonical

/-- If the path resolves to a plain file below a root, then below the first root that contains the
path. -/
def StaysBelow (svc : SourceService) (path : RemotePath) : Prop :=
  ∀ root, authorizeLexically none svc.allowedHostPaths path = .ok root →
    ∀ canonical, fs.realpath path = .ok canonical → Allowed svc canonical → fs.Plain canonical →
      canonical.isRelativeTo root = true

variable {fs} {svc : SourceService} {path canonical : RemotePath} {root : SimplePath}

/-- What `authorize` computes, check by check. -/
def checks (fs : RemoteFileSystem) (svc : SourceService) (path : RemotePath) : Except Exc RemotePath := do
  let root ← authorizeLexically none svc.allowedHostPaths path
  let canonical ← fs.realpath path
  if canonical.isRelativeTo root then do
    let metadata ← fs.lstat canonical
    if metadata.isSymlink then .error (.remotePathDenied ("symlink detected at " ++ canonical.str))
    else .ok canonical
  else .error (.remotePathDenied ("resolved path " ++ canonical.str ++ " escapes allowed root " ++ root.str))

lemma checks_of_root (hroot : authorizeLexically none svc.allowedHostPaths path = .ok root)
    (hcanonical : fs.realpath path = .ok canonical) : fs.checks svc path =
      if canonical.isRelativeTo root then (do
        let metadata ← fs.lstat canonical
        if metadata.isSymlink then .error (.remotePathDenied ("symlink detected at " ++ canonical.str))
        else .ok canonical)
      else .error (.remotePathDenied ("resolved path " ++ canonical.str ++ " escapes allowed root " ++ root.str)) := by
  unfold checks
  rw [hroot, hcanonical]
  rfl

lemma authorize_eq_checks : fs.authorize svc path = fs.checks svc path := by
  have hends : Ends fs.respond (authorizeHost svc path) (fun canonical _ _ _ => fs.checks svc path = .ok canonical)
      (fun e _ _ _ => fs.checks svc path = .error e) {} [] () := by
    refine ends_bind (ends_ofExcept ?_ ?_)
    · intro root hroot
      refine ends_bind (ends_invoke ?_ ?_)
      · intro canonical hcanonical
        rw [checks_of_root hroot hcanonical]
        by_cases hbelow : canonical.isRelativeTo root = true
        · rw [if_pos hbelow, if_pos hbelow]
          refine ends_bind (ends_invoke ?_ ?_)
          · intro metadata hmetadata
            change fs.lstat canonical = .ok metadata at hmetadata
            rw [hmetadata]
            cases hlink : metadata.isSymlink with
            | true =>
              refine ends_throw ?_
              change (if metadata.isSymlink = true then _ else _) = _
              rw [if_pos hlink]
            | false =>
              refine ends_pure ?_
              change (if metadata.isSymlink = true then _ else _) = _
              rw [hlink]
              rfl
          · intro e he
            change fs.lstat canonical = .error e at he
            rw [he]
            rfl
        · rw [if_neg hbelow, if_neg hbelow]
          exact ends_throw rfl
      · intro e he
        change fs.realpath path = .error e at he
        unfold checks
        rw [hroot, he]
        rfl
    · intro e he
      unfold checks
      rw [he]
      rfl
  cases hrun : fs.authorize svc path with
  | ok canonical => exact (hends.1 canonical hrun).symm
  | error e => exact (hends.2 e hrun).symm

lemma checks_ok (h : fs.checks svc path = .ok canonical) :
    ∃ root, authorizeLexically none svc.allowedHostPaths path = .ok root ∧ fs.realpath path = .ok canonical ∧
      canonical.isRelativeTo root = true ∧ ∃ metadata, fs.lstat canonical = .ok metadata ∧ metadata.isSymlink = false := by
  obtain ⟨root, hroot, h⟩ := bind_eq_ok_iff.mp h
  obtain ⟨c, hcanonical, h⟩ := bind_eq_ok_iff.mp h
  split_ifs at h with hbelow
  obtain ⟨metadata, hmetadata, h⟩ := bind_eq_ok_iff.mp h
  split_ifs at h with hlink
  obtain rfl := Except.ok.inj h
  exact ⟨root, hroot, hcanonical, hbelow, metadata, hmetadata, Bool.eq_false_iff.mpr hlink⟩

lemma checks_of_below (hroot : authorizeLexically none svc.allowedHostPaths path = .ok root)
    (hcanonical : fs.realpath path = .ok canonical) (hbelow : canonical.isRelativeTo root = true)
    (hplain : fs.Plain canonical) : fs.checks svc path = .ok canonical := by
  obtain ⟨metadata, hmetadata, hlink⟩ := hplain.file
  rw [checks_of_root hroot hcanonical, if_pos hbelow, hmetadata]
  change (if metadata.isSymlink = true then _ else _) = _
  rw [hlink]
  rfl

lemma exists_root (habsolute : path.root ≠ none) (hsimple : ".." ∉ path.parts) (hallowed : Allowed svc path) :
    ∃ root, authorizeLexically none svc.allowedHostPaths path = .ok root := by
  obtain ⟨root, hmem, hbelow⟩ := hallowed
  unfold authorizeLexically
  rw [if_neg habsolute, if_neg hsimple]
  cases hfind : svc.allowedHostPaths.find? path.isRelativeTo with
  | some first => exact ⟨first, rfl⟩
  | none => exact absurd hbelow (List.find?_eq_none.mp hfind root hmem)

lemma authorizeLexically_absolute (h : authorizeLexically none svc.allowedHostPaths path = .ok root) :
    path.root ≠ none := by
  intro hnone
  unfold authorizeLexically at h
  rw [if_pos hnone] at h
  cases h

/-- `authorize` is sound, and it is complete for exactly the paths that resolve below the first root that
contains them. -/
theorem authorizes_iff_staysBelow (fs : RemoteFileSystem) (svc : SourceService) (path : RemotePath) :
    fs.Authorizes svc path ↔ fs.StaysBelow svc path := by
  constructor
  · intro h root hroot canonical hcanonical hallowed hplain
    obtain ⟨hsimple, -, hfind⟩ := authorizeLexically_ok hroot
    have hok := h.complete (authorizeLexically_absolute hroot) hsimple (rooted_of_find hfind) canonical hcanonical hallowed
      hplain
    rw [authorize_eq_checks] at hok
    obtain ⟨first, hfirst, -, hbelow, -⟩ := checks_ok hok
    rw [hroot] at hfirst
    obtain rfl := Except.ok.inj hfirst
    exact hbelow
  · intro h
    refine ⟨?_, ?_⟩
    · intro canonical hok
      rw [authorize_eq_checks] at hok
      obtain ⟨root, hroot, hcanonical, hbelow, hfile⟩ := checks_ok hok
      obtain ⟨-, -, hfind⟩ := authorizeLexically_ok hroot
      exact ⟨⟨root, List.mem_of_find?_eq_some hfind, hbelow⟩, fs.resolved path canonical hcanonical, hfile⟩
    · intro habsolute hsimple hallowed canonical hcanonical hbelow hplain
      obtain ⟨root, hroot⟩ := exists_root habsolute hsimple hallowed
      rw [authorize_eq_checks]
      exact checks_of_below hroot hcanonical (h root hroot canonical hcanonical hbelow hplain) hplain

/-- `/app/current` is a link to `/app/releases/7`. -/
def releases : RemoteFileSystem where
  realpath path :=
    if ["app", "current"] <+: path.parts then .ok { path with parts := ["app", "releases", "7"] ++ path.parts.drop 2 }
    else .ok path
  lstat path := .ok ⟨path, 0, 0o100644, path.parts = ["app", "current"]⟩
  resolved := by
    intro path canonical h
    split_ifs at h with hcurrent
    · obtain rfl := Except.ok.inj h
      rw [if_neg]
      simp
    · obtain rfl := Except.ok.inj h
      exact if_neg hcurrent

def releasesService : SourceService where
  composeService := "app"
  allowedHostPaths := [⟨.single, ["app", "current"], by decide⟩, ⟨.single, ["app", "releases"], by decide⟩]

/-- The link is an allowed root, and so is the directory that it leads to. -/
theorem releases_not_authorizes :
    releases.authorize releasesService ⟨some .single, ["app", "current", "app.log"]⟩ = .error (.remotePathDenied
      "resolved path /app/releases/7/app.log escapes allowed root /app/current") ∧
    ¬ releases.Authorizes releasesService ⟨some .single, ["app", "current", "app.log"]⟩ := by
  have hdenied : releases.authorize releasesService ⟨some .single, ["app", "current", "app.log"]⟩ =
      .error (.remotePathDenied "resolved path /app/releases/7/app.log escapes allowed root /app/current") := rfl
  refine ⟨hdenied, fun h => ?_⟩
  have hallowed : Allowed releasesService ⟨some .single, ["app", "current", "app.log"]⟩ := ⟨_, .head _, by decide⟩
  have hbelow : Allowed releasesService ⟨some .single, ["app", "releases", "7", "app.log"]⟩ :=
    ⟨_, .tail _ (.head _), by decide⟩
  have hplain : releases.Plain ⟨some .single, ["app", "releases", "7", "app.log"]⟩ := ⟨rfl, _, rfl, rfl⟩
  have hok := h.complete (by decide) (by decide) hallowed _ rfl hbelow hplain
  rw [hdenied] at hok
  cases hok

end RemoteFileSystem
end IncidentLens.Investigations.Discovery
