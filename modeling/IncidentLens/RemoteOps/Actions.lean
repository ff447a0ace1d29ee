import IncidentLens.Approvals.Store
import IncidentLens.Investigations.Scope
import IncidentLens.RemoteOps.Registry
import Mathlib

/-!
# Approved actions

A shell command or a Docker action is approved by its intent. What then runs also depends on the
registry, on the session of the target and, for a shell command, on the directory it asks for.
-/
namespace IncidentLens.RemoteOps
open Data Approvals Investigations SimplePath List Option

/-- The characters that `shlex.quote` leaves alone. -/
def isShellSafe (c : Char) : Bool := c.isAlphanum || "_@%+=:,./-".toList.contains c

def escapeQuotes (s : Text) : Text := s.flatMap fun c => if c = '\'' then "'\"'\"'".toList else [c]

/-- `shlex.quote` -/
def shellQuote (s : Text) : Text := if s ≠ [] ∧ s.all isShellSafe then s else '\'' :: (escapeQuotes s ++ ['\''])

lemma escapeQuotes_injective : Function.Injective escapeQuotes := by
  intro s
  induction s with
  | nil =>
    intro t h
    cases t with
    | nil => rfl
    | cons d t =>
      by_cases hd : d = '\'' <;> simp [escapeQuotes, hd] at h
  | cons c s ih =>
    intro t h
    cases t with
    | nil => by_cases hc : c = '\'' <;> simp [escapeQuotes, hc] at h
    | cons d t =>
      by_cases hc : c = '\'' <;> by_cases hd : d = '\''
      · simp only [escapeQuotes, flatMap_cons, hc, hd, if_true] at h
        rw [hc, hd, ih (append_cancel_left h)]
      · simp [escapeQuotes, hc, hd] at h
        exact absurd h.1.symm hd
      · simp [escapeQuotes, hc, hd] at h
      · simp only [escapeQuotes, flatMap_cons, hc, hd, if_false, singleton_append, cons.injEq] at h
        rw [h.1, ih h.2]

lemma shellQuote_injective : Function.Injective shellQuote := by
  have hsafe : ∀ s t : Text, s.all isShellSafe = true → s ≠ '\'' :: (escapeQuotes t ++ ['\'']) := by
    rintro s t hs rfl
    simp [isShellSafe] at hs
  intro s t h
  unfold shellQuote at h
  split_ifs at h with hs ht ht
  · exact h
  · exact absurd h (hsafe s t hs.2)
  · exact absurd h.symm (hsafe t s ht.2)
  · have h := append_cancel_right (cons.inj h).2
    exact escapeQuotes_injective h

structure ComposeTarget extends TargetRegistration where
  composeWorkingDirectory : Option SimplePath := none
  composeProjectName : Option String := none
  composeFiles : List SimplePath := []

structure ComposeProject where
  targets : List ComposeTarget
  services : List ServiceRegistration

/-- What an action finds: the registered projects, and for each `target_id` with a live session
the target that the session was opened for. -/
structure Surroundings where
  projects : String → Option ComposeProject
  sessions : String → Option TargetRegistration

namespace Surroundings
variable (env : Surroundings)

def resolveTarget (projectId targetId : String) : Option ComposeTarget :=
  (env.projects projectId).bind fun project => project.targets.find? fun t => t.targetId = targetId

/-- `resolve_service` -/
def resolveService (projectId targetId service : String) : Option ServiceRegistration := do
  let project ← env.projects projectId
  let _ ← env.resolveTarget projectId targetId
  match project.services.find? fun svc => svc.composeService = service with
  | some svc => some svc
  | none => if project.services = [] ∧ service = "host" then some { composeService := "host" } else none

/-- `SessionManager.connect`: the session of the `target_id` as long as there is one. -/
def connect (target : TargetRegistration) : TargetRegistration := (env.sessions target.targetId).getD target

end Surroundings

inductive OperationRisk
  | autoRead | backupRequired | approvalRequired | forbidden
  deriving DecidableEq

/-- A call of `shell_exec` in a run with a scope. -/
structure ShellExec where
  run : AgentScope
  service : String
  command : Text
  cwd : Option SimplePath := none

inductive DockerActionKind
  | stop | restart | kill | remove | composeStop | composeRestart | composeDown | composeUp
  deriving DecidableEq

def DockerActionKind.value : DockerActionKind → String
  | stop => "stop"
  | restart => "restart"
  | kill => "kill"
  | remove => "remove"
  | composeStop => "compose_stop"
  | composeRestart => "compose_restart"
  | composeDown => "compose_down"
  | composeUp => "compose_up"

def DockerActionKind.containerCommand : DockerActionKind → Option String
  | stop => some "stop"
  | restart => some "restart"
  | kill => some "kill"
  | remove => some "rm"
  | _ => none

def DockerActionKind.composeCommand : DockerActionKind → List String
  | composeStop => ["stop"]
  | composeRestart => ["restart"]
  | composeDown => ["down"]
  | composeUp => ["up", "-d"]
  | _ => []

structure DockerActionRequest where
  projectId : String
  targetId : String
  service : String
  action : DockerActionKind
  container : Option String := none
  /-- `container_required_for_container_actions` -/
  named : container.isSome = action.containerCommand.isSome := by decide

inductive RemoteAction
  | shell (call : ShellExec)
  | docker (request : DockerActionRequest)

def RemoteAction.intent : RemoteAction → Intent
  | .shell call =>
    [("kind", .string "shell"),
      ("target_id", .string call.run.targetId),
      ("command", .string (String.ofList call.command)),
      ("service", .string call.service)]
  | .docker request =>
    [("kind", .string "docker_action"),
      ("target_id", .string request.targetId),
      ("service", .string request.service),
      ("action", .string request.action.value),
      ("container", match request.container with
        | some container => .string container
        | none => .null)]

open RemoteAction

/-- What the target is made to do: a line for a new shell, or an argument vector. -/
inductive RemoteCommand
  | line (text : Text)
  | argv (args : List String)

structure Effect where
  connection : TargetRegistration
  command : RemoteCommand

/-- `[&|;<>]` -/
def hasShellControlMetacharacters (command : Text) : Bool := command.any fun c => "&|;<>".toList.contains c

/-- `[\n\x00&|;<>]`, a backtick, or `$(`. -/
def isUnsafeCwd (cwd : Text) : Bool :=
  cwd.any (fun c => c = '\n' || c.toNat = 0 || c.toNat = 96 || "&|;<>".toList.contains c) ||
    cwd.tails.any fun rest => "$(".toList.isPrefixOf rest

def framedLine (command : Text) (cwd : Option SimplePath) : Text :=
  match cwd with
  | some cwd => "cd ".toList ++ shellQuote cwd.str.toList ++ " && ".toList ++ command
  | none => command

/-- The approved call from its checks to the shell; `evaluate` is the command policy. -/
def shellEffect (evaluate : ServiceRegistration → ShellExec → OperationRisk) (env : Surroundings)
    (call : ShellExec) : Option Effect := do
  let svc ← env.resolveService call.run.projectId call.run.targetId call.service
  let target ← env.resolveTarget call.run.projectId call.run.targetId
  if hasShellControlMetacharacters call.command then none
  else if call.cwd.any fun cwd => !allows call.run.allowedHostPaths cwd || isUnsafeCwd cwd.str.toList then none
  else if evaluate svc call = .forbidden then none
  else some ⟨env.connect target.toTargetRegistration, .line (framedLine call.command call.cwd)⟩

def projectNameArgs : Option String → List String
  | some name => if name = "" then [] else ["--project-name", name]
  | none => []

/-- `docker compose` of a target, up to the command. -/
def composeArgs (directory : String) (files : List String) (projectName : Option String) : List String :=
  ["docker", "compose", "--project-directory", directory] ++
    (files.flatMap (fun file => ["--file", file]) ++ projectNameArgs projectName)

/-- `_docker_argv` -/
def dockerArgv (request : DockerActionRequest) (svc : ServiceRegistration) (target : ComposeTarget) :
    Option (List String) :=
  match request.action.containerCommand, request.container with
  | some command, some container =>
    if container ∈ svc.containerNames then some ["docker", command, "--", container] else none
  | _, _ => target.composeWorkingDirectory.map fun directory =>
    composeArgs directory.str (target.composeFiles.map str) target.composeProjectName ++ request.action.composeCommand

def dockerEffect (env : Surroundings) (request : DockerActionRequest) : Option Effect := do
  let target ← env.resolveTarget request.projectId request.targetId
  let svc ← env.resolveService request.projectId request.targetId request.service
  let argv ← dockerArgv request svc target
  return ⟨env.connect target.toTargetRegistration, .argv argv⟩

/-- What an approved action makes its target do. -/
def RemoteAction.effect (evaluate : ServiceRegistration → ShellExec → OperationRisk) (env : Surroundings) :
    RemoteAction → Option Effect
  | .shell call => shellEffect evaluate env call
  | .docker request => dockerEffect env request

def RemoteAction.connection (env : Surroundings) : RemoteAction → Option TargetRegistration
  | .shell call => (env.resolveTarget call.run.projectId call.run.targetId).map fun t => env.connect t.toTargetRegistration
  | .docker request => (env.resolveTarget request.projectId request.targetId).map fun t => env.connect t.toTargetRegistration

/-- The compose project of a request's target. -/
def DockerActionRequest.compose (env : Surroundings) (request : DockerActionRequest) :
    Option (Option String × List String × Option String) :=
  (env.resolveTarget request.projectId request.targetId).map fun t =>
    (t.composeWorkingDirectory.map str, t.composeFiles.map str, t.composeProjectName.filter (· ≠ ""))

/-- What the intents leave open agrees: the connection, the directory of a shell command and the
compose project of a compose action. -/
def Agree (env env' : Surroundings) (a b : RemoteAction) : Prop :=
  a.connection env = b.connection env' ∧ match a, b with
    | .shell x, .shell y => x.cwd.map str = y.cwd.map str
    | .docker x, .docker y => x.action.containerCommand = none → x.compose env = y.compose env'
    | _, _ => True

lemma DockerActionKind.value_injective : Function.Injective DockerActionKind.value := by
  intro a b h
  cases a <;> cases b <;> first | rfl | (revert h; decide)

lemma framedLine_inj {command : Text} {cwd cwd' : Option SimplePath} :
    framedLine command cwd = framedLine command cwd' ↔ cwd.map str = cwd'.map str := by
  have hlonger : ∀ cwd : SimplePath, framedLine command (some cwd) ≠ command := by
    intro cwd h
    have hlength := congrArg length h
    simp only [framedLine, length_append] at hlength
    have hcd : "cd ".toList.length = 3 := by decide
    omega
  cases cwd with
  | none =>
    cases cwd' with
    | none => simp
    | some cwd' => simpa [framedLine] using (hlonger cwd').symm
  | some cwd =>
    cases cwd' with
    | none => simpa [framedLine] using hlonger cwd
    | some cwd' =>
      simp only [framedLine, map_some, some.injEq]
      constructor
      · intro h
        have hquote := append_cancel_left (append_cancel_right (append_cancel_right h))
        exact String.toList_inj.mp (shellQuote_injective hquote)
      · rintro h
        rw [h]

lemma composeFiles_inj {files files' : List String} {name name' : Option String} :
    files.flatMap (fun file => ["--file", file]) ++ projectNameArgs name =
      files'.flatMap (fun file => ["--file", file]) ++ projectNameArgs name' ↔
      files = files' ∧ name.filter (· ≠ "") = name'.filter (· ≠ "") := by
  have hname : ∀ name : Option String, projectNameArgs name =
      match name.filter (· ≠ "") with
      | some name => ["--project-name", name]
      | none => [] := by
    intro name
    cases name with
    | none => rfl
    | some name => by_cases h : name = "" <;> simp [projectNameArgs, Option.filter, h]
  rw [hname, hname]
  generalize name.filter (· ≠ "") = shown
  generalize name'.filter (· ≠ "") = shown'
  induction files generalizing files' with
  | nil =>
    cases files' with
    | nil => cases shown <;> cases shown' <;> simp
    | cons file' files' => cases shown <;> simp
  | cons file files ih =>
    cases files' with
    | nil => cases shown' <;> simp
    | cons file' files' => simp [ih, and_assoc]

lemma composeArgs_inj {directory directory' : String} {files files' : List String} {name name' : Option String} :
    composeArgs directory files name = composeArgs directory' files' name' ↔
      directory = directory' ∧ files = files' ∧ name.filter (· ≠ "") = name'.filter (· ≠ "") := by
  rw [← composeFiles_inj]
  simp [composeArgs]

section Two
variable {evaluate : ServiceRegistration → ShellExec → OperationRisk} {env env' : Surroundings}

lemma shellEffect_some {x : ShellExec} {e : Effect} (h : shellEffect evaluate env x = some e) :
    (shell x).connection env = some e.connection ∧ e.command = .line (framedLine x.command x.cwd) := by
  simp only [shellEffect, bind_eq_bind, bind_eq_some_iff, ite_none_left_eq_some, some.injEq] at h
  obtain ⟨svc, -, target, htarget, -, -, -, rfl⟩ := h
  exact ⟨by simp [connection, htarget], rfl⟩

variable {x : DockerActionRequest}

lemma dockerEffect_some {e : Effect} (h : dockerEffect env x = some e) :
    ∃ (target : ComposeTarget) (svc : ServiceRegistration) (argv : List String),
      env.resolveTarget x.projectId x.targetId = some target ∧ dockerArgv x svc target = some argv ∧
      e = ⟨env.connect target.toTargetRegistration, .argv argv⟩ := by
  simp only [dockerEffect, Option.bind_eq_bind, Option.bind_eq_some_iff, Option.pure_def, Option.some.injEq] at h
  obtain ⟨target, htarget, svc, -, argv, hargv, rfl⟩ := h
  exact ⟨target, svc, argv, htarget, hargv, rfl⟩

lemma dockerArgv_container {svc : ServiceRegistration} {target : ComposeTarget}
    {command : String} {argv : List String} (hcommand : x.action.containerCommand = some command)
    (h : dockerArgv x svc target = some argv) : argv = ["docker", command, "--", x.container.getD ""] := by
  have hnamed := x.named
  rw [hcommand, isSome_some, isSome_iff_exists] at hnamed
  obtain ⟨container, hcontainer⟩ := hnamed
  simp only [dockerArgv, hcommand, hcontainer, ite_none_right_eq_some, some.injEq] at h
  rw [← h.2, hcontainer]
  rfl

lemma dockerArgv_compose {svc : ServiceRegistration} {target : ComposeTarget}
    {argv : List String} (hcommand : x.action.containerCommand = none) (h : dockerArgv x svc target = some argv) :
    ∃ directory, target.composeWorkingDirectory = some directory ∧
      argv = composeArgs directory.str (target.composeFiles.map str) target.composeProjectName ++
        x.action.composeCommand := by
  simp only [dockerArgv, hcommand, map_eq_some_iff] at h
  obtain ⟨directory, hdirectory, rfl⟩ := h
  exact ⟨directory, hdirectory, rfl⟩

lemma shell_same_iff {x y : ShellExec} {e e' : Effect} (hcommand : x.command = y.command)
    (ha : shellEffect evaluate env x = some e) (hb : shellEffect evaluate env' y = some e') :
    e = e' ↔ Agree env env' (.shell x) (.shell y) := by
  obtain ⟨hx, hline⟩ := shellEffect_some ha
  obtain ⟨hy, hline'⟩ := shellEffect_some hb
  cases e with
  | mk connection command =>
    cases e' with
    | mk connection' command' =>
      simp only at hx hy hline hline'
      rw [Agree, hx, hy, Effect.mk.injEq, hline, hline', hcommand, RemoteCommand.line.injEq, framedLine_inj, some.injEq]

lemma docker_same_iff {x y : DockerActionRequest} {e e' : Effect} (haction : x.action = y.action)
    (hcontainer : x.container = y.container) (ha : dockerEffect env x = some e) (hb : dockerEffect env' y = some e') :
    e = e' ↔ Agree env env' (.docker x) (.docker y) := by
  obtain ⟨target, svc, argv, htarget, hargv, rfl⟩ := dockerEffect_some ha
  obtain ⟨target', svc', argv', htarget', hargv', rfl⟩ := dockerEffect_some hb
  simp only [Agree, connection, htarget, htarget', map_some, some.injEq, Effect.mk.injEq, RemoteCommand.argv.injEq]
  refine and_congr_right fun _ => ?_
  cases hcommand : x.action.containerCommand with
  | some command =>
    rw [dockerArgv_container hcommand hargv, dockerArgv_container (haction ▸ hcommand) hargv', hcontainer]
    simp
  | none =>
    obtain ⟨directory, hdirectory, rfl⟩ := dockerArgv_compose hcommand hargv
    obtain ⟨directory', hdirectory', rfl⟩ := dockerArgv_compose (haction ▸ hcommand) hargv'
    simp [haction, composeArgs_inj, DockerActionRequest.compose, htarget, htarget', hdirectory, hdirectory']

/-- Two actions that go by one intent do the same exactly when what the intent leaves open
agrees. -/
theorem effect_eq_iff {a b : RemoteAction} {e e' : Effect} (hintent : a.intent = b.intent)
    (ha : a.effect evaluate env = some e) (hb : b.effect evaluate env' = some e') : e = e' ↔ Agree env env' a b := by
  cases a with
  | shell x =>
    cases b with
    | shell y =>
      refine shell_same_iff ?_ ha hb
      simp only [intent, cons.injEq, Prod.mk.injEq, Json.string.injEq, true_and] at hintent
      exact String.ofList_injective hintent.2.1
    | docker y => simp [intent] at hintent
  | docker x =>
    cases b with
    | shell y => simp [intent] at hintent
    | docker y =>
      simp only [intent, cons.injEq, Prod.mk.injEq, Json.string.injEq, true_and] at hintent
      refine docker_same_iff (DockerActionKind.value_injective hintent.2.2.1) ?_ ha hb
      have hcontainer := hintent.2.2.2.1
      cases hx : x.container <;> cases hy : y.container <;> simp_all

end Two

section Directories

def prodTarget : ComposeTarget := { targetId := "prod", host := "prod.example", sshUser := "deploy" }

def prodSurroundings : Surroundings where
  projects id := if id = "app" then some ⟨[prodTarget], [{ composeService := "web" }]⟩ else none
  sessions _ := none

/-- `make clean` in a directory of the host. -/
def cleanIn (parts : List String) (simple : ".." ∉ parts) : RemoteAction :=
  .shell ⟨{ projectId := "app", targetId := "prod", scope := .host, identity := identity_host }, "web", "make clean".toList,
    some ⟨.single, parts, simple⟩⟩

def cleanBuild : RemoteAction := cleanIn ["srv", "build"] (by decide)

def cleanData : RemoteAction := cleanIn ["srv", "data"] (by decide)

def askFirst (_ : ServiceRegistration) (_ : ShellExec) : OperationRisk := .approvalRequired

theorem effect_eq_iff_clean : ∃ e e', cleanBuild.effect askFirst prodSurroundings = some e ∧
    cleanData.effect askFirst prodSurroundings = some e' ∧
    (e = e' ↔ Agree prodSurroundings prodSurroundings cleanBuild cleanData) := by
  have hbuild : cleanBuild.effect askFirst prodSurroundings = some _ := rfl
  have hdata : cleanData.effect askFirst prodSurroundings = some _ := rfl
  exact ⟨_, _, hbuild, hdata, effect_eq_iff rfl hbuild hdata⟩

theorem cleaned_elsewhere : ¬ ∀ evaluate env env' a b e e', intent a = intent b →
    a.effect evaluate env = some e → b.effect evaluate env' = some e' → e = e' := by
  intro hall
  have hsame := hall askFirst prodSurroundings prodSurroundings cleanBuild cleanData _ _
    rfl rfl rfl
  exact absurd (RemoteCommand.line.inj (congrArg Effect.command hsame)) (by decide)

end Directories
end IncidentLens.RemoteOps
