import IncidentLens.Effects.Runs
import IncidentLens.Investigations.Segments

/-!
# The runs a delegation starts

The provider names the run of the child it delegates to. A run that has the name already is
not created again, and the loop of the delegation is started on it, whosever run it is.
-/
namespace IncidentLens.Investigations
open Data Effects StateError List RunIdentity

/-- The stored runs stay stored, as what they are. -/
def Keeps (db db' : Database) : Prop :=
  ∀ id r, db.runs.get id = some r → ∃ r', db'.runs.get id = some r' ∧ r'.identity = r.identity

/-- The local variables of a loop that delegates. -/
structure Delegating (db : Database) (run : AgentRun) (investigation : Investigation) : Prop where
  stored : ∃ r, db.runs.get run.agentRunId = some r ∧ r.identity = run.identity
  own : investigation.investigationId = run.investigationId

/-- The run a package names was created for it, and belongs to the run that delegates. -/
structure Created (me : RunIdentity) (db db' : Database) (package : DelegatedTaskPackage) : Prop where
  absent : db.runs.get package.childRunId = none
  child : ∃ r, db'.runs.get package.childRunId = some r ∧ r.parentRunId = some me.agentRunId ∧
    r.investigationId = me.investigationId

/-- What a delegation to `childRunId` answers in `db` and leaves behind. -/
structure AdoptsNone (me : RunIdentity) (childRunId : String) (db : Database)
    (result : Except Raised (Bool × Spawned)) (db' : Database) : Prop where
  created : ∀ stop spawned, result = .ok (stop, spawned) → ∀ package ∈ spawned.2, Created me db db' package
  refused : db.runs.get childRunId ≠ none → ∀ spawned, result ≠ .ok (false, spawned)

/-- A delegation that is refused, or names a run that does not exist. -/
def Novel (h : Harness) (db : Database) (run : AgentRun) (investigation : Investigation)
    (request : ChildDelegationRequest) : Prop :=
  (∃ rejected, h.prepare run investigation request = .error rejected) ∨ db.runs.get request.childRunId = none

section
variable {db db' : Database} {me : RunIdentity} {run : AgentRun} {investigation : Investigation}
  {package : DelegatedTaskPackage} {h : Harness} {request : ChildDelegationRequest}

lemma Keeps.refl (db : Database) : Keeps db db := fun _ r hr => ⟨r, hr, rfl⟩

lemma Keeps.trans {db'' : Database} (h : Keeps db db') (h' : Keeps db' db'') : Keeps db db'' := by
  intro id r hr
  obtain ⟨r', hr', hsame⟩ := h id r hr
  obtain ⟨r'', hr'', hsame'⟩ := h' id r' hr'
  exact ⟨r'', hr'', hsame'.trans hsame⟩

lemma Keeps.of_runs (hruns : db'.runs = db.runs) : Keeps db db' := by
  intro id r hr
  exact ⟨r, by rw [hruns, hr], rfl⟩

lemma Keeps.of_touches {k : Extent} {ids : List String}
    (hme : ∃ r, db.runs.get me.agentRunId = some r ∧ r.identity = me)
    (h : Relation.ReflTransGen (Touch k me ids) db db') : Keeps db db' := by
  have hrun : ∃ r, db'.runs.get me.agentRunId = some r ∧ r.identity = me := by
    induction h with
    | refl => exact hme
    | tail _ hstep ih => exact hstep.run ih
  intro id r hr
  by_cases hid : id = me.agentRunId
  · obtain ⟨r₀, hr₀, hsame₀⟩ := hme
    obtain ⟨r', hr', hsame'⟩ := hrun
    subst hid
    obtain rfl := Option.some.inj (hr.symm.trans hr₀)
    exact ⟨r', hr', hsame'.trans hsame₀.symm⟩
  · exact ⟨r, (aside_of_touches h).runs id r hid hr, rfl⟩

lemma Harness.ids_of_prepare (hprepare : h.prepare run investigation request = .ok package) :
    package.childRunId = request.childRunId ∧ package.parentRunId = run.agentRunId ∧
      package.investigationId = run.investigationId := by
  unfold Harness.prepare at hprepare
  dsimp only at hprepare
  split_ifs at hprepare
  cases hbudget : h.boundedBudget run request with
  | error rejected =>
    rw [hbudget] at hprepare
    cases hprepare
  | ok budget =>
    rw [hbudget] at hprepare
    cases hprepare
    exact ⟨rfl, rfl, rfl⟩

/-! ### One package -/

/-- The loops a spawning starts, and what it leaves of the stored runs. -/
structure SpawnsOwn (me : RunIdentity) (db : Database) (before : List DelegatedTaskPackage)
    (result : Except Raised Spawned) (db' : Database) : Prop where
  keeps : Keeps db db'
  started : ∀ spawned, result = .ok spawned → spawned.2 = before ∨
    ∃ package, spawned.2 = before ++ [package] ∧ Created me db db' package

lemma spawnChildFromPackage_fresh {parent r : AgentRun} (hrow : db.runs.get package.parentRunId = some r)
    (hfresh : db.runs.get package.childRunId = none) (spawned : Spawned) :
    wp (spawnChildFromPackage parent package spawned) (SpawnsOwn r.identity db spawned.2) db := by
  have hkind : (buildChildRun package parent).kind = .child := rfl
  have hparent : (buildChildRun package parent).parentRunId = some package.parentRunId := rfl
  have hid : (buildChildRun package parent).agentRunId = package.childRunId := rfl
  simp only [spawnChildFromPackage, createAgentRun, wp_bind, wp_tryCatch, wp_get, hkind, hparent,
    Option.bind_some, hrow, if_true]
  by_cases hinv : r.investigationId = (buildChildRun package parent).investigationId
  · simp only [hinv, ne_eq, not_true_eq_false, if_false, hid, hfresh, wp_modify]
    have hput : (db.runs.put (buildChildRun package parent)).get package.childRunId =
        some (buildChildRun package parent) := Table.get_put_self _ _
    have hkeeps : Keeps db { db with
        runs := db.runs.put (buildChildRun package parent)
        runIds := db.runIds ++ [package.childRunId] } := by
      intro id s hs
      refine ⟨s, ?_, rfl⟩
      rw [Table.get_put_of_ne _ (by rintro rfl; rw [hid, hfresh] at hs; cases hs), hs]
    split_ifs with hpending
    · exact ⟨hkeeps, fun _ h => .inl (by cases h; rfl)⟩
    · refine ⟨hkeeps, fun _ h => .inr ⟨package, by cases h; rfl, hfresh, _, hput, ?_, hinv.symm⟩⟩
      rw [hparent]
      exact congrArg some (db.runs.keyed _ _ hrow).symm
  · simp only [hinv, ne_eq, not_false_eq_true, if_true]
    exact ⟨.refl db, fun _ h => by cases h⟩

lemma spawnChildFromPackage_existing_started {parent child : AgentRun}
    (hchild : db.runs.get package.childRunId = some child) (spawned : Spawned) :
    wp (spawnChildFromPackage parent package spawned) (fun result db' => db' = db ∧
      ∀ spawned', result = .ok spawned' → spawned'.2 = spawned.2 ∨ spawned'.2 = spawned.2 ++ [package]) db := by
  rw [spawnChildFromPackage, wp_bind, wp_tryCatch]
  refine wp_mono (createAgentRun_existing (r := buildChildRun package parent) hchild) ?_
  rintro result db' ⟨rfl, e, rfl⟩
  dsimp only
  split
  · simp only [wp_pure]
    split_ifs
    · exact ⟨rfl, fun _ hok => .inl (by cases hok; rfl)⟩
    · exact ⟨rfl, fun _ hok => .inr (by cases hok; rfl)⟩
  · exact ⟨rfl, fun _ hok => by cases hok⟩

lemma spawnChildFromPackage_taken {parent r child : AgentRun}
    (hrow : db.runs.get package.parentRunId = some r) (hinv : r.investigationId = package.investigationId)
    (htaken : db.runs.get package.childRunId = some child) (spawned : Spawned) :
    wp (spawnChildFromPackage parent package spawned) (fun result db' => db' = db ∧ result = .ok
      (if spawned.1.contains package.childRunId then spawned
       else (spawned.1 ++ [package.childRunId], spawned.2 ++ [package]))) db := by
  have hkind : (buildChildRun package parent).kind = .child := rfl
  have hparent : (buildChildRun package parent).parentRunId = some package.parentRunId := rfl
  have hid : (buildChildRun package parent).agentRunId = package.childRunId := rfl
  have hsame : (buildChildRun package parent).investigationId = package.investigationId := rfl
  simp only [spawnChildFromPackage, createAgentRun, wp_bind, wp_tryCatch, wp_get, hkind, hparent,
    Option.bind_some, hrow, if_true, hsame, hinv, ne_eq, not_true_eq_false, if_false, hid, htaken, wp_throw,
    wp_pure]
  split_ifs <;> exact ⟨rfl, rfl⟩

/-! ### One delegation -/

lemma delegateChild_rejected {rejected : DelegationRejected} (hd : Delegating db run investigation)
    (hprepare : h.prepare run investigation request = .error rejected) (spawned : Spawned) (now : Time) :
    wp (delegateChild h run investigation request spawned now) (fun result db' => Keeps db db' ∧
      ∀ stop spawned', result = .ok (stop, spawned') → stop = true ∧ spawned' = spawned) db := by
  have hstop : ∀ {m : DatabaseM PUnit}, wp m (fun _ db' => Keeps db db') db →
      wp (m >>= fun _ => pure (true, spawned)) (fun result db' => Keeps db db' ∧
        ∀ stop spawned', result = .ok (stop, spawned') → stop = true ∧ spawned' = spawned) db := by
    intro m hm
    rw [wp_bind]
    refine wp_mono hm ?_
    intro r db' hkeeps
    cases r with
    | ok => exact ⟨hkeeps, fun _ _ heq => by cases heq; exact ⟨rfl, rfl⟩⟩
    | error e => exact ⟨hkeeps, fun _ _ heq => by cases heq⟩
  have hholds : Holds run.identity [] db := ⟨hd.stored, by simp⟩
  have hfail : wp (failRun run investigation now) (fun _ db' => Keeps db db') db :=
    wp_mono (walks_failRun rfl hd.own now db hholds) fun _ _ ht => Keeps.of_touches hd.stored ht.1
  have hpause : ∀ (status : AgentRunStatus) (reason : StopReason),
      agentRunStateMachine.isTerminal status = false →
      wp (pauseRun run investigation status reason now) (fun _ db' => Keeps db db') db :=
    fun status reason hopen =>
      wp_mono (walks_pauseRun (k := .ending) (by decide) rfl hd.own hopen reason now db hholds)
        fun _ _ ht => Keeps.of_touches hd.stored ht.1
  unfold delegateChild
  rw [hprepare]
  dsimp only
  split_ifs
  · exact hstop hfail
  · exact hstop (hpause _ _ rfl)
  · exact hstop (hpause _ _ rfl)
  · exact hstop hfail

lemma createDelegatedTask_own {r : AgentRun} (hrow : db.runs.get package.parentRunId = some r)
    (hinv : r.investigationId = package.investigationId) :
    wp (createDelegatedTask package) (fun result db' => db'.toStore = db.toStore ∧
      (result = .ok ⟨⟩ ∨ ∃ id, result = .error (.store (.alreadyExists id)))) db := by
  simp only [createDelegatedTask, wp_bind, wp_get, hrow, hinv, ne_eq, not_true_eq_false, if_false]
  cases db.delegatedTasks.get package.childRunId with
  | none => exact ⟨rfl, .inl rfl⟩
  | some _ => exact ⟨rfl, .inr ⟨_, rfl⟩⟩

lemma delegateChild_accepted {Q : Except Raised (Bool × Spawned) → Database → Prop} {spawned : Spawned}
    {now : Time} (hd : Delegating db run investigation) (hprepare : h.prepare run investigation request = .ok package)
    (hspawn : ∀ db₁, db₁.runs = db.runs → wp (spawnChildFromPackage run package spawned)
      (fun r db' => Q (r.map fun s => (false, s)) db') db₁)
    (hraise : db.investigations.get run.investigationId = none → ∀ e db₁, db₁.runs = db.runs → Q (.error e) db₁) :
    wp (delegateChild h run investigation request spawned now) Q db := by
  obtain ⟨hchild, hparent, hinv⟩ := Harness.ids_of_prepare hprepare
  obtain ⟨r, hr, hsame⟩ := hd.stored
  have hown : r.investigationId = run.investigationId := congrArg investigationId hsame
  have hrest : ∀ db₁, db₁.toStore = db.toStore → wp (do
      let investigation ← onStore (getInvestigation run.investigationId)
      onStore (updateInvestigation { investigation with usage := { investigation.usage with
        children := investigation.usage.children + 1 } })
      let spawned ← spawnChildFromPackage run package spawned
      return (false, spawned)) Q db₁ := by
    intro db₁ hstore
    rw [wp_bind, wp_getInvestigation, hstore]
    cases hrow : db.investigations.get run.investigationId with
    | none => exact hraise hrow _ _ (by rw [hstore])
    | some i =>
      have hkey : i.investigationId = run.investigationId := db.investigations.keyed _ _ hrow
      dsimp only
      rw [wp_bind, wp_updateInvestigation]
      dsimp only
      rw [hstore, hkey, hrow]
      simp only [if_true]
      rw [wp_bind]
      refine wp_mono (hspawn _ ?_) ?_
      · rw [Database.withInvestigation_runs, hstore]
      · intro r db' hQ
        cases r <;> exact hQ
  have hrow : db.runs.get package.parentRunId = some r := by rw [hparent, hr]
  unfold delegateChild
  rw [hprepare]
  dsimp only
  rw [wp_bind, wp_tryCatch]
  refine wp_mono (createDelegatedTask_own hrow (hown.trans hinv.symm)) ?_
  rintro result db₁ ⟨hstore, rfl | ⟨id, rfl⟩⟩
  · exact hrest db₁ hstore
  · exact hrest db₁ hstore

lemma delegateChild_fresh (hd : Delegating db run investigation)
    (hprepare : h.prepare run investigation request = .ok package)
    (hfresh : db.runs.get request.childRunId = none) (pending : List String) (now : Time) :
    wp (delegateChild h run investigation request (pending, []) now) (fun result db' => Keeps db db' ∧
      ∀ stop spawned, result = .ok (stop, spawned) → spawned.2 = [] ∨
        ∃ package, spawned.2 = [package] ∧ Created run.identity db db' package) db := by
  obtain ⟨hchild, hparent, -⟩ := Harness.ids_of_prepare hprepare
  obtain ⟨r, hr, hsame⟩ := hd.stored
  refine delegateChild_accepted hd hprepare (fun db₁ hruns => ?_) ?_
  · have hrow : db₁.runs.get package.parentRunId = some r := by rw [hruns, hparent, hr]
    have habsent : db₁.runs.get package.childRunId = none := by rw [hruns, hchild, hfresh]
    refine wp_mono (spawnChildFromPackage_fresh hrow habsent (pending, [])) ?_
    intro result db' hs
    refine ⟨(Keeps.of_runs hruns).trans hs.keeps, ?_⟩
    intro stop spawned hok
    cases result with
    | error e => cases hok
    | ok s =>
      cases hok
      refine (hs.started _ rfl).imp id ?_
      rintro ⟨package, hpackages, hcreated⟩
      exact ⟨package, hpackages, by rw [← hruns, hcreated.absent], by rw [← hsame]; exact hcreated.child⟩
  · intro _ e db₁ hruns
    exact ⟨Keeps.of_runs hruns, fun _ _ hok => by cases hok⟩

lemma delegateChild_taken {i : Investigation} {child : AgentRun} (hd : Delegating db run investigation)
    (hi : db.investigations.get run.investigationId = some i)
    (hprepare : h.prepare run investigation request = .ok package)
    (htaken : db.runs.get request.childRunId = some child) (pending : List String) (now : Time) :
    wp (delegateChild h run investigation request (pending, []) now)
      (fun result _ => ∃ spawned, result = .ok (false, spawned)) db := by
  obtain ⟨hchild, hparent, hinv⟩ := Harness.ids_of_prepare hprepare
  obtain ⟨r, hr, hsame⟩ := hd.stored
  refine delegateChild_accepted hd hprepare (fun db₁ hruns => ?_) ?_
  · have hrow : db₁.runs.get package.parentRunId = some r := by rw [hruns, hparent, hr]
    have hown : r.investigationId = package.investigationId := (congrArg investigationId hsame).trans hinv.symm
    have hexists : db₁.runs.get package.childRunId = some child := by rw [hruns, hchild, htaken]
    refine wp_mono (spawnChildFromPackage_taken hrow hown hexists (pending, [])) ?_
    rintro result db' ⟨-, rfl⟩
    exact ⟨_, rfl⟩
  · intro hnone
    rw [hnone] at hi
    cases hi

lemma adoptsNone_iff {i : Investigation} (hd : Delegating db run investigation)
    (hi : db.investigations.get run.investigationId = some i) (pending : List String) (now : Time) :
    wp (delegateChild h run investigation request (pending, []) now)
        (AdoptsNone run.identity request.childRunId db) db ↔ Novel h db run investigation request := by
  cases hprepare : h.prepare run investigation request with
  | error rejected =>
    refine iff_of_true ?_ (.inl ⟨rejected, hprepare⟩)
    refine wp_mono (delegateChild_rejected hd hprepare (pending, []) now) ?_
    rintro result db' ⟨-, hstop⟩
    constructor
    · intro stop spawned hok package hpackage
      obtain ⟨-, rfl⟩ := hstop stop spawned hok
      cases hpackage
    · rintro - spawned hok
      cases (hstop _ _ hok).1
  | ok package =>
    have hnovel : Novel h db run investigation request ↔ db.runs.get request.childRunId = none := by
      refine or_iff_right ?_
      rintro ⟨rejected, herror⟩
      rw [hprepare] at herror
      cases herror
    rw [hnovel]
    cases hrow : db.runs.get request.childRunId with
    | none =>
      refine iff_of_true ?_ rfl
      refine wp_mono (delegateChild_fresh hd hprepare hrow pending now) ?_
      rintro result db' ⟨-, hstarted⟩
      refine ⟨fun stop spawned hok package hpackage => ?_, fun htaken => absurd hrow htaken⟩
      rcases hstarted stop spawned hok with hnone | ⟨started, hone, hcreated⟩
      · rw [hnone] at hpackage
        cases hpackage
      · rw [hone, mem_singleton] at hpackage
        rw [hpackage]
        exact hcreated
    | some child =>
      refine iff_of_false ?_ (by simp)
      intro hadopts
      obtain ⟨spawned, hok⟩ := delegateChild_taken hd hi hprepare hrow pending now
      exact hadopts.refused (by rw [hrow]; simp) spawned hok

end

/-! ### Loops side by side -/

/-- A loop in execution: its run, the children it waits for, and the run that delegated to it. -/
structure LiveLoop where
  agentRunId : String
  pendingChildren : List String := []
  delegatedBy : Option RunIdentity := none

structure Orchestration where
  db : Database
  loops : List LiveLoop := []

namespace Orchestration

def executing (s : Orchestration) : List String := s.loops.map (·.agentRunId)

/-- Spawning by the loop at `i`: what it spawned runs beside it. -/
def spawn (s : Orchestration) (i : ℕ) (loop : LiveLoop) (delegatedBy : Option RunIdentity)
    (m : DatabaseM Spawned) : Orchestration :=
  match m.exec s.db with
  | (.ok spawned, db) =>
    ⟨db, s.loops.set i { loop with pendingChildren := spawned.1 } ++
      spawned.2.map fun package => ⟨package.childRunId, [], delegatedBy⟩⟩
  | (.error _, db) => ⟨db, s.loops⟩

end Orchestration

/-- `launch` and `relaunch` are one round of `_spawn_delegated_packages` and of
`_resume_waiting_children`; `enter` starts or resumes a run from outside, and `write` is
whatever else is written. -/
inductive LoopMove
  | delegate (i : ℕ) (run : AgentRun) (investigation : Investigation) (request : ChildDelegationRequest) (now : Time)
  | launch (i : ℕ) (run : AgentRun) (package : DelegatedTaskPackage)
  | relaunch (i : ℕ) (run child : AgentRun)
  | enter (agentRunId : String)
  | settle (i : ℕ) (pendingChildren : List String)
  | leave (i : ℕ)
  | write (db : Database)

namespace Orchestration

/-- The loop at `i`, when `run` is its run as it was read at some time. -/
def loopOf (s : Orchestration) (i : ℕ) (run : AgentRun) : Option LiveLoop := do
  let loop ← s.loops[i]?
  let stored ← s.db.runs.get loop.agentRunId
  if run.identity = stored.identity then some loop else none

def step (h : Harness) (s : Orchestration) : LoopMove → Option Orchestration
  | .delegate i run investigation request now => do
    let loop ← s.loopOf i run
    if investigation.investigationId = run.investigationId then
      some (s.spawn i loop (some run.identity)
        (Prod.snd <$> delegateChild h run investigation request (loop.pendingChildren, []) now))
    else none
  | .launch i run package => do
    let loop ← s.loopOf i run
    if package ∈ listDelegatedTasks s.db run.agentRunId ∧ package.childRunId ∉ loop.pendingChildren ∧
        (s.db.runs.get package.childRunId).isNone then
      some (s.spawn i loop (some run.identity) (spawnChildFromPackage run package (loop.pendingChildren, [])))
    else none
  | .relaunch i run child => do
    let loop ← s.loopOf i run
    let package ← s.db.delegatedTasks.get child.agentRunId
    if child ∈ listChildren s.db run.agentRunId ∧ agentRunStateMachine.isTerminal child.status = false then
      some (s.spawn i loop none (spawnChildFromPackage run package (loop.pendingChildren, [])))
    else none
  | .enter agentRunId =>
    if (s.db.runs.get agentRunId).isSome then some { s with loops := s.loops ++ [⟨agentRunId, [], none⟩] }
    else none
  | .settle i pendingChildren => do
    let loop ← s.loops[i]?
    if pendingChildren.all loop.pendingChildren.contains then
      some { s with loops := s.loops.set i { loop with pendingChildren := pendingChildren } }
    else none
  | .leave i => some { s with loops := s.loops.eraseIdx i }
  | .write db => some { s with db := db }

end Orchestration

/-- The loops that a process starts over the runs of `db`. -/
def orchestrating (h : Harness) (db : Database) : System Orchestration LoopMove where
  init := ⟨db, []⟩
  step := Orchestration.step h

/-- Delegations are novel, and what is started or resumed otherwise is not in execution. -/
def NovelMove (h : Harness) (s : Orchestration) : LoopMove → Prop
  | .delegate _ run investigation request _ => Novel h s.db run investigation request
  | .relaunch _ _ child => child.agentRunId ∉ s.executing
  | .enter agentRunId => agentRunId ∉ s.executing
  | .write db => Keeps s.db db
  | _ => True

/-- No run is executed twice, and a loop that was delegated executes a child of the run that
delegated. -/
structure Apart (s : Orchestration) : Prop where
  once : s.executing.Nodup
  stored : ∀ loop ∈ s.loops, ∃ r, s.db.runs.get loop.agentRunId = some r
  own : ∀ loop ∈ s.loops, ∀ me, loop.delegatedBy = some me → ∃ r, s.db.runs.get loop.agentRunId = some r ∧
    r.parentRunId = some me.agentRunId ∧ r.investigationId = me.investigationId

section
variable {h : Harness} {s t : Orchestration} {loop : LiveLoop} {i : ℕ} {run : AgentRun}

lemma Apart.keeps (hs : Apart s) {db : Database} (hkeeps : Keeps s.db db) : Apart { s with db := db } := by
  refine ⟨hs.once, fun loop hloop => ?_, fun loop hloop me hme => ?_⟩
  · obtain ⟨r, hr⟩ := hs.stored loop hloop
    obtain ⟨r', hr', -⟩ := hkeeps _ r hr
    exact ⟨r', hr'⟩
  · obtain ⟨r, hr, hparent, hinv⟩ := hs.own loop hloop me hme
    obtain ⟨r', hr', hsame⟩ := hkeeps _ r hr
    exact ⟨r', hr', (congrArg parentRunId hsame).trans hparent, (congrArg investigationId hsame).trans hinv⟩

lemma executing_setPending (hloop : s.loops[i]? = some loop) (db : Database) (pendingChildren : List String) :
    Orchestration.executing ⟨db, s.loops.set i { loop with pendingChildren := pendingChildren }⟩ = s.executing := by
  simp only [Orchestration.executing, map_set]
  refine ext_getElem? fun j => ?_
  rw [getElem?_set, getElem?_map, length_map]
  split_ifs with hj hlt
  · subst hj
    rw [hloop]
    rfl
  · subst hj
    rw [getElem?_eq_none (by omega)] at hloop
    cases hloop
  · rfl

lemma Apart.setPending (hs : Apart s) (hloop : s.loops[i]? = some loop) (pendingChildren : List String) :
    Apart { s with loops := s.loops.set i { loop with pendingChildren := pendingChildren } } := by
  have hof : ∀ l ∈ s.loops.set i { loop with pendingChildren := pendingChildren }, ∃ l' ∈ s.loops,
      l.agentRunId = l'.agentRunId ∧ l.delegatedBy = l'.delegatedBy := by
    intro l hl
    rcases mem_or_eq_of_mem_set hl with hl | rfl
    · exact ⟨l, hl, rfl, rfl⟩
    · exact ⟨loop, mem_of_getElem? hloop, rfl, rfl⟩
  refine ⟨?_, fun l hl => ?_, fun l hl me hme => ?_⟩
  · rw [executing_setPending hloop]
    exact hs.once
  · obtain ⟨l', hl', hid, -⟩ := hof l hl
    rw [hid]
    exact hs.stored l' hl'
  · obtain ⟨l', hl', hid, hby⟩ := hof l hl
    rw [hid]
    exact hs.own l' hl' me (hby ▸ hme)

lemma Apart.append (hs : Apart s) {new : LiveLoop} {r : AgentRun} (hnew : new.agentRunId ∉ s.executing)
    (hr : s.db.runs.get new.agentRunId = some r)
    (hown : ∀ me, new.delegatedBy = some me →
      r.parentRunId = some me.agentRunId ∧ r.investigationId = me.investigationId) :
    Apart { s with loops := s.loops ++ [new] } := by
  refine ⟨?_, fun loop hloop => ?_, fun loop hloop me hme => ?_⟩
  · simp only [Orchestration.executing, map_append, map_cons, map_nil]
    refine List.Nodup.append hs.once (nodup_singleton _) ?_
    intro id hid hid'
    rw [mem_singleton] at hid'
    exact hnew (hid' ▸ hid)
  · rcases mem_append.mp hloop with hloop | hloop
    · exact hs.stored loop hloop
    · rw [mem_singleton.mp hloop]
      exact ⟨r, hr⟩
  · rcases mem_append.mp hloop with hloop | hloop
    · exact hs.own loop hloop me hme
    · rw [mem_singleton.mp hloop] at hme ⊢
      exact ⟨r, hr, hown me hme⟩

lemma Apart.spawn (hs : Apart s) (hloop : s.loops[i]? = some loop) {delegatedBy : Option RunIdentity}
    {m : DatabaseM Spawned}
    (hm : wp m (fun result db' => Keeps s.db db' ∧ ∀ spawned, result = .ok spawned → spawned.2 = [] ∨
      ∃ package r, spawned.2 = [package] ∧ package.childRunId ∉ s.executing ∧
        db'.runs.get package.childRunId = some r ∧ ∀ me, delegatedBy = some me →
          r.parentRunId = some me.agentRunId ∧ r.investigationId = me.investigationId) s.db) :
    Apart (s.spawn i loop delegatedBy m) := by
  unfold wp at hm
  unfold Orchestration.spawn
  rcases hexec : m.exec s.db with ⟨e | spawned, db⟩
  · rw [hexec] at hm
    exact hs.keeps hm.1
  · rw [hexec] at hm
    obtain ⟨hkeeps, hstarted⟩ := hm
    have hset := (hs.keeps hkeeps).setPending hloop spawned.1
    rcases hstarted spawned rfl with hnone | ⟨package, r, hone, hnew, hr, hown⟩
    · simp only [hnone, map_nil, append_nil]
      exact hset
    · simp only [hone, map_cons, map_nil]
      refine hset.append ?_ hr hown
      rw [executing_setPending hloop]
      exact hnew

lemma loopOf_eq_some (h : s.loopOf i run = some loop) :
    s.loops[i]? = some loop ∧ ∃ r, s.db.runs.get run.agentRunId = some r ∧ r.identity = run.identity := by
  obtain ⟨found, hfound, h⟩ := Option.bind_eq_some_iff.mp h
  obtain ⟨stored, hstored, h⟩ := Option.bind_eq_some_iff.mp h
  split_ifs at h with hsame
  cases h
  refine ⟨hfound, stored, ?_, hsame.symm⟩
  have hid : run.agentRunId = stored.agentRunId := congrArg agentRunId hsame
  rw [hid, s.db.runs.get_key hstored]

lemma Apart.not_executing (hs : Apart s) {id : String} (habsent : s.db.runs.get id = none) : id ∉ s.executing := by
  intro hid
  obtain ⟨loop, hloop, rfl⟩ := mem_map.mp hid
  obtain ⟨r, hr⟩ := hs.stored loop hloop
  rw [habsent] at hr
  cases hr

lemma Apart.step {move : LoopMove} (hs : Apart s) (hmove : NovelMove h s move) (hstep : s.step h move = some t) :
    Apart t := by
  cases move with
  | delegate i run investigation request now =>
    obtain ⟨loop, hloop, hstep⟩ := Option.bind_eq_some_iff.mp hstep
    obtain ⟨hget, hrow⟩ := loopOf_eq_some hloop
    split_ifs at hstep with hown
    cases hstep
    refine hs.spawn hget ?_
    rw [wp_map]
    have hd : Delegating s.db run investigation := ⟨hrow, hown⟩
    rcases hprepare : h.prepare run investigation request with rejected | package
    · refine wp_mono (delegateChild_rejected hd hprepare (loop.pendingChildren, []) now) ?_
      rintro result db' ⟨hkeeps, hstop⟩
      cases result with
      | error e => exact ⟨hkeeps, fun _ hok => by cases hok⟩
      | ok a =>
        refine ⟨hkeeps, fun spawned hok => .inl ?_⟩
        cases hok
        rw [(hstop a.1 a.2 rfl).2]
    · have habsent : s.db.runs.get request.childRunId = none := by
        rcases hmove with ⟨rejected, herror⟩ | habsent
        · rw [hprepare] at herror
          cases herror
        · exact habsent
      refine wp_mono (delegateChild_fresh hd hprepare habsent loop.pendingChildren now) ?_
      rintro result db' ⟨hkeeps, hstarted⟩
      cases result with
      | error e => exact ⟨hkeeps, fun _ hok => by cases hok⟩
      | ok a =>
        refine ⟨hkeeps, fun spawned hok => ?_⟩
        cases hok
        refine (hstarted a.1 a.2 rfl).imp id ?_
        rintro ⟨package, hone, hcreated⟩
        obtain ⟨r, hr, hparent, hinv⟩ := hcreated.child
        refine ⟨package, r, hone, hs.not_executing hcreated.absent, hr, ?_⟩
        rintro me ⟨⟩
        exact ⟨hparent, hinv⟩
  | launch i run package =>
    obtain ⟨loop, hloop, hstep⟩ := Option.bind_eq_some_iff.mp hstep
    obtain ⟨hget, r, hr, hsame⟩ := loopOf_eq_some hloop
    split_ifs at hstep with hguard
    cases hstep
    obtain ⟨hlisted, -, habsent⟩ := hguard
    have hparent : package.parentRunId = run.agentRunId := by simpa using (mem_filter.mp hlisted).2
    refine hs.spawn hget ?_
    refine wp_mono (spawnChildFromPackage_fresh (hparent ▸ hr) (Option.isNone_iff_eq_none.mp habsent) _) ?_
    intro result db' hspawns
    refine ⟨hspawns.keeps, fun spawned hok => ?_⟩
    refine (hspawns.started spawned hok).imp id ?_
    rintro ⟨started, hone, hcreated⟩
    obtain ⟨child, hchild, hby, hinv⟩ := hcreated.child
    refine ⟨started, child, hone, hs.not_executing hcreated.absent, hchild, ?_⟩
    rintro me ⟨⟩
    rw [← hsame]
    exact ⟨hby, hinv⟩
  | relaunch i run child =>
    obtain ⟨loop, hloop, hstep⟩ := Option.bind_eq_some_iff.mp hstep
    obtain ⟨package, hpackage, hstep⟩ := Option.bind_eq_some_iff.mp hstep
    obtain ⟨hget, -⟩ := loopOf_eq_some hloop
    split_ifs at hstep with hguard
    cases hstep
    have hid : package.childRunId = child.agentRunId := s.db.delegatedTasks.keyed _ _ hpackage
    have hrow : s.db.runs.get package.childRunId = some child := by
      rw [hid]
      exact get_of_mem_listAgentRuns (mem_of_mem_filter hguard.1)
    refine hs.spawn hget ?_
    refine wp_mono (spawnChildFromPackage_existing_started hrow (loop.pendingChildren, [])) ?_
    rintro result db' ⟨rfl, hstarted⟩
    refine ⟨.refl _, fun spawned hok => (hstarted spawned hok).imp id fun hone => ?_⟩
    exact ⟨package, child, hone, hid ▸ hmove, hrow, fun me hme => by cases hme⟩
  | enter agentRunId =>
    simp only [Orchestration.step] at hstep
    split_ifs at hstep with hstored
    cases hstep
    obtain ⟨r, hr⟩ := Option.isSome_iff_exists.mp hstored
    exact hs.append hmove hr fun me hme => by cases hme
  | settle i pendingChildren =>
    obtain ⟨loop, hloop, hstep⟩ := Option.bind_eq_some_iff.mp hstep
    split_ifs at hstep
    cases hstep
    exact hs.setPending hloop pendingChildren
  | leave i =>
    cases hstep
    have hsub : (s.loops.eraseIdx i).Sublist s.loops := eraseIdx_sublist _ _
    exact ⟨hs.once.sublist (hsub.map _), fun loop hloop => hs.stored loop (hsub.subset hloop),
      fun loop hloop => hs.own loop (hsub.subset hloop)⟩
  | write db =>
    cases hstep
    exact hs.keeps hmove

end

/-- A delegation starts its own child alone exactly when it is refused or its name is new; where
all delegations are, no run is ever executed twice. -/
theorem delegation_adopts_none_iff (h : Harness) :
    (∀ (db : Database) (run : AgentRun) (investigation : Investigation) (request : ChildDelegationRequest)
        (pending : List String) (now : Time), Delegating db run investigation →
      (∃ i, db.investigations.get run.investigationId = some i) →
        (wp (delegateChild h run investigation request (pending, []) now)
            (AdoptsNone run.identity request.childRunId db) db ↔ Novel h db run investigation request)) ∧
      ∀ (db : Database) (s : Orchestration), (orchestrating h db).Reached (NovelMove h) s → Apart s := by
  constructor
  · rintro db run investigation request pending now hd ⟨i, hi⟩
    exact adoptsNone_iff hd hi pending now
  · intro db s hs
    have hinit : Apart (orchestrating h db).init :=
      ⟨nodup_nil, fun _ hloop => (not_mem_nil hloop).elim, fun _ hloop => (not_mem_nil hloop).elim⟩
    exact hs.invariant hinit fun _ _ _ hinv hmove hstep => hinv.step hmove hstep

def checkoutInvestigation : Investigation := ⟨"inv-1", .running, {}, {}, none, none⟩
def paymentInvestigation : Investigation := ⟨"inv-2", .running, {}, {}, none, none⟩

def checkoutRun : AgentRun := ⟨"run-1", "inv-1", none, .parent, .running, {}, {}, none, [], none⟩
def paymentRun : AgentRun := ⟨"run-2", "inv-2", none, .parent, .running, {}, {}, none, [], none⟩

def twoRuns : Database where
  investigations := (Table.empty.put checkoutInvestigation).put paymentInvestigation
  runs := (Table.empty.put checkoutRun).put paymentRun
  toolCalls := .empty
  investigationIds := ["inv-1", "inv-2"]
  runIds := ["run-1", "run-2"]

/-- Delegating to the run of another investigation starts a second loop on it. -/
theorem foreign_run_adopted :
    ¬ wp (delegateChild {} checkoutRun checkoutInvestigation ⟨"run-2", "check the payments", []⟩ ([], []) 0)
        (AdoptsNone checkoutRun.identity "run-2" twoRuns) twoRuns ∧
      ((orchestrating {} twoRuns).runFrom ⟨twoRuns, []⟩ [.enter "run-1", .enter "run-2",
        .delegate 0 checkoutRun checkoutInvestigation ⟨"run-2", "check the payments", []⟩ 0]).map
          Orchestration.executing = some ["run-1", "run-2", "run-2"] := by
  have hd : Delegating twoRuns checkoutRun checkoutInvestigation := ⟨⟨checkoutRun, rfl, rfl⟩, rfl⟩
  refine ⟨?_, rfl⟩
  rw [@adoptsNone_iff _ _ _ {} ⟨"run-2", "check the payments", []⟩ checkoutInvestigation hd rfl]
  rintro (⟨rejected, herror⟩ | habsent)
  · cases herror
  · cases habsent

theorem new_run_delegated :
    ∃ s, (orchestrating {} twoRuns).runFrom ⟨twoRuns, []⟩ [.enter "run-1", .enter "run-2",
        .delegate 0 checkoutRun checkoutInvestigation ⟨"run-3", "check the payments", []⟩ 0] = some s ∧
      s.executing = ["run-1", "run-2", "run-3"] ∧ Apart s := by
  refine ⟨_, rfl, rfl, ?_⟩
  refine (delegation_adopts_none_iff {}).2 twoRuns _ ?_
  refine .next (.delegate 0 checkoutRun checkoutInvestigation ⟨"run-3", "check the payments", []⟩ 0)
    (.next (.enter "run-2") (.next (.enter "run-1") .start ?_ rfl) ?_ rfl) ?_ rfl
  · exact not_mem_nil
  · change "run-2" ∉ ["run-1"]
    decide
  · exact .inr rfl

end IncidentLens.Investigations
