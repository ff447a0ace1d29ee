import IncidentLens.Effects.Runs
import IncidentLens.Investigations.Standing

/-!
# A parent that waits for its children

The loop of one parent run beside the tasks of its children. A pass is a stride of the parent
that finds it waiting with nothing pending: it starts every child that is open and has a
package, and comes round again when all of these have ended.
-/
namespace IncidentLens.Investigations
open Data Effects StateError List

inductive Task
  | suspended (point : Point) (pendingChildren : List String)
  | returned
  | raised

def Task.ended : Task → Bool
  | .suspended _ _ => false
  | _ => true

structure ChildTask where
  package : DelegatedTaskPackage
  task : Task

def Stride.task (s : Stride) : Task :=
  match s.point with
  | some point => .suspended point s.pendingChildren
  | none => .returned

/-- The tasks of the children that a stride has spawned. -/
def Stride.tasks (s : Stride) : List ChildTask := s.spawned.map fun package => ⟨package, .suspended .yielding []⟩

/-- `seen` holds the databases since the last pass; it is empty before the first one. -/
structure Family where
  agentRunId : String
  db : Database
  parent : Task := .suspended .yielding []
  children : List ChildTask := []
  seen : List Database := []

namespace Family

def ended (s : Family) (childRunId : String) : Bool :=
  s.children.all fun child => child.package.childRunId ≠ childRunId || child.task.ended

/-- The parent waits for its children, under an open investigation. -/
def waits (s : Family) : Bool :=
  match s.db.runs.get s.agentRunId with
  | none => false
  | some run => run.status = .waitingChildren && match s.db.investigations.get run.investigationId with
    | none => false
    | some investigation => !investigationStateMachine.isTerminal investigation.status

def passes (s : Family) : Bool :=
  match s.parent with
  | .suspended .yielding pendingChildren => pendingChildren.all s.ended && s.waits
  | _ => false

/-- The answers that the tasks of the children admit. -/
def admits (s : Family) (pendingChildren : List String) : Answer → Bool
  | .yielded finished _ => finished = pendingChildren.filter s.ended
  | .waited => pendingChildren.any s.ended
  | .drained => pendingChildren.all s.ended
  | _ => true

def watch (s : Family) (db : Database) : List Database := if s.seen = [] then [] else s.seen ++ [db]

def afterParent (s : Family) (out : Except Raised Stride × Database) : Family :=
  let seen := if s.passes then [s.db, out.2] else s.watch out.2
  match out.1 with
  | .ok next => { s with db := out.2, parent := next.task, children := s.children ++ next.tasks, seen := seen }
  | .error _ => { s with db := out.2, parent := .raised, seen := seen }

/-- `_run_child` behind the end of its loop. -/
def endChild (reporting : Reporting) (s : Family) (i : ℕ) (package : DelegatedTaskPackage) (how : ChildEnd)
    (now : Time) (db : Database) (spawned : List ChildTask) : Family :=
  let out := (Investigations.endChild reporting package how now).exec db
  { s with
    db := out.2
    children := s.children.set i ⟨package, match out.1 with | .ok _ => .returned | .error _ => .raised⟩ ++ spawned
    seen := s.watch out.2 }

def afterChild (reporting : Reporting) (describe : Raised → String) (s : Family) (i : ℕ)
    (package : DelegatedTaskPackage) (now : Time) (out : Except Raised Stride × Database) : Family :=
  match out.1 with
  | .ok next =>
    match next.point with
    | some _ =>
      { s with
        db := out.2
        children := s.children.set i ⟨package, next.task⟩ ++ next.tasks
        seen := s.watch out.2 }
    | none => endChild reporting s i package .returned now out.2 next.tasks
  | .error e => endChild reporting s i package (.raised (describe e)) now out.2 []

end Family

inductive FamilyMove
  | parent (answer : Answer) (now : Time)
  | child (i : ℕ) (answer : Answer) (now : Time)
  /-- The task of a child fails outside of its loop, as where no session can be opened for it. -/
  | broke (i : ℕ) (text : String) (now : Time)
  /-- Other services write, such as those that decide approvals. -/
  | elsewhere (db : Database)

def Family.step (h : Harness) (reporting : Reporting) (describe : Raised → String) (s : Family) :
    FamilyMove → Option Family
  | .parent answer now =>
    match s.parent with
    | .suspended point pendingChildren =>
      if s.admits pendingChildren answer then
        (stride h ⟨s.agentRunId, point, pendingChildren⟩ answer now).map fun m => s.afterParent (m.exec s.db)
      else none
    | _ => none
  | .child i answer now =>
    match s.children[i]? with
    | some ⟨package, .suspended point pendingChildren⟩ =>
      if s.admits pendingChildren answer then
        (stride h ⟨package.childRunId, point, pendingChildren⟩ answer now).map fun m =>
          s.afterChild reporting describe i package now (m.exec s.db)
      else none
    | _ => none
  | .broke i text now =>
    match s.children[i]? with
    | some ⟨package, .suspended _ _⟩ => some (s.endChild reporting i package (.raised text) now s.db [])
    | _ => none
  | .elsewhere db => some { s with db := db, seen := s.watch db }

/-- The loop of a parent run, entered on a database. -/
def family (h : Harness) (reporting : Reporting) (describe : Raised → String) (agentRunId : String)
    (db : Database) : System Family FamilyMove where
  init := { agentRunId := agentRunId, db := db }
  step := Family.step h reporting describe

/-- Between two of the databases, the status of the parent or of a child of it has changed. -/
def Family.Moved (s : Family) : Prop :=
  ∃ d ∈ s.seen, ∃ d' ∈ s.seen, d'.status s.agentRunId ≠ d.status s.agentRunId ∨
    ∃ child ∈ listChildren d s.agentRunId, d'.status child.agentRunId ≠ some child.status

instance Family.decidableMoved (s : Family) : Decidable s.Moved :=
  inferInstanceAs (Decidable (∃ d ∈ s.seen, ∃ d' ∈ s.seen, d'.status s.agentRunId ≠ d.status s.agentRunId ∨
    ∃ child ∈ listChildren d s.agentRunId, d'.status child.agentRunId ≠ some child.status))

/-- Where a pass comes round again, or the loop has returned, a status has changed since the
last pass. -/
def Family.Progresses (s : Family) : Prop := s.passes = true ∨ s.parent = .returned → s.seen = [] ∨ s.Moved

/-- The statuses that the loop of a child moves. -/
def AgentRunStatus.movable : AgentRunStatus → Bool
  | .created | .running | .pausedBudget | .pausedMissingEvidence | .pausedUncertainState | .cancelRequested => true
  | _ => false

/-- A pass finds no child to start, or one in a status that its loop moves. -/
def Database.Startable (db : Database) (agentRunId : String) : Prop :=
  (∃ childRunId, db.Respawns agentRunId childRunId) →
    ∃ child ∈ listChildren db agentRunId, child.status.movable = true ∧ db.delegatedTasks.get child.agentRunId ≠ none

/-- A run whose cancellation was requested finds its investigation open, and no report is to
be delivered to it. -/
def Database.Cancellable (db : Database) (agentRunId : String) : Prop :=
  ∀ run, db.runs.get agentRunId = some run → run.status = .cancelRequested →
    listUndeliveredReceipts db agentRunId = [] ∧ ∃ i, db.investigations.get run.investigationId = some i ∧
      investigationStateMachine.isTerminal i.status = false

/-- The moves under which every pass leads to progress. -/
def Steady (s : Family) : FamilyMove → Prop
  | .parent _ _ => s.passes = true → s.db.Startable s.agentRunId
  | .child i answer _ => ∀ package pendingChildren finished appended,
      s.children[i]? = some ⟨package, .suspended .yielding pendingChildren⟩ → answer = .yielded finished appended →
      s.db.Cancellable package.childRunId ∧
        (s.db.status package.childRunId = some .pausedUncertainState → appended = true)
  | .broke i _ _ => ∀ package point pendingChildren, s.children[i]? = some ⟨package, .suspended point pendingChildren⟩ →
      s.db.status package.childRunId ≠ some .cancelRequested
  | .elsewhere _ => True

/-! ### One child that a pass has started -/

/-- A task of the child has not ended; unless the child was running, its loop is not entered yet. -/
def Family.Runs (s : Family) (child : AgentRun) : Prop :=
  ∃ (i : ℕ) (package : DelegatedTaskPackage) (point : Point) (pendingChildren : List String),
    s.children[i]? = some ⟨package, .suspended point pendingChildren⟩ ∧ package.childRunId = child.agentRunId ∧
      point.Of child.agentRunId ∧
      (child.status = .running ∨ child.status.movable = true ∧ point = .yielding ∧ pendingChildren = [])

/-- Since the last pass, which found the child `child`, the parent has waited for it. -/
structure Family.Awaits (s : Family) (base : Database) (child : AgentRun) : Prop where
  based : base ∈ s.seen
  current : s.db ∈ s.seen
  waiting : base.status s.agentRunId = some .waitingChildren
  listed : child ∈ listChildren base s.agentRunId
  parent : ∃ point pendingChildren, s.parent = .suspended point pendingChildren ∧
    (point = .yielding ∨ point = .waiting ∨ point = .draining false .sync) ∧ child.agentRunId ∈ pendingChildren
  task : s.Runs child

/-- What holds of every family behind steady moves. -/
def Family.Going (s : Family) : Prop := s.parent = .raised ∨ s.seen = [] ∨ s.Moved ∨ ∃ base child, s.Awaits base child

namespace Family
variable {s s' : Family} {base : Database} {child : AgentRun}

lemma Moved.grow (hid : s'.agentRunId = s.agentRunId) (hseen : s.seen ⊆ s'.seen) (h : s.Moved) : s'.Moved := by
  obtain ⟨d, hd, d', hd', hmoved⟩ := h
  refine ⟨d, hseen hd, d', hseen hd', ?_⟩
  rw [hid]
  exact hmoved

lemma seen_subset_watch (s : Family) (db : Database) : s.seen ⊆ s.watch db := by
  unfold watch
  split_ifs with hseen
  · rw [hseen]
    exact List.Subset.refl _
  · exact subset_append_left _ _

lemma mem_watch (hseen : s.seen ≠ []) (db : Database) : db ∈ s.watch db := by
  rw [watch, if_neg hseen]
  simp

lemma Awaits.seen_ne (h : s.Awaits base child) : s.seen ≠ [] := ne_nil_of_mem h.based

lemma Runs.not_ended (h : s.Runs child) : s.ended child.agentRunId = false := by
  obtain ⟨i, package, point, pendingChildren, htask, hid, _⟩ := h
  refine all_eq_false.mpr ⟨_, mem_of_getElem? htask, ?_⟩
  simp [hid, Task.ended]

lemma Awaits.not_passes (h : s.Awaits base child) : s.passes = false := by
  obtain ⟨point, pendingChildren, hparent, _, hpending⟩ := h.parent
  have hall : pendingChildren.all s.ended = false := all_eq_false.mpr ⟨_, hpending, by simp [h.task.not_ended]⟩
  unfold passes
  rw [hparent]
  cases point <;> simp [hall]

lemma Awaits.moved (h : s.Awaits base child) (hid : s'.agentRunId = s.agentRunId) (hseen : s.seen ⊆ s'.seen)
    (hdb : s'.db ∈ s'.seen) (hleft : s'.db.status s.agentRunId ≠ some .waitingChildren ∨
      s'.db.status child.agentRunId ≠ some child.status) : s'.Moved := by
  refine ⟨base, hseen h.based, s'.db, hdb, ?_⟩
  rw [hid]
  rcases hleft with hleft | hleft
  · exact .inl (by rw [h.waiting]; exact hleft)
  · exact .inr ⟨child, h.listed, hleft⟩

lemma Awaits.status (h : s.Awaits base child) (hmoved : ¬ s.Moved) :
    s.db.status s.agentRunId = some .waitingChildren ∧ s.db.status child.agentRunId = some child.status := by
  refine ⟨?_, ?_⟩
  · by_contra hleft
    exact hmoved (h.moved rfl (List.Subset.refl _) h.current (.inl hleft))
  · by_contra hleft
    exact hmoved (h.moved rfl (List.Subset.refl _) h.current (.inr hleft))

lemma Going.aside (hgoing : s.Going) (hid : s'.agentRunId = s.agentRunId) (hparent : s'.parent = s.parent)
    (hseen : s'.seen = s.watch s'.db)
    (htask : ∀ child, s.Runs child → s.db.status child.agentRunId = some child.status →
      s'.db.status child.agentRunId ≠ some child.status ∨ s'.Runs child) : s'.Going := by
  have hsubset : s.seen ⊆ s'.seen := hseen ▸ seen_subset_watch s s'.db
  by_cases hmoved : s.Moved
  · exact .inr (.inr (.inl (hmoved.grow hid hsubset)))
  · rcases hgoing with hraised | hnone | hmoved' | ⟨base, child, hawaits⟩
    · exact .inl (hparent.trans hraised)
    · refine .inr (.inl ?_)
      rw [hseen, watch, if_pos hnone]
    · exact absurd hmoved' hmoved
    · have hdb : s'.db ∈ s'.seen := hseen ▸ mem_watch hawaits.seen_ne s'.db
      obtain ⟨hwaiting, hstatus⟩ := hawaits.status hmoved
      rcases htask child hawaits.task hstatus with hleft | hruns
      · exact .inr (.inr (.inl (hawaits.moved hid hsubset hdb (.inr hleft))))
      · refine .inr (.inr (.inr ⟨base, child, hsubset hawaits.based, hdb, ?_, ?_, ?_, hruns⟩))
        · rw [hid]
          exact hawaits.waiting
        · rw [hid]
          exact hawaits.listed
        · rw [hparent]
          exact hawaits.parent

/-! ### Moves of the children -/

variable {reporting : Reporting} {describe : Raised → String} {i : ℕ} {package : DelegatedTaskPackage}
  {now : Time} {out : Except Raised Stride × Database}

lemma afterChild_agentRunId : (s.afterChild reporting describe i package now out).agentRunId = s.agentRunId := by
  unfold afterChild
  split
  · split <;> rfl
  · rfl

lemma afterChild_parent : (s.afterChild reporting describe i package now out).parent = s.parent := by
  unfold afterChild
  split
  · split <;> rfl
  · rfl

lemma afterChild_seen : (s.afterChild reporting describe i package now out).seen =
    s.watch (s.afterChild reporting describe i package now out).db := by
  unfold afterChild
  split
  · split <;> rfl
  · rfl

lemma Runs.of_set (h : s.Runs child) {task : ChildTask} {spawned : List ChildTask}
    (hchildren : s'.children = s.children.set i task ++ spawned) :
    s'.Runs child ∨ ∃ package point pendingChildren, s.children[i]? = some ⟨package, .suspended point pendingChildren⟩ ∧
      package.childRunId = child.agentRunId ∧ point.Of child.agentRunId ∧
        (child.status = .running ∨ child.status.movable = true ∧ point = .yielding ∧ pendingChildren = []) := by
  obtain ⟨k, package, point, pendingChildren, hrow, hrest⟩ := h
  by_cases hk : i = k
  · subst hk
    exact .inr ⟨package, point, pendingChildren, hrow, hrest⟩
  · have hlt : k < (s.children.set i task).length := by
      rw [length_set]
      exact (List.getElem?_eq_some_iff.mp hrow).1
    refine .inl ⟨k, package, point, pendingChildren, ?_, hrest⟩
    rw [hchildren, getElem?_append_left hlt, getElem?_set_ne hk, hrow]

variable {status : AgentRunStatus} {db : Database} {point : Point} {pendingChildren : List String} {h : Harness}
  {answer : Answer} {m : DatabaseM Stride}

lemma movable_open (h : status.movable = true) : agentRunStateMachine.isTerminal status = false := by
  revert h
  cases status <;> decide

lemma endChild_left {how : ChildEnd} {spawned : List ChildTask} (hmovable : status.movable = true)
    (hhow : how = .returned ∧ db.status package.childRunId ≠ some status ∨
      ∃ text, how = .raised text ∧ status ≠ .cancelRequested) :
    (s.endChild reporting i package how now db spawned).db.status package.childRunId ≠ some status := by
  change ((Investigations.endChild reporting package how now).exec db).2.status package.childRunId ≠ some status
  rcases hhow with ⟨rfl, hleft⟩ | ⟨text, rfl, hcancel⟩
  · have h := standing_unmoved (endChild_returned reporting package now) db
    rw [h.1.status]
    exact hleft
  · exact endChild_raised reporting package text now (movable_open hmovable) hcancel

lemma movable_cases (h : status.movable = true) {appended : Bool}
    (happended : status = .pausedUncertainState → appended = true) (hrunning : status ≠ .running) :
    status.Entered appended ∨ status = .cancelRequested := by
  cases status with
  | created => exact .inl (.inl rfl)
  | pausedBudget => exact .inl (.inr ⟨rfl, happended⟩)
  | pausedMissingEvidence => exact .inl (.inr ⟨rfl, happended⟩)
  | pausedUncertainState => exact .inl (.inr ⟨rfl, happended⟩)
  | cancelRequested => exact .inr rfl
  | running => exact absurd rfl hrunning
  | _ => cases h

lemma child_stride {id : String} (hof : point.Of id) (hdb : db.status id = some status)
    (hkind : status = .running ∨ status.movable = true ∧ point = .yielding ∧ pendingChildren = [])
    (hsteady : ∀ finished appended, point = .yielding → answer = .yielded finished appended →
      db.Cancellable id ∧ (db.status id = some .pausedUncertainState → appended = true))
    (hstride : stride h ⟨id, point, pendingChildren⟩ answer now = some m) :
    wp m (fun r db' => (∀ next, r = .ok next → db'.status id ≠ some status ∨
        ∃ point', next.point = some point' ∧ point'.Of id ∧ status = .running) ∧
      (status = .cancelRequested → ∃ next, r = .ok next)) db := by
  by_cases hrunning : status = .running
  · subst hrunning
    have hsettled : wp m (Settled id) db := settled_stride hof hstride
    refine wp_mono hsettled ?_
    intro r db' hr
    refine ⟨fun next hnext => ?_, fun hcancel => by cases hcancel⟩
    rcases hr next hnext with hrest | ⟨point', hpoint', hof'⟩
    · exact .inl hrest
    · exact .inr ⟨point', hpoint', hof', rfl⟩
  · obtain ⟨hmovable, rfl, rfl⟩ := hkind.resolve_left hrunning
    obtain ⟨finished, appended, rfl⟩ : ∃ finished appended, answer = .yielded finished appended := by
      cases answer with
      | yielded finished appended => exact ⟨finished, appended, rfl⟩
      | _ => cases hstride
    obtain ⟨hcancellable, happended⟩ := hsteady finished appended rfl rfl
    rcases movable_cases hmovable (fun h => happended (by rw [hdb, h])) hrunning with hentered | rfl
    · refine wp_mono (entry_moves hentered hdb hstride) ?_
      intro r db' hr
      refine ⟨fun next hnext => .inl (hr next hnext), fun hcancel => ?_⟩
      subst hcancel
      rcases hentered with hcreated | ⟨hpaused, _⟩
      · cases hcreated
      · cases hpaused
    · obtain ⟨run, hrow, hstatus⟩ := Option.map_eq_some_iff.mp hdb
      obtain ⟨hreports, investigation, hinv, hopen⟩ := hcancellable run hrow hstatus
      have hid := db.runs.keyed _ _ hrow
      subst hid
      refine wp_mono (entry_cancels hrow hstatus hinv hopen hreports hstride) ?_
      rintro r db' ⟨hok, hcancelled⟩
      refine ⟨fun _ _ => .inl ?_, fun _ => hok⟩
      rw [hcancelled]
      decide

lemma going_child (hgoing : s.Going) (hsteady : Steady s (.child i answer now))
    (hrow : s.children[i]? = some ⟨package, .suspended point pendingChildren⟩)
    (hstride : stride h ⟨package.childRunId, point, pendingChildren⟩ answer now = some m) :
    (s.afterChild reporting describe i package now (m.exec s.db)).Going := by
  refine hgoing.aside afterChild_agentRunId afterChild_parent afterChild_seen fun child hruns hstatus => ?_
  have hchildren : ∃ task spawned, (s.afterChild reporting describe i package now (m.exec s.db)).children =
      s.children.set i task ++ spawned := by
    unfold afterChild
    split
    · split <;> exact ⟨_, _, rfl⟩
    · exact ⟨_, _, rfl⟩
  obtain ⟨task, spawned, hchildren⟩ := hchildren
  rcases hruns.of_set hchildren with hkept | ⟨package', point', pendingChildren', hrow', hid, hof, hkind⟩
  · exact .inr hkept
  obtain ⟨rfl, htask⟩ := ChildTask.mk.inj (Option.some.inj (hrow.symm.trans hrow'))
  obtain ⟨rfl, rfl⟩ := Task.suspended.inj htask
  have hmovable : child.status.movable = true := by
    rcases hkind with hrunning | ⟨hmovable, _⟩
    · rw [hrunning]
      rfl
    · exact hmovable
  rw [← hid] at hof hstatus ⊢
  have hstep := child_stride hof hstatus hkind (fun finished appended hpoint hanswer =>
    hsteady package pendingChildren finished appended (by rw [hrow, hpoint]) hanswer) hstride
  obtain ⟨hok, hcancel⟩ := hstep
  unfold afterChild
  cases hout : (m.exec s.db).1 with
  | error e =>
    refine .inl (endChild_left hmovable (.inr ⟨_, rfl, fun hrequested => ?_⟩))
    obtain ⟨next, hnext⟩ := hcancel hrequested
    cases hout.symm.trans hnext
  | ok next =>
    dsimp only
    cases hpoint : next.point with
    | none =>
      refine .inl (endChild_left hmovable (.inl ⟨rfl, ?_⟩))
      rcases hok next hout with hleft | ⟨point', hsome, _⟩
      · exact hleft
      · cases hpoint.symm.trans hsome
    | some next' =>
      rcases hok next hout with hleft | ⟨point', hsome, hof', hrunning⟩
      · exact .inl hleft
      · obtain rfl := Option.some.inj (hpoint.symm.trans hsome)
        refine .inr ⟨i, package, next', next.pendingChildren, ?_, hid, hid ▸ hof', .inl hrunning⟩
        have hlt : i < s.children.length := (List.getElem?_eq_some_iff.mp hrow).1
        have htask : next.task = .suspended next' next.pendingChildren := by
          unfold Stride.task
          rw [hpoint]
        rw [getElem?_append_left (by rw [length_set]; exact hlt), getElem?_set_self hlt, htask]

lemma going_broke {text : String} (hgoing : s.Going) (hsteady : Steady s (.broke i text now))
    (hrow : s.children[i]? = some ⟨package, .suspended point pendingChildren⟩) :
    (s.endChild reporting i package (.raised text) now s.db []).Going := by
  refine hgoing.aside rfl rfl rfl fun child hruns hstatus => ?_
  have hset := hruns.of_set (show (s.endChild reporting i package (.raised text) now s.db []).children = _ from rfl)
  rcases hset with hkept | ⟨package', point', pendingChildren', hrow', hid, _, hkind⟩
  · exact .inr hkept
  obtain ⟨rfl, _⟩ := ChildTask.mk.inj (Option.some.inj (hrow.symm.trans hrow'))
  have hmovable : child.status.movable = true := by
    rcases hkind with hrunning | ⟨hmovable, _⟩
    · rw [hrunning]
      rfl
    · exact hmovable
  rw [← hid] at hstatus ⊢
  refine .inl (endChild_left hmovable (.inr ⟨text, rfl, fun hrequested => ?_⟩))
  exact hsteady package point pendingChildren hrow (by rw [hstatus, hrequested])

/-! ### Moves of the parent -/

lemma afterParent_agentRunId : (s.afterParent out).agentRunId = s.agentRunId := by
  unfold afterParent
  cases out.1 <;> rfl

lemma afterParent_db : (s.afterParent out).db = out.2 := by
  unfold afterParent
  cases out.1 <;> rfl

lemma afterParent_seen : (s.afterParent out).seen = if s.passes then [s.db, out.2] else s.watch out.2 := by
  unfold afterParent
  cases out.1 <;> rfl

lemma Runs.afterParent (h : s.Runs child) : (s.afterParent out).Runs child := by
  obtain ⟨k, package, point, pendingChildren, hrow, hrest⟩ := h
  refine ⟨k, package, point, pendingChildren, ?_, hrest⟩
  have hlt : k < s.children.length := (List.getElem?_eq_some_iff.mp hrow).1
  unfold Family.afterParent
  cases out.1 with
  | ok next => exact (getElem?_append_left hlt).trans hrow
  | error e => exact hrow

lemma waiting_next {id childRunId : String} {ended : String → Bool}
    (hpoint : point = .yielding ∨ point = .waiting ∨ point = .draining false .sync)
    (hpending : childRunId ∈ pendingChildren) (hended : ended childRunId = false)
    (hyielded : ∀ finished appended, answer = .yielded finished appended → finished = pendingChildren.filter ended)
    (hdrained : answer = .drained → pendingChildren.all ended = true)
    (hdb : db.status id = some .waitingChildren) (hstride : stride h ⟨id, point, pendingChildren⟩ answer now = some m) :
    wp m (fun r db' => ∀ next, r = .ok next → db'.status id ≠ some .waitingChildren ∨
      ∃ point', next.point = some point' ∧ (point' = .yielding ∨ point' = .waiting ∨ point' = .draining false .sync) ∧
          childRunId ∈ next.pendingChildren) db := by
  rcases hpoint with rfl | rfl | rfl
  · obtain ⟨finished, appended, rfl⟩ : ∃ finished appended, answer = .yielded finished appended := by
      cases answer with
      | yielded finished appended => exact ⟨finished, appended, rfl⟩
      | _ => cases hstride
    have hfinished := hyielded finished appended rfl
    have hkept : childRunId ∈ pendingChildren.filter fun child => !finished.contains child := by
      refine mem_filter.mpr ⟨hpending, ?_⟩
      simp [hfinished, hended]
    refine wp_mono (waiting_stride rfl hdb (ne_nil_of_mem hkept) hstride) ?_
    intro r db' hr next hnext
    rcases hr next hnext with hleft | ⟨hpoint, hnext', _⟩
    · exact .inl hleft
    · refine .inr ?_
      rw [hnext']
      rcases hpoint with hpoint | hpoint
      · exact ⟨.waiting, hpoint, .inr (.inl rfl), hkept⟩
      · exact ⟨.draining false .sync, hpoint, .inr (.inr rfl), hkept⟩
  · cases answer with
    | waited =>
      obtain rfl := Option.some.inj hstride
      rintro _ ⟨⟩
      exact .inr ⟨.yielding, rfl, .inl rfl, hpending⟩
    | _ => cases hstride
  · cases answer with
    | drained =>
      have hall := all_eq_true.mp (hdrained rfl) childRunId hpending
      rw [hended] at hall
      cases hall
    | _ => cases hstride

lemma going_parent_waiting (hgoing : s.Going) (hpass : s.passes = false)
    (hparent : s.parent = .suspended point pendingChildren) (hadmits : s.admits pendingChildren answer = true)
    (hstride : stride h ⟨s.agentRunId, point, pendingChildren⟩ answer now = some m) :
    (s.afterParent (m.exec s.db)).Going := by
  have hseen : (s.afterParent (m.exec s.db)).seen = s.watch (m.exec s.db).2 := by
    rw [afterParent_seen, hpass]
    rfl
  have hsubset : s.seen ⊆ (s.afterParent (m.exec s.db)).seen := hseen ▸ seen_subset_watch s _
  by_cases hmoved : s.Moved
  · exact .inr (.inr (.inl (hmoved.grow afterParent_agentRunId hsubset)))
  · rcases hgoing with hraised | hnone | hmoved' | ⟨base, child, hawaits⟩
    · cases hparent.symm.trans hraised
    · refine .inr (.inl ?_)
      rw [hseen, watch, if_pos hnone]
    · exact absurd hmoved' hmoved
    · have hdb : (s.afterParent (m.exec s.db)).db ∈ (s.afterParent (m.exec s.db)).seen := by
        rw [hseen, afterParent_db]
        exact mem_watch hawaits.seen_ne _
      obtain ⟨hwaiting, _⟩ := hawaits.status hmoved
      obtain ⟨point', pendingChildren', hparent', hpoint, hpending⟩ := hawaits.parent
      obtain ⟨rfl, rfl⟩ := Task.suspended.inj (hparent.symm.trans hparent')
      have hnext := waiting_next hpoint hpending hawaits.task.not_ended
        (fun finished appended hanswer => by subst hanswer; simpa [admits] using hadmits)
        (fun hanswer => by subst hanswer; exact hadmits) hwaiting hstride
      cases hout : (m.exec s.db).1 with
      | error e =>
        refine .inl ?_
        unfold afterParent
        rw [hout]
      | ok next =>
        rcases hnext next hout with hleft | ⟨point', hpoint', hkind, hmem⟩
        · refine .inr (.inr (.inl (hawaits.moved afterParent_agentRunId hsubset hdb (.inl ?_))))
          rw [afterParent_db]
          exact hleft
        · refine .inr (.inr (.inr ⟨base, child, hsubset hawaits.based, hdb, ?_, ?_, ?_, hawaits.task.afterParent⟩))
          · rw [afterParent_agentRunId]
            exact hawaits.waiting
          · rw [afterParent_agentRunId]
            exact hawaits.listed
          · refine ⟨point', next.pendingChildren, ?_, hkind, hmem⟩
            unfold afterParent Stride.task
            rw [hout]
            dsimp only
            rw [hpoint']

lemma status_of_waits (h : s.waits = true) : s.db.status s.agentRunId = some .waitingChildren := by
  unfold waits at h
  cases hrow : s.db.runs.get s.agentRunId with
  | none =>
    rw [hrow] at h
    cases h
  | some run =>
    rw [hrow] at h
    rw [status_of_get hrow, of_decide_eq_true (Bool.and_eq_true_iff.mp h).1]

lemma going_pass (hpass : s.passes = true) (hstartable : s.db.Startable s.agentRunId)
    (hparent : s.parent = .suspended point pendingChildren) (hadmits : s.admits pendingChildren answer = true)
    (hstride : stride h ⟨s.agentRunId, point, pendingChildren⟩ answer now = some m) :
    (s.afterParent (m.exec s.db)).Going := by
  have hseen : (s.afterParent (m.exec s.db)).seen = [s.db, (m.exec s.db).2] := by
    rw [afterParent_seen, hpass]
    rfl
  have hyielding : point = .yielding ∧ pendingChildren.all s.ended = true ∧ s.waits = true := by
    unfold passes at hpass
    rw [hparent] at hpass
    cases point with
    | yielding => exact ⟨rfl, Bool.and_eq_true_iff.mp hpass⟩
    | _ => cases hpass
  obtain ⟨rfl, hended, hwaits⟩ := hyielding
  obtain ⟨finished, appended, rfl⟩ : ∃ finished appended, answer = .yielded finished appended := by
    cases answer with
    | yielded finished appended => exact ⟨finished, appended, rfl⟩
    | _ => cases hstride
  have hfinished : finished = pendingChildren.filter s.ended := by simpa [admits] using hadmits
  have hnone : (pendingChildren.filter fun child => !finished.contains child) = [] := by
    rw [filter_eq_nil_iff]
    intro child hchild
    simpa [hfinished, hchild] using all_eq_true.mp hended child hchild
  have hwaiting := status_of_waits hwaits
  have hnext := pass_stride rfl hwaiting hnone hstride
  cases hout : (m.exec s.db).1 with
  | error e =>
    refine .inl ?_
    unfold afterParent
    rw [hout]
  | ok next =>
    rcases hnext next hout with hleft | ⟨hpoint, hsome, hmatched, hmem⟩
    · refine .inr (.inr (.inl ⟨s.db, ?_, (m.exec s.db).2, ?_, .inl ?_⟩))
      · simp [hseen]
      · simp [hseen]
      · rw [afterParent_agentRunId, hwaiting]
        exact hleft
    · obtain ⟨first, hfirst⟩ := exists_mem_of_ne_nil _ hsome
      obtain ⟨child, hlisted, hmovable, hpackage⟩ := hstartable ⟨first, (hmem first).mp hfirst⟩
      have hpending : child.agentRunId ∈ next.pendingChildren :=
        (hmem _).mpr ⟨child, hlisted, rfl, movable_open hmovable, hpackage⟩
      obtain ⟨package, hspawned, hid⟩ : ∃ package ∈ next.spawned, package.childRunId = child.agentRunId := by
        rw [hmatched] at hpending
        exact mem_map.mp hpending
      obtain ⟨k, hk⟩ := mem_iff_getElem?.mp (mem_map_of_mem hspawned :
        (⟨package, .suspended .yielding []⟩ : ChildTask) ∈ next.tasks)
      have hafter : s.afterParent (m.exec s.db) = { s with
          db := (m.exec s.db).2, parent := .suspended .yielding next.pendingChildren,
          children := s.children ++ next.tasks, seen := [s.db, (m.exec s.db).2] } := by
        unfold afterParent Stride.task
        rw [hout, hpass]
        dsimp only
        rw [hpoint]
        rfl
      rw [hafter]
      refine .inr (.inr (.inr ⟨s.db, child, by simp, by simp, hwaiting, hlisted, ?_, ?_⟩))
      · exact ⟨.yielding, next.pendingChildren, rfl, .inl rfl, hpending⟩
      · refine ⟨s.children.length + k, package, .yielding, [], ?_, hid, trivial, .inr ⟨hmovable, rfl, rfl⟩⟩
        change (s.children ++ next.tasks)[s.children.length + k]? = _
        rw [getElem?_append_right (Nat.le_add_right _ _), Nat.add_sub_cancel_left]
        exact hk

end Family

/-! ### Runs -/

section Runs
variable {h : Harness} {reporting : Reporting} {describe : Raised → String} {agentRunId : String} {db : Database}

lemma Family.Going.step {s s' : Family} {move : FamilyMove} (hgoing : s.Going) (hsteady : Steady s move)
    (hstep : s.step h reporting describe move = some s') : s'.Going := by
  cases move with
  | parent answer now =>
    simp only [Family.step] at hstep
    cases hparent : s.parent with
    | suspended point pendingChildren =>
      rw [hparent] at hstep
      dsimp only at hstep
      split_ifs at hstep with hadmits
      obtain ⟨m, hstride, rfl⟩ := Option.map_eq_some_iff.mp hstep
      cases hpass : s.passes with
      | true => exact going_pass hpass (hsteady hpass) hparent hadmits hstride
      | false => exact going_parent_waiting hgoing hpass hparent hadmits hstride
    | _ =>
      rw [hparent] at hstep
      cases hstep
  | child i answer now =>
    simp only [Family.step] at hstep
    cases hrow : s.children[i]? with
    | none =>
      rw [hrow] at hstep
      cases hstep
    | some task =>
      obtain ⟨package, task⟩ := task
      rw [hrow] at hstep
      cases task with
      | suspended point pendingChildren =>
        dsimp only at hstep
        split_ifs at hstep
        obtain ⟨m, hstride, rfl⟩ := Option.map_eq_some_iff.mp hstep
        exact going_child hgoing hsteady hrow hstride
      | _ => cases hstep
  | broke i text now =>
    simp only [Family.step] at hstep
    cases hrow : s.children[i]? with
    | none =>
      rw [hrow] at hstep
      cases hstep
    | some task =>
      obtain ⟨package, task⟩ := task
      rw [hrow] at hstep
      cases task with
      | suspended point pendingChildren =>
        obtain rfl := Option.some.inj hstep
        exact going_broke hgoing hsteady hrow
      | _ => cases hstep
  | elsewhere db =>
    obtain rfl := Option.some.inj hstep
    exact hgoing.aside rfl rfl rfl fun child hruns _ => .inr hruns

lemma Family.Going.progresses {s : Family} (hgoing : s.Going) : s.Progresses := by
  intro hcase
  rcases hgoing with hraised | hnone | hmoved | ⟨base, child, hawaits⟩
  · rcases hcase with hpass | hreturned
    · unfold Family.passes at hpass
      rw [hraised] at hpass
      cases hpass
    · cases hraised.symm.trans hreturned
  · exact .inl hnone
  · exact .inr hmoved
  · rcases hcase with hpass | hreturned
    · rw [hawaits.not_passes] at hpass
      cases hpass
    · obtain ⟨point, pendingChildren, hparent, _⟩ := hawaits.parent
      cases hparent.symm.trans hreturned

/-- Behind steady moves every pass over the children of a waiting parent changes the status of
the parent or of a child, before it comes round again or the loop returns. -/
theorem reached_progresses {s : Family}
    (hreached : (family h reporting describe agentRunId db).Reached Steady s) : s.Progresses := by
  have hgoing : s.Going := hreached.invariant (.inr (.inl rfl)) fun _ _ _ hgoing hsteady hstep =>
    hgoing.step hsteady hstep
  exact hgoing.progresses

end Runs

/-- A parent that waits for one child with its package. -/
def waitingFamily (status : AgentRunStatus) : Database :=
  { delegated status with delegatedTasks := Table.empty.put childPackage, delegatedTaskIds := ["child-1"] }

lemma listChildren_waitingFamily (status : AgentRunStatus) :
    listChildren (waitingFamily status) "run-1" = [childIn status] := rfl

/-- A child is started, and its session cannot be opened: the next pass finds it failed. -/
theorem broken_child_progresses :
    ∃ s, (family {} {} (fun _ => "") "run-1" (waitingFamily .created)).Reached Steady s ∧
      s.passes = true ∧ s.Progresses := by
  have hstart := (System.Reached.start : (family {} {} (fun _ => "") "run-1"
    (waitingFamily .created)).Reached Steady _)
  have hpass := hstart.next (FamilyMove.parent (.yielded [] true) 1) (by
    intro _ _
    refine ⟨childIn .created, ?_, rfl, by decide +kernel⟩
    change childIn .created ∈ listChildren (waitingFamily .created) "run-1"
    rw [listChildren_waitingFamily]
    exact mem_cons_self) rfl
  have hbroke := hpass.next (FamilyMove.broke 0 "no session" 2) (by
    rintro package point pendingChildren ⟨⟩
    decide +kernel) rfl
  exact ⟨_, hbroke, rfl, reached_progresses hbroke⟩

/-- The child waits for an approval: its loop returns at once, and the parent comes round to a
pass that finds every status as it was. -/
theorem waitingApproval_not_progresses :
    ∃ s, (family {} {} (fun _ => "") "run-1" (waitingFamily .waitingApproval)).Reached (fun _ _ => True) s ∧
      s.passes = true ∧ ¬ s.Progresses := by
  have hstart := (System.Reached.start : (family {} {} (fun _ => "") "run-1"
    (waitingFamily .waitingApproval)).Reached (fun _ _ => True) _)
  have hpass := hstart.next (FamilyMove.parent (.yielded [] true) 1) trivial rfl
  have hchild := hpass.next (FamilyMove.child 0 (.yielded [] true) 2) trivial rfl
  refine ⟨_, hchild, rfl, ?_⟩
  intro h
  rcases h (.inl rfl) with hseen | hmoved
  · revert hseen
    decide +kernel
  · revert hmoved
    decide +kernel

end IncidentLens.Investigations
