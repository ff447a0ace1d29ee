import IncidentLens.Effects.Runs
import IncidentLens.Proposals.Widening

/-!
# Decisions of proposals, statement by statement

A decision writes the registry, tells of it, consumes its approval and records its outcome in
the proposal, each in a store of its own. Decisions of different proposals interleave, and any
of them may stop between two statements.
-/
namespace IncidentLens.Proposals
open Data Approvals Effects Function

inductive Stage
  | replacing (project : ProjectRecord) (derived : ProjectRegistration) (now : DateTime)
  | emitting
  | consuming
  | recording
  | staling
  | discarding
  | rejecting

/-- A decision under way, which holds the lock of its proposal. -/
structure Task where
  proposal : RegistryUpdateProposal
  approvalId : String
  stage : Stage

/-- The stores, the decisions under way, and the writes of the registry and consumptions that
decisions have made: proposals with the approvals they went by. -/
structure World where
  stores : Stores := {}
  tasks : String → Option Task := fun _ => none
  writes : List (String × String) := []
  consumed : List (String × String) := []

open World

inductive Event
  | propose (proposal : RegistryUpdateProposal)
  | requestApproval (r : Request)
  | decideApproval (d : Decision)
  | consumeApproval (c : Consumption)
  | createProject (registration : ProjectRegistration) (now : DateTime)
  | replaceProject (registration : ProjectRegistration) (now : DateTime) (expectedUpdatedAt : Option Text)
  | deleteProject (projectId : String)
  | handle (proposal : RegistryUpdateProposal) (approvalId : String) (now : DateTime) (remote : Remote)
  /-- The next statement of a decision, at a time of the clock. -/
  | advance (proposalId : String) (clock : DateTime)
  /-- The next statement of a decision raises, or its task is cancelled. -/
  | fail (proposalId : String)
  /-- The process stops. -/
  | crash
  /-- `_handle_proposal_approval` for a run that was cancelled. -/
  | cancel (proposalId : String)

/-- `transition_proposal_status`; `none` when it raises. -/
def transitionProposal (stores : Stores) (proposalId : String) (target : RegistryProposalStatus) : Option Stores :=
  (stores.proposals.get proposalId).bind fun current =>
    if current.status = .pending then
      some { stores with proposals := stores.proposals.put { current with status := target } }
    else none

/-- `ApprovalService.consume`. -/
def consume (sha256 : Bytes → String) (c : Consumption) (rows : Rows) : Except ApprovalError Rows := do
  c.read sha256 rows
  c.update rows

namespace World

def setTask (w : World) (proposalId : String) (task : Option Task) : World :=
  { w with tasks := update w.tasks proposalId task }

/-- The statement that a decision has come to. -/
def advance (sha256 : Bytes → String) (w : World) (proposalId : String) (clock : DateTime) (task : Task) : World :=
  let next (stage : Stage) := some { task with stage := stage }
  let consumption : Consumption := ⟨task.approvalId, registryUpdateIntent task.proposal, clock⟩
  match task.stage with
  | .replacing project derived now =>
    match w.stores.projects.replace derived now (some project.updatedAt) with
    | .ok projects =>
      { w with
        stores := { w.stores with projects := projects }
        tasks := update w.tasks proposalId (next .emitting)
        writes := (proposalId, task.approvalId) :: w.writes }
    | .error .registryUpdateConflict => w.setTask proposalId (next .staling)
    | .error _ => w.setTask proposalId none
  | .emitting => w.setTask proposalId (next .consuming)
  | .consuming => match consume sha256 consumption w.stores.approvals with
    | .ok rows =>
      { w with
        stores := { w.stores with approvals := rows }
        tasks := update w.tasks proposalId (next .recording)
        consumed := (proposalId, task.approvalId) :: w.consumed }
    | .error _ => w.setTask proposalId (next .recording)
  | .recording => match transitionProposal w.stores proposalId .approved with
    | some stores => { w with stores := stores, tasks := update w.tasks proposalId none }
    | none => w.setTask proposalId none
  | .staling => match transitionProposal w.stores proposalId .stale with
    | some stores => { w with stores := stores, tasks := update w.tasks proposalId (next .discarding) }
    | none => w.setTask proposalId none
  | .discarding => match consume sha256 consumption w.stores.approvals with
    | .ok rows =>
      { w with
        stores := { w.stores with approvals := rows }
        tasks := update w.tasks proposalId none
        consumed := (proposalId, task.approvalId) :: w.consumed }
    | .error _ => w.setTask proposalId none
  | .rejecting => match transitionProposal w.stores proposalId .rejected with
    | some stores => { w with stores := stores, tasks := update w.tasks proposalId none }
    | none => w.setTask proposalId none

/-- A call that finds the lock free, up to its first write. -/
def handle (sha256 : Bytes → String) (w : World) (proposal : RegistryUpdateProposal) (approvalId : String)
    (now : DateTime) (remote : Remote) : World :=
  let task (stage : Stage) := some (Task.mk proposal approvalId stage)
  match decideProposal sha256 w.stores remote proposal approvalId now with
  | .ok (project, derived) => w.setTask proposal.proposalId (task (.replacing project derived now))
  | .error (.stale _) => w.setTask proposal.proposalId (task .staling)
  | .error .rejected => w.setTask proposal.proposalId (task .rejecting)
  | .error _ => w

def withApprovals (w : World) : Except ApprovalError Rows → Option World
  | .ok rows => some { w with stores := { w.stores with approvals := rows } }
  | .error _ => none

def withProjects (w : World) : Except RegistryError Projects → Option World
  | .ok projects => some { w with stores := { w.stores with projects := projects } }
  | .error _ => none

def step (sha256 : Bytes → String) (w : World) : Event → Option World
  | .propose proposal =>
    if w.stores.proposals.get proposal.proposalId = none ∧ proposal.status = .pending then
      some { w with stores := { w.stores with proposals := w.stores.proposals.put proposal } }
    else none
  | .requestApproval r => w.withApprovals (create sha256 w.stores.approvals r)
  | .decideApproval d => w.withApprovals (d.select w.stores.approvals >>= fun _ => d.update w.stores.approvals)
  | .consumeApproval c => w.withApprovals (consume sha256 c w.stores.approvals)
  | .createProject registration now => w.withProjects (w.stores.projects.create registration now)
  | .replaceProject registration now expected =>
    w.withProjects (w.stores.projects.replace registration now expected)
  | .deleteProject projectId => w.withProjects (w.stores.projects.delete projectId)
  | .handle proposal approvalId now remote =>
    if (w.tasks proposal.proposalId).isNone then some (w.handle sha256 proposal approvalId now remote) else none
  | .advance proposalId clock => (w.tasks proposalId).map (w.advance sha256 proposalId clock)
  | .fail proposalId => some (w.setTask proposalId none)
  | .crash => some { w with tasks := fun _ => none }
  | .cancel proposalId => (transitionProposal w.stores proposalId .stale).map fun stores => { w with stores := stores }

def decisions (sha256 : Bytes → String) : System World Event := ⟨{}, step sha256⟩

def status (w : World) (proposalId : String) : Option RegistryProposalStatus :=
  (w.stores.proposals.get proposalId).map RegistryUpdateProposal.status

end World

/-- The approvals in a list of uses that went to a proposal. -/
def usedBy (proposalId : String) (uses : List (String × String)) : List String :=
  (uses.filter fun use => use.1 = proposalId).map Prod.snd

/-- A proposal that is decided is approved exactly when it was written, and it was written once,
by the one approval that was consumed for it. -/
def World.Atomic (w : World) : Prop :=
  ∀ proposalId status, w.status proposalId = some status → status ≠ .pending →
    (status = .approved ↔ usedBy proposalId w.writes ≠ []) ∧
      (usedBy proposalId w.writes ≠ [] → ∃ approvalId,
        usedBy proposalId w.writes = [approvalId] ∧ usedBy proposalId w.consumed = [approvalId])

/-- The registry is written, the outcome not yet recorded. -/
def Stage.written : Stage → Prop
  | emitting | consuming | recording => True
  | _ => False

/-- The decision is going to record an approval. -/
def Stage.applying : Stage → Prop
  | replacing .. | emitting | consuming | recording => True
  | _ => False

/-- The approval of a decision can be consumed at the time. -/
def Consumable (sha256 : Bytes → String) (rows : Rows) (task : Task) (clock : DateTime) : Prop :=
  ∃ row, rows.get task.approvalId = some row ∧
    intentSha256 sha256 (registryUpdateIntent task.proposal) = row.intentSha256 ∧
    row.status = .approved ∧ row.consumedAt = none ∧ clock.isoformat < row.expiresAt

/-- A decision that has written the registry comes to its end, with its approval still good. -/
def Undisturbed (sha256 : Bytes → String) (w : World) : Event → Prop
  | .crash => ∀ proposalId task, w.tasks proposalId = some task → ¬ task.stage.written
  | .fail proposalId => ∀ task, w.tasks proposalId = some task → ¬ task.stage.written
  | .cancel proposalId => ∀ task, w.tasks proposalId = some task → ¬ task.stage.applying
  | .advance proposalId clock => ∀ task, w.tasks proposalId = some task → task.stage = .consuming →
      Consumable sha256 w.stores.approvals task clock
  | _ => True

/-- What the stores hold for a proposal, by its status and the decision under way. -/
def Booked (status : Option RegistryProposalStatus) (task : Option Task) (writes consumed : List String) : Prop :=
  match task with
  | some task => match task.stage with
    | .replacing .. => status = some .pending ∧ writes = [] ∧ consumed = []
    | .emitting | .consuming => status = some .pending ∧ writes = [task.approvalId] ∧ consumed = []
    | .recording => status = some .pending ∧ writes = [task.approvalId] ∧ consumed = [task.approvalId]
    | .staling | .rejecting => status ≠ none ∧ status ≠ some .approved ∧ writes = [] ∧ consumed = []
    | .discarding => status ≠ none ∧ status ≠ some .pending ∧ status ≠ some .approved ∧ writes = []
  | none => match status with
    | none | some .pending => writes = [] ∧ consumed = []
    | some .approved => ∃ approvalId, writes = [approvalId] ∧ consumed = [approvalId]
    | some .rejected | some .stale => writes = []

def World.Sound (w : World) : Prop :=
  ∀ proposalId, Booked (w.status proposalId) (w.tasks proposalId) (usedBy proposalId w.writes)
    (usedBy proposalId w.consumed)

section Lemmas
variable {sha256 : Bytes → String} {w w' : World}

lemma usedBy_cons (proposalId id approvalId : String) (uses : List (String × String)) :
    usedBy proposalId ((id, approvalId) :: uses) =
      if proposalId = id then approvalId :: usedBy proposalId uses else usedBy proposalId uses := by
  by_cases h : proposalId = id
  · simp [usedBy, h]
  · simp [usedBy, h, Ne.symm h]

variable {id : String} {target : RegistryProposalStatus} {status : Option RegistryProposalStatus}
  {writes consumed : List String}

lemma transitionProposal_some {stores stores' : Stores}
    (h : transitionProposal stores id target = some stores') (proposalId : String) :
    (stores.proposals.get id).map RegistryUpdateProposal.status = some .pending ∧
      (stores'.proposals.get proposalId).map RegistryUpdateProposal.status = if proposalId = id then some target
        else (stores.proposals.get proposalId).map RegistryUpdateProposal.status := by
  simp only [transitionProposal, Option.bind_eq_some_iff, Option.ite_none_right_eq_some, Option.some.injEq] at h
  obtain ⟨current, hcurrent, hpending, rfl⟩ := h
  refine ⟨by simp [hcurrent, hpending], ?_⟩
  rw [Table.get_put, stores.proposals.keyed _ _ hcurrent]
  split_ifs <;> rfl

lemma transitionProposal_none {stores : Stores} (h : transitionProposal stores id target = none) :
    (stores.proposals.get id).map RegistryUpdateProposal.status ≠ some .pending := by
  intro hpending
  obtain ⟨current, hcurrent, hstatus⟩ := Option.map_eq_some_iff.mp hpending
  simp [transitionProposal, hcurrent, hstatus] at h

lemma consume_of_consumable {rows : Rows} {task : Task} {clock : DateTime} (h : Consumable sha256 rows task clock) :
    ∃ rows', consume sha256 ⟨task.approvalId, registryUpdateIntent task.proposal, clock⟩ rows = .ok rows' := by
  obtain ⟨row, hrow, hsha, hstatus, hunused, hclock⟩ := h
  simp [consume, Consumption.read, Consumption.update, updateWhere, hrow, hsha, hstatus, hunused, hclock,
    bind, Except.bind]

lemma booked_discarded {writes : List String} (hsome : status ≠ none)
    (hpending : status ≠ some .pending) (happroved : status ≠ some .approved) (hwrites : writes = [])
    (consumed : List String) : Booked status none writes consumed := by
  cases status with
  | none => exact absurd rfl hsome
  | some status =>
    cases status with
    | pending => exact absurd rfl hpending
    | approved => exact absurd rfl happroved
    | rejected => exact hwrites
    | stale => exact hwrites

lemma booked_unwritten (happroved : status ≠ some .approved) (hwrites : writes = []) (hconsumed : consumed = []) :
    Booked status none writes consumed := by
  cases status with
  | none => exact ⟨hwrites, hconsumed⟩
  | some status =>
    cases status with
    | pending => exact ⟨hwrites, hconsumed⟩
    | approved => exact absurd rfl happroved
    | rejected => exact hwrites
    | stale => exact hwrites

lemma Booked.ended {task : Option Task}
    (h : Booked status task writes consumed) (hstage : ∀ t, task = some t → ¬ t.stage.written) :
    Booked status none writes consumed := by
  cases task with
  | none => exact h
  | some task =>
    obtain ⟨proposal, approvalId, stage⟩ := task
    have hnot := hstage _ rfl
    cases stage with
    | replacing => exact booked_unwritten (by simp [h.1]) h.2.1 h.2.2
    | emitting => exact absurd trivial hnot
    | consuming => exact absurd trivial hnot
    | recording => exact absurd trivial hnot
    | staling => exact booked_unwritten h.2.1 h.2.2.1 h.2.2.2
    | rejecting => exact booked_unwritten h.2.1 h.2.2.1 h.2.2.2
    | discarding => exact booked_discarded h.1 h.2.1 h.2.2.1 h.2.2.2 consumed

lemma World.Sound.frame (h : w.Sound) (id : String)
    (hframe : ∀ proposalId, proposalId ≠ id → w'.status proposalId = w.status proposalId ∧
      w'.tasks proposalId = w.tasks proposalId ∧ usedBy proposalId w'.writes = usedBy proposalId w.writes ∧
      usedBy proposalId w'.consumed = usedBy proposalId w.consumed)
    (hid : Booked (w'.status id) (w'.tasks id) (usedBy id w'.writes) (usedBy id w'.consumed)) : w'.Sound := by
  intro proposalId
  by_cases hsame : proposalId = id
  · rw [hsame]
    exact hid
  · obtain ⟨hstatus, htask, hwrites, hconsumed⟩ := hframe proposalId hsame
    rw [hstatus, htask, hwrites, hconsumed]
    exact h proposalId

lemma World.Sound.setTask (h : w.Sound) (id : String) (task : Option Task)
    (hid : Booked (w.status id) task (usedBy id w.writes) (usedBy id w.consumed)) : (w.setTask id task).Sound := by
  refine h.frame id (fun proposalId hne => ⟨rfl, ?_, rfl, rfl⟩) ?_
  · simp [World.setTask, hne]
  · simpa [World.setTask, World.status] using hid

lemma World.Sound.ended (h : w.Sound) (hgood : ∀ task, w.tasks id = some task → ¬ task.stage.written) :
    (w.setTask id none).Sound :=
  h.setTask id none ((h id).ended hgood)

lemma World.Sound.recorded (h : w.Sound) {stores : Stores}
    (hstores : transitionProposal w.stores id target = some stores) (task : Option Task)
    (hid : Booked (some target) task (usedBy id w.writes) (usedBy id w.consumed)) :
    World.Sound { w with stores := stores, tasks := update w.tasks id task } := by
  refine h.frame id (fun proposalId hne => ⟨?_, by simp [hne], rfl, rfl⟩) ?_
  · simpa [status, hne] using (transitionProposal_some hstores proposalId).2
  · have hstatus := (transitionProposal_some hstores id).2
    rw [if_pos rfl] at hstatus
    simpa [status, hstatus] using hid

lemma World.Sound.advance (h : w.Sound) {clock : DateTime} {task : Task}
    (htask : w.tasks id = some task) (hgood : Undisturbed sha256 w (.advance id clock)) :
    (w.advance sha256 id clock task).Sound := by
  have hbooked := h id
  rw [htask] at hbooked
  have hgood := hgood task htask
  have hended : ¬ task.stage.written → (w.setTask id none).Sound := by
    intro hwritten
    refine h.ended fun task' htask' => ?_
    rw [htask] at htask'
    exact Option.some.inj htask' ▸ hwritten
  obtain ⟨proposal, approvalId, stage⟩ := task
  cases stage with
  | replacing project derived now =>
    obtain ⟨hstatus, hwrites, hconsumed⟩ := hbooked
    simp only [World.advance]
    split
    next projects hreplace =>
      refine h.frame id (fun proposalId hne => ⟨rfl, by simp [hne], ?_, rfl⟩) ?_
      · simp [usedBy_cons, hne]
      · simp only [update_self, usedBy_cons, if_true, hwrites, hconsumed]
        exact ⟨hstatus, rfl, rfl⟩
    next => exact h.setTask id _ ⟨by simp [hstatus], by simp [hstatus], hwrites, hconsumed⟩
    next => exact hended fun hwritten => hwritten
  | emitting => exact h.setTask id _ hbooked
  | consuming =>
    obtain ⟨hstatus, hwrites, hconsumed⟩ := hbooked
    obtain ⟨rows, hrows⟩ := consume_of_consumable (hgood rfl)
    simp only [World.advance, hrows]
    refine h.frame id (fun proposalId hne => ⟨rfl, by simp [hne], rfl, ?_⟩) ?_
    · simp [usedBy_cons, hne]
    · simp only [update_self, usedBy_cons, if_true, hwrites, hconsumed]
      exact ⟨hstatus, rfl, rfl⟩
  | recording =>
    obtain ⟨hstatus, hwrites, hconsumed⟩ := hbooked
    simp only [World.advance]
    split
    next stores hstores => exact h.recorded hstores none ⟨approvalId, hwrites, hconsumed⟩
    next hnone => exact absurd hstatus (transitionProposal_none hnone)
  | staling =>
    obtain ⟨hsome, happroved, hwrites, hconsumed⟩ := hbooked
    simp only [World.advance]
    split
    next stores hstores => exact h.recorded hstores _ ⟨by simp, by simp, by simp, hwrites⟩
    next => exact hended fun hwritten => hwritten
  | discarding =>
    obtain ⟨hsome, hpending, happroved, hwrites⟩ := hbooked
    simp only [World.advance]
    split
    next rows hrows =>
      refine h.frame id (fun proposalId hne => ⟨rfl, by simp [hne], rfl, ?_⟩) ?_
      · simp [usedBy_cons, hne]
      · simp only [update_self]
        exact booked_discarded hsome hpending happroved hwrites _
    next => exact hended fun hwritten => hwritten
  | rejecting =>
    obtain ⟨hsome, happroved, hwrites, hconsumed⟩ := hbooked
    simp only [World.advance]
    split
    next stores hstores => exact h.recorded hstores none hwrites
    next => exact hended fun hwritten => hwritten

lemma decideProposal_of_not_pending {proposal : RegistryUpdateProposal} (h : w.status proposal.proposalId ≠ some .pending)
    (sha256 : Bytes → String) (remote : Remote) (approvalId : String) (now : DateTime) :
    (∃ e, decideProposal sha256 w.stores remote proposal approvalId now = .error (.raised e)) ∨
      ∃ s, decideProposal sha256 w.stores remote proposal approvalId now = .error (.already s) := by
  cases hcurrent : w.stores.proposals.get proposal.proposalId with
  | none => exact .inl ⟨.proposalNotFound, by simp [decideProposal, authorize, hcurrent, bind, Except.bind]⟩
  | some current =>
    have hstatus : current.status ≠ .pending := by simpa [status, hcurrent] using h
    exact .inr ⟨current.status, by simp [decideProposal, authorize, hcurrent, hstatus, bind, Except.bind]⟩

lemma World.Sound.handle (h : w.Sound) {proposal : RegistryUpdateProposal} {approvalId : String} {now : DateTime}
    {remote : Remote} (hfree : w.tasks proposal.proposalId = none) :
    (w.handle sha256 proposal approvalId now remote).Sound := by
  by_cases hpending : w.status proposal.proposalId = some .pending
  · have hbooked := h proposal.proposalId
    rw [hfree, hpending] at hbooked
    simp only [World.handle]
    split
    next => exact h.setTask _ _ ⟨hpending, hbooked⟩
    next => exact h.setTask _ _ ⟨by simp [hpending], by simp [hpending], hbooked⟩
    next => exact h.setTask _ _ ⟨by simp [hpending], by simp [hpending], hbooked⟩
    next => exact h
  · have hrefused := decideProposal_of_not_pending hpending sha256 remote approvalId now
    rcases hrefused with ⟨e, he⟩ | ⟨s, hs⟩
    · simpa only [World.handle, he] using h
    · simpa only [World.handle, hs] using h

lemma World.Sound.withApprovals (h : w.Sound) {result : Except ApprovalError Rows}
    (hstep : w.withApprovals result = some w') : w'.Sound := by
  cases result with
  | error e => cases hstep
  | ok rows =>
    cases hstep
    exact h

lemma World.Sound.withProjects (h : w.Sound) {result : Except RegistryError Projects}
    (hstep : w.withProjects result = some w') : w'.Sound := by
  cases result with
  | error e => cases hstep
  | ok projects =>
    cases hstep
    exact h

lemma Booked.cancelled {task : Option Task}
    (h : Booked (some .pending) task writes consumed) (hstage : ∀ t, task = some t → ¬ t.stage.applying) :
    Booked (some .stale) task writes consumed := by
  cases task with
  | none => exact h.1
  | some task =>
    obtain ⟨proposal, approvalId, stage⟩ := task
    have hnot := hstage _ rfl
    cases stage with
    | replacing => exact absurd trivial hnot
    | emitting => exact absurd trivial hnot
    | consuming => exact absurd trivial hnot
    | recording => exact absurd trivial hnot
    | staling => exact ⟨by simp, by simp, h.2.2⟩
    | rejecting => exact ⟨by simp, by simp, h.2.2⟩
    | discarding => exact absurd rfl h.2.1

lemma World.Sound.step (h : w.Sound) {e : Event} (hgood : Undisturbed sha256 w e)
    (hstep : w.step sha256 e = some w') : w'.Sound := by
  cases e with
  | propose proposal =>
    simp only [World.step, Option.ite_none_right_eq_some, Option.some.injEq] at hstep
    obtain ⟨⟨hnone, hpending⟩, rfl⟩ := hstep
    refine h.frame proposal.proposalId (fun proposalId hne => ⟨?_, rfl, rfl, rfl⟩) ?_
    · simp [status, Table.get_put, hne]
    · have hbooked := h proposal.proposalId
      have hstatus : w.status proposal.proposalId = none := by simp [status, hnone]
      rw [hstatus] at hbooked
      cases htask : w.tasks proposal.proposalId with
      | none =>
        rw [htask] at hbooked
        simp only [status, Table.get_put_self, hpending, Option.map_some]
        exact hbooked
      | some task =>
        obtain ⟨proposal', approvalId, stage⟩ := task
        rw [htask] at hbooked
        cases stage <;> simp [Booked] at hbooked
  | requestApproval r => exact h.withApprovals hstep
  | decideApproval d => exact h.withApprovals hstep
  | consumeApproval c => exact h.withApprovals hstep
  | createProject registration now => exact h.withProjects hstep
  | replaceProject registration now expected => exact h.withProjects hstep
  | deleteProject projectId => exact h.withProjects hstep
  | handle proposal approvalId now remote =>
    simp only [World.step, Option.ite_none_right_eq_some, Option.isNone_iff_eq_none, Option.some.injEq] at hstep
    obtain ⟨hfree, rfl⟩ := hstep
    exact h.handle hfree
  | advance id clock =>
    obtain ⟨task, htask, rfl⟩ := Option.map_eq_some_iff.mp hstep
    exact h.advance htask hgood
  | fail id =>
    cases hstep
    exact h.ended hgood
  | crash =>
    cases hstep
    exact fun proposalId => (h proposalId).ended (hgood proposalId)
  | cancel id =>
    obtain ⟨stores, hstores, rfl⟩ := Option.map_eq_some_iff.mp hstep
    have hbooked := h id
    rw [show w.status id = some .pending from (transitionProposal_some hstores id).1] at hbooked
    refine h.frame id (fun proposalId hne => ⟨?_, rfl, rfl, rfl⟩) ?_
    · simpa [status, hne] using (transitionProposal_some hstores proposalId).2
    · have hstatus := (transitionProposal_some hstores id).2
      rw [if_pos rfl] at hstatus
      simpa [status, hstatus] using hbooked.cancelled hgood

lemma World.atomic_of_sound (h : w.Sound) : w.Atomic := by
  intro proposalId status hstatus hdecided
  have hbooked := h proposalId
  rw [hstatus] at hbooked
  cases htask : w.tasks proposalId with
  | none =>
    rw [htask] at hbooked
    cases status with
    | pending => exact absurd rfl hdecided
    | approved =>
      obtain ⟨approvalId, hwrites, hconsumed⟩ := hbooked
      exact ⟨by simp [hwrites], fun _ => ⟨approvalId, hwrites, hconsumed⟩⟩
    | rejected => simp [show usedBy proposalId w.writes = [] from hbooked]
    | stale => simp [show usedBy proposalId w.writes = [] from hbooked]
  | some task =>
    obtain ⟨proposal, approvalId, stage⟩ := task
    rw [htask] at hbooked
    cases stage <;> simp_all [Booked]

/-- Where every decision that has written the registry comes to its end with its approval still
good, decisions are atomic. -/
theorem World.atomic {sha256 : Bytes → String} {w : World} (h : (World.decisions sha256).Reached (Undisturbed sha256) w) :
    w.Atomic := by
  have hinit : (decisions sha256).init.Sound := fun _ => ⟨rfl, rfl⟩
  refine atomic_of_sound (h.invariant hinit ?_)
  intro w e w' hsound hgood hstep
  exact hsound.step hgood hstep

end Lemmas

def plainRemote : Remote := ⟨.done (), fun _ => .done true, fun _ path => .done path⟩

/-- The proposal, approved and about to be written. -/
def approvedLogs : List Event :=
  [.createProject webProject.toProjectRegistration proposedAt,
    .requestApproval ⟨"approval", registryUpdateIntent logsProposal, proposedAt, defaultTtlMinutes, .notApplicable⟩,
    .decideApproval ⟨"approval", .approve, proposedAt, none, none, none, none, none⟩,
    .propose logsProposal,
    .handle logsProposal "approval" proposedAt plainRemote]

/-- The decision writes the registry and then stops; it is made once more. -/
def retried : List Event :=
  [.advance "proposal" proposedAt, .crash, .handle logsProposal "approval" proposedAt plainRemote,
    .advance "proposal" proposedAt]

theorem stale_though_written : ¬ ∀ sha256 w, (decisions sha256).Reached (fun _ _ => True) w → w.Atomic := by
  intro hall
  have hrun : (decisions fun _ => "").runFrom {} (approvedLogs ++ retried) = some _ := rfl
  have h := hall _ _ (System.Reached.runFrom .start _ (fun _ _ _ => trivial) hrun)
  obtain ⟨happroved, -⟩ := h "proposal" .stale rfl (by decide)
  exact absurd (happroved.mpr (by decide)) (by decide)

theorem atomic_logs : ∃ w, (decisions fun _ => "").runFrom {} (approvedLogs ++
    List.replicate 4 (.advance "proposal" proposedAt)) = some w ∧ w.status "proposal" = some .approved ∧ w.Atomic := by
  have hstart : (decisions fun _ => "").Reached (Undisturbed fun _ => "") {} := .start
  have hproject := hstart.next (.createProject webProject.toProjectRegistration proposedAt) (by trivial) rfl
  have hrequest := hproject.next (.requestApproval
    ⟨"approval", registryUpdateIntent logsProposal, proposedAt, defaultTtlMinutes, .notApplicable⟩) (by trivial) rfl
  have happrove := hrequest.next (.decideApproval ⟨"approval", .approve, proposedAt, none, none, none, none, none⟩)
    (by trivial) rfl
  have hpropose := happrove.next (.propose logsProposal) (by trivial) rfl
  have hhandle := hpropose.next (.handle logsProposal "approval" proposedAt plainRemote) (by trivial) rfl
  have hreplace := hhandle.next (.advance "proposal" proposedAt) (by rintro _ ⟨⟩ ⟨⟩) rfl
  have hemit := hreplace.next (.advance "proposal" proposedAt) (by rintro _ ⟨⟩ ⟨⟩) rfl
  have hconsume := hemit.next (.advance "proposal" proposedAt) (by
    rintro _ ⟨⟩ -
    exact ⟨_, rfl, rfl, rfl, rfl, by decide⟩) rfl
  have hrecord := hconsume.next (.advance "proposal" proposedAt) (by rintro _ ⟨⟩ ⟨⟩) rfl
  exact ⟨_, rfl, rfl, atomic hrecord⟩

end IncidentLens.Proposals
