import IncidentLens.Investigations.Resume

/-!
# Where a loop comes to rest

Most operations of the loop leave the status of every run as it is. A stride behind which the
loop returns leaves its run in another status than `running`, and the first stride of a loop
that is entered with a run at rest moves the run.
-/
namespace IncidentLens.Investigations
open Data Effects StateError StateError Walks List

def Database.status (db : Database) (agentRunId : String) : Option AgentRunStatus :=
  (db.runs.get agentRunId).map (·.status)

lemma status_of_get {db : Database} {id : String} {run : AgentRun} (h : db.runs.get id = some run) :
    db.status id = some run.status := by
  rw [Database.status, h]
  rfl

lemma status_withRun (db : Database) (r : AgentRun) (id : String) :
    (db.withRun r).status id = if id = r.agentRunId then some r.status else db.status id := by
  simp only [Database.status, Database.withRun_runs, Table.get_put]
  split_ifs <;> rfl

/-- No run changes its status, and no run or task is added. -/
structure Unmoved (db db' : Database) : Prop where
  status : ∀ id, db'.status id = db.status id
  runIds : db'.runIds = db.runIds
  delegatedTasks : db'.delegatedTasks = db.delegatedTasks

lemma Unmoved.refl (db : Database) : Unmoved db db := ⟨fun _ => rfl, rfl, rfl⟩

variable {db db' : Database}

lemma Unmoved.of_runs (h : db'.runs = db.runs) (hids : db'.runIds = db.runIds)
    (htasks : db'.delegatedTasks = db.delegatedTasks) : Unmoved db db' := by
  refine ⟨fun id => ?_, hids, htasks⟩
  rw [Database.status, Database.status, h]

lemma Unmoved.trans {db db' db'' : Database} (h : Unmoved db db') (h' : Unmoved db' db'') : Unmoved db db'' where
  status id := (h'.status id).trans (h.status id)
  runIds := h'.runIds.trans h.runIds
  delegatedTasks := h'.delegatedTasks.trans h.delegatedTasks

lemma Unmoved.symm (h : Unmoved db db') : Unmoved db' db :=
  ⟨fun id => (h.status id).symm, h.runIds.symm, h.delegatedTasks.symm⟩

lemma unmoved_of_steps (h : Relation.ReflTransGen Unmoved db db') : Unmoved db db' := by
  induction h with
  | refl => exact .refl _
  | tail _ hstep ih => exact ih.trans hstep

lemma unmoved_withRun {db : Database} {r stored : AgentRun} (hstored : db.runs.get r.agentRunId = some stored)
    (hstatus : stored.status = r.status) : Unmoved db (db.withRun r) := by
  refine ⟨fun id => ?_, rfl, rfl⟩
  rw [status_withRun]
  split_ifs with hid
  · rw [hid, status_of_get hstored, hstatus]
  · rfl

/-- The operations that leave every status alone. -/
def standing : Invariant Unmoved := ⟨fun _ => True, fun _ _ _ _ => trivial⟩

section Standing
variable {α : Type} {V : α → Prop}

variable {m : DatabaseM α}

lemma standing_unmoved (h : Walks standing m V) (db : Database) :
    wp m (fun r db' => Unmoved db db' ∧ ∀ a, r = .ok a → V a) db :=
  wp_mono (h db trivial) fun _ _ ht => ⟨unmoved_of_steps ht.1, ht.2⟩

lemma standing_modify {f : Database → Database} (h : ∀ db, Unmoved db (f db)) :
    Walks standing (modify f : DatabaseM PUnit) fun _ => True := modify fun db _ => h db

lemma standing_getAgentRun (id : String) :
    Walks standing (onStore (getAgentRun id)) fun run => run.agentRunId = id := by
  intro db _
  rw [wp_getAgentRun]
  cases h : db.runs.get id with
  | none => exact ⟨.refl, of_raised⟩
  | some run =>
    refine ⟨.refl, ?_⟩
    rintro _ ⟨⟩
    exact db.runs.keyed _ _ h

lemma standing_getInvestigation (id : String) : Walks standing (onStore (getInvestigation id)) fun _ => True := by
  intro db _
  rw [wp_getInvestigation]
  cases db.investigations.get id <;> exact ⟨.refl, fun _ _ => trivial⟩

lemma standing_updateAgentRun (r : AgentRun) : Walks standing (onStore (updateAgentRun r)) fun _ => True := by
  intro db _
  rw [wp_updateAgentRun]
  cases h : db.runs.get r.agentRunId with
  | none => exact ⟨.refl, fun _ _ => trivial⟩
  | some stored =>
    dsimp only
    split_ifs with hstatus
    · exact ⟨.single (unmoved_withRun h hstatus), fun _ _ => trivial⟩
    · exact ⟨.refl, fun _ _ => trivial⟩

lemma standing_updateInvestigation (i : Investigation) :
    Walks standing (onStore (updateInvestigation i)) fun _ => True := by
  intro db _
  rw [wp_updateInvestigation]
  cases db.investigations.get i.investigationId with
  | none => exact ⟨.refl, fun _ _ => trivial⟩
  | some stored =>
    dsimp only
    split_ifs
    · exact ⟨.single (.of_runs rfl rfl rfl), fun _ _ => trivial⟩
    · exact ⟨.refl, fun _ _ => trivial⟩

lemma standing_transitionInvestigation (i : Investigation) (target : InvestigationStatus) (now : Time)
    (stopReason : Option StopReason) :
    Walks standing (transitionInvestigation i target now stopReason) fun _ => True := by
  intro db _
  rw [wp_transitionInvestigation]
  cases db.investigations.get i.investigationId with
  | none => exact ⟨.refl, fun _ _ => trivial⟩
  | some stored =>
    dsimp only
    split_ifs
    · exact ⟨.single (.of_runs rfl rfl rfl), fun _ _ => trivial⟩
    · exact ⟨.refl, fun _ _ => trivial⟩

lemma standing_transitionToolCallStatus (id : String) (target : ToolCallStatus) (record : ToolCall → ToolCall) :
    Walks standing (onStore (transitionToolCallStatus id target record)) fun _ => True := by
  intro db _
  rw [wp_transitionToolCallStatus]
  cases db.toolCalls.get id with
  | none => exact ⟨.refl, fun _ _ => trivial⟩
  | some c =>
    dsimp only
    split_ifs
    · exact ⟨.single (.of_runs rfl rfl rfl), fun _ _ => trivial⟩
    · exact ⟨.refl, fun _ _ => trivial⟩

lemma standing_reloadPair (id : String) : Walks standing (reloadPair id) fun pair => pair.1.agentRunId = id := by
  refine (standing_getAgentRun id).bind fun run hrun => ?_
  exact (standing_getInvestigation run.investigationId).bind fun _ _ => pure hrun

lemma standing_appendMessage (id : String) (message : Message) :
    Walks standing (appendMessage id message) fun _ => True := standing_modify fun _ => .of_runs rfl rfl rfl

lemma standing_getEvidence (id : String) : Walks standing (getEvidence id) fun _ => True := by
  intro db _
  simp only [getEvidence, wp_bind, wp_get]
  cases db.evidence.get id <;> exact ⟨.refl, fun _ _ => trivial⟩

lemma standing_transaction (hm : Walks standing m V) : Walks standing (transaction m) V := by
  intro db hold
  rw [wp_transaction]
  refine wp_mono (hm db hold) ?_
  intro r t ht
  cases r with
  | ok a => exact ht
  | error e => exact ⟨.refl, of_raised⟩

/-! ### Reports -/

lemma standing_deliverChildReportReceipt (receipt : ChildReportReceipt) (parent : AgentRun)
    (investigation : Investigation) (notification : Message) (now : Time) :
    Walks standing (deliverChildReportReceipt receipt parent investigation notification now) fun _ => True := by
  refine get_bind fun db hold => ?_
  cases db.receipts.get receipt.childRunId with
  | none => exact ⟨.refl, fun _ _ => trivial⟩
  | some stored =>
    dsimp only
    refine ite (I := standing) (fun _ => pure trivial) (fun _ => ?_) db hold
    refine ite (fun _ => throw _) fun _ => standing_transaction ?_
    refine (standing_updateAgentRun _).bind fun _ _ => ?_
    refine (standing_updateInvestigation _).bind fun _ _ => ?_
    exact (standing_appendMessage _ _).bind fun _ _ => standing_modify fun _ => .of_runs rfl rfl rfl

lemma standing_deliverReceipt (id : String) (now : Time) (receipt : ChildReportReceipt) :
    Walks standing (deliverReceipt id now receipt) fun _ => True := by
  refine (standing_reloadPair id).bind fun pair _ => ?_
  obtain ⟨run, investigation⟩ := pair
  refine (standing_getEvidence _).bind fun evidence _ => ?_
  dsimp only
  split
  · exact throw _
  · exact standing_deliverChildReportReceipt _ _ _ _ _

lemma standing_deliverPendingChildReports (id : String) (now : Time) :
    Walks standing (deliverPendingChildReports id now) fun _ => True :=
  get_bind fun _ hold => forM _ (fun receipt _ => standing_deliverReceipt id now receipt) _ hold

lemma standing_ensureChildReportReceipt (reporting : Reporting) (child : AgentRun)
    (package : DelegatedTaskPackage) (error : Option String) (now : Time) :
    Walks standing (ensureChildReportReceipt reporting child package error now) fun _ => True := by
  refine get_bind fun db hold => ?_
  cases db.receipts.get child.agentRunId with
  | some _ => exact ⟨.refl, fun _ _ => trivial⟩
  | none =>
    refine bind (I := standing) (standing_getInvestigation _) (fun _ _ => ?_) db hold
    refine bind (standing_modify fun _ => .of_runs rfl rfl rfl) fun _ _ => ?_
    refine get_bind fun db hold => ?_
    split
    · exact ite (I := standing) (fun _ => pure trivial) (fun _ => throw _) db hold
    · exact ⟨.single (.of_runs rfl rfl rfl), fun _ _ => trivial⟩

/-! ### Rounds -/

lemma standing_closeRound (run : AgentRun) (evidenceBefore : List String) :
    Walks standing (closeRound run evidenceBefore) fun closed => closed.agentRunId = run.agentRunId := by
  refine (standing_getInvestigation _).bind fun investigation _ => ?_
  refine (standing_updateAgentRun _).bind fun _ _ => ?_
  exact (standing_updateInvestigation _).bind fun _ _ => pure rfl

lemma standing_persistConclusion (run : AgentRun) (conclusion : Conclusion) :
    Walks standing (persistConclusion run conclusion) fun _ => True :=
  ite (fun _ => pure trivial) fun _ => standing_modify fun _ => .of_runs rfl rfl rfl

lemma standing_countTurn (run : AgentRun) (outputBytes : ℕ) :
    Walks standing (countTurn run outputBytes) fun counted => counted.agentRunId = run.agentRunId := by
  refine (standing_updateAgentRun _).bind fun _ _ => ?_
  refine (standing_getAgentRun _).bind fun stored hstored => ?_
  refine (standing_updateAgentRun _).bind fun _ _ => ?_
  rw [hstored]
  exact standing_getAgentRun _

lemma wp_standing_bind {β : Type} {f : α → DatabaseM β} {db : Database}
    {Q : Except Raised β → Database → Prop} (hm : Walks standing m V)
    (hf : ∀ a db', V a → Unmoved db db' → wp (f a) Q db') (hraised : ∀ e db', Q (.error e) db') :
    wp (m >>= f) Q db := by
  rw [wp_bind]
  refine wp_mono (standing_unmoved hm db) ?_
  rintro r db' ⟨hmoved, hV⟩
  cases r with
  | ok a => exact hf a db' (hV a rfl) hmoved
  | error e => exact hraised e db'

lemma wp_behind {β : Type} {f : α → DatabaseM β} {db : Database}
    {Q : Except Raised β → Database → Prop} (hf : ∀ a db', wp (f a) Q db')
    (hraised : ∀ e db', Q (.error e) db') : wp (m >>= f) Q db := by
  rw [wp_bind]
  refine wp_mono (Q := fun _ _ => True) trivial ?_
  intro r db' _
  cases r with
  | ok a => exact hf a db'
  | error e => exact hraised e db'

end Standing

/-! ### Rest -/

/-- Where `m` returns, the run is not running. -/
def Rests {α : Type} (id : String) (m : DatabaseM α) : Prop :=
  ∀ db, wp m (fun r db' => ∀ a, r = .ok a → db'.status id ≠ some .running) db

section Rests
variable {α β : Type} {V : α → Prop} {id : String}

variable {m : DatabaseM α} {run : AgentRun}

lemma Rests.bind {f : α → DatabaseM β} (hm : Rests id m) {W : β → Prop}
    (hf : ∀ a, Walks standing (f a) W) : Rests id (m >>= f) := by
  intro db
  rw [wp_bind]
  refine wp_mono (hm db) ?_
  intro r db' hr
  cases r with
  | ok a =>
    refine wp_mono (standing_unmoved (hf a) db') ?_
    rintro _ db'' ⟨hmoved, _⟩ _ _
    rw [hmoved.status id]
    exact hr a rfl
  | error e => exact of_raised

lemma rests_bind {f : α → DatabaseM β} (hm : Walks standing m V)
    (hf : ∀ a, V a → Rests id (f a)) : Rests id (m >>= f) :=
  fun _ => wp_standing_bind hm (fun a db' ha _ => hf a ha db') fun _ _ => of_raised

lemma rests_ite {c : Prop} [Decidable c] {m m' : DatabaseM α} (hm : Rests id m) (hm' : Rests id m') :
    Rests id (if c then m else m') := by
  split_ifs
  · exact hm
  · exact hm'

/-- Where `m` returns, the run has a given status. -/
def Lands (id : String) (status : AgentRunStatus) (m : DatabaseM α) : Prop :=
  ∀ db, wp m (fun r db' => ∀ a, r = .ok a → db'.status id = some status) db

lemma Lands.rests {status : AgentRunStatus} (hm : Lands id status m) (hstatus : status ≠ .running) : Rests id m := by
  intro db
  refine wp_mono (hm db) ?_
  intro r db' hr a ha
  rw [hr a ha]
  simpa using hstatus

lemma lands_transitionRun (hid : run.agentRunId = id) (target : AgentRunStatus) (now : Time)
    (stopReason : Option StopReason) : Lands id target (transitionRun run target now stopReason) := by
  subst hid
  intro db
  rw [wp_transitionRun]
  cases h : db.runs.get run.agentRunId with
  | none => exact of_raised
  | some stored =>
    dsimp only
    split_ifs
    · intro _ _
      rw [status_withRun, AgentRun.moved_agentRunId, db.runs.keyed _ _ h, if_pos rfl]
      rfl
    · exact fun _ h => h.elim

lemma transitionRun_agentRunId (run : AgentRun) (target : AgentRunStatus) (now : Time)
    (stopReason : Option StopReason) (db : Database) : wp (transitionRun run target now stopReason)
      (fun r _ => ∀ moved, r = .ok moved → moved.agentRunId = run.agentRunId) db := by
  rw [wp_transitionRun]
  cases h : db.runs.get run.agentRunId with
  | none => exact of_raised
  | some stored =>
    dsimp only
    split_ifs
    · rintro _ ⟨⟩
      exact (stored.moved_agentRunId target now stopReason).trans (db.runs.keyed _ _ h)
    · exact fun _ h => h.elim

lemma lands_pauseRun (hid : run.agentRunId = id) (investigation : Investigation)
    (runStatus : AgentRunStatus) (stopReason : StopReason) (now : Time) :
    Lands id runStatus (pauseRun run investigation runStatus stopReason now) := by
  intro db
  rw [wp_pauseRun]
  refine wp_mono (lands_transitionRun hid runStatus now (some stopReason) db) ?_
  intro r db' hr
  cases r with
  | error e => exact of_raised
  | ok moved =>
    have hrest : Walks standing (if run.kind = .parent then transitionInvestigation investigation
        (investigationPause runStatus) now (some stopReason) else pure ⟨⟩) fun _ => True :=
      ite (fun _ => standing_transitionInvestigation _ _ _ _) fun _ => pure trivial
    refine wp_mono (standing_unmoved hrest db') ?_
    rintro _ db'' ⟨hmoved, _⟩ _ _
    rw [hmoved.status id]
    exact hr moved rfl

lemma rests_transitionRun (hid : run.agentRunId = id) {t : AgentRunStatus}
    (htarget : t ≠ .running) (now : Time) (stopReason : Option StopReason) :
    Rests id (transitionRun run t now stopReason) := (lands_transitionRun hid t now stopReason).rests htarget

lemma rests_pauseRun (hid : run.agentRunId = id) (investigation : Investigation)
    {runStatus : AgentRunStatus} (hstatus : runStatus ≠ .running) (stopReason : StopReason) (now : Time) :
    Rests id (pauseRun run investigation runStatus stopReason now) :=
  (lands_pauseRun hid investigation runStatus stopReason now).rests hstatus

lemma rests_failRun (hid : run.agentRunId = id) (investigation : Investigation) (now : Time) :
    Rests id (failRun run investigation now) := by
  refine (rests_transitionRun hid (by decide) now _).bind (W := fun _ => True) fun _ => ?_
  exact ite (fun _ => standing_transitionInvestigation _ _ _ _) fun _ => pure trivial

lemma pauseStatusFor_ne_running (reason : String) : pauseStatusFor reason ≠ .running := by
  unfold pauseStatusFor
  split_ifs <;> decide

lemma rests_handleStop (hid : run.agentRunId = id) (investigation : Investigation)
    (reason : StopReason) (conclusions : List Conclusion) (now : Time) :
    Rests id (handleStop run investigation reason conclusions now) := by
  have hend : ∀ target stopReason goal, target ≠ .running →
      Rests id (do
        let _ ← transitionRun run target now stopReason
        if run.kind = .parent then transitionInvestigation investigation goal now stopReason) := by
    intro target stopReason goal htarget
    refine (rests_transitionRun hid htarget now _).bind (W := fun _ => True) fun _ => ?_
    exact ite (fun _ => standing_transitionInvestigation _ _ _ _) fun _ => pure trivial
  cases reason with
  | completed =>
    refine rests_ite (rests_pauseRun hid _ (by decide) _ now) ?_
    refine rests_bind (V := fun _ => True) ?_ fun _ _ => hend _ _ _ (by decide)
    exact forM _ fun conclusion _ => standing_persistConclusion run conclusion
  | missingEvidence => exact rests_pauseRun hid _ (by decide) _ now
  | pendingApproval => exact rests_pauseRun hid _ (by decide) _ now
  | uncertainState => exact rests_pauseRun hid _ (by decide) _ now
  | cancelled =>
    intro db
    rw [handleStop, wp_bind]
    refine wp_mono (rests_transitionRun hid (t := .cancelRequested) (by decide) now _ db) ?_
    intro r db' _
    cases r with
    | error e => exact of_raised
    | ok _ =>
      refine Rests.bind (W := fun _ => True) (rests_transitionRun hid (by decide) now _) (fun _ => ?_) db'
      refine ite (fun _ => ?_) fun _ => pure trivial
      exact (standing_transitionInvestigation _ _ _ _).bind fun _ _ => standing_transitionInvestigation _ _ _ _
  | _ => exact rests_failRun hid investigation now

lemma Lands.returned {β : Type} {status : AgentRunStatus} (hm : Lands id status m) (b : β) :
    Lands id status (do
      let _ ← m
      return b) := by
  intro db
  rw [wp_bind]
  refine wp_mono (hm db) ?_
  intro r db' hr
  cases r with
  | ok a => exact fun _ _ => hr a rfl
  | error e => exact of_raised

lemma ends_syncRunToInvestigation {investigation : Investigation} (now : Time) {db : Database}
    (hrow : db.runs.get run.agentRunId = some run) :
    wp (syncRunToInvestigation run investigation now) (fun r db' => ∀ a, r = .ok a →
      ∃ status, db'.status run.agentRunId = some status ∧ agentRunStateMachine.isTerminal status = true) db := by
  have hmove : ∀ target stopReason, agentRunStateMachine.isTerminal target = true → ∀ db, wp (do
      let _ ← transitionRun run target now (some stopReason)
      pure PUnit.unit) (fun r db' => ∀ a, r = .ok a →
        ∃ status, db'.status run.agentRunId = some status ∧ agentRunStateMachine.isTerminal status = true) db := by
    intro target stopReason htarget db
    refine wp_mono ((lands_transitionRun rfl target now (some stopReason)).returned PUnit.unit db) ?_
    intro r db' hr a ha
    exact ⟨target, hr a ha, htarget⟩
  unfold syncRunToInvestigation
  split_ifs with hterminal
  · exact fun _ _ => ⟨run.status, status_of_get hrow, hterminal⟩
  · exact hmove .completed .completed (by decide) db
  · exact hmove .cancelled .cancelled (by decide) db
  · exact wp_behind (fun _ db₁ => hmove .cancelled .cancelled (by decide) db₁) fun _ _ => of_raised
  · exact hmove .failed .failed (by decide) db

lemma rests_conclude (investigation : Investigation) (after : AfterDrain) (now : Time)
    {db : Database} (hrow : after = .sync → db.runs.get run.agentRunId = some run) :
    wp (conclude run investigation now after)
      (fun r db' => ∀ a, r = .ok a → db'.status run.agentRunId ≠ some .running) db := by
  cases after with
  | sync =>
    refine wp_mono (ends_syncRunToInvestigation now (hrow rfl)) ?_
    intro r db' hr a ha hrunning
    obtain ⟨status, hstatus, hterminal⟩ := hr a ha
    rw [Option.some.inj (hstatus.symm.trans hrunning)] at hterminal
    cases hterminal
  | cancel =>
    refine Rests.bind (W := fun _ => True) (rests_transitionRun rfl (by decide) now _) (fun _ => ?_) db
    exact ite (fun _ => standing_transitionInvestigation _ _ _ _) fun _ => pure trivial
  | pause reason => exact rests_pauseRun rfl investigation (pauseStatusFor_ne_running reason) _ now db
  | fail => exact rests_failRun rfl investigation now db
  | stop reason conclusions evidenceBefore =>
    refine Rests.bind (W := fun _ => True) (rests_handleStop rfl investigation reason conclusions now)
      (fun _ => ?_) db
    refine (standing_getAgentRun _).bind fun run _ => ?_
    exact (standing_closeRound run evidenceBefore).bind fun _ _ => pure trivial

end Rests

/-! ### Strides -/

/-- A suspended loop holds copies of its own run, and its gate did not stop the round. -/
def Point.Of (id : String) : Point → Prop
  | .building run _ | .calling run _ | .recompacting run _ => run.agentRunId = id
  | .executing round => round.gated.stop = false
  | _ => True

/-- A stride brings the run to rest, or leaves the loop at one of its points. -/
def Settled (id : String) (r : Except Raised Stride) (db : Database) : Prop :=
  ∀ s, r = .ok s → db.status id ≠ some .running ∨ ∃ point, s.point = some point ∧ point.Of id

section Settled
variable {α : Type} {V : α → Prop} {id : String} {db : Database}

lemma settled_error (e : Raised) : Settled id (.error e) db := of_raised

lemma settled_at {p : Point} (hpoint : p.Of id) (pendingChildren : List String)
    (spawned : List DelegatedTaskPackage) : Settled id (.ok ⟨some p, pendingChildren, spawned⟩) db := by
  rintro _ ⟨⟩
  exact .inr ⟨p, rfl, hpoint⟩

lemma settled_rest (hrest : db.status id ≠ some .running) (s : Stride) : Settled id (.ok s) db := by
  rintro _ ⟨⟩
  exact .inl hrest

lemma settled_roundEnd {stop : Bool} (hrest : stop = true → db.status id ≠ some .running)
    (spawned : Spawned) : Settled id (.ok (roundEnd stop spawned)) db := by
  cases stop with
  | true => exact settled_rest (hrest rfl) _
  | false => exact settled_at (p := .yielding) trivial _ _

variable {m : DatabaseM α} {run : AgentRun} {h : Harness} {loop : Loop} {now : Time} {answer : Answer}
  {step : DatabaseM Stride}

lemma Rests.settled (hm : Rests id m) (spawned : Spawned) :
    wp (do
      let _ ← m
      return roundEnd true spawned) (Settled id) db := by
  rw [wp_bind]
  refine wp_mono (hm db) ?_
  intro r db' hr
  cases r with
  | ok a => exact settled_roundEnd (fun _ => hr a rfl) spawned
  | error e => exact settled_error e

lemma settled_bind {f : α → DatabaseM Stride} (hm : Walks standing m V)
    (hf : ∀ a db', V a → Unmoved db db' → wp (f a) (Settled id) db') : wp (m >>= f) (Settled id) db :=
  wp_standing_bind hm hf fun e _ => settled_error e

lemma settled_behind {f : α → DatabaseM Stride}
    (hf : ∀ a db', wp (f a) (Settled id) db') : wp (m >>= f) (Settled id) db :=
  wp_behind hf fun e _ => settled_error e

lemma settled_conclude (investigation : Investigation) (after : AfterDrain) (now : Time)
    (hrow : after = .sync → db.runs.get run.agentRunId = some run) :
    wp (do
      conclude run investigation now after
      return ⟨none, [], []⟩) (Settled run.agentRunId) db := by
  rw [wp_bind]
  refine wp_mono (rests_conclude investigation after now hrow) ?_
  intro r db' hr
  cases r with
  | ok a => exact settled_rest (hr a rfl) _
  | error e => exact settled_error e

lemma settled_drainAllChildren (hid : run.agentRunId = id) (investigation : Investigation)
    (pendingChildren : List String) (after : AfterDrain) (now : Time)
    (hrow : after = .sync → db.runs.get run.agentRunId = some run) :
    wp (drainAllChildren run investigation pendingChildren after now) (Settled id) db := by
  subst hid
  have hdraining : ∀ db' wasRunning, wp (pure ⟨some (.draining wasRunning after), pendingChildren, []⟩)
      (Settled run.agentRunId) db' := fun _ wasRunning =>
    settled_at (p := .draining wasRunning after) trivial _ _
  unfold drainAllChildren
  dsimp only
  split_ifs with hnone hrunning
  · exact settled_conclude investigation after now hrow
  · exact settled_behind fun _ db' => hdraining db' _
  · exact hdraining db _

lemma wp_reloaded {Q : Except Raised Stride → Database → Prop} {f : AgentRun × Investigation → DatabaseM Stride}
    (hf : ∀ run investigation, run.agentRunId = id → db.runs.get id = some run →
      db.investigations.get run.investigationId = some investigation → wp (f (run, investigation)) Q db)
    (hraised : ∀ e, Q (.error e) db) : wp (reloadPair id >>= f) Q db := by
  rw [wp_bind, wp_reloadPair]
  cases hrun : db.runs.get id with
  | none => exact hraised _
  | some run =>
    dsimp only
    cases hinv : db.investigations.get run.investigationId with
    | none => exact hraised _
    | some investigation => exact hf run investigation (db.runs.keyed _ _ hrun) hrun hinv

lemma settled_finishDrain (wasRunning : Bool) (after : AfterDrain) (now : Time) :
    wp (finishDrain id wasRunning after now) (Settled id) db := by
  refine settled_behind fun pair db' => ?_
  refine settled_behind fun _ db' => settled_behind fun _ db' => ?_
  have hrest : ∀ db', wp (do
      deliverPendingChildReports id now
      let pair ← reloadPair id
      conclude pair.1 pair.2 now after
      return ⟨none, [], []⟩) (Settled id) db' := by
    intro db'
    refine settled_behind fun _ db' => wp_reloaded (fun run investigation hid hrun _ => ?_) fun e => settled_error e
    subst hid
    exact settled_conclude investigation after now fun _ => hrun
  dsimp only
  split_ifs
  · exact settled_behind fun _ db' => hrest db'
  · exact hrest db'

/-! ### Batches -/

def KeepsRest (id : String) (db db' : Database) : Prop := db.status id ≠ some .running → db'.status id ≠ some .running

def resting (id : String) : Invariant (KeepsRest id) :=
  ⟨fun db => db.status id ≠ some .running, fun _ _ hrest hkept => hkept hrest⟩

lemma resting_of_standing (hm : Walks standing m V) : Walks (resting id) m V := by
  refine weaken (T := Unmoved) (I := standing) (fun db db' hmoved hrest => ?_) (fun _ _ => trivial) hm
  rw [hmoved.status id]
  exact hrest

lemma rests_refuse (hid : run.agentRunId = id) (investigation : Investigation)
    (reason : String) (now : Time) : Rests id (onStore (refuse run investigation reason now)) := by
  intro db
  rw [refuse, wp_onStore_bind]
  exact Rests.bind (W := fun _ => True) (rests_pauseRun hid investigation (pauseStatusFor_ne_running reason) _ now)
    (fun _ => walks_onStore_pure trivial) db

lemma standing_admitRequest (run : AgentRun) (request : ToolRequest) :
    Walks standing (onStore (admitRequest run request)) fun gated => gated ≠ .stopped := by
  have hload : Walks standing (onStore (loadOrCreateToolCall run request)) fun _ => True := by
    intro db _
    rw [wp_loadOrCreateToolCall]
    cases db.toolCalls.get request.toolCallId with
    | none => exact ⟨.single (.of_runs rfl rfl rfl), fun _ _ => trivial⟩
    | some _ => exact ⟨.refl, fun _ _ => trivial⟩
  refine walks_onStore_bind hload fun toolCall _ => ?_
  split_ifs
  · exact walks_onStore_pure (by simp)
  · refine walks_onStore_bind (standing_transitionToolCallStatus _ _ _) fun _ _ => ?_
    exact walks_onStore_pure (by simp)
  · exact walks_onStore_pure (by simp)

lemma gateRequest_stopped (reserved : ℕ) (request : ToolRequest) (now : Time) :
    wp (onStore (gateRequest id reserved request now))
      (fun r db' => r = .ok .stopped → db'.status id ≠ some .running) db := by
  have hrefuse : ∀ (run : AgentRun) (investigation : Investigation) (reason : String), run.agentRunId = id →
      wp (onStore (refuse run investigation reason now))
        (fun r db' => r = .ok .stopped → db'.status id ≠ some .running) db :=
    fun run investigation reason hid => wp_mono (rests_refuse hid investigation reason now db)
      fun r db' hr hstopped => hr _ hstopped
  rw [gateRequest, wp_onStore_bind, wp_bind, wp_getAgentRun]
  cases hrun : db.runs.get id with
  | none => exact fun h => by cases h
  | some run =>
    have hid : run.agentRunId = id := db.runs.keyed _ _ hrun
    dsimp only
    rw [wp_onStore_bind, wp_bind, wp_getInvestigation]
    cases db.investigations.get run.investigationId with
    | none => exact fun h => by cases h
    | some investigation =>
      dsimp only
      split_ifs
      · exact hrefuse run investigation _ hid
      · exact hrefuse run investigation _ hid
      · refine wp_mono (standing_unmoved (standing_admitRequest run request) db) ?_
        rintro r db' ⟨_, hgated⟩ hstopped
        exact absurd rfl (hgated _ hstopped)

lemma gateBatch_stopped (batch : List ToolRequest) (now : Time) (reserved : ℕ) :
    wp (onStore (gateBatch id now reserved batch))
      (fun r db' => ∀ gated, r = .ok gated → gated.stop = true → db'.status id ≠ some .running) db := by
  induction batch generalizing reserved db with
  | nil =>
    rintro _ ⟨⟩ hstop
    cases hstop
  | cons request batch ih =>
    have hrest : ∀ db (keep : GateResult → GateResult), (∀ gated, (keep gated).stop = gated.stop) →
        wp (onStore (do
          let rest ← gateBatch id now (reserved + 1) batch
          pure (keep rest)))
          (fun r db' => ∀ gated, r = .ok gated → gated.stop = true → db'.status id ≠ some .running) db := by
      intro db keep hkeep
      rw [wp_onStore_bind, wp_bind]
      refine wp_mono (@ih db (reserved + 1)) ?_
      intro r db' hr
      cases r with
      | error e => exact of_raised
      | ok rest =>
        rintro _ ⟨⟩ hstop
        exact hr rest rfl ((hkeep rest).symm.trans hstop)
    rw [gateBatch, wp_onStore_bind, wp_bind]
    refine wp_mono (gateRequest_stopped reserved request now) ?_
    intro r db' hr
    cases r with
    | error e => exact of_raised
    | ok gated =>
      cases gated with
      | stopped =>
        rintro _ ⟨⟩ _
        exact hr rfl
      | resolved block =>
        exact hrest db' (fun rest => { rest with terminalBlocks := block :: rest.terminalBlocks }) fun _ => rfl
      | started => exact hrest db' (fun rest => { rest with pending := request :: rest.pending }) fun _ => rfl

lemma gateCalls_stopped (batch : List ToolRequest) (now : Time) : wp (gateCalls id batch now)
      (fun r db' => ∀ gated, r = .ok gated → gated.stop = true → db'.status id ≠ some .running) db := by
  rw [gateCalls, wp_bind, wp_modify, gate]
  dsimp only
  rw [wp_onStore_bind, wp_bind, wp_getAgentRun]
  split
  · exact gateBatch_stopped batch now _
  · exact of_raised

lemma resting_transitionRun {target : AgentRunStatus} (htarget : target ≠ .running) (now : Time)
    (stopReason : Option StopReason) :
    Walks (resting id) (transitionRun run target now stopReason) fun _ => True := by
  intro db hrest
  rw [wp_transitionRun]
  cases db.runs.get run.agentRunId with
  | none => exact ⟨.refl, fun _ _ => trivial⟩
  | some stored =>
    dsimp only
    split_ifs
    · refine ⟨.single fun hrest => ?_, fun _ _ => trivial⟩
      rw [status_withRun]
      split_ifs
      · simpa using htarget
      · exact hrest
    · exact ⟨.refl, fun _ _ => trivial⟩

lemma resting_pauseRound (run : AgentRun) (investigation : Investigation) {runStatus : AgentRunStatus}
    (hstatus : runStatus ≠ .running) (stopReason : StopReason) (now : Time) :
    Walks (resting id) (onStore (pauseRound run investigation runStatus stopReason now)) fun _ => True := by
  have hrest : Walks (resting id) (transitionRun run runStatus now (some stopReason) >>= fun _ =>
      if run.kind = .parent then transitionInvestigation investigation (investigationPause runStatus) now
        (some stopReason) else pure ⟨⟩) fun _ => True :=
    (resting_transitionRun hstatus now _).bind fun _ _ => resting_of_standing
      (ite (fun _ => standing_transitionInvestigation _ _ _ _) fun _ => pure trivial)
  unfold pauseRound
  split_ifs
  · intro db hdb
    refine (wp_pauseRun run investigation runStatus stopReason now _).mpr ?_
    have h := hrest db hdb
    rw [wp_bind] at h
    refine wp_mono h ?_
    intro r db' hr
    cases r <;> exact hr
  · exact walks_onStore_pure trivial

lemma pauseRound_stopped (hid : run.agentRunId = id) (investigation : Investigation)
    {runStatus : AgentRunStatus} (hstatus : runStatus ≠ .running) (stopReason : StopReason) (now : Time)
    (hrow : db.status id = some run.status) :
    wp (onStore (do
      pauseRound run investigation runStatus stopReason now
      return true)) (fun r db' => r = .ok true → db'.status id ≠ some .running) db := by
  rw [wp_onStore_bind, wp_bind]
  unfold pauseRound
  split_ifs with hrunning
  · refine wp_mono (rests_pauseRun hid investigation hstatus stopReason now db) ?_
    intro r db' hr
    cases r with
    | ok a => exact fun _ => hr a rfl
    | error e => exact fun h => by cases h
  · intro _
    change db.status id ≠ some .running
    rw [hrow]
    simpa using hrunning

lemma resting_keepOutcome (run : AgentRun) (investigation : Investigation) (outcome : ToolOutcome) (now : Time) :
    Walks (resting id) (onStore (keepOutcome run investigation outcome now)) fun _ => True := by
  unfold keepOutcome
  cases appendEvidence run investigation outcome.evidence with
  | none =>
    exact walks_onStore_bind (resting_pauseRound run investigation (by decide) _ now) fun _ _ =>
      walks_onStore_pure trivial
  | some attached =>
    refine walks_onStore_bind (resting_of_standing (standing_updateAgentRun _)) fun _ _ => ?_
    refine walks_onStore_bind (resting_of_standing (standing_updateInvestigation _)) fun _ _ => ?_
    split_ifs
    · exact walks_onStore_bind (resting_pauseRound _ _ (by decide) _ now) fun _ _ => walks_onStore_pure trivial
    · exact walks_onStore_pure trivial

lemma resting_foldToolOutcome (run : AgentRun) (investigation : Investigation) (request : ToolRequest)
    (outcome : ToolOutcome) (now : Time) :
    Walks (resting id) (onStore (foldToolOutcome run investigation request outcome now)) fun _ => True := by
  have hcall : ∀ target record, Walks (resting id)
      (onStore (transitionToolCallStatus request.toolCallId target record)) fun _ => True :=
    fun target record => resting_of_standing (standing_transitionToolCallStatus _ target record)
  unfold foldToolOutcome
  split_ifs
  · refine walks_onStore_bind (hcall _ _) fun _ _ => ?_
    refine walks_onStore_bind (resting_of_standing (standing_updateAgentRun _)) fun _ _ => ?_
    refine walks_onStore_bind (resting_of_standing (standing_updateInvestigation _)) fun _ _ => ?_
    exact walks_onStore_bind (resting_pauseRound _ _ (by decide) _ now) fun _ _ => walks_onStore_pure trivial
  · refine walks_onStore_bind (hcall _ _) fun _ _ => ?_
    exact walks_onStore_bind (resting_pauseRound _ _ (by decide) _ now) fun _ _ => walks_onStore_pure trivial
  · exact walks_onStore_bind (hcall _ _) fun _ _ => resting_keepOutcome run investigation outcome now

lemma resting_foldBatch (outcomes : List ToolOutcome) (now : Time) (pending : List ToolRequest) :
    Walks (resting id) (onStore (foldBatch id outcomes now pending)) fun _ => True := by
  induction pending with
  | nil => exact walks_onStore_pure trivial
  | cons request pending ih =>
    unfold foldBatch
    cases outcomes.find? (·.toolCallId = request.toolCallId) with
    | none => exact walks_onStore_throw _
    | some outcome =>
      refine walks_onStore_bind (resting_of_standing (standing_getAgentRun id)) fun run _ => ?_
      refine walks_onStore_bind (resting_of_standing (standing_getInvestigation _)) fun investigation _ => ?_
      refine walks_onStore_bind (resting_foldToolOutcome run investigation request outcome now) fun _ _ => ?_
      exact walks_onStore_bind ih fun _ _ => walks_onStore_pure trivial

lemma wp_onStore_standing {β γ : Type} {m : StoreM β} {f : β → StoreM γ} {W : β → Prop}
    {Q : Except Raised γ → Database → Prop} (hm : Walks standing (onStore m) W)
    (hf : ∀ a db', W a → Unmoved db db' → wp (onStore (f a)) Q db') (hraised : ∀ e db', Q (.error e) db') :
    wp (onStore (m >>= f)) Q db := by
  rw [wp_onStore_bind]
  exact wp_standing_bind hm hf hraised

lemma foldToolOutcome_stopped (hid : run.agentRunId = id) (investigation : Investigation)
    (request : ToolRequest) (outcome : ToolOutcome) (now : Time) (hrow : db.status id = some run.status) :
    wp (onStore (foldToolOutcome run investigation request outcome now))
      (fun r db' => r = .ok true → db'.status id ≠ some .running) db := by
  have hraised : ∀ (e : Raised) (db' : Database), (Except.error e : Except Raised Bool) = .ok true →
      db'.status id ≠ some .running := fun e db' h => by cases h
  have hcall : ∀ target record, Walks standing
      (onStore (transitionToolCallStatus request.toolCallId target record)) fun _ => True :=
    fun target record => standing_transitionToolCallStatus _ target record
  unfold foldToolOutcome
  split_ifs
  · refine wp_onStore_standing (hcall _ _) (fun _ db₁ _ h₁ => ?_) hraised
    refine wp_onStore_standing (standing_updateAgentRun _) (fun _ db₂ _ h₂ => ?_) hraised
    refine wp_onStore_standing (standing_updateInvestigation _) (fun _ db₃ _ h₃ => ?_) hraised
    exact pauseRound_stopped hid _ (by decide) _ now (by rw [h₃.status id, h₂.status id, h₁.status id, hrow])
  · refine wp_onStore_standing (hcall _ _) (fun _ db₁ _ h₁ => ?_) hraised
    exact pauseRound_stopped hid _ (by decide) _ now (by rw [h₁.status id, hrow])
  · refine wp_onStore_standing (hcall _ _) (fun _ db₁ _ h₁ => ?_) hraised
    unfold keepOutcome
    cases hattached : appendEvidence run investigation outcome.evidence with
    | none => exact pauseRound_stopped hid _ (by decide) _ now (by rw [h₁.status id, hrow])
    | some attached =>
      obtain ⟨hidentity, hstatus⟩ := appendEvidence_identity hattached
      have hcounted : (countRun attached.1 outcome).agentRunId = id :=
        (congrArg RunIdentity.agentRunId hidentity).trans hid
      have hsame : (countRun attached.1 outcome).status = run.status := hstatus
      refine wp_onStore_standing (standing_updateAgentRun _) (fun _ db₂ _ h₂ => ?_) hraised
      refine wp_onStore_standing (standing_updateInvestigation _) (fun _ db₃ _ h₃ => ?_) hraised
      split_ifs
      · exact pauseRound_stopped hcounted _ (by decide) _ now (by rw [h₃.status id, h₂.status id, h₁.status id, hrow, hsame])
      · intro h
        cases h

lemma foldBatch_stopped (outcomes : List ToolOutcome) (now : Time) (pending : List ToolRequest) :
    wp (onStore (foldBatch id outcomes now pending))
      (fun r db' => r = .ok true → db'.status id ≠ some .running) db := by
  induction pending generalizing db with
  | nil =>
    intro h
    cases h
  | cons request pending ih =>
    have hraised : ∀ (e : Raised) (db' : Database), (Except.error e : Except Raised Bool) = .ok true →
        db'.status id ≠ some .running := fun e db' h => by cases h
    unfold foldBatch
    cases outcomes.find? (·.toolCallId = request.toolCallId) with
    | none => exact hraised _ _
    | some outcome =>
      dsimp only
      rw [wp_onStore_bind, wp_bind, wp_getAgentRun]
      cases hrun : db.runs.get id with
      | none => exact hraised _ _
      | some run =>
        dsimp only
        refine wp_onStore_standing (standing_getInvestigation _) (fun investigation db₁ _ h₁ => ?_) hraised
        have hrow : db₁.status id = some run.status := by rw [h₁.status id, status_of_get hrun]
        rw [wp_onStore_bind, wp_bind]
        refine wp_mono (foldToolOutcome_stopped (db.runs.keyed _ _ hrun) investigation request outcome now hrow) ?_
        intro r db₂ hr
        cases r with
        | error e => exact hraised _ _
        | ok stop =>
          dsimp only
          rw [wp_onStore_bind, wp_bind]
          cases stop with
          | true =>
            refine wp_mono (resting_foldBatch outcomes now pending db₂ (hr rfl)) ?_
            rintro r db₃ ⟨hsteps, _⟩
            cases r with
            | error e => exact hraised _ _
            | ok _ => exact fun _ => (resting id).along (hr rfl) hsteps
          | false =>
            refine wp_mono (@ih db₂) ?_
            intro r db₃ hr
            cases r with
            | error e => exact hraised _ _
            | ok rest =>
              cases rest with
              | true => exact fun _ => hr rfl
              | false =>
                intro h
                cases h

/-! ### Rounds with tools -/

lemma settled_finishTools (requests : List ToolRequest) (evidenceBefore : List String)
    (blocks : List ToolResultBlock) (stop resultAppended : Bool) (pendingChildren : List String)
    (hstop : stop = true → db.status id ≠ some .running) :
    wp (finishTools id requests evidenceBefore blocks stop resultAppended pendingChildren) (Settled id) db := by
  have hrest : ∀ db', Unmoved db db' → wp (do
      let run ← onStore (getAgentRun id)
      let run ← closeRound run evidenceBefore
      if stop then return roundEnd true (pendingChildren, [])
      else
        let spawned ← spawnDelegatedPackages run (pendingChildren, [])
        return roundEnd false spawned) (Settled id) db' := by
    intro db₁ h₁
    refine settled_bind (standing_getAgentRun id) fun run db₂ _ h₂ => ?_
    refine settled_bind (standing_closeRound run evidenceBefore) fun run db₃ _ h₃ => ?_
    split_ifs with h
    · have hstopped : db₃.status id ≠ some .running := by
        rw [h₃.status id, h₂.status id, h₁.status id]
        exact hstop h
      exact settled_rest hstopped _
    · exact settled_behind fun spawned db₄ => settled_at (p := .yielding) trivial _ _
  unfold finishTools
  by_cases hresult : resultAppended = true
  · rw [if_pos hresult]
    exact settled_bind (standing_appendMessage _ _) fun _ db₁ _ h₁ => hrest db₁ h₁
  · rw [if_neg hresult]
    exact hrest db (.refl db)

lemma settled_runBatches (requests : List ToolRequest) (evidenceBefore : List String) (resultAppended : Bool)
    (pendingChildren : List String) (now : Time) (batches : List (List ToolRequest)) (blocks : List ToolResultBlock) :
    wp (runBatches id requests evidenceBefore resultAppended pendingChildren now batches blocks) (Settled id) db := by
  induction batches generalizing blocks db with
  | nil =>
    refine settled_finishTools requests evidenceBefore blocks false resultAppended pendingChildren ?_
    intro h
    cases h
  | cons batch rest ih =>
    rw [runBatches, wp_bind]
    refine wp_mono (gateCalls_stopped batch now) ?_
    intro r db' hr
    cases r with
    | error e => exact settled_error e
    | ok gated =>
      dsimp only
      split_ifs with hpending hstop
      · cases hgated : gated.stop with
        | true => exact settled_rest (hr gated rfl hgated) _
        | false =>
          exact settled_at (p := .executing ⟨requests, evidenceBefore, blocks, batch, gated, rest⟩) hgated _ _
      · exact settled_finishTools requests evidenceBefore _ true resultAppended pendingChildren
          fun _ => hr gated rfl hstop
      · exact ih _

lemma settled_afterBatch {round : ToolRound} (hgated : round.gated.stop = false) (outcomes : List ToolOutcome)
    (resultAppended : Bool) (pendingChildren : List String) (now : Time) :
    wp (afterBatch id round outcomes resultAppended pendingChildren now) (Settled id) db := by
  rw [afterBatch, wp_bind]
  refine wp_mono (foldBatch_stopped outcomes now round.gated.pending) ?_
  intro r db' hr
  cases r with
  | error e => exact settled_error e
  | ok stop =>
    cases stop with
    | true =>
      simp only [Bool.or_true, if_true]
      exact settled_finishTools _ _ _ true resultAppended pendingChildren fun _ => hr rfl
    | false =>
      simp only [hgated, Bool.or_false, Bool.false_eq_true, if_false]
      exact settled_runBatches _ _ resultAppended pendingChildren now _ _

lemma settled_afterCompaction (evidenceBefore : List String) (toolCallId : String) (status : ToolCallStatus)
    (content : String) (resultAppended : Bool) (pendingChildren : List String) (now : Time) :
    wp (afterCompaction id evidenceBefore toolCallId status content resultAppended pendingChildren now)
      (Settled id) db := by
  refine wp_reloaded (fun run investigation hid _ _ => ?_) settled_error
  dsimp only
  split_ifs
  · exact (rests_pauseRun hid investigation (by decide) _ now).settled _
  · refine settled_behind fun _ db₁ => settled_behind fun _ db₂ => ?_
    exact settled_at (p := .yielding) trivial _ _

/-! ### Turns -/

lemma settled_delegateChild (h : Harness) (hid : run.agentRunId = id)
    (investigation : Investigation) (request : ChildDelegationRequest) (spawned : Spawned) (now : Time) :
    wp (delegateChild h run investigation request spawned now)
      (fun r db' => ∀ answer, r = .ok answer → answer.1 = true → db'.status id ≠ some .running) db := by
  unfold delegateChild
  cases h.prepare run investigation request with
  | error rejected =>
    have hstop : ∀ m : DatabaseM PUnit, Rests id m → wp (do
        m
        return (true, spawned))
        (fun r db' => ∀ answer, r = .ok answer → answer.1 = true → db'.status id ≠ some .running) db := by
      intro m hm
      rw [wp_bind]
      refine wp_mono (hm db) ?_
      intro r db' hr
      cases r with
      | ok a => exact fun _ _ _ => hr a rfl
      | error e => exact of_raised
    dsimp only
    split_ifs
    · exact hstop _ (rests_failRun hid investigation now)
    · exact hstop _ (rests_pauseRun hid investigation (by decide) _ now)
    · exact hstop _ (rests_pauseRun hid investigation (by decide) _ now)
    · exact hstop _ (rests_failRun hid investigation now)
  | ok package =>
    have hraised : ∀ (e : Raised) (db' : Database), ∀ answer : Bool × Spawned, Except.error e = .ok answer →
        answer.1 = true → db'.status id ≠ some .running := fun _ _ _ h => by cases h
    refine wp_behind (fun _ db₁ => wp_behind (fun investigation db₂ => ?_) hraised) hraised
    refine wp_behind (fun _ db₃ => wp_behind (fun spawned db₄ => ?_) hraised) hraised
    rintro _ ⟨⟩ hstop
    cases hstop

lemma settled_afterToolless (h : Harness) (loop : Loop) (hid : run.agentRunId = id)
    (investigation : Investigation) (result : AgentTurnResult) (now : Time) :
    wp (afterToolless h loop run investigation result now) (Settled id) db := by
  unfold afterToolless
  dsimp only
  cases result.stopSignal with
  | some reason =>
    refine settled_drainAllChildren hid investigation _ _ now ?_
    intro hsync
    cases hsync
  | none =>
    by_cases hdelegation : result.childDelegation = true
    · simp only [hdelegation, if_true]
      rw [wp_bind]
      refine wp_mono (settled_delegateChild h hid investigation result.delegation _ now) ?_
      intro r db' hr
      cases r with
      | error e => exact settled_error e
      | ok answer =>
        obtain ⟨stop, spawned⟩ := answer
        refine settled_bind (standing_getAgentRun _) fun run db₁ _ h₁ => ?_
        refine settled_bind (standing_closeRound run _) fun _ db₂ _ h₂ => ?_
        refine settled_roundEnd ?_ spawned
        intro hstop
        change db₂.status id ≠ some .running
        rw [h₂.status id, h₁.status id]
        exact hr _ rfl hstop
    · simp only [hdelegation, if_false, Bool.false_eq_true]
      have hconclusions : Walks standing (result.conclusions.forM (persistConclusion run)) fun _ => True :=
        forM _ fun conclusion _ => standing_persistConclusion run conclusion
      refine settled_bind hconclusions fun _ db₁ _ _ => ?_
      refine settled_bind (standing_closeRound run _) fun closed db₂ hclosed _ => ?_
      have hpause : ∀ reason, Rests id (pauseRun closed investigation .pausedMissingEvidence reason now) :=
        fun reason => rests_pauseRun (hclosed.trans hid) investigation (by decide) reason now
      split_ifs
      · exact (hpause _).settled _
      · exact (hpause _).settled _
      · exact settled_at (p := .yielding) trivial _ _

lemma settled_actOnTurn (h : Harness) (loop : Loop)
    (hid : run.agentRunId = id) (investigation : Investigation) (result : AgentTurnResult)
    (assistantAppended resultAppended : Bool) (now : Time) :
    wp (actOnTurn h loop run investigation result assistantAppended resultAppended now) (Settled id) db := by
  unfold actOnTurn
  by_cases hassistant : assistantAppended = false
  · rw [if_pos hassistant]
    exact (rests_pauseRun hid investigation (by decide) _ now).settled _
  · rw [if_neg hassistant]
    refine settled_behind fun _ db₁ => ?_
    dsimp only
    by_cases hnone : result.toolRequests = []
    · rw [if_pos hnone]
      exact settled_afterToolless h loop hid investigation result now
    · rw [if_neg hnone]
      cases result.toolRequests.find? (·.toolName = "compact_context") with
      | some compact => exact settled_at (p := .compacting _ _) trivial _ _
      | none =>
        dsimp only
        rw [hid]
        exact settled_runBatches _ _ resultAppended _ now _ _

lemma settled_afterTurn (h : Harness) (loop : Loop)
    (hid : run.agentRunId = id) (investigation : Investigation) (result : AgentTurnResult)
    (assistantAppended resultAppended : Bool) (now : Time) :
    wp (afterTurn h loop run investigation result assistantAppended resultAppended now) (Settled id) db :=
  settled_bind (standing_countTurn run _) fun _ _ hcounted _ =>
    settled_actOnTurn h loop (hcounted.trans hid) investigation result assistantAppended resultAppended now

lemma settled_pausePromptTooLong (loop : Loop) (hid : run.agentRunId = id)
    (investigation : Investigation) (now : Time) :
    wp (pausePromptTooLong loop run investigation now) (Settled id) db :=
  (rests_pauseRun hid investigation (by decide) _ now).settled _

/-! ### The head of the loop -/

lemma settled_startRound (h : Harness) (hid : run.agentRunId = id)
    (investigation : Investigation) (pendingChildren : List String) (appended : Bool) (now : Time) :
    wp (startRound h run investigation pendingChildren appended now) (Settled id) db := by
  have hbuilding : ∀ db', wp (pure ⟨some (.building run investigation), pendingChildren, []⟩) (Settled id) db' :=
    fun db' => settled_at (p := .building run investigation) hid _ _
  have hdrain : ∀ reason, wp (drainAllChildren run investigation pendingChildren (.pause reason) now)
      (Settled id) db := by
    intro reason
    refine settled_drainAllChildren hid investigation _ _ now ?_
    intro hsync
    cases hsync
  unfold startRound
  dsimp only
  split_ifs
  · exact hdrain _
  · exact hdrain _
  · refine settled_behind fun db₁ db₂ => ?_
    split_ifs
    · exact (rests_pauseRun hid investigation (by decide) _ now).settled _
    · exact settled_behind fun _ db₃ => hbuilding db₃
    · exact hbuilding db₂

/-- The resume of a paused run sets it going, or parks it in an uncertain state where its
transcript could not be continued. -/
theorem resumePaused_moves (hid : run.agentRunId = id) (investigation : Investigation)
    (pendingChildren : List String) (appended : Bool) (now : Time) :
    wp (resumePaused run investigation pendingChildren appended now) (fun r db' => ∀ s, r = .ok s →
      (s = roundEnd false (pendingChildren, []) ∧ db'.status id = some .running) ∨
        (appended = false ∧ db'.status id = some .pausedUncertainState)) db := by
  refine wp_behind (fun _ db₁ => ?_) fun e db' => of_raised
  rw [wp_bind]
  refine wp_mono (wp_and (lands_transitionRun hid .running now none db₁)
    (transitionRun_agentRunId run .running now none db₁)) ?_
  rintro r db₂ ⟨h₂, hmoved⟩
  cases r with
  | error e => exact of_raised
  | ok moved =>
    have hid' : moved.agentRunId = id := (hmoved moved rfl).trans hid
    refine wp_standing_bind (standing_transitionInvestigation _ _ _ _) (fun _ db₃ _ h₃ => ?_) fun e db' =>
      of_raised
    rw [wp_bind, wp_get]
    dsimp only
    split_ifs with hfailed
    · refine wp_standing_bind (standing_reloadPair _) (fun pair db₄ hpair _ => ?_) fun e db' =>
        of_raised
      obtain ⟨run, investigation⟩ := pair
      rw [wp_bind]
      refine wp_mono (lands_pauseRun (hpair.trans hid') investigation .pausedUncertainState _ now db₄) ?_
      intro r db₅ h₅
      cases r with
      | error e => exact of_raised
      | ok a => exact fun _ _ => .inr ⟨hfailed.2, h₅ a rfl⟩
    · rintro _ ⟨⟩
      exact .inl ⟨rfl, (h₃.status id).trans (h₂ moved rfl)⟩

lemma settled_resumePaused (hid : run.agentRunId = id) (investigation : Investigation)
    (pendingChildren : List String) (appended : Bool) (now : Time) :
    wp (resumePaused run investigation pendingChildren appended now) (Settled id) db := by
  refine wp_mono (resumePaused_moves hid investigation pendingChildren appended now) ?_
  rintro r db' hr s hs
  rcases hr s hs with ⟨rfl, _⟩ | ⟨_, hstatus⟩
  · exact .inr ⟨.yielding, rfl, trivial⟩
  · rw [hstatus]
    exact .inl (by decide)

lemma settled_resumeWaitingChildren (run : AgentRun) (pendingChildren : List String) (now : Time) :
    wp (resumeWaitingChildren run pendingChildren now) (Settled id) db := by
  unfold resumeWaitingChildren
  split_ifs
  · exact settled_at (p := .waiting) trivial _ _
  · refine settled_behind fun spawned db₁ => ?_
    split_ifs
    · exact settled_behind fun _ db₂ => settled_at (p := .yielding) trivial _ _
    · exact settled_at (p := .yielding) trivial _ _

lemma settled_dispatch (h : Harness) (investigation : Investigation)
    (pendingChildren : List String) (appended : Bool) (now : Time) (hrow : db.runs.get run.agentRunId = some run) :
    wp (dispatch h run investigation pendingChildren appended now) (Settled run.agentRunId) db := by
  have hrest : ∀ db', Unmoved db db' → run.status ≠ .running → db'.status run.agentRunId ≠ some .running := by
    intro db' hmoved hstatus
    rw [hmoved.status, status_of_get hrow]
    simpa using hstatus
  unfold dispatch
  by_cases hterminal : agentRunStateMachine.isTerminal run.status = true
  · have hstatus : run.status ≠ .running := by
      intro h
      rw [h] at hterminal
      cases hterminal
    rw [if_pos hterminal]
    split_ifs
    · refine settled_bind (standing_transitionInvestigation _ _ _ _) fun _ db₁ _ h₁ => ?_
      exact settled_rest (hrest db₁ h₁ hstatus) _
    · exact settled_rest (hrest db (.refl db) hstatus) _
  · rw [if_neg hterminal]
    split_ifs
    · exact settled_drainAllChildren rfl investigation _ _ now fun _ => hrow
    · cases hstatus : run.status with
      | cancelRequested => exact settled_drainAllChildren rfl investigation _ _ now fun _ => hrow
      | waitingApproval => exact settled_rest (hrest db (.refl db) (by rw [hstatus]; decide)) _
      | waitingChildren => exact settled_resumeWaitingChildren run pendingChildren now
      | pausedBudget => exact settled_resumePaused rfl investigation pendingChildren appended now
      | pausedMissingEvidence => exact settled_resumePaused rfl investigation pendingChildren appended now
      | pausedUncertainState => exact settled_resumePaused rfl investigation pendingChildren appended now
      | created => exact settled_behind fun _ db₁ => settled_at (p := .yielding) trivial _ _
      | _ => exact settled_startRound h rfl investigation pendingChildren appended now

def Kin (db db' : Database) : Prop := ∀ id, (db'.runs.get id).map (·.parentRunId) = (db.runs.get id).map (·.parentRunId)

lemma Kin.symm {db' : Database} (h : Kin db db') : Kin db' db := fun id => (h id).symm

lemma kin_withRun (hrow : db.runs.get run.agentRunId = some run) : Kin db (db.withRun run) := by
  intro other
  rw [Database.withRun_runs, Table.get_put]
  split_ifs with hother
  · rw [hother, hrow]
  · rfl

lemma kin_deliverPendingChildReports (now : Time) {stored : AgentRun} (hstored : db.runs.get id = some stored) :
    wp (deliverPendingChildReports id now) (fun _ db' => Kin db db') db := by
  have hid : stored.identity.agentRunId = id := db.runs.keyed _ _ hstored
  have hold : Holds stored.identity [] db := ⟨⟨stored, by rw [hid, hstored], rfl⟩, by simp⟩
  have hdeliver := walks_deliverPendingChildReports (k := .quiet) now db hold
  have hstands := standing_unmoved (standing_deliverPendingChildReports id now) db
  rw [hid] at hdeliver
  refine wp_mono (wp_and hdeliver hstands) ?_
  rintro r db' ⟨⟨hsteps, _⟩, hmoved, _⟩ other
  by_cases hother : other = id
  · have hrun := (still_of_quiet hsteps).run
    rw [hid] at hrun
    rw [hother]
    have hparent := congrArg (Option.map fun pair : RunIdentity × AgentRunStatus => pair.1.parentRunId) hrun
    rw [Option.map_map, Option.map_map] at hparent
    exact hparent
  · cases hr : db.runs.get other with
    | some r => rw [(aside_of_touches hsteps).runs other r (by rw [hid]; exact hother) hr]
    | none =>
      have hnone := hmoved.status other
      rw [Database.status, Database.status, hr] at hnone
      rw [Option.map_eq_none_iff.mp hnone]

lemma wp_loopHead {finished : List String} {appended : Bool} {Q : Except Raised Stride → Database → Prop}
    (hdispatch : ∀ db' run investigation, Unmoved db db' → Kin db db' → run.agentRunId = loop.agentRunId →
      db'.runs.get loop.agentRunId = some run → db'.investigations.get run.investigationId = some investigation →
      wp (dispatch h run investigation (loop.pendingChildren.filter fun child => !finished.contains child)
        appended now) Q db') (hraised : ∀ e db', Unmoved db db' → Q (.error e) db') :
    wp (loopHead h loop finished appended now) Q db := by
  rw [loopHead, wp_bind]
  have hstands := standing_unmoved (standing_deliverPendingChildReports loop.agentRunId now) db
  have hkin : wp (deliverPendingChildReports loop.agentRunId now) (fun _ db' =>
      ∀ stored, db.runs.get loop.agentRunId = some stored → Kin db db') db := by
    cases hstored : db.runs.get loop.agentRunId with
    | none =>
      intro _ h
      cases h
    | some stored => exact wp_mono (kin_deliverPendingChildReports now hstored) fun _ _ h _ _ => h
  refine wp_mono (wp_and hstands hkin) ?_
  rintro r db₁ ⟨⟨h₁, _⟩, hkin⟩
  cases r with
  | error e => exact hraised e db₁ h₁
  | ok _ =>
    refine wp_reloaded (fun run investigation hid hrow hinv => ?_) fun e => hraised e db₁ h₁
    obtain ⟨stored, hstored, _⟩ := Option.map_eq_some_iff.mp ((h₁.status _).symm.trans (status_of_get hrow))
    have hkin := hkin stored hstored
    dsimp only
    split_ifs
    · have hinvId := db₁.investigations.keyed _ _ hinv
      have hrow' : db₁.runs.get run.agentRunId = some run := by rw [hid, hrow]
      rw [wp_bind, wp_updateAgentRun, hrow']
      simp only [if_true, wp_bind, wp_updateInvestigation, Database.withRun_investigations, hinvId, hinv]
      refine hdispatch _ run investigation ?_ ?_ hid ?_ ?_
      · exact h₁.trans ((unmoved_withRun hrow' rfl).trans (.of_runs rfl rfl rfl))
      · exact fun other => (kin_withRun hrow' other).trans (hkin other)
      · rw [← hid]
        exact Table.get_put_self _ _
      · rw [← hinvId]
        exact Table.get_put_self _ _
    · exact hdispatch db₁ run investigation h₁ hkin hid hrow hinv

lemma settled_loopHead (h : Harness) (loop : Loop) (finished : List String) (appended : Bool) (now : Time) :
    wp (loopHead h loop finished appended now) (Settled loop.agentRunId) db := by
  refine wp_loopHead (fun db₁ run investigation _ _ hid hrow _ => ?_) fun e _ _ => settled_error e
  rw [← hid] at hrow ⊢
  exact settled_dispatch h investigation _ appended now hrow

/-! ### The loop -/

lemma settled_advance {point : Point}
    (hpoint : point.Of loop.agentRunId) (hstep : advance h loop now point answer = some step) :
    wp step (Settled loop.agentRunId) db := by
  have hdrain : ∀ (run : AgentRun) investigation, run.agentRunId = loop.agentRunId →
      wp (drainAllChildren run investigation loop.pendingChildren .fail now) (Settled loop.agentRunId) db := by
    intro run investigation hid
    refine settled_drainAllChildren hid investigation _ _ now ?_
    intro hsync
    cases hsync
  unfold advance at hstep
  split at hstep
  · obtain rfl := Option.some.inj hstep
    exact settled_loopHead h loop _ _ now
  · obtain rfl := Option.some.inj hstep
    exact settled_at (p := .yielding) trivial _ _
  · obtain rfl := Option.some.inj hstep
    split_ifs
    · exact settled_at (p := .calling _ _) hpoint _ _
    · exact (rests_pauseRun hpoint _ (by decide) _ now).settled _
  · obtain rfl := Option.some.inj hstep
    exact settled_afterTurn h loop hpoint _ _ _ _ now
  · obtain rfl := Option.some.inj hstep
    split_ifs
    · exact settled_pausePromptTooLong loop hpoint _ now
    · exact settled_at (p := .recompacting _ _) hpoint _ _
  · obtain rfl := Option.some.inj hstep
    exact hdrain _ _ hpoint
  · obtain rfl := Option.some.inj hstep
    exact settled_afterTurn h loop hpoint _ _ _ _ now
  · obtain rfl := Option.some.inj hstep
    exact settled_pausePromptTooLong loop hpoint _ now
  · obtain rfl := Option.some.inj hstep
    exact settled_pausePromptTooLong loop hpoint _ now
  · obtain rfl := Option.some.inj hstep
    exact settled_error _
  · obtain rfl := Option.some.inj hstep
    exact settled_afterBatch hpoint _ _ _ now
  · obtain rfl := Option.some.inj hstep
    exact settled_afterCompaction _ _ _ _ _ _ now
  · obtain rfl := Option.some.inj hstep
    exact settled_finishDrain _ _ now
  · cases hstep

lemma lands_pauseOnEvidence (pendingChildren : List String) (now : Time) :
    Lands id .pausedBudget (pauseOnEvidence id pendingChildren now) := by
  intro db
  refine wp_reloaded (fun run investigation hid _ _ => ?_) fun _ => of_raised
  have hpause : Lands id .pausedBudget (do
      pauseRun run investigation .pausedBudget .budgetEvidence now
      return roundEnd true (pendingChildren, [])) :=
    (lands_pauseRun hid investigation .pausedBudget _ now).returned _
  dsimp only
  split_ifs
  · exact wp_behind (fun _ db₁ => hpause db₁) fun _ _ => of_raised
  · exact hpause db

lemma wp_stride {Q : Stride → Database → Prop} (hstep : stride h loop answer now = some step)
    (hadvance : ∀ m, advance h loop now loop.point answer = some m → wp m (fun r db' => ∀ s, r = .ok s → Q s db') db)
    (hpaused : ∀ s db', db'.status loop.agentRunId = some .pausedBudget → Q s db') :
    wp step (fun r db' => ∀ s, r = .ok s → Q s db') db := by
  obtain ⟨m, hm, rfl⟩ := Option.map_eq_some_iff.mp hstep
  rw [wp_tryCatch]
  refine wp_mono (hadvance m hm) ?_
  intro r db' hr
  cases r with
  | ok s => exact hr
  | error e =>
    have hhandled : wp (pauseOnEvidence loop.agentRunId loop.pendingChildren now) _ db' :=
      lands_pauseOnEvidence loop.pendingChildren now db'
    cases e with
    | evidenceBudgetExceeded => exact wp_mono hhandled fun r db'' h s hs => hpaused s db'' (h s hs)
    | _ => exact of_raised

lemma settled_stride (hpoint : loop.point.Of loop.agentRunId) (hstep : stride h loop answer now = some step) :
    wp step (Settled loop.agentRunId) db := by
  refine wp_stride hstep (fun m hm => settled_advance hpoint hm) fun s db' hpaused => ?_
  rw [hpaused]
  exact .inl (by decide)

end Settled

/-! ### Operations on rows -/

/-- What never finds the evidence budget exceeded. -/
def WithinEvidence {α : Type} (m : DatabaseM α) : Prop := ∀ db, wp m (fun r _ => r ≠ .error .evidenceBudgetExceeded) db

section WithinEvidence
variable {α β : Type}

lemma within_pure (a : α) : WithinEvidence (pure a : DatabaseM α) := by
  rintro db ⟨⟩

lemma within_onStore (m : StoreM α) : WithinEvidence (onStore m) := by
  intro db
  rw [wp_onStore]
  unfold wp
  cases (m.exec db.toStore).1 with
  | ok a => rintro ⟨⟩
  | error e => rintro ⟨⟩

lemma WithinEvidence.bind {m : DatabaseM α} {f : α → DatabaseM β} (hm : WithinEvidence m)
    (hf : ∀ a, WithinEvidence (f a)) : WithinEvidence (m >>= f) := by
  intro db
  rw [wp_bind]
  refine wp_mono (hm db) ?_
  intro r db' hr
  cases r with
  | ok a => exact hf a db'
  | error e => simpa using hr

lemma within_ite {c : Prop} [Decidable c] {m m' : DatabaseM α} (hm : WithinEvidence m) (hm' : WithinEvidence m') :
    WithinEvidence (if c then m else m') := by
  split_ifs
  · exact hm
  · exact hm'

lemma within_transitionRun (run : AgentRun) (target : AgentRunStatus) (now : Time) (stopReason : Option StopReason) :
    WithinEvidence (transitionRun run target now stopReason) :=
  (within_onStore _).bind fun _ => within_onStore _

lemma within_syncRunToInvestigation (run : AgentRun) (investigation : Investigation) (now : Time) :
    WithinEvidence (syncRunToInvestigation run investigation now) := by
  have hmove : ∀ target stopReason, WithinEvidence (do
      let _ ← transitionRun run target now stopReason
      pure PUnit.unit) := fun target stopReason =>
    (within_transitionRun run target now stopReason).bind fun _ => within_pure _
  refine within_ite (within_pure _) (within_ite (hmove _ _) (within_ite (within_ite (hmove _ _) ?_) (hmove _ _)))
  exact (within_transitionRun run _ now _).bind fun _ => hmove _ _

lemma within_resumePaused (run : AgentRun) (investigation : Investigation) (pendingChildren : List String)
    (appended : Bool) (now : Time) :
    WithinEvidence (resumePaused run investigation pendingChildren appended now) := by
  have hrenew : WithinEvidence (renewBudget run investigation) :=
    within_ite ((within_onStore _).bind fun _ => within_onStore _) (within_ite (within_onStore _) (within_pure _))
  refine hrenew.bind fun _ => (within_transitionRun run _ now _).bind fun moved => ?_
  refine (within_onStore _).bind fun _ => ?_
  have hget : WithinEvidence (get : DatabaseM Database) := by
    rintro db ⟨⟩
  refine hget.bind fun db => within_ite ?_ ?_
  · refine WithinEvidence.bind ?_ fun pair => (within_onStore _).bind fun _ => within_pure _
    exact (within_onStore _).bind fun _ => (within_onStore _).bind fun _ => within_pure _
  · refine WithinEvidence.bind ?_ fun _ => within_pure _
    rintro db ⟨⟩

end WithinEvidence

/-! ### Entering a loop -/

/-- The statuses that the entry into a loop leaves behind; `appended` is whether the
transcript takes the continuation. -/
def AgentRunStatus.Entered (status : AgentRunStatus) (appended : Bool) : Prop :=
  status = .created ∨ status.paused = true ∧ (status = .pausedUncertainState → appended = true)

section Entered
variable {h : Harness} {db : Database} {run : AgentRun} {investigation : Investigation} {appended : Bool} {now : Time}

variable {status : AgentRunStatus}

lemma AgentRunStatus.Entered.open (hstatus : status.Entered appended) :
    agentRunStateMachine.isTerminal status = false := by
  rcases hstatus with rfl | ⟨hpaused, _⟩
  · rfl
  · revert hpaused
    cases status <;> decide

lemma dispatch_moves (hrow : db.runs.get run.agentRunId = some run) (hstatus : run.status.Entered appended) :
    wp (dispatch h run investigation [] appended now)
      (fun r db' => ∀ s, r = .ok s → db'.status run.agentRunId ≠ some run.status) db := by
  have hopen := hstatus.open
  by_cases hterminal : investigationStateMachine.isTerminal investigation.status = true
  · unfold dispatch drainAllChildren conclude
    rw [if_neg (by simp [hopen]), if_pos hterminal, if_pos rfl, wp_bind]
    refine wp_mono (ends_syncRunToInvestigation now hrow) ?_
    intro r db' hr
    cases r with
    | error e => exact of_raised
    | ok a =>
      rintro _ _ hsame
      obtain ⟨status, hended, hclosed⟩ := hr a rfl
      rw [Option.some.inj (hended.symm.trans hsame), hopen] at hclosed
      cases hclosed
  · rcases hstatus with hcreated | ⟨hpaused, happended⟩
    · unfold dispatch
      rw [if_neg (by simp [hopen]), if_neg hterminal, hcreated]
      refine wp_mono ((lands_transitionRun rfl .running now none).returned (roundEnd false ([], [])) db) ?_
      intro r db' hr s hs hsame
      cases (hr s hs).symm.trans hsame
    · rw [dispatch_paused h hpaused (by simpa using hterminal)]
      refine wp_mono (resumePaused_moves rfl investigation [] appended now) ?_
      intro r db' hr s hs hsame
      rcases hr s hs with ⟨_, hrunning⟩ | ⟨hfailed, huncertain⟩
      · rw [← Option.some.inj (hrunning.symm.trans hsame)] at hpaused
        cases hpaused
      · have happended := happended (Option.some.inj (huncertain.symm.trans hsame)).symm
        rw [hfailed] at happended
        cases happended

lemma within_dispatch (hpaused : run.status.paused = true) :
    WithinEvidence (dispatch h run investigation [] appended now) := by
  have hopen : agentRunStateMachine.isTerminal run.status = false := by
    revert hpaused
    cases run.status <;> decide
  by_cases hterminal : investigationStateMachine.isTerminal investigation.status = true
  · unfold dispatch drainAllChildren conclude
    rw [if_neg (by simp [hopen]), if_pos hterminal, if_pos rfl]
    exact (within_syncRunToInvestigation run investigation now).bind fun _ => within_pure _
  · rw [dispatch_paused h hpaused (by simpa using hterminal)]
    exact within_resumePaused run investigation [] appended now

lemma entry_moves {id : String} {finished : List String} {step : DatabaseM Stride}
    (hstatus : status.Entered appended) (hdb : db.status id = some status)
    (hstep : stride h ⟨id, .yielding, []⟩ (.yielded finished appended) now = some step) :
    wp step (fun r db' => ∀ s, r = .ok s → db'.status id ≠ some status) db := by
  obtain rfl := Option.some.inj hstep
  rw [wp_tryCatch]
  have hhead : wp (loopHead h ⟨id, .yielding, []⟩ finished appended now) (fun r db' =>
      (∀ s, r = .ok s → db'.status id ≠ some status) ∧
        (r = .error .evidenceBudgetExceeded → status.paused = true → db'.status id = some status)) db := by
    refine wp_loopHead (fun db₁ run investigation hmoved _ hid hrow hinv => ?_) fun e db' hmoved =>
      ⟨of_raised, fun _ _ => by rw [hmoved.status id, hdb]⟩
    have hid : run.agentRunId = id := hid
    have hsame : run.status = status := by
      have hdb₁ := status_of_get hrow
      rw [hmoved.status] at hdb₁
      exact Option.some.inj (hdb₁.symm.trans hdb)
    subst hid hsame
    refine wp_mono (wp_and (dispatch_moves hrow hstatus)
      (show wp _ (fun r _ => run.status.paused = true → r ≠ .error .evidenceBudgetExceeded) db₁ from
        fun hpaused => within_dispatch hpaused db₁)) ?_
    rintro r db' ⟨hok, hwithin⟩
    exact ⟨hok, fun hr hpaused => absurd hr (hwithin hpaused)⟩
  refine wp_mono hhead ?_
  rintro r db' ⟨hok, hover⟩
  cases r with
  | ok s => exact hok
  | error e =>
    cases e with
    | evidenceBudgetExceeded =>
      rcases hstatus with rfl | ⟨hpaused, _⟩
      · refine wp_mono (lands_pauseOnEvidence [] now db') ?_
        intro r db'' hr s hs hsame
        cases (hr s hs).symm.trans hsame
      · obtain ⟨run, hrow, rfl⟩ := Option.map_eq_some_iff.mp (hover rfl hpaused)
        have hid : run.agentRunId = id := db'.runs.keyed _ _ hrow
        subst hid
        have hraises : wp (pauseOnEvidence run.identity.agentRunId [] now) (fun r _ => ∃ e, r = .error e) db' :=
          pauseOnEvidence_raises hrow hpaused [] now
        refine wp_mono hraises ?_
        rintro r db'' ⟨e, rfl⟩
        exact of_raised
    | _ => exact of_raised

lemma deliverPendingChildReports_none {id : String} (hreports : listUndeliveredReceipts db id = []) :
    wp (deliverPendingChildReports id now) (fun r db' => r = .ok ⟨⟩ ∧ db' = db) db := by
  rw [deliverPendingChildReports, wp_bind, wp_get]
  dsimp only
  rw [hreports]
  exact ⟨rfl, rfl⟩

/-- A run whose cancellation was requested is cancelled on entry, where its investigation is
open and no report is to be delivered to it. -/
theorem entry_cancels {finished : List String} {step : DatabaseM Stride}
    (hrow : db.runs.get run.agentRunId = some run) (hstatus : run.status = .cancelRequested)
    (hinv : db.investigations.get run.investigationId = some investigation)
    (hopen : investigationStateMachine.isTerminal investigation.status = false)
    (hreports : listUndeliveredReceipts db run.agentRunId = [])
    (hstep : stride h ⟨run.agentRunId, .yielding, []⟩ (.yielded finished appended) now = some step) :
    wp step (fun r db' => (∃ s, r = .ok s) ∧ db'.status run.agentRunId = some .cancelled) db := by
  obtain rfl := Option.some.inj hstep
  have hmove : agentRunStateMachine.canTransition AgentRunStatus.cancelRequested .cancelled = true := rfl
  have hmoveInv : investigationStateMachine.canTransition InvestigationStatus.cancelRequested .cancelled = true := rfl
  have hdispatch : dispatch h run investigation [] appended now = drainAllChildren run investigation [] .cancel now := by
    unfold dispatch
    rw [hstatus, if_neg (by decide), if_neg (by simp [hopen])]
  have hcancelled : (db.withRun (run.moved .cancelled now (some .cancelled))).status run.agentRunId =
      some .cancelled := by
    rw [status_withRun]
    exact if_pos rfl
  rw [wp_tryCatch, loopHead, wp_bind]
  refine wp_mono (deliverPendingChildReports_none hreports) ?_
  rintro r db₁ ⟨rfl, rfl⟩
  dsimp only
  rw [wp_bind, wp_reloadPair, hrow]
  simp only [hinv, filter_nil, ne_eq, not_true_eq_false, if_false]
  rw [hdispatch, drainAllChildren, if_pos rfl, wp_bind, conclude, wp_bind, wp_transitionRun, hrow]
  simp only [hstatus, hmove, if_true]
  by_cases hrequested : investigation.status = .cancelRequested
  · rw [if_pos hrequested, wp_transitionInvestigation, Database.withRun_investigations,
      db₁.investigations.keyed _ _ hinv, hinv]
    simp only [hrequested, hmoveInv, if_true]
    exact ⟨⟨_, rfl⟩, hcancelled⟩
  · rw [if_neg hrequested]
    exact ⟨⟨_, rfl⟩, hcancelled⟩

/-! ### The end of a child's loop -/

lemma endChild_returned (reporting : Reporting) (package : DelegatedTaskPackage) (now : Time) :
    Walks standing (endChild reporting package .returned now) fun _ => True :=
  (standing_getAgentRun _).bind fun run _ => standing_ensureChildReportReceipt reporting run package none now

lemma endChild_raised (reporting : Reporting) (package : DelegatedTaskPackage) (text : String) (now : Time)
    (hopen : agentRunStateMachine.isTerminal status = false) (hcancel : status ≠ .cancelRequested) :
    wp (endChild reporting package (.raised text) now) (fun _ db' => db'.status package.childRunId ≠ some status) db := by
  rw [endChild, wp_bind, wp_getAgentRun]
  cases hrow : db.runs.get package.childRunId with
  | none =>
    intro hsame
    rw [Database.status, Option.map_eq_some_iff] at hsame
    obtain ⟨run, hrun, _⟩ := hsame
    cases hrow.symm.trans hrun
  | some run =>
    have hid : run.agentRunId = package.childRunId := db.runs.keyed _ _ hrow
    dsimp only
    have hreport : ∀ db', db'.status package.childRunId ≠ some status → wp (do
        let final ← onStore (getAgentRun package.childRunId)
        ensureChildReportReceipt reporting final package (some text) now)
        (fun _ db'' => db''.status package.childRunId ≠ some status) db' := by
      intro db' hdb'
      have hstand : Walks standing (do
          let final ← onStore (getAgentRun package.childRunId)
          ensureChildReportReceipt reporting final package (some text) now) fun _ => True :=
        (standing_getAgentRun _).bind fun final _ => standing_ensureChildReportReceipt reporting final package _ now
      refine wp_mono (standing_unmoved hstand db') ?_
      rintro r db'' ⟨hmoved, _⟩
      rw [hmoved.status]
      exact hdb'
    rw [wp_bind, finalizeChildTerminal_spec now .failed .failed (by rw [hid, hrow])]
    split_ifs with hkept hlegal
    · refine hreport db ?_
      rw [status_of_get hrow]
      rintro ⟨⟩
      rcases hkept with hterminal | ⟨hrequested, _⟩
      · rw [hopen] at hterminal
        cases hterminal
      · exact hcancel hrequested
    · refine hreport _ ?_
      rw [status_withRun, AgentRun.moved_agentRunId, if_pos hid.symm]
      rintro ⟨⟩
      cases hopen
    · exact absurd hlegal (by
        rw [not_or] at hkept
        revert hkept
        cases run.status <;> decide)

end Entered

/-! ### A parent that waits for its children -/

/-- A child that a pass over the children of a waiting parent starts again. -/
def Database.Respawns (db : Database) (parentRunId childRunId : String) : Prop :=
  ∃ child ∈ listChildren db parentRunId, child.agentRunId = childRunId ∧
    agentRunStateMachine.isTerminal child.status = false ∧ db.delegatedTasks.get childRunId ≠ none

lemma Database.Respawns.of_unmoved {db db' : Database} {parentRunId childRunId : String} (hmoved : Unmoved db db')
    (hkin : Kin db db') (hchild : db.Respawns parentRunId childRunId) : db'.Respawns parentRunId childRunId := by
  obtain ⟨child, hlisted, hid, hopen, hpackage⟩ := hchild
  obtain ⟨hmem, hparent⟩ := mem_filter.mp hlisted
  obtain ⟨key, hkey, hrow⟩ := mem_filterMap.mp hmem
  have hchildKey := db.runs.keyed _ _ hrow
  have hparent' := hkin key
  have hstatus' := hmoved.status key
  rw [hrow] at hparent'
  rw [status_of_get hrow] at hstatus'
  obtain ⟨child', hrow', hsame⟩ := Option.map_eq_some_iff.mp hparent'
  rw [status_of_get hrow'] at hstatus'
  refine ⟨child', mem_filter.mpr ⟨mem_filterMap.mpr ⟨key, ?_, hrow'⟩, ?_⟩, ?_, ?_, ?_⟩
  · rw [hmoved.runIds]
    exact hkey
  · simpa [hsame] using hparent
  · rw [db'.runs.keyed _ _ hrow', ← hchildKey, hid]
  · rw [Option.some.inj hstatus', hopen]
  · rw [hmoved.delegatedTasks]
    exact hpackage

section Waiting
variable {h : Harness} {db : Database} {loop : Loop} {finished : List String} {appended : Bool} {now : Time}
  {step : DatabaseM Stride}

/-- Every child that was listed has its package. -/
def Spawned.Matched (spawned : Spawned) : Prop := spawned.1 = spawned.2.map (·.childRunId)

lemma spawnChildFromPackage_spawns {parent child : AgentRun} {package : DelegatedTaskPackage}
    (hchild : db.runs.get package.childRunId = some child) {spawned : Spawned} (hmatched : spawned.Matched) :
    wp (spawnChildFromPackage parent package spawned) (fun r db' => db' = db ∧ ∀ spawned', r = .ok spawned' →
      spawned'.Matched ∧ ∀ id, id ∈ spawned'.1 ↔ id ∈ spawned.1 ∨ id = package.childRunId) db := by
  rw [spawnChildFromPackage, wp_bind, wp_tryCatch]
  refine wp_mono (createAgentRun_existing (r := buildChildRun package parent) hchild) ?_
  rintro r db' ⟨rfl, e, rfl⟩
  dsimp only
  split
  · simp only [wp_pure]
    split_ifs with hlisted
    · refine ⟨rfl, ?_⟩
      rintro _ ⟨⟩
      refine ⟨hmatched, fun id => ⟨.inl, ?_⟩⟩
      rintro (h | rfl)
      · exact h
      · simpa using hlisted
    · refine ⟨rfl, ?_⟩
      rintro _ ⟨⟩
      refine ⟨?_, fun id => by simp⟩
      change _ ++ _ = map _ (_ ++ _)
      rw [hmatched, map_append]
      rfl
  · exact ⟨rfl, of_raised⟩

lemma respawn_spawns {parent child : AgentRun} (hchild : db.runs.get child.agentRunId = some child)
    {spawned : Spawned} (hmatched : spawned.Matched) :
    wp (do
      if agentRunStateMachine.isTerminal child.status then return spawned
      match db.delegatedTasks.get child.agentRunId with
      | none => return spawned
      | some package => spawnChildFromPackage parent package spawned : DatabaseM Spawned)
      (fun r db' => db' = db ∧ ∀ spawned', r = .ok spawned' → spawned'.Matched ∧
        ∀ id, id ∈ spawned'.1 ↔ id ∈ spawned.1 ∨ child.agentRunId = id ∧
          agentRunStateMachine.isTerminal child.status = false ∧ db.delegatedTasks.get id ≠ none) db := by
  split_ifs with hterminal
  · refine ⟨rfl, ?_⟩
    rintro _ ⟨⟩
    exact ⟨hmatched, by simp [hterminal]⟩
  · cases hpackage : db.delegatedTasks.get child.agentRunId with
    | none =>
      refine ⟨rfl, ?_⟩
      rintro _ ⟨⟩
      refine ⟨hmatched, fun id => ⟨.inl, ?_⟩⟩
      rintro (h | ⟨rfl, _, hsome⟩)
      · exact h
      · exact absurd hpackage hsome
    | some package =>
      have hid := db.delegatedTasks.keyed _ _ hpackage
      refine wp_mono (spawnChildFromPackage_spawns (by rw [hid, hchild]) hmatched) ?_
      rintro r db' ⟨rfl, hspawns⟩
      refine ⟨rfl, fun spawned' hr => ?_⟩
      obtain ⟨hmatched', hmem⟩ := hspawns spawned' hr
      refine ⟨hmatched', fun id => (hmem id).trans (or_congr_right ?_)⟩
      rw [hid]
      constructor
      · rintro rfl
        exact ⟨rfl, by simpa using hterminal, by rw [hpackage]; exact Option.some_ne_none _⟩
      · exact fun h => h.1.symm

lemma respawnChildren_spawns (parent : AgentRun) :
    wp (respawnChildren parent) (fun r db' => db' = db ∧ ∀ spawned, r = .ok spawned → spawned.Matched ∧
      ∀ id, id ∈ spawned.1 ↔ db.Respawns parent.agentRunId id) db := by
  rw [respawnChildren, wp_bind, wp_get]
  have hloop : ∀ (children : List AgentRun), (∀ child ∈ children, db.runs.get child.agentRunId = some child) →
      ∀ spawned : Spawned, spawned.Matched →
      wp (children.foldlM (fun spawned child => do
        if agentRunStateMachine.isTerminal child.status then return spawned
        match db.delegatedTasks.get child.agentRunId with
        | none => return spawned
        | some package => spawnChildFromPackage parent package spawned) spawned)
        (fun r db' => db' = db ∧ ∀ spawned', r = .ok spawned' → spawned'.Matched ∧
          ∀ id, id ∈ spawned'.1 ↔ id ∈ spawned.1 ∨ ∃ child ∈ children, child.agentRunId = id ∧
            agentRunStateMachine.isTerminal child.status = false ∧ db.delegatedTasks.get id ≠ none) db := by
    intro children hchildren
    induction children with
    | nil =>
      intro spawned hmatched
      refine ⟨rfl, ?_⟩
      rintro _ ⟨⟩
      exact ⟨hmatched, by simp⟩
    | cons child children ih =>
      intro spawned hmatched
      rw [foldlM_cons, wp_bind]
      refine wp_mono (respawn_spawns (hchildren child mem_cons_self) hmatched) ?_
      rintro r db' ⟨rfl, hspawns⟩
      cases r with
      | error e => exact ⟨rfl, of_raised⟩
      | ok spawned₁ =>
        obtain ⟨hmatched₁, hmem₁⟩ := hspawns spawned₁ rfl
        refine wp_mono (ih (fun c hc => hchildren c (mem_cons_of_mem _ hc)) spawned₁ hmatched₁) ?_
        rintro r db'' ⟨rfl, hrest⟩
        refine ⟨rfl, fun spawned' hr => ?_⟩
        obtain ⟨hmatched', hmem'⟩ := hrest spawned' hr
        refine ⟨hmatched', fun id => ?_⟩
        rw [hmem', hmem₁, exists_mem_cons_iff, or_assoc]
  have hrows : ∀ child ∈ listChildren db parent.agentRunId, db.runs.get child.agentRunId = some child :=
    fun child hchild => get_of_mem_listAgentRuns (mem_of_mem_filter hchild)
  refine wp_mono (hloop _ hrows ([], []) rfl) ?_
  rintro r db' ⟨rfl, hspawns⟩
  refine ⟨rfl, fun spawned hr => ?_⟩
  obtain ⟨hmatched, hmem⟩ := hspawns spawned hr
  exact ⟨hmatched, fun id => (hmem id).trans (by simp [Database.Respawns])⟩

lemma waiting_stride (hpoint : loop.point = .yielding) (hstatus : db.status loop.agentRunId = some .waitingChildren)
    (hpending : (loop.pendingChildren.filter fun child => !finished.contains child) ≠ [])
    (hstep : stride h loop (.yielded finished appended) now = some step) :
    wp step (fun r db' => ∀ s, r = .ok s → db'.status loop.agentRunId ≠ some .waitingChildren ∨
      ((s.point = some .waiting ∨ s.point = some (.draining false .sync)) ∧
        s.pendingChildren = loop.pendingChildren.filter (fun child => !finished.contains child) ∧
          s.spawned = [])) db := by
  refine wp_stride hstep (fun m hm => ?_) fun s db' hpaused => .inl (by rw [hpaused]; decide)
  rw [hpoint] at hm
  obtain rfl := Option.some.inj hm
  refine wp_loopHead (fun db₁ run investigation hmoved _ hid hrow _ => ?_) fun _ _ _ => of_raised
  have hrun : run.status = .waitingChildren := by
    have hdb₁ := status_of_get hrow
    rw [hmoved.status, hstatus] at hdb₁
    exact (Option.some.inj hdb₁).symm
  unfold dispatch
  rw [hrun, if_neg (by decide)]
  by_cases hterminal : investigationStateMachine.isTerminal investigation.status = true
  · rw [if_pos hterminal, drainAllChildren, if_neg hpending]
    simp only [hrun]
    rintro _ ⟨⟩
    exact .inr ⟨.inr rfl, rfl, rfl⟩
  · rw [if_neg hterminal]
    simp only [resumeWaitingChildren, if_pos hpending]
    rintro _ ⟨⟩
    exact .inr ⟨.inl rfl, rfl, rfl⟩

lemma pass_stride (hpoint : loop.point = .yielding) (hstatus : db.status loop.agentRunId = some .waitingChildren)
    (hpending : (loop.pendingChildren.filter fun child => !finished.contains child) = [])
    (hstep : stride h loop (.yielded finished appended) now = some step) :
    wp step (fun r db' => ∀ s, r = .ok s → db'.status loop.agentRunId ≠ some .waitingChildren ∨
      (s.point = some .yielding ∧ s.pendingChildren ≠ [] ∧ s.pendingChildren = s.spawned.map (·.childRunId) ∧
        ∀ id, id ∈ s.pendingChildren ↔ db.Respawns loop.agentRunId id)) db := by
  refine wp_stride hstep (fun m hm => ?_) fun s db' hpaused => .inl (by rw [hpaused]; decide)
  rw [hpoint] at hm
  obtain rfl := Option.some.inj hm
  refine wp_loopHead (fun db₁ run investigation hmoved hkin hid hrow _ => ?_) fun _ _ _ => of_raised
  have hrun : run.status = .waitingChildren := by
    have hdb₁ := status_of_get hrow
    rw [hmoved.status, hstatus] at hdb₁
    exact (Option.some.inj hdb₁).symm
  rw [hpending]
  unfold dispatch
  rw [hrun, if_neg (by decide)]
  by_cases hterminal : investigationStateMachine.isTerminal investigation.status = true
  · rw [if_pos hterminal, drainAllChildren, if_pos rfl, wp_bind]
    refine wp_mono (ends_syncRunToInvestigation now (by rw [hid, hrow])) ?_
    intro r db' hr
    cases r with
    | error e => exact of_raised
    | ok a =>
      rintro _ ⟨⟩
      obtain ⟨status, hended, hclosed⟩ := hr a rfl
      refine .inl ?_
      change db'.status loop.agentRunId ≠ _
      rw [← hid, hended]
      rintro ⟨⟩
      cases hclosed
  · rw [if_neg hterminal]
    dsimp only
    rw [resumeWaitingChildren, if_neg (by simp), wp_bind]
    refine wp_mono (respawnChildren_spawns run) ?_
    rintro r db₂ ⟨rfl, hspawns⟩
    cases r with
    | error e => exact of_raised
    | ok spawned =>
      obtain ⟨hmatched, hmem⟩ := hspawns spawned rfl
      dsimp only
      split_ifs with hnone
      · refine wp_mono ((lands_transitionRun hid .running now none).returned (roundEnd false spawned) db₂) ?_
        intro r db₃ hr s hs
        rw [hr s hs]
        exact .inl (by decide)
      · rintro _ ⟨⟩
        refine .inr ⟨rfl, hnone, hmatched, fun id => (hmem id).trans ?_⟩
        rw [hid]
        exact ⟨.of_unmoved hmoved.symm hkin.symm, .of_unmoved hmoved hkin⟩

end Waiting
end IncidentLens.Investigations
