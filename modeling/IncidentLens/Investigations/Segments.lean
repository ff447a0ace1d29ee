import IncidentLens.Investigations.Footprint

/-!
# What the stretches of a loop write

Every stretch between two awaits keeps to the footprint of its run. Most of them work on;
which of them end the run is read off the point, the answer and the stored statuses.
-/
namespace IncidentLens.Investigations
open Data Effects StateError Walks StateError List

section
variable {k : Extent} {me : RunIdentity} {ids : List String}

variable {run : AgentRun} {investigation : Investigation} {parent : AgentRun} {db : Database}
  {package : DelegatedTaskPackage} {after : AfterDrain} {h : Harness} {request : ChildDelegationRequest}

lemma agentRunId_of_identity (h : run.identity = me) :
    run.agentRunId = me.agentRunId := congrArg RunIdentity.agentRunId h

lemma investigationId_of_identity (h : run.identity = me) :
    run.investigationId = me.investigationId := congrArg RunIdentity.investigationId h

/-! ### Child reports -/

lemma appendEvidence_identity {refs : List EvidenceReference} {attached : AgentRun × ℕ}
    (h : appendEvidence run investigation refs = some attached) :
    attached.1.identity = run.identity ∧ attached.1.status = run.status := by
  unfold appendEvidence at h
  dsimp only at h
  split_ifs at h <;> obtain rfl := Option.some.inj h <;> exact ⟨rfl, rfl⟩

lemma walks_getEvidence (evidenceId : String) : Walks (holding k me ids) (getEvidence evidenceId) fun _ => True := by
  refine get_bind fun db _ => ?_
  cases db.evidence.get evidenceId with
  | some record => exact ⟨.refl, fun _ _ => trivial⟩
  | none => exact ⟨.refl, of_raised⟩

lemma walks_deliverChildReportReceipt {receipt : ChildReportReceipt} (hparent : parent.identity = me)
    (hinv : investigation.investigationId = me.investigationId) (notification : Message) (now : Time) :
    Walks (holding k me ids) (deliverChildReportReceipt receipt parent investigation notification now) fun _ => True := by
  refine get_bind fun db hold => ?_
  cases db.receipts.get receipt.childRunId with
  | none => exact ⟨.refl, of_raised⟩
  | some stored =>
    dsimp only
    split_ifs with hdelivered hkind
    · exact ⟨.refl, fun _ _ => trivial⟩
    · exact ⟨.refl, of_raised⟩
    · refine (walks_transaction ?_) db hold
      refine (walks_updateAgentRun hparent).bind fun _ _ => ?_
      refine (walks_updateInvestigation hinv).bind fun _ _ => ?_
      rw [agentRunId_of_identity hparent]
      refine (walks_appendMessage notification).bind fun _ _ => ?_
      exact modify fun db _ => .aside rfl rfl rfl (List.Subset.refl _) (fun _ _ => rfl)
        (prefix_refl _)

lemma walks_deliverReceipt (now : Time) (receipt : ChildReportReceipt) :
    Walks (holding k me ids) (deliverReceipt me.agentRunId now receipt) fun _ => True := by
  refine walks_reloadPair.bind fun pair hpair => ?_
  obtain ⟨run, investigation⟩ := pair
  refine (walks_getEvidence _).bind fun evidence _ => ?_
  dsimp only
  cases hattached : appendEvidence run investigation [⟨receipt.evidenceId, "child:" ++ receipt.childRunId,
    String.ofList (evidence.contentRedacted.toList.take 2000)⟩] with
  | none => exact throw _
  | some attached =>
    have hme : attached.1.identity = me := (appendEvidence_identity hattached).1.trans hpair.1
    dsimp only
    apply walks_deliverChildReportReceipt hme
    exact hpair.2

lemma walks_deliverPendingChildReports (now : Time) :
    Walks (holding k me ids) (deliverPendingChildReports me.agentRunId now) fun _ => True := by
  refine get_bind fun db hold => ?_
  exact forM _ (fun receipt _ => walks_deliverReceipt now receipt) db hold

lemma deliverPendingChildReports_still (now : Time) (hold : Holds me ids db) :
    wp (deliverPendingChildReports me.agentRunId now) (fun _ db' => Still me db db' ∧ Holds me ids db') db := by
  refine wp_mono (walks_deliverPendingChildReports (k := .quiet) now db hold) ?_
  intro r db' h
  exact ⟨still_of_quiet h.1, (holding .quiet me ids).along hold h.1⟩

/-! ### Rounds -/

lemma walks_closeRound (hrun : run.identity = me) (evidenceBefore : List String) :
    Walks (holding k me ids) (closeRound run evidenceBefore) fun r => r.identity = me := by
  refine walks_getInvestigation.bind fun investigation hinv => ?_
  have hclosed : (finishRoundCounters run investigation evidenceBefore).1.identity = me := hrun
  refine (walks_updateAgentRun hclosed).bind fun _ _ => ?_
  have hsame : (finishRoundCounters run investigation evidenceBefore).2.investigationId =
      me.investigationId := hinv.trans (investigationId_of_identity hrun)
  refine (walks_updateInvestigation hsame).bind fun _ _ => ?_
  exact pure hclosed

lemma walks_persistConclusion (run : AgentRun) (conclusion : Conclusion) :
    Walks (holding k me ids) (persistConclusion run conclusion) fun _ => True := by
  unfold persistConclusion
  refine ite (fun _ => pure trivial) fun _ => ?_
  exact modify fun db _ => .aside rfl rfl rfl (List.Subset.refl _) (fun _ _ => rfl)
    (prefix_refl _)

lemma pauseStatusFor_open (reason : String) : agentRunStateMachine.isTerminal (pauseStatusFor reason) = false := by
  unfold pauseStatusFor
  split_ifs <;> rfl

/-! ### Children -/

lemma walks_createChild {r : AgentRun} (hkind : r.kind = .child) (hstatus : r.status = .created)
    (hparent : r.parentRunId = some me.agentRunId) : Walks (working me ids) (createAgentRun r) fun _ => True := by
  intro db hold
  obtain ⟨parent, hrow, hme⟩ := hold.1.run
  simp only [createAgentRun, wp_bind, wp_get, hkind, hparent, Option.bind_some, hrow, if_true]
  by_cases hinv : parent.investigationId = r.investigationId
  · simp only [hinv, ne_eq, not_true_eq_false, if_false]
    cases hfresh : db.runs.get r.agentRunId with
    | some _ => exact ⟨.refl, of_raised⟩
    | none =>
      refine ⟨.single (.createChild rfl hparent ?_ hkind hstatus hfresh hold.2), fun _ _ => trivial⟩
      rw [← hinv]
      exact investigationId_of_identity hme
  · simp only [hinv, ne_eq, not_false_eq_true, if_true]
    exact ⟨.refl, of_raised⟩

lemma walks_working {α : Type} {m : DatabaseM α} {V : α → Prop}
    (h : Walks (holding .working me ids) m V) : Walks (working me ids) m V :=
  weaken (fun _ _ h => h) (fun db (hold : (working me ids).holds db) => hold.1) h

lemma walks_spawnChildFromPackage (hpackage : package.parentRunId = me.agentRunId) (spawned : Spawned) :
    Walks (working me ids) (spawnChildFromPackage parent package spawned) fun _ => True := by
  have hcreate : Walks (working me ids) (createAgentRun (buildChildRun package parent)) fun _ => True :=
    walks_createChild rfl rfl (congrArg some hpackage)
  refine bind (tryCatch hcreate fun e => ?_) fun _ _ => ?_
  · split
    · exact pure trivial
    · exact throw _
  · exact ite (fun _ => pure trivial) fun _ => pure trivial

lemma walks_spawnDelegatedPackages (hparent : parent.identity = me) (spawned : Spawned) :
    Walks (working me ids) (spawnDelegatedPackages parent spawned) fun _ => True := by
  refine get_bind fun db hold => ?_
  refine foldlM _ _ trivial (fun spawned _ package hpackage => ?_) db hold
  have hid : package.parentRunId = me.agentRunId := by
    have h := (mem_filter.mp hpackage).2
    rw [← agentRunId_of_identity hparent]
    simpa using h
  refine ite (fun _ => pure trivial) fun _ => ?_
  refine get_bind fun db hold => ?_
  cases db.runs.get package.childRunId with
  | some _ => exact ⟨.refl, fun _ _ => trivial⟩
  | none => exact walks_spawnChildFromPackage hid spawned db hold

lemma createAgentRun_existing {r stored : AgentRun} (hstored : db.runs.get r.agentRunId = some stored) :
    wp (createAgentRun r) (fun result db' => db' = db ∧ ∃ e, result = .error e) db := by
  simp only [createAgentRun, wp_bind, wp_get, hstored]
  by_cases hkind : r.kind = .child
  · simp only [hkind, if_true]
    cases r.parentRunId.bind db.runs.get with
    | none => exact ⟨rfl, _, rfl⟩
    | some parent =>
      dsimp only
      split_ifs <;> exact ⟨rfl, _, rfl⟩
  · simp only [hkind, if_false]
    exact ⟨rfl, _, rfl⟩

lemma spawnChildFromPackage_existing
    {child : AgentRun} (hchild : db.runs.get package.childRunId = some child) (spawned : Spawned) :
    wp (spawnChildFromPackage parent package spawned) (fun _ db' => db' = db) db := by
  rw [spawnChildFromPackage, wp_bind, wp_tryCatch]
  refine wp_mono (createAgentRun_existing (r := buildChildRun package parent) hchild) ?_
  rintro r db' ⟨rfl, e, rfl⟩
  dsimp only
  split
  · simp only [wp_pure]
    split_ifs <;> rfl
  · rfl

lemma walks_respawnChildren : Walks (holding k me ids) (respawnChildren parent) fun _ => True := by
  refine get_bind fun db _ => ?_
  refine wp_mono (foldlM_unchanged _ (fun spawned child hchild => ?_) ([], [])) ?_
  · have hrow := get_of_mem_listAgentRuns (mem_of_mem_filter hchild)
    split_ifs
    · rfl
    · cases hpackage : db.delegatedTasks.get child.agentRunId with
      | none => rfl
      | some package =>
        have hid := db.delegatedTasks.keyed _ _ hpackage
        exact spawnChildFromPackage_existing (by rw [hid, hrow]) spawned
  · rintro r db' rfl
    exact ⟨.refl, fun _ _ => trivial⟩

/-! ### Ends of a run -/

lemma runEnded_withRun {r : AgentRun} (hid : r.agentRunId = me.agentRunId)
    (hr : agentRunStateMachine.isTerminal r.status = true) : (db.withRun r).RunEnded me.agentRunId := by
  refine ⟨r, ?_, hr⟩
  rw [← hid]
  exact Table.get_put_self _ _

lemma walks_endRun (hrun : run.identity = me) {target : AgentRunStatus} (now : Time)
    (stopReason : Option StopReason) (htarget : agentRunStateMachine.isTerminal target = true)
    {m : DatabaseM PUnit} (hm : ∀ db, db.RunEnded me.agentRunId →
      wp m (fun _ db' => Relation.ReflTransGen (Touch .ending me ids) db db') db) :
    Walks (holding .ending me ids) (do
      let _ ← transitionRun run target now stopReason
      m) fun _ => True := by
  intro db hold
  have hid := agentRunId_of_identity hrun
  obtain ⟨stored, hstored, hme⟩ := hold.run
  rw [wp_bind, wp_transitionRun]
  simp only [hid, hstored]
  split_ifs with hlegal
  · have hended : (db.withRun (stored.moved target now stopReason)).RunEnded me.agentRunId :=
      runEnded_withRun (agentRunId_of_identity hme) htarget
    refine wp_mono (hm _ hended) ?_
    intro r db' hdb'
    exact ⟨.head (.moveRun target now stopReason hstored hlegal (by decide) fun _ => rfl) hdb', fun _ _ => trivial⟩
  · exact ⟨.refl, fun _ h => h.elim⟩

lemma walks_failRun (hrun : run.identity = me)
    (hinv : investigation.investigationId = me.investigationId) (now : Time) :
    Walks (holding .ending me ids) (failRun run investigation now) fun _ => True := by
  refine walks_endRun hrun now _ rfl fun db hended => ?_
  split_ifs
  · exact walks_endInvestigation hinv now _ (by decide) hended
  · exact .refl

lemma walks_cancelInvestigation (hinv : investigation.investigationId = me.investigationId) (now : Time)
    (stopReason : Option StopReason) (hended : db.RunEnded me.agentRunId) :
    wp (do
      transitionInvestigation investigation .cancelRequested now stopReason
      transitionInvestigation investigation .cancelled now stopReason)
      (fun _ db' => Relation.ReflTransGen (Touch .ending me ids) db db') db := by
  rw [wp_bind, wp_transitionInvestigation, hinv]
  cases hstored : db.investigations.get me.investigationId with
  | none => exact .refl
  | some stored =>
    dsimp only
    split_ifs with hlegal
    · have hid : stored.investigationId = me.investigationId := db.investigations.keyed _ _ hstored
      have hput : (db.withInvestigation (stored.moved .cancelRequested now stopReason)).investigations.get
          me.investigationId = some (stored.moved .cancelRequested now stopReason) := by
        rw [← hid]
        exact Table.get_put_self _ _
      rw [wp_transitionInvestigation, hinv, hput]
      have hmove : investigationStateMachine.canTransition
          (stored.moved .cancelRequested now stopReason).status .cancelled = true := rfl
      simp only [hmove, if_true]
      have h := @Touch.cancelInvestigation .ending me ids db stored now stopReason hstored hlegal rfl hended
      convert Relation.ReflTransGen.single h using 1
      simp only [Database.withInvestigation]
      congr 2
      exact Table.put_put _ rfl
    · exact .refl

/-- Whether `_handle_stop` ends the run. -/
def stopEnds (reason : StopReason) (conclusions : List Conclusion) : Bool :=
  match reason with
  | .completed => conclusions ≠ [] ∧ ∀ conclusion ∈ conclusions, conclusion.evidenceIds ≠ []
  | .missingEvidence | .pendingApproval | .uncertainState => false
  | _ => true

lemma walks_handleStop (hk : k ≠ .quiet) (hrun : run.identity = me)
    (hinv : investigation.investigationId = me.investigationId) {reason : StopReason} {conclusions : List Conclusion}
    (hends : stopEnds reason conclusions = true → k = .ending) (now : Time) :
    Walks (holding k me ids) (handleStop run investigation reason conclusions now) fun _ => True := by
  have hfail : k = .ending → Walks (holding k me ids) (failRun run investigation now) fun _ => True := by
    rintro rfl
    exact walks_failRun hrun hinv now
  unfold handleStop
  cases reason with
  | completed =>
    refine ite (fun _ => walks_pauseRun hk hrun hinv rfl _ now) fun hgrounded => ?_
    obtain rfl : k = .ending := hends (by simpa [stopEnds] using hgrounded)
    refine (forM _ fun conclusion _ => walks_persistConclusion run conclusion).bind fun _ _ => ?_
    refine walks_endRun hrun now _ rfl fun db hended => ?_
    split_ifs
    · exact walks_endInvestigation hinv now _ (by decide) hended
    · exact .refl
  | missingEvidence => exact walks_pauseRun hk hrun hinv rfl _ now
  | pendingApproval => exact walks_pauseRun hk hrun hinv rfl _ now
  | uncertainState => exact walks_pauseRun hk hrun hinv rfl _ now
  | cancelled =>
    obtain rfl : k = .ending := hends rfl
    refine (walks_transitionRun hk hrun now _ (by decide)).bind fun _ _ => ?_
    refine walks_endRun hrun now _ rfl fun db hended => ?_
    split_ifs
    · exact walks_cancelInvestigation hinv now _ hended
    · exact .refl
  | _ => exact hfail (hends rfl)

/-- Whether what follows a drain ends the run. -/
def AfterDrain.ends : AfterDrain → Bool
  | .sync | .cancel | .fail => true
  | .pause _ => false
  | .stop reason conclusions _ => stopEnds reason conclusions

lemma walks_syncRunToInvestigation (hrun : run.identity = me) (investigation : Investigation) (now : Time) :
    Walks (holding .ending me ids) (syncRunToInvestigation run investigation now) fun _ => True := by
  have hmove : ∀ (run : AgentRun), run.identity = me → ∀ (target : AgentRunStatus) (reason : Option StopReason),
      Walks (holding .ending me ids) (transitionRun run target now reason) fun r => r.identity = me :=
    fun run hrun target reason => walks_transitionRun (by decide) hrun now reason fun _ => rfl
  unfold syncRunToInvestigation
  refine ite (fun _ => pure trivial) fun _ => ?_
  refine ite (fun _ => (hmove run hrun _ _).bind fun _ _ => pure trivial) fun _ => ?_
  refine ite (fun _ => ?_) fun _ => (hmove run hrun _ _).bind fun _ _ => pure trivial
  refine ite (fun _ => (hmove run hrun _ _).bind fun _ _ => pure trivial) fun _ => ?_
  exact (hmove run hrun _ _).bind fun _ _ => (hmove run hrun _ _).bind fun _ _ => pure trivial

lemma walks_conclude (hk : k ≠ .quiet) (hrun : run.identity = me)
    (hinv : investigation.investigationId = me.investigationId)
    (hends : after.ends = true → k = .ending) (now : Time) :
    Walks (holding k me ids) (conclude run investigation now after) fun _ => True := by
  cases after with
  | sync =>
    obtain rfl : k = .ending := hends rfl
    exact walks_syncRunToInvestigation hrun investigation now
  | cancel =>
    obtain rfl : k = .ending := hends rfl
    refine walks_endRun hrun now _ rfl fun db hended => ?_
    split_ifs
    · exact walks_endInvestigation hinv now _ (by decide) hended
    · exact .refl
  | pause reason => exact walks_pauseRun hk hrun hinv (pauseStatusFor_open reason) _ now
  | fail =>
    obtain rfl : k = .ending := hends rfl
    exact walks_failRun hrun hinv now
  | stop reason conclusions evidenceBefore =>
    refine (walks_handleStop hk hrun hinv hends now).bind fun _ _ => ?_
    rw [agentRunId_of_identity hrun]
    refine walks_getAgentRun.bind fun run hrun => ?_
    exact (walks_closeRound hrun evidenceBefore).bind fun _ _ => pure trivial

/-! ### Points -/

/-- What a suspended loop holds is about its own run. -/
def Point.Held (me : RunIdentity) (ids : List String) : Point → Prop
  | .building run investigation | .calling run investigation | .recompacting run investigation =>
    run.identity = me ∧ investigation.investigationId = me.investigationId ∧
      agentRunStateMachine.isTerminal run.status = false
  | .executing round =>
    ∀ request ∈ round.gated.pending ++ round.rest.flatten, request.toolCallId ∈ ids
  | _ => True

def Stride.Held (me : RunIdentity) (ids : List String) (s : Stride) : Prop :=
  ∀ point, s.point = some point → point.Held me ids

lemma roundEnd_held (stop : Bool) (spawned : Spawned) : (roundEnd stop spawned).Held me ids := by
  intro point hpoint
  cases stop <;> cases hpoint
  trivial

lemma returned_held (pendingChildren : List String) (spawned : List DelegatedTaskPackage) :
    Stride.Held me ids ⟨none, pendingChildren, spawned⟩ := by
  intro point hpoint
  cases hpoint

lemma walks_drainAllChildren (hk : k ≠ .quiet) (hrun : run.identity = me)
    (hinv : investigation.investigationId = me.investigationId) {pendingChildren : List String}
    (hends : pendingChildren = [] → after.ends = true → k = .ending) (now : Time) :
    Walks (holding k me ids) (drainAllChildren run investigation pendingChildren after now) (Stride.Held me ids) := by
  unfold drainAllChildren
  refine ite (fun hnone => ?_) fun _ => ?_
  · exact (walks_conclude hk hrun hinv (hends hnone) now).bind fun _ _ => pure (returned_held _ _)
  · have hheld : Stride.Held me ids ⟨some (.draining (decide (run.status = .running)) after), pendingChildren, []⟩ := by
      rintro point ⟨⟩
      trivial
    dsimp only
    refine optional (fun _ => ?_) (pure hheld)
    exact (walks_transitionRun hk hrun now _ fun h => absurd h (by decide)).mono fun _ _ => trivial

lemma walks_finishDrain (hk : k ≠ .quiet) (wasRunning : Bool) (hends : after.ends = true → k = .ending) (now : Time) :
    Walks (holding k me ids) (finishDrain me.agentRunId wasRunning after now) (Stride.Held me ids) := by
  refine walks_reloadPair.bind fun pair hpair => ?_
  obtain ⟨run, investigation⟩ := pair
  refine (walks_updateAgentRun hpair.1).bind fun _ _ => ?_
  refine (walks_updateInvestigation hpair.2).bind fun _ _ => ?_
  dsimp only
  refine optional (fun _ => ?_) ?_
  · exact (walks_transitionRun hk hpair.1 now _ fun h => absurd h (by decide)).mono fun _ _ => trivial
  · refine (walks_deliverPendingChildReports now).bind fun _ _ => ?_
    refine walks_reloadPair.bind fun pair hpair => ?_
    obtain ⟨run, investigation⟩ := pair
    exact (walks_conclude hk hpair.1 hpair.2 hends now).bind fun _ _ => pure (returned_held _ _)

/-! ### Tool batches -/

lemma walks_transitionToolCall (hk : k ≠ .quiet) (toolCallId : String) {target : ToolCallStatus}
    (htarget : target ≠ .running) {record : ToolCall → ToolCall}
    (hrun : ∀ c, (record c).agentRunId = c.agentRunId) (hname : ∀ c, (record c).toolName = c.toolName) :
    Walks (holding k me ids) (onStore (transitionToolCallStatus toolCallId target record)) fun _ => True := by
  intro db _
  simp only [wp_onStore, transitionToolCallStatus, getToolCall, wp_bind, wp_get]
  cases hc : db.toolCalls.get toolCallId with
  | none => exact ⟨.refl, of_raised⟩
  | some c =>
    simp only [wp_pure]
    split_ifs with hlegal
    · refine ⟨.single (.moveCall (db.toolCalls.get_key hc) rfl (hrun c) (hname c) hlegal hk ?_), fun _ _ => trivial⟩
      intro h
      exact absurd h htarget
    · exact ⟨.refl, of_raised⟩

lemma walks_pauseRound (hk : k ≠ .quiet) (hrun : run.identity = me)
    (hinv : investigation.investigationId = me.investigationId)
    {runStatus : AgentRunStatus} (hopen : agentRunStateMachine.isTerminal runStatus = false)
    (stopReason : StopReason) (now : Time) :
    Walks (holding k me ids) (onStore (pauseRound run investigation runStatus stopReason now)) fun _ => True := by
  unfold pauseRound
  split_ifs
  · exact walks_pauseRun hk hrun hinv hopen stopReason now
  · exact walks_onStore_pure trivial

lemma walks_keepOutcome (hk : k ≠ .quiet) (hrun : run.identity = me)
    (hinv : investigation.investigationId = me.investigationId) (outcome : ToolOutcome) (now : Time) :
    Walks (holding k me ids) (onStore (keepOutcome run investigation outcome now)) fun _ => True := by
  unfold keepOutcome
  cases hattached : appendEvidence run investigation outcome.evidence with
  | none =>
    exact walks_onStore_bind (walks_pauseRound hk hrun hinv rfl _ now) fun _ _ => walks_onStore_pure trivial
  | some attached =>
    have hcounted : (countRun attached.1 outcome).identity = me := (appendEvidence_identity hattached).1.trans hrun
    have hcountedInv : (countInvestigation investigation outcome attached.2).investigationId = me.investigationId := hinv
    refine walks_onStore_bind (walks_updateAgentRun hcounted) fun _ _ => ?_
    refine walks_onStore_bind (walks_updateInvestigation hcountedInv) fun _ _ => ?_
    split_ifs
    · exact walks_onStore_bind (walks_pauseRound hk hcounted hcountedInv rfl _ now) fun _ _ =>
        walks_onStore_pure trivial
    · exact walks_onStore_pure trivial

lemma walks_foldToolOutcome (hk : k ≠ .quiet) (hrun : run.identity = me)
    (hinv : investigation.investigationId = me.investigationId)
    (request : ToolRequest) {outcome : ToolOutcome} (houtcome : outcome.status ≠ .running) (now : Time) :
    Walks (holding k me ids) (onStore (foldToolOutcome run investigation request outcome now)) fun _ => True := by
  unfold foldToolOutcome
  split_ifs with hwaiting hover
  · refine walks_onStore_bind (walks_transitionToolCall hk _ (by decide) (fun _ => rfl) fun _ => rfl) fun _ _ => ?_
    refine walks_onStore_bind (walks_updateAgentRun hrun) fun _ _ => ?_
    refine walks_onStore_bind (walks_updateInvestigation hinv) fun _ _ => ?_
    exact walks_onStore_bind (walks_pauseRound hk hrun hinv rfl _ now) fun _ _ => walks_onStore_pure trivial
  · refine walks_onStore_bind (walks_transitionToolCall hk _ houtcome (fun _ => rfl) fun _ => rfl) fun _ _ => ?_
    exact walks_onStore_bind (walks_pauseRound hk hrun hinv rfl _ now) fun _ _ => walks_onStore_pure trivial
  · refine walks_onStore_bind (walks_transitionToolCall hk _ houtcome (fun _ => rfl) fun _ => rfl) fun _ _ => ?_
    exact walks_keepOutcome hk hrun hinv outcome now

lemma walks_foldBatch (hk : k ≠ .quiet) {outcomes : List ToolOutcome}
    (houtcomes : ∀ outcome ∈ outcomes, outcome.status ≠ .running) (now : Time) (pending : List ToolRequest) :
    Walks (holding k me ids) (onStore (foldBatch me.agentRunId outcomes now pending)) fun _ => True := by
  induction pending with
  | nil => exact walks_onStore_pure trivial
  | cons request pending ih =>
    unfold foldBatch
    cases hfind : outcomes.find? (·.toolCallId = request.toolCallId) with
    | none => exact walks_onStore_throw _
    | some outcome =>
      have hstatus := houtcomes outcome (mem_of_find?_eq_some hfind)
      refine walks_onStore_bind walks_getAgentRun fun run hrun => ?_
      refine walks_onStore_bind walks_getInvestigation fun investigation hinv => ?_
      have hinv' := hinv.trans (investigationId_of_identity hrun)
      refine walks_onStore_bind (walks_foldToolOutcome hk hrun hinv' request hstatus now) fun _ _ => ?_
      exact walks_onStore_bind ih fun _ _ => walks_onStore_pure trivial

lemma admitRequest_touches (hold : Holds me ids db)
    (hrow : db.runs.get me.agentRunId = some run) (hrunning : run.status = .running) {request : ToolRequest}
    (hid : request.toolCallId ∈ ids) (hlisted : request.toolCallId ∈ db.toolCallIds) :
    wp (onStore (admitRequest run request)) (fun _ db' => Relation.ReflTransGen (Touch .working me ids) db db') db := by
  have hown : run.agentRunId = me.agentRunId := db.runs.keyed _ _ hrow
  have hstart : ∀ db : Database, db.runs.get me.agentRunId = some run → ∀ c : ToolCall,
      db.toolCalls.get c.toolCallId = some c → c.agentRunId = me.agentRunId →
      wp (onStore (transitionToolCallStatus c.toolCallId .running id >>= fun _ => pure Gated.started))
        (fun _ db' => Relation.ReflTransGen (Touch .working me ids) db db') db := by
    intro db hrow c hc hmine
    rw [wp_onStore_bind, wp_bind, wp_transitionToolCallStatus, hc]
    dsimp only
    split_ifs with hlegal
    · exact .single (.moveCall hc rfl rfl rfl hlegal (by decide) fun _ => ⟨rfl, hmine, run, hrow, hrunning⟩)
    · exact .refl
  rw [admitRequest, wp_onStore_bind, wp_bind, wp_loadOrCreateToolCall]
  cases hc : db.toolCalls.get request.toolCallId with
  | none =>
    have hcreate : Touch .working me ids db (db.withToolCall (request.planned run)) :=
      .createCall rfl hown rfl hid hc hlisted ⟨run, hrow, hrunning⟩
    refine wp_mono (hstart (db.withToolCall (request.planned run)) hrow (request.planned run)
      (Table.get_put_self _ _) hown) ?_
    intro r db' h
    exact h.head hcreate
  | some c =>
    have hkey := db.toolCalls.keyed _ _ hc
    dsimp only
    split_ifs
    · exact .refl
    · exact hstart db hrow c (by rw [hkey, hc]) (hold.calls _ hid c hc)
    · exact .refl

/-- Beside what a working loop holds, the calls of a batch are listed. -/
def gating (me : RunIdentity) (ids batchIds : List String) : Invariant (Touch .working me ids) where
  holds db := Holds me ids db ∧ batchIds ⊆ db.toolCallIds
  kept db db' hold h := by
    refine ⟨h.holds hold.1, ?_⟩
    cases h with
    | aside _ _ _ toolCallIds => exact List.Subset.trans hold.2 toolCallIds
    | _ => exact hold.2

lemma running_of_check {now : Time} (h : (checkBeforeToolExecution run now).1 = true) : run.status = .running := by
  unfold checkBeforeToolExecution checkExecutable at h
  cases hstatus : run.status <;> simp_all [agentRunStateMachine, StateMachine.isTerminal]

lemma walks_refuse (hk : k ≠ .quiet) (hrun : run.identity = me)
    (hinv : investigation.investigationId = me.investigationId) (reason : String) (now : Time) :
    Walks (holding k me ids) (onStore (refuse run investigation reason now)) fun _ => True :=
  walks_onStore_bind (walks_pauseRun hk hrun hinv (pauseStatusFor_open reason) _ now) fun _ _ =>
    walks_onStore_pure trivial

lemma walks_gateRequest {batchIds : List String} (reserved : ℕ) {request : ToolRequest}
    (hid : request.toolCallId ∈ ids) (hbatch : request.toolCallId ∈ batchIds) (now : Time) :
    Walks (gating me ids batchIds) (onStore (gateRequest me.agentRunId reserved request now)) fun _ => True := by
  intro db hold
  obtain ⟨run, hrow, hme⟩ := hold.1.run
  rw [gateRequest, wp_onStore_bind, wp_bind, wp_getAgentRun, hrow]
  dsimp only
  rw [wp_onStore_bind, wp_bind, wp_getInvestigation]
  cases hinv : db.investigations.get run.investigationId with
  | none => exact ⟨.refl, of_raised⟩
  | some investigation =>
    have hkey : investigation.investigationId = me.investigationId :=
      (db.investigations.keyed _ _ hinv).trans (investigationId_of_identity hme)
    dsimp only
    split_ifs with hverdict hverdictInv
    · exact walks_refuse (by decide) hme hkey _ now db hold.1
    · exact walks_refuse (by decide) hme hkey _ now db hold.1
    · have hallowed : (checkBeforeToolExecution (run.withToolCalls reserved) now).1 = true := by
        simpa using hverdict
      have hrunning : (run.withToolCalls reserved).status = .running := running_of_check hallowed
      refine wp_mono (admitRequest_touches hold.1 hrow hrunning hid (hold.2 hbatch)) ?_
      intro r db' h
      exact ⟨h, fun _ _ => trivial⟩

lemma walks_gateBatch {batchIds : List String} (batch : List ToolRequest)
    (hids : ∀ request ∈ batch, request.toolCallId ∈ ids)
    (hbatch : ∀ request ∈ batch, request.toolCallId ∈ batchIds) (now : Time) (reserved : ℕ) :
    Walks (gating me ids batchIds) (onStore (gateBatch me.agentRunId now reserved batch))
      fun gated => ∀ request ∈ gated.pending, request ∈ batch := by
  induction batch generalizing reserved with
  | nil => exact walks_onStore_pure (by simp)
  | cons request batch ih =>
    have hrest := ih (fun r hr => hids r (mem_cons_of_mem _ hr))
      (fun r hr => hbatch r (mem_cons_of_mem _ hr))
    refine walks_onStore_bind (walks_gateRequest reserved (hids _ mem_cons_self)
      (hbatch _ mem_cons_self) now) fun gated _ => ?_
    cases gated with
    | stopped => exact walks_onStore_pure (by simp)
    | resolved block =>
      refine walks_onStore_bind (hrest (reserved + 1)) fun rest hrest => walks_onStore_pure ?_
      exact fun r hr => mem_cons_of_mem _ (hrest r hr)
    | started =>
      refine walks_onStore_bind (hrest (reserved + 1)) fun rest hrest => walks_onStore_pure ?_
      intro r hr
      rcases mem_cons.mp hr with rfl | hr
      · exact mem_cons_self
      · exact mem_cons_of_mem _ (hrest r hr)

lemma walks_gateCalls (batch : List ToolRequest) (hids : ∀ request ∈ batch, request.toolCallId ∈ ids)
    (now : Time) : Walks (holding .working me ids) (gateCalls me.agentRunId batch now)
      fun gated => ∀ request ∈ gated.pending, request ∈ batch := by
  intro db hold
  have hlist : Touch .working me ids db
      { db with toolCallIds := db.toolCallIds ++ batch.map (·.toolCallId) } :=
    .aside rfl rfl rfl (subset_append_left _ _) (fun _ _ => rfl) (prefix_refl _)
  have hgate : Walks (gating me ids (batch.map (·.toolCallId)))
      (onStore (gate me.agentRunId batch now)) fun gated => ∀ request ∈ gated.pending, request ∈ batch := by
    refine walks_onStore_bind (V := fun _ => True) ?_ fun run _ => ?_
    · exact weaken (fun _ _ h => h) (fun db (hold : (gating me ids _).holds db) => hold.1)
        (walks_getAgentRun.mono fun _ _ => trivial)
    · exact walks_gateBatch batch hids (fun r hr => mem_map_of_mem hr) now _
  rw [gateCalls, wp_bind, wp_modify]
  refine wp_mono (hgate _ ⟨hlist.holds hold, subset_append_right _ _⟩) ?_
  intro r db' h
  exact ⟨h.1.head hlist, h.2⟩

/-! ### Rounds with tools -/

lemma walks_finishTools (requests : List ToolRequest) (evidenceBefore : List String)
    (blocks : List ToolResultBlock) (stop resultAppended : Bool) (pendingChildren : List String) :
    Walks (working me ids) (finishTools me.agentRunId requests evidenceBefore blocks stop resultAppended
      pendingChildren) (Stride.Held me ids) := by
  unfold finishTools
  dsimp only
  have hrest : Walks (working me ids) (do
      let run ← onStore (getAgentRun me.agentRunId)
      let run ← closeRound run evidenceBefore
      if stop then return roundEnd true (pendingChildren, [])
      else
        let spawned ← spawnDelegatedPackages run (pendingChildren, [])
        return roundEnd false spawned) (Stride.Held me ids) := by
    refine (walks_working walks_getAgentRun).bind fun run hrun => ?_
    refine (walks_working (walks_closeRound hrun evidenceBefore)).bind fun run hrun => ?_
    refine ite (fun _ => pure (roundEnd_held true _)) fun _ => ?_
    exact (walks_spawnDelegatedPackages hrun _).bind fun spawned _ => pure (roundEnd_held false spawned)
  exact optional (fun _ => walks_working (walks_appendMessage _)) hrest

lemma walks_runBatches (requests : List ToolRequest) (evidenceBefore : List String)
    (resultAppended : Bool) (pendingChildren : List String) (now : Time) (batches : List (List ToolRequest))
    (hids : ∀ request ∈ batches.flatten, request.toolCallId ∈ ids) (blocks : List ToolResultBlock) :
    Walks (working me ids) (runBatches me.agentRunId requests evidenceBefore resultAppended pendingChildren
      now batches blocks) (Stride.Held me ids) := by
  induction batches generalizing blocks with
  | nil => exact walks_finishTools requests evidenceBefore blocks false resultAppended pendingChildren
  | cons batch rest ih =>
    have hbatch : ∀ request ∈ batch, request.toolCallId ∈ ids :=
      fun r hr => hids r (mem_flatten.mpr ⟨batch, mem_cons_self, hr⟩)
    have hrest : ∀ request ∈ rest.flatten, request.toolCallId ∈ ids := by
      intro r hr
      rw [flatten_cons] at hids
      exact hids r (mem_append_right _ hr)
    unfold runBatches
    refine (walks_working (walks_gateCalls batch hbatch now)).bind fun gated hgated => ?_
    refine ite (fun _ => pure ?_) fun _ => ?_
    · rintro point ⟨⟩ request hrequest
      rcases mem_append.mp hrequest with h | h
      · exact hbatch request (hgated request h)
      · exact hrest request h
    · refine ite (fun _ => ?_) fun _ => ih hrest _
      exact walks_finishTools requests evidenceBefore _ true resultAppended pendingChildren

lemma walks_afterBatch (round : ToolRound) {outcomes : List ToolOutcome}
    (houtcomes : ∀ outcome ∈ outcomes, outcome.status ≠ .running)
    (hids : ∀ request ∈ round.rest.flatten, request.toolCallId ∈ ids) (resultAppended : Bool)
    (pendingChildren : List String) (now : Time) :
    Walks (working me ids) (afterBatch me.agentRunId round outcomes resultAppended pendingChildren now)
      (Stride.Held me ids) := by
  refine (walks_working (walks_foldBatch (by decide) houtcomes now _)).bind fun stop _ => ?_
  refine ite (fun _ => walks_finishTools _ _ _ true resultAppended pendingChildren) fun _ => ?_
  exact walks_runBatches _ _ resultAppended pendingChildren now round.rest hids _

lemma walks_afterCompaction (hk : k ≠ .quiet) (evidenceBefore : List String) (toolCallId : String)
    (status : ToolCallStatus) (content : String) (resultAppended : Bool) (pendingChildren : List String)
    (now : Time) : Walks (holding k me ids) (afterCompaction me.agentRunId evidenceBefore toolCallId status content
      resultAppended pendingChildren now) (Stride.Held me ids) := by
  refine walks_reloadPair.bind fun pair hpair => ?_
  obtain ⟨run, investigation⟩ := pair
  refine ite (fun _ => ?_) fun _ => ?_
  · exact (walks_pauseRun hk hpair.1 hpair.2 rfl _ now).bind fun _ _ => pure (roundEnd_held true _)
  · refine (walks_appendMessage _).bind fun _ _ => ?_
    exact (walks_closeRound hpair.1 evidenceBefore).bind fun _ _ => pure (roundEnd_held false _)

/-! ### Delegations -/

lemma Harness.parentRunId_of_prepare (hprepare : h.prepare run investigation request = .ok package) :
    package.parentRunId = run.agentRunId := by
  unfold Harness.prepare at hprepare
  dsimp only at hprepare
  split_ifs at hprepare
  cases hbudget : h.boundedBudget run request with
  | error rejected =>
    rw [hbudget] at hprepare
    cases hprepare
  | ok budget =>
    rw [hbudget] at hprepare
    cases hprepare
    rfl

/-- Whether a delegation is refused in a way that fails the run. -/
def Harness.delegationEnds (h : Harness) (run : AgentRun) (investigation : Investigation)
    (request : ChildDelegationRequest) : Bool :=
  match h.prepare run investigation request with
  | .error rejected => decide (run.kind = .child) || decide (rejected.kind = .invalid)
  | .ok _ => false

lemma walks_createDelegatedTask (package : DelegatedTaskPackage) :
    Walks (holding k me ids) (createDelegatedTask package) fun _ => True := by
  refine get_bind fun db hold => ?_
  cases db.runs.get package.parentRunId with
  | none => exact ⟨.refl, of_raised⟩
  | some parent =>
    dsimp only
    split_ifs
    · exact ⟨.refl, of_raised⟩
    · refine get_bind (I := holding k me ids) (fun db hold => ?_) db hold
      cases db.delegatedTasks.get package.childRunId with
      | some _ => exact ⟨.refl, of_raised⟩
      | none =>
        exact ⟨.single (.aside rfl rfl rfl (List.Subset.refl _) (fun _ _ => rfl) (prefix_refl _)), fun _ _ => trivial⟩

lemma walks_delegateChild_working (hrun : run.identity = me)
    (hinv : investigation.investigationId = me.investigationId)
    (hends : h.delegationEnds run investigation request = false) (spawned : Spawned) (now : Time) :
    Walks (working me ids) (delegateChild h run investigation request spawned now) fun _ => True := by
  unfold Harness.delegationEnds at hends
  unfold delegateChild
  cases hprepare : h.prepare run investigation request with
  | error rejected =>
    rw [hprepare] at hends
    have hpause : ∀ (status : AgentRunStatus) (reason : StopReason),
        agentRunStateMachine.isTerminal status = false →
        Walks (working me ids) (pauseRun run investigation status reason now) fun _ => True :=
      fun status reason hopen => walks_working (walks_pauseRun (by decide) hrun hinv hopen reason now)
    dsimp only
    by_cases hchild : run.kind = .child
    · simp [hchild] at hends
    · by_cases hbudget : rejected.kind = .budgetChildren
      · simp only [hchild, hbudget, if_true, if_false]
        exact (hpause _ _ rfl).bind fun _ _ => pure trivial
      · by_cases henvelope : rejected.kind = .budgetEnvelope
        · simp only [hchild, henvelope, if_true, if_false]
          exact (hpause _ _ rfl).bind fun _ _ => pure trivial
        · have hkind : rejected.kind = .invalid := by cases hkind : rejected.kind <;> simp_all
          simp [hkind] at hends
  | ok package =>
    dsimp only
    have hpackage : package.parentRunId = me.agentRunId :=
      (Harness.parentRunId_of_prepare hprepare).trans (agentRunId_of_identity hrun)
    refine bind (tryCatch (walks_working (walks_createDelegatedTask package)) fun e => ?_)
      fun _ _ => ?_
    · split
      · exact pure trivial
      · exact throw _
    · refine (walks_working walks_getInvestigation).bind fun investigation hinv => ?_
      have hsame : investigation.investigationId = me.investigationId := hinv.trans (investigationId_of_identity hrun)
      refine bind (walks_working (walks_updateInvestigation (by exact hsame))) fun _ _ => ?_
      exact (walks_spawnChildFromPackage hpackage spawned).bind fun _ _ => pure trivial

lemma walks_delegateChild_ending (hrun : run.identity = me)
    (hinv : investigation.investigationId = me.investigationId)
    (hends : h.delegationEnds run investigation request = true) (spawned : Spawned) (now : Time) :
    Walks (holding .ending me ids) (delegateChild h run investigation request spawned now) fun _ => True := by
  unfold Harness.delegationEnds at hends
  unfold delegateChild
  cases hprepare : h.prepare run investigation request with
  | ok package =>
    rw [hprepare] at hends
    cases hends
  | error rejected =>
    dsimp only
    have hpause : ∀ (status : AgentRunStatus) (reason : StopReason),
        agentRunStateMachine.isTerminal status = false →
        Walks (holding .ending me ids) (pauseRun run investigation status reason now) fun _ => True :=
      fun status reason hopen => walks_pauseRun (by decide) hrun hinv hopen reason now
    split_ifs
    · exact (walks_failRun hrun hinv now).bind fun _ _ => pure trivial
    · exact (hpause _ _ rfl).bind fun _ _ => pure trivial
    · exact (hpause _ _ rfl).bind fun _ _ => pure trivial
    · exact (walks_failRun hrun hinv now).bind fun _ _ => pure trivial

/-! ### The provider's turn -/

def AgentRun.counted (run : AgentRun) (outputBytes : ℕ) : AgentRun :=
  { run with usage := { run.usage with
      rounds := run.usage.rounds + 1
      totalOutputBytes := run.usage.totalOutputBytes + outputBytes } }

@[simp] lemma AgentRun.counted_identity (run : AgentRun) (outputBytes : ℕ) :
    (run.counted outputBytes).identity = run.identity := rfl

lemma wp_countTurn {run stored : AgentRun} (outputBytes : ℕ)
    (hstored : db.runs.get run.agentRunId = some stored) (Q : Except Raised AgentRun → Database → Prop) :
    wp (countTurn run outputBytes) Q db ↔
      if stored.status = run.status then Q (.ok (run.counted outputBytes)) (db.withRun (run.counted outputBytes))
      else Q (.error (.store (.concurrentModification run.agentRunId))) db := by
  simp only [countTurn, wp_bind, wp_updateAgentRun, hstored]
  split_ifs with hstatus
  · have hfirst := Table.get_put_self db.runs
      { run with usage := { run.usage with rounds := run.usage.rounds + 1 } }
    have hsecond := Table.get_put_self (db.runs.put
      { run with usage := { run.usage with rounds := run.usage.rounds + 1 } }) (run.counted outputBytes)
    dsimp only [AgentRun.counted] at hfirst hsecond
    simp only [wp_getAgentRun, Database.withRun_runs, hfirst, if_true, hsecond]
    have hput : (db.withRun { run with usage := { run.usage with rounds := run.usage.rounds + 1 } }).withRun
        (run.counted outputBytes) = db.withRun (run.counted outputBytes) := by
      simp only [Database.withRun]
      congr 2
      exact Table.put_put _ rfl
    rw [← hput]
    rfl
  · rfl

/-- Whether a turn without tools ends the run. -/
def toollessEnds (h : Harness) (loop : Loop) (run : AgentRun) (investigation : Investigation)
    (result : AgentTurnResult) : Bool :=
  match result.stopSignal with
  | some reason => decide (loop.pendingChildren = []) && stopEnds reason result.conclusions
  | none => result.childDelegation && h.delegationEnds run investigation result.delegation

section
variable {h : Harness} {loop : Loop} {run : AgentRun} {investigation : Investigation}
  {result : AgentTurnResult}

lemma walks_afterToolless_working (hrun : run.identity = me)
    (hinv : investigation.investigationId = me.investigationId)
    (hends : toollessEnds h loop run investigation result = false) (now : Time) :
    Walks (working me ids) (afterToolless h loop run investigation result now) (Stride.Held me ids) := by
  unfold toollessEnds at hends
  unfold afterToolless
  dsimp only
  cases hsignal : result.stopSignal with
  | some reason =>
    rw [hsignal] at hends
    refine walks_working (walks_drainAllChildren (by decide) hrun hinv ?_ now)
    intro hnone hstop
    simp [hnone, show stopEnds reason result.conclusions = true from hstop] at hends
  | none =>
    rw [hsignal] at hends
    dsimp only
    by_cases hdelegation : result.childDelegation = true
    · simp only [hdelegation, if_true, Bool.true_and] at hends ⊢
      refine (walks_delegateChild_working hrun hinv hends _ now).bind fun answer _ => ?_
      obtain ⟨stop, spawned⟩ := answer
      rw [agentRunId_of_identity hrun]
      refine (walks_working walks_getAgentRun).bind fun run hrun => ?_
      refine (walks_working (walks_closeRound hrun _)).bind fun _ _ => ?_
      exact pure (roundEnd_held stop spawned)
    · have hpause : ∀ (closed : AgentRun), closed.identity = me → ∀ (reason : StopReason),
          Walks (holding .working me ids) (do
            pauseRun closed investigation .pausedMissingEvidence reason now
            return roundEnd true (loop.pendingChildren, [])) (Stride.Held me ids) :=
        fun closed hclosed reason => (walks_pauseRun (by decide) hclosed hinv rfl reason now).bind
          fun _ _ => pure (roundEnd_held true _)
      rw [if_neg hdelegation]
      refine walks_working ?_
      refine (forM _ fun conclusion _ => walks_persistConclusion run conclusion).bind fun _ _ => ?_
      refine (walks_closeRound hrun _).bind fun closed hclosed => ?_
      refine ite (fun _ => hpause closed hclosed _) fun _ => ?_
      exact ite (fun _ => hpause closed hclosed _) fun _ => pure (roundEnd_held false _)

lemma walks_afterToolless_ending (hrun : run.identity = me)
    (hinv : investigation.investigationId = me.investigationId)
    (hends : toollessEnds h loop run investigation result = true) (now : Time) :
    Walks (holding .ending me ids) (afterToolless h loop run investigation result now) (Stride.Held me ids) := by
  unfold toollessEnds at hends
  unfold afterToolless
  dsimp only
  cases hsignal : result.stopSignal with
  | some reason => exact walks_drainAllChildren (by decide) hrun hinv (fun _ _ => rfl) now
  | none =>
    rw [hsignal] at hends
    obtain ⟨hdelegation, hends⟩ := Bool.and_eq_true_iff.mp hends
    simp only [hdelegation, if_true]
    refine (walks_delegateChild_ending hrun hinv hends _ now).bind fun answer _ => ?_
    obtain ⟨stop, spawned⟩ := answer
    rw [agentRunId_of_identity hrun]
    refine walks_getAgentRun.bind fun run hrun => ?_
    refine (walks_closeRound hrun _).bind fun _ _ => ?_
    exact pure (roundEnd_held stop spawned)

end

/-- Whether a completed provider turn ends the run. -/
def turnEnds (h : Harness) (loop : Loop) (run : AgentRun) (investigation : Investigation)
    (result : AgentTurnResult) : Bool :=
  decide (result.toolRequests = []) && toollessEnds h loop (run.counted result.outputBytes) investigation result

section
variable {h : Harness} {loop : Loop} {run : AgentRun} {investigation : Investigation}
  {result : AgentTurnResult}

lemma mem_partitionToolBatches (safe : ToolRequest → Bool) (requests : List ToolRequest)
    (batches : List (List ToolRequest)) (current : List ToolRequest) (request : ToolRequest) :
    request ∈ (partitionToolBatches safe batches current requests).flatten ↔
      request ∈ batches.flatten ∨ request ∈ current ∨ request ∈ requests := by
  induction requests generalizing batches current with
  | nil =>
    unfold partitionToolBatches
    split_ifs with hcurrent
    · simp
    · simp [not_not.mp hcurrent]
  | cons r requests ih =>
    unfold partitionToolBatches
    split_ifs with hsafe hcurrent
    · rw [ih]
      simp [or_assoc]
    · rw [ih]
      simp [or_assoc]
    · dsimp only
      rw [ih]
      simp [not_not.mp hcurrent, or_assoc]

lemma walks_actOnTurn_working (hrun : run.identity = me) (hinv : investigation.investigationId = me.investigationId)
    (hids : ∀ request ∈ result.toolRequests, request.toolCallId ∈ ids)
    (hends : result.toolRequests = [] → toollessEnds h loop run investigation result = false)
    (assistantAppended resultAppended : Bool) (now : Time) : Walks (working me ids)
      (actOnTurn h loop run investigation result assistantAppended resultAppended now) (Stride.Held me ids) := by
  unfold actOnTurn
  refine ite (fun _ => ?_) fun _ => ?_
  · exact (walks_working (walks_pauseRun (by decide) hrun hinv rfl _ now)).bind
      fun _ _ => pure (roundEnd_held true _)
  · rw [agentRunId_of_identity hrun]
    refine (walks_working (walks_appendMessage _)).bind fun _ _ => ?_
    refine ite (fun hnone => walks_afterToolless_working hrun hinv (hends hnone) now) fun _ => ?_
    cases result.toolRequests.find? (·.toolName = "compact_context") with
    | some compact =>
      refine pure ?_
      rintro point ⟨⟩
      trivial
    | none =>
      refine walks_runBatches _ _ resultAppended _ now _ (fun request hrequest => hids request ?_) []
      simpa using (mem_partitionToolBatches h.safe result.toolRequests [] [] request).mp hrequest

lemma walks_actOnTurn_ending (hrun : run.identity = me)
    (hinv : investigation.investigationId = me.investigationId) (hnone : result.toolRequests = [])
    (hends : toollessEnds h loop run investigation result = true)
    (assistantAppended resultAppended : Bool) (now : Time) : Walks (holding .ending me ids)
      (actOnTurn h loop run investigation result assistantAppended resultAppended now) (Stride.Held me ids) := by
  unfold actOnTurn
  refine ite (fun _ => ?_) fun _ => ?_
  · exact (walks_pauseRun (by decide) hrun hinv rfl _ now).bind
      fun _ _ => pure (roundEnd_held true _)
  · rw [agentRunId_of_identity hrun]
    refine (walks_appendMessage _).bind fun _ _ => ?_
    simp only [hnone, if_true]
    exact walks_afterToolless_ending hrun hinv hends now

lemma afterTurn_touches {db : Database} (hold : Holds me ids db) (hrun : run.identity = me)
    {assistantAppended resultAppended : Bool} {now : Time} {V : Stride → Prop}
    (hact : ∀ db', Touch k me ids db db' → Holds me ids db' →
      (db'.runs.get me.agentRunId = some (run.counted result.outputBytes)) →
      wp (actOnTurn h loop (run.counted result.outputBytes) investigation result assistantAppended resultAppended now)
        (fun r db'' => Relation.ReflTransGen (Touch k me ids) db' db'' ∧ ∀ a, r = .ok a → V a) db') :
    wp (afterTurn h loop run investigation result assistantAppended resultAppended now)
      (fun r db' => Relation.ReflTransGen (Touch k me ids) db db' ∧ ∀ a, r = .ok a → V a) db := by
  obtain ⟨stored, hstored, hme⟩ := hold.run
  have hid := agentRunId_of_identity hrun
  rw [afterTurn, wp_bind, wp_countTurn _ (by rw [hid, hstored])]
  split_ifs with hstatus
  · have hcount : Touch k me ids db (db.withRun (run.counted result.outputBytes)) :=
      .rewriteRun hstored (hrun.trans hme.symm) hstatus.symm
    have hrow : (db.withRun (run.counted result.outputBytes)).runs.get me.agentRunId =
        some (run.counted result.outputBytes) := by
      rw [← hid]
      exact Table.get_put_self _ _
    refine wp_mono (hact _ hcount (hcount.holds hold) hrow) ?_
    intro r db' hdb'
    exact ⟨hdb'.1.head hcount, hdb'.2⟩
  · refine ⟨.refl, ?_⟩
    intro a ha
    cases ha

lemma walks_afterTurn_working (hrun : run.identity = me) (hinv : investigation.investigationId = me.investigationId)
    (hopen : agentRunStateMachine.isTerminal run.status = false)
    (hids : ∀ request ∈ result.toolRequests, request.toolCallId ∈ ids)
    (hends : turnEnds h loop run investigation result = false)
    (assistantAppended resultAppended : Bool) (now : Time) : Walks (holding .working me ids)
      (afterTurn h loop run investigation result assistantAppended resultAppended now) (Stride.Held me ids) := by
  intro db hold
  refine afterTurn_touches hold hrun fun db' _ hold' hrow => ?_
  have hcounted : toollessEnds h loop (run.counted result.outputBytes) investigation result = false ∨
      result.toolRequests ≠ [] := by
    by_cases hnone : result.toolRequests = []
    · exact .inl (by simpa [turnEnds, hnone] using hends)
    · exact .inr hnone
  refine walks_actOnTurn_working (by exact hrun) hinv hids ?_ assistantAppended resultAppended now db'
    ⟨hold', .inl ⟨_, hrow, hopen⟩⟩
  intro hnone
  exact hcounted.resolve_right (not_not.mpr hnone)

lemma walks_afterTurn_ending (hrun : run.identity = me) (hinv : investigation.investigationId = me.investigationId)
    (hends : turnEnds h loop run investigation result = true) (assistantAppended resultAppended : Bool) (now : Time) :
    Walks (holding .ending me ids) (afterTurn h loop run investigation result assistantAppended resultAppended now)
      (Stride.Held me ids) := by
  intro db hold
  obtain ⟨hnone, hends⟩ := Bool.and_eq_true_iff.mp hends
  refine afterTurn_touches hold hrun fun db' _ hold' _ => ?_
  exact walks_actOnTurn_ending (by exact hrun) hinv (by simpa using hnone) hends assistantAppended
    resultAppended now db' hold'

end

/-! ### The head of the loop -/

variable {run : AgentRun} {investigation : Investigation} {h : Harness} {loop : Loop} {db : Database}

lemma walks_pausePromptTooLong (hk : k ≠ .quiet) (loop : Loop) (hrun : run.identity = me)
    (hinv : investigation.investigationId = me.investigationId) (now : Time) :
    Walks (holding k me ids) (pausePromptTooLong loop run investigation now) (Stride.Held me ids) :=
  (walks_pauseRun hk hrun hinv rfl _ now).bind fun _ _ => pure (roundEnd_held true _)

lemma walks_startRound (hk : k ≠ .quiet) (h : Harness) (hrun : run.identity = me)
    (hinv : investigation.investigationId = me.investigationId)
    (hopen : agentRunStateMachine.isTerminal run.status = false) (pendingChildren : List String)
    (appended : Bool) (now : Time) :
    Walks (holding k me ids) (startRound h run investigation pendingChildren appended now) (Stride.Held me ids) := by
  have hbuilding : Stride.Held me ids ⟨some (.building run investigation), pendingChildren, []⟩ := by
    rintro point ⟨⟩
    exact ⟨hrun, hinv, hopen⟩
  have pause_ends : ∀ {reason : String}, pendingChildren = [] →
      (AfterDrain.pause reason).ends = true → k = .ending := by
    intro reason _ hends
    cases hends
  unfold startRound
  dsimp only
  refine ite (fun _ => walks_drainAllChildren hk hrun hinv pause_ends now) fun _ => ?_
  refine ite (fun _ => walks_drainAllChildren hk hrun hinv pause_ends now) fun _ => ?_
  refine get_bind fun db hold => ?_
  rw [agentRunId_of_identity hrun]
  refine ite (I := holding k me ids) (fun _ => ?_) (fun _ => ?_) db hold
  · exact (walks_pauseRun hk hrun hinv rfl _ now).bind fun _ _ => pure (roundEnd_held true _)
  · exact optional (fun _ => walks_appendMessage _) (pure hbuilding)

lemma grantRemainingInvestigationCapacity_identity (run : AgentRun) (investigation : Investigation) :
    (grantRemainingInvestigationCapacity run investigation).identity = run.identity ∧
      (grantRemainingInvestigationCapacity run investigation).status = run.status := by
  unfold grantRemainingInvestigationCapacity
  split_ifs <;> exact ⟨rfl, rfl⟩

lemma walks_renewBudget (hrun : run.identity = me) (hinv : investigation.investigationId = me.investigationId) :
    Walks (holding k me ids) (renewBudget run investigation) fun _ => True := by
  have hgrant := (grantRemainingInvestigationCapacity_identity run investigation).1.trans hrun
  unfold renewBudget
  refine ite (fun _ => ?_) fun _ => ite (fun _ => walks_updateAgentRun hgrant) fun _ => pure trivial
  refine (walks_updateAgentRun ?_).bind fun _ _ => walks_updateInvestigation ?_
  · exact hrun
  · exact hinv

lemma resumeContinuation_prefix (t : List Message) : t <+: resumeContinuation t := by
  unfold resumeContinuation
  cases t.getLast? with
  | none => exact prefix_refl t
  | some message =>
    dsimp only
    split_ifs
    · exact prefix_append _ _
    · exact prefix_refl t

lemma walks_resumePaused (hk : k ≠ .quiet) (hrun : run.identity = me)
    (hinv : investigation.investigationId = me.investigationId)
    (pendingChildren : List String) (appended : Bool) (now : Time) :
    Walks (holding k me ids) (resumePaused run investigation pendingChildren appended now) (Stride.Held me ids) := by
  refine (walks_renewBudget hrun hinv).bind fun _ _ => ?_
  refine (walks_transitionRun hk hrun now _ fun h => absurd h (by decide)).bind fun run hrun => ?_
  refine (walks_transitionInvestigation hk hinv now _ (by decide) (by decide)).bind fun _ _ => ?_
  refine get_bind fun db hold => ?_
  rw [agentRunId_of_identity hrun]
  dsimp only
  split_ifs
  · refine bind (I := holding k me ids) walks_reloadPair (fun pair hpair => ?_) db hold
    obtain ⟨run, investigation⟩ := pair
    exact (walks_pauseRun hk hpair.1 hpair.2 rfl _ now).bind fun _ _ => pure (roundEnd_held true _)
  · rw [wp_bind, wp_modify]
    refine ⟨.single (.aside rfl rfl rfl (List.Subset.refl _) ?_ ?_), ?_⟩
    · intro id hid
      exact Function.update_of_ne hid _ _
    · change db.transcripts me.agentRunId <+: Function.update db.transcripts me.agentRunId _ me.agentRunId
      rw [Function.update_self]
      exact resumeContinuation_prefix _
    · rintro a ⟨⟩
      exact roundEnd_held false _

lemma walks_resumeWaitingChildren (hk : k ≠ .quiet) (hrun : run.identity = me)
    (pendingChildren : List String) (now : Time) :
    Walks (holding k me ids) (resumeWaitingChildren run pendingChildren now) (Stride.Held me ids) := by
  unfold resumeWaitingChildren
  refine ite (fun _ => pure ?_) fun _ => ?_
  · rintro point ⟨⟩
    trivial
  · refine walks_respawnChildren.bind fun spawned _ => ?_
    refine optional (fun _ => ?_) (pure (roundEnd_held false spawned))
    exact (walks_transitionRun hk hrun now _ fun h => absurd h (by decide)).mono fun _ _ => trivial

/-- Whether the head of the loop ends the run. -/
def headEnds (run : AgentRun) (investigation : Investigation) (pendingChildren : List String) : Bool :=
  if agentRunStateMachine.isTerminal run.status then
    run.kind = .parent ∧ run.status = .cancelled ∧ investigation.status = .cancelRequested
  else
    pendingChildren = [] ∧
      (investigationStateMachine.isTerminal investigation.status = true ∨ run.status = .cancelRequested)

lemma headEnds_congr {run run' : AgentRun} {investigation investigation' : Investigation}
    (hrun : run'.identity = run.identity) (hstatus : run'.status = run.status)
    (hinv : investigation'.status = investigation.status) (pendingChildren : List String) :
    headEnds run' investigation' pendingChildren = headEnds run investigation pendingChildren := by
  have hkind : run'.kind = run.kind := congrArg RunIdentity.kind hrun
  unfold headEnds
  rw [hstatus, hinv, hkind]

def ended (k : Extent) (me : RunIdentity) (ids : List String) : Invariant (Touch k me ids) where
  holds db := Holds me ids db ∧ db.RunEnded me.agentRunId
  kept _ _ hold h := ⟨h.holds hold.1, h.runEnded hold.1.run hold.2⟩

lemma walks_ended {α : Type} {m : DatabaseM α} {V : α → Prop} (h : Walks (holding k me ids) m V) :
    Walks (ended k me ids) m V :=
  weaken (fun _ _ h => h) (fun db (hold : (ended k me ids).holds db) => hold.1) h

lemma walks_dispatch_ended (h : Harness) {run : AgentRun} {investigation : Investigation} (hinv : investigation.investigationId = me.investigationId)
    (hterminal : agentRunStateMachine.isTerminal run.status = true) {pendingChildren : List String}
    (hends : headEnds run investigation pendingChildren = true → k = .ending) (appended : Bool) (now : Time) :
    Walks (ended k me ids) (dispatch h run investigation pendingChildren appended now) (Stride.Held me ids) := by
  unfold dispatch
  rw [if_pos hterminal]
  refine optional (fun hcancel => ?_) (pure (returned_held _ _))
  have hhead : headEnds run investigation pendingChildren = true := by
    rw [headEnds, if_pos hterminal]
    exact decide_eq_true hcancel
  obtain rfl : k = .ending := hends hhead
  intro db hold
  refine wp_mono (@walks_endInvestigation me ids _ hinv _ now _ (by decide) _ hold.2) ?_
  intro r db' h
  exact ⟨h, fun _ _ => trivial⟩

lemma walks_dispatch_open (hk : k ≠ .quiet) (h : Harness) {run : AgentRun} (hrun : run.identity = me)
    {investigation : Investigation} (hinv : investigation.investigationId = me.investigationId)
    (hopen : agentRunStateMachine.isTerminal run.status = false) {pendingChildren : List String}
    (hends : headEnds run investigation pendingChildren = true → k = .ending) (appended : Bool) (now : Time) :
    Walks (holding k me ids) (dispatch h run investigation pendingChildren appended now) (Stride.Held me ids) := by
  have hdrain : ∀ after : AfterDrain, (investigationStateMachine.isTerminal investigation.status = true ∨
      run.status = .cancelRequested) →
      Walks (holding k me ids) (drainAllChildren run investigation pendingChildren after now)
        (Stride.Held me ids) := by
    intro after hends'
    refine walks_drainAllChildren hk hrun hinv (fun hnone _ => hends ?_) now
    simp [headEnds, hopen, hnone, hends']
  unfold dispatch
  rw [if_neg (by simp [hopen])]
  refine ite (fun hterminal => hdrain _ (.inl hterminal)) fun _ => ?_
  cases hstatus : run.status with
  | cancelRequested => exact hdrain _ (.inr hstatus)
  | waitingApproval => exact pure (returned_held _ _)
  | waitingChildren => exact walks_resumeWaitingChildren hk hrun pendingChildren now
  | pausedBudget => exact walks_resumePaused hk hrun hinv pendingChildren appended now
  | pausedMissingEvidence => exact walks_resumePaused hk hrun hinv pendingChildren appended now
  | pausedUncertainState => exact walks_resumePaused hk hrun hinv pendingChildren appended now
  | created =>
    exact (walks_transitionRun hk hrun now _ fun h => absurd h (by decide)).bind
      fun _ _ => pure (roundEnd_held false _)
  | _ => exact walks_startRound hk h hrun hinv hopen pendingChildren appended now

lemma loopHead_touches (hloop : loop.agentRunId = me.agentRunId)
    (hk : k ≠ .quiet) (hold : Holds me ids db) (finished : List String)
    (hends : ∀ run investigation, db.runs.get me.agentRunId = some run →
      db.investigations.get me.investigationId = some investigation →
      headEnds run investigation (loop.pendingChildren.filter fun child => !finished.contains child)
        = true → k = .ending) (appended : Bool) (now : Time) : wp (loopHead h loop finished appended now)
      (fun r db' => Relation.ReflTransGen (Touch k me ids) db db' ∧ ∀ s, r = .ok s → s.Held me ids) db := by
  rw [loopHead, hloop, wp_bind]
  refine wp_mono (walks_deliverPendingChildReports (k := .quiet) now db hold) ?_
  rintro r db' ⟨hsteps, _⟩
  have hold' : Holds me ids db' := (holding .quiet me ids).along hold hsteps
  have hstill := still_of_quiet hsteps
  have hsteps' : Relation.ReflTransGen (Touch k me ids) db db' :=
    Relation.ReflTransGen.mono (fun _ _ => Touch.of_quiet) _ _ hsteps
  have hraised : ∀ e : Raised, Relation.ReflTransGen (Touch k me ids) db db' ∧
      ∀ s : Stride, (Except.error e : Except Raised Stride) = .ok s → s.Held me ids := by
    intro e
    refine ⟨hsteps', ?_⟩
    intro s hs
    cases hs
  cases r with
  | error e => exact hraised e
  | ok _ =>
    obtain ⟨run, hrun, hme⟩ := hold'.run
    dsimp only
    rw [wp_bind, wp_reloadPair, hrun]
    dsimp only
    rw [investigationId_of_identity hme]
    cases hinv : db'.investigations.get me.investigationId with
    | none => exact hraised _
    | some investigation =>
      have hkey := db'.investigations.keyed _ _ hinv
      have hends' : headEnds run investigation
          (loop.pendingChildren.filter fun child => !finished.contains child) = true → k = .ending := by
        obtain ⟨run₀, hrun₀, hsame, hstatus⟩ := hstill.run_some hrun
        obtain ⟨investigation₀, hinv₀, hinvStatus⟩ := hstill.investigation_some hinv
        rw [headEnds_congr hsame hstatus hinvStatus]
        exact hends run₀ investigation₀ hrun₀ hinv₀
      dsimp only
      refine wp_mono (Q := fun r db'' => Relation.ReflTransGen (Touch k me ids) db' db'' ∧
        ∀ s, r = .ok s → s.Held me ids) ?_ fun r db'' h => ⟨hsteps'.trans h.1, h.2⟩
      cases hterminal : agentRunStateMachine.isTerminal run.status with
      | true =>
        have hrest := @walks_dispatch_ended k me ids h _ _ hkey hterminal _ hends' appended now
        refine ite (I := ended k me ids) (fun _ => ?_) (fun _ => hrest) db' ⟨hold', run, hrun, hterminal⟩
        refine (walks_ended (walks_updateAgentRun hme)).bind fun _ _ => ?_
        exact (walks_ended (walks_updateInvestigation hkey)).bind fun _ _ => hrest
      | false =>
        have hrest := @walks_dispatch_open k me ids hk h _ hme _ hkey hterminal _ hends' appended now
        refine ite (I := holding k me ids) (fun _ => ?_) (fun _ => hrest) db' hold'
        refine (walks_updateAgentRun hme).bind fun _ _ => ?_
        exact (walks_updateInvestigation hkey).bind fun _ _ => hrest

/-! ### Strides -/

/-- The identifiers a stride may ask the tools with. -/
def strideIds (loop : Loop) (answer : Answer) : List String :=
  match loop.point, answer with
  | .executing round, _ => (round.gated.pending ++ round.rest.flatten).map (·.toolCallId)
  | _, .turn result _ _ => result.toolRequests.map (·.toolCallId)
  | _, _ => []

/-- Whether the stride of a loop ends its run. -/
def strideEnds (h : Harness) (loop : Loop) (db : Database) (answer : Answer) : Bool :=
  match loop.point, answer with
  | .yielding, .yielded finished _ =>
    match db.runs.get loop.agentRunId with
    | none => false
    | some run => match db.investigations.get run.investigationId with
      | none => false
      | some investigation => headEnds run investigation
          (loop.pendingChildren.filter fun child => !finished.contains child)
  | .calling run investigation, .turn result _ _ => turnEnds h loop run investigation result
  | .calling _ _, .providerFailed => loop.pendingChildren = []
  | .recompacting run investigation, .turn result _ _ => turnEnds h loop run investigation result
  | .draining _ after, .drained => after.ends
  | _, _ => false

def strideExtent (h : Harness) (loop : Loop) (db : Database) (answer : Answer) : Extent :=
  if strideEnds h loop db answer then .ending else .working

/-- The calls of a batch have ended, or wait for an approval. -/
def Answer.Settled : Answer → Prop
  | .executed outcomes _ => ∀ outcome ∈ outcomes, outcome.status ≠ .running
  | _ => True

/-- What a suspended loop relies on when it is resumed. -/
structure Resumable (me : RunIdentity) (db : Database) (loop : Loop) (answer : Answer) : Prop where
  holds : Holds me (strideIds loop answer) db
  own : loop.agentRunId = me.agentRunId
  point : loop.point.Held me (strideIds loop answer)
  batch : ∀ round, loop.point = .executing round → db.RunOpen me.agentRunId ∨ db.InvestigationOpen me.investigationId
  settled : answer.Settled

lemma walks_pauseOnEvidence (hk : k ≠ .quiet) (pendingChildren : List String) (now : Time) :
    Walks (holding k me ids) (pauseOnEvidence me.agentRunId pendingChildren now) (Stride.Held me ids) := by
  refine walks_reloadPair.bind fun pair hpair => ?_
  obtain ⟨run, investigation⟩ := pair
  have hrest : Walks (holding k me ids) (do
      pauseRun run investigation .pausedBudget .budgetEvidence now
      return roundEnd true (pendingChildren, [])) (Stride.Held me ids) :=
    (walks_pauseRun hk hpair.1 hpair.2 rfl _ now).bind fun _ _ => pure (roundEnd_held true _)
  refine optional (fun _ => ?_) hrest
  exact (walks_transitionRun hk hpair.1 now _ fun h => absurd h (by decide)).mono fun _ _ => trivial

lemma walks_turn {result : AgentTurnResult}
    (hheld : run.identity = me ∧ investigation.investigationId = me.investigationId ∧
      agentRunStateMachine.isTerminal run.status = false)
    (hids : ids = result.toolRequests.map (·.toolCallId)) (assistantAppended resultAppended : Bool) (now : Time) :
    Walks (holding (if turnEnds h loop run investigation result then .ending else .working) me ids)
      (afterTurn h loop run investigation result assistantAppended resultAppended now) (Stride.Held me ids) := by
  obtain ⟨hrun, hinv, hopen⟩ := hheld
  cases hends : turnEnds h loop run investigation result with
  | true => exact walks_afterTurn_ending hrun hinv hends assistantAppended resultAppended now
  | false =>
    refine walks_afterTurn_working hrun hinv hopen (fun request hrequest => ?_) hends assistantAppended
      resultAppended now
    rw [hids]
    exact mem_map_of_mem hrequest

lemma advance_touches {answer : Answer} {now : Time}
    {step : DatabaseM Stride} (hstep : advance h loop now loop.point answer = some step)
    (hres : Resumable me db loop answer) : wp step (fun r db' =>
      Relation.ReflTransGen (Touch (strideExtent h loop db answer) me (strideIds loop answer)) db db' ∧
        ∀ s, r = .ok s → s.Held me (strideIds loop answer)) db := by
  obtain ⟨agentRunId, point, pendingChildren⟩ := loop
  obtain ⟨hold, hloop, hpoint, hbatch, hsettled⟩ := hres
  dsimp only at *
  subst hloop
  have hk : strideExtent h ⟨me.agentRunId, point, pendingChildren⟩ db answer ≠ .quiet := by
    unfold strideExtent
    split_ifs <;> decide
  cases point with
  | yielding =>
    cases answer with
    | yielded finished appended =>
      cases hstep
      refine loopHead_touches rfl hk hold finished (fun run investigation hrun hinv hends => ?_) appended now
      have hid : run.investigationId = me.investigationId := by
        obtain ⟨r, hr, hme⟩ := hold.run
        obtain rfl := Option.some.inj (hrun.symm.trans hr)
        exact investigationId_of_identity hme
      refine if_pos ?_
      simp only [strideEnds, hrun, hid, hinv]
      exact hends
    | _ => cases hstep
  | waiting =>
    cases answer with
    | waited =>
      cases hstep
      exact pure (I := holding _ me _) (roundEnd_held false _) db hold
    | _ => cases hstep
  | building run investigation =>
    cases answer with
    | built ok =>
      cases hstep
      refine ite (I := holding _ me _) (fun _ => pure ?_) (fun _ => ?_) db hold
      · rintro point ⟨⟩
        exact hpoint
      · exact (walks_pauseRun hk hpoint.1 hpoint.2.1 rfl _ now).bind fun _ _ => pure (roundEnd_held true _)
    | _ => cases hstep
  | calling run investigation =>
    cases answer with
    | turn result assistantAppended resultAppended =>
      cases hstep
      exact walks_turn hpoint rfl assistantAppended resultAppended now db hold
    | promptTooLong attempted =>
      cases hstep
      refine ite (I := holding _ me _) (fun _ => walks_pausePromptTooLong hk _ hpoint.1 hpoint.2.1 now)
        (fun _ => pure ?_) db hold
      rintro point ⟨⟩
      exact hpoint
    | providerFailed =>
      cases hstep
      refine walks_drainAllChildren hk hpoint.1 hpoint.2.1 (fun hnone _ => ?_) now db hold
      exact if_pos (decide_eq_true hnone)
    | _ => cases hstep
  | recompacting run investigation =>
    cases answer with
    | turn result assistantAppended resultAppended =>
      cases hstep
      exact walks_turn hpoint rfl assistantAppended resultAppended now db hold
    | promptTooLong attempted =>
      cases hstep
      exact walks_pausePromptTooLong hk _ hpoint.1 hpoint.2.1 now db hold
    | compactionFailed =>
      cases hstep
      exact walks_pausePromptTooLong hk _ hpoint.1 hpoint.2.1 now db hold
    | providerFailed =>
      cases hstep
      exact throw (I := holding _ me _) _ db hold
    | _ => cases hstep
  | executing round =>
    cases answer with
    | executed outcomes resultAppended =>
      cases hstep
      refine walks_afterBatch round hsettled (fun request hrequest => ?_) resultAppended pendingChildren now db
        ⟨hold, hbatch round rfl⟩
      exact hpoint request (mem_append_right _ hrequest)
    | _ => cases hstep
  | compacting evidenceBefore toolCallId =>
    cases answer with
    | compacted status content resultAppended =>
      cases hstep
      exact walks_afterCompaction hk _ _ _ _ resultAppended pendingChildren now db hold
    | _ => cases hstep
  | draining wasRunning after =>
    cases answer with
    | drained =>
      cases hstep
      exact walks_finishDrain hk wasRunning (fun hends => if_pos hends) now db hold
    | _ => cases hstep

lemma stride_touches {answer : Answer} {now : Time}
    {step : DatabaseM Stride} (hstep : stride h loop answer now = some step) (hres : Resumable me db loop answer) :
    wp step (fun r db' =>
      Relation.ReflTransGen (Touch (strideExtent h loop db answer) me (strideIds loop answer)) db db' ∧
        ∀ s, r = .ok s → s.Held me (strideIds loop answer)) db := by
  obtain ⟨inner, hinner, rfl⟩ := Option.map_eq_some_iff.mp hstep
  have hk : strideExtent h loop db answer ≠ .quiet := by
    unfold strideExtent
    split_ifs <;> decide
  rw [wp_tryCatch]
  refine wp_mono (advance_touches hinner hres) ?_
  intro r db' hr
  cases r with
  | ok s => exact hr
  | error e =>
    have hold' := (holding (strideExtent h loop db answer) me (strideIds loop answer)).along hres.holds hr.1
    cases e with
    | evidenceBudgetExceeded =>
      dsimp only
      rw [hres.own]
      refine wp_mono (walks_pauseOnEvidence hk loop.pendingChildren now db' hold') ?_
      intro r db'' h
      exact ⟨hr.1.trans h.1, h.2⟩
    | _ => exact hr

end
end IncidentLens.Investigations
