import IncidentLens.Effects.Footprint
import IncidentLens.Investigations.Rules
import Mathlib.Data.List.Infix

/-!
# The footprint of a loop

What the loop of one run writes: its own run, the investigation it belongs to, its tool
calls, its transcript and its children. A stretch of a loop is quiet, or it works on, or it
ends: a quiet one moves no status, and only one that ends moves a row to a terminal status.
-/
namespace IncidentLens.Investigations
open Data Effects StateError StateError

structure RunIdentity where
  agentRunId : String
  investigationId : String
  parentRunId : Option String
  kind : AgentRunKind
  deriving DecidableEq

def AgentRun.identity (r : AgentRun) : RunIdentity := ⟨r.agentRunId, r.investigationId, r.parentRunId, r.kind⟩

@[simp] lemma AgentRun.moved_identity (r : AgentRun) (target : AgentRunStatus) (now : Time)
    (stopReason : Option StopReason) : (r.moved target now stopReason).identity = r.identity := rfl

/-- `me` is stored in a terminal status. -/
def Database.RunEnded (db : Database) (me : String) : Prop :=
  ∃ r, db.runs.get me = some r ∧ agentRunStateMachine.isTerminal r.status = true

/-- `me` is stored in a status that is not terminal. -/
def Database.RunOpen (db : Database) (me : String) : Prop :=
  ∃ r, db.runs.get me = some r ∧ agentRunStateMachine.isTerminal r.status = false

def Database.InvestigationOpen (db : Database) (id : String) : Prop :=
  ∃ i, db.investigations.get id = some i ∧ investigationStateMachine.isTerminal i.status = false

inductive Extent
  | quiet | working | ending
  deriving DecidableEq

/-- One write by the loop of `me`, whose requests have the identifiers `ids`. -/
inductive Touch (k : Extent) (me : RunIdentity) (ids : List String) : Database → Database → Prop
  | aside {db db' : Database} (store : db'.toStore = db.toStore) (runIds : db'.runIds = db.runIds)
      (investigationIds : db'.investigationIds = db.investigationIds)
      (toolCallIds : db.toolCallIds ⊆ db'.toolCallIds)
      (others : ∀ id, id ≠ me.agentRunId → db'.transcripts id = db.transcripts id)
      (own : db.transcripts me.agentRunId <+: db'.transcripts me.agentRunId) : Touch k me ids db db'
  | rewriteRun {db : Database} {r r' : AgentRun} (found : db.runs.get me.agentRunId = some r)
      (same : r'.identity = r.identity) (status : r'.status = r.status) :
      Touch k me ids db (db.withRun r')
  | moveRun {db : Database} {r : AgentRun} (target : AgentRunStatus) (now : Time)
      (stopReason : Option StopReason) (found : db.runs.get me.agentRunId = some r)
      (legal : agentRunStateMachine.canTransition r.status target = true) (moves : k ≠ .quiet)
      (ends : agentRunStateMachine.isTerminal target = true → k = .ending) :
      Touch k me ids db (db.withRun (r.moved target now stopReason))
  | rewriteInvestigation {db : Database} {i i' : Investigation}
      (found : db.investigations.get me.investigationId = some i)
      (same : i'.investigationId = me.investigationId) (status : i'.status = i.status) :
      Touch k me ids db (db.withInvestigation i')
  | moveInvestigation {db : Database} {i : Investigation} (target : InvestigationStatus) (now : Time)
      (stopReason : Option StopReason) (found : db.investigations.get me.investigationId = some i)
      (legal : investigationStateMachine.canTransition i.status target = true)
      (moves : k ≠ .quiet) (notRequested : target ≠ .cancelRequested)
      (ends : investigationStateMachine.isTerminal target = true → k = .ending ∧ db.RunEnded me.agentRunId) :
      Touch k me ids db (db.withInvestigation (i.moved target now stopReason))
  | cancelInvestigation {db : Database} {i : Investigation} (now : Time) (stopReason : Option StopReason)
      (found : db.investigations.get me.investigationId = some i)
      (legal : investigationStateMachine.canTransition i.status .cancelRequested = true)
      (ends : k = .ending) (ended : db.RunEnded me.agentRunId) :
      Touch k me ids db (db.withInvestigation
        ((i.moved .cancelRequested now stopReason).moved .cancelled now stopReason))
  | createChild {db : Database} {r : AgentRun} (works : k = .working)
      (parent : r.parentRunId = some me.agentRunId) (investigation : r.investigationId = me.investigationId)
      (kind : r.kind = .child) (status : r.status = .created) (fresh : db.runs.get r.agentRunId = none)
      (isOpen : db.RunOpen me.agentRunId ∨ db.InvestigationOpen me.investigationId) :
      Touch k me ids db { db with runs := db.runs.put r, runIds := db.runIds ++ [r.agentRunId] }
  | createCall {db : Database} {c : ToolCall} (works : k = .working) (own : c.agentRunId = me.agentRunId)
      (status : c.status = .planned) (known : c.toolCallId ∈ ids)
      (fresh : db.toolCalls.get c.toolCallId = none) (listed : c.toolCallId ∈ db.toolCallIds)
      (running : ∃ r, db.runs.get me.agentRunId = some r ∧ r.status = .running) :
      Touch k me ids db (db.withToolCall c)
  | moveCall {db : Database} {c c' : ToolCall} (found : db.toolCalls.get c.toolCallId = some c)
      (id : c'.toolCallId = c.toolCallId) (run : c'.agentRunId = c.agentRunId)
      (name : c'.toolName = c.toolName)
      (legal : toolCallStateMachine.canTransition c.status c'.status = true) (moves : k ≠ .quiet)
      (starts : c'.status = .running → k = .working ∧ c.agentRunId = me.agentRunId ∧
        ∃ r, db.runs.get me.agentRunId = some r ∧ r.status = .running) :
      Touch k me ids db (db.withToolCall c')

/-- The loop's run is stored, and the identifiers of its requests are its own. -/
structure Holds (me : RunIdentity) (ids : List String) (db : Database) : Prop where
  run : ∃ r, db.runs.get me.agentRunId = some r ∧ r.identity = me
  calls : ∀ id ∈ ids, ∀ c, db.toolCalls.get id = some c → c.agentRunId = me.agentRunId

section Table
variable {α κ : Type*} [DecidableEq κ] {key : α → κ}

lemma get_put_cases {t : Table key} {a b : α} {k : κ} (h : (t.put a).get k = some b) :
    (k = key a ∧ b = a) ∨ (k ≠ key a ∧ t.get k = some b) := by
  rw [Table.get_put] at h
  split_ifs at h with hk
  · exact .inl ⟨hk, (Option.some.inj h).symm⟩
  · exact .inr ⟨hk, h⟩

end Table

section
variable {k : Extent} {me : RunIdentity} {ids : List String} {db db' : Database}

lemma Touch.own {r : AgentRun} (hr : db.runs.get me.agentRunId = some r) (hme : r.identity = me)
    (h : Touch k me ids db db') : ∃ r', db'.runs.get me.agentRunId = some r' ∧ r'.identity = me ∧
      (r'.status = r.status ∨ agentRunStateMachine.canTransition r.status r'.status = true ∧
        (agentRunStateMachine.isTerminal r'.status = true → k = .ending)) := by
  have hput : ∀ {r' : AgentRun}, r'.identity = r.identity → (db.runs.put r').get me.agentRunId = some r' := by
    intro r' hr'
    have h := congrArg RunIdentity.agentRunId (hr'.trans hme)
    rw [← h]
    exact Table.get_put_self _ _
  cases h with
  | aside store => exact ⟨r, by rw [store, hr], hme, .inl rfl⟩
  | rewriteRun found same status =>
    obtain rfl := Option.some.inj (hr.symm.trans found)
    exact ⟨_, hput same, same.trans hme, .inl status⟩
  | moveRun target now stopReason found legal moves ends =>
    obtain rfl := Option.some.inj (hr.symm.trans found)
    exact ⟨_, hput rfl, hme, .inr ⟨legal, ends⟩⟩
  | createChild works parent investigation kind status fresh =>
    refine ⟨r, ?_, hme, .inl rfl⟩
    rw [Table.get_put_of_ne _ (by rintro h; rw [h, fresh] at hr; cases hr), hr]
  | _ => exact ⟨r, hr, hme, .inl rfl⟩

lemma Touch.run (hrun : ∃ r, db.runs.get me.agentRunId = some r ∧ r.identity = me)
    (h : Touch k me ids db db') : ∃ r, db'.runs.get me.agentRunId = some r ∧ r.identity = me := by
  obtain ⟨r, hr, hme⟩ := hrun
  obtain ⟨r', hr', hme', -⟩ := h.own hr hme
  exact ⟨r', hr', hme'⟩

lemma Touch.holds (hold : Holds me ids db) (h : Touch k me ids db db') : Holds me ids db' := by
  refine ⟨h.run hold.run, ?_⟩
  cases h with
  | aside store =>
    rw [store]
    exact hold.calls
  | createCall works own =>
    intro id hid c hc
    rcases get_put_cases hc with ⟨_, rfl⟩ | ⟨_, hc⟩
    · exact own
    · exact hold.calls id hid c hc
  | moveCall found hid' run =>
    intro id hid c hc
    rcases get_put_cases hc with ⟨rfl, rfl⟩ | ⟨_, hc⟩
    · rw [run]
      exact hold.calls _ hid _ (by rw [hid', found])
    · exact hold.calls id hid c hc
  | _ => exact hold.calls

lemma Touch.runOpen (hme : ∃ r, db.runs.get me.agentRunId = some r ∧ r.identity = me)
    (hopen : db.RunOpen me.agentRunId) (h : Touch .working me ids db db') : db'.RunOpen me.agentRunId := by
  obtain ⟨r, hr, hterminal⟩ := hopen
  obtain ⟨_, hr', hme⟩ := hme
  obtain rfl := Option.some.inj (hr.symm.trans hr')
  obtain ⟨r', hr', -, hstatus | ⟨-, hends⟩⟩ := h.own hr hme
  · exact ⟨r', hr', by rw [hstatus, hterminal]⟩
  · exact ⟨r', hr', Bool.eq_false_iff.mpr fun h => nomatch hends h⟩

lemma Touch.runEnded (hme : ∃ r, db.runs.get me.agentRunId = some r ∧ r.identity = me)
    (hended : db.RunEnded me.agentRunId) (h : Touch k me ids db db') : db'.RunEnded me.agentRunId := by
  obtain ⟨r, hr, hterminal⟩ := hended
  obtain ⟨_, hr', hme⟩ := hme
  obtain rfl := Option.some.inj (hr.symm.trans hr')
  obtain ⟨r', hr', -, hstatus | ⟨hlegal, -⟩⟩ := h.own hr hme
  · exact ⟨r', hr', by rw [hstatus, hterminal]⟩
  · rw [StateMachine.not_canTransition_of_isTerminal _ hterminal] at hlegal
    cases hlegal

lemma Touch.investigationOpen (hopen : db.InvestigationOpen me.investigationId)
    (h : Touch .working me ids db db') : db'.InvestigationOpen me.investigationId := by
  obtain ⟨i, hi, hterminal⟩ := hopen
  have hput : ∀ {u : Investigation}, investigationStateMachine.isTerminal u.status = false →
      ∃ j, (db.investigations.put u).get me.investigationId = some j ∧
        investigationStateMachine.isTerminal j.status = false := by
    intro u hu
    rw [Table.get_put]
    split_ifs
    · exact ⟨u, rfl, hu⟩
    · exact ⟨i, hi, hterminal⟩
  cases h with
  | aside store => exact ⟨i, by rw [store, hi], hterminal⟩
  | rewriteInvestigation found same status =>
    obtain rfl := Option.some.inj (hi.symm.trans found)
    exact hput (by rw [status, hterminal])
  | moveInvestigation target now stopReason found legal moves notRequested ends =>
    exact hput (Bool.eq_false_iff.mpr fun h => nomatch (ends h).1)
  | cancelInvestigation now stopReason found legal ends => nomatch ends
  | _ => exact ⟨i, hi, hterminal⟩

lemma Touch.of_quiet (h : Touch .quiet me ids db db') : Touch k me ids db db' := by
  cases h with
  | aside store runIds investigationIds toolCallIds others own =>
    exact .aside store runIds investigationIds toolCallIds others own
  | rewriteRun found same status => exact .rewriteRun found same status
  | rewriteInvestigation found same status => exact .rewriteInvestigation found same status
  | moveRun _ _ _ _ _ moves => exact absurd rfl moves
  | moveInvestigation _ _ _ _ _ moves => exact absurd rfl moves
  | cancelInvestigation _ _ _ _ ends => nomatch ends
  | createChild works => nomatch works
  | createCall works => nomatch works
  | moveCall _ _ _ _ _ moves => exact absurd rfl moves

/-- The statuses of a run and of its investigation are those they were. -/
structure Still (me : RunIdentity) (db db' : Database) : Prop where
  run : (db'.runs.get me.agentRunId).map (fun r => (r.identity, r.status)) =
    (db.runs.get me.agentRunId).map fun r => (r.identity, r.status)
  investigation : (db'.investigations.get me.investigationId).map (·.status) =
    (db.investigations.get me.investigationId).map (·.status)

lemma Touch.still (h : Touch .quiet me ids db db') : Still me db db' := by
  cases h with
  | aside store => exact ⟨by rw [store], by rw [store]⟩
  | @rewriteRun r r' found same status =>
    have hid : r'.agentRunId = me.agentRunId := (congrArg RunIdentity.agentRunId same).trans (db.runs.keyed _ _ found)
    refine ⟨?_, rfl⟩
    simp [Database.withRun, Table.get_put, hid, found, same, status]
  | @rewriteInvestigation i i' found same status =>
    refine ⟨rfl, ?_⟩
    simp [Database.withInvestigation, Table.get_put, same, found, status]
  | moveRun _ _ _ _ _ moves => exact absurd rfl moves
  | moveInvestigation _ _ _ _ _ moves => exact absurd rfl moves
  | cancelInvestigation _ _ _ _ ends => nomatch ends
  | createChild works => nomatch works
  | createCall works => nomatch works
  | moveCall _ _ _ _ _ moves => exact absurd rfl moves

lemma still_of_quiet (h : Relation.ReflTransGen (Touch .quiet me ids) db db') : Still me db db' := by
  induction h with
  | refl => exact ⟨rfl, rfl⟩
  | tail _ hstep ih => exact ⟨hstep.still.run.trans ih.run, hstep.still.investigation.trans ih.investigation⟩

lemma Still.run_some (h : Still me db db') {r' : AgentRun} (hr' : db'.runs.get me.agentRunId = some r') :
    ∃ r, db.runs.get me.agentRunId = some r ∧ r'.identity = r.identity ∧ r'.status = r.status := by
  have h := h.run
  rw [hr'] at h
  obtain ⟨r, hr, heq⟩ := Option.map_eq_some_iff.mp h.symm
  obtain ⟨hsame, hstatus⟩ := Prod.mk.inj heq
  exact ⟨r, hr, hsame.symm, hstatus.symm⟩

lemma Still.investigation_some (h : Still me db db') {i' : Investigation}
    (hi' : db'.investigations.get me.investigationId = some i') :
    ∃ i, db.investigations.get me.investigationId = some i ∧ i'.status = i.status := by
  have h := h.investigation
  rw [hi'] at h
  obtain ⟨i, hi, heq⟩ := Option.map_eq_some_iff.mp h.symm
  exact ⟨i, hi, heq.symm⟩

end

/-! ### What a loop leaves alone -/

section
variable {k : Extent} {me : RunIdentity} {ids : List String} {db db' : Database}

/-- The rows of other runs that are stored, of other investigations, and other transcripts. -/
structure Aside (me : RunIdentity) (db db' : Database) : Prop where
  runs : ∀ id r, id ≠ me.agentRunId → db.runs.get id = some r → db'.runs.get id = some r
  investigations : ∀ id, id ≠ me.investigationId → db'.investigations.get id = db.investigations.get id
  transcripts : ∀ id, id ≠ me.agentRunId → db'.transcripts id = db.transcripts id

lemma Touch.leaves (h : Touch k me ids db db') : Aside me db db' := by
  have hkey : ∀ {r : AgentRun}, db.runs.get me.agentRunId = some r → r.agentRunId = me.agentRunId :=
    fun hr => db.runs.keyed _ _ hr
  have hinvKey : ∀ {i : Investigation}, db.investigations.get me.investigationId = some i →
      i.investigationId = me.investigationId := fun hi => db.investigations.keyed _ _ hi
  have hrun : ∀ {u : AgentRun}, u.agentRunId = me.agentRunId → Aside me db (db.withRun u) := by
    intro u hu
    refine ⟨fun id r hid hr => ?_, fun _ _ => rfl, fun _ _ => rfl⟩
    rw [Database.withRun_runs, Table.get_put_of_ne _ (by rw [hu]; exact hid), hr]
  have hinv : ∀ {i : Investigation}, i.investigationId = me.investigationId →
      Aside me db (db.withInvestigation i) := by
    intro i hi
    refine ⟨fun _ _ _ hr => hr, fun id hid => ?_, fun _ _ => rfl⟩
    rw [Database.withInvestigation_investigations, Table.get_put_of_ne _ (by rw [hi]; exact hid)]
  cases h with
  | aside store _ _ _ others =>
    refine ⟨fun id r _ hr => ?_, fun id _ => ?_, others⟩
    · rw [store, hr]
    · rw [store]
  | rewriteRun found same => exact hrun ((congrArg RunIdentity.agentRunId same).trans (hkey found))
  | moveRun _ _ _ found =>
    have hid := hkey found
    exact hrun hid
  | rewriteInvestigation _ same => exact hinv same
  | moveInvestigation _ _ _ found =>
    have hid := hinvKey found
    exact hinv hid
  | cancelInvestigation _ _ found =>
    have hid := hinvKey found
    exact hinv hid
  | createChild _ _ _ _ _ fresh =>
    refine ⟨fun id r _ hr => ?_, fun _ _ => rfl, fun _ _ => rfl⟩
    rw [Table.get_put_of_ne _ (by rintro rfl; rw [fresh] at hr; cases hr), hr]
  | createCall => exact ⟨fun _ _ _ hr => hr, fun _ _ => rfl, fun _ _ => rfl⟩
  | moveCall => exact ⟨fun _ _ _ hr => hr, fun _ _ => rfl, fun _ _ => rfl⟩

lemma aside_of_touches (h : Relation.ReflTransGen (Touch k me ids) db db') : Aside me db db' := by
  induction h with
  | refl => exact ⟨fun _ _ _ hr => hr, fun _ _ => rfl, fun _ _ => rfl⟩
  | tail _ hstep ih =>
    have h := hstep.leaves
    refine ⟨fun id r hid hr => h.runs id r hid (ih.runs id r hid hr), ?_, ?_⟩
    · intro id hid
      rw [h.investigations id hid, ih.investigations id hid]
    · intro id hid
      rw [h.transcripts id hid, ih.transcripts id hid]

end

/-! ### Rules for the operations -/

def holding (k : Extent) (me : RunIdentity) (ids : List String) : Invariant (Touch k me ids) where
  holds := Holds me ids
  kept _ _ hold h := h.holds hold

/-- Beside it, a loop that works on belongs to an open run or an open investigation. -/
def working (me : RunIdentity) (ids : List String) : Invariant (Touch .working me ids) where
  holds db := Holds me ids db ∧ (db.RunOpen me.agentRunId ∨ db.InvestigationOpen me.investigationId)
  kept _ _ hold h := ⟨h.holds hold.1, hold.2.imp (h.runOpen hold.1.run) h.investigationOpen⟩

section Rules
variable {k : Extent} {me : RunIdentity} {ids : List String} {α β : Type}

lemma walks_getAgentRun : Walks (holding k me ids) (onStore (getAgentRun me.agentRunId))
    fun r => r.identity = me := by
  intro db hold
  obtain ⟨r, hr, hme⟩ := hold.run
  simp only [wp_getAgentRun, hr]
  refine ⟨.refl, ?_⟩
  rintro a ⟨⟩
  exact hme

lemma walks_getInvestigation {id : String} : Walks (holding k me ids) (onStore (getInvestigation id))
    fun i => i.investigationId = id := by
  intro db _
  rw [wp_getInvestigation]
  cases hi : db.investigations.get id with
  | none => exact ⟨.refl, of_raised⟩
  | some i =>
    refine ⟨.refl, ?_⟩
    rintro a ⟨⟩
    exact db.investigations.keyed _ _ hi

lemma walks_updateAgentRun {r : AgentRun} (hr : r.identity = me) :
    Walks (holding k me ids) (onStore (updateAgentRun r)) fun _ => True := by
  intro db hold
  have hid : r.agentRunId = me.agentRunId := congrArg RunIdentity.agentRunId hr
  obtain ⟨stored, hstored, hme⟩ := hold.run
  rw [wp_updateAgentRun]
  simp only [hid, hstored]
  split_ifs with hstatus
  · exact ⟨.single (.rewriteRun hstored (hr.trans hme.symm) hstatus.symm), fun _ _ => trivial⟩
  · exact ⟨.refl, fun _ h => h.elim⟩

variable {i : Investigation} {V : α → Prop} {T : Database → Database → Prop} {I : Invariant T}

lemma walks_updateInvestigation (hi : i.investigationId = me.investigationId) :
    Walks (holding k me ids) (onStore (updateInvestigation i)) fun _ => True := by
  intro db _
  rw [wp_updateInvestigation]
  rw [hi]
  cases hstored : db.investigations.get me.investigationId with
  | none => exact ⟨.refl, of_raised⟩
  | some stored =>
    dsimp only
    split_ifs with hstatus
    · exact ⟨.single (.rewriteInvestigation hstored hi hstatus.symm), fun _ _ => trivial⟩
    · exact ⟨.refl, fun _ h => h.elim⟩

lemma walks_transitionRun (hk : k ≠ .quiet) {run : AgentRun} (hrun : run.identity = me)
    {target : AgentRunStatus} (now : Time) (stopReason : Option StopReason)
    (hends : agentRunStateMachine.isTerminal target = true → k = .ending) :
    Walks (holding k me ids) (transitionRun run target now stopReason) fun r => r.identity = me := by
  intro db hold
  have hid : run.agentRunId = me.agentRunId := congrArg RunIdentity.agentRunId hrun
  obtain ⟨stored, hstored, hme⟩ := hold.run
  rw [wp_transitionRun]
  simp only [hid, hstored]
  split_ifs with hlegal
  · refine ⟨.single (.moveRun target now stopReason hstored hlegal hk hends), ?_⟩
    rintro a ⟨⟩
    exact hme
  · exact ⟨.refl, fun _ h => h.elim⟩

lemma walks_transitionInvestigation (hk : k ≠ .quiet)
    (hi : i.investigationId = me.investigationId) {target : InvestigationStatus} (now : Time)
    (stopReason : Option StopReason)
    (hopen : investigationStateMachine.isTerminal target = false) (hrequested : target ≠ .cancelRequested) :
    Walks (holding k me ids) (transitionInvestigation i target now stopReason) fun _ => True := by
  intro db _
  rw [wp_transitionInvestigation]
  rw [hi]
  cases hstored : db.investigations.get me.investigationId with
  | none => exact ⟨.refl, of_raised⟩
  | some stored =>
    dsimp only
    split_ifs with hlegal
    · refine ⟨.single (.moveInvestigation target now stopReason hstored hlegal hk hrequested ?_), fun _ _ => trivial⟩
      intro h
      cases h.symm.trans hopen
    · exact ⟨.refl, fun _ h => h.elim⟩

lemma walks_endInvestigation (hi : i.investigationId = me.investigationId)
    {target : InvestigationStatus} (now : Time) (stopReason : Option StopReason)
    (hrequested : target ≠ .cancelRequested) {db : Database} (hended : db.RunEnded me.agentRunId) :
    wp (transitionInvestigation i target now stopReason)
      (fun _ db' => Relation.ReflTransGen (Touch .ending me ids) db db') db := by
  rw [wp_transitionInvestigation]
  rw [hi]
  cases hstored : db.investigations.get me.investigationId with
  | none => exact .refl
  | some stored =>
    dsimp only
    split_ifs with hlegal
    · exact .single (.moveInvestigation target now stopReason hstored hlegal (by decide) hrequested
        fun _ => ⟨rfl, hended⟩)
    · exact .refl

lemma walks_pauseRun (hk : k ≠ .quiet) {run : AgentRun} (hrun : run.identity = me) {investigation : Investigation}
    (hinv : investigation.investigationId = me.investigationId) {runStatus : AgentRunStatus}
    (hopen : agentRunStateMachine.isTerminal runStatus = false) (stopReason : StopReason) (now : Time) :
    Walks (holding k me ids) (pauseRun run investigation runStatus stopReason now) fun _ => True := by
  have hpause : investigationStateMachine.isTerminal (investigationPause runStatus) = false ∧
      investigationPause runStatus ≠ .cancelRequested := by
    cases runStatus <;> decide
  have hsteps : Walks (holding k me ids) (do
      let _ ← transitionRun run runStatus now (some stopReason)
      if run.kind = .parent then
        transitionInvestigation investigation (investigationPause runStatus) now (some stopReason)
      else pure ⟨⟩) fun _ => True := by
    refine (walks_transitionRun hk hrun now _ (by simp [hopen])).bind fun _ _ => ?_
    exact Walks.ite (fun _ => walks_transitionInvestigation hk hinv now _ hpause.1 hpause.2)
      fun _ => Walks.pure trivial
  intro db hold
  have h := hsteps db hold
  rw [wp_bind] at h
  rw [wp_pauseRun]
  refine wp_mono h ?_
  intro r t ht
  cases r with
  | ok => exact ht
  | error => exact ⟨ht.1, of_raised⟩

lemma walks_reloadPair : Walks (holding k me ids) (reloadPair me.agentRunId)
    fun pair => pair.1.identity = me ∧ pair.2.investigationId = me.investigationId := by
  refine walks_getAgentRun.bind fun run hrun => ?_
  refine walks_getInvestigation.bind fun i hi => ?_
  refine Walks.pure ⟨hrun, ?_⟩
  rw [hi]
  exact congrArg RunIdentity.investigationId hrun

lemma walks_appendMessage (message : Message) :
    Walks (holding k me ids) (appendMessage me.agentRunId message) fun _ => True := by
  refine Walks.modify fun db _ => .aside rfl rfl rfl (List.Subset.refl _) ?_ ?_
  · intro id hid
    exact Function.update_of_ne hid _ _
  · dsimp only
    rw [Function.update_self]
    exact List.prefix_append _ _

lemma walks_transaction {m : DatabaseM α} (hm : Walks (holding k me ids) m V) :
    Walks (holding k me ids) (transaction m) V := by
  intro db hold
  rw [wp_transaction]
  refine wp_mono (hm db hold) ?_
  intro r t ht
  cases r with
  | ok a => exact ht
  | error e => exact ⟨.refl, of_raised⟩

lemma walks_onStore_bind {m : StoreM α} {f : α → StoreM β} {W : β → Prop} (hm : Walks I (onStore m) V)
    (hf : ∀ a, V a → Walks I (onStore (f a)) W) : Walks I (onStore (m >>= f)) W := by
  intro db hold
  rw [wp_onStore_bind]
  exact hm.bind hf db hold

lemma walks_onStore_pure {a : α} (h : V a) : Walks I (onStore (pure a)) V := Walks.pure (I := I) h

lemma walks_onStore_throw (e : StoreError) : Walks I (onStore (throw e) : DatabaseM α) V := Walks.throw (I := I) _

end Rules
end IncidentLens.Investigations
