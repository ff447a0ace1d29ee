import IncidentLens.Investigations.Agreement
import IncidentLens.Investigations.Resume

/-!
# Loops keep to themselves

Loops take turns at their awaits. Whatever the order, a loop writes the row of its own run and of its own
investigation and appends to its own transcript; beside that it moves calls of tools on, and creates calls and
runs of children.
-/
namespace IncidentLens.Investigations
open Effects StateError Relation

/-- Stretches of loops one after the other, each with what its loop relies on when it is resumed. -/
inductive Turns (h : Harness) : Database → List RunIdentity → Database → Prop
  | done (db : Database) : Turns h db [] db
  | turn {me : RunIdentity} {mes : List RunIdentity} {db db' : Database} {loop : Loop} {answer : Answer} {now : Time}
      {step : DatabaseM Stride} (resumes : stride h loop answer now = some step) (relies : Resumable me db loop answer)
      (rest : Turns h (step.exec db).2 mes db') : Turns h db (me :: mes) db'

/-- What loops make of the database: rows advance, transcripts grow, and what belongs to none of them stays. -/
structure Isolated (mes : List RunIdentity) (db db' : Database) : Prop where
  forward : Forward (fun _ => False) db db'
  runs : ∀ id r, (∀ me ∈ mes, id ≠ me.agentRunId) → db.runs.get id = some r → db'.runs.get id = some r
  investigations : ∀ id, (∀ me ∈ mes, id ≠ me.investigationId) → db'.investigations.get id = db.investigations.get id
  transcripts : ∀ id, (∀ me ∈ mes, id ≠ me.agentRunId) → db'.transcripts id = db.transcripts id
  identities : ∀ id r, db.runs.get id = some r → ∃ r', db'.runs.get id = some r' ∧ r'.identity = r.identity
  created : ∀ id r, db.runs.get id = none → db'.runs.get id = some r →
    ∃ me ∈ mes, r.kind = .child ∧ r.parentRunId = some me.agentRunId ∧ r.investigationId = me.investigationId

section
variable {k : Extent} {me : RunIdentity} {mes mes' all : List RunIdentity} {ids : List String} {db u db' : Database}

lemma Isolated.refl (mes : List RunIdentity) (db : Database) : Isolated mes db db where
  forward := .refl db
  runs _ _ _ hr := hr
  investigations _ _ := rfl
  transcripts _ _ := rfl
  identities _ r hr := ⟨r, hr, rfl⟩
  created _ _ hnone hr := absurd hr (by simp [hnone])

theorem Isolated.trans (h : Isolated mes db u) (h' : Isolated mes' u db') (hsub : mes ⊆ all) (hsub' : mes' ⊆ all) :
    Isolated all db db' where
  forward := h.forward.trans h'.forward
  runs id r hid hr := h'.runs id r (fun me hme => hid me (hsub' hme)) (h.runs id r (fun me hme => hid me (hsub hme)) hr)
  investigations id hid := (h'.investigations id fun me hme => hid me (hsub' hme)).trans
    (h.investigations id fun me hme => hid me (hsub hme))
  transcripts id hid := (h'.transcripts id fun me hme => hid me (hsub' hme)).trans
    (h.transcripts id fun me hme => hid me (hsub hme))
  identities id r hr := by
    obtain ⟨r', hr', hsame⟩ := h.identities id r hr
    obtain ⟨r'', hr'', hsame'⟩ := h'.identities id r' hr'
    exact ⟨r'', hr'', hsame'.trans hsame⟩
  created id r hnone hr := by
    cases hu : u.runs.get id with
    | none =>
      obtain ⟨me, hme, hchild⟩ := h'.created id r hu hr
      exact ⟨me, hsub' hme, hchild⟩
    | some child =>
      -- the row was created before, and a row keeps its identity
      obtain ⟨me, hme, hkind, hparent, hinvestigation⟩ := h.created id child hnone hu
      obtain ⟨r', hr', hsame⟩ := h'.identities id child hu
      obtain rfl := Option.some.inj (hr.symm.trans hr')
      simp only [AgentRun.identity, RunIdentity.mk.injEq] at hsame
      obtain ⟨-, hi, hp, hk⟩ := hsame
      exact ⟨me, hsub hme, hk.trans hkind, hp.trans hparent, hi.trans hinvestigation⟩

lemma Touch.forward (h : Touch k me ids db db') : Forward (fun _ => False) db db' := by
  have hkeyed : ∀ {i : Investigation}, db.investigations.get me.investigationId = some i →
      db.investigations.get i.investigationId = some i := fun hi => by rw [db.investigations.keyed _ _ hi, hi]
  have hrun : ∀ {r r' : AgentRun}, db.runs.get me.agentRunId = some r → r'.agentRunId = r.agentRunId →
      (r.status.over = true → r'.status.over = true) → Forward (fun _ => False) db (db.withRun r') := by
    intro r r' hr hsame hover
    refine ⟨advances_putRun ?_ hover, fun _ => List.prefix_refl _⟩
    rw [hsame, db.runs.keyed _ _ hr, hr]
  cases h with
  | aside store _ _ _ others own =>
    refine ⟨by rw [store]; exact .refl _, fun id => ?_⟩
    by_cases hid : id = me.agentRunId
    · rw [hid]
      exact own
    · rw [others id hid]
  | rewriteRun found same status => exact hrun found (congrArg RunIdentity.agentRunId same) fun h => by rw [status, h]
  | moveRun target now stopReason found legal => exact hrun found rfl (AgentRunStatus.over_of_canTransition legal)
  | rewriteInvestigation found same status =>
    refine ⟨advances_putInvestigation ?_ fun h => by rw [status, h], fun _ => List.prefix_refl _⟩
    rw [same, found]
  | moveInvestigation target now stopReason found legal =>
    have hi := hkeyed found
    exact ⟨advances_putInvestigation hi (InvestigationStatus.over_of_canTransition legal), fun _ => List.prefix_refl _⟩
  | cancelInvestigation now stopReason found =>
    have hi := hkeyed found
    exact ⟨advances_putInvestigation hi fun _ => rfl, fun _ => List.prefix_refl _⟩
  | createChild _ _ _ _ _ fresh => exact ⟨advances_newRun fresh, fun _ => List.prefix_refl _⟩
  | createCall _ _ _ _ fresh => exact ⟨advances_newCall fresh, fun _ => List.prefix_refl _⟩
  | moveCall found id _ _ legal =>
    refine ⟨advances_putCall ?_ (leads_of_canTransition legal False.elim), fun _ => List.prefix_refl _⟩
    rw [id, found]

lemma Touch.created {r : AgentRun} (hrun : ∃ r, db.runs.get me.agentRunId = some r ∧ r.identity = me)
    (h : Touch k me ids db db') {id : String} (hnone : db.runs.get id = none) (hr : db'.runs.get id = some r) :
    r.kind = .child ∧ r.parentRunId = some me.agentRunId ∧ r.investigationId = me.investigationId := by
  have hown : ∀ {r' : AgentRun}, r'.agentRunId = me.agentRunId → (db.runs.put r').get id ≠ some r := by
    intro r' hid hput
    rcases get_put_cases hput with ⟨rfl, -⟩ | ⟨-, hold⟩
    · obtain ⟨own, hstored, -⟩ := hrun
      rw [hid, hstored] at hnone
      cases hnone
    · rw [hnone] at hold
      cases hold
  have hkeyed : ∀ {r : AgentRun}, db.runs.get me.agentRunId = some r → r.agentRunId = me.agentRunId :=
    fun hr => db.runs.keyed _ _ hr
  cases h with
  | rewriteRun found same => exact absurd hr (hown ((congrArg RunIdentity.agentRunId same).trans (hkeyed found)))
  | moveRun target now stopReason found =>
    have hid := hkeyed found
    exact absurd hr (hown hid)
  | createChild works parent investigation kind =>
    rcases get_put_cases hr with ⟨-, rfl⟩ | ⟨-, hold⟩
    · exact ⟨kind, parent, investigation⟩
    · rw [hnone] at hold
      cases hold
  | aside store =>
    rw [store, hnone] at hr
    cases hr
  | _ =>
    have hold : db.runs.get id = some r := hr
    rw [hnone] at hold
    cases hold

lemma Touch.isolated (hrun : ∃ r, db.runs.get me.agentRunId = some r ∧ r.identity = me) (h : Touch k me ids db db') :
    Isolated [me] db db' where
  forward := h.forward
  runs id r hid := h.leaves.runs id r (hid me List.mem_cons_self)
  investigations id hid := h.leaves.investigations id (hid me List.mem_cons_self)
  transcripts id hid := h.leaves.transcripts id (hid me List.mem_cons_self)
  identities id r hr := by
    by_cases hid : id = me.agentRunId
    · obtain ⟨own, hstored, hme⟩ := hrun
      rw [hid] at hr ⊢
      obtain rfl := Option.some.inj (hr.symm.trans hstored)
      obtain ⟨r', hr', hme', -⟩ := h.own hr hme
      exact ⟨r', hr', hme'.trans hme.symm⟩
    · exact ⟨r, h.leaves.runs id r hid hr, rfl⟩
  created id r hnone hr := ⟨me, List.mem_cons_self, h.created hrun hnone hr⟩

lemma stride_isolated {h : Harness} {loop : Loop} {answer : Answer} {now : Time} {step : DatabaseM Stride}
    (hstep : stride h loop answer now = some step) (hres : Resumable me db loop answer) :
    Isolated [me] db (step.exec db).2 := by
  obtain ⟨htouches, -⟩ := stride_touches hstep hres
  generalize (step.exec db).2 = db' at htouches ⊢
  suffices hkept : Isolated [me] db db' ∧ ∃ r, db'.runs.get me.agentRunId = some r ∧ r.identity = me from hkept.1
  induction htouches with
  | refl => exact ⟨.refl _ _, hres.holds.run⟩
  | tail _ htouch ih => exact ⟨ih.1.trans (htouch.isolated ih.2) (fun _ => id) fun _ => id, htouch.run ih.2⟩

/-- Over any number of stretches of any loops, in any order. -/
theorem turns_isolated {h : Harness} (hturns : Turns h db mes db') : Isolated mes db db' := by
  induction hturns with
  | done db => exact .refl [] db
  | turn resumes relies rest ih => exact (stride_isolated resumes relies).trans ih (by simp) (by simp)

end

/-- The loops of a parent run and of its child, both paused, are resumed one after the other. -/
theorem paused_turns_isolated : ∃ step step' : DatabaseM Stride,
    stride {} ⟨"run-1", .yielding, []⟩ (.yielded [] false) 1 = some step ∧
      stride {} ⟨"child-1", .yielding, []⟩ (.yielded [] false) 2 = some step' ∧
      Isolated [pausedParent.identity, pausedChild.identity] pausedDatabase (step'.exec (step.exec pausedDatabase).2).2 := by
  have hparent : Resumable pausedParent.identity pausedDatabase ⟨"run-1", .yielding, []⟩ (.yielded [] false) :=
    ⟨⟨⟨pausedParent, rfl, rfl⟩, nofun⟩, rfl, trivial, nofun, trivial⟩
  have hfirst := @stride_isolated _ _ {} _ _ 1 _ rfl hparent
  have hchild : Resumable pausedChild.identity _ ⟨"child-1", .yielding, []⟩ (.yielded [] false) :=
    ⟨⟨⟨pausedChild, hfirst.runs _ _ (by decide) rfl, rfl⟩, nofun⟩, rfl, trivial, nofun, trivial⟩
  exact ⟨_, _, rfl, rfl, turns_isolated (.turn rfl hparent (.turn rfl hchild (.done _)))⟩

end IncidentLens.Investigations
