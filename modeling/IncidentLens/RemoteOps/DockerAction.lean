import IncidentLens.Effects.StateError
import IncidentLens.Events.Store
import IncidentLens.RemoteOps.Actions

/-!
# Docker actions

A call with an approval consumes it, reports the start of the action, connects, runs the command and
reports its outcome. Every one of these awaits may raise; only the command is run under a guard.
-/
namespace IncidentLens.RemoteOps.Docker
open Data Effects Approvals Events StateError RemoteAction List

inductive Exc
  | approval (error : ApprovalError) (approvalId : String)
  | dockerActionError (text : String)
  | other (text : String)
  /-- `asyncio.CancelledError` is no `Exception`. -/
  | cancelled

/-- What `except Exception` takes hold of, as `str(exc)`. -/
def Exc.text? : Exc → Option String
  | approval error approvalId => some (error.text approvalId)
  | dockerActionError text => some text
  | other text => some text
  | cancelled => none

structure CommandResult where
  exitStatus : ℤ
  stderr : Bytes

/-- The awaits of a call, but for the command. -/
inductive Await
  | append (eventType : RuntimeEventType)
  | publish (eventType : RuntimeEventType)
  | connect
  deriving DecidableEq

/-- What the awaits of a call raise, and how its command ends. -/
structure Outcomes where
  raises : Await → Option Exc := fun _ => none
  command : Except Exc CommandResult

lemma noEvents_increasing : ([] : List EventRow).Pairwise fun a b => a.sequence < b.sequence := List.Pairwise.nil

lemma noEvents_bounded : ∀ row ∈ ([] : List EventRow), row.sequence ≤ 0 := forall_mem_nil _

def noEvents : EventTable := ⟨[], 0, noEvents_increasing, noEvents_bounded⟩

structure World where
  approvals : Rows := default
  events : EventTable := noEvents
  /-- The commands that were given to a transport. -/
  attempts : List (TargetRegistration × List String) := []

/-- `approvals` and `recording` say what the gateway was built with: an approval service, and an event
store with a broker. -/
structure Gateway where
  env : Surroundings
  sha256 : Bytes → String
  approvals : Bool := true
  recording : Bool := true

/-- The time and the identifiers that a call draws. -/
structure Draws where
  now : DateTime
  eventId : RuntimeEventType → String
  approvalId : String

def Draws.event (draws : Draws) (eventType : RuntimeEventType) (payload : Dict String Json) : RuntimeEvent :=
  ⟨draws.eventId eventType, 0, eventType, String.ofList draws.now.isoformat, payload⟩

structure DockerActionResult where
  action : DockerActionKind
  approved : Bool
  approvalId : Option String
  exitStatus : Option ℤ := none
  reason : String

abbrev M := StateError Exc World

section
variable (g : Gateway) (o : Outcomes) (draws : Draws)

def await (a : Await) : M Unit :=
  match o.raises a with
  | some e => throw e
  | none => pure ()

/-- An event is stored before it is published. -/
def emit (eventType : RuntimeEventType) (payload : Dict String Json) : M Unit := do
  await o (.append eventType)
  modify fun w => { w with events := w.events.insert (draws.event eventType payload) }
  await o (.publish eventType)

def jsonOf : Option String → Json
  | some s => .string s
  | none => .null

def dockerPayload (request : DockerActionRequest) (status : String) (approvalId error : Option String) :
    Dict String Json :=
  [("target_id", .string request.targetId), ("service", .string request.service),
    ("action", .string request.action.value), ("container", jsonOf request.container), ("status", .string status)] ++
    (approvalId.map fun id => ("approval_id", Json.string id)).toList ++
    (error.map fun text => ("error", Json.string (String.ofList (text.toList.take 500)))).toList

/-- `_emit_docker_event` -/
def emitDockerEvent (eventType : RuntimeEventType) (request : DockerActionRequest) (status : String)
    (approvalId error : Option String := none) : M Unit :=
  if g.recording then emit o draws eventType (dockerPayload request status approvalId error) else pure ()

def approvalPayload (request : DockerActionRequest) (approvalId : String) (status : ApprovalStatus) :
    Dict String Json :=
  [("approval_id", .string approvalId), ("kind", .string "docker_action"),
    ("target_id", .string request.targetId), ("status", .string status.value)]

/-- `ApprovalService.consume` -/
def consume (request : DockerActionRequest) (approvalId : String) : M Unit := do
  let w ← get
  let c : Consumption := ⟨approvalId, (docker request).intent, draws.now⟩
  match (c.read g.sha256 w.approvals).bind fun _ => c.update w.approvals with
  | .error e => throw (.approval e approvalId)
  | .ok rows =>
    modify fun w => { w with approvals := rows }
    emit o draws .approvalConsumed (approvalPayload request approvalId .consumed)

def resolve (request : DockerActionRequest) : Except Exc (ComposeTarget × List String) :=
  match g.env.resolveTarget request.projectId request.targetId with
  | none => .error (.other ("target '" ++ request.targetId ++ "' is not registered for project '" ++ request.projectId ++ "'"))
  | some target => match g.env.resolveService request.projectId request.targetId request.service with
    | none => .error (.other ("service '" ++ request.service ++ "' not found in project '" ++ request.projectId ++ "'"))
    | some svc => match dockerArgv request svc target with
      | some argv => .ok (target, argv)
      | none => .error (.dockerActionError (match request.container with
        | some container => "container '" ++ container ++ "' is not registered for service '" ++ request.service ++ "'"
        | none => "target '" ++ request.targetId ++ "' has no compose_working_directory"))

def requestApproval (request : DockerActionRequest) : M DockerActionResult := do
  let w ← get
  match create g.sha256 w.approvals
      { approvalId := draws.approvalId, intent := (docker request).intent, now := draws.now } with
  | .error e => throw (.approval e draws.approvalId)
  | .ok rows =>
    modify fun w => { w with approvals := rows }
    emit o draws .approvalRequested (approvalPayload request draws.approvalId .pending)
    emitDockerEvent g o draws .dockerActionRequested request "pending" (some draws.approvalId)
    return ⟨request.action, false, some draws.approvalId, none, "Approval required"⟩

def settle (request : DockerActionRequest) (approvalId : String) : M DockerActionResult :=
  match o.command with
  | .error e => match e.text? with
    | none => throw e
    | some text => do
      emitDockerEvent g o draws .dockerActionFailed request "failed" none (some text)
      throw (.dockerActionError text)
  | .ok result =>
    if result.exitStatus ≠ 0 then do
      let detail := Logs.decodeReplace result.stderr
      emitDockerEvent g o draws .dockerActionFailed request "failed" none (some detail)
      throw (.dockerActionError ("docker action " ++ request.action.value ++ " failed: " ++ detail))
    else do
      emitDockerEvent g o draws .dockerActionCompleted request "completed"
      return ⟨request.action, true, some approvalId, some result.exitStatus, "completed"⟩

/-- The approved action, from the report of its start. -/
def perform (request : DockerActionRequest) (approvalId : String) (target : ComposeTarget) (argv : List String) :
    M DockerActionResult := do
  emitDockerEvent g o draws .dockerActionStarted request "running"
  await o .connect
  modify fun w => { w with attempts := w.attempts ++ [(g.env.connect target.toTargetRegistration, argv)] }
  settle g o draws request approvalId

/-- `docker_action` -/
def dockerAction (request : DockerActionRequest) (approvalId : Option String) : M DockerActionResult := do
  match resolve g request with
  | .error e => throw e
  | .ok (target, argv) =>
    if g.approvals = false then throw (.dockerActionError "approval service is not configured")
    else match approvalId with
      | none => requestApproval g o draws request
      | some approvalId =>
        let refused ← tryCatch (do consume g o draws request approvalId; return none) fun e => match e with
          | .approval error id => return some (error.text id)
          | e => throw e
        match refused with
        | some reason => return ⟨request.action, false, some approvalId, none, reason⟩
        | none => perform g o draws request approvalId target argv

end

/-! ### What is to be reported -/

/-- The keys that say which action an event is about. -/
def sameAction (a b : EventRow) : Bool :=
  ["target_id", "service", "action", "container"].all fun key => payloadString a.payload key = payloadString b.payload key

def isOutcome (row : EventRow) : Bool := row.eventType = .dockerActionCompleted || row.eventType = .dockerActionFailed

/-- Every start is followed by one outcome of its action. -/
def Followed : List EventRow → Prop
  | [] => True
  | row :: after => (row.eventType = .dockerActionStarted →
      (after.filter fun r => isOutcome r && sameAction row r).length = 1) ∧ Followed after

structure Accounted (o : Outcomes) (approvalId : String) (w w' : World) : Prop where
  followed : Followed (w'.events.rows.drop w.events.rows.length)
  completed : ∀ row ∈ w'.events.rows.drop w.events.rows.length, row.eventType = .dockerActionCompleted →
    w.attempts.length < w'.attempts.length ∧ ∃ result, o.command = .ok result ∧ result.exitStatus = 0
  consumed : ∀ row row', w.approvals.get approvalId = some row → row.status ≠ .consumed →
    w'.approvals.get approvalId = some row' → row'.status = .consumed → w.attempts.length < w'.attempts.length

/-- The approval is there for this action, approved and not yet consumed or expired. -/
def Consumable (g : Gateway) (draws : Draws) (request : DockerActionRequest) (approvalId : String) (w : World) : Prop :=
  let c : Consumption := ⟨approvalId, (docker request).intent, draws.now⟩
  ∃ rows, ((c.read g.sha256 w.approvals).bind fun _ => c.update w.approvals) = .ok rows

/-- The call gets as far as consuming the approval. -/
def Consumes (g : Gateway) (draws : Draws) (request : DockerActionRequest) (approvalId : String) (w : World) : Prop :=
  (∃ plan, resolve g request = .ok plan) ∧ g.approvals = true ∧ Consumable g draws request approvalId w

/-- The event that reports how the command ended. -/
def Outcomes.reported (o : Outcomes) : Option RuntimeEventType :=
  match o.command with
  | .error e => e.text?.map fun _ => .dockerActionFailed
  | .ok result => some (if result.exitStatus ≠ 0 then .dockerActionFailed else .dockerActionCompleted)

/-- Nothing fails between the consumption and the command, and the outcome can be stored. -/
def Smooth (g : Gateway) (o : Outcomes) : Prop :=
  o.raises (.append .approvalConsumed) = none ∧ o.raises (.publish .approvalConsumed) = none ∧
  o.raises .connect = none ∧ (g.recording = true →
    o.raises (.append .dockerActionStarted) = none ∧ o.raises (.publish .dockerActionStarted) = none ∧
    ∃ eventType, o.reported = some eventType ∧ o.raises (.append eventType) = none)

section Steps
variable {g : Gateway} {o : Outcomes} {draws : Draws} {request : DockerActionRequest} {approvalId : String}
  {w w' : World} {α : Type}

variable {Q : Except Exc Unit → World → Prop} {eventType : RuntimeEventType}

lemma wp_await {a : Await} (hraise : ∀ e, o.raises a = some e → Q (.error e) w)
    (hreturn : o.raises a = none → Q (.ok ()) w) : wp (await o a) Q w := by
  unfold await
  cases h : o.raises a with
  | none => exact hreturn h
  | some e => exact hraise e h

def World.record (w : World) (event : RuntimeEvent) : World := { w with events := w.events.insert event }

lemma wp_emit {payload : Dict String Json} (hlost : ∀ e, o.raises (.append eventType) = some e → Q (.error e) w)
    (hstored : ∀ e, o.raises (.append eventType) = none → o.raises (.publish eventType) = some e →
      Q (.error e) (w.record (draws.event eventType payload)))
    (hreturn : o.raises (.append eventType) = none → o.raises (.publish eventType) = none →
      Q (.ok ()) (w.record (draws.event eventType payload))) : wp (emit o draws eventType payload) Q w := by
  unfold emit
  rw [wp_bind]
  refine wp_await hlost fun happend => ?_
  simp only [wp_bind, wp_modify]
  exact wp_await (fun e => hstored e happend) (hreturn happend)

lemma rows_record (event : RuntimeEvent) :
    (w.record event).events.rows = w.events.rows ++ [rowOf event (w.events.assigned + 1)] := rfl

lemma sameAction_rowOf (t t' : RuntimeEventType) (status status' : String) (id id' error error' : Option String)
    (n n' : ℕ) :
    sameAction (rowOf (draws.event t (dockerPayload request status id error)) n)
      (rowOf (draws.event t' (dockerPayload request status' id' error')) n') = true := by
  simp [sameAction, rowOf, Draws.event, dockerPayload, payloadString, Dict.get?]

/-- The world once the approval has been consumed, and this has been recorded. -/
structure Consumed (approvalId : String) (w w₁ : World) : Prop where
  before : ∃ row, w.approvals.get approvalId = some row ∧ row.status ≠ .consumed
  after : ∃ row, w₁.approvals.get approvalId = some row ∧ row.status = .consumed
  attempts : w₁.attempts = w.attempts

lemma Consumed.record (event : RuntimeEvent) {w₁ : World} (h : Consumed approvalId w w₁) :
    Consumed approvalId w (w₁.record event) := ⟨h.before, h.after, h.attempts⟩

lemma Consumed.not_accounted (h : Consumed approvalId w w') : ¬ Accounted o approvalId w w' := by
  intro haccounted
  obtain ⟨row, hrow, hstatus⟩ := h.before
  obtain ⟨row', hrow', hstatus'⟩ := h.after
  have hlt := haccounted.consumed row row' hrow hstatus hrow' hstatus'
  rw [h.attempts] at hlt
  exact lt_irrefl _ hlt

lemma not_followed_pair {a b : EventRow} (hb : b.eventType = .dockerActionStarted) : ¬ Followed [a, b] := by
  simp [Followed, hb]

lemma followed_triple {a b c : EventRow} (ha : a.eventType ≠ .dockerActionStarted)
    (hc : c.eventType ≠ .dockerActionStarted) (houtcome : isOutcome c = true) (hsame : sameAction b c = true) :
    Followed [a, b, c] := by
  simp [Followed, ha, hc, houtcome, hsame]

/-- The start has been reported and the command given to a transport. -/
structure Tried (draws : Draws) (request : DockerActionRequest) (w w₂ : World) : Prop where
  rows : ∃ c status id error n, c.eventType = .approvalConsumed ∧ w₂.events.rows = w.events.rows ++
    [c, rowOf (draws.event .dockerActionStarted (dockerPayload request status id error)) n]
  attempts : w.attempts.length < w₂.attempts.length

lemma Tried.not_accounted (h : Tried draws request w w') : ¬ Accounted o approvalId w w' := by
  intro haccounted
  obtain ⟨c, status, id, error, n, -, hrows⟩ := h.rows
  have hfollowed := haccounted.followed
  rw [hrows, drop_left] at hfollowed
  exact not_followed_pair rfl hfollowed

lemma Tried.report {status : String} {id error : Option String}
    (houtcome : eventType = .dockerActionFailed ∨ eventType = .dockerActionCompleted ∧
      ∃ result, o.command = .ok result ∧ result.exitStatus = 0) (h : Tried draws request w w') :
    Accounted o approvalId w (w'.record (draws.event eventType (dockerPayload request status id error))) := by
  obtain ⟨c, status', id', error', n, hc, hrows⟩ := h.rows
  have hnew : (w'.record (draws.event eventType (dockerPayload request status id error))).events.rows.drop
      w.events.rows.length = [c, rowOf (draws.event .dockerActionStarted (dockerPayload request status' id' error')) n,
        rowOf (draws.event eventType (dockerPayload request status id error)) (w'.events.assigned + 1)] := by
    rw [rows_record, hrows, append_assoc, drop_left]
    rfl
  refine ⟨?_, ?_, fun _ _ _ _ _ _ => h.attempts⟩
  · rw [hnew]
    refine followed_triple (by rw [hc]; decide) ?_ ?_ (sameAction_rowOf _ _ _ _ _ _ _ _ _ _)
    · rcases houtcome with rfl | ⟨rfl, -⟩
      · change RuntimeEventType.dockerActionFailed ≠ _
        decide
      · change RuntimeEventType.dockerActionCompleted ≠ _
        decide
    · rcases houtcome with rfl | ⟨rfl, -⟩
      · rfl
      · rfl
  · intro row hrow hcompleted
    refine ⟨h.attempts, ?_⟩
    rw [hnew] at hrow
    simp only [mem_cons, not_mem_nil, or_false] at hrow
    rcases hrow with rfl | rfl | rfl
    · rw [hc] at hcompleted
      cases hcompleted
    · cases hcompleted
    · rcases houtcome with rfl | ⟨-, hresult⟩
      · cases hcompleted
      · exact hresult

lemma Tried.emit (approvalId : String) {status : String} {id error : Option String}
    (houtcome : eventType = .dockerActionFailed ∨ eventType = .dockerActionCompleted ∧
      ∃ result, o.command = .ok result ∧ result.exitStatus = 0) (h : Tried draws request w w')
    (hQ : ∀ r w', (Accounted o approvalId w w' ↔ o.raises (.append eventType) = none) → Q r w') :
    wp (emit o draws eventType (dockerPayload request status id error)) Q w' := by
  refine wp_emit ?_ ?_ ?_
  · intro e he
    refine hQ _ _ (iff_of_false h.not_accounted ?_)
    rw [he]
    exact Option.some_ne_none e
  · intro e happend _
    exact hQ _ _ (iff_of_true (h.report houtcome) happend)
  · intro happend _
    exact hQ _ _ (iff_of_true (h.report houtcome) happend)

lemma settle_accounted (hrecording : g.recording = true) (h : Tried draws request w w')
    (hsmooth : ∀ eventType, o.reported = some eventType → (Smooth g o ↔ o.raises (.append eventType) = none)) :
    wp (settle g o draws request approvalId) (fun _ w' => Accounted o approvalId w w' ↔ Smooth g o) w' := by
  unfold settle emitDockerEvent
  simp only [hrecording, if_true]
  cases hcommand : o.command with
  | error e =>
    cases htext : e.text? with
    | none =>
      simp only [htext, wp_throw]
      refine iff_of_false h.not_accounted ?_
      rintro ⟨-, -, -, hrest⟩
      obtain ⟨-, -, t, ht, -⟩ := hrest hrecording
      simp [Outcomes.reported, hcommand, htext] at ht
    | some text =>
      have hreported : o.reported = some .dockerActionFailed := by simp [Outcomes.reported, hcommand, htext]
      simp only [htext, wp_bind]
      refine h.emit approvalId (.inl rfl) fun r w' hiff => ?_
      cases r with
      | ok _ => exact hiff.trans (hsmooth _ hreported).symm
      | error _ => exact hiff.trans (hsmooth _ hreported).symm
  | ok result =>
    by_cases hstatus : result.exitStatus = 0
    · have hreported : o.reported = some .dockerActionCompleted := by simp [Outcomes.reported, hcommand, hstatus]
      simp only [hstatus, ne_eq, not_true_eq_false, if_false, wp_bind]
      refine h.emit approvalId (.inr ⟨rfl, result, hcommand, hstatus⟩) fun r w' hiff => ?_
      cases r with
      | ok _ => exact hiff.trans (hsmooth _ hreported).symm
      | error _ => exact hiff.trans (hsmooth _ hreported).symm
    · have hreported : o.reported = some .dockerActionFailed := by simp [Outcomes.reported, hcommand, hstatus]
      simp only [hstatus, ne_eq, not_false_eq_true, if_true, wp_bind]
      refine h.emit approvalId (.inl rfl) fun r w' hiff => ?_
      cases r with
      | ok _ => exact hiff.trans (hsmooth _ hreported).symm
      | error _ => exact hiff.trans (hsmooth _ hreported).symm

lemma settle_unrecorded (hrecording : g.recording = false) {Q : World → Prop} (hQ : Q w) :
    wp (settle g o draws request approvalId) (fun _ => Q) w := by
  unfold settle emitDockerEvent
  simp only [hrecording, Bool.false_eq_true, if_false]
  cases hcommand : o.command with
  | error e =>
    cases htext : e.text? with
    | none => simpa only [htext, wp_throw] using hQ
    | some text => simpa only [htext, wp_bind, wp_pure, wp_throw] using hQ
  | ok result =>
    by_cases hstatus : result.exitStatus = 0
    · simpa [hstatus] using hQ
    · simpa [hstatus] using hQ

lemma perform_accounted {w₁ : World} {c : EventRow} (hconsumed : Consumed approvalId w w₁)
    (hc : c.eventType = .approvalConsumed) (hrows : w₁.events.rows = w.events.rows ++ [c])
    (happend : o.raises (.append .approvalConsumed) = none) (hpublish : o.raises (.publish .approvalConsumed) = none)
    (target : ComposeTarget) (argv : List String) : wp (perform g o draws request approvalId target argv)
      (fun _ w' => Accounted o approvalId w w' ↔ Smooth g o) w₁ := by
  have hlonger : ∀ attempt, w.attempts.length < (w₁.attempts ++ [attempt]).length := by
    intro attempt
    rw [hconsumed.attempts, length_append]
    exact Nat.lt_succ_self _
  unfold perform emitDockerEvent
  by_cases hrecording : g.recording = true
  · simp only [hrecording, if_true, wp_bind]
    refine wp_emit ?_ ?_ ?_
    · intro e he
      refine iff_of_false hconsumed.not_accounted ?_
      rintro ⟨-, -, -, hrest⟩
      rw [(hrest hrecording).1] at he
      cases he
    · intro e _ he
      refine iff_of_false (hconsumed.record _).not_accounted ?_
      rintro ⟨-, -, -, hrest⟩
      rw [(hrest hrecording).2.1] at he
      cases he
    · intro hstarted hshown
      refine wp_await ?_ fun hconnect => ?_
      · intro e he
        refine iff_of_false (hconsumed.record _).not_accounted ?_
        rintro ⟨-, -, hconnect, -⟩
        rw [hconnect] at he
        cases he
      · rw [wp_modify]
        refine settle_accounted hrecording ⟨⟨c, "running", none, none, w₁.events.assigned + 1, hc, ?_⟩, hlonger _⟩ ?_
        · change (w₁.record _).events.rows = _
          rw [rows_record, hrows, append_assoc]
          rfl
        · intro eventType hreported
          constructor
          · rintro ⟨-, -, -, hrest⟩
            obtain ⟨-, -, t, ht, hstored⟩ := hrest hrecording
            rw [hreported] at ht
            cases ht
            exact hstored
          · intro hstored
            exact ⟨happend, hpublish, hconnect, fun _ => ⟨hstarted, hshown, eventType, hreported, hstored⟩⟩
  · have hsilent : g.recording = false := by simpa using hrecording
    simp only [hsilent, Bool.false_eq_true, if_false, wp_bind, wp_pure]
    refine wp_await ?_ fun hconnect => ?_
    · intro e he
      refine iff_of_false hconsumed.not_accounted ?_
      rintro ⟨-, -, hconnect, -⟩
      rw [hconnect] at he
      cases he
    · rw [wp_modify]
      refine settle_unrecorded hsilent (iff_of_true ?_ ⟨happend, hpublish, hconnect, fun h => absurd h hrecording⟩)
      have hnew : w₁.events.rows.drop w.events.rows.length = [c] := by rw [hrows, drop_left]
      refine ⟨?_, ?_, fun _ _ _ _ _ _ => hlonger _⟩
      · change Followed (w₁.events.rows.drop w.events.rows.length)
        rw [hnew]
        simp [Followed, hc]
      · intro row hrow hcompleted
        change row ∈ w₁.events.rows.drop w.events.rows.length at hrow
        rw [hnew, mem_singleton] at hrow
        rw [hrow, hc] at hcompleted
        cases hcompleted

lemma accounted_self : Accounted o approvalId w w := by
  refine ⟨?_, ?_, ?_⟩
  · rw [drop_length]
    exact trivial
  · intro row hrow
    rw [drop_length] at hrow
    cases hrow
  · intro row row' hrow hstatus hrow' hstatus'
    rw [hrow] at hrow'
    cases hrow'
    exact absurd hstatus' hstatus

lemma Consumption.of_update {c : Consumption} {rows rows' : Rows} (h : c.update rows = .ok rows') :
    ∃ row, rows.get c.approvalId = some row ∧ row.status = .approved ∧ rows'.get c.approvalId = some (c.set row) := by
  unfold Consumption.update at h
  split at h
  · rename_i rows'' hupdate
    cases h
    obtain ⟨row, hrow, hcondition, rfl⟩ := updateWhere_eq_some hupdate
    have hstatus : row.status = .approved := (of_decide_eq_true hcondition).1
    refine ⟨row, hrow, hstatus, ?_⟩
    rw [Table.get_put, if_pos]
    exact (rows.keyed _ _ hrow).symm
  · cases h

lemma wp_consume (hrefused : ∀ e, ¬ Consumable g draws request approvalId w → Q (.error (.approval e approvalId)) w)
    (hfailed : ∀ e w₁, Consumable g draws request approvalId w → Consumed approvalId w w₁ →
      (o.raises (.append .approvalConsumed) = some e ∨ o.raises (.publish .approvalConsumed) = some e) → Q (.error e) w₁)
    (hconsumed : ∀ w₁ c, Consumable g draws request approvalId w → Consumed approvalId w w₁ →
      c.eventType = .approvalConsumed → w₁.events.rows = w.events.rows ++ [c] → o.raises (.append .approvalConsumed) = none →
      o.raises (.publish .approvalConsumed) = none → Q (.ok ()) w₁) :
    wp (consume g o draws request approvalId) Q w := by
  unfold consume
  simp only [wp_bind, wp_get]
  cases hrows : (Consumption.read g.sha256 ⟨approvalId, (docker request).intent, draws.now⟩ w.approvals).bind
      fun _ => Consumption.update ⟨approvalId, (docker request).intent, draws.now⟩ w.approvals with
  | error e =>
    simp only [wp_throw]
    refine hrefused e ?_
    rintro ⟨rows, hok⟩
    rw [hrows] at hok
    cases hok
  | ok rows =>
    have hupdate :
        Consumption.update ⟨approvalId, (docker request).intent, draws.now⟩ w.approvals = .ok rows := by
      cases hread : Consumption.read g.sha256 ⟨approvalId, (docker request).intent, draws.now⟩ w.approvals with
      | error e =>
        rw [hread] at hrows
        cases hrows
      | ok _ =>
        rw [hread] at hrows
        exact hrows
    obtain ⟨row, hrow, hstatus, hrow'⟩ := Consumption.of_update hupdate
    have hnow : Consumed approvalId w { w with approvals := rows } := by
      refine ⟨⟨row, hrow, ?_⟩, ⟨_, hrow', rfl⟩, rfl⟩
      rw [hstatus]
      decide
    simp only [wp_bind, wp_modify]
    refine wp_emit ?_ ?_ ?_
    · exact fun e happend => hfailed e _ ⟨rows, hrows⟩ hnow (.inl happend)
    · exact fun e _ hpublish => hfailed e _ ⟨rows, hrows⟩ (hnow.record _) (.inr hpublish)
    · exact fun happend hpublish => hconsumed _ _ ⟨rows, hrows⟩ (hnow.record _) rfl rfl happend hpublish

end Steps

/-- A call is accounted for unless it consumes its approval and then fails at one of the unguarded awaits. -/
theorem docker_action_accounted (g : Gateway) (o : Outcomes) (draws : Draws) (request : DockerActionRequest)
    (approvalId : String) (w : World) :
    Accounted o approvalId w ((dockerAction g o draws request (some approvalId)).exec w).2 ↔
      (Consumes g draws request approvalId w → Smooth g o) := by
  have hidle : ¬ Consumes g draws request approvalId w →
      (Accounted o approvalId w w ↔ (Consumes g draws request approvalId w → Smooth g o)) := by
    intro hnot
    exact iff_of_true accounted_self fun h => absurd h hnot
  have hwp : wp (dockerAction g o draws request (some approvalId)) (fun _ w' => Accounted o approvalId w w' ↔
      (Consumes g draws request approvalId w → Smooth g o)) w := by
    unfold dockerAction
    cases hresolve : resolve g request with
    | error e =>
      simp only [wp_throw]
      refine hidle ?_
      rintro ⟨⟨plan, hplan⟩, -⟩
      rw [hresolve] at hplan
      cases hplan
    | ok plan =>
      by_cases hconfigured : g.approvals = true
      · simp only [hconfigured, Bool.true_eq_false, if_false, wp_bind, wp_tryCatch]
        refine wp_consume ?_ ?_ ?_
        · exact fun e hnot => hidle fun h => hnot h.2.2
        · intro e w₁ hconsumable hconsumed hraised
          have hunaccounted : Accounted o approvalId w w₁ ↔ (Consumes g draws request approvalId w → Smooth g o) := by
            refine iff_of_false hconsumed.not_accounted fun h => ?_
            obtain ⟨happend, hpublish, -⟩ := h ⟨⟨plan, hresolve⟩, hconfigured, hconsumable⟩
            rcases hraised with he | he
            · rw [happend] at he
              cases he
            · rw [hpublish] at he
              cases he
          -- an exception of the store or the broker is taken for a refusal if it is one of an approval
          cases e with
          | approval error id => exact hunaccounted
          | dockerActionError text => exact hunaccounted
          | other text => exact hunaccounted
          | cancelled => exact hunaccounted
        · intro w₁ c hconsumable hconsumed hc hrows happend hpublish
          have hconsumes : Consumes g draws request approvalId w := ⟨⟨plan, hresolve⟩, hconfigured, hconsumable⟩
          change wp (perform g o draws request approvalId plan.1 plan.2)
            (fun _ w' => Accounted o approvalId w w' ↔ (Consumes g draws request approvalId w → Smooth g o)) w₁
          refine wp_mono (perform_accounted hconsumed hc hrows happend hpublish plan.1 plan.2) ?_
          intro _ w' haccounted
          exact haccounted.trans ⟨fun h _ => h, fun h => h hconsumes⟩
      · simp only [hconfigured, if_true, wp_throw]
        exact hidle fun h => hconfigured h.2.1
  exact hwp

/-! ### The host of an approved action is not reached -/

def restartRequest : DockerActionRequest where
  projectId := "app"
  targetId := "prod"
  service := "web"
  action := .restart
  container := some "web-1"

def restartGateway : Gateway where
  env :=
    { projects := fun id => if id = "app" then
        some ⟨[prodTarget], [{ composeService := "web", containerNames := ["web-1"] }]⟩ else none
      sessions := fun _ => none }
  sha256 _ := "b7f86bc1700286cf20a903e10a73a859cfd91e78b39281ddcffa94f1d0826f75"

def restartDraws : Draws where
  now := newYear 5
  eventId := RuntimeEventType.value
  approvalId := "apr-2"

/-- The restart was approved at five past, and the approval is good for ten more minutes. -/
def restartApproved : World where
  approvals := (default : Rows).put
    { approvalId := "apr-1"
      intentSha256 := "b7f86bc1700286cf20a903e10a73a859cfd91e78b39281ddcffa94f1d0826f75"
      intent := (docker restartRequest).intent
      status := .approved
      createdAt := (newYear 0).isoformat
      expiresAt := (newYear 15).isoformat }

def unreachable : Outcomes where
  raises a := if a = .connect then some (.other "connection refused") else none
  command := .ok ⟨0, []⟩

/-- The approval is consumed and the start reported, and nothing else. -/
theorem unreachable_unreported :
    let w := ((dockerAction restartGateway unreachable restartDraws restartRequest (some "apr-1")).exec restartApproved).2
    (w.events.rows.map EventRow.eventType = [.approvalConsumed, .dockerActionStarted] ∧ w.attempts = []) ∧
      ¬ Accounted unreachable "apr-1" restartApproved w := by
  intro w
  have htypes : w.events.rows.map EventRow.eventType = [.approvalConsumed, .dockerActionStarted] := by decide +kernel
  have hattempts : w.attempts = [] := by decide +kernel
  refine ⟨⟨htypes, hattempts⟩, fun h => ?_⟩
  obtain ⟨c, rest, hrows, -, hrest⟩ := map_eq_cons_iff.mp htypes
  obtain ⟨started, rest', rfl, hstarted, hnil⟩ := map_eq_cons_iff.mp hrest
  obtain rfl := map_eq_nil_iff.mp hnil
  have hfollowed := h.followed
  rw [hrows] at hfollowed
  exact not_followed_pair hstarted hfollowed

end IncidentLens.RemoteOps.Docker
