import IncidentLens.Events.Store

/-!
# The filter of a CLI event stream

A stream replays the pages of the event store and then takes events from a queue. The store
filters over its columns, and the stream filters again over the payload of each event.
-/
namespace IncidentLens.Streams
open Data Events

structure EventFilter where
  sessionId : Option String := none
  targetId : Option String := none
  investigationId : Option String := none
  eventTypes : List String := []

/-- `tuple(RuntimeEventType(t) for t in event_types)`. -/
def runtimeEventTypes : List String → Except String (List RuntimeEventType)
  | [] => .ok []
  | t :: eventTypes => match RuntimeEventType.parse t with
    | none => .error ("'" ++ t ++ "' is not a valid RuntimeEventType")
    | some eventType => (runtimeEventTypes eventTypes).map (eventType :: ·)

def filterParams (allowedTargetIds : Option (List String)) (f : EventFilter) : Except String PageFilter := do
  let eventTypes ← runtimeEventTypes f.eventTypes
  return ⟨f.sessionId, f.targetId, f.investigationId, eventTypes, allowedTargetIds⟩

/-- `resolve` answers `none` where the source's callback raises or answers `None`. -/
def refreshInvestigationFilter (resolve : Option (String → Option String)) (f : EventFilter) : EventFilter :=
  match f.sessionId, f.investigationId, resolve with
  | some sessionId, none, some resolve => match resolve sessionId with
    | some investigationId => { f with investigationId := some investigationId }
    | none => f
  | _, _, _ => f

/-- `payload.get(key) == value`. -/
def holdsString (payload : Dict String Json) (key value : String) : Bool :=
  match payload.get? key with
  | some (.string s) => s = value
  | _ => false

def correlates (f : EventFilter) (payload : Dict String Json) : Bool :=
  if f.sessionId.isSome || f.investigationId.isSome then
    f.sessionId.any (holdsString payload "session_id") || f.investigationId.any (holdsString payload "investigation_id")
  else true

/-- The target of a payload against an allow-list; what cannot be hashed cannot be looked up. -/
def authorizes (allowedTargetIds : Option (List String)) (payload : Dict String Json) : Except String Bool :=
  match allowedTargetIds with
  | none => .ok true
  | some ids => match payload.get? "target_id" with
    | none | some .null => .ok true
    | some (.string s) => .ok (ids.contains s)
    | some (.bool _) | some (.number _) => .ok false
    | some (.array _) => .error "unhashable type: 'list'"
    | some (.object _) => .error "unhashable type: 'dict'"

/-- `_matches_filter`, with a filter that was just refreshed. -/
def matchesRefreshed (allowedTargetIds : Option (List String)) (f : EventFilter) (event : RuntimeEvent) :
    Except String Bool :=
  if correlates f event.payload = false then .ok false
  else if (f.targetId.all (holdsString event.payload "target_id")) = false then .ok false
  else if f.eventTypes = [] then authorizes allowedTargetIds event.payload
  else do
    let eventTypes ← runtimeEventTypes f.eventTypes
    if eventTypes.contains event.eventType then authorizes allowedTargetIds event.payload else return false

/-- `_matches_filter`, and the filter it leaves behind. -/
def matchesFilter (resolve : Option (String → Option String)) (allowedTargetIds : Option (List String))
    (f : EventFilter) (event : RuntimeEvent) : Except String Bool × EventFilter :=
  let f := refreshInvestigationFilter resolve f
  (matchesRefreshed allowedTargetIds f event, f)

/-! ### Live and durable -/

/-- The event is let through by the session or investigation, the target and the types. -/
def EventFilter.concerns (f : EventFilter) (event : RuntimeEvent) : Bool :=
  correlates f event.payload && f.targetId.all (holdsString event.payload "target_id") &&
    match runtimeEventTypes f.eventTypes with
    | .ok eventTypes => eventTypes.isEmpty || eventTypes.contains event.eventType
    | .error _ => false

/-- The target of a payload as the allow-list of a principal sees it. -/
inductive TargetKind
  | absent | string | other
  deriving DecidableEq

def targetKind (payload : Dict String Json) : TargetKind :=
  match payload.get? "target_id" with
  | none | some .null => .absent
  | some (.string _) => .string
  | some _ => .other

/-- The allow-list is read in two ways: an empty one and an event without a target, or any other
and an event whose target is not a string. -/
def dividesTarget (allowedTargetIds : Option (List String)) (payload : Dict String Json) : Bool :=
  match allowedTargetIds with
  | none => false
  | some ids => if ids = [] then targetKind payload = .absent else targetKind payload = .other

def EventFilter.divides (allowedTargetIds : Option (List String)) (f : EventFilter) (event : RuntimeEvent) : Bool :=
  f.concerns event && dividesTarget allowedTargetIds event.payload

section
variable {allowedTargetIds : Option (List String)} {f : EventFilter} {event : RuntimeEvent}

lemma payloadString_eq_some {payload : Dict String Json} {key value : String} :
    payloadString payload key = some value ↔ holdsString payload key value = true := by
  unfold payloadString holdsString
  cases payload.get? key with
  | none => simp
  | some json => cases json <;> simp

lemma equals_payloadString (payload : Dict String Json) (key value : String) :
    equals (payloadString payload key) value = holdsString payload key value := by
  rw [Bool.eq_iff_iff, equals, decide_eq_true_eq]
  exact payloadString_eq_some

lemma runtimeEventTypes_nil {eventTypes : List String} (h : runtimeEventTypes eventTypes = .ok []) :
    eventTypes = [] := by
  cases eventTypes with
  | nil => rfl
  | cons t eventTypes =>
    simp only [runtimeEventTypes] at h
    cases hparse : RuntimeEventType.parse t with
    | none => simp [hparse] at h
    | some eventType => cases htypes : runtimeEventTypes eventTypes <;> simp [hparse, htypes, Except.map] at h

lemma matchesRefreshed_iff : matchesRefreshed allowedTargetIds f event = .ok true ↔
    f.concerns event = true ∧ authorizes allowedTargetIds event.payload = .ok true := by
  unfold matchesRefreshed EventFilter.concerns
  cases correlates f event.payload with
  | false => simp
  | true =>
    cases f.targetId.all (holdsString event.payload "target_id") with
    | false => simp
    | true =>
      by_cases hnone : f.eventTypes = []
      · simp [hnone, runtimeEventTypes]
      · simp only [Bool.true_eq_false, if_false, hnone, Bool.and_true, Bool.true_and]
        cases htypes : runtimeEventTypes f.eventTypes with
        | error message => simp [bind, Except.bind]
        | ok eventTypes =>
          have hsome : eventTypes.isEmpty = false := by
            cases eventTypes with
            | nil => exact absurd (runtimeEventTypes_nil htypes) hnone
            | cons eventType eventTypes => rfl
          simp only [bind, Except.bind, pure, Except.pure, hsome, Bool.false_or]
          cases eventTypes.contains event.eventType <;> simp

lemma selects_rowOf {eventTypes : List RuntimeEventType} (htypes : runtimeEventTypes f.eventTypes = .ok eventTypes)
    (sequence : ℕ) :
    PageFilter.selects ⟨f.sessionId, f.targetId, f.investigationId, eventTypes, allowedTargetIds⟩
      (rowOf event sequence) = (f.concerns event &&
        admitsTarget allowedTargetIds (payloadString event.payload "target_id")) := by
  have htarget : f.targetId.all (equals (payloadString event.payload "target_id")) =
      f.targetId.all (holdsString event.payload "target_id") := by
    cases f.targetId with
    | none => rfl
    | some targetId => exact equals_payloadString event.payload "target_id" targetId
  simp only [PageFilter.selects, EventFilter.concerns, correlates, htypes, rowOf, htarget, equals_payloadString]
  cases f.sessionId <;> cases f.investigationId <;> simp

lemma authorizes_iff : (authorizes allowedTargetIds event.payload = .ok true ↔
      admitsTarget allowedTargetIds (payloadString event.payload "target_id") = true) ↔
    dividesTarget allowedTargetIds event.payload = false := by
  cases allowedTargetIds with
  | none => simp [authorizes, admitsTarget, dividesTarget]
  | some ids =>
    by_cases hids : ids = []
    · cases htarget : event.payload.get? "target_id" with
      | none => simp [authorizes, admitsTarget, dividesTarget, targetKind, htarget, hids]
      | some json =>
        cases json <;> simp [authorizes, admitsTarget, dividesTarget, targetKind, htarget, hids]
    · cases htarget : event.payload.get? "target_id" with
      | none => simp [authorizes, admitsTarget, dividesTarget, payloadString, targetKind, htarget, hids]
      | some json =>
        cases json <;> simp [authorizes, admitsTarget, dividesTarget, payloadString, targetKind, htarget, hids]

end

/-- The store returns a new event to a reader behind everything before it. -/
def Replays (table : EventTable) (allowedTargetIds : Option (List String)) (f : EventFilter) (event : RuntimeEvent)
    (limit : ℕ) : Prop :=
  ∃ filter page, filterParams allowedTargetIds f = .ok filter ∧
    listPage (table.insert event) filter table.assigned limit = .ok page ∧
      { event with sequence := table.assigned + 1 } ∈ page.items

lemma replays_iff {table : EventTable} {allowedTargetIds : Option (List String)} {f : EventFilter} {event : RuntimeEvent}
    {limit : ℕ} (hlimit : 1 ≤ limit ∧ limit ≤ 500) : Replays table allowedTargetIds f event limit ↔
      f.concerns event = true ∧ admitsTarget allowedTargetIds (payloadString event.payload "target_id") = true := by
  unfold Replays filterParams
  cases htypes : runtimeEventTypes f.eventTypes with
  | error message => simp [EventFilter.concerns, htypes, bind, Except.bind]
  | ok eventTypes =>
    constructor
    · rintro ⟨filter, page, hfilter, hpage⟩
      cases hfilter
      have := (mem_listPage_insert hlimit).mp ⟨page, hpage⟩
      rw [selects_rowOf htypes, Bool.and_eq_true] at this
      exact this
    · intro h
      rw [← Bool.and_eq_true, ← selects_rowOf htypes (table.assigned + 1)] at h
      obtain ⟨page, hpage⟩ := (mem_listPage_insert hlimit).mpr h
      exact ⟨_, page, rfl, hpage⟩

/-- The stream accepts an event exactly if the store returns it, except where the allow-list is
read in two ways. -/
theorem live_agrees_iff (table : EventTable) (resolve : Option (String → Option String))
    (allowedTargetIds : Option (List String)) (filter : EventFilter) (event stored : RuntimeEvent) (table' : EventTable)
    (limit : ℕ) (hlimit : 1 ≤ limit ∧ limit ≤ 500) (happend : append table event = .ok (stored, table')) :
    ((matchesFilter resolve allowedTargetIds filter stored).1 = .ok true ↔
        ∃ params page, filterParams allowedTargetIds (matchesFilter resolve allowedTargetIds filter stored).2 = .ok params ∧
          listPage table' params table.assigned limit = .ok page ∧ stored ∈ page.items) ↔
      EventFilter.divides allowedTargetIds (refreshInvestigationFilter resolve filter) event = false := by
  obtain ⟨rfl, rfl⟩ : stored = { event with sequence := table.assigned + 1 } ∧ table' = table.insert event := by
    unfold append at happend
    split_ifs at happend with hunique
    cases happend
    exact ⟨rfl, rfl⟩
  let f := refreshInvestigationFilter resolve filter
  have hreplays : _ ↔ _ := @replays_iff table allowedTargetIds f event limit hlimit
  have hlive := @matchesRefreshed_iff allowedTargetIds f { event with sequence := table.assigned + 1 }
  have hconcerns : f.concerns { event with sequence := table.assigned + 1 } = f.concerns event := rfl
  rw [hconcerns] at hlive
  have hauthorizes := @authorizes_iff allowedTargetIds event
  change (matchesRefreshed allowedTargetIds f { event with sequence := table.assigned + 1 } = .ok true ↔
    Replays table allowedTargetIds f event limit) ↔ _
  rw [hlive, hreplays, EventFilter.divides]
  cases f.concerns event with
  | false => simp
  | true => simpa using hauthorizes

def batchEvent (payload : Dict String Json) : RuntimeEvent := ⟨"evt-1", 0, .logBatchWritten, "2026-01-01T00:00:00+00:00", payload⟩

/-- Without targets of its own a principal is sent live what a replay refuses it; and a target
that is not a string is replayed to a principal who is not sent it live. -/
theorem filters_divide :
    ((matchesFilter none (some []) {} { batchEvent [] with sequence := 1 }).1 = .ok true ∧
      ¬ Replays {} (some []) {} (batchEvent []) 500) ∧
    ((matchesFilter none (some ["target-1"]) {} { batchEvent [("target_id", .number "5")] with sequence := 1 }).1 =
        .ok false ∧
      Replays {} (some ["target-1"]) {} (batchEvent [("target_id", .number "5")]) 500) := by
  refine ⟨⟨rfl, ?_⟩, rfl, ?_⟩
  · rw [replays_iff (by decide)]
    rintro ⟨-, ⟨⟩⟩
  · rw [replays_iff (by decide)]
    exact ⟨rfl, rfl⟩

/-- An event with an allowed target is accepted and replayed. -/
theorem target_event_agrees :
    (matchesFilter none (some ["target-1"]) {} { batchEvent [("target_id", .string "target-1")] with sequence := 1 }).1 =
      .ok true ↔
    ∃ params page, filterParams (some ["target-1"]) {} = .ok params ∧
      listPage (EventTable.insert {} (batchEvent [("target_id", .string "target-1")])) params 0 500 = .ok page ∧
        { batchEvent [("target_id", .string "target-1")] with sequence := 1 } ∈ page.items :=
  (live_agrees_iff {} none (some ["target-1"]) {} (batchEvent [("target_id", .string "target-1")]) _ _ 500
    (by decide) rfl).mpr rfl

end IncidentLens.Streams
