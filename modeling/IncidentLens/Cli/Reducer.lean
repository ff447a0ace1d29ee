import IncidentLens.Cli.Synchronizer
import IncidentLens.Effects.Runs
import IncidentLens.Events.Store
import Mathlib.Algebra.Order.Ring.Rat

/-!
# The reducer of the CLI and the sessions it switches between

Every session has a synchronizer of its own, which starts from the session's committed cursor.
The reducer keeps one sequence for all of them. An event is handed over with its payload spread
over the envelope.
-/
namespace IncidentLens.Cli
open Data Effects Events

inductive JsValue
  | undefined
  | null
  | boolean (b : Bool)
  | number (n : ℚ)
  | string (s : String)
  | array (items : List JsValue)
  | object (members : List (String × JsValue))

/-- `a <= b`; `coerced` compares what are not two numbers. -/
def lessOrEqual (coerced : JsValue → JsValue → Bool) : JsValue → JsValue → Bool
  | .number m, .number n => decide (m ≤ n)
  | a, b => coerced a b

structure StreamEnvelope where
  eventType : RuntimeEventType
  occurredAt : String
  sequence : Option ℕ := none
  eventId : Option String := none
  investigationId : Option String := none
  sessionId : Option String := none
  targetId : Option String := none
  payload : Option (Dict String JsValue) := none

/-- `{ ...a, ...b }`. -/
def spread (a b : Dict String JsValue) : Dict String JsValue := b.foldl (fun d item => d.set item.1 item.2) a

def StreamEnvelope.fields (e : StreamEnvelope) : Dict String JsValue :=
  [("schema_version", .number 1), ("event_type", .string e.eventType.value), ("occurred_at", .string e.occurredAt)] ++
    (e.sequence.map fun n => ("sequence", JsValue.number n)).toList ++
    (e.eventId.map fun id => ("event_id", JsValue.string id)).toList ++
    (e.investigationId.map fun id => ("investigation_id", JsValue.string id)).toList ++
    (e.sessionId.map fun id => ("session_id", JsValue.string id)).toList ++
    (e.targetId.map fun id => ("target_id", JsValue.string id)).toList ++
    (e.payload.map fun payload => ("payload", JsValue.object payload)).toList

def StreamEnvelope.flatten (e : StreamEnvelope) : Dict String JsValue := spread e.fields (e.payload.getD [])

def sequenceOf (event : Dict String JsValue) : JsValue := (event.get? "sequence").getD .undefined

/-- The parts of the state by which events are admitted. -/
structure CliState where
  session : Option String := none
  lastSequence : JsValue := .number 0

namespace CliState

/-- `set_session`: the transcript starts afresh, the sequence goes on. -/
def setSession (s : CliState) (sessionId : String) : CliState := { s with session := some sessionId }

def rejects (coerced : JsValue → JsValue → Bool) (s : CliState) (event : Dict String JsValue) : Bool :=
  lessOrEqual coerced (sequenceOf event) s.lastSequence

/-- Every type of event counts alike. -/
def handleStreamEvent (coerced : JsValue → JsValue → Bool) (s : CliState) (event : Dict String JsValue) : CliState :=
  if s.rejects coerced event then s else { s with lastSequence := sequenceOf event }

end CliState

/-- The effect that keeps a synchronizer for the session. -/
inductive Effect
  | idle
  /-- The profile is being loaded; the sequence is that of the rendered state. -/
  | loading (sessionId : String) (lastSequence : JsValue)
  | running (synchronizer : SessionSynchronizer JsValue)

def Effect.sessionId : Effect → Option String
  | .idle => none
  | .loading sessionId _ => some sessionId
  | .running synchronizer => some synchronizer.cursor.sessionId

/-- An event that was handed to the reducer, and where the two stood then. -/
structure Dispatch where
  event : StreamEnvelope
  applied : Bool
  lastSequence : JsValue
  cursor : JsValue

structure App where
  state : CliState := {}
  effect : Effect := .idle
  dispatched : List Dispatch := []

inductive AppMove
  | setSession (sessionId : String)
  | render
  | load (lastSequenceBySession : Option ℕ)
  | receive (event : StreamEnvelope)

namespace App
variable (coerced : JsValue → JsValue → Bool)

def onEvent (a : App) (synchronizer : SessionSynchronizer JsValue) (event : StreamEnvelope) : App :=
  match synchronizer.onEvent (fun n => lessOrEqual coerced (.number n)) (fun n => .number n) event.sequence with
  | none => a
  | some counted =>
    let state := a.state.handleStreamEvent coerced event.flatten
    { state := state
      effect := .running counted
      dispatched := a.dispatched ++
        [⟨event, !a.state.rejects coerced event.flatten, state.lastSequence, counted.cursor.sequence⟩] }

def step (a : App) : AppMove → Option App
  | .setSession sessionId => some { a with state := a.state.setSession sessionId }
  | .render => match a.state.session with
    | some sessionId =>
      if a.effect.sessionId = some sessionId then none
      else some { a with effect := .loading sessionId a.state.lastSequence }
    | none => none
  | .load committed => match a.effect with
    | .loading sessionId lastSequence =>
      some { a with effect := .running ⟨⟨sessionId, (committed.map fun n => .number n).getD lastSequence⟩, false⟩ }
    | _ => none
  | .receive event => match a.effect with
    | .running synchronizer => some (a.onEvent coerced synchronizer event)
    | _ => none

end App

def app (coerced : JsValue → JsValue → Bool) : System App AppMove := ⟨{}, App.step coerced⟩

/-- Every event that was handed over was applied, and left the two at one sequence. -/
def App.InStep (a : App) : Prop := ∀ d ∈ a.dispatched, d.applied = true ∧ d.lastSequence = d.cursor

/-- An event beyond its session's cursor lies beyond every event handed over before, of any
session, and its payload holds no other `sequence`. -/
def Advances (coerced : JsValue → JsValue → Bool) (a : App) : AppMove → Prop
  | .receive event => ∀ synchronizer n, a.effect = .running synchronizer → event.sequence = some n →
      lessOrEqual coerced (.number n) synchronizer.cursor.sequence = false →
        (∀ d ∈ a.dispatched, ∀ m, d.event.sequence = some m → m < n) ∧
          ∀ payload, event.payload = some payload → ∀ value, ("sequence", value) ∈ payload → value = .number n
  | _ => True

section
variable {coerced : JsValue → JsValue → Bool}

lemma get?_spread {a b : Dict String JsValue} {key : String} {value : JsValue} (ha : a.get? key = some value)
    (hb : ∀ v, (key, v) ∈ b → v = value) : (spread a b).get? key = some value := by
  induction b generalizing a with
  | nil => exact ha
  | cons item b ih =>
    obtain ⟨k, v⟩ := item
    refine @ih (a.set k v) ?_ fun w hw => hb w (List.mem_cons_of_mem _ hw)
    rw [Dict.get?_set]
    split_ifs with hk
    · subst hk
      rw [hb v List.mem_cons_self]
    · exact ha

lemma sequenceOf_flatten {event : StreamEnvelope} {n : ℕ} (hsequence : event.sequence = some n)
    (hpayload : ∀ payload, event.payload = some payload → ∀ value, ("sequence", value) ∈ payload → value = .number n) :
    sequenceOf event.flatten = .number n := by
  have hfields : event.fields.get? "sequence" = some (.number n) := by
    simp [StreamEnvelope.fields, hsequence, Dict.get?]
  have hown : ∀ value, ("sequence", value) ∈ event.payload.getD [] → value = .number n := by
    intro value hvalue
    cases hp : event.payload with
    | none => simp [hp] at hvalue
    | some payload =>
      rw [hp] at hvalue
      exact hpayload payload hp value hvalue
  rw [sequenceOf, StreamEnvelope.flatten, get?_spread hfields hown, Option.getD_some]

lemma lessOrEqual_number (m n : ℕ) : lessOrEqual coerced (.number m) (.number n) = decide (m ≤ n) := by
  simp only [lessOrEqual, Rat.natCast_le_natCast]

/-- Both count in numbers, and the reducer's is one of the sequences handed over. -/
structure App.Sound (a : App) : Prop where
  inStep : a.InStep
  counted : ∃ m : ℕ, a.state.lastSequence = .number m ∧ (m = 0 ∨ ∃ d ∈ a.dispatched, d.event.sequence = some m)
  captured : ∀ sessionId lastSequence, a.effect = .loading sessionId lastSequence → ∃ m : ℕ, lastSequence = .number m
  cursor : ∀ synchronizer, a.effect = .running synchronizer → ∃ m : ℕ, synchronizer.cursor.sequence = .number m

lemma App.Sound.receive {a : App} (h : a.Sound) {event : StreamEnvelope} {synchronizer : SessionSynchronizer JsValue}
    (heffect : a.effect = .running synchronizer) (hgood : Advances coerced a (.receive event)) :
    (a.onEvent coerced synchronizer event).Sound := by
  unfold App.onEvent
  split
  · exact h
  · rename_i counted htaken
    obtain ⟨-, n, hsequence, hpassed, rfl⟩ := SessionSynchronizer.onEvent_eq_some htaken
    obtain ⟨hbeyond, hpayload⟩ := hgood synchronizer n heffect hsequence hpassed
    obtain ⟨c, hcursor⟩ := h.cursor synchronizer heffect
    obtain ⟨m, hm, hmark⟩ := h.counted
    have hpositive : c < n := by
      rw [hcursor, lessOrEqual_number] at hpassed
      simpa using hpassed
    have hflat := sequenceOf_flatten hsequence hpayload
    have hlater : m < n := by
      rcases hmark with hzero | ⟨d, hd, hdm⟩
      · omega
      · exact hbeyond d hd m hdm
    have hrejects : a.state.rejects coerced event.flatten = false := by
      rw [CliState.rejects, hflat, hm, lessOrEqual_number]
      simpa using hlater
    have hstate : a.state.handleStreamEvent coerced event.flatten = { a.state with lastSequence := .number n } := by
      simp [CliState.handleStreamEvent, hrejects, hflat]
    simp only [hstate, hrejects]
    constructor
    · intro d hd
      rcases List.mem_append.mp hd with hd | hd
      · exact h.inStep d hd
      · rw [List.mem_singleton.mp hd]
        exact ⟨rfl, rfl⟩
    · exact ⟨n, rfl, .inr ⟨_, List.mem_append_right _ List.mem_cons_self, hsequence⟩⟩
    · intro sessionId lastSequence hloading
      cases hloading
    · intro other hother
      cases hother
      exact ⟨n, rfl⟩

lemma App.Sound.step {a b : App} {move : AppMove} (h : a.Sound) (hgood : Advances coerced a move)
    (hstep : a.step coerced move = some b) : b.Sound := by
  cases move with
  | setSession sessionId =>
    cases hstep
    exact ⟨h.inStep, h.counted, h.captured, h.cursor⟩
  | render =>
    cases hsession : a.state.session with
    | none => simp [App.step, hsession] at hstep
    | some sessionId =>
      simp only [App.step, hsession] at hstep
      split_ifs at hstep with hsame
      cases hstep
      obtain ⟨m, hm, hmark⟩ := h.counted
      constructor
      · exact h.inStep
      · exact ⟨m, hm, hmark⟩
      · intro id lastSequence hloading
        cases hloading
        exact ⟨m, hm⟩
      · intro synchronizer hrunning
        cases hrunning
  | load committed =>
    cases heffect : a.effect with
    | loading sessionId lastSequence =>
      simp only [App.step, heffect, Option.some.injEq] at hstep
      cases hstep
      obtain ⟨m, hm⟩ := h.captured sessionId lastSequence heffect
      constructor
      · exact h.inStep
      · exact h.counted
      · intro id last hloading
        cases hloading
      · intro synchronizer hrunning
        cases hrunning
        cases committed with
        | none => exact ⟨m, hm⟩
        | some n => exact ⟨n, rfl⟩
    | _ => simp [App.step, heffect] at hstep
  | receive event =>
    cases heffect : a.effect with
    | running synchronizer =>
      simp only [App.step, heffect, Option.some.injEq] at hstep
      rw [← hstep]
      exact h.receive heffect hgood
    | _ => simp [App.step, heffect] at hstep

end

/-- While the events of all sessions are handed over in one increasing order and no payload
speaks of another sequence, the synchronizers and the reducer stay in step. -/
theorem dispatches_in_step (coerced : JsValue → JsValue → Bool) (a : App)
    (ha : (app coerced).Reached (Advances coerced) a) : a.InStep := by
  have hsound : a.Sound := by
    refine ha.invariant ?_ fun _ _ _ hsound hgood hstep => hsound.step hgood hstep
    constructor
    · intro d hd
      cases hd
    · exact ⟨0, by simp [app], .inl rfl⟩
    · intro sessionId lastSequence hloading
      cases hloading
    · intro synchronizer hrunning
      cases hrunning
  exact hsound.inStep

def todoChanged (sessionId : String) (n : ℕ) (payload : Dict String JsValue) : StreamEnvelope where
  eventType := .todoChanged
  occurredAt := "2026-01-01T00:00:00Z"
  sequence := some n
  sessionId := some sessionId
  payload := some payload

/-- A session whose cursor is behind the one left is rejected; and a payload may count for the
event that carries it. -/
theorem dispatches_out_of_step :
    (∃ a d, (app fun _ _ => false).runFrom {}
        [.setSession "as-1", .render, .load none, .receive (todoChanged "as-1" 10 []), .setSession "as-2", .render,
          .load (some 3), .receive (todoChanged "as-2" 5 [])] = some a ∧
      a.dispatched.getLast? = some d ∧ d.applied = false ∧ d.lastSequence = .number 10 ∧ d.cursor = .number 5 ∧
      ¬ a.InStep) ∧
    ∃ a d, (app fun _ _ => false).runFrom {}
        [.setSession "as-1", .render, .load none, .receive (todoChanged "as-1" 1 [("sequence", .number 7)])] = some a ∧
      a.dispatched = [d] ∧ d.applied = true ∧ d.lastSequence = .number 7 ∧ d.cursor = .number 1 ∧ ¬ a.InStep := by
  constructor
  · refine ⟨_, _, rfl, rfl, rfl, rfl, rfl, fun h => ?_⟩
    have happlied := (h _ (List.mem_append_right _ List.mem_cons_self)).1
    cases happlied
  · refine ⟨_, _, rfl, rfl, rfl, rfl, rfl, fun h => ?_⟩
    have hsame := (h _ List.mem_cons_self).2
    injection hsame with hsame
    exact absurd hsame (by decide)

/-- The first event of a session. -/
theorem first_dispatch_in_step : ∃ a, (app fun _ _ => false).runFrom {}
      [.setSession "as-1", .render, .load none, .receive (todoChanged "as-1" 1 [])] = some a ∧
    a.dispatched.length = 1 ∧ a.InStep := by
  refine ⟨_, rfl, rfl, dispatches_in_step (fun _ _ => false) _ (.next (.receive (todoChanged "as-1" 1 []))
    (.next (.load none) (.next .render (.next (.setSession "as-1") .start trivial rfl) trivial rfl) trivial rfl)
    ?_ rfl)⟩
  intro synchronizer n _ _ _
  constructor
  · intro d hd
    cases hd
  · intro payload hpayload value hvalue
    cases hpayload
    cases hvalue

end IncidentLens.Cli
