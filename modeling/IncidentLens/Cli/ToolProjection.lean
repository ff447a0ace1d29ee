import IncidentLens.Cli.Snapshot

/-!
# The two readings of the tool events

The reducer folds the tool events into blocks, and the synchronizer projects the same events when it rebuilds a
session. The reducer keeps the first name of a tool, the last error as it came and the last summary that is not
null; the projection keeps the last of each that is a string.
-/
namespace IncidentLens.Cli
open Data Events StreamEnvelope JsValue Dict Option
open List hiding flatten

/-- `updateToolStatus` with the event as the reducer gets it. -/
def retell (messages : List ConversationItem) (e : StreamEnvelope) : List ConversationItem :=
  match eventTypeOf e.flatten with
  | some type => updateToolStatus messages e.flatten type false
  | none => messages

/-- `updateToolStatus` over the events in the order of their sequences. -/
def foldToolStatus (events : List StreamEnvelope) : List ConversationItem := (bySequence events).foldl retell []

/-- The same tools in the same order, with the same names, statuses, summaries and errors. -/
def ProjectedAsFolded (events : List StreamEnvelope) : Prop :=
  toolsOf (foldToolStatus events) = (projectToolEvents events).map fun tool => (tool.toolId, tool.block)

def toldOf (events : List StreamEnvelope) : List (Dict String JsValue) := (bySequence events).map flatten

/-- The tools come in the same order, and for each the two closed forms agree. -/
def ToolsAlike (events : List StreamEnvelope) : Prop :=
  reducedTools.firsts (toldOf events) = projectedTools.firsts (bySequence events) ∧
    ∀ id ∈ reducedTools.firsts (toldOf events),
      SameTool (reducedTools.group id (toldOf events)) (projectedTools.group id (bySequence events))

/-- A payload has each key once, and none of them is `event_type`. -/
def StreamEnvelope.Plain (e : StreamEnvelope) : Prop :=
  (keys (e.payload.getD [])).Nodup ∧ "event_type" ∉ keys (e.payload.getD [])

/-- `payload['summary'] ?? payload['result']`, unless it is null. -/
def StreamEnvelope.givenSummary (e : StreamEnvelope) : Option JsValue := Cli.givenSummary (e.payload.getD [])

/-- What the events of one tool have to be like. -/
structure Retold (group : List StreamEnvelope) : Prop where
  /-- The name of the first event is the last name that is a string. -/
  name : ∀ first ∈ group.head?, Cli.toolName (first.payload.getD []) =
    .string ((group.filterMap StreamEnvelope.toolName).getLast?.getD "unknown")
  /-- The last summary is a string. -/
  summary : ∀ given ∈ (group.filterMap StreamEnvelope.givenSummary).getLast?, given.string?.isSome
  /-- Where none is given, the first event has no null for it. -/
  noSummary : group.filterMap StreamEnvelope.givenSummary = [] →
    ∀ first ∈ group.head?, summaryOf (first.payload.getD []) = .undefined
  /-- The last event has a string for its error, or no error after events without a text for one. -/
  error : ∀ last ∈ group.getLast?, (last.get "error").string?.isSome ∨
    last.get "error" = .undefined ∧ group.filterMap error = []

section
variable {events group : List StreamEnvelope} {e : StreamEnvelope}

lemma inOrder_bySequence (h : (events.map fun e => e.sequence.getD 0).Nodup) : InOrder (bySequence events) := by
  have hperm : (bySequence events).Perm events := perm_insertionSort _ _
  have hsorted : (bySequence events).Pairwise fun a b => a.sequence.getD 0 ≤ b.sequence.getD 0 :=
    pairwise_insertionSort _ _
  have hdistinct : (bySequence events).Pairwise fun a b => a.sequence.getD 0 ≠ b.sequence.getD 0 :=
    pairwise_map.mp ((hperm.map _).nodup_iff.mpr h)
  exact (hsorted.and hdistinct).imp fun hboth => lt_of_le_of_ne hboth.1 hboth.2

lemma toolsOf_retell (messages : List ConversationItem) (e : StreamEnvelope) :
    toolsOf (retell messages e) = reducedTools.step (toolsOf messages) e.flatten := by
  rw [retell]
  cases htype : eventTypeOf e.flatten with
  | none =>
    rw [reducedTools_step_of_not]
    rw [toolStatusOf, htype]
    rfl
  | some type => exact toolsOf_updateToolStatus htype

lemma toolsOf_foldl_retell (events : List StreamEnvelope) (messages : List ConversationItem) :
    toolsOf (events.foldl retell messages) = (events.map flatten).foldl reducedTools.step (toolsOf messages) := by
  induction events generalizing messages with
  | nil => rfl
  | cons e events ih => rw [foldl_cons, ih, map_cons, foldl_cons, toolsOf_retell]

lemma toolsOf_foldToolStatus (events : List StreamEnvelope) :
    toolsOf (foldToolStatus events) = reducedTools.collect (toldOf events) :=
  toolsOf_foldl_retell (bySequence events) []

/-! ### Payloads that only add to an event -/

lemma get?_spread_of_nodup {a b : Dict String JsValue} (h : b.keys.Nodup) (key : String) :
    (spread a b).get? key = (b.get? key).orElse fun _ => a.get? key := by
  induction b generalizing a with
  | nil => rfl
  | cons item b ih =>
    obtain ⟨k, v⟩ := item
    obtain ⟨hnot, hrest⟩ := nodup_cons.mp h
    have hstep : (spread a ((k, v) :: b)).get? key = (get? b key).orElse fun _ => (a.set k v).get? key := ih hrest
    rw [hstep, get?_set, get?]
    by_cases hk : k = key
    · subst hk
      have hnone : get? b k = none := by
        by_contra hsome
        obtain ⟨value, hvalue⟩ := ne_none_iff_exists'.mp hsome
        exact hnot (mem_map.mpr ⟨_, mem_of_get? hvalue, rfl⟩)
      rw [hnone, if_pos rfl, if_pos rfl]
      rfl
    · rw [if_neg hk, if_neg hk]

def envelopeKeys : List String :=
  ["schema_version", "event_type", "occurred_at", "sequence", "event_id", "investigation_id", "session_id", "target_id",
    "payload"]

lemma key_mem_envelopeKeys {key : String} {value : JsValue} (h : (key, value) ∈ e.fields) : key ∈ envelopeKeys := by
  simp only [fields, mem_append, mem_cons, not_mem_nil, or_false, mem_toList, map_eq_some_iff, Prod.mk.injEq] at h
  simp only [envelopeKeys, mem_cons, not_mem_nil, or_false]
  obtain (((((((h | h | h) | ⟨_, -, h⟩) | ⟨_, -, h⟩) | ⟨_, -, h⟩) | ⟨_, -, h⟩) | ⟨_, -, h⟩) | ⟨_, -, h⟩) := h
  all_goals simp [h]

lemma field_flatten (h : e.Plain) {key : String} (hkey : key ∉ envelopeKeys) : field e.flatten key = e.get key := by
  have hnone : e.fields.get? key = none := by
    by_contra hsome
    obtain ⟨value, hvalue⟩ := ne_none_iff_exists'.mp hsome
    exact hkey (key_mem_envelopeKeys (mem_of_get? hvalue))
  rw [field, flatten, get?_spread_of_nodup h.1, hnone]
  unfold StreamEnvelope.get field
  cases get? (e.payload.getD []) key <;> rfl

lemma eventTypeOf_flatten (h : e.Plain) : eventTypeOf e.flatten = some e.eventType := by
  have hown : get? (e.payload.getD []) "event_type" = none := by
    by_contra hsome
    obtain ⟨value, hvalue⟩ := ne_none_iff_exists'.mp hsome
    exact h.2 (mem_map.mpr ⟨_, mem_of_get? hvalue, rfl⟩)
  have hfields : e.fields.get? "event_type" = some (.string e.eventType.value) := by simp [fields, get?]
  have htype : field e.flatten "event_type" = .string e.eventType.value := by
    rw [field, flatten, get?_spread_of_nodup h.1, hown, hfields]
    rfl
  rw [eventTypeOf, htype]
  cases e.eventType <;> rfl

lemma toolIdOf_flatten (h : e.Plain) : toolIdOf e.flatten = toolIdOf (e.payload.getD []) := by
  unfold toolIdOf
  rw [field_flatten h (by decide), field_flatten h (by decide)]
  rfl

lemma toolStatusOf_flatten (h : e.Plain) : toolStatusOf e.flatten = e.toolStatus := by
  rw [toolStatusOf, eventTypeOf_flatten h, field_flatten h (by decide)]
  rfl

lemma summaryOf_flatten (h : e.Plain) : summaryOf e.flatten = summaryOf (e.payload.getD []) := by
  unfold summaryOf
  rw [field_flatten h (by decide), field_flatten h (by decide)]
  rfl

lemma givenSummary_flatten (h : e.Plain) : Cli.givenSummary e.flatten = e.givenSummary := by
  unfold StreamEnvelope.givenSummary Cli.givenSummary
  rw [summaryOf_flatten h]

lemma toolName_flatten (h : e.Plain) : Cli.toolName e.flatten = Cli.toolName (e.payload.getD []) := by
  unfold Cli.toolName
  rw [field_flatten h (by decide)]
  rfl

lemma key_flatten (h : e.Plain) : reducedTools.key e.flatten = projectedTools.key e := by
  simp only [reducedTools, projectedTools]
  rw [toolStatusOf_flatten h, toolIdOf_flatten h]

lemma firsts_flatten (h : ∀ e ∈ events, e.Plain) :
    reducedTools.firsts (events.map flatten) = projectedTools.firsts events := by
  unfold Upsert.firsts
  rw [filterMap_map]
  exact congrArg _ (filterMap_congr fun e he => key_flatten (h e he))

lemma group_flatten (h : ∀ e ∈ events, e.Plain) (id : String) : reducedTools.group id (events.map flatten) =
      (projectedTools.group id events).map flatten := by
  unfold Upsert.group
  rw [List.filter_map]
  refine congrArg _ (List.filter_congr fun e he => ?_)
  rw [Function.comp_apply, key_flatten (h e he)]

/-! ### One tool -/

lemma ne_ofOption {v : JsValue} (hstring : v.string? = none) (hdefined : v ≠ .undefined) (s : Option String) :
    v ≠ .ofOption s := by
  rintro rfl
  cases s with
  | none => exact hdefined rfl
  | some s => cases hstring

lemma last_given_iff {given : List JsValue} (h : ∀ v ∈ given, v.isNullish = false) (first : JsValue) :
    given.getLast?.getD first = .ofOption (given.filterMap string?).getLast? ↔
      (∀ v ∈ given.getLast?, v.string?.isSome) ∧ (given = [] → first = .undefined) := by
  rcases eq_nil_or_concat' given with rfl | ⟨front, v, rfl⟩
  · simp [ofOption]
  · have hdefined : v ≠ .undefined := by
      rintro rfl
      cases h _ (mem_append_right _ (mem_singleton_self _))
    rw [getLast?_concat, filterMap_append, getD_some]
    cases hstring : v.string? with
    | some s =>
      have hv : v = .string s := by
        cases v with
        | string t => rw [some.inj hstring]
        | undefined | null | boolean | number | array | object => cases hstring
      rw [filterMap_cons_some hstring, filterMap_nil, getLast?_concat]
      refine iff_of_true hv ⟨fun w hw => ?_, fun hnil => ?_⟩
      · rw [← some.inj hw, hstring]
        rfl
      · cases append_ne_nil_of_right_ne_nil front (cons_ne_nil v []) hnil
    | none =>
      refine iff_of_false (ne_ofOption hstring hdefined _) fun hboth => ?_
      have hsome := hboth.1 v rfl
      rw [hstring] at hsome
      cases hsome

lemma filterMap_summary (group : List StreamEnvelope) :
    group.filterMap StreamEnvelope.summary = (group.filterMap StreamEnvelope.givenSummary).filterMap string? := by
  rw [filterMap_filterMap]
  refine filterMap_congr fun e _ => ?_
  have hsummary : e.summary = (summaryOf (e.payload.getD [])).string? := rfl
  rw [hsummary, StreamEnvelope.givenSummary, Cli.givenSummary]
  cases summaryOf (e.payload.getD []) <;> rfl

lemma isNullish_of_given {v : JsValue} (h : v ∈ group.filterMap StreamEnvelope.givenSummary) : v.isNullish = false := by
  obtain ⟨e, -, hv⟩ := mem_filterMap.mp h
  unfold StreamEnvelope.givenSummary Cli.givenSummary at hv
  split_ifs at hv with hnullish
  rw [← some.inj hv]
  exact Bool.not_eq_true _ ▸ hnullish

lemma ofOption_eq_undefined_iff {s : Option String} : ofOption s = .undefined ↔ s = none := by
  cases s with
  | none => exact iff_of_true rfl rfl
  | some s => exact iff_of_false (fun h => JsValue.noConfusion h) (some_ne_none s)

lemma last_error_iff {last : StreamEnvelope} (hlast : group.getLast? = some last) :
    last.get "error" = .ofOption (group.filterMap error).getLast? ↔
      (last.get "error").string?.isSome ∨ last.get "error" = .undefined ∧ group.filterMap error = [] := by
  cases hv : last.get "error" with
  | string s =>
    obtain ⟨front, rfl⟩ := getLast?_eq_some_iff.mp hlast
    have herror : last.error = some s := by
      rw [error, hv]
      rfl
    refine iff_of_true ?_ (.inl rfl)
    rw [filterMap_append, filterMap_cons_some herror, filterMap_nil, getLast?_concat]
    rfl
  | undefined =>
    rw [eq_comm, ofOption_eq_undefined_iff, getLast?_eq_none_iff]
    simp [string?]
  | null => exact iff_of_false (ne_ofOption rfl (by simp) _) (by simp [string?])
  | boolean b => exact iff_of_false (ne_ofOption rfl (by simp) _) (by simp [string?])
  | number n => exact iff_of_false (ne_ofOption rfl (by simp) _) (by simp [string?])
  | array items => exact iff_of_false (ne_ofOption rfl (by simp) _) (by simp [string?])
  | object d => exact iff_of_false (ne_ofOption rfl (by simp) _) (by simp [string?])

lemma sameTool_iff (h : ∀ e ∈ group, e.Plain) (hne : group ≠ []) :
    SameTool (group.map StreamEnvelope.flatten) group ↔ Retold group := by
  obtain ⟨first, hfirst⟩ := isSome_iff_exists.mp (isSome_head?.mpr hne)
  obtain ⟨last, hlast⟩ : ∃ last, group.getLast? = some last := ⟨_, getLast?_eq_some_getLast hne⟩
  have hplain := h first (mem_of_head? hfirst)
  have hplain' := h last (mem_of_getLast? hlast)
  have hname : (group.map StreamEnvelope.flatten).head?.map Cli.toolName = some (Cli.toolName (first.payload.getD [])) := by
    rw [head?_map, hfirst, map_some, map_some, toolName_flatten hplain]
  have hstatus : (group.map StreamEnvelope.flatten).getLast?.bind toolStatusOf =
      group.getLast?.bind StreamEnvelope.toolStatus := by
    rw [getLast?_map, hlast, map_some, bind_some, bind_some, toolStatusOf_flatten hplain']
  have hgiven : (group.map StreamEnvelope.flatten).filterMap Cli.givenSummary =
      group.filterMap StreamEnvelope.givenSummary := by
    rw [filterMap_map]
    exact filterMap_congr fun e he => givenSummary_flatten (h e he)
  have hsummary := last_given_iff (fun v hv => @isNullish_of_given group v hv) (summaryOf (first.payload.getD []))
  have herror := last_error_iff hlast
  have hfield : field last.flatten "error" = last.get "error" := field_flatten hplain' (by decide)
  rw [← filterMap_summary] at hsummary
  constructor
  · rintro ⟨hn, -, hs, he⟩
    rw [hname] at hn
    rw [head?_map, hfirst, map_some, map_some, hgiven, summaryOf_flatten hplain, some.injEq, hsummary] at hs
    rw [getLast?_map, hlast, map_some, map_some, hfield, some.injEq, herror] at he
    refine ⟨fun f hf => ?_, hs.1, fun hnil f hf => ?_, fun l hl => ?_⟩
    · obtain rfl := some.inj (hfirst.symm.trans hf)
      exact some.inj hn
    · obtain rfl := some.inj (hfirst.symm.trans hf)
      exact hs.2 hnil
    · obtain rfl := some.inj (hlast.symm.trans hl)
      exact he
  · rintro ⟨hn, hs, hnone, he⟩
    refine ⟨?_, hstatus, ?_, ?_⟩
    · rw [hname, hn first hfirst]
    · rw [head?_map, hfirst, map_some, map_some, hgiven, summaryOf_flatten hplain, some.injEq, hsummary]
      exact ⟨hs, fun hnil => hnone hnil first hfirst⟩
    · rw [getLast?_map, hlast, map_some, map_some, hfield, some.injEq, herror]
      exact he last hlast

/-- The two readings of any events with distinct sequences agree if and only if the tools are alike; where payloads
only add to their events, that is a condition on the events of each tool. -/
theorem tool_projection_iff (events : List StreamEnvelope) (h : (events.map fun e => e.sequence.getD 0).Nodup) :
    (ProjectedAsFolded events ↔ ToolsAlike events) ∧
      ((∀ e ∈ events, e.Plain) → (ToolsAlike events ↔ ∀ id ∈ projectedTools.firsts (bySequence events),
        Retold (projectedTools.group id (bySequence events)))) := by
  have horder := inOrder_bySequence h
  refine ⟨?_, fun hplain => ?_⟩
  · have hsorted : projectToolEvents events = projectToolEvents (bySequence events) := by
      rw [projectToolEvents, projectToolEvents, bySequence_eq horder]
    rw [ProjectedAsFolded, toolsOf_foldToolStatus, hsorted]
    exact tools_agree_iff horder
  · have hplain : ∀ e ∈ bySequence events, e.Plain := fun e he =>
      hplain e ((perm_insertionSort _ _).mem_iff.mp he)
    rw [ToolsAlike, toldOf, firsts_flatten hplain, and_iff_right rfl]
    refine forall₂_congr fun id hid => ?_
    rw [group_flatten hplain]
    refine sameTool_iff (fun e he => hplain e (mem_filter.mp he).1) (Upsert.mem_firsts.mp hid)

/-! ### An error that is over -/

def failedCall : StreamEnvelope where
  eventType := .toolCallStatusChanged
  occurredAt := "2026-01-01T00:00:00Z"
  sequence := some 1
  payload := some [("tool_call_id", .string "call-1"), ("tool_name", .string "host_read"), ("status", .string "failed"),
    ("error", .string "boom")]

def succeededCall : StreamEnvelope where
  eventType := .toolCallStatusChanged
  occurredAt := "2026-01-01T00:00:01Z"
  sequence := some 2
  payload := some [("tool_call_id", .string "call-1"), ("tool_name", .string "host_read"), ("status", .string "succeeded")]

theorem failedCall_projected_iff : (ProjectedAsFolded [failedCall] ↔ ToolsAlike [failedCall]) ∧
    ((∀ e ∈ [failedCall], e.Plain) → (ToolsAlike [failedCall] ↔
      ∀ id ∈ projectedTools.firsts (bySequence [failedCall]),
        Retold (projectedTools.group id (bySequence [failedCall])))) :=
  tool_projection_iff [failedCall] (nodup_singleton _)

/-- The reducer shows no error once the call succeeded; the projection still shows the first one. -/
theorem error_kept : ¬ ∀ events : List StreamEnvelope, (events.map fun e => e.sequence.getD 0).Nodup →
    ProjectedAsFolded events := by
  intro h
  have hagree := congrArg (map fun tool : String × ToolBlock => tool.2.error)
    (h [failedCall, succeededCall] (by decide))
  have hfolded : (toolsOf (foldToolStatus [failedCall, succeededCall])).map (fun tool => tool.2.error) = [.undefined] := rfl
  have hprojected : ((projectToolEvents [failedCall, succeededCall]).map fun tool => (tool.toolId, tool.block)).map
      (fun tool => tool.2.error) = [.string "boom"] := rfl
  rw [hfolded, hprojected] at hagree
  cases hagree

end
end IncidentLens.Cli
