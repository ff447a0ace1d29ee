import IncidentLens.Approvals.Records

/-!
# Reading approvals back

Every row of the store is a record that was written. What is read of it has the same links and the same preview; its
risk and its downstream status are derived once more, from the columns and from the intent together.
-/
namespace IncidentLens.Approvals.Records
open Data Json ApprovalRecord ApprovalStore DateTime Link List

section
variable {intent : Dict String Json} {r : ApprovalRecord} {s : String}

lemma string_some (h : s ≠ "") : string (some s) = some s := by
  rw [string, Option.filter_some, if_pos (decide_eq_true h)]

lemma ne_empty_of_string {value : Option String} (h : string value = some s) : s ≠ "" := by
  rw [string, Option.filter_eq_some_iff] at h
  exact of_decide_eq_true h.2

lemma ne_empty_of_intentString {key : String} (h : intentString intent key = some s) : s ≠ "" := by
  unfold intentString at h
  split at h
  · exact ne_empty_of_string h
  · cases h

/-! ### Intents with their keys in order -/

lemma intentString_sortKeys (h : intent.keys.Nodup) (key : String) :
    intentString (sortKeys intent) key = intentString intent key := by
  unfold intentString
  rw [get?_sortKeys h]
  cases hvalue : intent.get? key with
  | none => rfl
  | some value => cases value <;> rfl

lemma linked_sortKeys (h : intent.keys.Nodup) (given : Links) :
    linked (sortKeys intent) given = linked intent given := by
  funext k
  rw [linked, linked, intentString_sortKeys h]

lemma deriveRisk_sortKeys (h : intent.keys.Nodup) (stored : Option String) :
    deriveRisk (sortKeys intent) stored = deriveRisk intent stored := by
  unfold deriveRisk
  rw [intentString_sortKeys h]

lemma deriveDownstreamStatus_sortKeys (h : intent.keys.Nodup) (links : Links) (stored : Option DownstreamStatus)
    (updatedAt : Option Text) : deriveDownstreamStatus (sortKeys intent) links stored updatedAt =
      deriveDownstreamStatus intent links stored updatedAt := by
  unfold deriveDownstreamStatus
  simp only [intentString_sortKeys h]

lemma previewField_sortKeys (h : intent.keys.Nodup) (field : String × String) :
    previewField (sortKeys intent) field = previewField intent field := by
  unfold previewField
  rw [get?_sortKeys h]
  cases hvalue : intent.get? field.1 with
  | none => rfl
  | some value => cases value <;> rfl

lemma safePreviewFromIntent_sortKeys (h : intent.keys.Nodup) (hnil : safePreviewFromIntent intent = []) :
    safePreviewFromIntent (sortKeys intent) = [] := by
  have hfields : previewField (sortKeys intent) = previewField intent := funext (previewField_sortKeys h)
  unfold safePreviewFromIntent at hnil ⊢
  rw [get?_sortKeys h, hfields]
  cases hvalue : intent.get? "preview" with
  | none =>
    rw [hvalue] at hnil
    exact hnil
  | some value =>
    rw [hvalue] at hnil
    cases value with
    | object members => exact sortKeys_eq_nil_iff.mpr hnil
    | null | bool | number | string | array => exact hnil

/-! ### Records that are stored -/

/-- What holds of every record that is stored, whatever was decided about it. -/
structure ApprovalRecord.Sound (numbers : Json.Numbers) (r : ApprovalRecord) : Prop where
  intent_valid : Json.Valid numbers (.object r.intent)
  preview_valid : Json.Valid numbers (.object r.preview)
  linked_eq : linked r.intent r.links = r.links
  risk_ne : r.risk ≠ ""
  preview_nil : r.preview = [] → safePreviewFromIntent r.intent = []
  approvalId_within : within 120 r.approvalId = true
  intentSha256_within : within 64 r.intentSha256 = true
  intentSummary_within : within 1000 r.intentSummary = true
  links_within : ∀ k, ∀ s ∈ r.links k, within k.maxLength s = true

def ApprovalRecord.readBack (r : ApprovalRecord) : ApprovalRecord := { r with
  intent := sortKeys r.intent
  preview := sortKeys r.preview
  risk := deriveRisk r.intent (some r.risk)
  decisionActor := string r.decisionActor
  decisionReason := string r.decisionReason
  decisionRouteKey := string r.decisionRouteKey
  decisionIdempotencyKey := string r.decisionIdempotencyKey
  decisionRequestSha256 := string r.decisionRequestSha256
  downstreamStatus := deriveDownstreamStatus r.intent r.links (some r.downstreamStatus)
    (r.downstreamUpdatedAt.map isoformat)
  downstreamErrorCode := string r.downstreamErrorCode }

/-- The risk of a row, of its intent where that is shown, and the texts of its decision are not too long for a record. -/
structure Row.Fits (row : Row) : Prop where
  risk : row.risk.length ≤ 80
  intentRisk : row.risk = approvalRequired → ∀ s ∈ intentString row.intent "risk", s.length ≤ 80
  decisionActor : ∀ s ∈ row.decisionActor, s.length ≤ 200
  decisionReason : ∀ s ∈ row.decisionReason, s.length ≤ 1000
  decisionRouteKey : ∀ s ∈ row.decisionRouteKey, s.length ≤ 200
  decisionIdempotencyKey : ∀ s ∈ row.decisionIdempotencyKey, s.length ≤ 200
  decisionRequestSha256 : ∀ s ∈ row.decisionRequestSha256, s.length ≤ 64
  downstreamErrorCode : ∀ s ∈ row.downstreamErrorCode, s.length ≤ 120

lemma isoformat_ne_nil (d : DateTime) : d.isoformat ≠ [] := by
  intro hnil
  have hread := fromIsoformat_isoformat d
  rw [hnil] at hread
  cases hread

lemma readStamp_isoformat (d : Option DateTime) : readStamp (d.map isoformat) = some d := by
  cases d with
  | none => rfl
  | some d =>
    rw [Option.map_some]
    cases htext : d.isoformat with
    | nil => exact absurd htext (isoformat_ne_nil d)
    | cons c text =>
      rw [readStamp, ← htext, fromIsoformat_isoformat, Option.map_some]
      exact cons_ne_nil c text

lemma dumps_object_ne_nil (d : Dict String Json) : dumps (.object d) ≠ [] := by
  rw [dumps]
  simp

variable {numbers : Json.Numbers}

lemma objectOf_loads {d : Dict String Json} (h : Json.Valid numbers (.object d)) :
    objectOf (loads numbers (dumps (.object d))) = some (sortKeys d) := by
  rw [loads_dumps_object h]
  rfl

lemma readPreview_row (h : r.Sound numbers) : r.row.readPreview numbers = sortKeys r.preview := by
  have hne : r.row.previewJson ≠ [] := dumps_object_ne_nil r.preview
  rw [Row.readPreview, if_neg hne]
  change (objectOf (loads numbers (dumps (.object r.preview)))).getD [] = sortKeys r.preview
  rw [objectOf_loads h.preview_valid]
  rfl

lemma recordFromRow_row (h : r.Sound numbers) :
    recordFromRow numbers r.row = if r.readBack.valid then some r.readBack else none := by
  have hkeys : (Dict.keys r.intent).Nodup := h.intent_valid.1
  have hintent : objectOf (loads numbers r.row.intentJson) = some (sortKeys r.intent) := objectOf_loads h.intent_valid
  have hlinks : linked (sortKeys r.intent) r.row.links = r.links := by
    rw [linked_sortKeys hkeys]
    exact h.linked_eq
  have hrisk : deriveRisk (sortKeys r.intent) (string (some r.row.risk)) = deriveRisk r.intent (some r.risk) := by
    rw [deriveRisk_sortKeys hkeys]
    exact congrArg _ (string_some h.risk_ne)
  have hupdated : readStamp r.row.downstreamUpdatedAt = some r.downstreamUpdatedAt := readStamp_isoformat _
  have hdecided : readStamp r.row.decidedAt = some r.decidedAt := readStamp_isoformat _
  have hconsumed : readStamp r.row.consumedAt = some r.consumedAt := readStamp_isoformat _
  have hcreated : fromIsoformat r.row.createdAt = some r.createdAt := fromIsoformat_isoformat _
  have hexpires : fromIsoformat r.row.expiresAt = some r.expiresAt := fromIsoformat_isoformat _
  simp only [recordFromRow, hintent, hupdated, hdecided, hconsumed, hcreated, hexpires, hlinks, hrisk,
    readPreview_row h, deriveDownstreamStatus_sortKeys hkeys, Option.bind_eq_bind, Option.bind_some]
  rfl

lemma deriveRisk_of_none {risk : String} (hintent : intentString intent "risk" = none) (h : risk ≠ "") :
    deriveRisk intent (some risk) = risk := by
  rw [deriveRisk, hintent, string_some h]
  rfl

lemma deriveRisk_of_some {risk intentRisk : String} (hintent : intentString intent "risk" = some intentRisk)
    (h : risk ≠ "") : deriveRisk intent (some risk) = if risk = approvalRequired then intentRisk else risk := by
  rw [deriveRisk, hintent, string_some h]
  simp

lemma deriveRisk_ne_empty {risk : String} (h : risk ≠ "") : deriveRisk intent (some risk) ≠ "" := by
  cases hintent : intentString intent "risk" with
  | none => rwa [deriveRisk_of_none hintent h]
  | some intentRisk =>
    rw [deriveRisk_of_some hintent h]
    split_ifs
    · exact ne_empty_of_intentString hintent
    · exact h

lemma within_iff {maxLength : ℕ} (h : s ≠ "") : within maxLength s = true ↔ s.length ≤ maxLength := by
  have hpos : 1 ≤ s.length := Nat.one_le_iff_ne_zero.mpr fun hzero => h (String.length_eq_zero_iff.mp hzero)
  rw [within, decide_eq_true_eq, and_iff_right hpos]

lemma all_string_iff {maxLength : ℕ} (value : Option String) :
    (string value).all (within maxLength) = true ↔ ∀ s ∈ value, s.length ≤ maxLength := by
  cases value with
  | none => simp [string]
  | some s =>
    by_cases hs : s = ""
    · subst hs
      simp [string]
    · rw [string_some hs, Option.all_some, within_iff hs]
      simp

lemma length_deriveRisk_iff {risk : String} (h : risk ≠ "") : (deriveRisk intent (some risk)).length ≤ 80 ↔
    risk.length ≤ 80 ∧ (risk = approvalRequired → ∀ s ∈ intentString intent "risk", s.length ≤ 80) := by
  cases hintent : intentString intent "risk" with
  | none =>
    rw [deriveRisk_of_none hintent h]
    simp
  | some s =>
    rw [deriveRisk_of_some hintent h]
    split_ifs with hdefault
    · have hlength : risk.length ≤ 80 := by
        rw [hdefault]
        decide
      rw [and_iff_right hlength]
      exact ⟨fun hs _ t ht => Option.some.inj ht ▸ hs, fun hall => hall hdefault s rfl⟩
    · rw [and_iff_left fun hsame => absurd hsame hdefault]

lemma valid_readBack_iff (h : r.Sound numbers) : r.readBack.valid = true ↔ r.row.Fits := by
  have hlinks : all.all (fun k => (r.links k).all (within k.maxLength)) = true := by
    refine all_eq_true.mpr fun k _ => ?_
    rw [Option.all_eq_true]
    exact h.links_within k
  have hrisk : within 80 (deriveRisk r.intent (some r.risk)) = true ↔ r.risk.length ≤ 80 ∧
      (r.risk = approvalRequired → ∀ s ∈ intentString r.intent "risk", s.length ≤ 80) :=
    (within_iff (deriveRisk_ne_empty h.risk_ne)).trans (length_deriveRisk_iff h.risk_ne)
  simp only [valid, readBack, h.approvalId_within, h.intentSha256_within,
    h.intentSummary_within, hlinks, Bool.true_and, Bool.and_eq_true, hrisk, all_string_iff]
  constructor
  · rintro ⟨⟨⟨⟨⟨⟨⟨hrisk, hintent⟩, hactor⟩, hreason⟩, hroute⟩, hkey⟩, hsha⟩, hcode⟩
    exact ⟨hrisk, hintent, hactor, hreason, hroute, hkey, hsha, hcode⟩
  · rintro ⟨hrisk, hintent, hactor, hreason, hroute, hkey, hsha, hcode⟩
    exact ⟨⟨⟨⟨⟨⟨⟨hrisk, hintent⟩, hactor⟩, hreason⟩, hroute⟩, hkey⟩, hsha⟩, hcode⟩

lemma isSome_recordFromRow_iff (h : r.Sound numbers) : (recordFromRow numbers r.row).isSome = true ↔ r.row.Fits := by
  rw [recordFromRow_row h, ← valid_readBack_iff h]
  cases r.readBack.valid <;> simp

/-! ### Filling in -/

def ApprovalRecord.settled (r : ApprovalRecord) : ApprovalRecord := { r with
  risk := deriveRisk r.intent (some r.risk)
  downstreamStatus := deriveDownstreamStatus r.intent r.links (some r.downstreamStatus)
    (r.downstreamUpdatedAt.map isoformat) }

lemma deriveRisk_deriveRisk {risk : String} (h : risk ≠ "") :
    deriveRisk intent (some (deriveRisk intent (some risk))) = deriveRisk intent (some risk) := by
  have hderived : deriveRisk intent (some risk) ≠ "" := deriveRisk_ne_empty h
  cases hintent : intentString intent "risk" with
  | none => exact deriveRisk_of_none hintent hderived
  | some intentRisk =>
    rw [deriveRisk_of_some hintent hderived, deriveRisk_of_some hintent h]
    split_ifs <;> rfl

lemma deriveDownstreamStatus_again (intent : Dict String Json) (links : Links) (stored : DownstreamStatus)
    (updatedAt : Option Text) :
    deriveDownstreamStatus intent links (some (deriveDownstreamStatus intent links (some stored) updatedAt)) updatedAt =
      deriveDownstreamStatus intent links (some stored) updatedAt := by
  by_cases h : stored = .notApplicable ∧ initialDownstreamStatus links = .pending ∧ updatedAt = none ∧
      downstream.any (fun k => (intentString intent k.key).isSome) = true
  · have hfirst : deriveDownstreamStatus intent links (some stored) updatedAt = .pending := if_pos h
    rw [hfirst]
    unfold deriveDownstreamStatus
    refine if_neg ?_
    rintro ⟨hstatus, -⟩
    cases hstatus
  · have hfirst : deriveDownstreamStatus intent links (some stored) updatedAt = stored := if_neg h
    rw [hfirst, hfirst]

lemma settled_settled (h : r.Sound numbers) : r.settled.settled = r.settled := by
  have hrisk := @deriveRisk_deriveRisk r.intent r.risk h.risk_ne
  have hstatus := deriveDownstreamStatus_again r.intent r.links r.downstreamStatus
    (r.downstreamUpdatedAt.map isoformat)
  simp only [settled, hrisk, hstatus]

lemma readBack_settled (h : r.Sound numbers) : r.settled.readBack = r.readBack := by
  have hrisk := @deriveRisk_deriveRisk r.intent r.risk h.risk_ne
  have hstatus := deriveDownstreamStatus_again r.intent r.links r.downstreamStatus
    (r.downstreamUpdatedAt.map isoformat)
  simp only [settled, readBack, hrisk, hstatus]

lemma ApprovalRecord.Sound.settled (h : r.Sound numbers) : r.settled.Sound numbers := { h with
  risk_ne := deriveRisk_ne_empty h.risk_ne }

lemma filter_isoformat (d : Option DateTime) :
    (d.map isoformat).filter (fun text => decide (text ≠ [])) = d.map isoformat := by
  cases d with
  | none => rfl
  | some d => rw [Option.map_some, Option.filter_some, if_pos (decide_eq_true (isoformat_ne_nil d))]

lemma eq_nil_of_dumps {d : Dict String Json} (h : dumps (.object d) = "{}".toList) : d = [] := by
  rw [← sortKeys_eq_nil_iff]
  rw [dumps_eq, sorted_object, write] at h
  cases hmembers : sortKeys d with
  | nil => rfl
  | cons member members =>
    obtain ⟨tail, htail⟩ := joinComma_cons (quote member.1 ++ ':' :: write member.2)
      (writeMembers members)
    have hquote : ((quote member.1 ++ ':' :: write member.2) ++ tail).head? = some '"' := rfl
    rw [hmembers, writeMembers, htail, append_assoc, singleton_append] at h
    have hsecond := congrArg (fun text : List Char => text.tail.head?) h
    rw [tail_cons, head?_append, hquote] at hsecond
    cases hsecond

lemma backfilled_row (h : r.Sound numbers) : r.row.backfilled numbers = r.settled.row := by
  have hkeys : (Dict.keys r.intent).Nodup := h.intent_valid.1
  have hintent : (objectOf (loads numbers r.row.intentJson)).getD [] = sortKeys r.intent := by
    rw [show r.row.intentJson = dumps (.object r.intent) from rfl, objectOf_loads h.intent_valid]
    rfl
  have hlinks : linked (sortKeys r.intent) r.row.links = r.links := by
    rw [linked_sortKeys hkeys]
    exact h.linked_eq
  have hrisk : deriveRisk (sortKeys r.intent) (string (some r.row.risk)) = deriveRisk r.intent (some r.risk) := by
    rw [deriveRisk_sortKeys hkeys]
    exact congrArg _ (string_some h.risk_ne)
  have hpreview : (if r.row.previewJson = [] ∨ r.row.previewJson = "{}".toList then
      dumps (.object (safePreviewFromIntent (sortKeys r.intent))) else r.row.previewJson) =
        r.row.previewJson := by
    refine ite_eq_right_iff.mpr fun hempty => ?_
    have hnil : r.preview = [] := by
      rcases hempty with hempty | hempty
      · exact absurd hempty (dumps_object_ne_nil r.preview)
      · exact eq_nil_of_dumps hempty
    rw [safePreviewFromIntent_sortKeys hkeys (h.preview_nil hnil)]
    exact congrArg (fun p => dumps (.object p)) hnil.symm
  have hupdated : r.row.downstreamUpdatedAt.filter (fun text => decide (text ≠ [])) =
      r.downstreamUpdatedAt.map isoformat := filter_isoformat _
  simp only [Row.backfilled, Row.filled, hintent, hlinks, hrisk, hpreview, hupdated,
    deriveDownstreamStatus_sortKeys hkeys]
  rfl

/-! ### The store -/

def ApprovalStore.Sound (numbers : Json.Numbers) (s : ApprovalStore) : Prop :=
  ∀ row ∈ s.rows, ∃ r : ApprovalRecord, r.Sound numbers ∧ row = r.row

lemma linked_linked (given : Links) : linked intent (linked intent given) = linked intent given := by
  funext k
  have hstring : string (linked intent given k) = linked intent given k := by
    rw [linked]
    cases hgiven : string (given k) with
    | some s => exact string_some (ne_empty_of_string hgiven)
    | none =>
      cases hintent : intentString intent k.key with
      | none => rfl
      | some s => exact string_some (ne_empty_of_intentString hintent)
  have hagain : linked intent (linked intent given) k =
      (string (linked intent given k)).orElse fun _ => intentString intent k.key := rfl
  rw [hagain, hstring, linked]
  cases string (given k) with
  | some s => rfl
  | none => cases intentString intent k.key <;> rfl

lemma keys_previewFields (fields : List (String × String)) :
    ((fields.filterMap (previewField intent)).map Prod.fst).Sublist (fields.map Prod.snd) := by
  induction fields with
  | nil => exact List.Sublist.slnil
  | cons field fields ih =>
    cases hfield : previewField intent field with
    | none =>
      rw [filterMap_cons_none hfield]
      exact ih.cons _
    | some member =>
      have hkey : member.1 = field.2 := by
        unfold previewField at hfield
        split at hfield
        · cases hfield
          rfl
        · cases hfield
      rw [filterMap_cons_some hfield, map_cons, map_cons, hkey]
      exact ih.cons_cons _

lemma valid_safePreviewFromIntent (h : Json.Valid numbers (.object intent)) :
    Json.Valid numbers (.object (safePreviewFromIntent intent)) := by
  have hfields : Json.Valid numbers (.object (previewFields.filterMap (previewField intent))) := by
    refine ⟨(keys_previewFields previewFields).nodup (by decide), validMembers_iff.mpr fun member hmember => ?_⟩
    obtain ⟨field, -, hfield⟩ := mem_filterMap.mp hmember
    unfold previewField at hfield
    split at hfield
    · cases hfield
      trivial
    · cases hfield
  unfold safePreviewFromIntent
  cases hpreview : intent.get? "preview" with
  | none => exact hfields
  | some value =>
    cases value with
    | object members => exact validMembers_iff.mp h.2 _ (Dict.mem_of_get? hpreview)
    | null | bool | number | string | array => exact hfields

lemma valid_shownPreview (r : CreateRequest numbers) : Json.Valid numbers (.object r.shownPreview) := by
  have hsafe := valid_safePreviewFromIntent r.intent_valid
  unfold CreateRequest.shownPreview
  cases hpreview : r.preview with
  | none => exact hsafe
  | some preview =>
    cases preview with
    | nil => exact hsafe
    | cons member members => exact r.preview_valid _ hpreview

lemma safePreview_of_shownPreview {r : CreateRequest numbers} (h : r.shownPreview = []) :
    safePreviewFromIntent r.intent = [] := by
  unfold CreateRequest.shownPreview at h
  cases hpreview : r.preview with
  | none =>
    rw [hpreview] at h
    exact h
  | some preview =>
    rw [hpreview] at h
    cases preview with
    | nil => exact h
    | cons member members => cases h

lemma sound_record (r : CreateRequest numbers) (expiresAt : DateTime) (h : (r.record expiresAt).valid = true) :
    (r.record expiresAt).Sound numbers := by
  simp only [valid, Bool.and_eq_true, all_eq_true] at h
  obtain ⟨⟨⟨⟨⟨⟨⟨⟨⟨⟨hid, hsha⟩, hsummary⟩, hlinks⟩, hrisk⟩, -⟩, -⟩, -⟩, -⟩, -⟩, -⟩ := h
  refine ⟨r.intent_valid, valid_shownPreview r, linked_linked r.links, ?_, safePreview_of_shownPreview, hid, hsha,
    hsummary, fun k s hs => ?_⟩
  · intro hempty
    rw [hempty] at hrisk
    cases hrisk
  · have hk := hlinks k (by cases k <;> decide)
    rw [hs] at hk
    exact hk

variable {s : ApprovalStore}

lemma ApprovalStore.Sound.mapRows {f : Row → Row} (h : s.Sound numbers)
    (hf : ∀ row, (f row).approvalId = row.approvalId)
    (hstep : ∀ r : ApprovalRecord, r.Sound numbers → ∃ r' : ApprovalRecord, r'.Sound numbers ∧ f r.row = r'.row) :
    (s.mapRows f hf).Sound numbers := by
  intro row hrow
  obtain ⟨old, hold, rfl⟩ := mem_map.mp hrow
  obtain ⟨r, hr, rfl⟩ := h old hold
  exact hstep r hr

lemma ApprovalStore.Sound.updateWhere {condition : ApprovalRow → Bool}
    {set : ApprovalRow → ApprovalRow} (h : s.Sound numbers) (hset : ∀ row, (set row).approvalId = row.approvalId)
    (hstep : ∀ r : ApprovalRecord, r.Sound numbers → ∃ r' : ApprovalRecord, r'.Sound numbers ∧
      ({ r.row with toApprovalRow := set r.row.toApprovalRow } : Row) = r'.row) :
    (s.updateWhere condition set hset).Sound numbers := by
  refine h.mapRows (Row.approvalId_updated hset) fun r hr => ?_
  unfold Row.updated
  split_ifs
  · exact hstep r hr
  · exact ⟨r, hr, rfl⟩

lemma migrate_eq (h : s.Sound numbers) :
    s.migrate numbers = some (s.mapRows (Row.backfilled numbers) (Row.approvalId_backfilled numbers)) := by
  refine if_pos (all_eq_true.mpr fun row hrow => ?_)
  obtain ⟨r, hr, rfl⟩ := h row hrow
  have hread : objectOf (loads numbers r.row.intentJson) = some (sortKeys r.intent) := objectOf_loads hr.intent_valid
  rw [hread]
  rfl

lemma ApprovalStore.Sound.backfilled (h : s.Sound numbers) :
    (s.mapRows (Row.backfilled numbers) (Row.approvalId_backfilled numbers)).Sound numbers :=
  h.mapRows (Row.approvalId_backfilled numbers) fun r hr => ⟨r.settled, hr.settled, backfilled_row hr⟩

lemma ApprovalStore.Sound.step (h : s.Sound numbers) (operation : Operation numbers) :
    (s.step operation).Sound numbers := by
  cases operation with
  | create r =>
    rw [ApprovalStore.step, createRequest]
    cases hexpires : addTimedelta r.now r.ttlMinutes with
    | none => exact h
    | some expiresAt =>
      rw [Option.bind_some]
      split_ifs with hvalid hknown
      · exact h
      · intro row hrow
        rcases mem_append.mp hrow with hold | hnew
        · exact h row hold
        · exact ⟨r.record expiresAt, sound_record r expiresAt hvalid, mem_singleton.mp hnew⟩
      · exact h
  | migrate =>
    rw [ApprovalStore.step, migrate_eq h]
    exact h.backfilled
  | decide d =>
    refine h.updateWhere (Decision.approvalId_set d) fun r hr => ⟨{ r with
      status := d.verdict.status
      decidedAt := some d.now
      decisionActor := d.actor
      decisionReason := d.reason
      decisionRouteKey := d.routeKey
      decisionIdempotencyKey := d.idempotencyKey
      decisionRequestSha256 := d.requestSha256
      downstreamErrorCode := none }, { hr with }, rfl⟩
  | consume c =>
    refine h.updateWhere (Consumption.approvalId_set c) fun r hr => ⟨{ r with
      status := .consumed
      consumedAt := some c.now }, { hr with }, rfl⟩
  | markDownstream m =>
    refine h.updateWhere (Downstream.approvalId_set m) fun r hr => ⟨{ r with
      downstreamStatus := m.status
      downstreamErrorCode := m.errorCode
      downstreamUpdatedAt := some m.now }, { hr with }, rfl⟩

lemma sound_run (operations : List (Operation numbers)) : (run operations).Sound numbers := by
  induction operations using reverseRecOn with
  | nil =>
    intro row hrow
    cases hrow
  | append_singleton operations operation ih =>
    rw [run, foldl_concat]
    exact ih.step operation

/-! ### Reading what was written -/

/-- A record up to the order of the keys in its intent and its preview. -/
def ApprovalRecord.normal (r : ApprovalRecord) : ApprovalRecord :=
  { r with intent := sortKeys r.intent, preview := sortKeys r.preview }

/-- Equal records: dicts are equal whatever the order of their keys. -/
def ApprovalRecord.Equal (a b : ApprovalRecord) : Prop := a.normal = b.normal

/-- What a request has to be like to be read back as it was written. -/
structure CreateRequest.Explicit (r : CreateRequest numbers) : Prop where
  /-- The default risk hides no other risk of the intent. -/
  risk : r.risk = approvalRequired → ∀ s ∈ intentString r.intent "risk", s = approvalRequired
  /-- A link that has something to do downstream is given, or the intent has none. -/
  downstream : (∃ k ∈ downstream, string (r.links k) ≠ none) ∨ ∀ k ∈ downstream, intentString r.intent k.key = none

lemma get_insert {row : Row} (h : row.approvalId ∉ s.rows.map fun row => row.approvalId) :
    get numbers ⟨s.rows ++ [row], s.unique_insert h⟩ row.approvalId = recordFromRow numbers row := by
  have hnone : s.rows.find? (fun old => decide (old.approvalId = row.approvalId)) = none := by
    refine find?_eq_none.mpr fun old hold hsame => h ?_
    exact mem_map.mpr ⟨old, hold, of_decide_eq_true hsame⟩
  rw [ApprovalStore.get, find?_append, hnone, find?_singleton, if_pos (decide_eq_true rfl)]
  rfl

lemma recordFromRow_backfilled (h : r.Sound numbers) :
    recordFromRow numbers (r.row.backfilled numbers) = recordFromRow numbers r.row := by
  rw [backfilled_row h, recordFromRow_row h.settled, recordFromRow_row h, readBack_settled h]

lemma get_backfilled (h : s.Sound numbers) (approvalId : String) :
    get numbers (s.mapRows (Row.backfilled numbers) (Row.approvalId_backfilled numbers)) approvalId =
      s.get numbers approvalId := by
  have hids : (fun row : Row => decide (row.approvalId = approvalId)) ∘ Row.backfilled numbers =
      fun row => decide (row.approvalId = approvalId) := rfl
  rw [ApprovalStore.get, ApprovalStore.get, ApprovalStore.mapRows, find?_map, hids]
  cases hfind : s.rows.find? fun row => decide (row.approvalId = approvalId) with
  | none => rfl
  | some row =>
    obtain ⟨r, hr, rfl⟩ := h row (mem_of_find?_eq_some hfind)
    exact recordFromRow_backfilled hr

lemma migrate_migrate (h : s.Sound numbers) : ∃ s', s.migrate numbers = some s' ∧ s'.migrate numbers = some s' := by
  refine ⟨_, migrate_eq h, (migrate_eq h.backfilled).trans (congrArg some ?_)⟩
  have hrows : (s.rows.map (Row.backfilled numbers)).map (Row.backfilled numbers) =
      s.rows.map (Row.backfilled numbers) := by
    rw [map_map]
    refine map_congr_left fun row hrow => ?_
    obtain ⟨r, hr, rfl⟩ := h row hrow
    rw [Function.comp_apply, backfilled_row hr, backfilled_row hr.settled, settled_settled hr]
  simp only [mapRows, hrows]

lemma get_migrations (h : s.Sound numbers) (n : ℕ) :
    ∃ s', s.migrations numbers n = some s' ∧ ∀ approvalId, s'.get numbers approvalId = s.get numbers approvalId := by
  induction n generalizing s with
  | zero => exact ⟨s, rfl, fun _ => rfl⟩
  | succ n ih =>
    obtain ⟨s', hs', hget⟩ := ih h.backfilled
    refine ⟨s', ?_, fun approvalId => (hget approvalId).trans (get_backfilled h approvalId)⟩
    rw [migrations, migrate_eq h, Option.bind_some, hs']

lemma risk_record_iff (r : CreateRequest numbers) (expiresAt : DateTime) :
    deriveRisk r.intent (some (r.record expiresAt).risk) = (r.record expiresAt).risk ↔
      (r.risk = approvalRequired → ∀ s ∈ intentString r.intent "risk", s = approvalRequired) := by
  have hrisk : (r.record expiresAt).risk =
      ((string (some r.risk)).orElse fun _ => intentString r.intent "risk").getD approvalRequired := rfl
  have hdefault : "" ≠ approvalRequired := by decide
  by_cases hgiven : r.risk = ""
  · rw [hgiven] at hrisk ⊢
    refine iff_of_true ?_ fun hsame => absurd hsame hdefault
    cases hintent : intentString r.intent "risk" with
    | none =>
      rw [hintent] at hrisk
      rw [hrisk]
      exact deriveRisk_of_none hintent (by decide)
    | some s =>
      rw [hintent] at hrisk
      have hs : (r.record expiresAt).risk = s := hrisk
      rw [hs, deriveRisk_of_some hintent (ne_empty_of_intentString hintent)]
      split_ifs <;> rfl
  · rw [string_some hgiven] at hrisk
    have hsame : (r.record expiresAt).risk = r.risk := hrisk
    rw [hsame]
    cases hintent : intentString r.intent "risk" with
    | none => exact iff_of_true (deriveRisk_of_none hintent hgiven) (by simp)
    | some s =>
      rw [deriveRisk_of_some hintent hgiven]
      simp only [ite_eq_right_iff, Option.mem_def, Option.some.injEq, forall_eq']
      exact forall_congr' fun happroval => by rw [happroval]

lemma any_string_iff (links : Links) : downstream.any (fun k => (string (links k)).isSome) = true ↔
      ∃ k ∈ downstream, string (links k) ≠ none := by
  simp only [any_eq_true, Option.isSome_iff_ne_none]

lemma downstream_record_iff (r : CreateRequest numbers) (expiresAt : DateTime) :
    deriveDownstreamStatus r.intent (r.record expiresAt).links (some (r.record expiresAt).downstreamStatus) none =
        (r.record expiresAt).downstreamStatus ↔ (∃ k ∈ downstream, string (r.links k) ≠ none) ∨
        ∀ k ∈ downstream, intentString r.intent k.key = none := by
  have hstatus : (r.record expiresAt).downstreamStatus = initialDownstreamStatus r.links := rfl
  have hlinks : (r.record expiresAt).links = linked r.intent r.links := rfl
  rw [hstatus, hlinks]
  by_cases hgiven : ∃ k ∈ downstream, string (r.links k) ≠ none
  · have hpending : initialDownstreamStatus r.links = .pending := if_pos ((any_string_iff r.links).mpr hgiven)
    refine iff_of_true ?_ (.inl hgiven)
    rw [hpending]
    unfold deriveDownstreamStatus
    refine if_neg ?_
    rintro ⟨hstored, -⟩
    cases hstored
  · have hnone : initialDownstreamStatus r.links = .notApplicable := if_neg (mt (any_string_iff r.links).mp hgiven)
    rw [hnone, or_iff_right hgiven]
    have hintent : downstream.any (fun k => (intentString r.intent k.key).isSome) = true ↔
        ¬ ∀ k ∈ downstream, intentString r.intent k.key = none := by
      simp only [any_eq_true, Option.isSome_iff_ne_none]
      push Not
      rfl
    by_cases hempty : ∀ k ∈ downstream, intentString r.intent k.key = none
    · refine iff_of_true (if_neg ?_) hempty
      rintro ⟨-, -, -, hany⟩
      exact hintent.mp hany hempty
    · have hany := hintent.mpr hempty
      have hlinked : initialDownstreamStatus (linked r.intent r.links) = .pending := by
        refine if_pos ((any_string_iff _).mpr ?_)
        obtain ⟨k, hk, hsome⟩ := any_eq_true.mp hany
        obtain ⟨s, hs⟩ := Option.isSome_iff_exists.mp hsome
        have hgivenNone : string (r.links k) = none := not_not.mp fun hne => hgiven ⟨k, hk, hne⟩
        refine ⟨k, hk, ?_⟩
        rw [linked, hgivenNone, hs]
        exact fun hfalse => Option.some_ne_none s ((string_some (ne_empty_of_intentString hs)).symm.trans hfalse)
      have hderived : deriveDownstreamStatus r.intent (linked r.intent r.links) (some .notApplicable) none = .pending :=
        if_pos ⟨rfl, hlinked, rfl, hany⟩
      rw [hderived]
      exact iff_of_false (fun h => DownstreamStatus.noConfusion h) hempty

lemma normal_normal (r : ApprovalRecord) : r.normal.normal = r.normal := by
  simp only [normal, sortKeys_sortKeys]

lemma readBack_record (r : CreateRequest numbers) (expiresAt : DateTime) (h : r.Explicit) :
    (r.record expiresAt).readBack = (r.record expiresAt).normal := by
  have hrisk : deriveRisk (r.record expiresAt).intent (some (r.record expiresAt).risk) = (r.record expiresAt).risk :=
    (risk_record_iff r expiresAt).mpr h.risk
  have hstatus : deriveDownstreamStatus (r.record expiresAt).intent (r.record expiresAt).links
      (some (r.record expiresAt).downstreamStatus) ((r.record expiresAt).downstreamUpdatedAt.map isoformat) =
        (r.record expiresAt).downstreamStatus := (downstream_record_iff r expiresAt).mpr h.downstream
  rw [readBack, hrisk, hstatus]
  rfl

lemma readBack_record_iff (r : CreateRequest numbers) {expiresAt : DateTime} (h : (r.record expiresAt).valid = true) :
    (∃ read, recordFromRow numbers (r.record expiresAt).row = some read ∧ read.Equal (r.record expiresAt)) ↔
      r.Explicit := by
  rw [recordFromRow_row (sound_record r expiresAt h)]
  constructor
  · rintro ⟨read, hread, hequal⟩
    split_ifs at hread
    obtain rfl := Option.some.inj hread
    exact ⟨(risk_record_iff r expiresAt).mp (congrArg risk hequal),
      (downstream_record_iff r expiresAt).mp (congrArg downstreamStatus hequal)⟩
  · intro hexplicit
    have hvalid : (r.record expiresAt).normal.valid = true := h
    rw [readBack_record r expiresAt hexplicit, if_pos hvalid]
    exact ⟨_, rfl, normal_normal _⟩

lemma createRequest_eq_some {s s' : ApprovalStore} {r : CreateRequest numbers} {record : ApprovalRecord}
    (h : createRequest s r = some (record, s')) : ∃ expiresAt, record = r.record expiresAt ∧ record.valid = true ∧
      ∃ hfresh : record.row.approvalId ∉ s.rows.map fun row => row.approvalId,
        s' = ⟨s.rows ++ [record.row], s.unique_insert hfresh⟩ := by
  obtain ⟨expiresAt, -, hcreated⟩ := Option.bind_eq_some_iff.mp h
  split_ifs at hcreated with hvalid hfresh
  cases hcreated
  exact ⟨expiresAt, rfl, hvalid, hfresh, rfl⟩

/-- After any number of backfills the record is read back as it was created if and only if its request is explicit. -/
theorem get_created_iff {s s' : ApprovalStore} {r : CreateRequest numbers} {record : ApprovalRecord}
    (hs : s.Sound numbers) (h : createRequest s r = some (record, s')) (n : ℕ) :
    (∃ s'' read, s'.migrations numbers n = some s'' ∧ s''.get numbers r.approvalId = some read ∧ read.Equal record) ↔
      r.Explicit := by
  have hs' : s'.Sound numbers := by
    have hstep := hs.step (.create r)
    rw [step, h] at hstep
    exact hstep
  obtain ⟨expiresAt, rfl, hvalid, hfresh, hrows⟩ := createRequest_eq_some h
  have hget : s'.get numbers r.approvalId = recordFromRow numbers (r.record expiresAt).row := by
    rw [hrows]
    exact get_insert hfresh
  obtain ⟨s'', hmigrated, hsame⟩ := get_migrations hs' n
  rw [← readBack_record_iff r hvalid, ← hget, ← hsame]
  constructor
  · rintro ⟨t, read, ht, hread, hequal⟩
    rw [hmigrated] at ht
    cases ht
    exact ⟨read, hread, hequal⟩
  · rintro ⟨read, hread, hequal⟩
    exact ⟨s'', read, hmigrated, hread, hequal⟩

end
end IncidentLens.Approvals.Records
