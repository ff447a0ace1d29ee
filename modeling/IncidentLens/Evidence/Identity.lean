import IncidentLens.Evidence.Service

/-!
# What evidence is identified by

The texts from which ids and dedupe keys are made join the fields of evidence with bars. Where no field has a
bar in it, evidence with the same id is about the same source and has the same content.
-/
namespace IncidentLens.Evidence
open Data Logs Effects LogSourceKind List

/-! ### Fields -/

lemma EvidenceKind.value_injective : Function.Injective EvidenceKind.value := by
  intro kind kind' h
  cases kind <;> cases kind' <;> first | rfl | (revert h; decide +kernel)

lemma EvidenceKind.value_barless (kind : EvidenceKind) : '|' ∉ kind.value.toList := by
  cases kind <;> decide +kernel

lemma getD_inj {a b : Option String} (ha : a ≠ some "") (hb : b ≠ some "") (h : a.getD "" = b.getD "") : a = b := by
  cases a with
  | none =>
    cases b with
    | none => rfl
    | some b => exact absurd (congrArg some h.symm) hb
  | some a =>
    cases b with
    | none => exact absurd (congrArg some h) ha
    | some b => exact congrArg some h

lemma sourceKind_inj {a b : Option LogSourceKind}
    (h : (a.map value).getD "" = (b.map value).getD "") : a = b := by
  rcases a with _ | _ | _ <;> rcases b with _ | _ | _ <;> first | rfl | (revert h; decide +kernel)

lemma scope_inj {a b : Option LogScope} (h : (a.map LogScope.value).getD "" = (b.map LogScope.value).getD "") : a = b := by
  rcases a with _ | _ | _ <;> rcases b with _ | _ | _ <;> first | rfl | (revert h; decide +kernel)

lemma sourceKind_barless (a : Option LogSourceKind) : '|' ∉ ((a.map value).getD "").toList := by
  rcases a with _ | _ | _ <;> decide +kernel

lemma scope_barless (a : Option LogScope) : '|' ∉ ((a.map LogScope.value).getD "").toList := by
  rcases a with _ | _ | _ <;> decide +kernel

/-- All that an id or a dedupe key is made from. -/
structure Identity where
  evidenceKind : EvidenceKind
  agentRunId : Option String
  projectId : String
  targetId : String
  serviceName : String
  sourceRef : Option String
  sourceKind : Option LogSourceKind
  scope : Option LogScope
  cursor : Option String
  metadata : String
  contentSha256 : String

def EvidenceRef.identity (e : EvidenceRef) : Identity where
  evidenceKind := e.evidenceKind
  agentRunId := e.agentRunId
  projectId := e.projectId
  targetId := e.targetId
  serviceName := e.serviceName
  sourceRef := e.sourceRef
  sourceKind := e.sourceKind
  scope := e.scope
  cursor := e.cursor
  metadata := metadataJson e.metadata
  contentSha256 := e.contentSha256

/-- No field has a bar in it, and no cursor ends like a JSON object. -/
structure EvidenceRef.Barless (e : EvidenceRef) : Prop where
  agentRunId : '|' ∉ (e.agentRunId.getD "").toList
  projectId : '|' ∉ e.projectId.toList
  targetId : '|' ∉ e.targetId.toList
  serviceName : '|' ∉ e.serviceName.toList
  sourceRef : '|' ∉ (e.sourceRef.getD "").toList
  cursor : '|' ∉ (e.cursor.getD "").toList
  notObject : (e.cursor.getD "").toList.getLast? ≠ some '}'

structure EvidenceRef.Filled (e : EvidenceRef) : Prop where
  agentRunId : e.agentRunId ≠ some ""
  sourceRef : e.sourceRef ≠ some ""
  cursor : e.cursor ≠ some ""

lemma EvidenceRef.filled_of_valid {e : EvidenceRef} (h : e.valid = true) : e.Filled := by
  have hall : ∀ {field : Option String} {most : ℕ}, field.all (within 1 most) = true → field ≠ some "" := by
    rintro _ most hall rfl
    simp [within] at hall
  simp only [valid, Bool.and_eq_true] at h
  exact ⟨hall h.1.1.1.1.1.1.1.1.2, hall h.1.1.1.1.2, hall h.1.1.1.2⟩

/-! ### Texts -/

lemma dedupeText_toList (e : EvidenceRef) : (dedupeText e).toList = joined '|'
    [e.evidenceKind.value.toList, (e.agentRunId.getD "").toList, e.projectId.toList, e.targetId.toList,
      e.serviceName.toList, (e.sourceRef.getD "").toList, ((e.sourceKind.map value).getD "").toList,
      ((e.scope.map LogScope.value).getD "").toList, (e.cursor.getD "").toList]
    ((metadataJson e.metadata).toList ++ '|' :: e.contentSha256.toList) := by
  simp [dedupeText]

lemma typedIdText_toList (kind : EvidenceKind) (projectId targetId serviceName agentRunId : String)
    (sourceRef : Option String) (metadata : Dict String String) (contentSha256 : String) :
    (typedIdText kind projectId targetId serviceName agentRunId sourceRef metadata contentSha256).toList = joined '|'
      [kind.value.toList, projectId.toList, targetId.toList, serviceName.toList, agentRunId.toList, (sourceRef.getD "").toList]
      ((metadataJson metadata).toList ++ '|' :: contentSha256.toList) := by
  simp [typedIdText]

lemma logRecordIdText_toList (sha256 : Sha256) (record : LogRecord) (agentRunId : Option String) :
    (logRecordIdText sha256 record agentRunId).toList = joined '|'
      ((agentRunId.map String.toList).toList ++ [record.projectId.toList, record.targetId.toList, record.serviceName.toList,
        record.sourceKind.value.toList, record.scope.value.toList, record.sourceRef.toList, record.cursor.toList])
      (sha256.hexdigest record.messageRedacted).toList := by
  cases agentRunId with
  | none => simp [logRecordIdText]
  | some agentRunId => simp [logRecordIdText]

lemma getLast?_metadataJson (metadata : List (String × String)) : (metadataJson metadata).toList.getLast? = some '}' := by
  rw [metadataJson, String.toList_ofList]
  exact getLast?_concat

lemma digest_cut {sha256 : Sha256} {a b : List Char} {text text' : String}
    (h : a ++ '|' :: (sha256.hexdigest text).toList = b ++ '|' :: (sha256.hexdigest text').toList) :
    a = b ∧ sha256.hexdigest text = sha256.hexdigest text' := by
  have hlength : ('|' :: (sha256.hexdigest text).toList).length = ('|' :: (sha256.hexdigest text').toList).length := by
    simp only [length_cons, String.length_toList, sha256.length_hexdigest]
  obtain ⟨rfl, hdigest⟩ := append_inj' h hlength
  exact ⟨rfl, String.toList_inj.mp (cons.inj hdigest).2⟩

/-! ### Requests -/

section
variable (sha256 : Sha256) (classes : CharClasses)

def EvidenceRequest.idText : EvidenceRequest → String
  | .logRecord record _ _ _ agentRunId => logRecordIdText sha256 record agentRunId
  | .typed attribution agentRunId sourceRef content =>
    let recorded := content.recorded classes
    typedIdText recorded.kind attribution.projectId attribution.targetId attribution.serviceName agentRunId sourceRef
      recorded.metadata (sha256.hexdigest (recorded.contentRedacted classes))

lemma evidenceRefId_eq (r : EvidenceRequest) :
    (r.evidence sha256 classes).evidenceRefId = "ev-" ++ sha256.short (r.idText sha256 classes) := by
  cases r with
  | logRecord record incidentId createdBy now agentRunId => rfl
  | typed attribution agentRunId sourceRef content => rfl

lemma contentSha256_eq (r : EvidenceRequest) :
    (r.evidence sha256 classes).contentSha256 = sha256.hexdigest (r.evidence sha256 classes).contentRedacted := by
  cases r with
  | logRecord record incidentId createdBy now agentRunId => rfl
  | typed attribution agentRunId sourceRef content => rfl

variable {sha256 classes} {r r' : EvidenceRequest}

lemma identity_of_dedupeText (hbarless : (r.evidence sha256 classes).Barless) (hbarless' : (r'.evidence sha256 classes).Barless)
    (hfilled : (r.evidence sha256 classes).Filled) (hfilled' : (r'.evidence sha256 classes).Filled)
    (h : dedupeText (r.evidence sha256 classes) = dedupeText (r'.evidence sha256 classes)) :
    (r.evidence sha256 classes).identity = (r'.evidence sha256 classes).identity := by
  have hsha := contentSha256_eq sha256 classes r
  have hsha' := contentSha256_eq sha256 classes r'
  generalize r.evidence sha256 classes = e at *
  generalize r'.evidence sha256 classes = e' at *
  have hparts : ∀ {e : EvidenceRef}, e.Barless → ∀ part ∈ [e.evidenceKind.value.toList, (e.agentRunId.getD "").toList,
      e.projectId.toList, e.targetId.toList, e.serviceName.toList, (e.sourceRef.getD "").toList,
      ((e.sourceKind.map value).getD "").toList, ((e.scope.map LogScope.value).getD "").toList,
      (e.cursor.getD "").toList], '|' ∉ part := by
    intro e he
    simp only [forall_mem_cons, not_mem_nil, false_implies, implies_true, and_true]
    exact ⟨e.evidenceKind.value_barless, he.agentRunId, he.projectId, he.targetId, he.serviceName, he.sourceRef,
      sourceKind_barless _, scope_barless _, he.cursor⟩
  have htexts := congrArg String.toList h
  rw [dedupeText_toList, dedupeText_toList, hsha, hsha'] at htexts
  obtain ⟨hfields, hrest⟩ := joined_inj (by rfl) (hparts hbarless) (hparts hbarless') htexts
  obtain ⟨hmetadata, hdigest⟩ := digest_cut hrest
  simp only [cons.injEq, and_true, String.toList_inj] at hfields
  obtain ⟨hkind, hrun, hproject, htarget, hservice, href, hsource, hscope, hcursor⟩ := hfields
  simp only [EvidenceRef.identity, Identity.mk.injEq]
  exact ⟨EvidenceKind.value_injective hkind, getD_inj hfilled.agentRunId hfilled'.agentRunId hrun, hproject, htarget,
    hservice, getD_inj hfilled.sourceRef hfilled'.sourceRef href, sourceKind_inj hsource, scope_inj hscope,
    getD_inj hfilled.cursor hfilled'.cursor hcursor, String.toList_inj.mp hmetadata, by rw [hsha, hsha', hdigest]⟩

lemma identity_of_logRecord {record record' : LogRecord} {incidentId incidentId' createdBy createdBy' : String} {now now' : Time}
    {agentRunId agentRunId' : Option String} (hbarless : (fromLogRecord sha256 record incidentId createdBy now agentRunId).Barless)
    (hbarless' : (fromLogRecord sha256 record' incidentId' createdBy' now' agentRunId').Barless)
    (h : logRecordIdText sha256 record agentRunId = logRecordIdText sha256 record' agentRunId') :
    (fromLogRecord sha256 record incidentId createdBy now agentRunId).identity =
      (fromLogRecord sha256 record' incidentId' createdBy' now' agentRunId').identity := by
  have hparts : ∀ {record : LogRecord} {incidentId createdBy : String} {now : Time} {agentRunId : Option String},
      (fromLogRecord sha256 record incidentId createdBy now agentRunId).Barless →
      ∀ part ∈ (agentRunId.map String.toList).toList ++ [record.projectId.toList, record.targetId.toList,
        record.serviceName.toList, record.sourceKind.value.toList, record.scope.value.toList, record.sourceRef.toList,
        record.cursor.toList], '|' ∉ part := by
    intro record incidentId createdBy now agentRunId he part hpart
    rcases mem_append.mp hpart with hrun | hpart
    · cases agentRunId with
      | none => cases hrun
      | some agentRunId =>
        cases mem_singleton.mp hrun
        exact he.agentRunId
    · have hfields : ∀ part ∈ [record.projectId.toList, record.targetId.toList, record.serviceName.toList,
          record.sourceKind.value.toList, record.scope.value.toList, record.sourceRef.toList, record.cursor.toList],
          '|' ∉ part := by
        simp only [forall_mem_cons, not_mem_nil, false_implies, implies_true, and_true]
        exact ⟨he.projectId, he.targetId, he.serviceName, sourceKind_barless (some record.sourceKind),
          scope_barless (some record.scope), he.sourceRef, he.cursor⟩
      exact hfields part hpart
  have htexts := congrArg String.toList h
  rw [logRecordIdText_toList, logRecordIdText_toList] at htexts
  obtain ⟨hfields, hdigest⟩ := joined_inj_of_not_mem (hparts hbarless) (hparts hbarless') (sha256.barless _) (sha256.barless _) htexts
  obtain ⟨hrun, hfields⟩ := append_inj' hfields rfl
  have hrun : agentRunId = agentRunId' := by
    cases agentRunId with
    | none =>
      cases agentRunId' with
      | none => rfl
      | some _ => cases hrun
    | some agentRunId =>
      cases agentRunId' with
      | none => cases hrun
      | some agentRunId' => exact congrArg some (String.toList_inj.mp (cons.inj hrun).1)
  simp only [cons.injEq, and_true, String.toList_inj] at hfields
  obtain ⟨hproject, htarget, hservice, hkind, hscope, href, hcursor⟩ := hfields
  have hdigest := String.toList_inj.mp hdigest
  have hkind : record.sourceKind = record'.sourceKind := Option.some_inj.mp (sourceKind_inj hkind)
  have hscope : record.scope = record'.scope := Option.some_inj.mp (scope_inj hscope)
  simp only [fromLogRecord, EvidenceRef.identity, hrun, hproject, htarget, hservice, href, hkind, hscope, hcursor, hdigest]

lemma logRecordIdText_ne_typedIdText {record : LogRecord} {agentRunId : Option String} {kind : EvidenceKind}
    {projectId targetId serviceName run content : String} {sourceRef : Option String} {metadata : Dict String String}
    (hcursor : record.cursor.toList.getLast? ≠ some '}') (hfilled : record.cursor ≠ "") :
    logRecordIdText sha256 record agentRunId ≠
      typedIdText kind projectId targetId serviceName run sourceRef metadata (sha256.hexdigest content) := by
  intro h
  have htexts := congrArg String.toList h
  have hrecord : (agentRunId.map String.toList).toList ++ [record.projectId.toList, record.targetId.toList,
      record.serviceName.toList, record.sourceKind.value.toList, record.scope.value.toList, record.sourceRef.toList,
      record.cursor.toList] = ((agentRunId.map String.toList).toList ++ [record.projectId.toList, record.targetId.toList,
      record.serviceName.toList, record.sourceKind.value.toList, record.scope.value.toList, record.sourceRef.toList]) ++
      [record.cursor.toList] := by
    rw [append_assoc]
    rfl
  rw [logRecordIdText_toList, typedIdText_toList, hrecord, joined_concat, joined_append] at htexts
  obtain ⟨hfront, -⟩ := digest_cut htexts
  have hlast := congrArg getLast? hfront
  have hobject := getLast?_metadataJson metadata
  have hmetadata : (metadataJson metadata).toList ≠ [] := by
    intro hnil
    rw [hnil] at hobject
    cases hobject
  rw [getLast?_joined _ (mt String.toList_eq_nil_iff.mp hfilled), getLast?_joined _ hmetadata, hobject] at hlast
  exact hcursor hlast

lemma identity_of_typed {attribution attribution' : Attribution} {agentRunId agentRunId' : String}
    {sourceRef sourceRef' : Option String} {recorded recorded' : Recorded}
    (hbarless : (persisted sha256 classes attribution agentRunId sourceRef recorded).Barless)
    (hbarless' : (persisted sha256 classes attribution' agentRunId' sourceRef' recorded').Barless)
    (href : sourceRef ≠ some "") (href' : sourceRef' ≠ some "")
    (h : typedIdText recorded.kind attribution.projectId attribution.targetId attribution.serviceName agentRunId sourceRef
        recorded.metadata (sha256.hexdigest (recorded.contentRedacted classes)) =
      typedIdText recorded'.kind attribution'.projectId attribution'.targetId attribution'.serviceName agentRunId' sourceRef'
        recorded'.metadata (sha256.hexdigest (recorded'.contentRedacted classes))) :
    (persisted sha256 classes attribution agentRunId sourceRef recorded).identity =
      (persisted sha256 classes attribution' agentRunId' sourceRef' recorded').identity := by
  have hparts : ∀ {attribution : Attribution} {agentRunId : String} {sourceRef : Option String} {recorded : Recorded},
      (persisted sha256 classes attribution agentRunId sourceRef recorded).Barless →
      ∀ part ∈ [recorded.kind.value.toList, attribution.projectId.toList, attribution.targetId.toList,
        attribution.serviceName.toList, agentRunId.toList, (sourceRef.getD "").toList], '|' ∉ part := by
    intro attribution agentRunId sourceRef recorded he
    simp only [forall_mem_cons, not_mem_nil, false_implies, implies_true, and_true]
    exact ⟨recorded.kind.value_barless, he.projectId, he.targetId, he.serviceName, he.agentRunId, he.sourceRef⟩
  have htexts := congrArg String.toList h
  rw [typedIdText_toList, typedIdText_toList] at htexts
  obtain ⟨hfields, hrest⟩ := joined_inj (by rfl) (hparts hbarless) (hparts hbarless') htexts
  obtain ⟨hmetadata, hdigest⟩ := digest_cut hrest
  simp only [cons.injEq, and_true, String.toList_inj] at hfields
  obtain ⟨hkind, hproject, htarget, hservice, hrun, hsource⟩ := hfields
  have hkind := EvidenceKind.value_injective hkind
  have hsource := getD_inj href href' hsource
  have hmetadata := String.toList_inj.mp hmetadata
  simp only [persisted, EvidenceRef.identity, hkind, hrun, hproject, htarget, hservice, hsource, hmetadata, hdigest]

lemma identity_of_idText (hbarless : (r.evidence sha256 classes).Barless) (hbarless' : (r'.evidence sha256 classes).Barless)
    (hfilled : (r.evidence sha256 classes).Filled) (hfilled' : (r'.evidence sha256 classes).Filled)
    (h : r.idText sha256 classes = r'.idText sha256 classes) :
    (r.evidence sha256 classes).identity = (r'.evidence sha256 classes).identity := by
  cases r with
  | logRecord record incidentId createdBy now agentRunId =>
    cases r' with
    | logRecord record' incidentId' createdBy' now' agentRunId' => exact identity_of_logRecord hbarless hbarless' h
    | typed attribution agentRunId' sourceRef content =>
      exact absurd h (logRecordIdText_ne_typedIdText hbarless.notObject fun hempty => hfilled.cursor (congrArg some hempty))
  | typed attribution agentRunId sourceRef content =>
    cases r' with
    | logRecord record incidentId createdBy now agentRunId' =>
      exact absurd h.symm (logRecordIdText_ne_typedIdText hbarless'.notObject fun hempty => hfilled'.cursor (congrArg some hempty))
    | typed attribution' agentRunId' sourceRef' content' =>
      exact identity_of_typed hbarless hbarless' hfilled.sourceRef hfilled'.sourceRef h

end

end IncidentLens.Evidence
