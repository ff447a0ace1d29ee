import IncidentLens.Evidence.Identity

/-!
# Histories of evidence

Over any sequence of requests the rows are evidence of requests, each id once, and what is returned for a
request is the row with its identity. A run belongs to one incident, and so does all evidence of it.
-/
namespace IncidentLens.Evidence
open Data Logs Effects List Identity

def submitted (moves : List EvidenceMove) : List EvidenceRequest :=
  moves.filterMap fun move => match move with
    | .register _ _ => none
    | .submit request => some request

structure SameSource (e e' : EvidenceRef) : Prop where
  evidenceKind : e.evidenceKind = e'.evidenceKind
  agentRunId : e.agentRunId = e'.agentRunId
  projectId : e.projectId = e'.projectId
  targetId : e.targetId = e'.targetId
  serviceName : e.serviceName = e'.serviceName
  sourceRef : e.sourceRef = e'.sourceRef
  sourceKind : e.sourceKind = e'.sourceKind
  scope : e.scope = e'.scope
  cursor : e.cursor = e'.cursor
  contentRedacted : e.contentRedacted = e'.contentRedacted

section
variable (sha256 : Sha256) (classes : CharClasses)

/-- No request has a bar in a field, and no two texts that are hashed have the same digits. -/
structure Undisturbed (requests : List EvidenceRequest) : Prop where
  barless : ∀ r ∈ requests, (r.evidence sha256 classes).Barless
  ids : ∀ r ∈ requests, ∀ r' ∈ requests,
    sha256.short (r.idText sha256 classes) = sha256.short (r'.idText sha256 classes) →
      r.idText sha256 classes = r'.idText sha256 classes
  keys : ∀ r ∈ requests, ∀ r' ∈ requests,
    deriveDedupeKey sha256 (r.evidence sha256 classes) = deriveDedupeKey sha256 (r'.evidence sha256 classes) →
      dedupeText (r.evidence sha256 classes) = dedupeText (r'.evidence sha256 classes)
  contents : ∀ r ∈ requests, ∀ r' ∈ requests,
    (r.evidence sha256 classes).contentSha256 = (r'.evidence sha256 classes).contentSha256 →
      (r.evidence sha256 classes).contentRedacted = (r'.evidence sha256 classes).contentRedacted

/-- The evidence of a request that was accepted. -/
structure Accepted (requests : List EvidenceRequest) (runs : Dict String RunOwner) (r : EvidenceRequest) : Prop where
  submitted : r ∈ requests
  valid : (r.evidence sha256 classes).valid = true
  owned : ownedByIncident runs (r.evidence sha256 classes) = true

structure Sound (requests : List EvidenceRequest) (s : EvidenceLog) : Prop where
  rows : ∀ row ∈ s.rows, ∃ r, Accepted sha256 classes requests s.runs r ∧
    row = ⟨r.evidence sha256 classes, deriveDedupeKey sha256 (r.evidence sha256 classes)⟩
  unique : (s.rows.map (·.evidence.evidenceRefId)).Nodup
  accepted : ∀ a ∈ s.answers, Accepted sha256 classes requests s.runs a.1
  stored : ∀ a ∈ s.answers, ∃ row ∈ s.rows, row.evidence = a.2
  identity : ∀ a ∈ s.answers, a.2.identity = (a.1.evidence sha256 classes).identity

variable {sha256 classes} {requests : List EvidenceRequest} {s t : EvidenceLog} {r r' : EvidenceRequest}

lemma Accepted.mono {runs runs' : Dict String RunOwner} (h : Accepted sha256 classes requests runs r)
    (hruns : ∀ run owner, runs.get? run = some owner → runs'.get? run = some owner) :
    Accepted sha256 classes requests runs' r := by
  refine ⟨h.submitted, h.valid, ?_⟩
  have howned := h.owned
  unfold ownedByIncident at howned ⊢
  cases hrun : (r.evidence sha256 classes).agentRunId with
  | none => rfl
  | some run =>
    rw [hrun] at howned
    obtain ⟨owner, howner, hsame⟩ := Option.any_eq_true _ _ |>.mp howned
    simp only [hruns run owner howner, Option.any_some]
    exact hsame

lemma incidentId_eq (r : EvidenceRequest) : (r.evidence sha256 classes).incidentId = r.incidentId := by
  cases r with
  | logRecord record incidentId createdBy now agentRunId => rfl
  | typed attribution agentRunId sourceRef content => rfl

lemma agentRunId_eq (r : EvidenceRequest) : (r.evidence sha256 classes).agentRunId = r.agentRunId := by
  cases r with
  | logRecord record incidentId createdBy now agentRunId => rfl
  | typed attribution agentRunId sourceRef content => rfl

lemma Accepted.incident_eq {runs : Dict String RunOwner} (h : Accepted sha256 classes requests runs r)
    (h' : Accepted sha256 classes requests runs r') (hrun : r.agentRunId = r'.agentRunId) (hsome : r.agentRunId ≠ none) :
    r.incidentId = r'.incidentId := by
  obtain ⟨run, hr⟩ := Option.ne_none_iff_exists'.mp hsome
  have hincident : ∀ {r : EvidenceRequest}, Accepted sha256 classes requests runs r → r.agentRunId = some run →
      ∃ owner, runs.get? run = some owner ∧ owner.incidentId = r.incidentId := by
    intro r h hr
    have howned := h.owned
    rw [ownedByIncident, agentRunId_eq, hr] at howned
    obtain ⟨owner, howner, hsame⟩ := Option.any_eq_true _ _ |>.mp howned
    simp only [Bool.and_eq_true, decide_eq_true_eq, incidentId_eq] at hsame
    exact ⟨owner, howner, hsame.1.1.1⟩
  obtain ⟨owner, howner, hsame⟩ := hincident h hr
  obtain ⟨owner', howner', hsame'⟩ := hincident h' (hrun ▸ hr)
  cases howner.symm.trans howner'
  exact hsame.symm.trans hsame'

lemma Undisturbed.identity_of_conflicts {runs : Dict String RunOwner} (hundisturbed : Undisturbed sha256 classes requests)
    (h : Accepted sha256 classes requests runs r) (h' : Accepted sha256 classes requests runs r')
    (hconflicts : conflicts sha256 (r.evidence sha256 classes)
      ⟨r'.evidence sha256 classes, deriveDedupeKey sha256 (r'.evidence sha256 classes)⟩ = true) :
    (r'.evidence sha256 classes).identity = (r.evidence sha256 classes).identity := by
  have hfilled := EvidenceRef.filled_of_valid h.valid
  have hfilled' := EvidenceRef.filled_of_valid h'.valid
  have hbarless := hundisturbed.barless r h.submitted
  have hbarless' := hundisturbed.barless r' h'.submitted
  rcases Bool.or_eq_true _ _ |>.mp hconflicts with hid | hkey
  · have hid := of_decide_eq_true hid
    rw [evidenceRefId_eq, evidenceRefId_eq] at hid
    have hshort := hundisturbed.ids r' h'.submitted r h.submitted (String.append_right_inj _ |>.mp hid)
    exact identity_of_idText hbarless' hbarless hfilled' hfilled hshort
  · have htext := hundisturbed.keys r' h'.submitted r h.submitted (of_decide_eq_true hkey)
    exact identity_of_dedupeText hbarless' hbarless hfilled' hfilled htext

lemma Sound.create (h : Sound sha256 classes requests s) (hundisturbed : Undisturbed sha256 classes requests)
    (hr : Accepted sha256 classes requests s.runs r) :
    ∃ rows found, create sha256 s.rows (r.evidence sha256 classes) = (rows, some found) ∧
      found.identity = (r.evidence sha256 classes).identity ∧ (∃ row ∈ rows, row.evidence = found) ∧
      (rows.map (·.evidence.evidenceRefId)).Nodup ∧
      ∀ row ∈ rows, row ∈ s.rows ∨ row = ⟨r.evidence sha256 classes, deriveDedupeKey sha256 (r.evidence sha256 classes)⟩ := by
  unfold Evidence.create insertOrIgnore
  by_cases hconflict : s.rows.any (conflicts sha256 (r.evidence sha256 classes)) = true
  · rw [if_pos hconflict]
    obtain ⟨row, hfound⟩ := Option.isSome_iff_exists.mp (find?_isSome.mpr (any_eq_true.mp hconflict))
    have hrow := mem_of_find?_eq_some hfound
    obtain ⟨r', hr', rfl⟩ := h.rows row hrow
    refine ⟨s.rows, r'.evidence sha256 classes, by simp only [hfound, Option.map_some], ?_, ⟨_, hrow, rfl⟩, h.unique,
      fun row hrow => .inl hrow⟩
    exact hundisturbed.identity_of_conflicts hr hr' (find?_some hfound)
  · rw [if_neg hconflict]
    have hnone : ∀ row ∈ s.rows, ¬ conflicts sha256 (r.evidence sha256 classes) row = true :=
      fun row hrow hc => hconflict (any_eq_true.mpr ⟨row, hrow, hc⟩)
    have hself : conflicts sha256 (r.evidence sha256 classes)
        ⟨r.evidence sha256 classes, deriveDedupeKey sha256 (r.evidence sha256 classes)⟩ = true := by
      simp [conflicts]
    have hadded := mem_append_right s.rows (mem_singleton_self
      (⟨r.evidence sha256 classes, deriveDedupeKey sha256 (r.evidence sha256 classes)⟩ : Row))
    refine ⟨_, r.evidence sha256 classes, ?_, rfl, ⟨_, hadded, rfl⟩, ?_, ?_⟩
    · have hfound : (s.rows ++ [(⟨r.evidence sha256 classes, deriveDedupeKey sha256 (r.evidence sha256 classes)⟩ : Row)]).find?
          (conflicts sha256 (r.evidence sha256 classes)) =
            some ⟨r.evidence sha256 classes, deriveDedupeKey sha256 (r.evidence sha256 classes)⟩ := by
        rw [find?_append, find?_eq_none.mpr hnone]
        simp only [Option.none_or, find?_cons, hself]
      dsimp only
      rw [hfound, Option.map_some]
    · rw [map_append, map_singleton, ← concat_eq_append]
      refine List.Nodup.concat (fun hmem => ?_) h.unique
      obtain ⟨row, hrow, hid⟩ := mem_map.mp hmem
      exact hnone row hrow (by simp [conflicts, hid])
    · intro row hrow
      rcases mem_append.mp hrow with hold | hnew
      · exact .inl hold
      · exact .inr (mem_singleton.mp hnew)

lemma create_keeps (sha256 : Sha256) (rows : List Row) (e : EvidenceRef) :
    ∀ row ∈ rows, row ∈ (Evidence.create sha256 rows e).1 := by
  intro row hrow
  unfold Evidence.create insertOrIgnore
  split_ifs
  · exact hrow
  · exact mem_append_left _ hrow

lemma Sound.submit (h : Sound sha256 classes requests s) (hundisturbed : Undisturbed sha256 classes requests)
    (hr : r ∈ requests) : Sound sha256 classes requests (s.submit sha256 classes r) := by
  unfold EvidenceLog.submit
  by_cases haccepted : (ownedByIncident s.runs (r.evidence sha256 classes) && (r.evidence sha256 classes).valid) = true
  · rw [if_pos haccepted]
    obtain ⟨howned, hvalid⟩ := Bool.and_eq_true_iff.mp haccepted
    have hnew : Accepted sha256 classes requests s.runs r := ⟨hr, hvalid, howned⟩
    have hkept := create_keeps sha256 s.rows (r.evidence sha256 classes)
    obtain ⟨rows, found, hcreate, hidentity, hfound, hunique, hrows⟩ := h.create hundisturbed hnew
    rw [hcreate] at hkept ⊢
    constructor
    · intro row hrow
      rcases hrows row hrow with hold | rfl
      · exact h.rows row hold
      · exact ⟨r, hnew, rfl⟩
    · exact hunique
    · intro a ha
      rcases mem_append.mp ha with hold | ha
      · exact h.accepted a hold
      · cases mem_singleton.mp ha
        exact hnew
    · intro a ha
      rcases mem_append.mp ha with hold | ha
      · obtain ⟨row, hrow, hevidence⟩ := h.stored a hold
        exact ⟨row, hkept row hrow, hevidence⟩
      · cases mem_singleton.mp ha
        exact hfound
    · intro a ha
      rcases mem_append.mp ha with hold | ha
      · exact h.identity a hold
      · cases mem_singleton.mp ha
        exact hidentity
  · rw [if_neg haccepted]
    exact h

lemma Sound.step {move : EvidenceMove} (h : Sound sha256 classes requests s)
    (hundisturbed : Undisturbed sha256 classes requests) (hmove : ∀ r, move = .submit r → r ∈ requests)
    (hstep : s.step sha256 classes move = some t) : Sound sha256 classes requests t := by
  cases move with
  | register run owner =>
    rw [EvidenceLog.step] at hstep
    cases hrun : s.runs.get? run with
    | some other =>
      rw [hrun] at hstep
      cases hstep
    | none =>
      rw [hrun] at hstep
      cases hstep
      have hruns : ∀ run' owner', s.runs.get? run' = some owner' → (s.runs.set run owner).get? run' = some owner' := by
        intro run' owner' howner'
        rw [Dict.get?_set_of_ne]
        · exact howner'
        · rintro rfl
          rw [hrun] at howner'
          cases howner'
      constructor
      · intro row hrow
        obtain ⟨r, hr, rfl⟩ := h.rows row hrow
        exact ⟨r, hr.mono hruns, rfl⟩
      · exact h.unique
      · exact fun a ha => (h.accepted a ha).mono hruns
      · exact h.stored
      · exact h.identity
  | submit request =>
    cases hstep
    exact h.submit hundisturbed (hmove request rfl)

/-! ### What is returned -/

/-- What is returned is stored, and can be read and listed under its incident. -/
structure Found (s : EvidenceLog) (found : EvidenceRef) : Prop where
  read : getEvidence s.rows found.evidenceRefId = some found
  listed : ∀ limit : ℤ, 1 ≤ limit → limit ≤ 1000 →
    ((s.rows.map Row.evidence).filter fun e => e.incidentId = found.incidentId).length ≤ limit →
      ∃ refs, listForIncident s.rows found.incidentId limit = some refs ∧ found ∈ refs

lemma Sound.found (h : Sound sha256 classes requests s) {a : EvidenceRequest × EvidenceRef} (ha : a ∈ s.answers) :
    Found s a.2 := by
  obtain ⟨row, hrow, hevidence⟩ := h.stored a ha
  constructor
  · have hsame : (s.rows.find? fun row => row.evidence.evidenceRefId = a.2.evidenceRefId).isSome = true :=
      find?_isSome.mpr ⟨row, hrow, by simp [hevidence]⟩
    obtain ⟨row', hfound⟩ := Option.isSome_iff_exists.mp hsame
    have hid : row'.evidence.evidenceRefId = row.evidence.evidenceRefId := by
      rw [hevidence]
      simpa using find?_some hfound
    have hrow' : row' = row := inj_on_of_nodup_map h.unique (mem_of_find?_eq_some hfound) hrow hid
    rw [getEvidence, hfound, hrow', Option.map_some, hevidence]
  · intro limit hleast hmost hlength
    refine ⟨_, if_pos ⟨hleast, hmost⟩, ?_⟩
    rw [take_of_length_le]
    · rw [mem_insertionSort, mem_filter, ← hevidence]
      exact ⟨mem_map_of_mem hrow, by simp⟩
    · rw [length_insertionSort]
      omega

lemma sameSource_of_identity (hundisturbed : Undisturbed sha256 classes requests) (hr : r ∈ requests) (hr' : r' ∈ requests)
    (h : (r.evidence sha256 classes).identity = (r'.evidence sha256 classes).identity) :
    SameSource (r.evidence sha256 classes) (r'.evidence sha256 classes) where
  evidenceKind := congrArg evidenceKind h
  agentRunId := congrArg agentRunId h
  projectId := congrArg projectId h
  targetId := congrArg targetId h
  serviceName := congrArg serviceName h
  sourceRef := congrArg sourceRef h
  sourceKind := congrArg sourceKind h
  scope := congrArg scope h
  cursor := congrArg cursor h
  contentRedacted := hundisturbed.contents r hr r' hr' (congrArg contentSha256 h)

lemma sound_run {moves : List EvidenceMove} (hrun : (evidenceLog sha256 classes).runFrom {} moves = some s)
    (hundisturbed : Undisturbed sha256 classes (submitted moves)) : Sound sha256 classes (submitted moves) s := by
  have hstart : Sound sha256 classes (submitted moves) {} := by
    constructor
    · exact fun row hrow => absurd hrow not_mem_nil
    · exact nodup_nil
    · exact fun a ha => absurd ha not_mem_nil
    · exact fun a ha => absurd ha not_mem_nil
    · exact fun a ha => absurd ha not_mem_nil
  have hreached : (evidenceLog sha256 classes).Reached (fun _ move => ∀ r, move = .submit r → r ∈ submitted moves) s := by
    refine System.Reached.start.runFrom moves (fun _ move hmove r hr => ?_) hrun
    subst hr
    exact mem_filterMap.mpr ⟨_, hmove, rfl⟩
  exact hreached.invariant hstart fun _ _ _ h hgood hstep => h.step hundisturbed hgood hstep

end

/-- In every history without bars in fields, requests with the same id agree on run, kind, source and content, and
on the incident if they name a run; what is returned is stored and listed under the incident it records. -/
theorem evidence_identified (sha256 : Sha256) (classes : CharClasses) (moves : List EvidenceMove) (s : EvidenceLog)
    (hrun : (evidenceLog sha256 classes).runFrom {} moves = some s)
    (hundisturbed : Undisturbed sha256 classes (submitted moves)) :
    (∀ a ∈ s.answers, ∀ a' ∈ s.answers, a.2.evidenceRefId = a'.2.evidenceRefId →
      SameSource (a.1.evidence sha256 classes) (a'.1.evidence sha256 classes) ∧
        (a.1.agentRunId ≠ none → a.1.incidentId = a'.1.incidentId)) ∧
    ∀ a ∈ s.answers, Found s a.2 ∧ SameSource a.2 (a.1.evidence sha256 classes) ∧
      (a.1.agentRunId ≠ none → a.2.incidentId = a.1.incidentId) := by
  have h := sound_run hrun hundisturbed
  have hstored : ∀ a ∈ s.answers, ∃ r, Accepted sha256 classes (submitted moves) s.runs r ∧ a.2 = r.evidence sha256 classes := by
    intro a ha
    obtain ⟨row, hrow, hevidence⟩ := h.stored a ha
    obtain ⟨r, hr, rfl⟩ := h.rows row hrow
    exact ⟨r, hr, hevidence.symm⟩
  constructor
  · intro a ha a' ha' hid
    obtain ⟨row, hrow, hevidence⟩ := h.stored a ha
    obtain ⟨row', hrow', hevidence'⟩ := h.stored a' ha'
    have hrows : row = row' := inj_on_of_nodup_map h.unique hrow hrow' (by rw [hevidence, hevidence', hid])
    have hsame : (a.1.evidence sha256 classes).identity = (a'.1.evidence sha256 classes).identity := by
      rw [← h.identity a ha, ← h.identity a' ha', ← hevidence, ← hevidence', hrows]
    have hsource := sameSource_of_identity hundisturbed (h.accepted a ha).submitted (h.accepted a' ha').submitted hsame
    have hruns := hsource.agentRunId
    rw [agentRunId_eq, agentRunId_eq] at hruns
    exact ⟨hsource, (h.accepted a ha).incident_eq (h.accepted a' ha') hruns⟩
  · intro a ha
    obtain ⟨r, hr, hreturned⟩ := hstored a ha
    have hidentity := h.identity a ha
    rw [hreturned] at hidentity
    have hsource := sameSource_of_identity hundisturbed hr.submitted (h.accepted a ha).submitted hidentity
    have hruns := hsource.agentRunId
    rw [agentRunId_eq, agentRunId_eq] at hruns
    refine ⟨h.found ha, hreturned ▸ hsource, fun hsome => ?_⟩
    rw [hreturned, incidentId_eq]
    exact ((h.accepted a ha).incident_eq hr hruns.symm hsome).symm

/-! ### One record, cited for two incidents -/

/-- The digests of the three texts of a record, and some other digits for every other text. -/
def sampleHexdigest (text : String) : String :=
  if text = "ERROR connection refused" then "3c237a1698314d0b62c5d170ca3ebdbc942f915a368a86d100e1f27c286a8136"
  else if text = "payments|dev-a|payment-api|file|host|/var/log/payment.log|120|3c237a1698314d0b62c5d170ca3ebdbc942f915a368a86d100e1f27c286a8136" then
    "d61ddf52273e28ba2f63cd0490c9723b7ed6fb04c19bf2c2f5d36cc079291163"
  else if text = "log_record||payments|dev-a|payment-api|/var/log/payment.log|file|host|120|\x7b\x7d|3c237a1698314d0b62c5d170ca3ebdbc942f915a368a86d100e1f27c286a8136" then
    "a7409dcf9642d4563c79aa3ac5620c9ff04d90180b4f9d2a4aef006925e2abe5"
  else "0000000000000000000000000000000000000000000000000000000000000000"

def sampleSha256 : Sha256 where
  hexdigest := sampleHexdigest
  length_hexdigest text := by
    unfold sampleHexdigest
    split_ifs <;> decide +kernel
  barless text := by
    unfold sampleHexdigest
    split_ifs <;> decide +kernel

def refused : LogRecord where
  logId := "log-1"
  subscriptionId := none
  projectId := "payments"
  targetId := "dev-a"
  serviceName := "payment-api"
  sourceKind := .file
  scope := .host
  sourceRef := "/var/log/payment.log"
  cursor := "120"
  dedupeKey := "dk-1"
  observedAt := 0
  severity := .error
  messageRedacted := "ERROR connection refused"

/-- The record is cited for an incident, by no run. -/
def cited (incidentId createdBy : String) (now : Time) : EvidenceRequest := .logRecord refused incidentId createdBy now none

lemma cited_undisturbed {requests : List EvidenceRequest}
    (h : ∀ r ∈ requests, ∃ incidentId createdBy now, r = cited incidentId createdBy now) :
    Undisturbed sampleSha256 .ascii requests := by
  constructor
  · intro r hr
    obtain ⟨incidentId, createdBy, now, rfl⟩ := h r hr
    exact ⟨(by decide +kernel : '|' ∉ "".toList), (by decide +kernel : '|' ∉ "payments".toList),
      (by decide +kernel : '|' ∉ "dev-a".toList), (by decide +kernel : '|' ∉ "payment-api".toList),
      (by decide +kernel : '|' ∉ "/var/log/payment.log".toList), (by decide +kernel : '|' ∉ "120".toList),
      (by decide +kernel : "120".toList.getLast? ≠ some '}')⟩
  · intro r hr r' hr' _
    obtain ⟨incidentId, createdBy, now, rfl⟩ := h r hr
    obtain ⟨incidentId', createdBy', now', rfl⟩ := h r' hr'
    rfl
  · intro r hr r' hr' _
    obtain ⟨incidentId, createdBy, now, rfl⟩ := h r hr
    obtain ⟨incidentId', createdBy', now', rfl⟩ := h r' hr'
    rfl
  · intro r hr r' hr' _
    obtain ⟨incidentId, createdBy, now, rfl⟩ := h r hr
    obtain ⟨incidentId', createdBy', now', rfl⟩ := h r' hr'
    rfl

theorem cited_once : ∃ s, (evidenceLog sampleSha256 .ascii).runFrom {} [.submit (cited "inc-1" "alice" 0)] = some s ∧
    ∀ a ∈ s.answers, Found s a.2 ∧ SameSource a.2 (a.1.evidence sampleSha256 .ascii) ∧
      (a.1.agentRunId ≠ none → a.2.incidentId = a.1.incidentId) := by
  refine ⟨_, rfl, (evidence_identified sampleSha256 .ascii [.submit (cited "inc-1" "alice" 0)] _ rfl ?_).2⟩
  refine cited_undisturbed fun r hr => ?_
  cases mem_singleton.mp hr
  exact ⟨_, _, _, rfl⟩

def twoCitations : List EvidenceMove := [.submit (cited "inc-1" "alice" 0), .submit (cited "inc-2" "bob" 3600)]

/-- The second incident gets the evidence of the first, and has none of its own. -/
theorem second_incident_empty : ∃ s, (evidenceLog sampleSha256 .ascii).runFrom {} twoCitations = some s ∧
    Undisturbed sampleSha256 .ascii (submitted twoCitations) ∧ ∃ a ∈ s.answers, ∃ a' ∈ s.answers,
      a.2.evidenceRefId = a'.2.evidenceRefId ∧ a.1.incidentId ≠ a'.1.incidentId ∧
        listForIncident s.rows a'.1.incidentId 10 = some [] := by
  refine ⟨_, rfl, cited_undisturbed fun r hr => ?_, ?_⟩
  · rcases mem_pair.mp hr with rfl | rfl
    · exact ⟨_, _, _, rfl⟩
    · exact ⟨_, _, _, rfl⟩
  · decide +kernel

end IncidentLens.Evidence
