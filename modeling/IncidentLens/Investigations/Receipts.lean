import IncidentLens.Effects.Runs
import IncidentLens.Investigations.Orchestrator

/-!
# Delivering child reports

One transaction notifies the parent of a child's report, attaches its evidence and marks the
receipt. The rows it writes come from a snapshot that was read before; that the snapshot is
still current is judged by `updated_at`, which moves with the status alone.
-/
namespace IncidentLens.Investigations.Receipts
open Data Effects StateError Table List

structure RunRecord extends AgentRun where
  updatedAt : Time
  deriving DecidableEq

/-- A row of `agent_runs`: its columns beside the record. -/
structure RunRow where
  agentRunId : String
  investigationId : String
  parentRunId : Option String
  kind : AgentRunKind
  status : AgentRunStatus
  updatedAt : Time
  record : RunRecord

structure InvestigationRecord extends Investigation where
  updatedAt : Time
  deriving DecidableEq

structure InvestigationRow where
  investigationId : String
  status : InvestigationStatus
  updatedAt : Time
  record : InvestigationRecord

structure TranscriptMessage where
  agentRunId : String
  sequence : ℕ
  text : String
  createdAt : Time
  deriving DecidableEq

structure Tables where
  runs : Table RunRow.agentRunId := .empty
  investigations : Table InvestigationRow.investigationId := .empty
  messages : List TranscriptMessage := []
  evidence : Table EvidenceRecord.evidenceId := .empty
  receipts : Table ChildReportReceipt.childRunId := .empty

inductive DeliveryError
  | keyError (key : String)
  | agentRunNotFound (text : String)
  | investigationNotFound (text : String)
  | concurrentModification (text : String)
  | valueError (text : String)
  | transcriptConflict (text : String)
  deriving DecidableEq

abbrev DeliveryM := StateError DeliveryError Tables

/-- A `datetime`, with or without a zone. -/
inductive Moment
  | aware (time : Time)
  | naive (time : Time)

/-! ### The transaction -/

def insertMessage (message : TranscriptMessage) : DeliveryM Unit := do
  if (← get).messages.any fun m => m.agentRunId = message.agentRunId ∧ m.sequence = message.sequence then
    throw (.transcriptConflict ("transcript message " ++ toString message.sequence ++ " already exists for run "
      ++ message.agentRunId))
  else modify fun tables => { tables with messages := tables.messages ++ [message] }

def RunRow.rewritten (row : RunRow) (record : RunRecord) : RunRow :=
  { row with record := record, status := record.status, updatedAt := record.updatedAt }

def InvestigationRow.rewritten (row : InvestigationRow) (record : InvestigationRecord) : InvestigationRow :=
  { row with record := record, status := record.status, updatedAt := record.updatedAt }

/-- `UPDATE agent_runs … WHERE agent_run_id = ? AND status = ? AND updated_at = ?`. -/
def rewriteRun (parent : RunRecord) (expected : Time) : DeliveryM Unit := do
  match (← get).runs.get parent.agentRunId with
  | none => throw (.agentRunNotFound ("agent run not found: " ++ parent.agentRunId))
  | some row =>
    if row.status = parent.status ∧ row.updatedAt = expected then
      modify fun tables => { tables with runs := tables.runs.put (row.rewritten parent) }
    else throw (.concurrentModification ("agent run " ++ parent.agentRunId ++ " status changed"))

def rewriteInvestigation (investigation : InvestigationRecord) (expected : Time) : DeliveryM Unit := do
  match (← get).investigations.get investigation.investigationId with
  | none => throw (.investigationNotFound ("investigation not found: " ++ investigation.investigationId))
  | some row =>
    if row.status = investigation.status ∧ row.updatedAt = expected then
      modify fun tables => { tables with investigations := tables.investigations.put (row.rewritten investigation) }
    else throw (.concurrentModification ("investigation " ++ investigation.investigationId ++ " status changed"))

/-- The relationships between what is stored and what is to be written. -/
def entitiesMatch (receipt : ChildReportReceipt) (parentRow : RunRow) (investigationRow : InvestigationRow)
    (parent : RunRecord) (investigation : InvestigationRecord) (notification : TranscriptMessage) : Bool :=
  parentRow.record.agentRunId = receipt.parentRunId
    && parentRow.record.kind = .parent
    && parentRow.record.parentRunId = none
    && parentRow.record.investigationId = investigationRow.record.investigationId
    && parentRow.parentRunId = none
    && parentRow.kind = .parent
    && parent.agentRunId = parentRow.record.agentRunId
    && parent.kind = .parent
    && parent.parentRunId = none
    && parent.investigationId = parentRow.record.investigationId
    && investigation.investigationId = investigationRow.record.investigationId
    && notification.agentRunId = parentRow.record.agentRunId

/-- `deliver_child_report_receipt`. -/
def deliverChildReportReceipt (childRunId : String) (parent : RunRecord) (investigation : InvestigationRecord)
    (notification : TranscriptMessage) (deliveredAt : Moment) : DeliveryM ChildReportReceipt := atomic do
  let tables ← get
  match tables.receipts.get childRunId with
  | none => throw (.keyError childRunId)
  | some receipt =>
    if receipt.deliveredAt ≠ none then return receipt
    else match tables.runs.get receipt.parentRunId with
    | none => throw (.agentRunNotFound ("agent run not found: " ++ receipt.parentRunId))
    | some parentRow => match tables.investigations.get parentRow.investigationId with
      | none => throw (.investigationNotFound ("investigation not found: " ++ parentRow.investigationId))
      | some investigationRow =>
        if parent.updatedAt ≠ parentRow.record.updatedAt then
          throw (.concurrentModification ("agent run " ++ parent.agentRunId ++ " snapshot is stale"))
        else if investigation.updatedAt ≠ investigationRow.record.updatedAt then
          throw (.concurrentModification ("investigation " ++ investigation.investigationId ++ " snapshot is stale"))
        else if entitiesMatch receipt parentRow investigationRow parent investigation notification = false then
          throw (.valueError "receipt delivery entities do not match persisted relationships")
        else match deliveredAt with
        | .naive _ => throw (.valueError "delivered_at must be timezone-aware")
        | .aware timestamp =>
          insertMessage notification
          rewriteRun parent parentRow.record.updatedAt
          rewriteInvestigation investigation investigationRow.record.updatedAt
          let updatedReceipt := { receipt with deliveredAt := some timestamp }
          modify fun tables => { tables with receipts := tables.receipts.put updatedReceipt }
          return updatedReceipt

section
variable {tables after : Tables} {childRunId : String} {parent : RunRecord} {investigation : InvestigationRecord}
  {notification : TranscriptMessage} {deliveredAt : Moment}

/-- The rows a delivery found, and what it wrote in their place. -/
structure Writes (childRunId : String) (parent : RunRecord) (investigation : InvestigationRecord)
    (notification : TranscriptMessage) (receipt : ChildReportReceipt) (timestamp : Time) (tables after : Tables) : Prop where
  found : tables.receipts.get childRunId = some receipt
  undelivered : receipt.deliveredAt = none
  own : parent.agentRunId = receipt.parentRunId
  notified : notification.agentRunId = receipt.parentRunId
  rows : ∃ row investigationRow, tables.runs.get parent.agentRunId = some row ∧
    tables.investigations.get investigation.investigationId = some investigationRow ∧
    after = { tables with
      messages := tables.messages ++ [notification]
      runs := tables.runs.put (row.rewritten parent)
      investigations := tables.investigations.put (investigationRow.rewritten investigation)
      receipts := tables.receipts.put { receipt with deliveredAt := some timestamp } }

lemma wp_insertMessage (Q : Except DeliveryError Unit → Tables → Prop)
    (hok : Q (.ok ⟨⟩) { tables with messages := tables.messages ++ [notification] })
    (hraise : ∀ e after, Q (.error e) after) : wp (insertMessage notification) Q tables := by
  simp only [insertMessage, wp_bind, wp_get]
  split_ifs
  · exact hraise _ _
  · exact hok

lemma wp_rewriteRun {expected : Time} (Q : Except DeliveryError Unit → Tables → Prop)
    (hok : ∀ row, tables.runs.get parent.agentRunId = some row → 
      Q (.ok ⟨⟩) { tables with runs := tables.runs.put (row.rewritten parent) })
    (hraise : ∀ e after, Q (.error e) after) : wp (rewriteRun parent expected) Q tables := by
  simp only [rewriteRun, wp_bind, wp_get]
  cases hrow : tables.runs.get parent.agentRunId with
  | none => exact hraise _ _
  | some row =>
    dsimp only
    split_ifs
    · exact hok row hrow
    · exact hraise _ _

lemma wp_rewriteInvestigation {expected : Time} (Q : Except DeliveryError Unit → Tables → Prop)
    (hok : ∀ row, tables.investigations.get investigation.investigationId = some row →
      Q (.ok ⟨⟩) { tables with investigations := tables.investigations.put (row.rewritten investigation) })
    (hraise : ∀ e after, Q (.error e) after) : wp (rewriteInvestigation investigation expected) Q tables := by
  simp only [rewriteInvestigation, wp_bind, wp_get]
  cases hrow : tables.investigations.get investigation.investigationId with
  | none => exact hraise _ _
  | some row =>
    dsimp only
    split_ifs
    · exact hok row hrow
    · exact hraise _ _

/-- A delivery raises and writes nothing, finds the receipt delivered and writes nothing, or writes all
four tables. -/
theorem wp_deliver (Q : Except DeliveryError ChildReportReceipt → Tables → Prop)
    (hraise : ∀ e, Q (.error e) tables)
    (hdelivered : ∀ receipt, tables.receipts.get childRunId = some receipt → receipt.deliveredAt ≠ none →
      Q (.ok receipt) tables)
    (hwrites : ∀ receipt timestamp after, deliveredAt = .aware timestamp →
      Writes childRunId parent investigation notification receipt timestamp tables after →
        Q (.ok { receipt with deliveredAt := some timestamp }) after) :
    wp (deliverChildReportReceipt childRunId parent investigation notification deliveredAt) Q tables := by
  rw [deliverChildReportReceipt, wp_atomic, wp_bind, wp_get]
  dsimp only
  cases hreceipt : tables.receipts.get childRunId with
  | none => exact hraise _
  | some receipt =>
    dsimp only
    by_cases hopen : receipt.deliveredAt = none
    · rw [if_neg (not_not.mpr hopen)]
      cases hparent : tables.runs.get receipt.parentRunId with
      | none => exact hraise _
      | some parentRow =>
        dsimp only
        cases hinvestigation : tables.investigations.get parentRow.investigationId with
        | none => exact hraise _
        | some investigationRow =>
          dsimp only
          split_ifs with hstale hstale' hmatch
          · exact hraise _
          · exact hraise _
          · exact hraise _
          · cases deliveredAt with
            | naive _ => exact hraise _
            | aware timestamp =>
              simp only [entitiesMatch, Bool.and_eq_false_iff, decide_eq_false_iff_not, not_or, not_not] at hmatch
              obtain ⟨⟨⟨⟨⟨⟨⟨⟨⟨⟨⟨hkey, -⟩, -⟩, -⟩, -⟩, -⟩, hsame⟩, -⟩, -⟩, -⟩, -⟩, hnote⟩ := hmatch
              dsimp only
              rw [wp_bind]
              refine wp_insertMessage _ ?_ fun e after => hraise e
              dsimp only
              rw [wp_bind]
              refine wp_rewriteRun _ (fun row hrow => ?_) fun e after => hraise e
              dsimp only
              rw [wp_bind]
              refine wp_rewriteInvestigation _ (fun investigationRow hinvestigationRow => ?_) fun e after => hraise e
              exact hwrites receipt timestamp _ rfl ⟨hreceipt, hopen, hsame.trans hkey, hnote.trans hkey, row,
                investigationRow, hrow, hinvestigationRow, rfl⟩
    · rw [if_pos hopen]
      exact hdelivered receipt hreceipt hopen

end

/-! ### Deliverers -/

/-- What `_deliver_pending_child_reports` has read for one receipt. -/
structure Snapshot where
  receipt : ChildReportReceipt
  run : RunRecord
  investigation : InvestigationRecord
  ref : EvidenceReference

/-- A deliverer between two accesses to the store. -/
inductive Deliverer
  | listed (receipt : ChildReportReceipt)
  | withRun (receipt : ChildReportReceipt) (run : RunRecord)
  | withInvestigation (receipt : ChildReportReceipt) (run : RunRecord) (investigation : InvestigationRecord)
  | withEvidence (snapshot : Snapshot)
  | ready (snapshot : Snapshot) (sequence : ℕ)

def childReference (receipt : ChildReportReceipt) (evidence : EvidenceRecord) : EvidenceReference :=
  ⟨receipt.evidenceId, "child:" ++ receipt.childRunId, String.ofList (evidence.contentRedacted.toList.take 2000)⟩

/-- `_next_sequence`. -/
def nextSequence (messages : List TranscriptMessage) (agentRunId : String) : ℕ :=
  ((messages.filter fun m => m.agentRunId = agentRunId).map (·.sequence)).foldr max 0 + 1

def statusValue : ChildReportStatus → String
  | .complete => "complete"
  | .incomplete => "partial"

namespace Snapshot

/-- The snapshot with the evidence attached; `none` where a budget is exhausted. -/
def attach (s : Snapshot) : Option (RunRecord × InvestigationRecord) :=
  (appendEvidence s.run.toAgentRun s.investigation.toInvestigation [s.ref]).map fun attached =>
    ({ s.run with toAgentRun := attached.1 },
      { s.investigation with usage := { s.investigation.usage with
          evidenceCount := s.investigation.usage.evidenceCount + attached.2 } })

def notification (s : Snapshot) (sequence : ℕ) (now : Time) : TranscriptMessage :=
  ⟨s.run.agentRunId, sequence, "Child report " ++ s.receipt.report.agentRunId ++ " ("
    ++ statusValue s.receipt.report.status ++ "): "
    ++ String.ofList (s.receipt.report.summary.toList.take 600), now⟩

/-- What the stored rows count and cite is what was read. -/
structure Current (s : Snapshot) (tables : Tables) : Prop where
  run : ∀ row, tables.runs.get s.run.agentRunId = some row →
    row.record.evidence = s.run.evidence ∧ row.record.usage = s.run.usage
  investigation : ∀ row, tables.investigations.get s.investigation.investigationId = some row →
    row.record.usage = s.investigation.usage
  counted : s.run.usage.evidenceCount = s.run.evidence.length

end Snapshot

/-- The next read of a deliverer; `none` where it raises. -/
def Deliverer.read (tables : Tables) : Deliverer → Option Deliverer
  | .listed receipt => (tables.runs.get receipt.parentRunId).map fun row => .withRun receipt row.record
  | .withRun receipt run =>
    (tables.investigations.get run.investigationId).map fun row => .withInvestigation receipt run row.record
  | .withInvestigation receipt run investigation =>
    (tables.evidence.get receipt.evidenceId).map fun evidence =>
      .withEvidence ⟨receipt, run, investigation, childReference receipt evidence⟩
  | .withEvidence snapshot =>
    snapshot.attach.map fun _ => .ready snapshot (nextSequence tables.messages snapshot.run.agentRunId)
  | .ready _ _ => none

/-- A delivery that was written, with the tables before and after it. -/
structure Commit where
  snapshot : Snapshot
  notification : TranscriptMessage
  deliveredAt : Time
  before : Tables
  after : Tables

def Commit.childRunId (k : Commit) : String := k.snapshot.receipt.childRunId

structure Deliveries where
  tables : Tables
  deliverers : List Deliverer := []
  log : List Commit := []

/-- Any number of deliverers take their steps in any order and may stop at any point; `put` is a
child that ends, and `write` whatever else is written. -/
inductive DeliveryMove
  | list (childRunId : String)
  | read (i : ℕ)
  | deliver (i : ℕ) (now : Time)
  | crash (i : ℕ)
  | put (receipt : ChildReportReceipt)
  | write (runs : Table RunRow.agentRunId) (investigations : Table InvestigationRow.investigationId)
      (messages : List TranscriptMessage) (evidence : Table EvidenceRecord.evidenceId)

namespace Deliveries

/-- The transaction of a deliverer that has read all it needs. -/
def commit (s : Deliveries) (i : ℕ) (snapshot : Snapshot) (parent : RunRecord) (investigation : InvestigationRecord)
    (notification : TranscriptMessage) (now : Time) : Deliveries :=
  let childRunId := snapshot.receipt.childRunId
  let out := (deliverChildReportReceipt childRunId parent investigation notification (.aware now)).exec s.tables
  { tables := out.2
    deliverers := s.deliverers.eraseIdx i
    log := s.log ++
      if out.1.isOk ∧ (s.tables.receipts.get childRunId).any (·.deliveredAt = none) then
        [⟨snapshot, notification, now, s.tables, out.2⟩]
      else [] }

def step (s : Deliveries) : DeliveryMove → Option Deliveries
  | .list childRunId => do
    let receipt ← s.tables.receipts.get childRunId
    if receipt.deliveredAt = none then some { s with deliverers := s.deliverers ++ [.listed receipt] } else none
  | .read i => do
    let deliverer ← s.deliverers[i]?
    match deliverer.read s.tables with
    | some next => some { s with deliverers := s.deliverers.set i next }
    | none => some { s with deliverers := s.deliverers.eraseIdx i }
  | .deliver i now => do
    match ← s.deliverers[i]? with
    | .ready snapshot sequence =>
      let (parent, investigation) ← snapshot.attach
      some (s.commit i snapshot parent investigation (snapshot.notification sequence now) now)
    | _ => none
  | .crash i => some { s with deliverers := s.deliverers.eraseIdx i }
  | .put receipt =>
    if receipt.deliveredAt = none ∧ (s.tables.receipts.get receipt.childRunId).isNone then
      some { s with tables := { s.tables with receipts := s.tables.receipts.put receipt } }
    else none
  | .write runs investigations messages evidence =>
    some { s with tables := { s.tables with
      runs := runs, investigations := investigations, messages := messages, evidence := evidence } }

end Deliveries

def delivering (tables : Tables) : System Deliveries DeliveryMove where
  init := ⟨tables, [], []⟩
  step := Deliveries.step

/-- A delivery writes from a snapshot that is current, or finds its receipt delivered. -/
def FromCurrent (s : Deliveries) : DeliveryMove → Prop
  | .deliver i _ => ∀ snapshot sequence, s.deliverers[i]? = some (.ready snapshot sequence) →
      (∃ r, s.tables.receipts.get snapshot.receipt.childRunId = some r ∧ r.deliveredAt ≠ none) ∨
        snapshot.Current s.tables
  | _ => True

/-! ### What a delivery does -/

/-- The references of a run with one more, unless it is there. -/
def attachOnce (evidence : List EvidenceReference) (ref : EvidenceReference) : List EvidenceReference :=
  if ref.evidenceId ∈ evidence.map (·.evidenceId) then evidence else evidence ++ [ref]

def countAttached (usage : UsageCounters) (evidence : List EvidenceReference) (ref : EvidenceReference) :
    UsageCounters :=
  { usage with evidenceCount := usage.evidenceCount + ((attachOnce evidence ref).length - evidence.length) }

/-- One notification, one reference and one count for an undelivered receipt, which is marked. -/
structure DeliveredOnce (k : Commit) : Prop where
  marked : ∃ stored, k.before.receipts.get k.childRunId = some stored ∧ stored.deliveredAt = none ∧
    stored.parentRunId = k.snapshot.run.agentRunId ∧
    k.after.receipts = k.before.receipts.put { stored with deliveredAt := some k.deliveredAt }
  notified : k.notification.agentRunId = k.snapshot.run.agentRunId ∧
    k.after.messages = k.before.messages ++ [k.notification]
  rows : ∃ row row' own own', k.before.runs.get k.snapshot.run.agentRunId = some row ∧
    k.before.investigations.get k.snapshot.investigation.investigationId = some own ∧
    k.after.runs = k.before.runs.put row' ∧ row'.agentRunId = row.agentRunId ∧
    k.after.investigations = k.before.investigations.put own' ∧ own'.investigationId = own.investigationId ∧
    row'.record.evidence = attachOnce row.record.evidence k.snapshot.ref ∧
    row'.record.usage = countAttached row.record.usage row.record.evidence k.snapshot.ref ∧
    own'.record.usage = countAttached own.record.usage row.record.evidence k.snapshot.ref

/-- Whatever the deliverers did, each receipt was delivered at most once, and as it should be. -/
structure ExactlyOnce (before : Tables) (s : Deliveries) : Prop where
  once : (s.log.map Commit.childRunId).Nodup
  effect : ∀ k ∈ s.log, DeliveredOnce k
  marked : ∀ k ∈ s.log, ∃ r, s.tables.receipts.get k.childRunId = some r ∧ r.deliveredAt = some k.deliveredAt
  logged : ∀ childRunId r, s.tables.receipts.get childRunId = some r → r.deliveredAt ≠ none →
    (∃ r₀, before.receipts.get childRunId = some r₀ ∧ r₀.deliveredAt ≠ none) ∨ childRunId ∈ s.log.map Commit.childRunId

section
variable {before : Tables} {s t : Deliveries} {snapshot : Snapshot} {parent : RunRecord}
  {investigation : InvestigationRecord}

lemma attach_spec (h : snapshot.attach = some (parent, investigation)) :
    parent.agentRunId = snapshot.run.agentRunId ∧ investigation.investigationId = snapshot.investigation.investigationId ∧
      parent.evidence = attachOnce snapshot.run.evidence snapshot.ref ∧
      (snapshot.run.usage.evidenceCount = snapshot.run.evidence.length →
        parent.usage = countAttached snapshot.run.usage snapshot.run.evidence snapshot.ref) ∧ investigation.usage =
        countAttached snapshot.investigation.usage snapshot.run.evidence snapshot.ref := by
  obtain ⟨⟨run, added⟩, happend, hpair⟩ := Option.map_eq_some_iff.mp h
  cases hpair
  unfold appendEvidence at happend
  by_cases hmem : snapshot.ref.evidenceId ∈ snapshot.run.evidence.map (·.evidenceId)
  · have hnone : [snapshot.ref].filter (fun ref =>
        !(snapshot.run.evidence.map (·.evidenceId)).contains ref.evidenceId) = [] := by
      simpa using hmem
    rw [hnone] at happend
    cases happend
    simp [attachOnce, hmem, countAttached]
  · have hone : [snapshot.ref].filter (fun ref =>
        !(snapshot.run.evidence.map (·.evidenceId)).contains ref.evidenceId) = [snapshot.ref] := by
      simpa using hmem
    rw [hone] at happend
    simp only [cons_ne_nil, if_false] at happend
    split_ifs at happend
    cases happend
    refine ⟨rfl, rfl, ?_, fun hcounted => ?_, ?_⟩
    · simp [attachOnce, hmem]
    · simp [attachOnce, hmem, countAttached, hcounted]
    · simp [attachOnce, hmem, countAttached]

lemma Writes.deliveredOnce {notification : TranscriptMessage} {receipt : ChildReportReceipt} {timestamp : Time}
    {tables after : Tables} (hcurrent : snapshot.Current tables)
    (hattach : snapshot.attach = some (parent, investigation))
    (h : Writes snapshot.receipt.childRunId parent investigation notification receipt timestamp tables after) :
    DeliveredOnce ⟨snapshot, notification, timestamp, tables, after⟩ := by
  obtain ⟨hid, hown, hevidence, husage, hcount⟩ := attach_spec hattach
  obtain ⟨row, own, hrow, hinv, rfl⟩ := h.rows
  rw [hid] at hrow
  rw [hown] at hinv
  obtain ⟨hsame, hsameUsage⟩ := hcurrent.run row hrow
  refine ⟨⟨receipt, h.found, h.undelivered, h.own.symm.trans hid, rfl⟩,
    ⟨h.notified.trans (h.own.symm.trans hid), rfl⟩,
    row, row.rewritten parent, own, own.rewritten investigation, hrow, hinv, rfl, rfl, rfl, rfl, ?_, ?_, ?_⟩
  · rw [hsame]
    exact hevidence
  · rw [hsame, hsameUsage]
    exact husage hcurrent.counted
  · rw [hsame, hcurrent.investigation own hinv]
    exact hcount

/-! ### Runs -/

lemma ExactlyOnce.aside (hs : ExactlyOnce before s) (hlog : t.log = s.log)
    (hreceipts : t.tables.receipts = s.tables.receipts) : ExactlyOnce before t := by
  refine ⟨hlog ▸ hs.once, ?_, ?_, ?_⟩
  · rw [hlog]
    exact hs.effect
  · rw [hlog, hreceipts]
    exact hs.marked
  · rw [hlog, hreceipts]
    exact hs.logged

lemma ExactlyOnce.commit (hs : ExactlyOnce before s) {i : ℕ} {notification : TranscriptMessage} {now : Time}
    (hattach : snapshot.attach = some (parent, investigation))
    (hcurrent : (∃ r, s.tables.receipts.get snapshot.receipt.childRunId = some r ∧ r.deliveredAt ≠ none) ∨
      snapshot.Current s.tables) :
    ExactlyOnce before (s.commit i snapshot parent investigation notification now) := by
  have hrule := @wp_deliver s.tables snapshot.receipt.childRunId parent investigation notification (.aware now)
    (fun result after => ExactlyOnce before { s with
      tables := after
      deliverers := s.deliverers.eraseIdx i
      log := s.log ++
        if result.isOk ∧ (s.tables.receipts.get snapshot.receipt.childRunId).any (·.deliveredAt = none) then
          [⟨snapshot, notification, now, s.tables, after⟩]
        else [] })
  refine hrule ?_ ?_ ?_
  · intro e
    exact hs.aside (by simp [Except.isOk, Except.toBool]) rfl
  · intro receipt hfound hdelivered
    exact hs.aside (by simp [hfound, hdelivered]) rfl
  · rintro receipt timestamp after ⟨⟩ hwrites
    have hopen := hwrites.undelivered
    have hreceipts : after.receipts = s.tables.receipts.put { receipt with deliveredAt := some now } := by
      obtain ⟨row, own, -, -, rfl⟩ := hwrites.rows
      rfl
    have hkey : receipt.childRunId = snapshot.receipt.childRunId := s.tables.receipts.keyed _ _ hwrites.found
    have hput : after.receipts.get snapshot.receipt.childRunId = some { receipt with deliveredAt := some now } := by
      rw [hreceipts, ← hkey]
      exact get_put_self _ _
    have hother : ∀ id, id ≠ snapshot.receipt.childRunId → after.receipts.get id = s.tables.receipts.get id := by
      intro id hid
      rw [hreceipts]
      exact get_put_of_ne _ (by rw [← hkey] at hid; exact hid)
    have hnew : snapshot.receipt.childRunId ∉ s.log.map Commit.childRunId := by
      intro hmem
      obtain ⟨k, hk, hid⟩ := mem_map.mp hmem
      obtain ⟨r, hr, hdelivered⟩ := hs.marked k hk
      rw [hid, hwrites.found] at hr
      cases hr
      rw [hopen] at hdelivered
      cases hdelivered
    have hcurrent : snapshot.Current s.tables := by
      refine hcurrent.resolve_left ?_
      rintro ⟨r, hr, hdelivered⟩
      rw [hwrites.found] at hr
      cases hr
      exact hdelivered hopen
    have hlog : (Except.isOk (Except.ok { receipt with deliveredAt := some now } : Except DeliveryError _) ∧
        (s.tables.receipts.get snapshot.receipt.childRunId).any (·.deliveredAt = none)) := by
      simp [hwrites.found, hopen, Except.isOk, Except.toBool]
    rw [if_pos hlog]
    constructor
    · rw [map_append]
      refine List.Nodup.append hs.once (nodup_singleton _) ?_
      intro id hid hid'
      rw [map_singleton, mem_singleton] at hid'
      rw [hid'] at hid
      exact hnew hid
    · intro k hk
      rcases mem_append.mp hk with hk | hk
      · exact hs.effect k hk
      · rw [mem_singleton.mp hk]
        exact hwrites.deliveredOnce hcurrent hattach
    · intro k hk
      rcases mem_append.mp hk with hk | hk
      · obtain ⟨r, hr, hdelivered⟩ := hs.marked k hk
        refine ⟨r, ?_, hdelivered⟩
        have hid : k.childRunId ≠ snapshot.receipt.childRunId := fun hid => hnew (hid ▸ mem_map_of_mem hk)
        exact (hother _ hid).trans hr
      · rw [mem_singleton.mp hk]
        exact ⟨_, hput, rfl⟩
    · intro id r hr hdelivered
      rw [map_append]
      by_cases hid : id = snapshot.receipt.childRunId
      · exact .inr (mem_append_right _ (by simp [Commit.childRunId, hid]))
      · refine (hs.logged id r ?_ hdelivered).imp_right fun hmem => mem_append_left _ hmem
        exact (hother id hid).symm.trans hr

lemma ExactlyOnce.put (hs : ExactlyOnce before s) {receipt : ChildReportReceipt} (hopen : receipt.deliveredAt = none)
    (hnew : s.tables.receipts.get receipt.childRunId = none) :
    ExactlyOnce before { s with tables := { s.tables with receipts := s.tables.receipts.put receipt } } := by
  refine ⟨hs.once, hs.effect, fun k hk => ?_, fun id r hr hdelivered => ?_⟩
  · obtain ⟨r, hr, hdelivered⟩ := hs.marked k hk
    refine ⟨r, ?_, hdelivered⟩
    rw [← hr]
    refine get_put_of_ne _ fun hid => ?_
    rw [hid, hnew] at hr
    cases hr
  · refine hs.logged id r ?_ hdelivered
    rw [← hr]
    refine (get_put_of_ne _ fun hid => ?_).symm
    subst hid
    rw [get_put_self] at hr
    cases hr
    exact hdelivered hopen

lemma ExactlyOnce.step {move : DeliveryMove} (hs : ExactlyOnce before s) (hmove : FromCurrent s move)
    (hstep : s.step move = some t) : ExactlyOnce before t := by
  cases move with
  | list childRunId =>
    obtain ⟨receipt, -, hstep⟩ := Option.bind_eq_some_iff.mp hstep
    split_ifs at hstep
    cases hstep
    exact hs.aside rfl rfl
  | read i =>
    obtain ⟨deliverer, -, hstep⟩ := Option.bind_eq_some_iff.mp hstep
    cases hread : deliverer.read s.tables with
    | none =>
      rw [hread] at hstep
      cases hstep
      exact hs.aside rfl rfl
    | some next =>
      rw [hread] at hstep
      cases hstep
      exact hs.aside rfl rfl
  | deliver i now =>
    obtain ⟨deliverer, hdeliverer, hstep⟩ := Option.bind_eq_some_iff.mp hstep
    cases deliverer with
    | ready snapshot sequence =>
      obtain ⟨⟨parent, investigation⟩, hattach, hstep⟩ := Option.bind_eq_some_iff.mp hstep
      cases hstep
      exact hs.commit hattach (hmove snapshot sequence hdeliverer)
    | _ => cases hstep
  | crash i =>
    cases hstep
    exact hs.aside rfl rfl
  | put receipt =>
    simp only [Deliveries.step] at hstep
    split_ifs at hstep with hguard
    cases hstep
    exact hs.put hguard.1 (Option.isNone_iff_eq_none.mp hguard.2)
  | write runs investigations messages evidence =>
    cases hstep
    exact hs.aside rfl rfl

end

/-- A delivery that raises changes no table, and where every delivery writes from a current
snapshot each receipt is delivered at most once and exactly as it should be. -/
theorem delivery_exactly_once (tables : Tables) :
    (∀ (childRunId : String) (parent : RunRecord) (investigation : InvestigationRecord)
        (notification : TranscriptMessage) (deliveredAt : Moment),
      wp (deliverChildReportReceipt childRunId parent investigation notification deliveredAt)
        (fun result after => ∀ e, result = .error e → after = tables) tables) ∧
      ∀ s : Deliveries, (delivering tables).Reached FromCurrent s → ExactlyOnce tables s := by
  constructor
  · intro childRunId parent investigation notification deliveredAt
    refine wp_deliver _ (fun _ _ _ => rfl) ?_ ?_
    · rintro receipt - - e ⟨⟩
    · rintro receipt timestamp after - - e ⟨⟩
  · intro s hs
    have hinit : ExactlyOnce tables (delivering tables).init :=
      ⟨nodup_nil, fun _ hk => (not_mem_nil hk).elim, fun _ hk => (not_mem_nil hk).elim,
        fun _ r hr hdelivered => .inl ⟨r, hr, hdelivered⟩⟩
    exact hs.invariant hinit fun _ _ _ hinv hmove hstep => hinv.step hmove hstep

def waitingRecord : RunRecord := ⟨⟨"run-1", "inv-1", none, .parent, .waitingChildren, {}, {}, none, [], none⟩, 0⟩

def openRecord : InvestigationRecord := ⟨⟨"inv-1", .running, {}, {}, none, none⟩, 0⟩

def endedChild (childRunId evidenceId : String) : ChildReportReceipt :=
  ⟨childRunId, "run-1", ⟨childRunId, "run-1", .complete, "done", [], [], .completed, 0⟩, evidenceId, none⟩

def twoReports : Tables where
  runs := empty.put ⟨"run-1", "inv-1", none, .parent, .waitingChildren, 0, waitingRecord⟩
  investigations := empty.put ⟨"inv-1", .running, 0, openRecord⟩
  evidence := (empty.put ⟨"ev-1", "first"⟩).put ⟨"ev-2", "second"⟩
  receipts := (empty.put (endedChild "child-1" "ev-1")).put (endedChild "child-2" "ev-2")

/-- Both deliverers read the parent before either delivers; the second one takes its sequence after the
first delivery. -/
def crossedDeliveries : List DeliveryMove :=
  [.list "child-1", .list "child-2", .read 0, .read 0, .read 0, .read 1, .read 1, .read 1,
    .read 0, .deliver 0 1, .read 0, .deliver 0 2]

/-- The second delivery takes the first one's reference and its count away again. -/
theorem first_report_lost :
    ((delivering twoReports).runFrom ⟨twoReports, [], []⟩ crossedDeliveries).map (fun s =>
      (s.log.map Commit.childRunId, s.tables.messages.length,
        (s.tables.runs.get "run-1").map fun row =>
          (row.record.evidence.map (·.evidenceId), row.record.usage.evidenceCount))) =
        some (["child-1", "child-2"], 2, some (["ev-2"], 1)) ∧
      ∃ s, (delivering twoReports).runFrom ⟨twoReports, [], []⟩ crossedDeliveries = some s ∧
        ¬ ExactlyOnce twoReports s := by
  refine ⟨rfl, _, rfl, fun h => ?_⟩
  obtain ⟨row, row', own, own', hrow, -, hafter, hid, -, -, hevidence, -⟩ :=
    (h.effect _ (mem_cons_of_mem _ mem_cons_self)).rows
  cases hrow
  have hlength : (row'.record.evidence.map (·.evidenceId)) = ["ev-1", "ev-2"] := by
    rw [hevidence]
    rfl
  have hget := congrArg (fun runs => (runs.get "run-1").map fun row => row.record.evidence.map (·.evidenceId)) hafter
  simp only [get_put] at hget
  rw [if_pos (by rw [hid]; rfl)] at hget
  have hlost : ["ev-2"] = ["ev-1", "ev-2"] := Option.some.inj (hget.trans (congrArg some hlength))
  exact absurd hlost (by decide)

theorem reports_delivered :
    ∃ s, (delivering twoReports).runFrom ⟨twoReports, [], []⟩
        [.list "child-1", .read 0, .read 0, .read 0, .read 0, .deliver 0 1] = some s ∧
      s.log.map Commit.childRunId = ["child-1"] ∧ ExactlyOnce twoReports s := by
  refine ⟨_, rfl, rfl, ?_⟩
  refine (delivery_exactly_once twoReports).2 _ ?_
  refine .next (.deliver 0 1) (.next (.read 0) (.next (.read 0) (.next (.read 0) (.next (.read 0)
    (.next (.list "child-1") .start trivial rfl) trivial rfl) trivial rfl) trivial rfl) trivial rfl) ?_ rfl
  rintro snapshot sequence ⟨⟩
  refine .inr ⟨?_, ?_, rfl⟩
  · rintro row ⟨⟩
    exact ⟨rfl, rfl⟩
  · rintro row ⟨⟩
    rfl

end IncidentLens.Investigations.Receipts
