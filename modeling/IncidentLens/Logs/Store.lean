import Mathlib.Data.List.Nodup
import IncidentLens.Logs.Sources

/-!
# The log store

Log records are inserted unless a stored one has the same id or the same dedupe key, and a
new row takes the next number of the product-wide stream sequence. One cursor is stored for
each subscription.
-/
namespace IncidentLens.Logs

open List

inductive LogSeverity
  | trace | debug | info | notice | warn | error | critical | unknown
  deriving DecidableEq

def LogSeverity.value : LogSeverity → String
  | trace => "trace"
  | debug => "debug"
  | info => "info"
  | notice => "notice"
  | warn => "warn"
  | error => "error"
  | critical => "critical"
  | unknown => "unknown"

inductive LogSourceKind
  | file | docker
  deriving DecidableEq

def LogSourceKind.value : LogSourceKind → String
  | file => "file"
  | docker => "docker"

inductive LogScope
  | host | container
  deriving DecidableEq

def LogScope.value : LogScope → String
  | host => "host"
  | container => "container"

structure LogRecord where
  logId : String
  subscriptionId : Option String
  projectId : String
  targetId : String
  serviceName : String
  sourceKind : LogSourceKind
  scope : LogScope
  sourceRef : String
  cursor : String
  dedupeKey : String
  observedAt : Time
  severity : LogSeverity
  messageRedacted : String
  streamSequence : ℕ := 0
  deriving DecidableEq

/-- `SELECT COALESCE(MAX(stream_sequence), 0)`. -/
def latestProductSequence (rows : List LogRecord) : ℕ := (rows.map LogRecord.streamSequence).foldr max 0

def conflicts (rows : List LogRecord) (record : LogRecord) : Bool :=
  rows.any fun row => row.logId = record.logId || row.dedupeKey = record.dedupeKey

/-- `INSERT OR IGNORE` of one record under the next sequence number. -/
def insertOrIgnore (rows : List LogRecord) (record : LogRecord) : List LogRecord :=
  if conflicts rows record then rows
  else rows ++ [{ record with streamSequence := latestProductSequence rows + 1 }]

/-- The rows after a batch, and the records of the batch that were not ignored. -/
def appendBatch (rows records : List LogRecord) : List LogRecord × List LogRecord :=
  records.foldl (fun s record =>
    (insertOrIgnore s.1 record, if conflicts s.1 record then s.2 else s.2 ++ [record])) (rows, [])

/-- The rows, in the order of their insertion, and the cursor of each subscription. -/
structure LogDatabase where
  rows : List LogRecord
  cursors : String → Option LogCursor

def LogDatabase.getCursor (db : LogDatabase) (subscriptionId : String) : Option LogCursor := db.cursors subscriptionId

def LogDatabase.upsertCursor (db : LogDatabase) (subscriptionId : String) (cursor : LogCursor) : LogDatabase :=
  { db with cursors := Function.update db.cursors subscriptionId (some cursor) }

/-! ### Batches -/

def Stored (rows : List LogRecord) (dedupeKey : String) : Prop := ∃ row ∈ rows, row.dedupeKey = dedupeKey

lemma appendBatch_fst (rows records : List LogRecord) :
    (appendBatch rows records).1 = records.foldl insertOrIgnore rows := by
  suffices h : ∀ s : List LogRecord × List LogRecord, (records.foldl (fun s record =>
      (insertOrIgnore s.1 record, if conflicts s.1 record then s.2 else s.2 ++ [record])) s).1 =
      records.foldl insertOrIgnore s.1 from h (rows, [])
  induction records with
  | nil => exact fun _ => rfl
  | cons record records ih => exact fun s => ih _

lemma prefix_insertOrIgnore (rows : List LogRecord) (record : LogRecord) : rows <+: insertOrIgnore rows record := by
  unfold insertOrIgnore
  split_ifs
  · exact prefix_refl _
  · exact prefix_append _ _

lemma prefix_appendBatch (rows records : List LogRecord) : rows <+: (appendBatch rows records).1 := by
  rw [appendBatch_fst]
  induction records generalizing rows with
  | nil => exact prefix_refl _
  | cons record records ih => exact (prefix_insertOrIgnore rows record).trans (ih _)

lemma Stored.mono {rows rows' : List LogRecord} {key : String} (h : Stored rows key) (hrows : rows <+: rows') :
    Stored rows' key := by
  obtain ⟨row, hrow, hkey⟩ := h
  exact ⟨row, hrows.subset hrow, hkey⟩

lemma stored_insertOrIgnore {rows : List LogRecord} {record : LogRecord}
    (hid : ∀ row ∈ rows, row.logId ≠ record.logId) : Stored (insertOrIgnore rows record) record.dedupeKey := by
  unfold insertOrIgnore
  split_ifs with hconflict
  · obtain ⟨row, hrow, hsame⟩ := any_eq_true.mp hconflict
    simp only [Bool.or_eq_true, decide_eq_true_eq] at hsame
    exact ⟨row, hrow, hsame.resolve_left (hid row hrow)⟩
  · exact ⟨_, mem_append_right _ (mem_singleton_self _), rfl⟩

lemma logId_insertOrIgnore {rows : List LogRecord} {record row : LogRecord}
    (h : row ∈ insertOrIgnore rows record) : row ∈ rows ∨ row.logId = record.logId := by
  unfold insertOrIgnore at h
  split_ifs at h
  · exact .inl h
  · rcases mem_append.mp h with h | h
    · exact .inl h
    · exact .inr (by rw [mem_singleton.mp h])

lemma stored_appendBatch {rows records : List LogRecord} (hfresh : ∀ record ∈ records, ∀ row ∈ rows,
    row.logId ≠ record.logId) (hids : (records.map LogRecord.logId).Nodup) {record : LogRecord}
    (h : record ∈ records) : Stored (appendBatch rows records).1 record.dedupeKey := by
  rw [appendBatch_fst]
  induction records generalizing rows with
  | nil => cases h
  | cons first records ih =>
    rw [map_cons, nodup_cons] at hids
    have hrest : (appendBatch (insertOrIgnore rows first) records).1 =
        records.foldl insertOrIgnore (insertOrIgnore rows first) := appendBatch_fst _ _
    rcases mem_cons.mp h with rfl | h
    · have hstored := stored_insertOrIgnore (hfresh record mem_cons_self)
      rw [foldl_cons, ← hrest]
      exact hstored.mono (prefix_appendBatch _ _)
    · refine ih (fun r hr row hrow => ?_) hids.2 h
      rcases logId_insertOrIgnore hrow with hrow | hrow
      · exact hfresh r (mem_cons_of_mem _ hr) row hrow
      · intro heq
        exact hids.1 (mem_map.mpr ⟨r, hr, heq.symm.trans hrow⟩)

end IncidentLens.Logs
