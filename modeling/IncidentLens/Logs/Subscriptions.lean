import IncidentLens.Effects.Runs
import IncidentLens.Logs.Feeds

/-!
# Log subscriptions

A reader hands lines to a bounded queue and a writer takes them out in batches: each batch is
processed and persisted, and only then the stored cursor moves to its last line. A batch that
cannot be persisted is dropped. The lines before the stored cursor are in the store as long as
no batch is persisted past a line that was dropped and is still missing.
-/
namespace IncidentLens.Logs
open Data Effects List

/-- Where a batch fails, if it does: before its records are committed, or at the cursor. -/
inductive Fault
  | none | persist | cursor
  deriving DecidableEq

/-- `_write_batch`: the database after it, and the records it publishes. -/
def writeBatch (pipeline : Pipeline) (subscription : LogSubscription) (batch : List RawLogLine)
    (logIds : List String) (now : Time) (fault : Fault) (db : LogDatabase) : LogDatabase × List LogRecord :=
  if fault = .persist then (db, [])
  else
    let records := processRawLines pipeline subscription batch logIds now
    let db := { db with rows := (appendBatch db.rows records).1 }
    match batch.getLast? with
    | some latest =>
      (if fault = .cursor then db else db.upsertCursor subscription.subscriptionId ⟨latest.cursor⟩, records)
    | none => (db, records)

section Writer
variable {pipeline : Pipeline} {subscription : LogSubscription} {batch : List RawLogLine} {logIds : List String}
  {now : Time} {fault : Fault} {db : LogDatabase}

lemma writeBatch_persist : writeBatch pipeline subscription batch logIds now .persist db = (db, []) := rfl

lemma writeBatch_rows (h : fault ≠ .persist) : (writeBatch pipeline subscription batch logIds now fault db).1.rows =
      (appendBatch db.rows (processRawLines pipeline subscription batch logIds now)).1 := by
  rw [writeBatch, if_neg h]
  cases batch.getLast? with
  | none => rfl
  | some latest =>
    dsimp only
    split_ifs <;> rfl

lemma writeBatch_cursor (hne : batch ≠ []) :
    (writeBatch pipeline subscription batch logIds now .none db).1.getCursor subscription.subscriptionId =
      some ⟨(batch.getLast hne).cursor⟩ := by
  rw [writeBatch, if_neg (by decide), getLast?_eq_some_getLast hne]
  simp [LogDatabase.getCursor, LogDatabase.upsertCursor]

lemma writeBatch_cursor_of_fault (h : fault ≠ .none) :
    (writeBatch pipeline subscription batch logIds now fault db).1.cursors = db.cursors := by
  cases fault with
  | none => exact absurd rfl h
  | persist => rfl
  | cursor =>
    rw [writeBatch, if_neg (by decide)]
    cases batch.getLast? <;> rfl

lemma prefix_writeBatch : db.rows <+: (writeBatch pipeline subscription batch logIds now fault db).1.rows := by
  by_cases h : fault = .persist
  · rw [h, writeBatch_persist]
  · rw [writeBatch_rows h]
    exact prefix_appendBatch _ _

lemma stored_writeBatch (h : fault ≠ .persist) (hlen : logIds.length = batch.length) (hids : logIds.Nodup)
    (hfresh : ∀ row ∈ db.rows, row.logId ∉ logIds) {raw : RawLogLine} (hraw : raw ∈ batch) :
    Stored (writeBatch pipeline subscription batch logIds now fault db).1.rows (dedupeKey pipeline subscription raw) := by
  have hlog := logIds_processRawLines pipeline subscription now hlen
  obtain ⟨record, hrecord, hkey⟩ := mem_processRawLines pipeline subscription now hlen hraw
  rw [writeBatch_rows h, ← hkey]
  refine stored_appendBatch (fun r hr row hrow heq => ?_) (by rw [hlog]; exact hids) hrecord
  refine hfresh row hrow ?_
  rw [heq, ← hlog]
  exact mem_map_of_mem hr

end Writer

/-! ### Reader, queue and writer -/

/-- A subscription at work. `opened` is the position of its first reading and `dropped` holds
the lines of the batches that were not persisted. -/
structure Ingestion where
  db : LogDatabase
  queue : List RawLogLine := []
  reading : Option (List RawLogLine) := none
  opened : Option ℕ := none
  dropped : List RawLogLine := []

inductive IngestionMove (source : Source)
  /-- A poll, or a follower that connects: it starts from the stored cursor. -/
  | read (look : source.Look) (now : Time)
  | put
  /-- The poll is over, failed, or the put timed out. -/
  | leave
  | write (logIds : List String) (now : Time) (fault : Fault)
  /-- The tasks are stopped and started again, also by a crash. -/
  | restart
  /-- Another subscription or a query persists records. -/
  | append (records : List LogRecord)

section System
variable (source : Source) (pipeline : Pipeline) (subscription : LogSubscription) (queueSize batchSize : ℕ)

def Ingestion.batch (s : Ingestion) : List RawLogLine := s.queue.take (max 1 batchSize)

def Ingestion.cursor (s : Ingestion) : Option LogCursor := s.db.getCursor subscription.subscriptionId

def ingest (s : Ingestion) : IngestionMove source → Option Ingestion
  | .read look now =>
    if s.reading.isSome then none
    else some { s with
      reading := some (source.read look (s.cursor subscription) now)
      opened := some (s.opened.getD (source.opening (s.cursor subscription) now)) }
  | .put => match s.reading with
    | some (line :: rest) =>
      if queueSize = 0 ∨ s.queue.length < queueSize then
        some { s with queue := s.queue ++ [line], reading := some rest }
      else none
    | _ => none
  | .leave => some { s with reading := none }
  | .write logIds now fault =>
    let batch := s.batch batchSize
    if batch ≠ [] ∧ logIds.length = batch.length ∧ logIds.Nodup ∧ ∀ row ∈ s.db.rows, row.logId ∉ logIds then
      some { s with
        db := (writeBatch pipeline subscription batch logIds now fault s.db).1
        queue := s.queue.drop (max 1 batchSize)
        dropped := if fault = .persist then s.dropped ++ batch else s.dropped }
    else none
  | .restart => some { s with queue := [], reading := none }
  | .append records => some { s with db := { s.db with rows := (appendBatch s.db.rows records).1 } }

/-- A new subscription over the rows of a store. -/
def ingestion (rows : List LogRecord) : System Ingestion (IngestionMove source) where
  init := { db := ⟨rows, fun _ => none⟩ }
  step := ingest source pipeline subscription queueSize batchSize

/-- The subscription has to deliver the line: it does not start before the first reading. -/
def Owed (s : Ingestion) (l : source.Line) : Prop := source.Holds l ∧ ∀ o, s.opened = some o → o ≤ source.start l

def Persisted (s : Ingestion) (l : source.Line) : Prop :=
  ∃ raw, source.Carries raw l ∧ Stored s.db.rows (dedupeKey pipeline subscription raw)

/-- No line before the stored cursor is missing from the store. -/
def NothingLost (s : Ingestion) : Prop :=
  ∀ c, s.cursor subscription = some c → ∀ l, Owed source s l → source.start l < source.position c →
    Persisted source pipeline subscription s l

/-- A batch does not move the cursor past a line of an earlier batch that failed, unless that
line is stored by now or is in the batch; and a follower that has no cursor to start from does
not start later than the first one. -/
def Careful (s : Ingestion) : IngestionMove source → Prop
  | .read _ now => s.cursor subscription = none → ∀ o, s.opened = some o → source.opening none now ≤ o
  | .write _ _ .none => ∀ raw ∈ s.dropped, ∀ l, source.Carries raw l → Owed source s l →
      ∀ last, (s.batch batchSize).getLast? = some last → source.start l < source.position ⟨last.cursor⟩ →
        Persisted source pipeline subscription s l ∨ ∃ raw' ∈ s.batch batchSize, source.Carries raw' l
  | _ => True

/-! ### The invariant -/

/-- What is on its way to the writer, in the order in which it gets there. -/
def Ingestion.inflight (s : Ingestion) : List RawLogLine := s.queue ++ s.reading.getD []

/-- Every line before the cursor of an item is stored, or on its way no later than the item,
or was dropped. -/
def Accounted (s : Ingestion) (items : List RawLogLine) : Prop :=
  ∀ i r, items[i]? = some r → source.Known ⟨r.cursor⟩ ∧
    ∀ l, Owed source s l → source.start l < source.position ⟨r.cursor⟩ →
      Persisted source pipeline subscription s l ∨ (∃ raw ∈ items.take (i + 1), source.Carries raw l) ∨
        ∃ raw ∈ s.dropped, source.Carries raw l

structure Ordered (s : Ingestion) : Prop where
  known : ∀ c, s.cursor subscription = some c → source.Known c
  fresh : s.opened = none → s.cursor subscription = none ∧ s.inflight = []
  safe : NothingLost source pipeline subscription s
  accounted : Accounted source pipeline subscription s s.inflight

variable {source pipeline subscription queueSize batchSize} {s : Ingestion}

lemma Accounted.left {xs ys : List RawLogLine} (h : Accounted source pipeline subscription s (xs ++ ys)) :
    Accounted source pipeline subscription s xs := by
  intro i r hr
  have hi : i < xs.length := (List.getElem?_eq_some_iff.mp hr).1
  obtain ⟨hknown, hlines⟩ := h i r (by rw [getElem?_append_left hi]; exact hr)
  refine ⟨hknown, fun l hl hlt => ?_⟩
  have htake : xs.take (i + 1) = (xs ++ ys).take (i + 1) := (take_append_of_le_length (by omega)).symm
  rw [htake]
  exact hlines l hl hlt

variable {t : Ingestion}

lemma Accounted.transfer {xs : List RawLogLine}
    (h : Accounted source pipeline subscription s xs) (hopened : t.opened = s.opened)
    (hrows : s.db.rows <+: t.db.rows) (hdropped : ∀ raw ∈ s.dropped, raw ∈ t.dropped) :
    Accounted source pipeline subscription t xs := by
  intro i r hr
  obtain ⟨hknown, hlines⟩ := h i r hr
  refine ⟨hknown, fun l hl hlt => ?_⟩
  rcases hlines l ⟨hl.1, fun o ho => hl.2 o (hopened.trans ho)⟩ hlt with ⟨raw, hraw, hstored⟩ | hway | ⟨raw, hraw, hc⟩
  · exact .inl ⟨raw, hraw, hstored.mono hrows⟩
  · exact .inr (.inl hway)
  · exact .inr (.inr ⟨raw, hdropped raw hraw, hc⟩)

lemma Accounted.right {xs ys : List RawLogLine} (h : Accounted source pipeline subscription t (xs ++ ys))
    (hdone : ∀ raw ∈ xs, Stored t.db.rows (dedupeKey pipeline subscription raw) ∨ raw ∈ t.dropped) :
    Accounted source pipeline subscription t ys := by
  intro i r hr
  obtain ⟨hknown, hlines⟩ := h (xs.length + i) r (by
    rw [getElem?_append_right (by omega), Nat.add_sub_cancel_left]
    exact hr)
  refine ⟨hknown, fun l hl hlt => ?_⟩
  rcases hlines l hl hlt with hstored | ⟨raw, hraw, hc⟩ | hdropped
  · exact .inl hstored
  · rw [Nat.add_assoc, take_length_add_append] at hraw
    rcases mem_append.mp hraw with hraw | hraw
    · rcases hdone raw hraw with hstored | hdropped
      · exact .inl ⟨raw, hc, hstored⟩
      · exact .inr (.inr ⟨raw, hdropped, hc⟩)
    · exact .inr (.inl ⟨raw, hraw, hc⟩)
  · exact .inr (.inr hdropped)

lemma NothingLost.transfer (h : NothingLost source pipeline subscription s)
    (hcursor : t.cursor subscription = s.cursor subscription) (hopened : t.opened = s.opened)
    (hrows : s.db.rows <+: t.db.rows) : NothingLost source pipeline subscription t := by
  intro c hc l hl hlt
  obtain ⟨raw, hraw, hstored⟩ := h c (hcursor.symm.trans hc) l ⟨hl.1, fun o ho => hl.2 o (hopened.trans ho)⟩ hlt
  exact ⟨raw, hraw, hstored.mono hrows⟩

lemma Ordered.transfer (h : Ordered source pipeline subscription s)
    (hcursor : t.cursor subscription = s.cursor subscription) (hopened : t.opened = s.opened)
    (hrows : s.db.rows <+: t.db.rows) (hdropped : t.dropped = s.dropped) (rest : List RawLogLine)
    (hway : t.inflight ++ rest = s.inflight) : Ordered source pipeline subscription t where
  known c hc := h.known c (hcursor.symm.trans hc)
  fresh ht := by
    obtain ⟨hnone, hempty⟩ := h.fresh (hopened.symm.trans ht)
    rw [hempty] at hway
    exact ⟨hcursor.trans hnone, (append_eq_nil_iff.mp hway).1⟩
  safe := h.safe.transfer hcursor hopened hrows
  accounted := by
    have hitems := h.accounted
    rw [← hway] at hitems
    exact hitems.left.transfer hopened hrows (by simp [hdropped])

lemma Ordered.read (h : Ordered source pipeline subscription s) (hreading : s.reading = none)
    {look : source.Look} {now : Time}
    (hcareful : s.cursor subscription = none → ∀ o, s.opened = some o → source.opening none now ≤ o) :
    Ordered source pipeline subscription { s with
      reading := some (source.read look (s.cursor subscription) now)
      opened := some (s.opened.getD (source.opening (s.cursor subscription) now)) } := by
  -- what is owed after the step was owed before, or starts no earlier than this reading
  have howed : ∀ l, Owed source { s with
      reading := some (source.read look (s.cursor subscription) now)
      opened := some (s.opened.getD (source.opening (s.cursor subscription) now)) } l → Owed source s l := by
    intro l hl
    refine ⟨hl.1, fun o ho => ?_⟩
    have := hl.2 _ rfl
    rw [ho] at this
    exact this
  have hway : s.inflight = s.queue := by simp [Ingestion.inflight, hreading]
  refine ⟨h.known, fun hnone => ?_, fun c hc l hl hlt => h.safe c hc l (howed l hl) hlt, ?_⟩
  · cases hnone
  intro i r hr
  change (s.queue ++ source.read look (s.cursor subscription) now)[i]? = some r at hr
  change _ ∧ ∀ l, _ → _ → _ ∨ (∃ raw ∈ (s.queue ++ source.read look (s.cursor subscription) now).take (i + 1), _) ∨ _
  rcases Nat.lt_or_ge i s.queue.length with hold | hnew
  · rw [getElem?_append_left hold] at hr
    obtain ⟨hknown, hlines⟩ := h.accounted i r (by rw [hway]; exact hr)
    refine ⟨hknown, fun l hl hlt => ?_⟩
    rw [take_append_of_le_length (by omega), ← hway]
    exact hlines l (howed l hl) hlt
  · rw [getElem?_append_right hnew] at hr
    refine ⟨source.known_read h.known (mem_of_getElem? hr), fun l hl hlt => ?_⟩
    rcases Nat.lt_or_ge (source.start l) (source.opening (s.cursor subscription) now) with hbefore | hfrom
    · -- the line starts before the reading, so the stored cursor is past it
      refine .inl ?_
      cases hcursor : s.cursor subscription with
      | none =>
        rw [hcursor] at hbefore
        have hstart := hl.2 _ rfl
        cases hopened : s.opened with
        | none =>
          rw [hopened, hcursor] at hstart
          exact absurd hstart (by simpa using hbefore)
        | some o =>
          rw [hopened] at hstart
          have := hcareful hcursor o hopened
          exact absurd hstart (by simp only [Option.getD_some]; omega)
      | some c =>
        rw [hcursor, source.opening_known now (h.known c hcursor)] at hbefore
        exact h.safe c hcursor l (howed l hl) hbefore
    · obtain ⟨raw, hraw, hc⟩ := source.covers h.known hr hl.1 hfrom hlt
      refine .inr (.inl ⟨raw, ?_, hc⟩)
      have hi : i + 1 = s.queue.length + (i - s.queue.length + 1) := by omega
      rw [hi, take_length_add_append]
      exact mem_append_right _ hraw

lemma Ordered.write (h : Ordered source pipeline subscription s) {logIds : List String} {now : Time} {fault : Fault}
    (hne : s.batch batchSize ≠ []) (hlen : logIds.length = (s.batch batchSize).length) (hids : logIds.Nodup)
    (hfresh : ∀ row ∈ s.db.rows, row.logId ∉ logIds)
    (hcareful : Careful source pipeline subscription batchSize s (.write logIds now fault)) :
    Ordered source pipeline subscription { s with
      db := (writeBatch pipeline subscription (s.batch batchSize) logIds now fault s.db).1
      queue := s.queue.drop (max 1 batchSize)
      dropped := if fault = .persist then s.dropped ++ s.batch batchSize else s.dropped } := by
  generalize ht : ({ s with
      db := (writeBatch pipeline subscription (s.batch batchSize) logIds now fault s.db).1
      queue := s.queue.drop (max 1 batchSize)
      dropped := if fault = .persist then s.dropped ++ s.batch batchSize else s.dropped } : Ingestion) = t
  have hopened : t.opened = s.opened := by rw [← ht]
  have hrows : s.db.rows <+: t.db.rows := by
    rw [← ht]
    exact prefix_writeBatch
  have hdropped : ∀ raw ∈ s.dropped, raw ∈ t.dropped := by
    intro raw hraw
    rw [← ht]
    dsimp only
    split_ifs
    · exact mem_append_left _ hraw
    · exact hraw
  have hdone : ∀ raw ∈ s.batch batchSize,
      Stored t.db.rows (dedupeKey pipeline subscription raw) ∨ raw ∈ t.dropped := by
    intro raw hraw
    rw [← ht]
    by_cases hfault : fault = .persist
    · refine .inr ?_
      rw [if_pos hfault]
      exact mem_append_right _ hraw
    · exact .inl (stored_writeBatch hfault hlen hids hfresh hraw)
  have hway : s.inflight = s.batch batchSize ++ t.inflight := by
    rw [← ht, Ingestion.inflight, Ingestion.inflight, Ingestion.batch, ← append_assoc, take_append_drop]
  have hitems := h.accounted
  rw [hway] at hitems
  have hall := hitems.transfer hopened hrows hdropped
  have hcursors : fault ≠ .none → t.cursor subscription = s.cursor subscription := by
    intro hfault
    rw [← ht]
    exact congrFun (writeBatch_cursor_of_fault hfault) _
  have hmoved : fault = .none → t.cursor subscription = some ⟨((s.batch batchSize).getLast hne).cursor⟩ := by
    rintro rfl
    rw [← ht]
    exact writeBatch_cursor hne
  -- the last line of the batch, and what is before its cursor
  have hlast : (s.batch batchSize ++ t.inflight)[(s.batch batchSize).length - 1]? =
      some ((s.batch batchSize).getLast hne) := by
    have hpos := length_pos_iff.mpr hne
    rw [getElem?_append_left (by omega), ← getLast?_eq_getElem?, getLast?_eq_some_getLast hne]
  have hpos : (s.batch batchSize).length - 1 + 1 = (s.batch batchSize).length := by
    have := length_pos_iff.mpr hne
    omega
  obtain ⟨hlastKnown, -⟩ := hitems _ _ hlast
  refine ⟨fun c hc => ?_, fun hnone => ?_, fun c hc l hl hlt => ?_, hall.right hdone⟩
  · by_cases hfault : fault = .none
    · obtain rfl := Option.some.inj ((hmoved hfault).symm.trans hc)
      exact hlastKnown
    · exact h.known c ((hcursors hfault).symm.trans hc)
  · obtain ⟨-, hempty⟩ := h.fresh (hopened.symm.trans hnone)
    rw [hway] at hempty
    exact absurd (append_eq_nil_iff.mp hempty).1 hne
  · have hl' : Owed source s l := ⟨hl.1, fun o ho => hl.2 o (hopened.trans ho)⟩
    by_cases hfault : fault = .none
    · obtain rfl := Option.some.inj ((hmoved hfault).symm.trans hc)
      have hbatch : ∀ raw ∈ s.batch batchSize, source.Carries raw l → Persisted source pipeline subscription t l := by
        intro raw hraw hcarries
        refine ⟨raw, hcarries, ?_⟩
        rw [← ht]
        exact stored_writeBatch (by rw [hfault]; decide) hlen hids hfresh hraw
      rcases (hitems _ _ hlast).2 l hl' hlt with ⟨raw, hcarries, hstored⟩ | ⟨raw, hraw, hcarries⟩ | ⟨raw, hraw, hcarries⟩
      · exact ⟨raw, hcarries, hstored.mono hrows⟩
      · rw [hpos, take_left] at hraw
        exact hbatch raw hraw hcarries
      · subst hfault
        rcases hcareful raw hraw l hcarries hl' _ (getLast?_eq_some_getLast hne) hlt with
          ⟨raw', hcarries', hstored⟩ | ⟨raw', hraw', hcarries'⟩
        · exact ⟨raw', hcarries', hstored.mono hrows⟩
        · exact hbatch raw' hraw' hcarries'
    · obtain ⟨raw, hcarries, hstored⟩ := h.safe c ((hcursors hfault).symm.trans hc) l hl' hlt
      exact ⟨raw, hcarries, hstored.mono hrows⟩

lemma Ordered.step {move : IngestionMove source} (h : Ordered source pipeline subscription s)
    (hcareful : Careful source pipeline subscription batchSize s move)
    (hstep : ingest source pipeline subscription queueSize batchSize s move = some t) :
    Ordered source pipeline subscription t := by
  cases move with
  | read look now =>
    cases hreading : s.reading with
    | some lines => simp [ingest, hreading] at hstep
    | none =>
      simp only [ingest, hreading, Option.isSome_none, Bool.false_eq_true, if_false, Option.some.injEq] at hstep
      subst hstep
      exact h.read hreading hcareful
  | put =>
    cases hreading : s.reading with
    | none => simp [ingest, hreading] at hstep
    | some lines =>
      cases lines with
      | nil => simp [ingest, hreading] at hstep
      | cons line rest =>
        simp only [ingest, hreading] at hstep
        split_ifs at hstep
        obtain rfl := Option.some.inj hstep
        exact h.transfer rfl rfl (prefix_refl _) rfl [] (by simp [Ingestion.inflight, hreading])
  | leave =>
    obtain rfl := Option.some.inj hstep
    exact h.transfer rfl rfl (prefix_refl _) rfl (s.reading.getD []) (by simp [Ingestion.inflight])
  | write logIds now fault =>
    obtain ⟨hguard, hstep⟩ := Option.ite_none_right_eq_some.mp hstep
    obtain rfl := Option.some.inj hstep
    exact h.write hguard.1 hguard.2.1 hguard.2.2.1 hguard.2.2.2 hcareful
  | restart =>
    obtain rfl := Option.some.inj hstep
    exact h.transfer rfl rfl (prefix_refl _) rfl s.inflight (by simp [Ingestion.inflight])
  | append records =>
    obtain rfl := Option.some.inj hstep
    exact h.transfer rfl rfl (prefix_appendBatch _ _) rfl [] (by simp [Ingestion.inflight])

lemma Ordered.init (rows : List LogRecord) : Ordered source pipeline subscription { db := ⟨rows, fun _ => none⟩ } where
  known c hc := by cases hc
  fresh _ := ⟨rfl, rfl⟩
  safe c hc := by cases hc
  accounted i r hr := by simp [Ingestion.inflight] at hr

lemma ordered_reached {rows : List LogRecord}
    (h : (ingestion source pipeline subscription queueSize batchSize rows).Reached
      (Careful source pipeline subscription batchSize) s) : Ordered source pipeline subscription s :=
  h.invariant (Ordered.init rows) fun _ _ _ hs hgood hstep => hs.step hgood hstep

end System

/-! ### A batch that failed -/

/-- A pipeline that keeps the texts as they are. -/
def plainPipeline : Pipeline where
  parseLogLine text := ⟨.unknown, text, false⟩
  redactMessage text := text
  sha256 text := text

def hostSubscription : LogSubscription where
  subscriptionId := "sub-1"
  projectId := "shop"
  targetId := "web"
  serviceName := "api"
  sourceKind := .file
  scope := .host
  sourceRef := "/var/log/api.log"

/-- `a` and `b`. -/
def twoLines : Bytes := [97, 10, 98, 10]

abbrev twoLineSource : Source := fileSource hostSubscription.sourceRef twoLines

/-- One batch for each line, of which the first fails. -/
def missedMoves : List (IngestionMove twoLineSource) :=
  [.read ⟨Poll.of twoLines, prefix_refl _⟩ 0, .put, .put, .write ["log-1"] 0 .persist, .write ["log-2"] 0 .none]

def lineA : RawLogLine := ⟨"/var/log/api.log", fileCursor 2, 0, "a"⟩

def lineB : RawLogLine := ⟨"/var/log/api.log", fileCursor 4, 0, "b"⟩

def missedState : Ingestion where
  db :=
    { rows := [{ recordFromRaw plainPipeline hostSubscription lineB "log-2" 0 with streamSequence := 1 }]
      cursors := Function.update (fun _ => none) "sub-1" (some ⟨fileCursor 4⟩) }
  queue := []
  reading := some []
  opened := some 0
  dropped := [lineA]

lemma missed_run : (ingestion twoLineSource plainPipeline hostSubscription 10 1 []).runFrom
    (ingestion twoLineSource plainPipeline hostSubscription 10 1 []).init missedMoves = some missedState := rfl

lemma dedupeKey_eq (raw : RawLogLine) : dedupeKey plainPipeline hostSubscription raw =
    "shop|web|api|file|host|/var/log/api.log|" ++ raw.cursor ++ "|" ++ raw.text := rfl

/-- The same lines in one batch that fails, is read again after a restart and is persisted. -/
def retriedState : Ingestion where
  db :=
    { rows := [{ recordFromRaw plainPipeline hostSubscription lineA "log-3" 0 with streamSequence := 1 },
        { recordFromRaw plainPipeline hostSubscription lineB "log-4" 0 with streamSequence := 2 }]
      cursors := Function.update (fun _ => none) "sub-1" (some ⟨fileCursor 4⟩) }
  reading := some []
  opened := some 0
  dropped := [lineA, lineB]

end IncidentLens.Logs
