import IncidentLens.Investigations.LogTools
import IncidentLens.Logs.Pages
import IncidentLens.Logs.Subscriptions

/-!
# Concurrent appends

Every writer has a connection of its own. A transaction begins with the first insert of a batch and holds the write
lock until it ends; the number of that first record was read before. A record is lost if the number was taken
meanwhile. Everything else holds in every interleaving: numbers increase in the order of the commits, and the index
holds the rows.
-/
namespace IncidentLens.Logs.Concurrent
open Effects List Function

/-- `log_records` and `log_records_fts`. -/
structure LogTables where
  rows : List LogRecord := []
  fts : List (String × String) := []

def refuses (rows : List LogRecord) (record : LogRecord) (nextSequence : ℕ) : Bool :=
  rows.any fun row => row.logId = record.logId || row.dedupeKey = record.dedupeKey || row.streamSequence = nextSequence

/-- `INSERT OR IGNORE`, and the entry in the index if a row was inserted. -/
def LogTables.insertOrIgnore (tables : LogTables) (record : LogRecord) (nextSequence : ℕ) : LogTables :=
  if refuses tables.rows record nextSequence then tables
  else ⟨tables.rows ++ [{ record with streamSequence := nextSequence }],
    tables.fts ++ [(record.logId, record.messageRedacted)]⟩

/-- A call of `append_batch`: its batch, what is left of it, and the number read for the next record. -/
structure Writer where
  batch : List LogRecord
  remaining : List LogRecord
  nextSequence : Option ℕ := none

structure Appends where
  committed : LogTables
  /-- The writer that holds the write lock, and the tables as it sees them. -/
  uncommitted : Option (ℕ × LogTables) := none
  writers : ℕ → Option Writer := fun _ => none
  finished : List (List LogRecord) := []

namespace Appends

def holds (s : Appends) (w : ℕ) : Bool := s.uncommitted.any fun u => u.1 = w

def view (s : Appends) (w : ℕ) : LogTables :=
  match s.uncommitted with
  | some (holder, tables) => if holder = w then tables else s.committed
  | none => s.committed

/-- The transaction of a writer, if it has one, is over. -/
def release (s : Appends) (w : ℕ) : Appends := { s with uncommitted := if s.holds w then none else s.uncommitted }

def setWriter (s : Appends) (w : ℕ) (writer : Option Writer) : Appends := { s with writers := update s.writers w writer }

end Appends

inductive AppendMove
  /-- A call begins. -/
  | call (records : List LogRecord)
  /-- `SELECT COALESCE(MAX(stream_sequence), 0) + 1`. -/
  | select
  | insert
  | commit
  /-- The call raises and its transaction is rolled back. -/
  | fail

def append (s : Appends) : ℕ × AppendMove → Option Appends
  | (w, .call records) => match s.writers w with
    | none => some (s.setWriter w (some ⟨records, records, none⟩))
    | some _ => none
  | (w, .select) => match s.writers w with
    | some ⟨batch, record :: rest, none⟩ =>
      some (s.setWriter w (some ⟨batch, record :: rest, some (latestProductSequence (s.view w).rows + 1)⟩))
    | _ => none
  | (w, .insert) => match s.writers w with
    | some ⟨batch, record :: rest, some nextSequence⟩ =>
      if s.uncommitted = none ∨ s.holds w then
        some ({ s with uncommitted := some (w, (s.view w).insertOrIgnore record nextSequence) }.setWriter w
          (some ⟨batch, rest, none⟩))
      else none
    | _ => none
  | (w, .commit) => match s.writers w with
    | some ⟨batch, [], none⟩ =>
      some ({ s.release w with committed := s.view w, finished := s.finished ++ [batch] }.setWriter w none)
    | _ => none
  | (w, .fail) => some ((s.release w).setWriter w none)

def appending (start : LogTables) : System Appends (ℕ × AppendMove) where
  init := { committed := start }
  step := append

/-! ### What writers are owed -/

/-- The columns are unique, and the index holds the rows. -/
structure LogTables.Consistent (tables : LogTables) : Prop where
  logIds : (tables.rows.map LogRecord.logId).Nodup
  dedupeKeys : (tables.rows.map LogRecord.dedupeKey).Nodup
  sequences : Sequenced tables.rows
  indexed : tables.fts = tables.rows.map fun row => (row.logId, row.messageRedacted)

/-- What was added to the tables: records of the batches, under increasing numbers. -/
structure Grown (start tables : LogTables) (batches : List (List LogRecord)) : Prop extends tables.Consistent where
  added : ∃ new, tables.rows = start.rows ++ new ∧
    (new.Pairwise fun a b => a.streamSequence < b.streamSequence) ∧
    ∀ row ∈ new, latestProductSequence start.rows < row.streamSequence ∧
      ∃ batch ∈ batches, ∃ record ∈ batch, row = { record with streamSequence := row.streamSequence }

/-- Every record of a batch that was committed is stored once under its key, and the keys of the batch are found. -/
structure Accounted (start : LogTables) (s : Appends) : Prop extends Grown start s.committed s.finished where
  stored : ∀ batch ∈ s.finished, ∀ record ∈ batch, Stored s.committed.rows record.dedupeKey
  found : ∀ batch ∈ s.finished, ∃ records,
    Investigations.recordsByDedupeKeys s.committed.rows (batch.map LogRecord.dedupeKey) = some records ∧
      records.map LogRecord.dedupeKey = batch.map LogRecord.dedupeKey

/-- A record whose key is new is inserted under the number that is next, and its id is new as well. -/
def InTime (rows : List LogRecord) (record : LogRecord) (nextSequence : ℕ) : Prop :=
  Stored rows record.dedupeKey ∨ nextSequence = latestProductSequence rows + 1 ∧ ∀ row ∈ rows, row.logId ≠ record.logId

def Timely (s : Appends) : ℕ × AppendMove → Prop
  | (w, .insert) => ∀ batch record rest nextSequence, s.writers w = some ⟨batch, record :: rest, some nextSequence⟩ →
      InTime (s.view w).rows record nextSequence
  | _ => True

/-! ### One insert -/

/-- A number that was read: from it on, every number up to the last is taken. -/
structure Next (nextSequence : ℕ) (rows : List LogRecord) : Prop where
  le : nextSequence ≤ latestProductSequence rows + 1
  taken : ∀ k, nextSequence ≤ k → k ≤ latestProductSequence rows → ∃ row ∈ rows, row.streamSequence = k

/-- More rows, and above the last number every number up to the new last one is taken. -/
structure Extends (rows rows' : List LogRecord) : Prop where
  isPrefix : rows <+: rows'
  taken : ∀ k, latestProductSequence rows < k → k ≤ latestProductSequence rows' → ∃ row ∈ rows', row.streamSequence = k

section Inserts
variable {start tables : LogTables} {batches : List (List LogRecord)} {rows rows' rows'' : List LogRecord}
  {record : LogRecord} {n : ℕ}

lemma latest_le (h : rows <+: rows') : latestProductSequence rows ≤ latestProductSequence rows' := by
  obtain ⟨more, rfl⟩ := h
  rw [latestProductSequence_append]
  exact le_max_left _ _

lemma Extends.refl (rows : List LogRecord) : Extends rows rows :=
  ⟨prefix_refl rows, fun _ hlt hle => absurd hlt (not_lt.mpr hle)⟩

lemma Extends.trans (h : Extends rows rows') (h' : Extends rows' rows'') : Extends rows rows'' := by
  refine ⟨h.isPrefix.trans h'.isPrefix, fun k hlow hhigh => ?_⟩
  by_cases hk : k ≤ latestProductSequence rows'
  · obtain ⟨row, hrow, hsequence⟩ := h.taken k hlow hk
    exact ⟨row, h'.isPrefix.subset hrow, hsequence⟩
  · exact h'.taken k (not_le.mp hk) hhigh

lemma next_latest (rows : List LogRecord) : Next (latestProductSequence rows + 1) rows :=
  ⟨le_rfl, fun _ hlow hhigh => absurd hhigh (not_le.mpr hlow)⟩

lemma Next.extend (h : Next n rows) (hextends : Extends rows rows') : Next n rows' := by
  have hle := latest_le hextends.isPrefix
  refine ⟨h.le.trans (Nat.succ_le_succ hle), fun k hlow hhigh => ?_⟩
  by_cases hk : k ≤ latestProductSequence rows
  · obtain ⟨row, hrow, hsequence⟩ := h.taken k hlow hk
    exact ⟨row, hextends.isPrefix.subset hrow, hsequence⟩
  · exact hextends.taken k (not_le.mp hk) hhigh

lemma refuses_eq_false_iff : refuses rows record n = false ↔
    ∀ row ∈ rows, row.logId ≠ record.logId ∧ row.dedupeKey ≠ record.dedupeKey ∧ row.streamSequence ≠ n := by
  rw [refuses, any_eq_false]
  refine forall₂_congr fun row _ => ?_
  simp [decide_eq_true_eq, not_or, and_assoc]

lemma Next.eq_of_accepted (h : Next n rows) (hrefuses : refuses rows record n = false) :
    n = latestProductSequence rows + 1 := by
  by_contra hne
  obtain ⟨row, hrow, hsequence⟩ := h.taken n le_rfl (by have := h.le; omega)
  exact (refuses_eq_false_iff.mp hrefuses row hrow).2.2 hsequence

lemma Next.stored_iff (h : Next n tables.rows) :
    Stored (tables.insertOrIgnore record n).rows record.dedupeKey ↔ InTime tables.rows record n := by
  unfold LogTables.insertOrIgnore InTime
  cases hrefuses : refuses tables.rows record n with
  | true =>
    rw [if_pos rfl]
    refine ⟨.inl, fun htime => ?_⟩
    cases htime with
    | inl hstored => exact hstored
    | inr hnew =>
      obtain ⟨hn, hids⟩ := hnew
      obtain ⟨row, hrow, hsame⟩ := any_eq_true.mp hrefuses
      simp only [Bool.or_eq_true, decide_eq_true_eq] at hsame
      obtain (hid | hkey) | hsequence := hsame
      · exact absurd hid (hids row hrow)
      · exact ⟨row, hrow, hkey⟩
      · have := le_latestProductSequence hrow
        omega
  | false =>
    rw [if_neg Bool.false_ne_true]
    have haccepted := refuses_eq_false_iff.mp hrefuses
    refine iff_of_true ⟨_, mem_append_right _ (mem_singleton_self _), rfl⟩ (.inr ⟨?_, ?_⟩)
    · exact h.eq_of_accepted hrefuses
    · exact fun row hrow => (haccepted row hrow).1

lemma Next.extends_insert (h : Next n tables.rows) : Extends tables.rows (tables.insertOrIgnore record n).rows := by
  unfold LogTables.insertOrIgnore
  cases hrefuses : refuses tables.rows record n with
  | true => exact Extends.refl _
  | false =>
    have hn := h.eq_of_accepted hrefuses
    refine ⟨prefix_append _ _, fun k hlow hhigh => ?_⟩
    refine ⟨_, mem_append_right _ (mem_singleton_self _), ?_⟩
    have hlatest : latestProductSequence [{ record with streamSequence := n }] = n := Nat.max_zero n
    dsimp only at hhigh ⊢
    rw [if_neg Bool.false_ne_true, latestProductSequence_append, hlatest] at hhigh
    omega

lemma nodup_map_concat {β : Type} {f : LogRecord → β} (h : (rows.map f).Nodup) (hnew : ∀ row ∈ rows, f row ≠ f record) :
    ((rows ++ [record]).map f).Nodup := by
  rw [map_append, map_singleton, ← concat_eq_append]
  refine List.Nodup.concat (fun hmem => ?_) h
  obtain ⟨row, hrow, hsame⟩ := mem_map.mp hmem
  exact hnew row hrow hsame

lemma Grown.insert (h : Grown start tables batches) (hn : Next n tables.rows)
    (hrecord : ∃ batch ∈ batches, record ∈ batch) : Grown start (tables.insertOrIgnore record n) batches := by
  unfold LogTables.insertOrIgnore
  cases hrefuses : refuses tables.rows record n with
  | true => exact h
  | false =>
    have haccepted := refuses_eq_false_iff.mp hrefuses
    have hnext := hn.eq_of_accepted hrefuses
    rw [if_neg Bool.false_ne_true]
    refine ⟨⟨?_, ?_, ?_, ?_⟩, ?_⟩
    · exact nodup_map_concat h.logIds fun row hrow => (haccepted row hrow).1
    · exact nodup_map_concat h.dedupeKeys fun row hrow => (haccepted row hrow).2.1
    · exact nodup_map_concat h.sequences fun row hrow => (haccepted row hrow).2.2
    · rw [map_append, h.indexed]
      rfl
    · obtain ⟨new, hrows, hincreasing, hnew⟩ := h.added
      refine ⟨new ++ [{ record with streamSequence := n }], ?_, ?_, ?_⟩
      · rw [hrows, append_assoc]
      · refine pairwise_append.mpr ⟨hincreasing, pairwise_singleton _ _, fun a ha b hb => ?_⟩
        have hle := le_latestProductSequence (hrows ▸ mem_append_right start.rows ha)
        rw [mem_singleton.mp hb]
        dsimp only
        omega
      · intro row hrow
        cases mem_append.mp hrow with
        | inl hrow => exact hnew row hrow
        | inr hrow =>
          obtain ⟨batch, hbatch, hmem⟩ := hrecord
          have hle := latest_le ⟨new, hrows.symm⟩
          rw [mem_singleton.mp hrow]
          refine ⟨?_, batch, hbatch, record, hmem, rfl⟩
          dsimp only
          omega

lemma Grown.mono {batches' : List (List LogRecord)} (h : Grown start tables batches) (hsub : batches ⊆ batches') :
    Grown start tables batches' := by
  obtain ⟨new, hrows, hincreasing, hnew⟩ := h.added
  refine ⟨h.toConsistent, new, hrows, hincreasing, fun row hrow => ?_⟩
  obtain ⟨hlater, batch, hbatch, hrecord⟩ := hnew row hrow
  exact ⟨hlater, batch, hsub hbatch, hrecord⟩

lemma recordsByDedupeKeys_of_stored {keys : List String} (h : ∀ key ∈ keys, Stored rows key) :
    ∃ records, Investigations.recordsByDedupeKeys rows keys = some records ∧ records.map LogRecord.dedupeKey = keys := by
  induction keys with
  | nil => exact ⟨[], rfl, rfl⟩
  | cons key keys ih =>
    obtain ⟨records, hrecords, hkeys⟩ := ih fun k hk => h k (mem_cons_of_mem _ hk)
    obtain ⟨row, hrow, hkey⟩ := h key mem_cons_self
    have hsome : (rows.reverse.find? fun row => row.dedupeKey = key).isSome := by
      rw [find?_isSome]
      exact ⟨row, mem_reverse.mpr hrow, decide_eq_true hkey⟩
    obtain ⟨found, hfound⟩ := Option.isSome_iff_exists.mp hsome
    refine ⟨found :: records, ?_, ?_⟩
    · unfold Investigations.recordsByDedupeKeys at hrecords ⊢
      rw [mapM_cons, hfound, hrecords]
      rfl
    · have hsame := find?_some hfound
      rw [map_cons, hkeys, of_decide_eq_true hsame]

end Inserts

/-! ### Steps -/

section Steps
variable {start : LogTables} {s t : Appends} {w v : ℕ}

def Does (s t : Appends) (w : ℕ) : AppendMove → Prop
  | .call records => s.writers w = none ∧ t = s.setWriter w (some ⟨records, records, none⟩)
  | .select => ∃ batch record rest, s.writers w = some ⟨batch, record :: rest, none⟩ ∧
      t = s.setWriter w (some ⟨batch, record :: rest, some (latestProductSequence (s.view w).rows + 1)⟩)
  | .insert => ∃ batch record rest nextSequence, s.writers w = some ⟨batch, record :: rest, some nextSequence⟩ ∧
      (s.uncommitted = none ∨ s.holds w) ∧
      t = { s with uncommitted := some (w, (s.view w).insertOrIgnore record nextSequence) }.setWriter w
        (some ⟨batch, rest, none⟩)
  | .commit => ∃ batch, s.writers w = some ⟨batch, [], none⟩ ∧
      t = { s.release w with committed := s.view w, finished := s.finished ++ [batch] }.setWriter w none
  | .fail => t = (s.release w).setWriter w none

lemma does_of_append {move : AppendMove} (h : append s (w, move) = some t) : Does s t w move := by
  unfold append at h
  cases move with
  | fail => exact (Option.some.inj h).symm
  | call records =>
    dsimp only at h
    split at h
    · exact ⟨‹_›, (Option.some.inj h).symm⟩
    · cases h
  | select =>
    dsimp only at h
    split at h
    · exact ⟨_, _, _, ‹_›, (Option.some.inj h).symm⟩
    · cases h
  | insert =>
    dsimp only at h
    split at h
    · split_ifs at h with hfree
      exact ⟨_, _, _, _, ‹_›, hfree, (Option.some.inj h).symm⟩
    · cases h
  | commit =>
    dsimp only at h
    split at h
    · exact ⟨_, ‹_›, (Option.some.inj h).symm⟩
    · cases h

lemma view_of_holds (h : s.holds w) : ∃ tables, s.uncommitted = some (w, tables) ∧ s.view w = tables := by
  unfold Appends.holds at h
  cases hu : s.uncommitted with
  | none =>
    rw [hu] at h
    cases h
  | some u =>
    rw [hu, Option.any_some, decide_eq_true_eq] at h
    refine ⟨u.2, by rw [← h], ?_⟩
    unfold Appends.view
    rw [hu]
    exact if_pos h

lemma view_of_not_holds (h : s.holds w = false) : s.view w = s.committed := by
  unfold Appends.holds at h
  unfold Appends.view
  cases hu : s.uncommitted with
  | none => rfl
  | some u =>
    rw [hu, Option.any_some, decide_eq_false_iff_not] at h
    exact if_neg h

lemma not_holds_of_ne (h : s.holds w) (hne : v ≠ w) : s.holds v = false := by
  obtain ⟨tables, hu, -⟩ := view_of_holds h
  unfold Appends.holds
  rw [hu, Option.any_some, decide_eq_false_iff_not]
  exact fun heq => hne heq.symm

lemma release_of_holds (h : s.holds w) : s.release w = { s with uncommitted := none } := by
  unfold Appends.release
  rw [if_pos h]

lemma release_of_not_holds (h : s.holds w = false) : s.release w = s := by
  unfold Appends.release
  rw [h]
  rfl

lemma holds_release (hne : v ≠ w) : (s.release w).holds v = s.holds v := by
  cases h : s.holds w with
  | true =>
    rw [release_of_holds h, not_holds_of_ne h hne]
    rfl
  | false => rw [release_of_not_holds h]

lemma view_release (hne : v ≠ w) : (s.release w).view v = s.view v := by
  cases h : s.holds w with
  | true =>
    rw [release_of_holds h, view_of_not_holds (not_holds_of_ne h hne)]
    rfl
  | false => rw [release_of_not_holds h]

lemma not_holds_of_free (hfree : s.uncommitted = none ∨ s.holds w) (hne : v ≠ w) : s.holds v = false := by
  cases hfree with
  | inl hnone =>
    unfold Appends.holds
    rw [hnone]
    rfl
  | inr hholds => exact not_holds_of_ne hholds hne

variable {tables : LogTables}

lemma holds_of_uncommitted (hu : s.uncommitted = some (w, tables)) : s.holds w = true := by
  unfold Appends.holds
  rw [hu, Option.any_some]
  exact decide_eq_true rfl

lemma view_locked_self : ({ s with uncommitted := some (w, tables) } : Appends).view w = tables := if_pos rfl

lemma view_locked_ne (hfree : s.uncommitted = none ∨ s.holds w) (hne : v ≠ w) :
    ({ s with uncommitted := some (w, tables) } : Appends).view v = s.view v := by
  rw [view_of_not_holds (not_holds_of_free hfree hne)]
  exact if_neg hne.symm

lemma setWriter_eq_some {writer : Option Writer} {other : Writer} (h : (s.setWriter w writer).writers v = some other) :
    v = w ∧ writer = some other ∨ v ≠ w ∧ s.writers v = some other := by
  have h : update s.writers w writer v = some other := h
  by_cases hv : v = w
  · rw [hv, update_self] at h
    exact .inl ⟨hv, h⟩
  · rw [update_of_ne hv] at h
    exact .inr ⟨hv, h⟩

end Steps

/-! ### Every interleaving -/

/-- What holds whatever the order of the steps. -/
structure Ordered (start : LogTables) (s : Appends) : Prop where
  committed : Grown start s.committed s.finished
  locked : ∀ holder tables, s.uncommitted = some (holder, tables) → Extends s.committed.rows tables.rows ∧
    ∃ writer, s.writers holder = some writer ∧ Grown start tables (s.finished ++ [writer.batch])
  pending : ∀ w writer nextSequence, s.writers w = some writer → writer.nextSequence = some nextSequence →
    Next nextSequence (s.view w).rows
  remaining : ∀ w writer, s.writers w = some writer → ∀ record ∈ writer.remaining, record ∈ writer.batch

section Interleavings
variable {start : LogTables} {s t : Appends} {w v : ℕ} {writer : Writer}

lemma Ordered.view_extends (h : Ordered start s) (w : ℕ) : Extends s.committed.rows (s.view w).rows := by
  cases hholds : s.holds w with
  | true =>
    obtain ⟨tables, hu, hview⟩ := view_of_holds hholds
    rw [hview]
    exact (h.locked w tables hu).1
  | false =>
    rw [view_of_not_holds hholds]
    exact Extends.refl _

lemma Ordered.view_grown (h : Ordered start s) (hw : s.writers w = some writer) :
    Grown start (s.view w) (s.finished ++ [writer.batch]) := by
  cases hholds : s.holds w with
  | true =>
    obtain ⟨tables, hu, hview⟩ := view_of_holds hholds
    obtain ⟨-, other, hother, hgrown⟩ := h.locked w tables hu
    obtain rfl := Option.some.inj (hw.symm.trans hother)
    rw [hview]
    exact hgrown
  | false =>
    rw [view_of_not_holds hholds]
    exact h.committed.mono (subset_append_left _ _)

lemma Ordered.fail (h : Ordered start s) (w : ℕ) : Ordered start ((s.release w).setWriter w none) := by
  refine ⟨h.committed, fun holder tables hu => ?_, fun v writer n hv hn => ?_, fun v writer hv => ?_⟩
  · cases hholds : s.holds w with
    | true =>
      rw [release_of_holds hholds] at hu
      cases hu
    | false =>
      rw [release_of_not_holds hholds] at hu ⊢
      obtain ⟨hextends, writer, hwriter, hgrown⟩ := h.locked holder tables hu
      refine ⟨hextends, writer, ?_, hgrown⟩
      refine (update_of_ne ?_ _ _).trans hwriter
      rintro rfl
      exact Bool.false_ne_true (hholds.symm.trans (holds_of_uncommitted hu))
  · obtain ⟨-, hnone⟩ | ⟨hne, hv⟩ := setWriter_eq_some hv
    · cases hnone
    · change Next n ((s.release w).view v).rows
      rw [view_release hne]
      exact h.pending v writer n hv hn
  · obtain ⟨-, hnone⟩ | ⟨-, hv⟩ := setWriter_eq_some hv
    · cases hnone
    · exact h.remaining v writer hv

lemma Ordered.commit {batch : List LogRecord} (h : Ordered start s) (hw : s.writers w = some ⟨batch, [], none⟩) :
    Ordered start
      ({ s.release w with committed := s.view w, finished := s.finished ++ [batch] }.setWriter w none) := by
  have hgrown := h.view_grown hw
  cases hholds : s.holds w with
  | true =>
    rw [release_of_holds hholds]
    refine ⟨hgrown, fun holder tables hu => (by cases hu), fun v writer n hv hn => ?_, fun v writer hv => ?_⟩
    · obtain ⟨-, hnone⟩ | ⟨hne, hv⟩ := setWriter_eq_some hv
      · cases hnone
      · have hpending := h.pending v writer n hv hn
        rw [view_of_not_holds (not_holds_of_ne hholds hne)] at hpending
        exact hpending.extend (h.view_extends w)
    · obtain ⟨-, hnone⟩ | ⟨-, hv⟩ := setWriter_eq_some hv
      · cases hnone
      · exact h.remaining v writer hv
  | false =>
    have hview := view_of_not_holds hholds
    rw [release_of_not_holds hholds, hview]
    rw [hview] at hgrown
    refine ⟨hgrown, fun holder tables hu => ?_, fun v writer n hv hn => ?_, fun v writer hv => ?_⟩
    · obtain ⟨hextends, writer, hwriter, hlocked⟩ := h.locked holder tables hu
      refine ⟨hextends, writer, (update_of_ne ?_ _ _).trans hwriter, hlocked.mono ?_⟩
      · rintro rfl
        exact Bool.false_ne_true (hholds.symm.trans (holds_of_uncommitted hu))
      · exact append_subset.mpr ⟨fun b hb => mem_append_left _ (mem_append_left _ hb), subset_append_right _ _⟩
    · obtain ⟨-, hnone⟩ | ⟨-, hv⟩ := setWriter_eq_some hv
      · cases hnone
      · exact h.pending v writer n hv hn
    · obtain ⟨-, hnone⟩ | ⟨-, hv⟩ := setWriter_eq_some hv
      · cases hnone
      · exact h.remaining v writer hv

lemma Ordered.step {move : AppendMove} (h : Ordered start s) (hstep : append s (w, move) = some t) : Ordered start t := by
  have hdoes := does_of_append hstep
  cases move with
  | fail =>
    rw [Does] at hdoes
    rw [hdoes]
    exact h.fail w
  | call records =>
    obtain ⟨hnone, rfl⟩ := hdoes
    refine ⟨h.committed, fun holder tables hu => ?_, fun v writer n hv hn => ?_, fun v writer hv => ?_⟩
    · obtain ⟨hextends, writer, hwriter, hgrown⟩ := h.locked holder tables hu
      refine ⟨hextends, writer, (update_of_ne ?_ _ _).trans hwriter, hgrown⟩
      rintro rfl
      cases hnone.symm.trans hwriter
    · obtain ⟨-, hsome⟩ | ⟨-, hv⟩ := setWriter_eq_some hv
      · cases hsome
        cases hn
      · exact h.pending v writer n hv hn
    · obtain ⟨-, hsome⟩ | ⟨-, hv⟩ := setWriter_eq_some hv
      · cases hsome
        exact fun record hr => hr
      · exact h.remaining v writer hv
  | select =>
    obtain ⟨batch, record, rest, hw, rfl⟩ := hdoes
    refine ⟨h.committed, fun holder tables hu => ?_, fun v writer n hv hn => ?_, fun v writer hv => ?_⟩
    · obtain ⟨hextends, writer, hwriter, hgrown⟩ := h.locked holder tables hu
      by_cases hholder : holder = w
      · subst hholder
        obtain rfl := Option.some.inj (hw.symm.trans hwriter)
        exact ⟨hextends, _, update_self _ _ _, hgrown⟩
      · exact ⟨hextends, writer, (update_of_ne hholder _ _).trans hwriter, hgrown⟩
    · obtain ⟨rfl, hsome⟩ | ⟨-, hv⟩ := setWriter_eq_some hv
      · cases hsome
        cases hn
        exact next_latest _
      · exact h.pending v writer n hv hn
    · obtain ⟨rfl, hsome⟩ | ⟨-, hv⟩ := setWriter_eq_some hv
      · cases hsome
        exact fun r hr => h.remaining v _ hw r hr
      · exact h.remaining v writer hv
  | insert =>
    obtain ⟨batch, record, rest, n, hw, hfree, rfl⟩ := hdoes
    have hnext := h.pending w _ n hw rfl
    have hmem := h.remaining w _ hw
    refine ⟨h.committed, fun holder tables hu => ?_, fun v writer m hv hm => ?_, fun v writer hv => ?_⟩
    · cases hu
      refine ⟨(h.view_extends w).trans hnext.extends_insert, _, update_self _ _ _, ?_⟩
      refine (h.view_grown hw).insert hnext ⟨batch, mem_append_right _ (mem_singleton_self _), ?_⟩
      exact hmem record mem_cons_self
    · obtain ⟨-, hsome⟩ | ⟨hne, hv⟩ := setWriter_eq_some hv
      · cases hsome
        cases hm
      · have hview := @view_locked_ne s w v ((s.view w).insertOrIgnore record n) hfree hne
        have hpending := h.pending v writer m hv hm
        rw [← hview] at hpending
        exact hpending
    · obtain ⟨-, hsome⟩ | ⟨-, hv⟩ := setWriter_eq_some hv
      · cases hsome
        exact fun r hr => hmem r (mem_cons_of_mem _ hr)
      · exact h.remaining v writer hv
  | commit =>
    obtain ⟨batch, hw, rfl⟩ := hdoes
    exact h.commit hw

lemma ordered_reached (hstart : start.Consistent) {good : Appends → ℕ × AppendMove → Prop}
    (h : (appending start).Reached good s) : Ordered start s := by
  refine h.invariant ?_ fun _ _ _ hs _ hstep => hs.step hstep
  refine ⟨⟨hstart, [], (append_nil _).symm, List.Pairwise.nil, fun row h => absurd h not_mem_nil⟩, ?_, ?_, ?_⟩
  · intro holder tables hu
    cases hu
  · intro w writer n hw
    cases hw
  · intro w writer hw
    cases hw

end Interleavings

/-! ### Timely runs -/

/-- What was done of a batch is stored, as the writer sees it; without the lock nothing was done yet. -/
structure Progress (s : Appends) : Prop where
  finished : ∀ batch ∈ s.finished, ∀ record ∈ batch, Stored s.committed.rows record.dedupeKey
  done : ∀ w writer, s.writers w = some writer → ∃ done, writer.batch = done ++ writer.remaining ∧
    (∀ record ∈ done, Stored (s.view w).rows record.dedupeKey) ∧ (s.holds w = false → done = [])

section Runs
variable {start : LogTables} {s t : Appends} {w v : ℕ}

lemma Progress.step {move : AppendMove} (h : Progress s) (ho : Ordered start s) (htimely : Timely s (w, move))
    (hstep : append s (w, move) = some t) : Progress t := by
  have hdoes := does_of_append hstep
  cases move with
  | fail =>
    rw [Does] at hdoes
    rw [hdoes]
    refine ⟨h.finished, fun v writer hv => ?_⟩
    obtain ⟨-, hnone⟩ | ⟨hne, hv⟩ := setWriter_eq_some hv
    · cases hnone
    · obtain ⟨done, hbatch, hstored, hfree⟩ := h.done v writer hv
      refine ⟨done, hbatch, fun record hr => ?_, fun hholds => hfree ?_⟩
      · change Stored ((s.release w).view v).rows record.dedupeKey
        rw [view_release hne]
        exact hstored record hr
      · rw [← holds_release hne]
        exact hholds
  | call records =>
    obtain ⟨hnone, rfl⟩ := hdoes
    refine ⟨h.finished, fun v writer hv => ?_⟩
    obtain ⟨-, hsome⟩ | ⟨-, hv⟩ := setWriter_eq_some hv
    · cases hsome
      exact ⟨[], rfl, fun record hr => absurd hr not_mem_nil, fun _ => rfl⟩
    · exact h.done v writer hv
  | select =>
    obtain ⟨batch, record, rest, hw, rfl⟩ := hdoes
    refine ⟨h.finished, fun v writer hv => ?_⟩
    obtain ⟨rfl, hsome⟩ | ⟨-, hv⟩ := setWriter_eq_some hv
    · cases hsome
      obtain ⟨done, hdone⟩ := h.done v _ hw
      exact ⟨done, hdone⟩
    · exact h.done v writer hv
  | insert =>
    obtain ⟨batch, record, rest, n, hw, hfree, rfl⟩ := hdoes
    have hnext := ho.pending w _ n hw rfl
    refine ⟨h.finished, fun v writer hv => ?_⟩
    obtain ⟨rfl, hsome⟩ | ⟨hne, hv⟩ := setWriter_eq_some hv
    · cases hsome
      obtain ⟨done, hbatch, hstored, -⟩ := h.done v _ hw
      refine ⟨done ++ [record], ?_, fun r hr => ?_, fun hholds => ?_⟩
      · rw [append_assoc]
        exact hbatch
      · change Stored (Appends.view { s with uncommitted := some (v, (s.view v).insertOrIgnore record n) } v).rows r.dedupeKey
        rw [view_locked_self]
        cases mem_append.mp hr with
        | inl hr => exact (hstored r hr).mono hnext.extends_insert.isPrefix
        | inr hr =>
          rw [mem_singleton.mp hr]
          exact hnext.stored_iff.mpr (htimely batch record rest n hw)
      · have hheld : true = false := (decide_eq_true (rfl : v = v)).symm.trans hholds
        cases hheld
    · obtain ⟨done, hbatch, hstored, hempty⟩ := h.done v writer hv
      obtain rfl := hempty (not_holds_of_free hfree hne)
      exact ⟨[], hbatch, fun r hr => absurd hr not_mem_nil, fun _ => rfl⟩
  | commit =>
    obtain ⟨batch, hw, rfl⟩ := hdoes
    obtain ⟨done, hbatch, hstored, -⟩ := h.done w _ hw
    rw [append_nil] at hbatch
    have hextends := ho.view_extends w
    refine ⟨fun b hb record hr => ?_, fun v writer hv => ?_⟩
    · cases mem_append.mp hb with
      | inl hb => exact (h.finished b hb record hr).mono hextends.isPrefix
      | inr hb =>
        rw [mem_singleton.mp hb] at hr
        exact hstored record (hbatch ▸ hr)
    · obtain ⟨-, hnone⟩ | ⟨hne, hv⟩ := setWriter_eq_some hv
      · cases hnone
      · obtain ⟨done, hbatch, hstored, hempty⟩ := h.done v writer hv
        cases hholds : s.holds w with
        | true =>
          obtain rfl := hempty (not_holds_of_ne hholds hne)
          exact ⟨[], hbatch, fun r hr => absurd hr not_mem_nil, fun _ => rfl⟩
        | false =>
          rw [release_of_not_holds hholds, view_of_not_holds hholds]
          exact ⟨done, hbatch, hstored, hempty⟩

lemma progress_reached (hstart : start.Consistent) (h : (appending start).Reached Timely s) : Progress s := by
  induction h with
  | start =>
    refine ⟨fun batch hb => absurd hb not_mem_nil, fun w writer hw => ?_⟩
    cases hw
  | next e hreached htimely hstep ih =>
    obtain ⟨w, move⟩ := e
    exact ih.step (ordered_reached hstart hreached) htimely hstep

/-- In every interleaving the numbers increase in the order of the commits, the index holds the rows, and an insert
stores the key of its record if and only if it is in time. When all inserts are in time, nothing is lost. -/
theorem concurrent_appends_accounted (hstart : start.Consistent) :
    (∀ s, (appending start).Reached (fun _ _ => True) s → Grown start s.committed s.finished ∧
      ∀ w batch record rest nextSequence t, s.writers w = some ⟨batch, record :: rest, some nextSequence⟩ →
        append s (w, .insert) = some t →
        (Stored (t.view w).rows record.dedupeKey ↔ InTime (s.view w).rows record nextSequence)) ∧
    ∀ s, (appending start).Reached Timely s → Accounted start s := by
  refine ⟨fun s h => ?_, fun s h => ?_⟩
  · have ho := ordered_reached hstart h
    refine ⟨ho.committed, fun w batch record rest n t hw hstep => ?_⟩
    obtain ⟨batch', record', rest', n', hw', -, rfl⟩ := does_of_append hstep
    cases hw.symm.trans hw'
    change Stored (Appends.view { s with uncommitted := some (w, (s.view w).insertOrIgnore record n) } w).rows
      record.dedupeKey ↔ _
    rw [view_locked_self]
    exact (ho.pending w _ n hw rfl).stored_iff
  · have hp := progress_reached hstart h
    refine ⟨(ordered_reached hstart h).committed, hp.finished, fun batch hb => ?_⟩
    refine recordsByDedupeKeys_of_stored fun key hkey => ?_
    obtain ⟨record, hrecord, rfl⟩ := mem_map.mp hkey
    exact hp.finished batch hb record hrecord

end Runs

/-! ### Two writers -/

lemma empty_consistent : LogTables.Consistent {} := ⟨nodup_nil, nodup_nil, nodup_nil, rfl⟩

def firstRecord : LogRecord := recordFromRaw plainPipeline hostSubscription lineA "log-1" 0

def secondRecord : LogRecord := recordFromRaw plainPipeline hostSubscription lineB "log-2" 0

/-- One writer alone. -/
theorem firstRecord_accounted : ∃ s, (appending {}).runFrom (appending {}).init
      [(0, .call [firstRecord]), (0, .select), (0, .insert), (0, .commit)] = some s ∧
    s.finished = [[firstRecord]] ∧ Accounted {} s := by
  have hread : (appending {}).Reached Timely _ :=
    (System.Reached.start.next (0, .call [firstRecord]) (by trivial) rfl).next (0, .select) (by trivial) rfl
  have hinserted := hread.next (0, .insert) (fun batch record rest n hw => by
    cases hw
    exact .inr ⟨rfl, fun row h => absurd h not_mem_nil⟩) rfl
  have hcommitted : (appending {}).Reached Timely _ := hinserted.next (0, .commit) (by trivial) rfl
  exact ⟨_, rfl, rfl, (concurrent_appends_accounted empty_consistent).2 _ hcommitted⟩

/-- The second writer reads its number before the first one inserts. -/
def overlapping : List (ℕ × AppendMove) :=
  [(0, .call [firstRecord]), (0, .select), (1, .call [secondRecord]), (1, .select), (0, .insert), (0, .commit),
    (1, .insert), (1, .commit)]

lemma overlapping_run : ∃ s, (appending {}).runFrom (appending {}).init overlapping = some s ∧
    s.committed.rows = [{ firstRecord with streamSequence := 1 }] ∧ s.finished = [[firstRecord], [secondRecord]] :=
  ⟨_, rfl, rfl, rfl⟩

/-- The record of the second batch was ignored, though its key is new. -/
theorem overlapping_record_lost :
    ¬ ∀ moves s, (appending {}).runFrom (appending {}).init moves = some s → Accounted {} s := by
  intro h
  obtain ⟨s, hrun, hrows, hfinished⟩ := overlapping_run
  have hstored := (h _ _ hrun).stored [secondRecord] (by simp [hfinished]) secondRecord (mem_singleton_self _)
  rw [hrows] at hstored
  obtain ⟨row, hrow, hkey⟩ := hstored
  rw [mem_singleton.mp hrow] at hkey
  revert hkey
  decide +kernel

end IncidentLens.Logs.Concurrent
