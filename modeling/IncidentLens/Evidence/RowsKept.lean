import IncidentLens.Data.Results
import IncidentLens.Data.Table
import IncidentLens.Evidence.Migration

/-!
# Rows that a migration keeps

Every row of the older release is found in the unified table with its incident and its content if and only if the
unified table exists where rows are left over, each row is readable, a stored row of its id has its incident and its
content, and the dedupe keys of the new rows are neither stored nor shared.
-/
namespace IncidentLens.Evidence.Migration
open Data Logs List

/-! ### Reading rows -/

section
variable {sha256 : Sha256} {readers : Readers} {row : LegacyRow} {e : LogEvidence}

lemma orRaise_eq_ok {α : Type} {column : String} {o : Option α} {a : α} : orRaise column o = .ok a ↔ o = some a := by
  cases o with
  | none => exact iff_of_false (fun h => by cases h) (fun h => by cases h)
  | some b => exact ⟨fun h => congrArg some (Except.ok.inj h), fun h => congrArg Except.ok (Option.some.inj h)⟩

/-- The stored row has the id, the incident, the content and the dedupe key of the old one. -/
structure LegacyRow.Matches (sha256 : Sha256) (row : LegacyRow) (new : StoredRow) : Prop where
  id : new.id = row.evidenceRefId
  incident : new.evidence.incidentId = row.incidentId
  content : new.evidence.contentRedacted = row.contentRedacted
  dedupeKey : new.dedupeKey = row.dedupeKey sha256

lemma matches_of_ok (h : legacyEvidenceFromRow readers row = .ok e) : row.Matches sha256 (e.row sha256) := by
  simp only [legacyEvidenceFromRow, bind_eq_ok_iff, orRaise_eq_ok] at h
  obtain ⟨kind, hkind, sourceKind, hsource, scope, hscope, _, -, _, -, _, -, _, -, h⟩ := h
  split_ifs at h
  cases h
  refine ⟨rfl, rfl, rfl, ?_⟩
  rw [LogEvidence.row, LegacyRow.dedupeKey, deriveDedupeKey, dedupeText, ← value_of_byValue hkind,
    ← value_of_byValue hsource, ← value_of_byValue hscope]
  rfl

lemma mapM_readable_iff {rows : List LegacyRow} :
    (∃ es, rows.mapM (legacyEvidenceFromRow readers) = .ok es) ↔ ∀ row ∈ rows, row.Readable readers := by
  induction rows with
  | nil => exact iff_of_true ⟨[], rfl⟩ (fun _ h => by cases h)
  | cons row rows ih =>
    rw [forall_mem_cons, ← ih]
    simp only [mapM_eq_ok_iff, forall₂_cons_left_iff]
    constructor
    · rintro ⟨_, e, es, he, hes, -⟩
      exact ⟨⟨e, he⟩, es, hes⟩
    · rintro ⟨⟨e, he⟩, es, hes⟩
      exact ⟨e :: es, e, es, he, hes, rfl⟩

end

/-! ### Merging rows -/

section
variable {sha256 : Sha256}

def EvidenceTable.insertAll (table : EvidenceTable) (news : List StoredRow) : EvidenceTable :=
  news.foldl EvidenceTable.insertOrIgnore table

/-- An old row is stored with its incident and its content. -/
def EvidenceTable.Keeps (table : EvidenceTable) (row : LegacyRow) : Prop :=
  ∃ stored ∈ table.rows, stored.id = row.evidenceRefId ∧ stored.evidence.incidentId = row.incidentId ∧
    stored.evidence.contentRedacted = row.contentRedacted

def EvidenceTable.Lacks (table : EvidenceTable) (row : LegacyRow) : Prop :=
  ∀ stored ∈ table.rows, stored.id ≠ row.evidenceRefId

/-- The old rows fit in a table: each is stored already, or neither its id nor its dedupe key is stored, and no two rows
that are not stored have one dedupe key. -/
structure EvidenceTable.Fits (sha256 : Sha256) (table : EvidenceTable) (rows : List LegacyRow) : Prop where
  placed : ∀ row ∈ rows,
    table.Keeps row ∨ table.Lacks row ∧ ∀ stored ∈ table.rows, stored.dedupeKey ≠ row.dedupeKey sha256
  distinct : rows.Pairwise fun row row' =>
    table.Lacks row → table.Lacks row' → row.dedupeKey sha256 ≠ row'.dedupeKey sha256

variable {table : EvidenceTable} {row : LegacyRow} {new stored : StoredRow} {rows : List LegacyRow} {news : List StoredRow}

lemma mem_insertOrIgnore (h : stored ∈ table.rows) : stored ∈ (table.insertOrIgnore new).rows := by
  rw [EvidenceTable.insertOrIgnore]
  split_ifs
  · exact h
  · exact mem_append_left _ h

lemma mem_insertAll (h : stored ∈ table.rows) : stored ∈ (table.insertAll news).rows := by
  induction news generalizing table with
  | nil => exact h
  | cons new news ih => exact ih (mem_insertOrIgnore h)

lemma of_mem_insertAll (h : stored ∈ (table.insertAll news).rows) : stored ∈ table.rows ∨ stored ∈ news := by
  induction news generalizing table with
  | nil => exact .inl h
  | cons new news ih =>
    rcases ih h with hrow | hrow
    · rw [EvidenceTable.insertOrIgnore] at hrow
      split_ifs at hrow
      · exact .inl hrow
      · rcases mem_append.mp hrow with hrow | hrow
        · exact .inl hrow
        · exact .inr (mem_cons.mpr (.inl (mem_singleton.mp hrow)))
    · exact .inr (mem_cons_of_mem _ hrow)

lemma keeps_insertAll_iff (hids : ∀ new ∈ news, new.id ≠ row.evidenceRefId) :
    (table.insertAll news).Keeps row ↔ table.Keeps row := by
  constructor
  · rintro ⟨stored, hstored, hid, hsame⟩
    rcases of_mem_insertAll hstored with h | h
    · exact ⟨stored, h, hid, hsame⟩
    · exact absurd hid (hids stored h)
  · rintro ⟨stored, hstored, hsame⟩
    exact ⟨stored, mem_insertAll hstored, hsame⟩

lemma ids_of_matches (h : List.Forall₂ (LegacyRow.Matches sha256) rows news) :
    news.map StoredRow.id = rows.map LegacyRow.evidenceRefId := by
  induction h with
  | nil => rfl
  | cons hmatches _ ih => rw [map_cons, map_cons, hmatches.id, ih]

lemma placed_insert_iff {row' : LegacyRow} (hnone : ¬ table.rows.any new.conflicts) (hid : new.id ≠ row'.evidenceRefId) :
    ((table.insertOrIgnore new).Keeps row' ↔ table.Keeps row') ∧
      ((table.insertOrIgnore new).Lacks row' ↔ table.Lacks row') ∧
      ((∀ stored ∈ (table.insertOrIgnore new).rows, stored.dedupeKey ≠ row'.dedupeKey sha256) ↔
        (∀ stored ∈ table.rows, stored.dedupeKey ≠ row'.dedupeKey sha256) ∧ new.dedupeKey ≠ row'.dedupeKey sha256) := by
  have hrows : (table.insertOrIgnore new).rows = table.rows ++ [new] := by
    rw [EvidenceTable.insertOrIgnore, dif_neg hnone]
  refine ⟨@keeps_insertAll_iff table row' [new] ?_, ?_, ?_⟩
  · intro new' hnew
    rwa [mem_singleton.mp hnew]
  · simp only [EvidenceTable.Lacks, hrows, forall_mem_append, forall_mem_singleton]
    exact and_iff_left hid
  · simp only [hrows, forall_mem_append, forall_mem_singleton]

lemma not_lacks_of_keeps (h : table.Keeps row) : ¬ table.Lacks row := by
  obtain ⟨stored, hstored, hid, -⟩ := h
  exact fun hlacks => hlacks stored hstored hid

lemma fits_cons_of_conflicts (hmatches : row.Matches sha256 new) (hany : table.rows.any new.conflicts) :
    table.Keeps row ∧ table.Fits sha256 rows ↔ table.Fits sha256 (row :: rows) := by
  constructor
  · rintro ⟨hkeeps, hfits⟩
    refine ⟨forall_mem_cons.mpr ⟨.inl hkeeps, hfits.placed⟩, pairwise_cons.mpr ⟨?_, hfits.distinct⟩⟩
    exact fun _ _ hlacks => absurd hlacks (not_lacks_of_keeps hkeeps)
  · intro hfits
    obtain ⟨hplaced, hrest⟩ := forall_mem_cons.mp hfits.placed
    refine ⟨hplaced.resolve_right ?_, hrest, (pairwise_cons.mp hfits.distinct).2⟩
    rintro ⟨hlacks, hkeys⟩
    obtain ⟨stored, hstored, hconflicts⟩ := any_eq_true.mp hany
    rw [StoredRow.conflicts, Bool.or_eq_true, decide_eq_true_eq, decide_eq_true_eq, hmatches.id, hmatches.dedupeKey]
      at hconflicts
    exact hconflicts.elim (hlacks stored hstored) (hkeys stored hstored)

lemma fits_cons_of_insert (hmatches : row.Matches sha256 new) (hnone : ¬ table.rows.any new.conflicts)
    (hids : ∀ row' ∈ rows, new.id ≠ row'.evidenceRefId) :
    (table.insertOrIgnore new).Fits sha256 rows ↔ table.Fits sha256 (row :: rows) := by
  have hlacks : table.Lacks row := by
    intro stored hstored hid
    exact hnone (any_eq_true.mpr ⟨stored, hstored, conflicts_of_id stored (hid.trans hmatches.id.symm)⟩)
  have hkeys : ∀ stored ∈ table.rows, stored.dedupeKey ≠ row.dedupeKey sha256 := by
    intro stored hstored hkey
    exact hnone (any_eq_true.mpr ⟨stored, hstored, conflicts_of_key stored (hkey.trans hmatches.dedupeKey.symm)⟩)
  have hkeep (row') (hrow' : row' ∈ rows) := (@placed_insert_iff sha256 table new row' hnone (hids row' hrow')).1
  have hlack (row') (hrow' : row' ∈ rows) := (@placed_insert_iff sha256 table new row' hnone (hids row' hrow')).2.1
  have hfree (row') (hrow' : row' ∈ rows) := (@placed_insert_iff sha256 table new row' hnone (hids row' hrow')).2.2
  constructor
  · intro hfits
    refine ⟨forall_mem_cons.mpr ⟨.inr ⟨hlacks, hkeys⟩, ?_⟩, pairwise_cons.mpr ⟨?_, ?_⟩⟩
    · intro row' hrow'
      rcases hfits.placed row' hrow' with hkeeps | ⟨hlacks', hkeys'⟩
      · exact .inl ((hkeep row' hrow').mp hkeeps)
      · exact .inr ⟨(hlack row' hrow').mp hlacks', ((hfree row' hrow').mp hkeys').1⟩
    · intro row' hrow' _ hlacks'
      rcases hfits.placed row' hrow' with hkeeps | ⟨-, hkeys'⟩
      · exact absurd hlacks' (not_lacks_of_keeps ((hkeep row' hrow').mp hkeeps))
      · rw [← hmatches.dedupeKey]
        exact ((hfree row' hrow').mp hkeys').2
    · refine hfits.distinct.imp_of_mem ?_
      intro a b ha hb h hlacks' hlacks''
      exact h ((hlack a ha).mpr hlacks') ((hlack b hb).mpr hlacks'')
  · intro hfits
    obtain ⟨hapart, hdistinct⟩ := pairwise_cons.mp hfits.distinct
    refine ⟨?_, ?_⟩
    · intro row' hrow'
      rcases hfits.placed row' (mem_cons_of_mem _ hrow') with hkeeps | ⟨hlacks', hkeys'⟩
      · exact .inl ((hkeep row' hrow').mpr hkeeps)
      · refine .inr ⟨(hlack row' hrow').mpr hlacks', (hfree row' hrow').mpr ⟨hkeys', ?_⟩⟩
        rw [hmatches.dedupeKey]
        exact hapart row' hrow' hlacks hlacks'
    · refine hdistinct.imp_of_mem ?_
      intro a b ha hb h hlacks' hlacks''
      exact h ((hlack a ha).mp hlacks') ((hlack b hb).mp hlacks'')

lemma insertAll_keeps_iff (h : List.Forall₂ (LegacyRow.Matches sha256) rows news)
    (hunique : (rows.map LegacyRow.evidenceRefId).Nodup) :
    (∀ row ∈ rows, (table.insertAll news).Keeps row) ↔ table.Fits sha256 rows := by
  induction h generalizing table with
  | nil => exact iff_of_true (fun _ h => by cases h) ⟨fun _ h => (by cases h), .nil⟩
  | @cons row new rows news hmatches hrest ih =>
    rw [map_cons, nodup_cons] at hunique
    have hids : ∀ row' ∈ rows, new.id ≠ row'.evidenceRefId := by
      intro row' hrow' hid
      exact hunique.1 (hmatches.id ▸ hid ▸ mem_map_of_mem hrow')
    have hnews : ∀ new' ∈ news, new'.id ≠ row.evidenceRefId := by
      intro new' hnew' hid
      exact hunique.1 (hid ▸ ids_of_matches hrest ▸ mem_map_of_mem hnew')
    have hfirst : (table.insertAll (new :: news)).Keeps row ↔ (table.insertOrIgnore new).Keeps row :=
      keeps_insertAll_iff hnews
    have hothers := @ih (table.insertOrIgnore new) hunique.2
    rw [forall_mem_cons, hfirst]
    change _ ∧ (∀ row' ∈ rows, ((table.insertOrIgnore new).insertAll news).Keeps row') ↔ _
    rw [hothers]
    by_cases hany : table.rows.any new.conflicts
    · rw [EvidenceTable.insertOrIgnore, dif_pos hany]
      exact fits_cons_of_conflicts hmatches hany
    · rw [fits_cons_of_insert hmatches hany hids]
      refine and_iff_right ⟨new, ?_, hmatches.id, hmatches.incident, hmatches.content⟩
      rw [EvidenceTable.insertOrIgnore, dif_neg hany]
      exact mem_append_right _ (mem_singleton_self new)

end
/-! ### Results of the migration -/

/-- Before or after a migration, a row of an id has an incident and a content. -/
def Database.Holds (db : Database) (evidenceRefId incidentId contentRedacted : String) : Prop :=
  (∃ row ∈ db.legacyRows, row.evidenceRefId = evidenceRefId ∧ row.incidentId = incidentId ∧
      row.contentRedacted = contentRedacted) ∨
    ∃ table, db.refs = .current table ∧ ∃ stored ∈ table.rows, stored.id = evidenceRefId ∧
      stored.evidence.incidentId = incidentId ∧ stored.evidence.contentRedacted = contentRedacted

section
variable (sha256 : Sha256) (readers : Readers)

/-- What is asked of a migration: it succeeds, what was held is read with the same incident and content, and another
one changes nothing. -/
structure Migrates (db : Database) : Prop where
  succeeds : (migrate sha256 readers (fun _ => none) db).2 = .ok ()
  keeps : ∀ evidenceRefId incidentId contentRedacted, db.Holds evidenceRefId incidentId contentRedacted →
    ∃ e, (migrated sha256 readers db).get evidenceRefId = some e ∧ e.incidentId = incidentId ∧
      e.contentRedacted = contentRedacted
  settles : migrated sha256 readers (migrated sha256 readers db) = migrated sha256 readers db

/-- Rows are merged only into a unified table that exists, where all are readable and fit. -/
def Mergeable (db : Database) : Prop :=
  match db.refs with
  | .missing => db.leftoverRows = []
  | .legacy old => db.leftoverRows = [] ∧ (∀ row ∈ old.rows, row.Readable readers) ∧ EvidenceTable.Fits sha256 {} old.rows
  | .current table => (∀ row ∈ db.leftoverRows, row.Readable readers) ∧ table.Fits sha256 db.leftoverRows

end

section
variable {sha256 : Sha256} {readers : Readers} {table : EvidenceTable} {db : Database}

lemma result_mergeRows (rows : List LegacyRow) (table : EvidenceTable) (leftover : Option LegacyTable) :
    (mergeRows sha256 readers rows).result ⟨.current table, leftover⟩ =
      (rows.mapM (legacyEvidenceFromRow readers)).map fun es =>
        ⟨.current (table.insertAll (es.map (LogEvidence.row sha256))), leftover⟩ := by
  induction rows generalizing table with
  | nil => rfl
  | cons row rows ih =>
    rw [mergeRows, mapM_cons]
    cases legacyEvidenceFromRow readers row with
    | error e => rfl
    | ok e =>
      change (mergeRows sha256 readers rows).result ⟨.current (table.insertOrIgnore (e.row sha256)), leftover⟩ = _
      rw [ih]
      cases rows.mapM (legacyEvidenceFromRow readers) with
      | error e => rfl
      | ok es => rfl

lemma result_mergeRows_ne (hrefs : ∀ table, db.refs ≠ .current table) {rows : List LegacyRow} (h : rows ≠ []) :
    ∃ e, (mergeRows sha256 readers rows).result db = .error e := by
  cases rows with
  | nil => exact absurd rfl h
  | cons row rows =>
    rw [mergeRows]
    cases legacyEvidenceFromRow readers row with
    | error e => exact ⟨e, rfl⟩
    | ok e =>
      cases hdb : db.refs with
      | missing => exact ⟨_, by rw [Script.result, insertEvidence, hdb]⟩
      | legacy old => exact ⟨_, by rw [Script.result, insertEvidence, hdb]⟩
      | current table => exact absurd hdb (hrefs table)

def merged (sha256 : Sha256) (readers : Readers) (table : EvidenceTable) (rows : List LegacyRow) : Except Failure Database :=
  (rows.mapM (legacyEvidenceFromRow readers)).map fun es =>
    ⟨.current (table.insertAll (es.map (LogEvidence.row sha256))), none⟩

lemma result_mergeLegacyRows (table : EvidenceTable) (old : LegacyTable) :
    (mergeLegacyRows sha256 readers).result ⟨.current table, some old⟩ = merged sha256 readers table old.rows := by
  rw [mergeLegacyRows, Script.result, selectLegacyRows]
  change ((mergeRows sha256 readers old.rows).seq _).result _ = _
  rw [Script.result_seq, result_mergeRows, merged]
  cases old.rows.mapM (legacyEvidenceFromRow readers) with
  | error e => rfl
  | ok es => rfl

lemma result_schema (leftover : Option LegacyTable) :
    (executeAll schemaStatements).result ⟨.missing, leftover⟩ = .ok ⟨.current {}, leftover⟩ := rfl

lemma result_upgrade_legacy (old : LegacyTable) :
    (upgrade sha256 readers).result ⟨.legacy old, none⟩ = merged sha256 readers {} old.rows := by
  change ((executeAll schemaStatements).seq (mergeLegacyRows sha256 readers)).result ⟨.missing, some old⟩ = _
  rw [Script.result_seq, result_schema]
  exact result_mergeLegacyRows {} old

lemma result_migrateScript_some (refs : Refs) (old : LegacyTable) :
    (migrateScript sha256 readers).result ⟨refs, some old⟩ =
      ((mergeLegacyRows sha256 readers).result ⟨refs, some old⟩).bind (upgrade sha256 readers).result := by
  change ((mergeLegacyRows sha256 readers).seq (upgrade sha256 readers)).result _ = _
  rw [Script.result_seq]

lemma result_migrateScript_leftover (hrefs : ∀ table, db.refs ≠ .current table) :
    db.leftoverRows = [] ∧ (migrateScript sha256 readers).result db = (upgrade sha256 readers).result ⟨db.refs, none⟩ ∨
      db.leftoverRows ≠ [] ∧ ∃ e, (migrateScript sha256 readers).result db = .error e := by
  obtain ⟨refs, _ | old⟩ := db
  · exact .inl ⟨rfl, rfl⟩
  · rw [result_migrateScript_some]
    change old.rows = [] ∧ _ ∨ old.rows ≠ [] ∧ _
    have hmerge : (mergeLegacyRows sha256 readers).result ⟨refs, some old⟩ =
        ((mergeRows sha256 readers old.rows).result ⟨refs, some old⟩).bind fun db => .ok { db with leftover := none } := by
      change ((mergeRows sha256 readers old.rows).seq _).result _ = _
      rw [Script.result_seq]
      rfl
    by_cases hnil : old.rows = []
    · refine .inl ⟨hnil, ?_⟩
      rw [hmerge, hnil]
      rfl
    · obtain ⟨e, he⟩ := @result_mergeRows_ne sha256 readers ⟨refs, some old⟩ hrefs old.rows hnil
      refine .inr ⟨hnil, e, ?_⟩
      rw [hmerge, he]
      rfl

lemma result_migrateScript_current (leftover : Option LegacyTable) :
    (migrateScript sha256 readers).result ⟨.current table, leftover⟩ =
      merged sha256 readers table (Database.leftoverRows ⟨.current table, leftover⟩) := by
  cases leftover with
  | none => rfl
  | some old =>
    rw [result_migrateScript_some, result_mergeLegacyRows]
    change (merged sha256 readers table old.rows).bind _ = merged sha256 readers table old.rows
    rw [merged]
    cases old.rows.mapM (legacyEvidenceFromRow readers) with
    | error e => rfl
    | ok es => rfl

lemma migrate_faultless :
    (migrate sha256 readers (fun _ => none) db).2 = ((migrateScript sha256 readers).result db).map fun _ => () :=
  transaction_faultless (fun _ => rfl) _ db

lemma migrated_of_result {db' : Database} (h : (migrateScript sha256 readers).result db = .ok db') :
    migrated sha256 readers db = db' := by
  have hok : (migrate sha256 readers (fun _ => none) db).2 = .ok () := by rw [migrate_faultless, h]; rfl
  rcases (@transaction_atomic Database Failure (fun _ => none) (migrateScript sha256 readers) db).2 with ⟨-, hresult⟩ | ⟨⟨e, he⟩, -⟩
  · rw [h] at hresult
    exact (Except.ok.inj hresult).symm
  · rw [migrate, he] at hok
    cases hok

lemma not_migrates {e : Failure} (h : (migrateScript sha256 readers).result db = .error e) :
    ¬ Migrates sha256 readers db := by
  rintro ⟨hok, -, -⟩
  rw [migrate_faultless, h] at hok
  cases hok

lemma get_current {stored : StoredRow} (h : stored ∈ table.rows) :
    Database.get ⟨.current table, none⟩ stored.id = some stored.evidence := by
  rw [Database.get]
  change (table.rows.find? _).map _ = _
  rw [find?_of_nodup table.uniqueIds h]
  rfl

lemma mem_of_get {id : String} {e : LogEvidence} (h : Database.get ⟨.current table, none⟩ id = some e) :
    ∃ stored ∈ table.rows, stored.id = id ∧ stored.evidence = e := by
  obtain ⟨stored, hfind, rfl⟩ := Option.map_eq_some_iff.mp h
  exact ⟨stored, mem_of_find?_eq_some hfind, by simpa using find?_some hfind, rfl⟩

lemma migrates_iff_of_merged {rows : List LegacyRow} (hunique : (rows.map LegacyRow.evidenceRefId).Nodup)
    (hresult : (migrateScript sha256 readers).result db = merged sha256 readers table rows)
    (hholds : ∀ id incident content, db.Holds id incident content ↔
      (∃ row ∈ rows, row.evidenceRefId = id ∧ row.incidentId = incident ∧ row.contentRedacted = content) ∨
        ∃ stored ∈ table.rows, stored.id = id ∧ stored.evidence.incidentId = incident ∧
          stored.evidence.contentRedacted = content) :
    Migrates sha256 readers db ↔ (∀ row ∈ rows, row.Readable readers) ∧ table.Fits sha256 rows := by
  rw [← mapM_readable_iff]
  cases hes : rows.mapM (legacyEvidenceFromRow readers) with
  | error e =>
    rw [merged, hes] at hresult
    exact iff_of_false (not_migrates hresult) (by rintro ⟨⟨_, ⟨⟩⟩, -⟩)
  | ok es =>
    rw [merged, hes] at hresult
    have hmatches : List.Forall₂ (LegacyRow.Matches sha256) rows (es.map (LogEvidence.row sha256)) :=
      forall₂_map_right_iff.mpr ((mapM_eq_ok_iff.mp hes).imp fun _ _ h => matches_of_ok h)
    rw [and_iff_right ⟨es, rfl⟩, ← insertAll_keeps_iff hmatches hunique]
    have hmigrated := migrated_of_result hresult
    constructor
    · intro h row hrow
      obtain ⟨e, he, hincident, hcontent⟩ := h.keeps _ _ _ ((hholds _ _ _).mpr (.inl ⟨row, hrow, rfl, rfl, rfl⟩))
      rw [hmigrated] at he
      obtain ⟨stored, hstored, hid, rfl⟩ := mem_of_get he
      exact ⟨stored, hstored, hid, hincident, hcontent⟩
    · intro hkeeps
      refine ⟨by rw [migrate_faultless, hresult]; rfl, ?_, ?_⟩
      · intro id incident content hheld
        rw [hmigrated]
        rcases (hholds id incident content).mp hheld with ⟨row, hrow, rfl, rfl, rfl⟩ | ⟨stored, hstored, rfl, rfl, rfl⟩
        · obtain ⟨stored, hstored, hid, hincident, hcontent⟩ := hkeeps row hrow
          exact ⟨_, hid ▸ get_current hstored, hincident, hcontent⟩
        · exact ⟨_, get_current (mem_insertAll hstored), rfl, rfl⟩
      · rw [hmigrated]
        exact migrated_of_result (result_migrateScript_current none)

lemma migrates_iff_mergeable : Migrates sha256 readers db ↔ Mergeable sha256 readers db := by
  obtain ⟨refs, leftover⟩ := db
  cases refs with
  | missing =>
    rcases @result_migrateScript_leftover sha256 readers ⟨.missing, leftover⟩ (fun _ h => nomatch h) with
      ⟨hnil, hresult⟩ | ⟨hrows, e, he⟩
    · refine (@migrates_iff_of_merged sha256 readers {} _ [] .nil hresult ?_).trans ?_
      · intro id incident content
        simp [Database.Holds, Database.legacyRows, hnil]
      · exact iff_of_true ⟨fun _ h => (nomatch h), ⟨fun _ h => (nomatch h), .nil⟩⟩ hnil
    · exact iff_of_false (not_migrates he) hrows
  | legacy old =>
    rcases @result_migrateScript_leftover sha256 readers ⟨.legacy old, leftover⟩ (fun _ h => nomatch h) with
      ⟨hnil, hresult⟩ | ⟨hrows, e, he⟩
    · rw [result_upgrade_legacy] at hresult
      refine (migrates_iff_of_merged old.uniqueIds hresult ?_).trans (and_iff_right hnil).symm
      intro id incident content
      simp [Database.Holds, Database.legacyRows, hnil]
    · exact iff_of_false (not_migrates he) (fun h => hrows h.1)
  | current table =>
    refine migrates_iff_of_merged ?_ (result_migrateScript_current leftover) ?_
    · cases leftover with
      | none => exact .nil
      | some old => exact old.uniqueIds
    · intro id incident content
      simp [Database.Holds, Database.legacyRows]

end

/-- A migration does what is asked of it exactly where rows are merged into a unified table in which they fit; one in
which a statement fails changes nothing. -/
theorem evidence_migration_iff (sha256 : Sha256) (readers : Readers) (db : Database) :
    (Migrates sha256 readers db ↔ Mergeable sha256 readers db) ∧
      ∀ (fault : ℕ → Option Failure) (e : Failure), (migrate sha256 readers fault db).2 = .error e →
        (migrate sha256 readers fault db).1.committed = db := by
  refine ⟨migrates_iff_mergeable, ?_⟩
  intro fault e he
  rcases (@transaction_atomic Database Failure fault (migrateScript sha256 readers) db).2 with ⟨hok, -⟩ | ⟨-, hsame⟩
  · rw [migrate, hok] at he
    cases he
  · exact hsame

/-- The row that `test_store.py` puts in the old table. -/
def sampleRow : LegacyRow where
  evidenceRefId := "ev-legacy-1"
  incidentId := "inc-1"
  evidenceKind := "log_record"
  projectId := "demo"
  targetId := "local"
  serviceName := "api"
  sourceKind := "file"
  scope := "host"
  sourceRef := "api.log"
  cursor := "1:0"
  contentRedacted := "timeout"
  contentSha256 := "0000000000000000000000000000000000000000000000000000000000000000"
  redactionSummaryJson := "{}"
  severity := "error"
  eventTime := none
  normalSignal := none
  correlationKey := none
  createdAt := "2026-08-12T10:00:00+00:00"
  createdBy := "alice"

def zeros : Sha256 where
  hexdigest _ := sampleRow.contentSha256
  length_hexdigest _ := by decide +kernel
  barless _ := by decide +kernel

def sampleReaders : Readers where
  summary text := if text = sampleRow.redactionSummaryJson then some [] else none
  time text := if text = sampleRow.createdAt then some 1786528800 else none

/-- Rows that are left over where there is no unified table stop every migration. -/
theorem leftover_not_migrated : ¬ ∀ (sha256 : Sha256) (readers : Readers) (db : Database), Migrates sha256 readers db := by
  intro h
  have hmigrates := h zeros sampleReaders ⟨.missing, some ⟨[sampleRow], nodup_singleton _⟩⟩
  cases migrates_iff_mergeable.mp hmigrates

end IncidentLens.Evidence.Migration
