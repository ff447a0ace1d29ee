import IncidentLens.Changes.Policy
import IncidentLens.Data.Splice

/-!
# Edits of a text

An edit request is met where every old text occurs as often as it should and no two of the
stretches to be replaced share a character; then all of them are replaced at once.
-/
namespace IncidentLens.Changes
open Data Replacement List Patch

/-- A `TextReplacement` within the bounds of its fields. -/
structure Edit extends TextReplacement where
  nonempty : oldText ≠ []
  counted : 0 < expectedCount

/-- The places of a text where a needle occurs, also where occurrences overlap. -/
def occurrences (needle text : Text) : List ℕ := (range text.length).filter fun i => needle.isPrefixOf (text.drop i)

def intervals (text : Text) (edits : List Edit) : List (Patch Char) :=
  edits.flatMap fun e => (occurrences e.oldText text).map fun i => ⟨i, i + e.oldText.length, e.newText⟩

def Replacement.patch (r : Replacement) : Patch Char := ⟨r.start, r.stop, r.newText⟩

variable {text : Text} {edits edits' : List Edit} {e : Edit}

lemma mem_occurrences {needle : Text} {i : ℕ} :
    i ∈ occurrences needle text ↔ i < text.length ∧ needle <+: text.drop i := by
  rw [occurrences, mem_filter, mem_range, isPrefixOf_iff_prefix]

lemma findOccurrences_eq (needle text : Text) (start : ℕ) :
    findOccurrences needle text start = (occurrences needle text).map (start + ·) := by
  induction text generalizing start with
  | nil => rfl
  | cons c cs ih =>
    have hshift : ((range cs.length).map Nat.succ).filter (fun i => needle.isPrefixOf ((c :: cs).drop i)) =
        (occurrences needle cs).map Nat.succ := by
      rw [filter_map]
      rfl
    have hrest : findOccurrences needle cs (start + 1) = ((occurrences needle cs).map Nat.succ).map (start + ·) := by
      rw [ih, map_map]
      exact map_congr_left fun i _ => by simp only [Function.comp_apply]; omega
    rw [findOccurrences, occurrences, length_cons, range_succ_eq_map, filter_cons, hshift, hrest, drop_zero]
    split_ifs
    · rfl
    · rfl

/-! ### The order of the ranges -/

lemma Replacement.le_start {a b : Replacement} (h : a.le b) : a.start ≤ b.start := by
  rcases h with h | ⟨h, -⟩
  · exact h.le
  · exact h.le

instance totalReplacementLe : Std.Total le := by
  refine ⟨fun a b => ?_⟩
  unfold le
  rcases lt_trichotomy a.start b.start with h | h | h
  · exact .inl (.inl h)
  · rcases lt_trichotomy a.stop b.stop with h' | h' | h'
    · exact .inl (.inr ⟨h, .inl h'⟩)
    · rcases le_total a.newText b.newText with hle | hle
      · exact .inl (.inr ⟨h, .inr ⟨h', not_lt.mpr hle⟩⟩)
      · exact .inr (.inr ⟨h.symm, .inr ⟨h'.symm, not_lt.mpr hle⟩⟩)
    · exact .inr (.inr ⟨h.symm, .inl h'⟩)
  · exact .inr (.inl h)

instance transReplacementLe : IsTrans Replacement le := by
  refine ⟨fun a b c hab hbc => ?_⟩
  unfold le at *
  rcases hab with h | ⟨h, h' | ⟨h', htext⟩⟩
  · have := le_start hbc
    exact .inl (by omega)
  · rcases hbc with k | ⟨k, k' | ⟨k', -⟩⟩
    · exact .inl (by omega)
    · exact .inr ⟨by omega, .inl (by omega)⟩
    · exact .inr ⟨by omega, .inl (by omega)⟩
  · rcases hbc with k | ⟨k, k' | ⟨k', ktext⟩⟩
    · exact .inl (by omega)
    · exact .inr ⟨by omega, .inl (by omega)⟩
    · exact .inr ⟨by omega, .inr ⟨by omega, not_lt.mpr ((not_lt.mp htext).trans (not_lt.mp ktext))⟩⟩

/-! ### The ranges of the edits -/

lemma overlap_eq (rs : List Replacement) : overlap rs = Patch.overlap (rs.map patch) := by
  induction rs with
  | nil => rfl
  | cons r rs ih =>
    cases rs with
    | nil => rfl
    | cons s rs =>
      rw [overlap, ih]
      rfl

lemma splice_eq (text : Text) (cursor : ℕ) (rs : List Replacement) :
    splice text cursor rs = Patch.splice text cursor (rs.map patch) := by
  induction rs generalizing cursor with
  | nil => rfl
  | cons r rs ih =>
    rw [splice, ih]
    rfl

def Edit.ranges (text : Text) (e : Edit) : List Replacement :=
  (occurrences e.oldText text).map fun i => ⟨i, i + e.oldText.length, e.newText⟩

lemma replacementRanges_eq_ok {rs : List Replacement} : replacementRanges text e.toTextReplacement = .ok rs ↔
    (occurrences e.oldText text).length = e.expectedCount ∧ rs = e.ranges text := by
  have hstarts : findOccurrences e.oldText text 0 = occurrences e.oldText text := by
    rw [findOccurrences_eq]
    simp
  unfold replacementRanges
  simp only [hstarts]
  by_cases hcount : (occurrences e.oldText text).length = e.expectedCount
  · have hne : occurrences e.oldText text ≠ [] := length_pos_iff.mp (hcount ▸ e.counted)
    rw [if_neg (not_not.mpr hcount), if_neg hne]
    simp only [Except.ok.injEq, hcount, true_and]
    exact eq_comm
  · rw [if_pos hcount]
    simp [hcount]

lemma mapM_replacementRanges {rss : List (List Replacement)} :
    (edits.map Edit.toTextReplacement).mapM (replacementRanges text) = .ok rss ↔
      (∀ e ∈ edits, (occurrences e.oldText text).length = e.expectedCount) ∧ rss = edits.map (Edit.ranges text) := by
  induction edits generalizing rss with
  | nil =>
    simp only [map_nil, mapM_nil, not_mem_nil, false_imp_iff, implies_true, true_and]
    exact ⟨fun h => (Except.ok.inj h).symm, fun h => h ▸ rfl⟩
  | cons e edits ih =>
    rw [map_cons, mapM_cons, forall_mem_cons]
    cases hr : replacementRanges text e.toTextReplacement with
    | error x =>
      refine iff_of_false (by rintro ⟨⟩) ?_
      rintro ⟨⟨hcount, -⟩, -⟩
      rw [replacementRanges_eq_ok.mpr ⟨hcount, rfl⟩] at hr
      cases hr
    | ok rs =>
      obtain ⟨hcount, rfl⟩ := replacementRanges_eq_ok.mp hr
      cases hrs : (edits.map Edit.toTextReplacement).mapM (replacementRanges text) with
      | error x =>
        refine iff_of_false (by rintro ⟨⟩) ?_
        rintro ⟨⟨-, hcounts⟩, -⟩
        rw [ih.mpr ⟨hcounts, rfl⟩] at hrs
        cases hrs
      | ok rss' =>
        obtain ⟨hcounts, rfl⟩ := ih.mp hrs
        constructor
        · intro h
          exact ⟨⟨hcount, hcounts⟩, (Except.ok.inj h).symm⟩
        · rintro ⟨-, rfl⟩
          rfl

lemma map_patch_ranges (text : Text) (edits : List Edit) :
    (edits.map (Edit.ranges text)).flatten.map patch = intervals text edits := by
  rw [← flatMap_def, map_flatMap, intervals]
  refine flatMap_congr fun e _ => ?_
  rw [Edit.ranges, map_map]
  rfl

lemma within_intervals {p : Patch Char} (hp : p ∈ intervals text edits) : p.Within text.length := by
  obtain ⟨e, -, hp⟩ := mem_flatMap.mp hp
  obtain ⟨i, hi, rfl⟩ := mem_map.mp hp
  obtain ⟨hlt, hprefix⟩ := mem_occurrences.mp hi
  have hpos := length_pos_iff.mpr e.nonempty
  have hle := hprefix.length_le
  rw [length_drop] at hle
  exact ⟨by dsimp only; omega, by dsimp only; omega⟩

lemma decodeUtf8_encodeUtf8 (text : Text) : decodeUtf8 (encodeUtf8 text) = .ok text := by
  have hbytes : (⟨(encodeUtf8 text).toArray⟩ : ByteArray) = (String.ofList text).toByteArray := by
    rw [encodeUtf8, Array.toArray_toList]
    rfl
  have hsome : String.fromUTF8? (String.ofList text).toByteArray = some (String.ofList text) := by
    rw [String.fromUTF8?, dif_pos (String.ofList text).isValidUTF8]
    rfl
  rw [decodeUtf8, hbytes, hsome]
  exact congrArg Except.ok String.toList_ofList

def sortedRanges (text : Text) (edits : List Edit) : List Replacement :=
  (edits.map (Edit.ranges text)).flatten.insertionSort le

lemma perm_sortedRanges (text : Text) (edits : List Edit) :
    ((sortedRanges text edits).map patch).Perm (intervals text edits) := by
  rw [← map_patch_ranges]
  exact (perm_insertionSort _ _).map _

lemma applyEdits_eq_ok {out : Bytes} : applyEdits (encodeUtf8 text) (edits.map Edit.toTextReplacement) = .ok out ↔
    (∀ e ∈ edits, (occurrences e.oldText text).length = e.expectedCount) ∧
      (intervals text edits).Pairwise Patch.Disjoint ∧
      out = encodeUtf8 (simultaneous (intervals text edits) text) := by
  have hperm := perm_sortedRanges text edits
  have hwithin : ∀ p ∈ (sortedRanges text edits).map patch, p.Within text.length := fun p hp =>
    within_intervals (hperm.mem_iff.mp hp)
  have hsorted : ((sortedRanges text edits).map patch).Pairwise fun p q => p.start ≤ q.start :=
    pairwise_map.mpr ((pairwise_insertionSort _ _).imp le_start)
  have hoverlap : overlap (sortedRanges text edits) = false ↔ (intervals text edits).Pairwise Patch.Disjoint := by
    rw [overlap_eq, Patch.overlap_eq_false_iff hsorted fun p hp => (hwithin p hp).1,
      ← pairwise_disjoint_iff hsorted fun p hp => (hwithin p hp).1]
    exact hperm.pairwise_iff fun h => h.symm
  have hsplice : (intervals text edits).Pairwise Patch.Disjoint →
      splice text 0 (sortedRanges text edits) = simultaneous (intervals text edits) text := by
    intro hdisjoint
    have hdisjoint' := (hperm.pairwise_iff fun h => h.symm).mpr hdisjoint
    rw [splice_eq, Patch.splice_eq_simultaneous hsorted hdisjoint' hwithin]
    exact simultaneous_perm hperm hdisjoint' fun p hp => (hwithin p hp).1
  rw [applyEdits, decodeUtf8_encodeUtf8]
  change ((edits.map Edit.toTextReplacement).mapM (replacementRanges text) >>= fun ranges => _) = _ ↔ _
  cases hranges : (edits.map Edit.toTextReplacement).mapM (replacementRanges text) with
  | error x =>
    refine iff_of_false (by rintro ⟨⟩) ?_
    rintro ⟨hcounts, -⟩
    rw [mapM_replacementRanges.mpr ⟨hcounts, rfl⟩] at hranges
    cases hranges
  | ok rss =>
    obtain ⟨hcounts, rfl⟩ := mapM_replacementRanges.mp hranges
    change (if overlap (sortedRanges text edits) then _ else _) = _ ↔ _
    cases hlap : overlap (sortedRanges text edits) with
    | true =>
      refine iff_of_false (by rintro ⟨⟩) ?_
      rintro ⟨-, hdisjoint, -⟩
      rw [hoverlap.mpr hdisjoint] at hlap
      cases hlap
    | false =>
      have hdisjoint := hoverlap.mp hlap
      rw [if_neg Bool.false_ne_true, Except.ok.injEq, eq_comm]
      change out = encodeUtf8 (splice text 0 (sortedRanges text edits)) ↔ _
      rw [hsplice hdisjoint]
      exact ⟨fun h => ⟨hcounts, hdisjoint, h⟩, fun h => h.2.2⟩

/-- Edits are applied exactly where every old text occurs as often as expected and no two stretches
overlap, and then all at once, in whatever order they are listed. -/
theorem applyEdits_simultaneous (text : Text) (edits : List Edit) :
    ((∃ out, applyEdits (encodeUtf8 text) (edits.map Edit.toTextReplacement) = .ok out) ↔
      (∀ e ∈ edits, (occurrences e.oldText text).length = e.expectedCount) ∧
        (intervals text edits).Pairwise Patch.Disjoint) ∧
    ∀ out, applyEdits (encodeUtf8 text) (edits.map Edit.toTextReplacement) = .ok out →
      out = encodeUtf8 (simultaneous (intervals text edits) text) ∧
        ∀ edits', edits.Perm edits' → applyEdits (encodeUtf8 text) (edits'.map Edit.toTextReplacement) = .ok out := by
  refine ⟨⟨?_, ?_⟩, ?_⟩
  · rintro ⟨out, hout⟩
    obtain ⟨hcounts, hdisjoint, -⟩ := applyEdits_eq_ok.mp hout
    exact ⟨hcounts, hdisjoint⟩
  · rintro ⟨hcounts, hdisjoint⟩
    exact ⟨_, applyEdits_eq_ok.mpr ⟨hcounts, hdisjoint, rfl⟩⟩
  · intro out hout
    obtain ⟨hcounts, hdisjoint, rfl⟩ := applyEdits_eq_ok.mp hout
    refine ⟨rfl, fun edits' hperm => applyEdits_eq_ok.mpr ⟨fun e he => hcounts e (hperm.mem_iff.mpr he), ?_, ?_⟩⟩
    · exact ((hperm.flatMap_right _).pairwise_iff fun h => h.symm).mp hdisjoint
    · have hsame : (intervals text edits).Perm (intervals text edits') := hperm.flatMap_right _
      rw [simultaneous_perm hsame hdisjoint fun p hp => (within_intervals hp).1]

end IncidentLens.Changes
