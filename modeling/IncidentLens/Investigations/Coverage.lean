import IncidentLens.Investigations.Compaction

/-!
# Deterministic coverage

Under pressure a memory covers the transcript up to the end of a group: as little of it as makes the rest
fit, and nothing from the first protected group on.
-/
namespace IncidentLens.Investigations.Compaction

open List

structure ContextBudgetPolicy where
  contextWindow : ℕ := 128000
  maxOutputTokens : ℕ := 8000
  reserveTokens : ℕ := 13000

/-- What the estimator counts beside the messages of the tail. -/
structure CountedTokens where
  systemPrompt : ℕ
  checkpoint : ℕ
  snapshot : ℕ
  toolSchemas : List ℕ := []
  header : List ℕ := []
  memoryFields : ℕ

/-- The tokens that are left for the tail, if any. -/
def ContextBudgetPolicy.tailBudget (policy : ContextBudgetPolicy) (counted : CountedTokens) : ℤ :=
  policy.contextWindow - (policy.maxOutputTokens + policy.reserveTokens) -
    (counted.systemPrompt + counted.checkpoint + counted.snapshot : ℕ) - counted.toolSchemas.sum - counted.header.sum -
    (counted.memoryFields + 80)

/-- What `group_messages` makes of the messages of a run. -/
structure GroupedTranscript where
  groups : List MessageGroup
  nonempty : ∀ group ∈ groups, group ≠ []
  positive : ∀ m ∈ groups.flatten, 1 ≤ m.sequence
  increasing : groups.flatten.Pairwise fun m m' => m.sequence < m'.sequence

/-! ### What coverage should be -/

section
variable (manager : ContextManager) (groups : List MessageGroup) (tailBudget : ℤ) (sequence : ℕ)

def Fits : Prop :=
  ((((groups.flatten.filter fun m => sequence < m.sequence).map manager.tokens).sum : ℕ) : ℤ) ≤ tailBudget

instance : Decidable (Fits manager groups tailBudget sequence) := inferInstanceAs (Decidable ((_ : ℤ) ≤ _))

/-- Nothing of a protected group is covered, and nothing behind one. -/
def Unhidden : Prop := ∀ before group after, groups = before ++ group :: after → protectedGroup group = true →
  ∀ m ∈ (group :: after).flatten, sequence < m.sequence

/-- Every group is covered as a whole, or not at all. -/
def Unsplit : Prop := ∀ group ∈ groups, (∀ m ∈ group, m.sequence ≤ sequence) ∨ ∀ m ∈ group, sequence < m.sequence

/-- The end of a group up to which everything may be covered. -/
structure CoverableEnd : Prop where
  last : ∃ group ∈ groups, sequence = maxSequence group
  unhidden : Unhidden groups sequence
  unsplit : Unsplit groups sequence

/-- The least end that makes the rest fit, and 0 if none does. -/
structure LeastCoverage : Prop where
  unhidden : Unhidden groups sequence
  unsplit : Unsplit groups sequence
  least : (CoverableEnd groups sequence ∧ Fits manager groups tailBudget sequence ∧
      ∀ other, CoverableEnd groups other → Fits manager groups tailBudget other → sequence ≤ other) ∨
    sequence = 0 ∧ ∀ other, CoverableEnd groups other → ¬ Fits manager groups tailBudget other

/-- The same where 0 is an end like any other. -/
def LeastOfAll : Prop :=
  ((sequence = 0 ∨ ∃ group ∈ groups, sequence = maxSequence group) ∧ Unhidden groups sequence ∧ Unsplit groups sequence) ∧
    Fits manager groups tailBudget sequence ∧
    ∀ other, (other = 0 ∨ ∃ group ∈ groups, other = maxSequence group) ∧ Unhidden groups other ∧ Unsplit groups other →
      Fits manager groups tailBudget other → sequence ≤ other

end

namespace GroupedTranscript
variable (t : GroupedTranscript)

variable {last : MessageGroup}

lemma unsplit_maxSequence (hlast : last ∈ t.groups) : Unsplit t.groups (maxSequence last) := by
  intro group hgroup
  obtain ⟨z, hz, hmax⟩ := exists_maxSequence (t.nonempty last hlast)
  rcases groups_ordered t.increasing hgroup hlast with rfl | hbefore | hbehind
  · exact .inl fun m hm => le_maxSequence hm
  · exact .inl fun m hm => hmax ▸ (hbefore m hm z hz).le
  · right
    intro m hm
    rw [← hmax]
    exact hbehind m hm z hz

lemma unsplit_zero : Unsplit t.groups 0 := fun group hgroup =>
  .inr fun m hm => t.positive m (mem_flatten.mpr ⟨group, hgroup, hm⟩)

lemma unhidden_zero : Unhidden t.groups 0 := by
  intro before group after hgroups _ m hm
  refine t.positive m ?_
  rw [hgroups, flatten_append]
  exact mem_append_right _ hm

lemma unhidden_iff (sequence : ℕ) : Unhidden t.groups sequence ↔
    ∀ group ∈ t.groups, protectedGroup group = true → ∀ m ∈ group, sequence < m.sequence := by
  constructor
  · intro hunhidden group hgroup hprotected m hm
    obtain ⟨before, after, hgroups⟩ := append_of_mem hgroup
    exact hunhidden before group after hgroups hprotected m (mem_append_left _ hm)
  · intro hfirst before group after hgroups hprotected m hm
    have hgroup : group ∈ t.groups := by
      rw [hgroups]
      exact mem_append_right _ mem_cons_self
    rcases mem_append.mp (show m ∈ group ++ after.flatten from hm) with hin | hafter
    · exact hfirst group hgroup hprotected m hin
    · obtain ⟨x, hx⟩ := exists_mem_of_ne_nil group (t.nonempty group hgroup)
      have hincreasing := t.increasing
      rw [hgroups, flatten_append, flatten_cons] at hincreasing
      have hbehind := (pairwise_append.mp hincreasing).2.1
      exact (hfirst group hgroup hprotected x hx).trans ((pairwise_append.mp hbehind).2.2 x hx m hafter)

lemma flatten_tail (hlast : last ∈ t.groups) :
    (t.groups.filter fun group => maxSequence group > maxSequence last).flatten =
      t.groups.flatten.filter fun m => maxSequence last < m.sequence := by
  rw [filter_flatten]
  have hwhole : ∀ group ∈ t.groups, (group.filter fun m => decide (maxSequence last < m.sequence)) =
      if maxSequence group > maxSequence last then group else [] := by
    intro group hgroup
    obtain ⟨z, hz, hmax⟩ := exists_maxSequence (t.nonempty group hgroup)
    rcases t.unsplit_maxSequence hlast group hgroup with hcovered | hbehind
    · have hle := hcovered z hz
      rw [if_neg (by omega), filter_eq_nil_iff]
      exact fun m hm => by simpa using hcovered m hm
    · have hlt := hbehind z hz
      rw [if_pos (by omega), filter_eq_self]
      exact fun m hm => by simpa using hbehind m hm
  rw [map_congr_left hwhole]
  induction t.groups with
  | nil => rfl
  | cons group groups ih =>
    by_cases hbehind : maxSequence group > maxSequence last
    · simp [hbehind, ih]
    · simp [hbehind, ih]

lemma fits_maxSequence (manager : ContextManager) (tailBudget : ℤ) (hlast : last ∈ t.groups) :
    Fits manager t.groups tailBudget (maxSequence last) ↔
      (((t.groups.filter fun group => maxSequence group > maxSequence last).flatten.map manager.tokens).sum : ℤ) ≤
        tailBudget := by
  rw [Fits, t.flatten_tail hlast]

lemma coverableEnd_iff (sequence : ℕ) : CoverableEnd t.groups sequence ↔
    (∃ group ∈ t.groups, maxSequence group = sequence) ∧ Unhidden t.groups sequence := by
  constructor
  · rintro ⟨⟨group, hgroup, rfl⟩, hunhidden, -⟩
    exact ⟨⟨group, hgroup, rfl⟩, hunhidden⟩
  · rintro ⟨⟨group, hgroup, rfl⟩, hunhidden⟩
    exact ⟨⟨group, hgroup, rfl⟩, hunhidden, t.unsplit_maxSequence hgroup⟩

end GroupedTranscript

lemma find?_sorted {candidates : List ℕ} {p : ℕ → Bool} (hsorted : candidates.Pairwise (· ≤ ·)) :
    (∃ c ∈ candidates, p c = true ∧ (candidates.find? p).getD 0 = c ∧ ∀ d ∈ candidates, p d = true → c ≤ d) ∨
      (candidates.find? p).getD 0 = 0 ∧ ∀ d ∈ candidates, ¬ p d = true := by
  cases hfound : candidates.find? p with
  | none => exact .inr ⟨rfl, find?_eq_none.mp hfound⟩
  | some c =>
    obtain ⟨hc, before, after, rfl, hbefore⟩ := find?_eq_some_iff_append.mp hfound
    refine .inl ⟨c, mem_append_right _ mem_cons_self, hc, rfl, fun d hd hp => ?_⟩
    rcases mem_append.mp hd with hfirst | hrest
    · have hnot := hbefore d hfirst
      rw [hp] at hnot
      cases hnot
    · rcases mem_cons.mp hrest with rfl | hrest
      · exact Nat.le_refl _
      · exact (pairwise_cons.mp (pairwise_append.mp hsorted).2.1).1 d hrest

lemma deterministicCoverage_search (manager : ContextManager) (t : GroupedTranscript) (tailBudget : ℤ) :
    ∃ p : ℕ → Bool, deterministicCoverage manager t.groups tailBudget =
        ((((t.groups.map maxSequence).dedup).insertionSort (· ≤ ·)).find? p).getD 0 ∧
      ∀ group ∈ t.groups, (p (maxSequence group) = true ↔
        CoverableEnd t.groups (maxSequence group) ∧ Fits manager t.groups tailBudget (maxSequence group)) := by
  refine ⟨_, rfl, fun group hgroup => ?_⟩
  have hlast : ∃ g ∈ t.groups, maxSequence g = maxSequence group := ⟨group, hgroup, rfl⟩
  rw [Bool.and_eq_true, decide_eq_true_eq, t.coverableEnd_iff, t.fits_maxSequence manager tailBudget hgroup,
    t.unhidden_iff, and_iff_right hlast]
  refine and_congr ?_ Iff.rfl
  simp only [all_eq_true, mem_filter, decide_eq_true_eq, and_imp]

/-- For every estimator, every policy and whatever else is counted. -/
theorem deterministicCoverage_least (manager : ContextManager) (policy : ContextBudgetPolicy) (counted : CountedTokens)
    (t : GroupedTranscript) : LeastCoverage manager t.groups (policy.tailBudget counted)
      (deterministicCoverage manager t.groups (policy.tailBudget counted)) := by
  obtain ⟨p, hsearch, hp⟩ := deterministicCoverage_search manager t (policy.tailBudget counted)
  have hmem : ∀ c, c ∈ ((t.groups.map maxSequence).dedup).insertionSort (· ≤ ·) ↔
      ∃ group ∈ t.groups, maxSequence group = c := by
    intro c
    rw [mem_insertionSort, mem_dedup, mem_map]
  rw [hsearch]
  rcases find?_sorted (pairwise_insertionSort (· ≤ ·) _) with ⟨c, hc, hpassed, hfound, hleast⟩ | ⟨hfound, hnone⟩
  · obtain ⟨group, hgroup, rfl⟩ := (hmem c).mp hc
    obtain ⟨hend, hfits⟩ := (hp group hgroup).mp hpassed
    rw [hfound]
    refine ⟨hend.unhidden, hend.unsplit, .inl ⟨hend, hfits, fun other hother hotherFits => ?_⟩⟩
    obtain ⟨g, hg, rfl⟩ := hother.last
    exact hleast _ ((hmem _).mpr ⟨g, hg, rfl⟩) ((hp g hg).mpr ⟨hother, hotherFits⟩)
  · rw [hfound]
    refine ⟨t.unhidden_zero, t.unsplit_zero, .inr ⟨rfl, fun other hother hotherFits => ?_⟩⟩
    obtain ⟨g, hg, rfl⟩ := hother.last
    exact hnone _ ((hmem _).mpr ⟨g, hg, rfl⟩) ((hp g hg).mpr ⟨hother, hotherFits⟩)

lemma lt_deterministicCoverage_iff (manager : ContextManager) (t : GroupedTranscript) (tailBudget : ℤ) {through : ℕ}
    (hbehind : ∀ group ∈ t.groups, through < maxSequence group) :
    through < deterministicCoverage manager t.groups tailBudget ↔
      ∃ sequence, CoverableEnd t.groups sequence ∧ Fits manager t.groups tailBudget sequence := by
  obtain ⟨p, hsearch, hp⟩ := deterministicCoverage_search manager t tailBudget
  have hmem : ∀ c, c ∈ ((t.groups.map maxSequence).dedup).insertionSort (· ≤ ·) ↔ ∃ group ∈ t.groups, maxSequence group = c := by
    intro c
    rw [mem_insertionSort, mem_dedup, mem_map]
  rw [hsearch]
  rcases find?_sorted (pairwise_insertionSort (· ≤ ·) _) with ⟨c, hc, hpassed, hfound, -⟩ | ⟨hfound, hnone⟩
  · obtain ⟨group, hgroup, rfl⟩ := (hmem c).mp hc
    rw [hfound]
    exact iff_of_true (hbehind group hgroup) ⟨_, (hp group hgroup).mp hpassed⟩
  · rw [hfound]
    refine iff_of_false (Nat.not_lt_zero _) ?_
    rintro ⟨sequence, hend, hfits⟩
    obtain ⟨group, hgroup, rfl⟩ := hend.last
    exact hnone _ ((hmem _).mpr ⟨group, hgroup, rfl⟩) ((hp group hgroup).mpr ⟨hend, hfits⟩)

/-- What `_compact` covers a part of. -/
def GroupedTranscript.ofArchive (manager : ContextManager) (a : Archive) {all : List MessageGroup}
    (hgroups : groupTranscript a.transcript = .ok all) (hpositive : ∀ m ∈ a.transcript, 1 ≤ m.sequence)
    (hincreasing : a.transcript.Pairwise fun m m' => m.sequence < m'.sequence) : GroupedTranscript where
  groups := toolResultBudget manager.toolResultBudgetChars (replayAfter a.through all)
  nonempty := by
    intro group hgroup hempty
    obtain ⟨replayed, hreplayed, rfl⟩ := mem_map.mp hgroup
    rw [map_eq_nil_iff.mp hempty] at hreplayed
    exact absurd (mem_filter.mp hreplayed).2 (by simp)
  positive := by
    intro m hm
    have hsequence := mem_map_of_mem (f := fun m : TranscriptMessage => m.sequence) hm
    rw [toolResultBudget_sequences] at hsequence
    obtain ⟨m', hm', hsame⟩ := mem_map.mp hsequence
    rw [← hsame]
    exact hpositive m' (groupTranscript_flatten hgroups ▸ mem_of_mem_replayAfter hm')
  increasing := by
    have hsub : (replayAfter a.through all).flatten.Sublist a.transcript := by
      have hflatten : (replayAfter a.through all).flatten.Sublist all.flatten := List.Sublist.flatten filter_sublist
      rwa [groupTranscript_flatten hgroups] at hflatten
    have hsequences := pairwise_map.mpr (hincreasing.sublist hsub)
    rw [← toolResultBudget_sequences manager.toolResultBudgetChars] at hsequences
    exact pairwise_map.mp hsequences

/-! ### Two transcripts at the limits -/

/-- A manager for which every message counts one token. -/
def unitManager : ContextManager where
  redact text _ := text
  tokens _ := 1

def exchange (status : ToolCallStatus) : MessageGroup :=
  [⟨1, .assistant, [.toolUse "call-1" "host_read"]⟩, ⟨2, .user, [.toolResult ⟨"call-1", status, "root", []⟩]⟩]

def succeededTranscript : GroupedTranscript where
  groups := [exchange .succeeded]
  nonempty := by decide
  positive := by decide
  increasing := by decide

def failedTranscript : GroupedTranscript where
  groups := [exchange .failed]
  nonempty := by decide
  positive := by decide
  increasing := by decide

/-- Where no end makes the rest fit the coverage is 0, though what is behind 0 does not fit; and where
everything fits it is the end of the first group, though it would fit behind 0. -/
theorem coverage_not_least : deterministicCoverage unitManager failedTranscript.groups
        (ContextBudgetPolicy.tailBudget {} ⟨107000, 0, 0, [], [], 0⟩) = 0 ∧
      ¬ LeastOfAll unitManager failedTranscript.groups (ContextBudgetPolicy.tailBudget {} ⟨107000, 0, 0, [], [], 0⟩) 0 ∧
      deterministicCoverage unitManager succeededTranscript.groups (ContextBudgetPolicy.tailBudget {} ⟨0, 0, 0, [], [], 0⟩) = 2 ∧
      ¬ LeastOfAll unitManager succeededTranscript.groups (ContextBudgetPolicy.tailBudget {} ⟨0, 0, 0, [], [], 0⟩) 2 := by
  refine ⟨by decide +kernel, fun hleast => ?_, by decide +kernel, fun hleast => ?_⟩
  · exact absurd hleast.2.1 (by decide)
  · have hzero := hleast.2.2 0 ⟨.inl rfl, succeededTranscript.unhidden_zero, succeededTranscript.unsplit_zero⟩ (by decide)
    omega

end IncidentLens.Investigations.Compaction
