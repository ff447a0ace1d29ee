import IncidentLens.Investigations.Compaction

/-!
# Groups behind a boundary

A paired transcript is a list of whole groups: messages without tools, and uses with their
results. A boundary keeps the group it falls into, and grouping forgets at most the use at the
end whose results are not appended yet.
-/
namespace IncidentLens.Investigations.Boundary
open Data Compaction List

/-- A message without tools, or a message that uses tools with the message of their results. -/
inductive Whole : MessageGroup → Prop
  | plain {m : TranscriptMessage} : m.message.toolIds = [] → m.message.resultIds = [] → Whole [m]
  | pair {use result : TranscriptMessage} : opensTool use = true → result.message.toolIds = [] →
      sameIds result.message.resultIds use.message.toolIds = true → Whole [use, result]

def Paired (t : List TranscriptMessage) : Prop := ∃ groups : List MessageGroup, (∀ g ∈ groups, Whole g) ∧ groups.flatten = t

/-- Nothing, or the use whose results are not appended yet. -/
def Tail (t : List TranscriptMessage) : Prop := t = [] ∨ ∃ use, opensTool use = true ∧ t = [use]

/-- The use of a pair that the boundary splits, if there is one. -/
def Split (front : List TranscriptMessage) (after : ℕ) (kept : List TranscriptMessage) : Prop :=
  kept = [] ∨ ∃ use result, Whole [use, result] ∧ [use, result] <:+: front ∧
    use.sequence ≤ after ∧ after < result.sequence ∧ kept = [use]

section
variable {groups : List MessageGroup} {after : ℕ}

lemma groupTranscript_whole (h : ∀ g ∈ groups, Whole g) : groupTranscript groups.flatten = .ok groups := by
  induction groups with
  | nil => rfl
  | cons g groups ih =>
    have hrest := ih fun g hg => h g (mem_cons_of_mem _ hg)
    cases h g mem_cons_self with
    | @plain m huse _ =>
      rw [flatten_cons, singleton_append]
      cases hflat : groups.flatten with
      | nil =>
        rw [hflat] at hrest
        cases hrest
        simp [groupTranscript, huse]
      | cons following rest =>
        rw [hflat] at hrest
        simp [groupTranscript, huse, hrest, Except.map]
    | @pair use result huse _ hids =>
      have hne : use.message.toolIds ≠ [] := by simp_all [opensTool]
      simp [groupTranscript, hne, hids, hrest, Except.map]

lemma rdropWhile_whole (h : ∀ g ∈ groups, Whole g) : groups.flatten.rdropWhile opensTool = groups.flatten := by
  rcases eq_nil_or_concat' groups with rfl | ⟨front, g, rfl⟩
  · rfl
  · rw [flatten_append, flatten_singleton]
    cases h g (by simp) with
    | plain huse hresult =>
      rw [rdropWhile_concat_neg]
      simp [opensTool, huse]
    | @pair use result huse hresult _ =>
      rw [append_cons, rdropWhile_concat_neg]
      simp [opensTool, hresult]

lemma rdropWhile_paired {trailing : List TranscriptMessage} (h : ∀ g ∈ groups, Whole g)
    (htail : Tail trailing) : (groups.flatten ++ trailing).rdropWhile opensTool = groups.flatten := by
  rcases htail with rfl | ⟨use, huse, rfl⟩
  · rw [append_nil, rdropWhile_whole h]
  · rw [rdropWhile_concat_pos _ _ _ huse, rdropWhile_whole h]

lemma replayAfter_behind (hne : ∀ g ∈ groups, Whole g) (h : ∀ m ∈ groups.flatten, after < m.sequence) :
    replayAfter after groups = groups := by
  apply filter_eq_self.mpr
  intro g hg
  cases hne g hg with
  | @plain m => simpa using h m (mem_flatten_of_mem hg (by simp))
  | @pair use => simpa using .inl (h use (mem_flatten_of_mem hg (by simp)))

lemma replayAfter_split (h : ∀ g ∈ groups, Whole g) (hsorted : groups.flatten.Pairwise (·.sequence < ·.sequence)) :
    ∃ kept, Split groups.flatten after kept ∧
      (replayAfter after groups).flatten = kept ++ groups.flatten.filter (after < ·.sequence) := by
  induction groups with
  | nil => exact ⟨[], .inl rfl, rfl⟩
  | cons g groups ih =>
    have hrest : ∀ g ∈ groups, Whole g := fun g hg => h g (mem_cons_of_mem _ hg)
    have hwhole := h g mem_cons_self
    rw [flatten_cons] at hsorted ⊢
    obtain ⟨_, hgroups, hacross⟩ := pairwise_append.mp hsorted
    by_cases hdropped : ∀ m ∈ g, m.sequence ≤ after
    · -- the group lies before the boundary
      obtain ⟨kept, hsplit, hkept⟩ := ih hrest hgroups
      refine ⟨kept, hsplit.imp_right ?_, ?_⟩
      · rintro ⟨use, result, hpair, hinfix, hbounds⟩
        exact ⟨use, result, hpair, hinfix.trans (suffix_append g _).isInfix, hbounds⟩
      · have hnone : g.filter (fun m => after < m.sequence) = [] := by simpa using hdropped
        rw [replayAfter, filter_cons_of_neg (by simpa using hdropped), filter_append, hnone]
        exact hkept
    · push Not at hdropped
      obtain ⟨m, hm, hafter⟩ := hdropped
      have hbehind : ∀ m' ∈ groups.flatten, after < m'.sequence := fun m' hm' => hafter.trans (hacross m hm m' hm')
      have hkeep : replayAfter after (g :: groups) = g :: groups := by
        rw [replayAfter, filter_cons_of_pos (by simpa using ⟨m, hm, hafter⟩)]
        exact congrArg _ (replayAfter_behind hrest hbehind)
      have hall : groups.flatten.filter (fun m => after < m.sequence) = groups.flatten :=
        filter_eq_self.mpr fun m' hm' => decide_eq_true (hbehind m' hm')
      rw [hkeep, filter_append, hall, flatten_cons]
      cases hwhole with
      | plain =>
        cases mem_singleton.mp hm
        exact ⟨[], .inl rfl, by simp [hafter]⟩
      | @pair use result huse hresult hids =>
        have hlast : after < result.sequence := by
          rcases mem_pair.mp hm with rfl | rfl
          · exact hafter.trans (by simp_all)
          · exact hafter
        by_cases hfirst : after < use.sequence
        · exact ⟨[], .inl rfl, by simp [hfirst, hlast]⟩
        · refine ⟨[use], .inr ⟨use, result, .pair huse hresult hids, (prefix_append _ _).isInfix,
            not_lt.mp hfirst, hlast, rfl⟩, ?_⟩
          simp [hfirst, hlast]

end

/-- Behind a boundary the groups are whole, and flattened they are the messages after it, behind
the use of the pair that the boundary splits; of the tail only a use without results is missing. -/
theorem tolerantGroups_paired {front trailing : List TranscriptMessage} (hfront : Paired front)
    (htail : Tail trailing) (hsorted : front.Pairwise (·.sequence < ·.sequence)) (after : ℕ) :
    ∃ groups kept, tolerantGroups (front ++ trailing) after = .ok groups ∧ (∀ g ∈ groups, Whole g) ∧
      Split front after kept ∧ groups.flatten = kept ++ front.filter (after < ·.sequence) := by
  obtain ⟨groups, hwhole, rfl⟩ := hfront
  obtain ⟨kept, hsplit, hkept⟩ := @replayAfter_split _ after hwhole hsorted
  refine ⟨replayAfter after groups, kept, ?_, fun g hg => hwhole g (mem_of_mem_filter hg), hsplit, hkept⟩
  rw [tolerantGroups, rdropWhile_paired hwhole htail, groupTranscript_whole hwhole]
  rfl

def pair : List TranscriptMessage :=
  [⟨1, ⟨.assistant, [.toolUse "call" "read_file"]⟩⟩, ⟨2, ⟨.user, [.toolResult ⟨"call", .succeeded, "", []⟩]⟩⟩]

lemma whole_pair : Whole pair := .pair (by decide +kernel) (by decide +kernel) (by decide +kernel)

lemma paired_pair : Paired pair := ⟨[pair], by simpa using whole_pair, rfl⟩

theorem tolerantGroups_paired_pair : ∃ groups kept, tolerantGroups (pair ++ []) 1 = .ok groups ∧
    (∀ g ∈ groups, Whole g) ∧ Split pair 1 kept ∧ groups.flatten = kept ++ pair.filter (1 < ·.sequence) :=
  tolerantGroups_paired paired_pair (.inl rfl) (by decide) 1

/-- A boundary between a use and its result does not cut the use off. -/
theorem split_pair_kept_whole : ¬∀ front trailing : List TranscriptMessage, Paired front → Tail trailing →
    (front ++ trailing).Pairwise (·.sequence < ·.sequence) → ∀ after, ∃ groups dropped,
      tolerantGroups (front ++ trailing) after = .ok groups ∧ Tail dropped ∧
      groups.flatten ++ dropped = (front ++ trailing).filter (after < ·.sequence) := by
  intro h
  obtain ⟨groups, dropped, hgroups, _, hflat⟩ := h pair [] paired_pair (.inl rfl) (by decide) 1
  have hpair : tolerantGroups (pair ++ []) 1 = .ok [pair] := rfl
  cases hpair.symm.trans hgroups
  exact absurd (congrArg length hflat) (by simp [pair])

end IncidentLens.Investigations.Boundary
