import Mathlib.Data.List.DropRight

/-!
# Lines between breaks

A text is cut after every break; a carriage return with a line feed after it is one break.
-/
namespace IncidentLens.Data

section LineBreaks
variable (isBreak : Char → Bool)

/-- A character before the first of some lines, as part of it. -/
def extend (c : Char) : List (List Char) → List (List Char)
  | [] => [[c]]
  | line :: lines => (c :: line) :: lines

/-- The lines with their breaks; the `\r` of `\r\n` belongs to the break after it. -/
def splitLines : List Char → List (List Char)
  | [] => []
  | c :: rest =>
    if isBreak c && !(decide (c = '\r') && decide (rest.head? = some '\n')) then [c] :: splitLines rest
    else extend c (splitLines rest)

def bareLines (text : List Char) : List (List Char) := (splitLines isBreak text).map (List.rdropWhile isBreak)

lemma flatten_extend (c : Char) (lines : List (List Char)) : (extend c lines).flatten = c :: lines.flatten := by
  cases lines with
  | nil => rfl
  | cons line lines => rfl

lemma flatten_splitLines (text : List Char) : (splitLines isBreak text).flatten = text := by
  induction text with
  | nil => rfl
  | cons c rest ih =>
    unfold splitLines
    split_ifs with hbreak
    · rw [List.flatten_cons, ih]
      rfl
    · rw [flatten_extend, ih]

variable {isBreak}

lemma splitLines_of_unbroken {c : Char} {rest : List Char} (h : ∀ d ∈ c :: rest, isBreak d = false) :
    splitLines isBreak (c :: rest) = [c :: rest] := by
  induction rest generalizing c with
  | nil => simp [splitLines, h c (by simp), extend]
  | cons d rest ih =>
    have hrest : splitLines isBreak (d :: rest) = [d :: rest] := ih fun e he => h e (List.mem_cons_of_mem c he)
    rw [splitLines, hrest, h c List.mem_cons_self]
    rfl

lemma splitLines_append_break {line rest : List Char} {b : Char} (hline : ∀ c ∈ line, isBreak c = false)
    (hb : isBreak b = true) (hcr : b ≠ '\r') :
    splitLines isBreak (line ++ b :: rest) = (line ++ [b]) :: splitLines isBreak rest := by
  induction line with
  | nil => simp [splitLines, hb, hcr]
  | cons c line ih =>
    have htail := ih fun d hd => hline d (List.mem_cons_of_mem c hd)
    rw [List.cons_append, splitLines, hline c List.mem_cons_self, htail]
    rfl

lemma bareLines_append_break {line rest : List Char} {b : Char} (hline : ∀ c ∈ line, isBreak c = false)
    (hb : isBreak b = true) (hcr : b ≠ '\r') :
    bareLines isBreak (line ++ b :: rest) = line :: bareLines isBreak rest := by
  rw [bareLines, splitLines_append_break hline hb hcr, List.map_cons, List.rdropWhile_concat_pos _ _ _ hb,
    List.rdropWhile_eq_self_iff.mpr]
  · rfl
  · intro hne
    simp [hline _ (List.getLast_mem hne)]

lemma mem_rdropWhile_cons {b c : Char} {line : List Char} (h : c ∈ (b :: line).rdropWhile isBreak) :
    c = b ∨ c ∈ line.rdropWhile isBreak := by
  unfold List.rdropWhile at h ⊢
  rw [List.reverse_cons, List.dropWhile_append, List.mem_reverse] at h
  split_ifs at h with hnone
  · exact .inl (List.mem_singleton.mp ((List.dropWhile_sublist _).subset h))
  · exact (List.mem_append.mp h).symm.imp List.mem_singleton.mp List.mem_reverse.mpr

/-- No line has a break left in it. -/
lemma not_break_of_mem_bareLines (hfeed : isBreak '\n' = true) {text line : List Char} (h : line ∈ bareLines isBreak text) :
    ∀ c ∈ line, isBreak c = false := by
  obtain ⟨full, hfull, rfl⟩ := List.mem_map.mp h
  clear h
  induction text generalizing full with
  | nil => cases hfull
  | cons b rest ih =>
    unfold splitLines at hfull
    split_ifs at hfull with hcut
    · rcases List.mem_cons.mp hfull with rfl | hfull
      · simp [List.rdropWhile, (Bool.and_eq_true_iff.mp hcut).1]
      · exact ih full hfull
    · by_cases hb : isBreak b = true
      · -- the `\r` of `\r\n`
        have hnext : rest.head? = some '\n' := by
          by_contra hnext
          simp [hb, hnext] at hcut
        obtain ⟨later, rfl⟩ := List.head?_eq_some_iff.mp hnext
        have hlater : splitLines isBreak ('\n' :: later) = ['\n'] :: splitLines isBreak later := by simp [splitLines, hfeed]
        rw [hlater] at hfull ih
        rcases List.mem_cons.mp hfull with rfl | hfull
        · simp [List.rdropWhile, hb, hfeed]
        · exact ih full (List.mem_cons_of_mem _ hfull)
      · rw [Bool.not_eq_true] at hb
        intro c hc
        cases hsplit : splitLines isBreak rest with
        | nil =>
          rw [hsplit] at hfull
          rw [List.mem_singleton.mp hfull] at hc
          rcases mem_rdropWhile_cons hc with rfl | hc
          · exact hb
          · cases hc
        | cons line lines =>
          rw [hsplit] at hfull ih
          rcases List.mem_cons.mp hfull with rfl | hfull
          · rcases mem_rdropWhile_cons hc with rfl | hc
            · exact hb
            · exact ih line List.mem_cons_self c hc
          · exact ih full (List.mem_cons_of_mem _ hfull) c hc

end LineBreaks
end IncidentLens.Data
