import Mathlib.Data.List.Basic
import Mathlib.Tactic.Common

/-!
# Regular expressions with backtracking

An expression is tried at a place of a text, with the character before it, and all its matches
there are listed in the order in which they are tried; the first one counts. A scan goes from
left to right and goes on behind each match.
-/
namespace IncidentLens.Data

open List

inductive Regex
  | empty
  | char (p : Char → Bool)
  | seq (r t : Regex)
  | alt (r t : Regex)
  /-- Any number of times: as often as possible first, or as rarely. -/
  | star (greedy : Bool) (r : Regex)
  | group (name : String) (r : Regex)
  /-- `(?!r)`. -/
  | notAhead (r : Regex)
  /-- `(?<!p)` for one character. -/
  | notBehind (p : Char → Bool)
  /-- `\b`, for the characters of words. -/
  | boundary (word : Char → Bool)

/-- A match: its text and the texts of its groups. -/
structure Match where
  text : List Char
  groups : List (String × List Char)

def Match.group? (m : Match) (name : String) : Option (List Char) := (m.groups.find? fun g => g.1 = name).map Prod.snd

/-- A match in a text, with what follows it. -/
structure Found extends Match where
  rest : List Char

namespace Found

/-- The character before what follows a match. -/
def last (f : Found) (before : Option Char) : Option Char := (f.text.getLast?).or before

/-- A match and one that follows it. -/
def append (f g : Found) : Found := ⟨⟨f.text ++ g.text, f.groups ++ g.groups⟩, g.rest⟩

def extend (w : List Char) (f : Found) : Found := { f with rest := f.rest ++ w }

@[simp] lemma extend_nil : extend [] = id := by
  funext f
  simp [extend]

@[simp] lemma toMatch_extend (f : Found) (w : List Char) : (f.extend w).toMatch = f.toMatch := rfl

@[simp] lemma rest_extend (f : Found) (w : List Char) : (f.extend w).rest = f.rest ++ w := rfl

@[simp] lemma last_extend (f : Found) (w : List Char) (before : Option Char) : (f.extend w).last before = f.last before := rfl

@[simp] lemma append_extend (f g : Found) (w : List Char) : f.append (g.extend w) = (f.append g).extend w := rfl

@[simp] lemma extend_append (f g : Found) (w : List Char) : (f.extend w).append g = f.append g := rfl

lemma append_assoc (f g h : Found) : (f.append g).append h = f.append (g.append h) := by simp [append]

lemma last_append (f g : Found) (before : Option Char) : (f.append g).last before = g.last (f.last before) := by
  simp only [last, append, getLast?_append, Option.or_assoc]

def named (name : String) (f : Found) : Found := { f with groups := f.groups ++ [(name, f.text)] }

end Found

namespace Regex

def here (s : List Char) : Found := ⟨⟨[], []⟩, s⟩

/-- Repetitions of matches that take at least one character; `n` bounds their number. -/
def stars (step : Option Char → List Char → List Found) (greedy : Bool) : ℕ → Option Char → List Char → List Found
  | 0, _, s => [here s]
  | n + 1, before, s =>
    let more := (step before s).flatMap fun f =>
      bif f.text.isEmpty then [] else (stars step greedy n (f.last before) f.rest).map f.append
    if greedy then more ++ [here s] else here s :: more

def ends : Regex → Option Char → List Char → List Found
  | empty, _, s => [here s]
  | char _, _, [] => []
  | char p, _, c :: s => if p c then [⟨⟨[c], []⟩, s⟩] else []
  | seq r t, before, s => (ends r before s).flatMap fun f => (ends t (f.last before) f.rest).map f.append
  | alt r t, before, s => ends r before s ++ ends t before s
  | star greedy r, before, s => stars (ends r) greedy s.length before s
  | group name r, before, s => (ends r before s).map (Found.named name)
  | notAhead r, before, s => bif (ends r before s).isEmpty then [here s] else []
  | notBehind p, before, s => bif before.any p then [] else [here s]
  | boundary word, before, s => bif before.any word == s.head?.any word then [] else [here s]

/-- The match at a place, if there is one and it is not empty. -/
def match? (r : Regex) (before : Option Char) (s : List Char) : Option Found :=
  match (ends r before s).head? with
  | some f => bif f.text.isEmpty then none else some f
  | none => none

/-- `finditer`: the text as characters outside of matches and matches; `n` bounds their number. -/
def scanUpTo (r : Regex) : ℕ → Option Char → List Char → List (Char ⊕ Match)
  | 0, _, _ => []
  | _ + 1, _, [] => []
  | n + 1, before, c :: s =>
    match r.match? before (c :: s) with
    | some f => .inr f.toMatch :: scanUpTo r n (f.last before) f.rest
    | none => .inl c :: scanUpTo r n (some c) s

def scan (r : Regex) (before : Option Char) (s : List Char) : List (Char ⊕ Match) := scanUpTo r s.length before s

def found (r : Regex) (s : List Char) : List Match := (scan r none s).filterMap Sum.getRight?

def replaced (repl : Match → List Char) (pieces : List (Char ⊕ Match)) : List Char :=
  pieces.flatMap fun piece => match piece with
    | .inl c => [c]
    | .inr m => repl m

/-- `sub`. -/
def sub (r : Regex) (repl : Match → List Char) (s : List Char) : List Char := replaced repl (scan r none s)

/-- `fullmatch` as a test. -/
def matchesAll (r : Regex) (s : List Char) : Bool := (ends r none s).any fun f => f.rest.isEmpty

/-! ### Abbreviations of patterns -/

def literal (s : String) : Regex := s.toList.foldr (fun c r => seq (char fun d => d == c) r) empty

def oneOf : List Regex → Regex
  | [] => char fun _ => false
  | [r] => r
  | r :: rs => alt r (oneOf rs)

def concat : List Regex → Regex
  | [] => empty
  | [r] => r
  | r :: rs => seq r (concat rs)

def opt (r : Regex) : Regex := alt r empty

def many (p : Char → Bool) : Regex := star true (char p)

def many1 (p : Char → Bool) : Regex := seq (char p) (many p)

/-- `r{m,n}`, as often as possible first. -/
def upTo (r : Regex) : ℕ → Regex
  | 0 => empty
  | n + 1 => opt (seq r (upTo r n))

def times (r : Regex) : ℕ → Regex
  | 0 => empty
  | n + 1 => seq r (times r n)

def repeated (r : Regex) (m n : ℕ) : Regex := seq (times r m) (upTo r (n - m))

/-! ### What a match is -/

def takes : Regex → Char → Bool
  | empty, _ => false
  | char p, c => p c
  | seq r t, c => takes r c || takes t c
  | alt r t, c => takes r c || takes t c
  | star _ r, c => takes r c
  | group _ r, c => takes r c
  | notAhead _, _ => false
  | notBehind _, _ => false
  | boundary _, _ => false

def sees : Regex → Char → Bool
  | empty, _ => false
  | char p, c => p c
  | seq r t, c => sees r c || sees t c
  | alt r t, c => sees r c || sees t c
  | star _ r, c => sees r c
  | group _ r, c => sees r c
  | notAhead r, c => sees r c
  | notBehind _, _ => false
  | boundary _, _ => false

def nullable : Regex → Bool
  | empty => true
  | char _ => false
  | seq r t => nullable r && nullable t
  | alt r t => nullable r || nullable t
  | star _ _ => true
  | group _ r => nullable r
  | notAhead _ => true
  | notBehind _ => true
  | boundary _ => true

/-- A character with which some match may begin. -/
def starts : Regex → Char → Bool
  | empty, _ => false
  | char p, c => p c
  | seq r t, c => starts r c || (nullable r && starts t c)
  | alt r t, c => starts r c || starts t c
  | star _ r, c => starts r c
  | group _ r, c => starts r c
  | notAhead _, _ => false
  | notBehind _, _ => false
  | boundary _, _ => false

section
variable {r t : Regex} {before : Option Char} {s u w : List Char} {f g : Found} {c : Char}

attribute [local simp] ends stars

lemma exists_of_mem_seq (hf : f ∈ ends (seq r t) before s) :
    ∃ g ∈ ends r before s, ∃ h ∈ ends t (g.last before) g.rest, f = g.append h := by
  obtain ⟨g, hg, hmem⟩ := mem_flatMap.mp hf
  obtain ⟨h, hh, rfl⟩ := mem_map.mp hmem
  exact ⟨g, hg, h, hh, rfl⟩

lemma ends_seq_eq_nil (h : ends r before s = []) : ends (seq r t) before s = [] := by rw [ends, h, flatMap_nil]

variable {p : Char → Bool} {greedy : Bool} {step : Option Char → List Char → List Found}

lemma ends_char_eq_nil (hp : ∀ c ∈ s, p c = false) : ends (char p) before s = [] := by
  cases s with
  | nil => rfl
  | cons c s => simp [hp c mem_cons_self]

lemma ends_group_eq_nil {name : String} (h : ends r before s = []) : ends (group name r) before s = [] := by
  rw [ends, h, map_nil]

lemma append_mem_seq (hf : f ∈ ends r before s) (hg : g ∈ ends t (f.last before) f.rest) :
    f.append g ∈ ends (seq r t) before s :=
  mem_flatMap.mpr ⟨f, hf, mem_map_of_mem hg⟩

lemma here_mem_star : here s ∈ ends (star greedy r) before s := by
  cases s with
  | nil => exact mem_singleton_self _
  | cons c s =>
    simp only [ends, length_cons, stars]
    split_ifs
    · exact mem_append_right _ (mem_singleton_self _)
    · exact mem_cons_self

lemma mem_literal (text : String) (s : List Char) (before : Option Char) :
    ∃ f ∈ ends (literal text) before (text.toList ++ s), f.rest = s := by
  unfold literal
  induction text.toList generalizing before with
  | nil => exact ⟨here s, mem_singleton_self _, rfl⟩
  | cons c cs ih =>
    obtain ⟨f, hf, hrest⟩ := ih (some c)
    have hchar : (⟨⟨[c], []⟩, cs ++ s⟩ : Found) ∈ ends (char fun d => d == c) before (c :: (cs ++ s)) := by
      simp
    exact ⟨_, append_mem_seq hchar hf, hrest⟩

lemma here_of_notAhead (hf : f ∈ ends (notAhead r) before s) : f = here s := by
  simp only [ends] at hf
  cases h : (ends r before s).isEmpty with
  | true => simpa [h] using hf
  | false => simp [h] at hf

lemma here_of_notBehind (hf : f ∈ ends (notBehind p) before s) : f = here s := by
  simp only [ends] at hf
  cases h : before.any p with
  | true => simp [h] at hf
  | false => simpa [h] using hf

lemma here_of_boundary {word : Char → Bool} (hf : f ∈ ends (boundary word) before s) : f = here s := by
  simp only [ends] at hf
  cases h : before.any word == s.head?.any word with
  | true => simp [h] at hf
  | false => simpa [h] using hf

lemma rest_of_char (hf : f ∈ ends (char p) before (c :: s)) : f.rest = s := by
  simp only [ends] at hf
  split_ifs at hf
  · rw [mem_singleton.mp hf]
  · cases hf

lemma mem_stars {n : ℕ}
    (hf : f ∈ stars step greedy (n + 1) before s) : f = here s ∨ ∃ g ∈ step before s, g.text ≠ [] ∧
      ∃ h ∈ stars step greedy n (g.last before) g.rest, f = g.append h := by
  have hmore : f ∈ ((step before s).flatMap fun f =>
      bif f.text.isEmpty then [] else (stars step greedy n (f.last before) f.rest).map f.append) →
      ∃ g ∈ step before s, g.text ≠ [] ∧ ∃ h ∈ stars step greedy n (g.last before) g.rest, f = g.append h := by
    intro hmem
    obtain ⟨g, hg, hmem⟩ := mem_flatMap.mp hmem
    cases htext : g.text.isEmpty with
    | true => simp [htext] at hmem
    | false =>
      rw [htext, cond_false] at hmem
      obtain ⟨h, hh, rfl⟩ := mem_map.mp hmem
      exact ⟨g, hg, by simpa using htext, h, hh, rfl⟩
  simp only [stars] at hf
  split_ifs at hf
  · rcases mem_append.mp hf with hmem | hmem
    · exact .inr (hmore hmem)
    · exact .inl (mem_singleton.mp hmem)
  · rcases mem_cons.mp hf with heq | hmem
    · exact .inl heq
    · exact .inr (hmore hmem)

/-- What holds of the empty match, of single matches and of matches one after the other, holds of repetitions. -/
theorem stars_induction {P : List Char → Found → Prop}
    (hhere : ∀ s, P s (here s)) (hstep : ∀ before s, ∀ f ∈ step before s, P s f)
    (happend : ∀ s f g, P s f → P f.rest g → P s (f.append g)) (n : ℕ) :
    ∀ before s, ∀ f ∈ stars step greedy n before s, P s f := by
  induction n with
  | zero =>
    intro before s f hf
    rw [mem_singleton.mp hf]
    exact hhere s
  | succ n ih =>
    intro before s f hf
    rcases mem_stars hf with rfl | ⟨g, hg, -, h, hh, rfl⟩
    · exact hhere s
    · exact happend s g h (hstep before s g hg) (ih _ _ h hh)

/-- What holds of the empty match and of single characters that the expression takes, and of
matches one after the other, holds of every match. -/
theorem ends_induction {P : List Char → Found → Prop} (r : Regex) (hhere : ∀ s, P s (here s))
    (hchar : ∀ c s, r.takes c = true → P (c :: s) ⟨⟨[c], []⟩, s⟩)
    (happend : ∀ s f g, P s f → P f.rest g → P s (f.append g)) (hnamed : ∀ s f name, P s f → P s (f.named name)) :
    ∀ before s, ∀ f ∈ ends r before s, P s f := by
  induction r with
  | empty =>
    intro before s f hf
    rw [mem_singleton.mp hf]
    exact hhere s
  | char p =>
    intro before s f hf
    cases s with
    | nil => cases hf
    | cons c s =>
      simp only [ends] at hf
      split_ifs at hf with hp
      · rw [mem_singleton.mp hf]
        exact hchar c s hp
      · cases hf
  | seq r t ihr iht =>
    intro before s f hf
    obtain ⟨g, hg, h, hh, rfl⟩ := exists_of_mem_seq hf
    refine happend s g h (ihr ?_ before s g hg) (iht ?_ _ _ h hh)
    · exact fun c s hc => hchar c s (by simp [takes, hc])
    · exact fun c s hc => hchar c s (by simp [takes, hc])
  | alt r t ihr iht =>
    intro before s f hf
    rcases mem_append.mp hf with hmem | hmem
    · exact ihr (fun c s hc => hchar c s (by simp [takes, hc])) before s f hmem
    · exact iht (fun c s hc => hchar c s (by simp [takes, hc])) before s f hmem
  | star greedy r ih =>
    intro before s f hf
    exact stars_induction hhere (ih hchar) happend _ before s f hf
  | group name r ih =>
    intro before s f hf
    obtain ⟨g, hg, rfl⟩ := mem_map.mp hf
    exact hnamed s g name (ih hchar before s g hg)
  | notAhead r _ =>
    intro before s f hf
    rw [here_of_notAhead hf]
    exact hhere s
  | notBehind p =>
    intro before s f hf
    rw [here_of_notBehind hf]
    exact hhere s
  | boundary word =>
    intro before s f hf
    rw [here_of_boundary hf]
    exact hhere s

lemma text_append_rest (hf : f ∈ ends r before s) : f.text ++ f.rest = s := by
  refine ends_induction r ?_ ?_ ?_ ?_ before s f hf (P := fun s f => f.text ++ f.rest = s)
  · exact fun _ => rfl
  · exact fun _ _ _ => rfl
  · intro s f g hf hg
    rw [← hf, ← hg]
    simp [Found.append]
  · exact fun _ _ _ hf => hf

lemma ends_seq_eq_nil_of_part (h : ∀ before v, v <:+ s → ends t before v = []) : ends (seq r t) before s = [] := by
  rw [eq_nil_iff_forall_not_mem]
  intro f hf
  obtain ⟨g, hg, k, hk, -⟩ := exists_of_mem_seq hf
  rw [h _ _ ⟨g.text, text_append_rest hg⟩] at hk
  cases hk

lemma takes_of_mem (hf : f ∈ ends r before s) : ∀ c ∈ f.text, r.takes c = true := by
  refine ends_induction r ?_ ?_ ?_ ?_ before s f hf (P := fun _ f => ∀ c ∈ f.text, r.takes c = true)
  · intro s c hc
    cases hc
  · intro c s hc d hd
    rwa [mem_singleton.mp hd]
  · intro s f g hf hg c hc
    rcases mem_append.mp hc with hc | hc
    · exact hf c hc
    · exact hg c hc
  · exact fun _ _ _ hf => hf

lemma rest_of_not_takes {v b : List Char} (htakes : r.takes c = false) (hf : f ∈ ends r before (v ++ c :: b)) :
    ∃ v', v = f.text ++ v' ∧ f.rest = v' ++ c :: b := by
  have hnot : c ∉ f.text := by
    intro hmem
    rw [takes_of_mem hf c hmem] at htakes
    cases htakes
  rcases append_eq_append_iff.mp (text_append_rest hf) with ⟨v', hv, hrest⟩ | ⟨v', htext, hrest⟩
  · exact ⟨v', hv, hrest⟩
  · cases v' with
    | nil => exact ⟨[], by simpa using htext.symm, by simpa using hrest.symm⟩
    | cons d v' =>
      rw [cons_append, cons.injEq] at hrest
      obtain ⟨rfl, -⟩ := hrest
      exact absurd (htext ▸ mem_append_right v mem_cons_self) hnot

lemma sees_of_takes (h : r.takes c = true) : r.sees c = true := by
  induction r with
  | char p => exact h
  | seq r t ihr iht =>
    rcases Bool.or_eq_true_iff.mp h with h | h
    · simp [sees, ihr h]
    · simp [sees, iht h]
  | alt r t ihr iht =>
    rcases Bool.or_eq_true_iff.mp h with h | h
    · simp [sees, ihr h]
    · simp [sees, iht h]
  | star greedy r ih => exact ih h
  | group name r ih => exact ih h
  | _ => cases h

lemma not_takes_of_not_sees (h : r.sees c = false) : r.takes c = false := by
  by_contra htakes
  rw [sees_of_takes (by simpa using htakes)] at h
  cases h

lemma sees_of_starts (h : r.starts c = true) : r.sees c = true := by
  induction r with
  | char p => exact h
  | seq r t ihr iht =>
    rcases Bool.or_eq_true_iff.mp h with h | h
    · simp [sees, ihr h]
    · simp [sees, iht (Bool.and_eq_true_iff.mp h).2]
  | alt r t ihr iht =>
    rcases Bool.or_eq_true_iff.mp h with h | h
    · simp [sees, ihr h]
    · simp [sees, iht h]
  | star greedy r ih => exact ih h
  | group name r ih => exact ih h
  | _ => cases h

lemma not_starts_of_not_sees (h : r.sees c = false) : r.starts c = false := by
  by_contra hstarts
  rw [sees_of_starts (by simpa using hstarts)] at h
  cases h

lemma text_ne_nil (hnullable : r.nullable = false) (hf : f ∈ ends r before s) : f.text ≠ [] := by
  induction r generalizing before s f with
  | empty => cases hnullable
  | char p =>
    cases s with
    | nil => cases hf
    | cons c s =>
      simp only [ends] at hf
      split_ifs at hf
      · rw [mem_singleton.mp hf]
        exact cons_ne_nil _ _
      · cases hf
  | seq r t ihr iht =>
    obtain ⟨g, hg, h, hh, rfl⟩ := exists_of_mem_seq hf
    rcases Bool.and_eq_false_iff.mp hnullable with hnullable | hnullable
    · exact fun hnil => ihr hnullable hg (append_eq_nil_iff.mp hnil).1
    · exact fun hnil => iht hnullable hh (append_eq_nil_iff.mp hnil).2
  | alt r t ihr iht =>
    obtain ⟨hr, ht⟩ := Bool.or_eq_false_iff.mp hnullable
    rcases mem_append.mp hf with hmem | hmem
    · exact ihr hr hmem
    · exact iht ht hmem
  | star greedy r _ => cases hnullable
  | group name r ih =>
    obtain ⟨g, hg, rfl⟩ := mem_map.mp hf
    exact (ih hnullable hg : g.text ≠ [])
  | notAhead r _ => cases hnullable
  | notBehind p => cases hnullable
  | boundary word => cases hnullable

lemma text_eq_nil (hstarts : r.starts c = false) (hf : f ∈ ends r before (c :: s)) : f.text = [] := by
  induction r generalizing before f with
  | char p =>
    have hp : p c = false := hstarts
    simp [hp] at hf
  | seq r t ihr iht =>
    obtain ⟨g, hg, h, hh, rfl⟩ := exists_of_mem_seq hf
    obtain ⟨hr, ht⟩ := Bool.or_eq_false_iff.mp hstarts
    have hg' := ihr hr hg
    have hrest : g.rest = c :: s := by
      have := text_append_rest hg
      rwa [hg', nil_append] at this
    rw [hrest] at hh
    rcases Bool.and_eq_false_iff.mp ht with hnullable | ht
    · exact absurd hg' (text_ne_nil hnullable hg)
    · exact append_eq_nil_iff.mpr ⟨hg', iht ht hh⟩
  | alt r t ihr iht =>
    obtain ⟨hr, ht⟩ := Bool.or_eq_false_iff.mp hstarts
    rcases mem_append.mp hf with hmem | hmem
    · exact ihr hr hmem
    · exact iht ht hmem
  | star greedy r ih =>
    simp only [ends, length_cons] at hf
    rcases mem_stars hf with rfl | ⟨g, hg, htext, -⟩
    · rfl
    · exact absurd (ih hstarts hg) htext
  | group name r ih =>
    obtain ⟨g, hg, rfl⟩ := mem_map.mp hf
    exact (ih hstarts hg : g.text = [])
  | empty =>
    rw [mem_singleton.mp hf]
    rfl
  | notAhead r _ => rw [here_of_notAhead hf, here]
  | notBehind p => rw [here_of_notBehind hf, here]
  | boundary word => rw [here_of_boundary hf, here]

/-! ### Matches that do not depend on what is far -/

/-- The matches at a place do not change with what follows the text. -/
def Local (r : Regex) (before : Option Char) (u : List Char) : Prop :=
  ∀ w, ends r before (u ++ w) = (ends r before u).map (Found.extend w)

lemma stars_enough
    (hstep : ∀ before s, ∀ f ∈ step before s, f.text ++ f.rest = s) (n : ℕ) : ∀ m before s, s.length ≤ n → s.length ≤ m →
      stars step greedy n before s = stars step greedy m before s := by
  induction n with
  | zero =>
    intro m before s hn hm
    have hs : s = [] := length_eq_zero_iff.mp (Nat.le_zero.mp hn)
    subst hs
    cases m with
    | zero => rfl
    | succ m =>
      have hnone : ((step before []).flatMap fun f =>
          bif f.text.isEmpty then [] else (stars step greedy m (f.last before) f.rest).map f.append) = [] := by
        rw [flatMap_eq_nil_iff]
        intro f hf
        rw [(append_eq_nil_iff.mp (hstep before [] f hf)).1]
        rfl
      simp [hnone]
  | succ n ih =>
    intro m before s hn hm
    cases m with
    | zero =>
      have hs : s = [] := length_eq_zero_iff.mp (Nat.le_zero.mp hm)
      subst hs
      have hnone : ((step before []).flatMap fun f =>
          bif f.text.isEmpty then [] else (stars step greedy n (f.last before) f.rest).map f.append) = [] := by
        rw [flatMap_eq_nil_iff]
        intro f hf
        rw [(append_eq_nil_iff.mp (hstep before [] f hf)).1]
        rfl
      simp [hnone]
    | succ m =>
      have hsame : ((step before s).flatMap fun f =>
          bif f.text.isEmpty then [] else (stars step greedy n (f.last before) f.rest).map f.append) =
          (step before s).flatMap fun f =>
            bif f.text.isEmpty then [] else (stars step greedy m (f.last before) f.rest).map f.append := by
        refine flatMap_congr fun f hf => ?_
        cases htext : f.text.isEmpty with
        | true => rfl
        | false =>
          have hlength := congrArg length (hstep before s f hf)
          have hpositive : 0 < f.text.length := length_pos_iff.mpr (by simpa using htext)
          rw [length_append] at hlength
          rw [cond_false, cond_false, ih m _ _ (by omega) (by omega)]
      simp only [stars, hsame]

lemma local_stars {P : Option Char → List Char → Prop} (hlocal : ∀ before u, P before u → Local r before u)
    (hnext : ∀ before u, P before u → ∀ f ∈ ends r before u, P (f.last before) f.rest) (n : ℕ) :
    ∀ before u, P before u → ∀ w,
      stars (ends r) greedy n before (u ++ w) = (stars (ends r) greedy n before u).map (Found.extend w) := by
  induction n with
  | zero => exact fun _ _ _ _ => rfl
  | succ n ih =>
    intro before u hu w
    have hmore : ((ends r before (u ++ w)).flatMap fun f =>
          bif f.text.isEmpty then [] else (stars (ends r) greedy n (f.last before) f.rest).map f.append) =
        ((ends r before u).flatMap fun f =>
          bif f.text.isEmpty then [] else (stars (ends r) greedy n (f.last before) f.rest).map f.append).map
            (Found.extend w) := by
      rw [hlocal before u hu w, flatMap_map, map_flatMap]
      refine flatMap_congr fun f hf => ?_
      simp only [Found.toMatch_extend, Found.last_extend, Found.rest_extend]
      cases f.text.isEmpty with
      | true => rfl
      | false =>
        rw [cond_false, cond_false, ih _ _ (hnext before u hu f hf) w, map_map, map_map]
        rfl
    simp only [stars, hmore]
    split_ifs
    · rw [map_append]
      rfl
    · rfl

lemma local_star {P : Option Char → List Char → Prop} (hlocal : ∀ before u, P before u → Local r before u)
    (hnext : ∀ before u, P before u → ∀ f ∈ ends r before u, P (f.last before) f.rest) (hu : P before u) :
    Local (star greedy r) before u := by
  intro w
  have hstep : ∀ before s, ∀ f ∈ ends r before s, f.text ++ f.rest = s := fun _ _ _ hf => text_append_rest hf
  simp only [ends]
  rw [local_stars hlocal hnext _ before u hu w]
  rw [stars_enough hstep (u ++ w).length u.length before u (by simp) (Nat.le_refl _)]

lemma local_char (hu : u ≠ []) : Local (char p) before u := by
  intro w
  cases u with
  | nil => exact absurd rfl hu
  | cons c u =>
    simp only [cons_append, ends]
    split_ifs <;> rfl

lemma local_seq (hr : Local r before u) (ht : ∀ f ∈ ends r before u, Local t (f.last before) f.rest) :
    Local (seq r t) before u := by
  intro w
  simp only [ends]
  rw [hr w, flatMap_map, map_flatMap]
  refine flatMap_congr fun f hf => ?_
  rw [Found.rest_extend, Found.last_extend, ht f hf w, map_map, map_map]
  rfl

lemma local_alt (hr : Local r before u) (ht : Local t before u) : Local (alt r t) before u := by
  intro w
  simp only [ends]
  rw [hr w, ht w, map_append]

lemma local_group {name : String} (hr : Local r before u) : Local (group name r) before u := by
  intro w
  simp only [ends]
  rw [hr w, map_map, map_map]
  rfl

lemma local_empty : Local empty before u := fun _ => rfl

lemma local_notAhead (hr : Local r before u) : Local (notAhead r) before u := by
  intro w
  simp only [ends]
  rw [hr w, isEmpty_map]
  cases (ends r before u).isEmpty <;> rfl

lemma local_notBehind : Local (notBehind p) before u := by
  intro w
  simp only [ends]
  cases before.any p <;> rfl

lemma local_boundary {word : Char → Bool} (hu : u ≠ []) : Local (boundary word) before u := by
  intro w
  cases u with
  | nil => exact absurd rfl hu
  | cons c u =>
    simp only [cons_append, ends, head?_cons]
    cases before.any word == (some c).any word <;> rfl

lemma mem_rest_of_not_sees (hsees : r.sees c = false) (hc : c ∈ u) (hf : f ∈ ends r before u) : c ∈ f.rest := by
  obtain ⟨v, b, rfl⟩ := append_of_mem hc
  obtain ⟨v', -, hrest⟩ := rest_of_not_takes (not_takes_of_not_sees hsees) hf
  rw [hrest]
  exact mem_append_right _ mem_cons_self

lemma local_of_not_sees (hsees : r.sees c = false) (hc : c ∈ u) : Local r before u := by
  induction r generalizing before u with
  | empty => exact local_empty
  | char p => exact local_char (ne_nil_of_mem hc)
  | seq r t ihr iht =>
    obtain ⟨hr, ht⟩ := Bool.or_eq_false_iff.mp hsees
    exact local_seq (ihr hr hc) fun f hf => iht ht (mem_rest_of_not_sees hr hc hf)
  | alt r t ihr iht =>
    obtain ⟨hr, ht⟩ := Bool.or_eq_false_iff.mp hsees
    exact local_alt (ihr hr hc) (iht ht hc)
  | star greedy r ih =>
    have hr : r.sees c = false := hsees
    exact local_star (P := fun _ u => c ∈ u) (fun _ _ hc => ih hr hc)
      (fun _ _ hc f hf => mem_rest_of_not_sees hr hc hf) hc
  | group name r ih => exact local_group (ih hsees hc)
  | notAhead r ih => exact local_notAhead (ih hsees hc)
  | notBehind p => exact local_notBehind
  | boundary word => exact local_boundary (ne_nil_of_mem hc)

lemma ends_eq_nil (hnullable : r.nullable = false) (hstarts : r.starts c = false) : ends r before (c :: s) = [] := by
  rw [eq_nil_iff_forall_not_mem]
  exact fun f hf => text_ne_nil hnullable hf (text_eq_nil hstarts hf)

lemma ends_opt_seq_eq_nil {d : Char} (hnullable : r.nullable = false) (hc : r.starts c = false)
    (hd : r.starts d = false) : ends (seq (opt (char p)) r) before (c :: d :: s) = [] := by
  rw [eq_nil_iff_forall_not_mem]
  intro f hf
  obtain ⟨g, hg, h, hh, -⟩ := exists_of_mem_seq hf
  rcases mem_append.mp hg with hchar | hhere
  · rw [rest_of_char hchar, ends_eq_nil hnullable hd] at hh
    cases hh
  · rw [mem_singleton.mp hhere, here, ends_eq_nil hnullable hc] at hh
    cases hh

/-! ### Scans -/

lemma head?_of_match? (h : r.match? before s = some f) : (ends r before s).head? = some f ∧ f.text ≠ [] := by
  simp only [match?] at h
  split at h
  · rename_i g hg
    cases htext : g.text.isEmpty with
    | true => simp [htext] at h
    | false =>
      rw [htext, cond_false, Option.some.injEq] at h
      subst h
      exact ⟨hg, by simpa using htext⟩
  · cases h

lemma mem_of_match? (h : r.match? before s = some f) : f ∈ ends r before s ∧ f.text ≠ [] :=
  ⟨mem_of_head? (head?_of_match? h).1, (head?_of_match? h).2⟩

lemma match?_of_not_starts (hstarts : r.starts c = false) : r.match? before (c :: s) = none := by
  rw [Option.eq_none_iff_forall_not_mem]
  intro f hf
  obtain ⟨hmem, htext⟩ := mem_of_match? hf
  exact htext (text_eq_nil hstarts hmem)

lemma length_rest_lt (h : r.match? before s = some f) : f.rest.length < s.length := by
  obtain ⟨hmem, htext⟩ := mem_of_match? h
  have hlength := congrArg length (text_append_rest hmem)
  have hpositive : 0 < f.text.length := length_pos_iff.mpr htext
  rw [length_append] at hlength
  omega

lemma scanUpTo_enough (n : ℕ) : ∀ m before s, s.length ≤ n → s.length ≤ m →
    scanUpTo r n before s = scanUpTo r m before s := by
  induction n with
  | zero =>
    intro m before s hn hm
    have hs : s = [] := length_eq_zero_iff.mp (Nat.le_zero.mp hn)
    subst hs
    cases m <;> rfl
  | succ n ih =>
    intro m before s hn hm
    cases s with
    | nil => cases m <;> rfl
    | cons c s =>
      rw [length_cons] at hn hm
      cases m with
      | zero => omega
      | succ m =>
        simp only [scanUpTo]
        cases h : r.match? before (c :: s) with
        | none => simp only [ih m (some c) s (by omega) (by omega)]
        | some f =>
          have hlength := length_rest_lt h
          rw [length_cons] at hlength
          simp only [ih m _ f.rest (by omega) (by omega)]

lemma scan_of_none (h : r.match? before (c :: s) = none) : scan r before (c :: s) = .inl c :: scan r (some c) s := by
  simp only [scan, length_cons, scanUpTo, h]

lemma scan_of_some (h : r.match? before s = some f) :
    scan r before s = .inr f.toMatch :: scan r (f.last before) f.rest := by
  cases s with
  | nil => exact absurd (length_rest_lt h) (Nat.not_lt_zero _)
  | cons c s =>
    have hlength := length_rest_lt h
    rw [length_cons] at hlength
    simp only [scan, length_cons, scanUpTo, h]
    rw [scanUpTo_enough _ f.rest.length _ _ (by omega) (Nat.le_refl _)]

lemma scan_of_not_starts {b : List Char} (hstarts : ∀ c ∈ b, r.starts c = false) :
    scan r before (b ++ s) = b.map .inl ++ scan r (b.getLast?.or before) s := by
  induction b generalizing before with
  | nil => rfl
  | cons c b ih =>
    rw [cons_append, scan_of_none (match?_of_not_starts (hstarts c mem_cons_self)),
      ih fun d hd => hstarts d (mem_cons_of_mem c hd)]
    cases b with
    | nil => rfl
    | cons d b => simp [getLast?_cons]

lemma scan_of_ends_eq_nil (h : ∀ before v, v <:+ s → ends r before v = []) : scan r before s = s.map .inl := by
  induction s generalizing before with
  | nil => rfl
  | cons c s ih =>
    have hnone : r.match? before (c :: s) = none := by
      rw [match?, h before (c :: s) suffix_rfl]
      rfl
    rw [scan_of_none hnone, ih fun before v hv => h before v (hv.trans (suffix_cons c s))]
    rfl

/-- The next match does not change with what follows the text, and leaves some of the text. -/
structure Settled (r : Regex) (before : Option Char) (u : List Char) : Prop where
  far : ∀ w, r.match? before (u ++ w) = (r.match? before u).map (Found.extend w)
  rest : ∀ f, r.match? before u = some f → f.rest ≠ []

lemma settled_of_eq_nil (h : ∀ w, ends r before (u ++ w) = []) : Settled r before u := by
  have hnone : ∀ w, r.match? before (u ++ w) = none := by
    intro w
    rw [match?, h w]
    rfl
  refine ⟨fun w => ?_, fun f hf => ?_⟩
  · have hu := hnone []
    rw [append_nil] at hu
    rw [hnone w, hu]
    rfl
  · rw [← append_nil u, hnone []] at hf
    cases hf

lemma settled_of_head? (found : Option Found)
    (h : ∀ w, (ends r before (u ++ w)).head? = found.map (Found.extend w)) (hrest : ∀ f ∈ found, f.rest ≠ []) :
    Settled r before u := by
  have hu : (ends r before u).head? = found := by simpa using h []
  constructor
  · intro w
    rw [match?, match?, h w, hu]
    cases found with
    | none => rfl
    | some f =>
      simp only [Option.map_some, Found.toMatch_extend]
      cases f.text.isEmpty <;> rfl
  · intro f hf
    rw [(head?_of_match? hf).1] at hu
    exact hrest f hu.symm

lemma settled_of_local (h : Local r before u) (hrest : ∀ f ∈ ends r before u, f.rest ≠ []) : Settled r before u := by
  refine settled_of_head? (ends r before u).head? (fun w => ?_) fun f hf => hrest f (mem_of_head? hf)
  rw [h w, head?_map]

lemma settled_of_not_sees (hsees : r.sees c = false) (hc : c ∈ u) : Settled r before u :=
  settled_of_local (local_of_not_sees hsees hc) fun _ hf => ne_nil_of_mem (mem_rest_of_not_sees hsees hc hf)

/-- Where every next match is settled at a character, a scan reaches that character, and what it
has found until there does not change with what follows. -/
theorem scan_of_settled (n : ℕ) : ∀ v before, v.length ≤ n → (∀ before z, z <:+ v → Settled r before (z ++ [c])) →
    ∃ l, ∀ w, scan r before (v ++ c :: w) = l ++ .inl c :: scan r (some c) w := by
  induction n with
  | zero =>
    intro v before hn hsettled
    have hv : v = [] := length_eq_zero_iff.mp (Nat.le_zero.mp hn)
    subst hv
    have hnext := hsettled before [] (nil_suffix)
    have hfound : r.match? before [c] = none := by
      rw [Option.eq_none_iff_forall_not_mem]
      intro f hf
      have hlength := length_rest_lt hf
      exact hnext.rest f hf (length_eq_zero_iff.mp (by simpa using hlength))
    refine ⟨[], fun w => scan_of_none ?_⟩
    have hfar := hnext.far w
    rwa [nil_append, hfound] at hfar
  | succ n ih =>
    intro v before hn hsettled
    have hnext := hsettled before v suffix_rfl
    cases hfound : r.match? before (v ++ [c]) with
    | none =>
      have hfar : ∀ w, r.match? before (v ++ c :: w) = none := by
        intro w
        have hfar := hnext.far w
        rwa [hfound, append_assoc] at hfar
      cases v with
      | nil => exact ⟨[], fun w => scan_of_none (hfar w)⟩
      | cons d v =>
        obtain ⟨l, hl⟩ := ih v (some d) (Nat.le_of_succ_le_succ hn) fun before z hz =>
          hsettled before z (hz.trans (suffix_cons d v))
        refine ⟨.inl d :: l, fun w => ?_⟩
        have hskip : r.match? before (d :: (v ++ c :: w)) = none := hfar w
        rw [cons_append, scan_of_none hskip, hl, cons_append]
    | some f =>
      -- The match ends before the last character, so that the scan goes on in a shorter text.
      obtain ⟨hmem, htext⟩ := mem_of_match? hfound
      obtain ⟨z, d, hz⟩ := (eq_nil_or_concat f.rest).resolve_left (hnext.rest f hfound)
      rw [concat_eq_append] at hz
      have hwhole := text_append_rest hmem
      rw [hz, ← append_assoc] at hwhole
      obtain ⟨hv, rfl⟩ := append_singleton_inj.mp hwhole
      have hlength := congrArg length hv
      have hpositive : 0 < f.text.length := length_pos_iff.mpr htext
      rw [length_append] at hlength
      have hsuffix : z <:+ v := ⟨f.text, hv⟩
      obtain ⟨l, hl⟩ := ih z (f.last before) (by omega) fun before z' hz' => hsettled before z' (hz'.trans hsuffix)
      refine ⟨.inr f.toMatch :: l, fun w => ?_⟩
      have hfar : r.match? before (v ++ d :: w) = some (f.extend w) := by
        have hfar := hnext.far w
        rwa [hfound, append_assoc] at hfar
      rw [scan_of_some hfar, Found.rest_extend, Found.last_extend, hz, append_assoc]
      exact congrArg (.inr f.toMatch :: ·) (hl w)

lemma replaced_append (repl : Match → List Char) (l l' : List (Char ⊕ Match)) :
    replaced repl (l ++ l') = replaced repl l ++ replaced repl l' := flatMap_append

lemma replaced_map_inl (repl : Match → List Char) (b : List Char) : replaced repl (b.map .inl) = b := by
  induction b with
  | nil => rfl
  | cons c b ih => exact congrArg (c :: ·) ih

lemma sub_of_not_starts (repl : Match → List Char) (hstarts : ∀ c ∈ s, r.starts c = false) : r.sub repl s = s := by
  have hscan : scan r none s = s.map .inl := by
    simpa [scan, scanUpTo] using @scan_of_not_starts r none [] s hstarts
  rw [sub, hscan, replaced_map_inl]

lemma sub_eq_nil_iff {r : Regex} {repl : Match → List Char} (hrepl : ∀ m, repl m ≠ []) {s : List Char} :
    r.sub repl s = [] ↔ s = [] := by
  cases s with
  | nil => simp [sub, scan, scanUpTo, replaced]
  | cons c s =>
    rw [sub, scan, length_cons, scanUpTo]
    cases r.match? none (c :: s) with
    | none => simp [replaced]
    | some f => simp [replaced, hrepl]

lemma sub_of_ends_eq_nil (repl : Match → List Char) (h : ∀ before v, v <:+ s → ends r before v = []) :
    r.sub repl s = s := by
  rw [sub, scan_of_ends_eq_nil h, replaced_map_inl]

/-! ### Any text up to a match, as short as possible -/

lemma ends_lazy_cons : ends (seq (star false (char fun _ => true)) t) before (c :: s) = ends t before (c :: s) ++
      (ends (seq (star false (char fun _ => true)) t) (some c) s).map (Found.append ⟨⟨[c], []⟩, s⟩) := by
  have hhere : (ends t ((here (c :: s)).last before) (here (c :: s)).rest).map (here (c :: s)).append =
      ends t before (c :: s) := by
    have hid : (here (c :: s)).append = id := by
      funext f
      rfl
    rw [hid, map_id]
    rfl
  have hstars : ends (star false (char fun _ => true)) before (c :: s) = here (c :: s) ::
      (ends (star false (char fun _ => true)) (some c) s).map (Found.append ⟨⟨[c], []⟩, s⟩) := by
    simp [Found.last]
  rw [ends, hstars, flatMap_cons, hhere, ends, flatMap_map, map_flatMap]
  refine congrArg (_ ++ ·) (flatMap_congr fun f _ => ?_)
  rw [Found.last_append, map_map]
  exact map_congr_left fun g _ => Found.append_assoc _ f g

lemma exists_head?_lazy {e : List Char} (hsees : t.sees c = false) (hmatch : ∀ before, ends t before (e ++ [c]) ≠ [])
    (v : List Char) : ∀ before, ∃ f : Found, f.rest ≠ [] ∧ ∀ w,
      (ends (seq (star false (char fun _ => true)) t) before (v ++ e ++ c :: w)).head? = some (f.extend w) := by
  induction v with
  | nil =>
    intro before
    cases hends : ends t before (e ++ [c]) with
    | nil => exact absurd hends (hmatch before)
    | cons f fs =>
      have hc : c ∈ e ++ [c] := mem_append_right e mem_cons_self
      refine ⟨f, ne_nil_of_mem (mem_rest_of_not_sees hsees hc (hends ▸ mem_cons_self)), fun w => ?_⟩
      have hcut : Local t before (e ++ [c]) := local_of_not_sees hsees hc
      have hlocal := hcut w
      rw [hends, append_assoc, singleton_append] at hlocal
      rw [nil_append]
      cases hs : e ++ c :: w with
      | nil => simp at hs
      | cons d s =>
        rw [ends_lazy_cons, ← hs, hlocal]
        rfl
  | cons d v ih =>
    intro before
    have hc : c ∈ d :: (v ++ e ++ [c]) := by simp
    have hlocal : ∀ w, ends t before (d :: (v ++ e ++ c :: w)) = (ends t before (d :: (v ++ e ++ [c]))).map (Found.extend w) := by
      intro w
      have hcut : Local t before (d :: (v ++ e ++ [c])) := local_of_not_sees hsees hc
      simpa using hcut w
    cases hends : ends t before (d :: (v ++ e ++ [c])) with
    | nil =>
      obtain ⟨f, hrest, hf⟩ := ih (some d)
      refine ⟨Found.append ⟨⟨[d], []⟩, []⟩ f, hrest, fun w => ?_⟩
      rw [cons_append, cons_append, ends_lazy_cons, hlocal, hends, map_nil, nil_append, head?_map, hf w]
      rfl
    | cons f fs =>
      refine ⟨f, ne_nil_of_mem (mem_rest_of_not_sees hsees hc (hends ▸ mem_cons_self)), fun w => ?_⟩
      rw [cons_append, cons_append, ends_lazy_cons, hlocal, hends]
      rfl

end
end Regex
end IncidentLens.Data
