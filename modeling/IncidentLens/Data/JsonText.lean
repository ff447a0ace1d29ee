import IncidentLens.Data.Dict
import IncidentLens.Data.Json

/-!
# Writing and reading JSON

`json.dumps` with `ensure_ascii=False` and compact separators, and `json.loads`. What is written is read back.
-/
namespace IncidentLens.Data.Json

open List Option

/-! ### Writing -/

mutual

/-- `json.dumps`, the members in their order. -/
def write : Json → List Char
  | null => "null".toList
  | bool b => if b then "true".toList else "false".toList
  | number literal => literal.toList
  | string s => quote s
  | array items => ['['] ++ joinComma (writeItems items) ++ [']']
  | object members => ['{'] ++ joinComma (writeMembers members) ++ ['}']

def writeItems : List Json → List (List Char)
  | [] => []
  | item :: items => write item :: writeItems items

def writeMembers : List (String × Json) → List (List Char)
  | [] => []
  | (key, value) :: members => (quote key ++ ':' :: write value) :: writeMembers members

end

/-! ### Reading -/

def skip (s : List Char) : List Char := s.dropWhile fun c => c = ' ' ∨ c = '\t' ∨ c = '\n' ∨ c = '\r'

def hexValue (c : Char) : Option ℕ :=
  if '0' ≤ c ∧ c ≤ '9' then some (c.toNat - 48)
  else if 'a' ≤ c ∧ c ≤ 'f' then some (c.toNat - 87)
  else if 'A' ≤ c ∧ c ≤ 'F' then some (c.toNat - 55)
  else none

def readHex4 : List Char → Option (ℕ × List Char)
  | a :: b :: c :: d :: rest => do
    let a ← hexValue a
    let b ← hexValue b
    let c ← hexValue c
    let d ← hexValue d
    return (a * 4096 + b * 256 + c * 16 + d, rest)
  | _ => none

def simpleEscape (c : Char) : Option Char :=
  if c = '"' ∨ c = '\\' ∨ c = '/' then some c
  else if c = 'n' then some '\n'
  else if c = 'r' then some '\r'
  else if c = 't' then some '\t'
  else if c = 'b' then some (Char.ofNat 8)
  else if c = 'f' then some (Char.ofNat 12)
  else none

/-- What follows a backslash. A surrogate without its pair is no character. -/
def readEscape : List Char → Option (Char × List Char)
  | [] => none
  | c :: rest =>
    if c = 'u' then
      match readHex4 rest with
      | none => none
      | some (n, rest) =>
        if 0xD800 ≤ n ∧ n < 0xDC00 then match rest with
          | '\\' :: 'u' :: rest => match readHex4 rest with
            | none => none
            | some (m, rest) =>
              if 0xDC00 ≤ m ∧ m < 0xE000 then some (Char.ofNat (0x10000 + (n - 0xD800) * 1024 + (m - 0xDC00)), rest)
              else none
          | _ => none
        else if 0xDC00 ≤ n ∧ n < 0xE000 then none
        else some (Char.ofNat n, rest)
    else (simpleEscape c).map fun c => (c, rest)

/-- A string up to its closing quote; control characters must be escaped. -/
def readString : ℕ → List Char → Option (List Char × List Char)
  | 0, _ => none
  | _ + 1, [] => none
  | n + 1, c :: rest =>
    if c = '"' then some ([], rest)
    else if c = '\\' then
      (readEscape rest).bind fun escaped => (readString n escaped.2).map fun text => (escaped.1 :: text.1, text.2)
    else if c.toNat < 32 then none
    else (readString n rest).map fun text => (c :: text.1, text.2)

/-! A number is `-?(0|[1-9][0-9]*)(\.[0-9]+)?([eE][-+]?[0-9]+)?`. Its parts are read one after the other, and what
is read stands before what is left. -/

def readDigits (s : List Char) : List Char × List Char := (s.takeWhile Char.isDigit, s.dropWhile Char.isDigit)

def readSign : List Char → List Char × List Char
  | [] => ([], [])
  | c :: s => if c = '-' then (['-'], s) else ([], c :: s)

def readInteger : List Char → Option (List Char × List Char)
  | [] => none
  | c :: s => if c = '0' then some (['0'], s) else if c.isDigit then some (readDigits (c :: s)) else none

def readFraction : List Char → List Char × List Char
  | [] => ([], [])
  | c :: s => if c = '.' ∧ (readDigits s).1 ≠ [] then ('.' :: (readDigits s).1, (readDigits s).2) else ([], c :: s)

def readExponentSign : List Char → List Char × List Char
  | [] => ([], [])
  | c :: s => if c = '-' ∨ c = '+' then ([c], s) else ([], c :: s)

def readExponent : List Char → List Char × List Char
  | [] => ([], [])
  | c :: s =>
    let signed := readExponentSign s
    if (c = 'e' ∨ c = 'E') ∧ (readDigits signed.2).1 ≠ [] then
      (c :: signed.1 ++ (readDigits signed.2).1, (readDigits signed.2).2)
    else ([], c :: s)

def readNumber (s : List Char) : Option (List Char × List Char) :=
  (readInteger (readSign s).2).map fun integer =>
    let fraction := readFraction integer.2
    let exponent := readExponent fraction.2
    ((readSign s).1 ++ integer.1 ++ fraction.1 ++ exponent.1, exponent.2)

def constants : List String := ["NaN", "Infinity", "-Infinity"]

/-- What `int` or `float` makes of the text of a number is written as another such text, which it makes the same
number of, or as a constant. -/
structure Numbers where
  canonical : String → String
  scalar : ∀ text, canonical text ∈ constants ∨
    readNumber (canonical text).toList = some ((canonical text).toList, []) ∧ canonical (canonical text) = canonical text

section
variable (numbers : Numbers)

def readScalar (s : List Char) : Option (Json × List Char) :=
  if "null".toList.isPrefixOf s then some (.null, s.drop 4)
  else if "true".toList.isPrefixOf s then some (.bool true, s.drop 4)
  else if "false".toList.isPrefixOf s then some (.bool false, s.drop 5)
  else match constants.find? fun constant => constant.toList.isPrefixOf s with
    | some constant => some (.number constant, s.drop constant.length)
    | none => (readNumber s).map fun text => (.number (numbers.canonical (String.ofList text.1)), text.2)

/-- `dict` of the pairs: of two values of a key the last one stays. -/
def toDict (pairs : List (String × Json)) : Dict String Json := pairs.foldl (fun d pair => d.set pair.1 pair.2) []

mutual

def readValue : ℕ → List Char → Option (Json × List Char)
  | 0, _ => none
  | _ + 1, [] => none
  | n + 1, c :: s =>
    if c = '"' then (readString (s.length + 1) s).map fun text => (.string (String.ofList text.1), text.2)
    else if c = '[' then
      if (skip s).head? = some ']' then some (.array [], (skip s).tail)
      else (readItems n (skip s)).map fun items => (.array items.1, items.2)
    else if c = '{' then
      if (skip s).head? = some '}' then some (.object [], (skip s).tail)
      else (readMembers n (skip s)).map fun members => (.object (toDict members.1), members.2)
    else readScalar numbers (c :: s)

/-- The items from one on, up to the closing bracket. -/
def readItems : ℕ → List Char → Option (List Json × List Char)
  | 0, _ => none
  | n + 1, s => (readValue n s).bind fun item => match skip item.2 with
    | [] => none
    | c :: rest =>
      if c = ',' then (readItems n (skip rest)).map fun items => (item.1 :: items.1, items.2)
      else if c = ']' then some ([item.1], rest)
      else none

def readMembers : ℕ → List Char → Option (List (String × Json) × List Char)
  | 0, _ => none
  | _ + 1, [] => none
  | n + 1, c :: s =>
    if c = '"' then (readString (s.length + 1) s).bind fun key => match skip key.2 with
      | [] => none
      | c :: rest =>
        if c = ':' then (readValue n (skip rest)).bind fun value => match skip value.2 with
          | [] => none
          | c :: rest =>
            if c = ',' then
              (readMembers n (skip rest)).map fun members => ((String.ofList key.1, value.1) :: members.1, members.2)
            else if c = '}' then some ([(String.ofList key.1, value.1)], rest)
            else none
        else none
    else none

end

/-- `json.loads`. -/
def loads (s : List Char) : Option Json :=
  (readValue numbers (s.length + 1) (skip s)).bind fun value => if skip value.2 = [] then some value.1 else none

end

/-! ### Strings that are written -/

lemma hexValue_hexDigit {n : ℕ} (h : n < 16) : hexValue (hexDigit n) = some n := by
  have hall : ∀ n < 16, hexValue (hexDigit n) = some n := by decide
  exact hall n h

lemma readEscape_hex {n : ℕ} (h : n < 32) (rest : List Char) :
    readEscape ('u' :: '0' :: '0' :: hexDigit (n / 16) :: hexDigit (n % 16) :: rest) = some (Char.ofNat n, rest) := by
  have hzero : hexValue '0' = some 0 := by decide
  have hhigh := hexValue_hexDigit (n := n / 16) (by omega)
  have hlow := hexValue_hexDigit (n := n % 16) (by omega)
  have hfour : readHex4 ('0' :: '0' :: hexDigit (n / 16) :: hexDigit (n % 16) :: rest) = some (n, rest) := by
    simp only [readHex4, hzero, hhigh, hlow, Option.bind_eq_bind, Option.bind_some, Option.pure_def, Option.some.injEq,
      Prod.mk.injEq, and_true]
    omega
  rw [readEscape, if_pos rfl, hfour]
  simp only []
  rw [if_neg (by omega), if_neg (by omega)]

lemma readString_escape (n : ℕ) (c : Char) (rest : List Char) :
    readString (n + 1) (escape c ++ rest) = (readString n rest).map fun text => (c :: text.1, text.2) := by
  have hescaped : ∀ tail, readEscape tail = some (c, rest) → escape c ++ rest = '\\' :: tail →
      readString (n + 1) (escape c ++ rest) = (readString n rest).map fun text => (c :: text.1, text.2) := by
    intro tail htail heq
    rw [heq, readString, if_neg (by decide), if_pos rfl, htail]
    rfl
  unfold escape at hescaped ⊢
  split_ifs at hescaped ⊢ with h1 h2 h3 h4 h5 h6 h7 h8
  · exact hescaped ('"' :: rest) (by rw [h1]; rfl) rfl
  · exact hescaped ('\\' :: rest) (by rw [h2]; rfl) rfl
  · exact hescaped ('n' :: rest) (by rw [h3]; rfl) rfl
  · exact hescaped ('r' :: rest) (by rw [h4]; rfl) rfl
  · exact hescaped ('t' :: rest) (by rw [h5]; rfl) rfl
  · exact hescaped ('b' :: rest) (by rw [← Char.ofNat_toNat c, h6]; rfl) rfl
  · exact hescaped ('f' :: rest) (by rw [← Char.ofNat_toNat c, h7]; rfl) rfl
  · exact hescaped _ ((readEscape_hex h8 rest).trans (by rw [Char.ofNat_toNat])) rfl
  · rw [singleton_append, readString, if_neg h1, if_neg h2, if_neg h8]

lemma readString_quoted (text rest : List Char) (n : ℕ) (hn : text.length < n) :
    readString n (text.flatMap escape ++ '"' :: rest) = some (text, rest) := by
  induction text generalizing n with
  | nil =>
    obtain ⟨m, rfl⟩ := Nat.exists_eq_add_of_lt hn
    rw [flatMap_nil, nil_append, readString.eq_3, if_pos rfl]
  | cons c text ih =>
    cases n with
    | zero => exact absurd hn (Nat.not_lt_zero _)
    | succ n =>
      rw [flatMap_cons, append_assoc, readString_escape, ih n (Nat.lt_of_succ_lt_succ hn)]
      rfl

/-! ### Numbers that are written -/

def Closed (rest : List Char) : Prop := ∀ c ∈ rest.head?, c = ',' ∨ c = ']' ∨ c = '}'

lemma closed_nil : Closed [] := by
  rintro c ⟨⟩

lemma closed_cons {c : Char} (h : c = ',' ∨ c = ']' ∨ c = '}') (rest : List Char) : Closed (c :: rest) := by
  rintro d hd
  rw [← some.inj hd]
  exact h

section
variable {rest : List Char}

lemma readDigits_append (h : Closed rest) (s : List Char) :
    readDigits (s ++ rest) = ((readDigits s).1, (readDigits s).2 ++ rest) := by
  induction s with
  | nil =>
    cases rest with
    | nil => rfl
    | cons c rest =>
      have hc : c.isDigit = false := by
        rcases h c rfl with rfl | rfl | rfl
        all_goals decide
      simp [readDigits, hc]
  | cons c s ih =>
    obtain ⟨htake, hdrop⟩ := Prod.mk.inj ih
    cases hc : c.isDigit with
    | true => simp [readDigits, hc, htake, hdrop]
    | false => simp [readDigits, hc]

lemma readSign_append (h : Closed rest) (s : List Char) :
    readSign (s ++ rest) = ((readSign s).1, (readSign s).2 ++ rest) := by
  cases s with
  | nil =>
    cases rest with
    | nil => rfl
    | cons c rest =>
      refine if_neg ?_
      rcases h c rfl with rfl | rfl | rfl
      all_goals decide
  | cons c s =>
    simp only [cons_append, readSign]
    split_ifs
    · rfl
    · rfl

lemma readExponentSign_append (h : Closed rest) (s : List Char) :
    readExponentSign (s ++ rest) = ((readExponentSign s).1, (readExponentSign s).2 ++ rest) := by
  cases s with
  | nil =>
    cases rest with
    | nil => rfl
    | cons c rest =>
      refine if_neg ?_
      rcases h c rfl with rfl | rfl | rfl
      all_goals decide
  | cons c s =>
    simp only [cons_append, readExponentSign]
    split_ifs
    · rfl
    · rfl

lemma readFraction_append (h : Closed rest) (s : List Char) :
    readFraction (s ++ rest) = ((readFraction s).1, (readFraction s).2 ++ rest) := by
  cases s with
  | nil =>
    cases rest with
    | nil => rfl
    | cons c rest =>
      refine if_neg (fun hc => ?_)
      rcases h c rfl with rfl | rfl | rfl
      all_goals exact absurd hc.1 (by decide)
  | cons c s =>
    simp only [cons_append, readFraction, readDigits_append h]
    split_ifs
    · rfl
    · rfl

lemma readExponent_append (h : Closed rest) (s : List Char) :
    readExponent (s ++ rest) = ((readExponent s).1, (readExponent s).2 ++ rest) := by
  cases s with
  | nil =>
    cases rest with
    | nil => rfl
    | cons c rest =>
      refine if_neg (fun hc => ?_)
      rcases h c rfl with rfl | rfl | rfl
      all_goals exact absurd hc.1 (by decide)
  | cons c s =>
    simp only [cons_append, readExponent, readExponentSign_append h, readDigits_append h]
    split_ifs
    · rfl
    · rfl

variable {s t r : List Char}

lemma readInteger_append (h : Closed rest) (hs : readInteger s = some (t, r)) :
    readInteger (s ++ rest) = some (t, r ++ rest) := by
  cases s with
  | nil => cases hs
  | cons c s =>
    rw [readInteger] at hs
    rw [cons_append, readInteger, ← cons_append, readDigits_append h]
    split_ifs at hs ⊢ with hzero hdigit
    · obtain ⟨rfl, rfl⟩ := Prod.mk.inj (some.inj hs)
      rfl
    · rw [some.inj hs]

lemma readNumber_append (h : Closed rest) (hs : readNumber s = some (t, r)) :
    readNumber (s ++ rest) = some (t, r ++ rest) := by
  obtain ⟨⟨digits, tail⟩, hinteger, heq⟩ := map_eq_some_iff.mp hs
  obtain ⟨rfl, rfl⟩ := Prod.mk.inj heq
  unfold readNumber
  rw [readSign_append h, readInteger_append h hinteger]
  simp only [map_some, readFraction_append h, readExponent_append h]

lemma head_of_readNumber {c : Char} (hs : readNumber (c :: s) = some (t, r)) :
    c.isDigit = true ∨ c = '-' ∧ ∃ d tail, s = d :: tail ∧ d.isDigit = true := by
  have hdigit : ∀ {c : Char} {s : List Char} {out}, readInteger (c :: s) = some out → c.isDigit = true := by
    intro c s out h
    rw [readInteger] at h
    split_ifs at h with hzero hdigit
    · rw [hzero]
      decide
    · exact hdigit
  obtain ⟨out, hinteger, -⟩ := map_eq_some_iff.mp hs
  rw [readSign] at hinteger
  split_ifs at hinteger with hsign
  · cases s with
    | nil => cases hinteger
    | cons d tail => exact .inr ⟨hsign, d, tail, rfl, hdigit hinteger⟩
  · exact .inl (hdigit hinteger)

end

/-! ### Values that are written -/

section
variable {numbers : Numbers}

variable (numbers) in
def ValidNumber (literal : String) : Prop :=
  literal ∈ constants ∨ readNumber literal.toList = some (literal.toList, []) ∧ numbers.canonical literal = literal

variable (numbers) in
mutual

/-- A value that `json.loads` can return: objects have every key once. -/
def Valid : Json → Prop
  | number literal => ValidNumber numbers literal
  | array items => ValidItems items
  | object members => (members.map Prod.fst).Nodup ∧ ValidMembers members
  | null | bool _ | string _ => True

def ValidItems : List Json → Prop
  | [] => True
  | item :: items => Valid item ∧ ValidItems items

def ValidMembers : List (String × Json) → Prop
  | [] => True
  | (_, value) :: members => Valid value ∧ ValidMembers members

end

/-- A character that begins a value: it is not skipped and closes nothing. -/
def Opens (c : Char) : Prop := c ≠ ' ' ∧ c ≠ '\t' ∧ c ≠ '\n' ∧ c ≠ '\r' ∧ c ≠ ']' ∧ c ≠ '}'

/-- A character that begins a number or a constant. -/
def OpensNumber (c : Char) : Prop := c.isDigit = true ∨ c = '-' ∨ c = 'N' ∨ c = 'I'

lemma OpensNumber.ne {c d : Char} (h : OpensNumber c) (hd : d.isDigit = false ∧ d ≠ '-' ∧ d ≠ 'N' ∧ d ≠ 'I') :
    c ≠ d := by
  rintro rfl
  rcases h with h | h | h | h
  · rw [hd.1] at h
    cases h
  · exact hd.2.1 h
  · exact hd.2.2.1 h
  · exact hd.2.2.2 h

lemma ValidNumber.head {literal : String} (h : ValidNumber numbers literal) :
    ∃ c s, literal.toList = c :: s ∧ OpensNumber c := by
  rcases h with h | ⟨h, -⟩
  · simp only [constants, mem_cons, not_mem_nil, or_false] at h
    rcases h with rfl | rfl | rfl
    · exact ⟨'N', _, rfl, .inr (.inr (.inl rfl))⟩
    · exact ⟨'I', _, rfl, .inr (.inr (.inr rfl))⟩
    · exact ⟨'-', _, rfl, .inr (.inl rfl)⟩
  · cases hs : literal.toList with
    | nil =>
      rw [hs] at h
      cases h
    | cons c s =>
      rw [hs] at h
      exact ⟨c, s, rfl, (head_of_readNumber h).imp_right fun hc => .inl hc.1⟩

variable {v : Json}

lemma head_of_write (h : Valid numbers v) : ∃ c s, write v = c :: s ∧ Opens c := by
  cases v with
  | null => exact ⟨'n', _, rfl, by simp [Opens]⟩
  | bool b =>
    cases b with
    | false => exact ⟨'f', _, rfl, by simp [Opens]⟩
    | true => exact ⟨'t', _, rfl, by simp [Opens]⟩
  | number literal =>
    obtain ⟨c, s, hs, hc⟩ := ValidNumber.head h
    refine ⟨c, s, hs, ?_⟩
    exact ⟨hc.ne (by decide), hc.ne (by decide), hc.ne (by decide), hc.ne (by decide), hc.ne (by decide), hc.ne (by decide)⟩
  | string s => exact ⟨'"', _, rfl, by simp [Opens]⟩
  | array items => exact ⟨'[', _, rfl, by simp [Opens]⟩
  | object members => exact ⟨'{', _, rfl, by simp [Opens]⟩

lemma skip_cons {c : Char} (h : Opens c) (s : List Char) : skip (c :: s) = c :: s := by
  refine dropWhile_cons_of_neg ?_
  rw [decide_eq_true_iff]
  rintro (hc | hc | hc | hc)
  · exact h.1 hc
  · exact h.2.1 hc
  · exact h.2.2.1 hc
  · exact h.2.2.2.1 hc

lemma skip_write (h : Valid numbers v) (rest : List Char) : skip (write v ++ rest) = write v ++ rest := by
  obtain ⟨c, s, hs, hc⟩ := head_of_write h
  rw [hs]
  exact skip_cons hc _

lemma not_prefix_of_ne {c d : Char} (s t : List Char) (h : d ≠ c) : ¬ (d :: t).isPrefixOf (c :: s) = true := by
  rw [List.isPrefixOf_iff_prefix, cons_prefix_cons]
  exact fun hpre => h hpre.1

lemma readScalar_number {literal : String} (h : ValidNumber numbers literal) {rest : List Char} (hclosed : Closed rest) :
    readScalar numbers (literal.toList ++ rest) = some (.number literal, rest) := by
  obtain ⟨c, s, hs, hc⟩ := h.head
  have hword : ∀ word ∈ ["null", "true", "false"], ¬ word.toList.isPrefixOf (literal.toList ++ rest) = true := by
    intro word hword
    rw [hs]
    simp only [mem_cons, not_mem_nil, or_false] at hword
    rcases hword with rfl | rfl | rfl
    all_goals exact not_prefix_of_ne _ _ (hc.ne (by decide)).symm
  unfold readScalar
  rw [if_neg (hword "null" (by simp)), if_neg (hword "true" (by simp)), if_neg (hword "false" (by simp))]
  rcases h with h | ⟨h, hcanonical⟩
  · have hfind : constants.find? (fun constant => constant.toList.isPrefixOf (literal.toList ++ rest)) = some literal := by
      simp only [constants, mem_cons, not_mem_nil, or_false] at h
      rcases h with rfl | rfl | rfl
      all_goals rfl
    rw [hfind]
    exact congrArg (fun tail => some (Json.number literal, tail)) (drop_left' (by rw [String.length_toList]))
  · have hfind : constants.find? (fun constant => constant.toList.isPrefixOf (literal.toList ++ rest)) = none := by
      rw [find?_eq_none]
      intro constant hconstant hpre
      rw [hs] at h hpre
      simp only [constants, mem_cons, not_mem_nil, or_false] at hconstant
      have hdigit : ∀ d : Char, d.isDigit = true → d ≠ 'N' ∧ d ≠ 'I' ∧ d ≠ '-' := by
        rintro d hd
        refine ⟨?_, ?_, ?_⟩
        all_goals
          rintro rfl
          exact absurd hd (by decide)
      rcases head_of_readNumber h with hd | ⟨rfl, d, tail, rfl, hd⟩
      · rcases hconstant with rfl | rfl | rfl
        · exact not_prefix_of_ne _ _ (hdigit c hd).1.symm hpre
        · exact not_prefix_of_ne _ _ (hdigit c hd).2.1.symm hpre
        · exact not_prefix_of_ne _ _ (hdigit c hd).2.2.symm hpre
      · rcases hconstant with rfl | rfl | rfl
        · exact not_prefix_of_ne _ _ (by decide) hpre
        · exact not_prefix_of_ne _ _ (by decide) hpre
        · refine not_prefix_of_ne (c := d) (d := 'I') (tail ++ rest) "nfinity".toList (hdigit d hd).2.1.symm ?_
          exact hpre
    rw [hfind]
    simp only []
    rw [readNumber_append hclosed h, map_some, String.ofList_toList, hcanonical, nil_append]

lemma readScalar_word {word : String} {rest : List Char}
    (h : word = "null" ∧ v = .null ∨ word = "true" ∧ v = .bool true ∨ word = "false" ∧ v = .bool false) :
    readScalar numbers (word.toList ++ rest) = some (v, rest) := by
  rcases h with ⟨rfl, rfl⟩ | ⟨rfl, rfl⟩ | ⟨rfl, rfl⟩
  all_goals rfl

lemma length_le_flatMap_escape (text : List Char) : text.length ≤ (text.flatMap escape).length := by
  have hescape : ∀ c, 1 ≤ (escape c).length := by
    intro c
    unfold escape
    split_ifs
    all_goals simp
  induction text with
  | nil => exact Nat.le_refl 0
  | cons c text ih =>
    have hc := hescape c
    rw [flatMap_cons, length_append, length_cons]
    omega

lemma readString_quote (text : String) (rest : List Char) : ∃ body, quote text ++ rest = '"' :: body ∧
    readString (body.length + 1) body = some (text.toList, rest) := by
  refine ⟨text.toList.flatMap escape ++ '"' :: rest, by simp [quote], ?_⟩
  refine readString_quoted _ _ _ ?_
  have hle := length_le_flatMap_escape text.toList
  rw [length_append, length_cons]
  omega

lemma toDict_append {d pairs : Dict String Json} (h : (d ++ pairs).keys.Nodup) :
    pairs.foldl (fun d pair => d.set pair.1 pair.2) d = d ++ pairs := by
  induction pairs generalizing d with
  | nil => exact (append_nil d).symm
  | cons pair pairs ih =>
    have hfresh : pair.1 ∉ Dict.keys d := by
      intro hmem
      rw [Dict.keys, map_append, map_cons] at h
      exact (nodup_append.mp h).2.2 _ hmem _ mem_cons_self rfl
    rw [foldl_cons, Dict.set_of_not_mem hfresh, ih (by rwa [append_assoc]), append_assoc]
    rfl

lemma toDict_of_nodup {pairs : List (String × Json)} (h : (pairs.map Prod.fst).Nodup) : toDict pairs = pairs :=
  toDict_append h

mutual

def cost : Json → ℕ
  | array items => 1 + costItems items
  | object members => 1 + costMembers members
  | null | bool _ | number _ | string _ => 1

def costItems : List Json → ℕ
  | [] => 0
  | item :: items => 1 + cost item + costItems items

def costMembers : List (String × Json) → ℕ
  | [] => 0
  | (_, value) :: members => 1 + cost value + costMembers members

end

lemma readValue_scalar {c : Char} {s rest : List Char} {v : Json} (n : ℕ) (hc : c ≠ '"' ∧ c ≠ '[' ∧ c ≠ '{')
    (h : readScalar numbers (c :: s) = some (v, rest)) : readValue numbers (n + 1) (c :: s) = some (v, rest) := by
  rw [readValue, if_neg hc.1, if_neg hc.2.1, if_neg hc.2.2, h]

lemma skip_closed {c : Char} (h : c = ',' ∨ c = ']' ∨ c = '}' ∨ c = ':') (rest : List Char) :
    skip (c :: rest) = c :: rest := by
  refine dropWhile_cons_of_neg ?_
  rw [decide_eq_true_iff]
  rcases h with rfl | rfl | rfl | rfl
  all_goals decide

lemma joinComma_cons (item : List Char) (items : List (List Char)) : ∃ tail, joinComma (item :: items) = item ++ tail := by
  cases items with
  | nil => exact ⟨[], (append_nil item).symm⟩
  | cons next items => exact ⟨[','] ++ joinComma (next :: items), by rw [joinComma, append_assoc]; exact nofun⟩

lemma head_of_joinComma {item : List Char} {c : Char} {s : List Char} (h : item = c :: s) (items : List (List Char))
    (rest : List Char) : ∃ tail, joinComma (item :: items) ++ rest = c :: tail := by
  obtain ⟨tail, htail⟩ := joinComma_cons item items
  exact ⟨s ++ tail ++ rest, by rw [htail, h]; rfl⟩

lemma readMembers_key {key : String} {value : Json} {n : ℕ} {c : Char} {rest : List Char} (hv : Valid numbers value)
    (hread : readValue numbers n (write value ++ c :: rest) = some (value, c :: rest)) (hc : c = ',' ∨ c = '}') :
    readMembers numbers (n + 1) (quote key ++ ':' :: (write value ++ c :: rest)) =
      if c = ',' then (readMembers numbers n (skip rest)).map fun members => ((key, value) :: members.1, members.2)
      else some ([(key, value)], rest) := by
  obtain ⟨body, hbody, hkey⟩ := readString_quote key (':' :: (write value ++ c :: rest))
  rw [hbody, readMembers, if_pos rfl, hkey, bind_some]
  simp only [skip_closed (c := ':') (.inr (.inr (.inr rfl))), if_true, skip_write hv, hread, bind_some,
    String.ofList_toList]
  rcases hc with rfl | rfl
  · simp only [skip_closed (c := ',') (.inl rfl), if_true]
  · simp only [skip_closed (c := '}') (.inr (.inr (.inl rfl))), if_true]

mutual

lemma readValue_write : ∀ (v : Json) (n : ℕ) (rest : List Char), Valid numbers v → cost v ≤ n → Closed rest →
    readValue numbers n (write v ++ rest) = some (v, rest)
  | .null, n + 1, rest, _, _, _ => readValue_scalar n (by decide) (readScalar_word (.inl ⟨rfl, rfl⟩))
  | .bool true, n + 1, rest, _, _, _ => readValue_scalar n (by decide) (readScalar_word (.inr (.inl ⟨rfl, rfl⟩)))
  | .bool false, n + 1, rest, _, _, _ => readValue_scalar n (by decide) (readScalar_word (.inr (.inr ⟨rfl, rfl⟩)))
  | .number literal, n + 1, rest, hv, _, hclosed => by
    have hread := readScalar_number hv hclosed
    obtain ⟨c, s, hs, hc⟩ := ValidNumber.head hv
    rw [write, hs]
    rw [hs] at hread
    exact readValue_scalar n ⟨hc.ne (by decide), hc.ne (by decide), hc.ne (by decide)⟩ hread
  | .string s, n + 1, rest, _, _, _ => by
    obtain ⟨body, hbody, hread⟩ := readString_quote s rest
    rw [write, hbody, readValue, if_pos rfl, hread, map_some, String.ofList_toList]
  | .array items, n + 1, rest, hv, hn, _ => by
    rw [cost] at hn
    rw [write, append_assoc, append_assoc, singleton_append, readValue, if_neg (by decide), if_pos rfl]
    cases items with
    | nil => rfl
    | cons item items =>
      have hread := readItems_write item items n rest hv (by omega)
      rw [Valid, ValidItems] at hv
      obtain ⟨c, s, hs, hc⟩ := head_of_write hv.1
      obtain ⟨tail, htail⟩ := head_of_joinComma hs (writeItems items) (']' :: rest)
      rw [writeItems] at hread ⊢
      have hbracket : (c :: tail).head? ≠ some ']' := fun h => hc.2.2.2.2.1 (some.inj h)
      rw [singleton_append, htail, skip_cons hc, if_neg hbracket, ← htail, hread]
      rfl
  | .object members, n + 1, rest, hv, hn, _ => by
    rw [cost] at hn
    rw [write, append_assoc, append_assoc, singleton_append, readValue, if_neg (by decide),
      if_neg (by decide), if_pos rfl]
    cases members with
    | nil => rfl
    | cons member members =>
      have hread := readMembers_write member members n rest hv.2 (by omega)
      have hquote : quote member.1 ++ ':' :: write member.2 =
          '"' :: (member.1.toList.flatMap escape ++ ['"'] ++ ':' :: write member.2) := rfl
      obtain ⟨tail, htail⟩ := head_of_joinComma hquote (writeMembers members) ('}' :: rest)
      have hbrace : ('"' :: tail).head? ≠ some '}' := fun h => absurd (some.inj h) (by decide)
      rw [writeMembers] at hread ⊢
      rw [singleton_append, htail, skip_cons (by simp [Opens]), if_neg hbrace, ← htail, hread, map_some,
        toDict_of_nodup hv.1]
  | .null, 0, _, _, hn, _ | .bool _, 0, _, _, hn, _ | .number _, 0, _, _, hn, _ | .string _, 0, _, _, hn, _ =>
    absurd hn (by rw [cost]; omega)
  | .array _, 0, _, _, hn, _ | .object _, 0, _, _, hn, _ => absurd hn (by rw [cost]; omega)

lemma readItems_write : ∀ (item : Json) (items : List Json) (n : ℕ) (rest : List Char), ValidItems numbers (item :: items) →
    costItems (item :: items) ≤ n →
      readItems numbers n (joinComma (writeItems (item :: items)) ++ ']' :: rest) = some (item :: items, rest)
  | item, [], n + 1, rest, hv, hn => by
    rw [costItems] at hn
    have hread := readValue_write item n (']' :: rest) hv.1 (by omega) (closed_cons (.inr (.inl rfl)) rest)
    rw [writeItems, writeItems, joinComma, readItems, hread, bind_some]
    simp only [skip_closed (.inr (.inl rfl))]
    rfl
  | item, next :: items, n + 1, rest, hv, hn => by
    rw [costItems] at hn
    have hvalue := readValue_write item n (',' :: (joinComma (writeItems (next :: items)) ++ ']' :: rest)) hv.1 (by omega)
      (closed_cons (.inl rfl) _)
    have hitems := readItems_write next items n rest hv.2 (by omega)
    obtain ⟨c, s, hs, hc⟩ := head_of_write hv.2.1
    obtain ⟨tail, htail⟩ := head_of_joinComma hs (writeItems items) (']' :: rest)
    have hskip : skip (joinComma (writeItems (next :: items)) ++ ']' :: rest) =
        joinComma (writeItems (next :: items)) ++ ']' :: rest := by
      rw [writeItems, htail]
      exact skip_cons hc _
    have hjoin : joinComma (writeItems (item :: next :: items)) ++ ']' :: rest =
        write item ++ ',' :: (joinComma (writeItems (next :: items)) ++ ']' :: rest) := by
      rw [writeItems, writeItems, joinComma, append_assoc, append_assoc]
      rfl
      exact nofun
    rw [hjoin, readItems, hvalue, bind_some]
    simp only [skip_closed (.inl rfl), if_true, hskip, hitems]
    rfl
  | item, items, 0, _, _, hn => absurd hn (by rw [costItems]; omega)

lemma readMembers_write : ∀ (member : String × Json) (members : List (String × Json)) (n : ℕ) (rest : List Char),
    ValidMembers numbers (member :: members) → costMembers (member :: members) ≤ n →
      readMembers numbers n (joinComma (writeMembers (member :: members)) ++ '}' :: rest) = some (member :: members, rest)
  | (key, value), [], n + 1, rest, hv, hn => by
    rw [costMembers] at hn
    have hread := readValue_write value n ('}' :: rest) hv.1 (by omega) (closed_cons (.inr (.inr rfl)) rest)
    have hjoin : joinComma (writeMembers [(key, value)]) ++ '}' :: rest = quote key ++ ':' :: (write value ++ '}' :: rest) := by
      rw [writeMembers, writeMembers, joinComma, append_assoc]
      rfl
    rw [hjoin, readMembers_key hv.1 hread (.inr rfl), if_neg (by decide)]
  | (key, value), next :: members, n + 1, rest, hv, hn => by
    rw [costMembers] at hn
    have hread := readValue_write value n (',' :: (joinComma (writeMembers (next :: members)) ++ '}' :: rest)) hv.1 (by omega)
      (closed_cons (.inl rfl) _)
    have hmembers := readMembers_write next members n rest hv.2 (by omega)
    have hquote : quote next.1 ++ ':' :: write next.2 =
        '"' :: (next.1.toList.flatMap escape ++ ['"'] ++ ':' :: write next.2) := rfl
    obtain ⟨tail, htail⟩ := head_of_joinComma hquote (writeMembers members) ('}' :: rest)
    have hskip : skip (joinComma (writeMembers (next :: members)) ++ '}' :: rest) =
        joinComma (writeMembers (next :: members)) ++ '}' :: rest := by
      rw [writeMembers, htail]
      exact skip_cons (by simp [Opens]) _
    have hjoin : joinComma (writeMembers ((key, value) :: next :: members)) ++ '}' :: rest =
        quote key ++ ':' :: (write value ++ ',' :: (joinComma (writeMembers (next :: members)) ++ '}' :: rest)) := by
      rw [writeMembers, writeMembers, joinComma, append_assoc, append_assoc, append_assoc]
      rfl
      exact nofun
    rw [hjoin, readMembers_key hv.1 hread (.inl rfl), if_pos rfl, hskip, hmembers]
    rfl
  | (_, _), members, 0, _, _, hn => absurd hn (by rw [costMembers]; omega)

end

lemma length_write_pos {v : Json} (h : Valid numbers v) : 1 ≤ (write v).length := by
  obtain ⟨c, s, hs, -⟩ := head_of_write h
  rw [hs]
  exact Nat.le_add_left 1 _

mutual

lemma cost_le : ∀ v : Json, Valid numbers v → cost v ≤ (write v).length
  | .null, hv | .bool _, hv | .number _, hv | .string _, hv => length_write_pos hv
  | .array items, hv => by
    have hitems := costItems_le items hv
    rw [cost, write, length_append, length_append, length_singleton, length_singleton]
    omega
  | .object members, hv => by
    have hmembers := costMembers_le members hv.2
    rw [cost, write, length_append, length_append, length_singleton, length_singleton]
    omega

lemma costItems_le : ∀ items : List Json, ValidItems numbers items →
    costItems items ≤ (joinComma (writeItems items)).length + 1
  | [], _ => Nat.zero_le _
  | [item], hv => by
    have hitem := cost_le item hv.1
    rw [costItems, costItems, writeItems, writeItems, joinComma]
    omega
  | item :: next :: items, hv => by
    have hitem := cost_le item hv.1
    have hitems := costItems_le (next :: items) hv.2
    have hjoin : (joinComma (writeItems (item :: next :: items))).length =
        (write item).length + 1 + (joinComma (writeItems (next :: items))).length := by
      simp [writeItems, joinComma]
      omega
    rw [costItems, hjoin]
    omega

lemma costMembers_le : ∀ members : List (String × Json), ValidMembers numbers members →
    costMembers members ≤ (joinComma (writeMembers members)).length + 1
  | [], _ => Nat.zero_le _
  | [(key, value)], hv => by
    have hvalue := cost_le value hv.1
    rw [costMembers, costMembers, writeMembers, writeMembers, joinComma, length_append, length_cons]
    omega
  | (key, value) :: next :: members, hv => by
    have hvalue := cost_le value hv.1
    have hmembers := costMembers_le (next :: members) hv.2
    have hjoin : (joinComma (writeMembers ((key, value) :: next :: members))).length =
        (quote key ++ ':' :: write value).length + 1 + (joinComma (writeMembers (next :: members))).length := by
      simp [writeMembers, joinComma]
      omega
    rw [costMembers, hjoin, length_append, length_cons]
    omega

end

variable {v : Json}

lemma loads_write (h : Valid numbers v) : loads numbers (write v) = some v := by
  have hskip := skip_write h []
  have hread := readValue_write v ((write v).length + 1) [] h ((cost_le v h).trans (Nat.le_succ _)) closed_nil
  rw [append_nil] at hskip hread
  rw [loads, hskip, hread]
  rfl

lemma write_injective {v w : Json} (hv : Valid numbers v) (hw : Valid numbers w) (h : write v = write w) : v = w := by
  have hread := loads_write hv
  rw [h, loads_write hw] at hread
  exact (some.inj hread).symm

/-! ### Values that are read -/

lemma validItems_iff {items : List Json} : ValidItems numbers items ↔ ∀ item ∈ items, Valid numbers item := by
  induction items with
  | nil => simp [ValidItems]
  | cons item items ih => rw [ValidItems, ih, forall_mem_cons]

lemma validMembers_iff {members : List (String × Json)} :
    ValidMembers numbers members ↔ ∀ member ∈ members, Valid numbers member.2 := by
  induction members with
  | nil => simp [ValidMembers]
  | cons member members ih => rw [ValidMembers, ih, forall_mem_cons]

lemma valid_toDict {pairs : List (String × Json)} (h : ∀ pair ∈ pairs, Valid numbers pair.2) :
    Valid numbers (.object (toDict pairs)) := by
  have hfold : ∀ d : Dict String Json, d.keys.Nodup → (∀ pair ∈ d, Valid numbers pair.2) →
      (pairs.foldl (fun d pair => d.set pair.1 pair.2) d).keys.Nodup ∧
        ∀ pair ∈ pairs.foldl (fun d pair => d.set pair.1 pair.2) d, Valid numbers pair.2 := by
    induction pairs with
    | nil => exact fun d hnodup hd => ⟨hnodup, hd⟩
    | cons pair pairs ih =>
      intro d hnodup hd
      obtain ⟨hpair, hpairs⟩ := forall_mem_cons.mp h
      refine ih hpairs _ (Dict.nodup_keys_set hnodup _ _) ?_
      intro other hother
      rcases Dict.mem_set hother with rfl | hmem
      · exact hpair
      · exact hd other hmem
  obtain ⟨hnodup, hvalid⟩ := hfold [] nodup_nil (by simp)
  exact ⟨hnodup, validMembers_iff.mpr hvalid⟩

lemma valid_readScalar {s rest : List Char} (h : readScalar numbers s = some (v, rest)) : Valid numbers v := by
  unfold readScalar at h
  split_ifs at h with hnull htrue hfalse
  · obtain ⟨rfl, -⟩ := Prod.mk.inj (some.inj h)
    trivial
  · obtain ⟨rfl, -⟩ := Prod.mk.inj (some.inj h)
    trivial
  · obtain ⟨rfl, -⟩ := Prod.mk.inj (some.inj h)
    trivial
  · cases hfind : constants.find? fun constant => constant.toList.isPrefixOf s with
    | some constant =>
      rw [hfind] at h
      obtain ⟨rfl, -⟩ := Prod.mk.inj (some.inj h)
      exact .inl (mem_of_find?_eq_some hfind)
    | none =>
      rw [hfind] at h
      obtain ⟨text, -, heq⟩ := map_eq_some_iff.mp h
      obtain ⟨rfl, -⟩ := Prod.mk.inj heq
      exact numbers.scalar _

lemma valid_read (n : ℕ) : (∀ s v rest, readValue numbers n s = some (v, rest) → Valid numbers v) ∧
    (∀ s items rest, readItems numbers n s = some (items, rest) → ∀ item ∈ items, Valid numbers item) ∧
    ∀ s members rest, readMembers numbers n s = some (members, rest) → ∀ member ∈ members, Valid numbers member.2 := by
  induction n with
  | zero =>
    refine ⟨?_, ?_, ?_⟩
    · rintro s v rest ⟨⟩
    · rintro s v rest ⟨⟩
    · rintro s v rest ⟨⟩
  | succ n ih =>
    obtain ⟨hvalue, hitems, hmembers⟩ := ih
    refine ⟨?_, ?_, ?_⟩
    · intro s v rest h
      cases s with
      | nil => cases h
      | cons c s =>
        rw [readValue] at h
        split_ifs at h with h1 h2 h3 h4 h5
        · obtain ⟨text, -, heq⟩ := map_eq_some_iff.mp h
          obtain ⟨rfl, -⟩ := Prod.mk.inj heq
          trivial
        · obtain ⟨rfl, -⟩ := Prod.mk.inj (some.inj h)
          trivial
        · obtain ⟨items, hread, heq⟩ := map_eq_some_iff.mp h
          obtain ⟨rfl, -⟩ := Prod.mk.inj heq
          exact validItems_iff.mpr (hitems _ _ _ hread)
        · obtain ⟨rfl, -⟩ := Prod.mk.inj (some.inj h)
          exact ⟨nodup_nil, trivial⟩
        · obtain ⟨members, hread, heq⟩ := map_eq_some_iff.mp h
          obtain ⟨rfl, -⟩ := Prod.mk.inj heq
          exact valid_toDict (hmembers _ _ _ hread)
        · exact valid_readScalar h
    · intro s items rest h
      rw [readItems] at h
      obtain ⟨⟨item, tail⟩, hread, h⟩ := bind_eq_some_iff.mp h
      have hitem := hvalue _ _ _ hread
      cases hskip : skip tail with
      | nil =>
        simp only [hskip] at h
        cases h
      | cons c tail =>
        simp only [hskip] at h
        split_ifs at h with hcomma hbracket
        · obtain ⟨others, hothers, heq⟩ := map_eq_some_iff.mp h
          obtain ⟨rfl, -⟩ := Prod.mk.inj heq
          exact forall_mem_cons.mpr ⟨hitem, hitems _ _ _ hothers⟩
        · obtain ⟨rfl, -⟩ := Prod.mk.inj (some.inj h)
          exact forall_mem_singleton.mpr hitem
    · intro s members rest h
      cases s with
      | nil => cases h
      | cons c s =>
        rw [readMembers] at h
        split_ifs at h with hquote
        obtain ⟨⟨key, tail⟩, -, h⟩ := bind_eq_some_iff.mp h
        cases hskip : skip tail with
        | nil =>
          simp only [hskip] at h
          cases h
        | cons c tail =>
          simp only [hskip] at h
          split_ifs at h with hcolon
          obtain ⟨⟨value, tail⟩, hread, h⟩ := bind_eq_some_iff.mp h
          have hmember := hvalue _ _ _ hread
          cases hskip : skip tail with
          | nil =>
            simp only [hskip] at h
            cases h
          | cons c tail =>
            simp only [hskip] at h
            split_ifs at h with hcomma hbrace
            · obtain ⟨others, hothers, heq⟩ := map_eq_some_iff.mp h
              obtain ⟨rfl, -⟩ := Prod.mk.inj heq
              exact forall_mem_cons.mpr ⟨hmember, hmembers _ _ _ hothers⟩
            · obtain ⟨rfl, -⟩ := Prod.mk.inj (some.inj h)
              exact forall_mem_singleton.mpr hmember

lemma valid_loads {s : List Char} (h : loads numbers s = some v) : Valid numbers v := by
  obtain ⟨⟨value, rest⟩, hread, h⟩ := bind_eq_some_iff.mp h
  split_ifs at h with hend
  obtain rfl := some.inj h
  exact (valid_read _).1 _ _ _ hread

end

end IncidentLens.Data.Json
