import IncidentLens.Logs.Redaction
import Mathlib.Data.List.Infix

/-!
# Secrets that survive redaction

Two messages around secrets that differ in one character are followed through the eight patterns.
A stretch of characters at which each pattern stops keeps that character behind it.
-/
namespace IncidentLens.Logs
open Data Data.Regex RedactionResult
open List hiding concat

lemma suffix_or_append {z a b : List Char} {c : Char} (h : z <:+ a ++ c :: b) : z <:+ b ∨ ∃ z', z = z' ++ c :: b := by
  obtain ⟨t, ht⟩ := h
  rcases append_eq_append_iff.mp ht with ⟨z', -, hz⟩ | ⟨t', -, hb⟩
  · exact .inr ⟨z', hz⟩
  · rcases suffix_cons_iff.mp ⟨t', hb.symm⟩ with hz | hz
    · exact .inr ⟨[], hz⟩
    · exact .inl hz

/-- Texts that are the same but for one more mark behind the characters `bar`. -/
def Apart (bar s t : List Char) : Prop := ∃ u x, s = u ++ bar ++ '#' :: ',' :: x ∧ t = u ++ bar ++ '#' :: '#' :: ',' :: x

section
variable {r : Regex} {a b s t : List Char} {c : Char}

/-- A pattern that is settled at a character of the bar keeps the texts apart from there on, where
it may begin with none of the characters behind. -/
theorem Apart.sub (repl : Match → List Char) (h : Apart (a ++ c :: b) s t)
    (hsettled : ∀ u before z, z <:+ u ++ a → Settled r before (z ++ [c]))
    (hstarts : ∀ d ∈ b ++ ['#', ','], r.starts d = false) : Apart (c :: b) (r.sub repl s) (r.sub repl t) := by
  obtain ⟨u, x, rfl, rfl⟩ := h
  obtain ⟨l, hl⟩ := scan_of_settled (u ++ a).length (u ++ a) none (Nat.le_refl _) (hsettled u)
  have hsub : ∀ mark, (∀ d ∈ mark, r.starts d = false) → ∀ y, y = u ++ (a ++ c :: b) ++ (mark ++ ',' :: x) →
      r.sub repl y = replaced repl l ++ c :: b ++ (mark ++ ',' :: replaced repl (scan r (some ',') x)) := by
    rintro mark hmark y rfl
    have hskip : ∀ d ∈ b ++ mark ++ [','], r.starts d = false := by
      intro d hd
      simp only [mem_append, mem_singleton] at hd
      rcases hd with (hd | hd) | rfl
      · exact hstarts d (by simp [hd])
      · exact hmark d hd
      · exact hstarts ',' (by simp)
    have hscan : scan r (some c) (b ++ mark ++ [','] ++ x) = (b ++ mark ++ [',']).map .inl ++
        scan r ((b ++ mark ++ [',']).getLast?.or (some c)) x := scan_of_not_starts hskip
    have htext : u ++ (a ++ c :: b) ++ (mark ++ ',' :: x) = u ++ a ++ c :: (b ++ mark ++ [','] ++ x) := by simp
    have hlast : (b ++ mark ++ [',']).getLast?.or (some c) = some ',' := by simp
    have hpieces : Sum.inl c :: ((b ++ mark ++ [',']).map Sum.inl ++ scan r (some ',') x) =
        (c :: (b ++ mark ++ [','])).map Sum.inl ++ scan r (some ',') x := rfl
    rw [Regex.sub, htext, hl, hscan, hlast, hpieces, replaced_append, replaced_append, replaced_map_inl]
    simp
  have hmark : r.starts '#' = false := hstarts '#' (by simp)
  exact ⟨replaced repl l, replaced repl (scan r (some ',') x),
    hsub ['#'] (by simpa using hmark) _ rfl, hsub ['#', '#'] (by simpa using hmark) _ rfl⟩

lemma Apart.sub_of_not_sees (repl : Match → List Char) (h : Apart (a ++ c :: b) s t) (hsees : r.sees c = false)
    (hstarts : ∀ d ∈ b ++ ['#', ','], r.starts d = false) : Apart (c :: b) (r.sub repl s) (r.sub repl t) :=
  h.sub repl (fun _ _ _ _ => settled_of_not_sees hsees (mem_append_right _ mem_cons_self)) hstarts

end

/-! ### Private keys -/

def pemClose : List Char := "-----END PRIVATE KEY-----".toList

lemma pemBegin_eq_nil (before : Option Char) {z : List Char} (hz : z <:+ pemClose) : ends pemBegin before (z ++ [',']) = [] := by
  have hnone : (pemClose.tails.all fun z => (ends pemBegin before (z ++ [','])).isEmpty) = true := by rfl
  have hmem := all_eq_true.mp hnone z ((mem_tails z pemClose).mpr hz)
  simpa using hmem

lemma pemEnd_ne_nil (before : Option Char) : ends pemEnd before (pemClose ++ [',']) ≠ [] := by
  obtain ⟨f, hf, hrest⟩ := mem_literal "-----END " ("PRIVATE KEY-----".toList ++ [',']) before
  obtain ⟨g, hg, -⟩ := mem_literal "PRIVATE KEY-----" [','] (f.last before)
  have hlabel : here f.rest ∈ ends pemLabel (f.last before) f.rest := here_mem_star
  rw [← hrest] at hg
  exact ne_nil_of_mem (append_mem_seq hf (append_mem_seq hlabel hg))

lemma settled_pemKeyRe (u : List Char) (before : Option Char) (z : List Char) (hz : z <:+ u ++ ',' :: pemClose) :
    Settled pemKeyRe before (z ++ [',']) := by
  have hsees : pemBegin.sees ',' = false := by rfl
  rcases suffix_or_append hz with hz | ⟨z', rfl⟩
  · refine settled_of_eq_nil fun w => ends_seq_eq_nil ?_
    have hlocal : Local pemBegin before (z ++ [',']) := local_of_not_sees hsees (by simp)
    rw [hlocal w, pemBegin_eq_nil before hz]
    rfl
  · -- A key that begins before the comma ends at the closing line behind it, or earlier.
    have hbegin : Local pemBegin before (z' ++ [',']) := local_of_not_sees hsees (by simp)
    have htext : ∀ w, z' ++ ',' :: pemClose ++ [','] ++ w = z' ++ [','] ++ (pemClose ++ ',' :: w) := by simp
    cases hends : ends pemBegin before (z' ++ [',']) with
    | nil =>
      refine settled_of_eq_nil fun w => ends_seq_eq_nil ?_
      rw [htext, hbegin, hends]
      rfl
    | cons g gs =>
      have hclose : pemEnd.sees ',' = false := by rfl
      obtain ⟨f, hrest, hf⟩ := exists_head?_lazy hclose pemEnd_ne_nil g.rest (g.last before)
      refine settled_of_head? (some (g.append f)) (fun w => ?_) fun f' hf' => ?_
      · have hhead := hf w
        rw [append_assoc] at hhead
        rw [pemKeyRe, ends, htext, hbegin, hends, map_cons, flatMap_cons, head?_append]
        simp only [Found.last_extend, Found.rest_extend, head?_map, hhead]
        rfl
      · rw [← Option.some.inj hf']
        exact hrest

/-! ### Keys and values -/

section
variable {before : Option Char} {p b s gap : List Char} {q : Char}

lemma rest_of_quoted {f : Found} (hp : p ≠ []) (hf : f ∈ ends (quoted q) before (p ++ q :: b)) :
    ∃ v, f.rest = v ++ b := by
  cases p with
  | nil => exact absurd rfl hp
  | cons c p =>
    obtain ⟨g, hg, f, hmem, rfl⟩ := exists_of_mem_seq hf
    obtain ⟨h, hh, k, hk, rfl⟩ := exists_of_mem_seq hmem
    have htakes : (many fun c => !(c == q)).takes q = false := by simp [many, takes]
    have hgrest : g.rest = p ++ q :: b := rest_of_char hg
    rw [hgrest] at hh
    obtain ⟨v, -, hrest⟩ := rest_of_not_takes htakes hh
    rw [hrest] at hk
    cases v with
    | nil =>
      have hkrest : k.rest = b := rest_of_char hk
      exact ⟨[], hkrest⟩
    | cons d v =>
      have hkrest : k.rest = v ++ q :: b := rest_of_char hk
      exact ⟨v ++ [q], by simpa [Found.append] using hkrest⟩

lemma local_quoted (hp : p ≠ []) : Local (quoted q) before (p ++ q :: b) := by
  cases p with
  | nil => exact absurd rfl hp
  | cons c p =>
    have hsees : (many fun c => !(c == q)).sees q = false := by simp [many, sees]
    refine local_seq (local_char (cons_ne_nil _ _)) fun g hg => ?_
    have hmem : q ∈ g.rest := by
      rw [rest_of_char hg]
      exact mem_append_right p mem_cons_self
    refine local_seq (local_of_not_sees hsees hmem) fun h hh => ?_
    exact local_char (ne_nil_of_mem (mem_rest_of_not_sees hsees hmem hh))

variable (classes : CharClasses)

lemma secretKvRe_eq_nil {c d : Char} (hc : (bareKey classes).starts c = false) (hd : (bareKey classes).starts d = false) :
    ends (secretKvRe classes) before (c :: d :: s) = [] := by
  have hnullable : (bareKey classes).nullable = false := by rfl
  refine ends_seq_eq_nil (ends_seq_eq_nil (ends_group_eq_nil (ends_opt_seq_eq_nil ?_ ?_ ?_)))
  · simp [concat, nullable, hnullable]
  · simp [concat, starts, nullable, hnullable, hc]
  · simp [concat, starts, nullable, hnullable, hd]

lemma secretKvRe_bar_eq_nil {z : List Char} (hgap : gap = [] ∨ gap = ['\\']) (hz : z <:+ '"' :: (gap ++ ['\'']))
    (w : List Char) : ends (secretKvRe classes) before (z ++ [','] ++ w) = [] := by
  have hskip : ∀ c s, (secretKvRe classes).starts c = false → ends (secretKvRe classes) before (c :: s) = [] :=
    fun _ _ hc => ends_eq_nil rfl hc
  rcases hgap with rfl | rfl
  · simp only [nil_append, suffix_cons_iff, suffix_nil] at hz
    rcases hz with rfl | rfl | rfl
    · exact secretKvRe_eq_nil classes rfl rfl
    · exact secretKvRe_eq_nil classes rfl rfl
    · exact hskip _ _ rfl
  · simp only [cons_append, nil_append, suffix_cons_iff, suffix_nil] at hz
    rcases hz with rfl | rfl | rfl | rfl
    · exact secretKvRe_eq_nil classes rfl rfl
    · exact hskip _ _ rfl
    · exact secretKvRe_eq_nil classes rfl rfl
    · exact hskip _ _ rfl

lemma rest_of_secretKvValue {v : List Char} {f : Found}
    (hf : f ∈ ends secretKvValue before (v ++ '\\' :: '"' :: (gap ++ ['\'', ',']))) : f.rest ≠ [] := by
  rcases mem_append.mp hf with hf | hf
  · have hs : v ++ '\\' :: '"' :: (gap ++ ['\'', ',']) = v ++ ['\\'] ++ '"' :: (gap ++ ['\'', ',']) := by simp
    rw [hs] at hf
    obtain ⟨v', hrest⟩ := rest_of_quoted (by simp) hf
    rw [hrest]
    simp
  rcases mem_append.mp hf with hf | hf
  · have hs : v ++ '\\' :: '"' :: (gap ++ ['\'', ',']) = v ++ '\\' :: '"' :: gap ++ '\'' :: [','] := by simp
    rw [hs] at hf
    obtain ⟨v', hrest⟩ := rest_of_quoted (by simp) hf
    rw [hrest]
    simp
  · exact ne_nil_of_mem (mem_rest_of_not_sees (c := ',') rfl (by simp) hf)

lemma local_secretKvValue {v : List Char} : Local secretKvValue before (v ++ '\\' :: '"' :: (gap ++ ['\'', ','])) := by
  refine local_alt ?_ (local_alt ?_ ?_)
  · have hs : v ++ '\\' :: '"' :: (gap ++ ['\'', ',']) = v ++ ['\\'] ++ '"' :: (gap ++ ['\'', ',']) := by simp
    rw [hs]
    exact local_quoted (by simp)
  · have hs : v ++ '\\' :: '"' :: (gap ++ ['\'', ',']) = v ++ '\\' :: '"' :: gap ++ '\'' :: [','] := by simp
    rw [hs]
    exact local_quoted (by simp)
  · exact local_of_not_sees (c := ',') rfl (by simp)

lemma settled_secretKvRe (hgap : gap = [] ∨ gap = ['\\']) (u : List Char) (before : Option Char) (z : List Char)
    (hz : z <:+ u ++ '\\' :: '"' :: (gap ++ ['\''])) : Settled (secretKvRe classes) before (z ++ [',']) := by
  rcases suffix_or_append hz with hz | ⟨z', rfl⟩
  · exact settled_of_eq_nil (secretKvRe_bar_eq_nil classes hgap hz)
  · -- The key ends before the backslash, and the value after it before the comma.
    have hsees : (secretKvKey classes).sees '\\' = false := by rfl
    have htext : z' ++ '\\' :: '"' :: (gap ++ ['\'']) ++ [','] = z' ++ '\\' :: '"' :: (gap ++ ['\'', ',']) := by simp
    have hrest : ∀ g ∈ ends (secretKvKey classes) before (z' ++ '\\' :: '"' :: (gap ++ ['\'', ','])),
        ∃ v, g.rest = v ++ '\\' :: '"' :: (gap ++ ['\'', ',']) := by
      intro g hg
      obtain ⟨v, -, hv⟩ := rest_of_not_takes (not_takes_of_not_sees hsees) hg
      exact ⟨v, hv⟩
    rw [htext]
    refine settled_of_local (local_seq (local_of_not_sees hsees (by simp)) fun g hg => ?_) fun f hf => ?_
    · obtain ⟨v, hv⟩ := hrest g hg
      rw [hv]
      exact local_group local_secretKvValue
    · obtain ⟨g, hg, h, hh, rfl⟩ := exists_of_mem_seq hf
      obtain ⟨v, hv⟩ := hrest g hg
      rw [hv] at hh
      obtain ⟨k, hk, rfl⟩ := mem_map.mp hh
      have hkrest : k.rest ≠ [] := rest_of_secretKvValue hk
      exact hkrest

/-! ### All patterns -/

lemma isDecimal_comma : classes.isDecimal ',' = false := classes.isDecimal_ascii ',' (by decide)

lemma isDecimal_mark : classes.isDecimal '#' = false := classes.isDecimal_ascii '#' (by decide)

lemma not_starts_of_all {r : Regex} {l b : List Char} (hall : (l.all fun c => !r.starts c) = true)
    (hb : ∀ c ∈ b, c ∈ l) : ∀ c ∈ b, r.starts c = false := by
  intro c hc
  simpa using all_eq_true.mp hall c (hb c hc)

lemma ipv4Re_not_sees {c : Char} (hdecimal : classes.isDecimal c = false) (hdot : c ≠ '.') : (ipv4Re classes).sees c = false := by
  simp [ipv4Re, concat, times, repeated, upTo, opt, sees, hdecimal, hdot]

lemma ipv6Re_not_sees {c : Char} (hdecimal : classes.isDecimal c = false) (hhex : isHex c = false) (hcolon : c ≠ ':') :
    (ipv6Re classes).sees c = false := by
  simp [ipv6Re, concat, oneOf, hexGroups, hexGroup, Regex.literal, times, repeated, upTo, opt, sees, CharClasses.isIpv6Char,
    hdecimal, hhex, hcolon]

/-- A space and an escaped quote of each kind: a stretch behind which no pattern goes. -/
def bar (gap : List Char) : List Char := ' ' :: '\\' :: '"' :: (gap ++ ['\'', ','])

lemma mem_bar (hgap : gap = [] ∨ gap = ['\\']) : ∀ c ∈ bar gap ++ ['#', ','], c ∈ [' ', '\\', '"', '\'', ',', '#'] := by
  rcases hgap with rfl | rfl
  · simp [bar]
  · simp [bar]

section
variable {r : Regex} {t : List Char} (repl : Match → List Char)

lemma Apart.sub_pemKeyRe (hgap : gap = [] ∨ gap = ['\\']) (h : Apart (',' :: pemClose ++ ',' :: bar gap) s t) :
    Apart (',' :: bar gap) (pemKeyRe.sub repl s) (pemKeyRe.sub repl t) := by
  refine h.sub repl settled_pemKeyRe ?_
  exact not_starts_of_all (by rfl) (mem_bar hgap)

lemma Apart.sub_token (hgap : gap = [] ∨ gap = ['\\']) (h : Apart (',' :: bar gap) s t) (hsees : r.sees ',' = false)
    (hall : ([' ', '\\', '"', '\'', ',', '#'].all fun c => !r.starts c) = true) :
    Apart (',' :: bar gap) (r.sub repl s) (r.sub repl t) := by
  refine h.sub_of_not_sees (a := []) repl hsees ?_
  exact not_starts_of_all hall (mem_bar hgap)

lemma Apart.sub_urlSecretRe (hgap : gap = [] ∨ gap = ['\\']) (h : Apart (',' :: bar gap) s t) :
    Apart (bar gap) (urlSecretRe.sub repl s) (urlSecretRe.sub repl t) := by
  refine h.sub_of_not_sees (a := [',']) repl (by rfl) ?_
  exact not_starts_of_all (by rfl) fun c hc => mem_bar hgap c (mem_cons_of_mem _ hc)

lemma Apart.sub_secretKvRe (hgap : gap = [] ∨ gap = ['\\']) (h : Apart (bar gap) s t) :
    Apart [','] ((secretKvRe classes).sub repl s) ((secretKvRe classes).sub repl t) := by
  have hbar : bar gap = ' ' :: '\\' :: '"' :: (gap ++ ['\'']) ++ ',' :: [] := by simp [bar]
  rw [hbar] at h
  refine h.sub repl (fun u before z hz => ?_) ?_
  · exact settled_secretKvRe classes hgap (u ++ [' ']) before z (by simpa using hz)
  · exact not_starts_of_all (l := ['#', ',']) (by rfl) fun _ hc => hc

lemma Apart.sub_of_not_sees_mark (h : Apart [','] s t) (hcomma : r.sees ',' = false) (hmark : r.sees '#' = false) :
    Apart [','] (r.sub repl s) (r.sub repl t) := by
  refine h.sub_of_not_sees (a := []) repl hcomma fun d hd => ?_
  rcases mem_pair.mp hd with rfl | rfl
  · exact not_starts_of_not_sees hmark
  · exact not_starts_of_not_sees hcomma

end

lemma apart_redacted {t : List Char} (hgap : gap = [] ∨ gap = ['\\']) (h : Apart (',' :: pemClose ++ ',' :: bar gap) s t) :
    Apart [','] (redacted classes s).1 (redacted classes t).1 := by
  simp only [redacted, applyPattern_fst, applySecretKv_fst]
  have hpem := h.sub_pemKeyRe (fun _ => redactedToken) hgap
  have hbearer := hpem.sub_token (r := bearerRe classes) (fun _ => redactedToken) hgap (by rfl) (by rfl)
  have hbasic := hbearer.sub_token (r := basicRe classes) (fun _ => redactedToken) hgap (by rfl) (by rfl)
  have hurl := hbasic.sub_urlSecretRe urlSecretRepl hgap
  have hkv := hurl.sub_secretKvRe classes secretKvRepl hgap
  have hemail := hkv.sub_of_not_sees_mark (r := emailRe classes) (fun _ => redactedEmail) (by rfl) (by rfl)
  have hipv4 := hemail.sub_of_not_sees_mark (r := ipv4Re classes) (fun _ => redactedIp)
    (ipv4Re_not_sees classes (isDecimal_comma classes) (by decide))
    (ipv4Re_not_sees classes (isDecimal_mark classes) (by decide))
  exact hipv4.sub_of_not_sees_mark (r := ipv6Re classes) (fun _ => redactedIp)
    (ipv6Re_not_sees classes (isDecimal_comma classes) (by rfl) (by decide))
    (ipv6Re_not_sees classes (isDecimal_mark classes) (by rfl) (by decide))

end

/-! ### Messages around secrets -/

inductive Quoting
  | bare
  | double
  | single

def Quoting.mark : Quoting → List Char
  | bare => []
  | double => ['"']
  | single => ['\'']

/-- Only behind a backslash, which takes the next character with it, is there a quote. -/
def escapes (quote : Char) : List Char → Bool
  | [] => true
  | '\\' :: v =>
    match v with
    | [] => false
    | _ :: v => escapes quote v
  | c :: v => c != quote && escapes quote v

def Quoting.allows : Quoting → List Char → Bool
  | bare, _ => true
  | double, v => escapes '"' v
  | single, v => escapes '\'' v

/-- A listed key in any letter case and what stands before its value, as the pattern accepts it. -/
structure SecretKey where
  quoteBefore : List Char
  key : List Char
  quoteAfter : List Char
  spaceBefore : List Char
  sign : List Char
  spaceAfter : List Char
  quoteBefore_accepted : (opt (char isQuote)).matchesAll quoteBefore = true
  key_listed : secretKey.matchesAll (key.map Char.toLower) = true
  quoteAfter_accepted : (opt (char isQuote)).matchesAll quoteAfter = true
  spaceBefore_accepted : (many isWhitespace).matchesAll spaceBefore = true
  sign_accepted : separator.matchesAll sign = true
  spaceAfter_accepted : (many isWhitespace).matchesAll spaceAfter = true

def SecretKey.text (k : SecretKey) : List Char :=
  k.quoteBefore ++ k.key ++ k.quoteAfter ++ k.spaceBefore ++ k.sign ++ k.spaceAfter

/-- The kinds of secrets, each with what the message says around its value. -/
inductive Secret
  | keyValue (key : SecretKey) (quoting : Quoting)
  | bearer (space : List Char) (hspace : (many1 isWhitespace).matchesAll space = true)
  | basic (space : List Char) (hspace : (many1 isWhitespace).matchesAll space = true)
  | urlParameter (mark : Char) (key : List Char) (hmark : mark = '?' ∨ mark = '&')
      (hkey : urlSecretKey.matchesAll (key.map Char.toLower) = true)
  | privateKey (label label' : List Char) (hlabel : pemLabel.matchesAll label = true)
      (hlabel' : pemLabel.matchesAll label' = true)

namespace Secret

def quoting : Secret → Quoting
  | keyValue _ quoting => quoting
  | _ => .bare

def opening : Secret → List Char
  | keyValue key quoting => key.text ++ quoting.mark
  | bearer space _ => "Bearer".toList ++ space
  | basic space _ => "Basic".toList ++ space
  | urlParameter mark key _ _ => mark :: key ++ ['=']
  | privateKey label _ _ _ => "-----BEGIN ".toList ++ label ++ "PRIVATE KEY-----".toList

def closing : Secret → List Char
  | privateKey _ label' _ _ => "-----END ".toList ++ label' ++ "PRIVATE KEY-----".toList
  | secret => secret.quoting.mark

end Secret

/-- A message without the value of one of its secrets. -/
structure Context where
  before : List Char
  secret : Secret
  after : List Char

namespace Context

def message (context : Context) (value : List Char) : List Char :=
  context.before ++ context.secret.opening ++ value ++ context.secret.closing ++ context.after

/-- Whatever the value is, the result is the same. -/
def Hides (classes : CharClasses) (maxLength : ℕ) (context : Context) : Prop :=
  ∀ v w, context.secret.quoting.allows v = true → context.secret.quoting.allows w = true →
    redactMessage classes (context.message v) maxLength = redactMessage classes (context.message w) maxLength

end Context

/-- What an escaped quote of the other kind needs in front of it. -/
def Quoting.gap : Quoting → List Char
  | single => ['\\']
  | _ => []

/-- A value that no pattern goes beyond, with a mark behind it. -/
def surviving (quoting : Quoting) (mark : List Char) : List Char :=
  ',' :: pemClose ++ ',' :: bar quoting.gap ++ (mark ++ [','])

lemma allows_surviving (quoting : Quoting) {mark : List Char} (hmark : mark = ['#'] ∨ mark = ['#', '#']) :
    quoting.allows (surviving quoting mark) = true := by
  rcases hmark with rfl | rfl
  · cases quoting <;> rfl
  · cases quoting <;> rfl

lemma length_of_apart {b s t : List Char} (h : Apart b s t) : t.length = s.length + 1 := by
  obtain ⟨u, x, rfl, rfl⟩ := h
  simp only [length_append, length_cons]
  omega

lemma length_eq_of_truncate_eq {s t : List Char} {summary summary' : Summary} {maxLength : ℕ}
    (h : truncate s summary maxLength = truncate t summary' maxLength) : s.length = t.length := by
  simp only [truncate] at h
  split_ifs at h with hs ht ht
  · exact congrArg TruncationInfo.originalLength (Option.some.inj (congrArg truncation h))
  · cases congrArg truncated h
  · cases congrArg truncated h
  · exact congrArg length (congrArg messageRedacted h)

/-- The line `{"password": "…"}` without the value. -/
def passwordField : Context where
  before := ['{']
  secret := .keyValue ⟨['"'], "password".toList, ['"'], [], [':'], [' '], rfl, by decide, rfl, rfl, rfl, rfl⟩ .double
  after := ['}']

/-- The text `PASSWORD=…`. -/
def passwordText : Context where
  before := []
  secret := .keyValue ⟨[], "PASSWORD".toList, [], [], ['='], [], rfl, by decide, rfl, rfl, rfl, rfl⟩ .bare
  after := []

end IncidentLens.Logs
