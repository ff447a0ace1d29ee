import IncidentLens.Data.Dict
import IncidentLens.Data.Regex
import Mathlib

/-!
# Redaction of log messages

A message goes through eight patterns, one after the other, and what each finds is replaced by a
fixed text; then it is cut to its greatest length. A text is the list of its characters.
-/
namespace IncidentLens.Logs
open Data Data.Regex

/-- The letters and digits of `\b` and `\d`, which outside of ASCII are those of Unicode. -/
structure CharClasses where
  isAlnum : Char → Bool
  isDecimal : Char → Bool
  isAlnum_ascii : ∀ c : Char, c.toNat < 128 → isAlnum c = c.isAlphanum
  isDecimal_ascii : ∀ c : Char, c.toNat < 128 → isDecimal c = c.isDigit

def CharClasses.ascii : CharClasses where
  isAlnum := Char.isAlphanum
  isDecimal := Char.isDigit
  isAlnum_ascii _ _ := rfl
  isDecimal_ascii _ _ := rfl

/-- `\s`. -/
def isWhitespace (c : Char) : Bool :=
  let n := c.toNat
  (9 ≤ n && n ≤ 13) || (28 ≤ n && n ≤ 32) || n == 0x85 || n == 0xA0 || n == 0x1680 || (0x2000 ≤ n && n ≤ 0x200A) ||
    n == 0x2028 || n == 0x2029 || n == 0x202F || n == 0x205F || n == 0x3000

/-- `[-_]`. -/
def isDash (c : Char) : Bool := c == '-' || c == '_'

def isQuote (c : Char) : Bool := c == '"' || c == '\''

/-- `[0-9a-fA-F]`. -/
def isHex (c : Char) : Bool := c.isDigit || ('a' ≤ c && c ≤ 'f') || ('A' ≤ c && c ≤ 'F')

def maxMessageLength : ℕ := 16 * 1024

def redactedToken : List Char := "[REDACTED_TOKEN]".toList
def redactedPassword : List Char := "[REDACTED_PASSWORD]".toList
def redactedEmail : List Char := "[REDACTED_EMAIL]".toList
def redactedIp : List Char := "[REDACTED_IP]".toList
def redactedUrlSecret : List Char := "[REDACTED_URL_SECRET]".toList

def passwordKeys : List (List Char) := ["password", "passwd", "pwd", "secret"].map String.toList

/-! ### The patterns -/

/-- `[A-Z0-9 ]*`, the kind of a private key. -/
def pemLabel : Regex := many fun c => c.isUpper || c.isDigit || c == ' '

def pemBegin : Regex := concat [literal "-----BEGIN ", pemLabel, literal "PRIVATE KEY-----"]

def pemEnd : Regex := concat [literal "-----END ", pemLabel, literal "PRIVATE KEY-----"]

def pemKeyRe : Regex := seq pemBegin (seq (star false (char fun _ => true)) pemEnd)

section
variable (classes : CharClasses)

def CharClasses.isWord (c : Char) : Bool := classes.isAlnum c || c == '_'

/-- `\bBearer\s+[A-Za-z0-9._~+/=-]+`. -/
def bearerRe : Regex :=
  concat [boundary classes.isWord, literal "Bearer", many1 isWhitespace,
    many1 fun c => c.isAlphanum || "._~+/=-".toList.contains c]

/-- `\bBasic\s+[A-Za-z0-9+/=]+`. -/
def basicRe : Regex :=
  concat [boundary classes.isWord, literal "Basic", many1 isWhitespace,
    many1 fun c => c.isAlphanum || "+/=".toList.contains c]

/-- The names of parameters that hold secrets. -/
def urlSecretKey : Regex :=
  oneOf [literal "secret", literal "token", literal "password", literal "passwd", literal "pwd",
    concat [literal "api", opt (char isDash), literal "key"], literal "apikey",
    concat [literal "access", opt (char isDash), literal "key"], literal "auth", literal "signature", literal "sig",
    concat [literal "private", opt (char isDash), literal "key"],
    concat [literal "client", opt (char isDash), literal "secret"]]

/-- `[?&](?P<key>…)=[^&\s]*`. -/
def urlSecretRe : Regex :=
  concat [char fun c => c == '?' || c == '&', group "key" urlSecretKey, char fun c => c == '=',
    many fun c => !(c == '&' || isWhitespace c)]

/-- The listed keys, as the pattern spells them. -/
def secretKey : Regex :=
  oneOf [concat [literal "client", opt (char isDash), literal "secret"],
    concat [literal "access", opt (char isDash), oneOf [literal "token", literal "key"]],
    concat [literal "api", opt (char isDash), literal "key"], literal "apikey",
    concat [literal "auth", opt (char isDash), literal "token"],
    concat [literal "secret", opt (char isDash), literal "key"],
    concat [literal "private", opt (char isDash), literal "key"],
    literal "token", literal "password", literal "passwd", literal "pwd", literal "secret"]

def bareKey : Regex := concat [boundary classes.isWord, secretKey, boundary classes.isWord]

def separator : Regex := char fun c => c == '=' || c == ':'

/-- The key, with a quote on each side if there is one, and the separator. -/
def secretKvKey : Regex :=
  concat [group "key" (concat [opt (char isQuote), group "bare" (bareKey classes), opt (char isQuote)]),
    many isWhitespace, separator, many isWhitespace]

/-- `"[^"]*"`, or the same with single quotes. -/
def quoted (quote : Char) : Regex :=
  concat [char fun c => c == quote, many fun c => !(c == quote), char fun c => c == quote]

/-- `(?!\[REDACTED_)[^\s,]+`. -/
def unquoted : Regex := seq (notAhead (literal "[REDACTED_")) (many1 fun c => !(isWhitespace c || c == ','))

def secretKvValue : Regex := oneOf [quoted '"', quoted '\'', unquoted]

def secretKvRe : Regex := seq (secretKvKey classes) (group "value" secretKvValue)

/-- `\b[A-Za-z0-9._%+-]+@[A-Za-z0-9.-]+\.[A-Za-z]{2,}\b`. -/
def emailRe : Regex :=
  concat [boundary classes.isWord, many1 fun c => c.isAlphanum || "._%+-".toList.contains c, char fun c => c == '@',
    many1 fun c => c.isAlphanum || ".-".toList.contains c, char fun c => c == '.',
    times (char Char.isAlpha) 2, many Char.isAlpha, boundary classes.isWord]

/-- `\b(?:\d{1,3}\.){3}\d{1,3}\b`. -/
def ipv4Re : Regex :=
  concat [boundary classes.isWord,
    times (seq (repeated (char classes.isDecimal) 1 3) (char fun c => c == '.')) 3,
    repeated (char classes.isDecimal) 1 3, boundary classes.isWord]

/-- `[0-9a-fA-F]{1,4}`. -/
def hexGroup : Regex := repeated (char isHex) 1 4

/-- `(?:[0-9a-fA-F]{1,4}:)`, from `m` to `n` times. -/
def hexGroups (m n : ℕ) : Regex := repeated (seq hexGroup (char fun c => c == ':')) m n

/-- `[\dA-Fa-f:]`. -/
def CharClasses.isIpv6Char (c : Char) : Bool := classes.isDecimal c || isHex c || c == ':'

def ipv6Re : Regex :=
  concat [notBehind classes.isIpv6Char,
    oneOf [concat [hexGroups 7 7, hexGroup],
      concat [opt (concat [hexGroups 0 6, hexGroup]), literal "::", opt (concat [hexGroups 0 5, hexGroup])]],
    notAhead (char classes.isIpv6Char)]

/-! ### Replacing -/

/-- How many values of each class were replaced. -/
abbrev Summary := Dict String ℕ

def Summary.count (summary : Summary) (key : String) (n : ℕ) : Summary := summary.set key ((summary.get? key).getD 0 + n)

/-- `_apply`: a text and the counts until then. -/
def applyPattern (pattern : Regex) (repl : Match → List Char) (key : String) (state : List Char × Summary) :
    List Char × Summary :=
  let count := (pattern.found state.1).length
  (pattern.sub repl state.1, if count = 0 then state.2 else state.2.count key count)

@[simp] lemma applyPattern_fst (pattern : Regex) (repl : Match → List Char) (key : String) (state : List Char × Summary) :
    (applyPattern pattern repl key state).1 = pattern.sub repl state.1 := rfl

/-- The text of a match up to its first `=`. -/
def urlSecretRepl (m : Match) : List Char := m.text.take (m.text.idxOf '=' + 1) ++ redactedUrlSecret

def bareOf (m : Match) : List Char := (m.group? "bare").getD []

local instance lawfulBEq_chars : LawfulBEq (List Char) := inferInstance

/-- The class under which a key and its value are counted. -/
def secretKvClass (m : Match) : String := if (bareOf m).map Char.toLower ∈ passwordKeys then "password" else "token"

def secretKvRepl (m : Match) : List Char :=
  bareOf m ++ '=' :: if (bareOf m).map Char.toLower ∈ passwordKeys then redactedPassword else redactedToken

/-- Keys with values are counted one by one, each under its class. -/
def applySecretKv (state : List Char × Summary) : List Char × Summary :=
  ((secretKvRe classes).sub secretKvRepl state.1,
    ((secretKvRe classes).found state.1).foldl (fun summary m => summary.count (secretKvClass m) 1) state.2)

@[simp] lemma applySecretKv_fst (state : List Char × Summary) :
    (applySecretKv classes state).1 = (secretKvRe classes).sub secretKvRepl state.1 := rfl

/-- The message after the eight patterns. -/
def redacted (message : List Char) : List Char × Summary :=
  let state := applyPattern pemKeyRe (fun _ => redactedToken) "token" (message, [])
  let state := applyPattern (bearerRe classes) (fun _ => redactedToken) "token" state
  let state := applyPattern (basicRe classes) (fun _ => redactedToken) "token" state
  let state := applyPattern urlSecretRe urlSecretRepl "url_secret" state
  let state := applySecretKv classes state
  let state := applyPattern (emailRe classes) (fun _ => redactedEmail) "email" state
  let state := applyPattern (ipv4Re classes) (fun _ => redactedIp) "ip" state
  applyPattern (ipv6Re classes) (fun _ => redactedIp) "ip" state

structure TruncationInfo where
  originalLength : ℕ
  keptLength : ℕ
  truncated : Bool
  deriving DecidableEq

structure RedactionResult where
  messageRedacted : List Char
  summary : Summary
  truncated : Bool
  truncation : Option TruncationInfo
  deriving DecidableEq

def truncate (text : List Char) (summary : Summary) (maxLength : ℕ) : RedactionResult :=
  if maxLength < text.length then
    let kept := text.take maxLength
    ⟨kept, summary.set "truncated" 1, true, some ⟨text.length, kept.length, true⟩⟩
  else
    ⟨text, summary, false, none⟩

def redactMessage (message : List Char) (maxLength : ℕ) : RedactionResult :=
  truncate (redacted classes message).1 (redacted classes message).2 maxLength

variable {maxLength : ℕ}

lemma truncate_of_fits {text : List Char} {summary : Summary} (h : text.length ≤ maxLength) :
    (truncate text summary maxLength).messageRedacted = text := by
  rw [truncate, if_neg (Nat.not_lt.mpr h)]

lemma redactedUrlSecret_ne_nil : redactedUrlSecret ≠ [] := by decide +kernel

lemma redacted_eq_nil_iff {message : List Char} : (redacted classes message).1 = [] ↔ message = [] := by
  have htoken : ∀ _ : Match, redactedToken ≠ [] := fun _ => by decide +kernel
  have hurl : ∀ m, urlSecretRepl m ≠ [] := fun m => List.append_ne_nil_of_right_ne_nil _ redactedUrlSecret_ne_nil
  have hkv : ∀ m, secretKvRepl m ≠ [] := fun m => List.append_ne_nil_of_right_ne_nil _ (List.cons_ne_nil _ _)
  have hemail : ∀ _ : Match, redactedEmail ≠ [] := fun _ => by decide +kernel
  have hip : ∀ _ : Match, redactedIp ≠ [] := fun _ => by decide +kernel
  simp only [redacted, applyPattern_fst, applySecretKv_fst]
  exact (sub_eq_nil_iff hip).trans <| (sub_eq_nil_iff hip).trans <| (sub_eq_nil_iff hemail).trans <|
    (sub_eq_nil_iff hkv).trans <| (sub_eq_nil_iff hurl).trans <| (sub_eq_nil_iff htoken).trans <|
    (sub_eq_nil_iff htoken).trans (sub_eq_nil_iff htoken)

lemma truncate_eq_nil_iff {text : List Char} {summary : Summary} (h : 0 < maxLength) :
    (truncate text summary maxLength).messageRedacted = [] ↔ text = [] := by
  rw [truncate]
  split_ifs
  · exact List.take_eq_nil_iff.trans (or_iff_right h.ne')
  · rfl

lemma length_truncate_le (text : List Char) (summary : Summary) (maxLength : ℕ) :
    (truncate text summary maxLength).messageRedacted.length ≤ maxLength := by
  rw [truncate]
  split_ifs with hlong
  · exact List.length_take_le _ _
  · exact Nat.not_lt.mp hlong

lemma messageRedacted_eq_nil_iff {message : List Char} (h : 0 < maxLength) :
    (redactMessage classes message maxLength).messageRedacted = [] ↔ message = [] :=
  (truncate_eq_nil_iff h).trans (redacted_eq_nil_iff classes)

lemma length_messageRedacted_le (message : List Char) (maxLength : ℕ) :
    (redactMessage classes message maxLength).messageRedacted.length ≤ maxLength :=
  length_truncate_le _ _ _

lemma emailRe_eq_nil {before : Option Char} {s : List Char} (h : '@' ∉ s) : ends (emailRe classes) before s = [] := by
  have hat : ∀ c ∈ s, (c == '@') = false := by
    intro c hc
    rw [beq_eq_false_iff_ne]
    rintro rfl
    exact h hc
  refine ends_seq_eq_nil_of_part fun _ v hv => ends_seq_eq_nil_of_part fun _ w hw => ends_seq_eq_nil ?_
  exact ends_char_eq_nil fun c hc => hat c ((hw.trans hv).subset hc)

end
end IncidentLens.Logs
