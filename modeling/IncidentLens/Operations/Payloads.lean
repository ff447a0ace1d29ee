import IncidentLens.Changes.Types
import IncidentLens.Data.JsonText
import IncidentLens.Logs.Redaction

/-!
# Payloads of operations

A payload is parsed, the strings of its tree are redacted and it is written again. Under a secret key a string is
replaced as a whole, but the key is forgotten in an object below it.
-/
namespace IncidentLens.Operations.Payloads
open Data Logs Json CharClasses

def maxPayloadValueLength : ℕ := 16 * 1024

def passwordFieldKeys : List String := ["password", "passwd", "pwd", "secret"]

def secretFieldKeys : List String :=
  ["password", "passwd", "pwd", "secret", "token", "api_key", "apikey", "api-key", "access_key", "access-token",
    "auth_token", "authorization", "bearer", "client_secret", "secret_key", "private_key", "signature", "credential",
    "credentials"]

/-- `key.lower() in keys`. -/
def isKeyOf (keys : List String) (key : String) : Bool := keys.any fun listed => listed.toList = Changes.lower key

def placeholder (key : String) : String :=
  if isKeyOf passwordFieldKeys key then "[REDACTED_PASSWORD]" else "[REDACTED_TOKEN]"

def isSecret (keyHint : Option String) : Bool := keyHint.any (isKeyOf secretFieldKeys)

section
variable (classes : CharClasses) (numbers : Json.Numbers)

def redactString (keyHint : Option String) (value : String) : String :=
  if isSecret keyHint then placeholder (keyHint.getD "")
  else String.ofList (redactMessage classes value.toList maxPayloadValueLength).messageRedacted

mutual

/-- `_redact_json_value` -/
def redactJsonValue (keyHint : Option String) : Json → Json
  | .object members => .object (redactMembers members)
  | .array items => .array (redactItems keyHint items)
  | .string value => .string (redactString classes keyHint value)
  | .null => .null
  | .bool b => .bool b
  | .number literal => .number literal

def redactItems (keyHint : Option String) : List Json → List Json
  | [] => []
  | item :: items => redactJsonValue keyHint item :: redactItems keyHint items

def redactMembers : List (String × Json) → List (String × Json)
  | [] => []
  | (key, item) :: members => (key, redactJsonValue (some key) item) :: redactMembers members

end

inductive Exc
  | operationPayloadInvalid (message : String)
  deriving DecidableEq

/-- `_redact_json_payload` -/
def redactJsonPayload (payload : String) : Except Exc String :=
  match loads numbers payload.toList with
  | none => .error (.operationPayloadInvalid "request payload must be valid JSON")
  | some value => .ok (String.ofList (write (redactJsonValue classes none value)))

end

/-! ### Strings below secret keys -/

mutual

/-- The value with an empty string for each string below a secret key; with `below`, for every string. -/
def blank (below : Bool) : Json → Json
  | .object members => .object (blankMembers below members)
  | .array items => .array (blankItems below items)
  | .string value => .string (if below then "" else value)
  | .null => .null
  | .bool b => .bool b
  | .number literal => .number literal

def blankItems (below : Bool) : List Json → List Json
  | [] => []
  | item :: items => blank below item :: blankItems below items

def blankMembers (below : Bool) : List (String × Json) → List (String × Json)
  | [] => []
  | (key, item) :: members => (key, blank (below || isSecret (some key)) item) :: blankMembers below members

end

mutual

/-- Every string below a secret key is a placeholder. -/
def Replaced (below : Bool) : Json → Prop
  | .object members => ReplacedMembers below members
  | .array items => ReplacedItems below items
  | .string value => below = true → value = "[REDACTED_PASSWORD]" ∨ value = "[REDACTED_TOKEN]"
  | .null | .bool _ | .number _ => True

def ReplacedItems (below : Bool) : List Json → Prop
  | [] => True
  | item :: items => Replaced below item ∧ ReplacedItems below items

def ReplacedMembers (below : Bool) : List (String × Json) → Prop
  | [] => True
  | (key, item) :: members => Replaced (below || isSecret (some key)) item ∧ ReplacedMembers below members

end

mutual

/-- The key that is nearest to a string below a secret key is a secret key itself. -/
def Guarded (below near : Bool) : Json → Prop
  | .object members => GuardedMembers below members
  | .array items => GuardedItems below near items
  | .string _ => below = true → near = true
  | .null | .bool _ | .number _ => True

def GuardedItems (below near : Bool) : List Json → Prop
  | [] => True
  | item :: items => Guarded below near item ∧ GuardedItems below near items

def GuardedMembers (below : Bool) : List (String × Json) → Prop
  | [] => True
  | (key, item) :: members =>
    Guarded (below || isSecret (some key)) (isSecret (some key)) item ∧ GuardedMembers below members

end

/-- The shape is kept, the stored text is read as the redacted value, no string below a secret key is left, and
payloads that differ in such strings only are stored as the same text. -/
structure Redacts (classes : CharClasses) (numbers : Json.Numbers) (payload : String) (value : Json) : Prop where
  shape : blank true (redactJsonValue classes none value) = blank true value
  parses : ∃ text, redactJsonPayload classes numbers payload = .ok text ∧
    loads numbers text.toList = some (redactJsonValue classes none value)
  replaced : Replaced false (redactJsonValue classes none value)
  alike : ∀ other value', loads numbers other.toList = some value' → blank false value' = blank false value →
    redactJsonPayload classes numbers other = redactJsonPayload classes numbers payload

section
variable {classes : CharClasses} {numbers : Json.Numbers}

/-! ### Shape and validity -/

mutual

lemma blank_redactJsonValue : ∀ (v : Json) (keyHint : Option String),
    blank true (redactJsonValue classes keyHint v) = blank true v
  | .object members, _ => congrArg object (blankMembers_redactMembers members)
  | .array items, keyHint => congrArg array (blankItems_redactItems items keyHint)
  | .string _, _ | .null, _ | .bool _, _ | .number _, _ => rfl

lemma blankItems_redactItems : ∀ (items : List Json) (keyHint : Option String),
    blankItems true (redactItems classes keyHint items) = blankItems true items
  | [], _ => rfl
  | item :: items, keyHint => by
    rw [redactItems, blankItems, blankItems, blank_redactJsonValue item, blankItems_redactItems items]

lemma blankMembers_redactMembers : ∀ members : List (String × Json),
    blankMembers true (redactMembers classes members) = blankMembers true members
  | [] => rfl
  | (key, item) :: members => by
    rw [redactMembers, blankMembers, blankMembers, Bool.true_or, blank_redactJsonValue item, blankMembers_redactMembers members]

end

lemma keys_redactMembers (members : List (String × Json)) :
    (redactMembers classes members).map Prod.fst = members.map Prod.fst := by
  induction members with
  | nil => rfl
  | cons member members ih => rw [redactMembers, List.map_cons, List.map_cons, ih]

mutual

lemma valid_redactJsonValue : ∀ (v : Json) (keyHint : Option String), Json.Valid numbers v →
    Json.Valid numbers (redactJsonValue classes keyHint v)
  | .object members, _, h => ⟨by rw [keys_redactMembers]; exact h.1, valid_redactMembers members h.2⟩
  | .array items, keyHint, h => valid_redactItems items keyHint h
  | .number _, _, h => h
  | .string _, _, _ | .null, _, _ | .bool _, _, _ => trivial

lemma valid_redactItems : ∀ (items : List Json) (keyHint : Option String), Json.ValidItems numbers items →
    Json.ValidItems numbers (redactItems classes keyHint items)
  | [], _, _ => trivial
  | item :: items, keyHint, h => ⟨valid_redactJsonValue item keyHint h.1, valid_redactItems items keyHint h.2⟩

lemma valid_redactMembers : ∀ members : List (String × Json), Json.ValidMembers numbers members →
    Json.ValidMembers numbers (redactMembers classes members)
  | [], _ => trivial
  | (key, item) :: members, h => ⟨valid_redactJsonValue item (some key) h.1, valid_redactMembers members h.2⟩

end

/-! ### Values whose secret strings are guarded -/

lemma redactString_of_secret {keyHint : Option String} (h : isSecret keyHint = true) (value : String) :
    redactString classes keyHint value = placeholder (keyHint.getD "") := if_pos h

lemma placeholder_cases (key : String) : placeholder key = "[REDACTED_PASSWORD]" ∨ placeholder key = "[REDACTED_TOKEN]" := by
  unfold placeholder
  split_ifs
  · exact .inl rfl
  · exact .inr rfl

mutual

lemma replaced_redactJsonValue : ∀ (v : Json) (below : Bool) (keyHint : Option String),
    Guarded below (isSecret keyHint) v → Replaced below (redactJsonValue classes keyHint v)
  | .object members, below, _, h => replaced_redactMembers members below h
  | .array items, below, keyHint, h => replaced_redactItems items below keyHint h
  | .string value, below, keyHint, h => by
    intro hbelow
    rw [redactString_of_secret (h hbelow)]
    exact placeholder_cases _
  | .null, _, _, _ | .bool _, _, _, _ | .number _, _, _, _ => trivial

lemma replaced_redactItems : ∀ (items : List Json) (below : Bool) (keyHint : Option String),
    GuardedItems below (isSecret keyHint) items → ReplacedItems below (redactItems classes keyHint items)
  | [], _, _, _ => trivial
  | item :: items, below, keyHint, h =>
    ⟨replaced_redactJsonValue item below keyHint h.1, replaced_redactItems items below keyHint h.2⟩

lemma replaced_redactMembers : ∀ (members : List (String × Json)) (below : Bool),
    GuardedMembers below members → ReplacedMembers below (redactMembers classes members)
  | [], _, _ => trivial
  | (key, item) :: members, below, h =>
    ⟨replaced_redactJsonValue item _ (some key) h.1, replaced_redactMembers members below h.2⟩

end

mutual

lemma redactJsonValue_congr : ∀ (v v' : Json) (below : Bool) (keyHint : Option String),
    Guarded below (isSecret keyHint) v → blank below v' = blank below v →
      redactJsonValue classes keyHint v' = redactJsonValue classes keyHint v
  | .object members, .object members', below, _, h, heq =>
    congrArg object (redactMembers_congr members members' below h (object.inj heq))
  | .array items, .array items', below, keyHint, h, heq =>
    congrArg array (redactItems_congr items items' below keyHint h (array.inj heq))
  | .string value, .string value', below, keyHint, h, heq => by
    cases below with
    | true => rw [redactJsonValue, redactJsonValue, redactString_of_secret (h rfl), redactString_of_secret (h rfl)]
    | false => rw [show value' = value from string.inj heq]
  | .null, .null, _, _, _, _ => rfl
  | .bool _, .bool _, _, _, _, heq => by rw [bool.inj heq]
  | .number _, .number _, _, _, _, heq => by rw [number.inj heq]

lemma redactItems_congr : ∀ (items items' : List Json) (below : Bool) (keyHint : Option String),
    GuardedItems below (isSecret keyHint) items → blankItems below items' = blankItems below items →
      redactItems classes keyHint items' = redactItems classes keyHint items
  | [], [], _, _, _, _ => rfl
  | item :: items, item' :: items', below, keyHint, h, heq => by
    obtain ⟨hitem, hitems⟩ := List.cons.inj heq
    rw [redactItems, redactItems, redactJsonValue_congr item item' below keyHint h.1 hitem,
      redactItems_congr items items' below keyHint h.2 hitems]

lemma redactMembers_congr : ∀ (members members' : List (String × Json)) (below : Bool),
    GuardedMembers below members → blankMembers below members' = blankMembers below members →
      redactMembers classes members' = redactMembers classes members
  | [], [], _, _, _ => rfl
  | (key, item) :: members, (key', item') :: members', below, h, heq => by
    obtain ⟨hmember, hmembers⟩ := List.cons.inj heq
    obtain ⟨rfl, hitem⟩ := Prod.mk.inj hmember
    rw [redactMembers, redactMembers, redactJsonValue_congr item item' _ (some key') h.1 hitem,
      redactMembers_congr members members' below h.2 hmembers]

end

/-! ### Strings that are not guarded -/

mutual

/-- The value with `text` for each string below a secret key whose nearest key is not secret. -/
def fill (text : String) (below near : Bool) : Json → Json
  | .object members => .object (fillMembers text below members)
  | .array items => .array (fillItems text below near items)
  | .string value => .string (if below && !near then text else value)
  | .null => .null
  | .bool b => .bool b
  | .number literal => .number literal

def fillItems (text : String) (below near : Bool) : List Json → List Json
  | [] => []
  | item :: items => fill text below near item :: fillItems text below near items

def fillMembers (text : String) (below : Bool) : List (String × Json) → List (String × Json)
  | [] => []
  | (key, item) :: members =>
    (key, fill text (below || isSecret (some key)) (isSecret (some key)) item) :: fillMembers text below members

end

section
variable (text : String)

mutual

lemma blank_fill : ∀ (v : Json) (below near : Bool), blank below (fill text below near v) = blank below v
  | .object members, below, _ => congrArg object (blankMembers_fillMembers members below)
  | .array items, below, near => congrArg array (blankItems_fillItems items below near)
  | .string _, true, _ => rfl
  | .string _, false, _ => rfl
  | .null, _, _ | .bool _, _, _ | .number _, _, _ => rfl

lemma blankItems_fillItems : ∀ (items : List Json) (below near : Bool),
    blankItems below (fillItems text below near items) = blankItems below items
  | [], _, _ => rfl
  | item :: items, below, near => by
    rw [fillItems, blankItems, blankItems, blank_fill item, blankItems_fillItems items]

lemma blankMembers_fillMembers : ∀ (members : List (String × Json)) (below : Bool),
    blankMembers below (fillMembers text below members) = blankMembers below members
  | [], _ => rfl
  | (key, item) :: members, below => by
    rw [fillMembers, blankMembers, blankMembers, blank_fill item, blankMembers_fillMembers members]

end

lemma keys_fillMembers (below : Bool) (members : List (String × Json)) :
    (fillMembers text below members).map Prod.fst = members.map Prod.fst := by
  induction members with
  | nil => rfl
  | cons member members ih => rw [fillMembers, List.map_cons, List.map_cons, ih]

mutual

lemma valid_fill : ∀ (v : Json) (below near : Bool), Json.Valid numbers v → Json.Valid numbers (fill text below near v)
  | .object members, below, _, h => ⟨by rw [keys_fillMembers]; exact h.1, valid_fillMembers members below h.2⟩
  | .array items, below, near, h => valid_fillItems items below near h
  | .number _, _, _, h => h
  | .string _, _, _, _ | .null, _, _, _ | .bool _, _, _, _ => trivial

lemma valid_fillItems : ∀ (items : List Json) (below near : Bool), Json.ValidItems numbers items →
    Json.ValidItems numbers (fillItems text below near items)
  | [], _, _, _ => trivial
  | item :: items, below, near, h => ⟨valid_fill item below near h.1, valid_fillItems items below near h.2⟩

lemma valid_fillMembers : ∀ (members : List (String × Json)) (below : Bool), Json.ValidMembers numbers members →
    Json.ValidMembers numbers (fillMembers text below members)
  | [], _, _ => trivial
  | (_, item) :: members, below, h => ⟨valid_fill item _ _ h.1, valid_fillMembers members below h.2⟩

end

end

lemma redactString_ne {keyHint : Option String} (h : isSecret keyHint = false) :
    redactString classes keyHint "" ≠ redactString classes keyHint "a" := by
  have hne : ¬ isSecret keyHint = true := Bool.eq_false_iff.mp h
  unfold redactString
  rw [if_neg hne, if_neg hne]
  intro heq
  have hmessage := String.ofList_injective heq
  have hempty : (redactMessage classes "".toList maxPayloadValueLength).messageRedacted = [] :=
    (messageRedacted_eq_nil_iff classes (by decide)).mpr rfl
  rw [hempty] at hmessage
  exact absurd ((messageRedacted_eq_nil_iff classes (by decide)).mp hmessage.symm) (by decide)

mutual

lemma guarded_of_fill : ∀ (v : Json) (below : Bool) (keyHint : Option String),
    redactJsonValue classes keyHint (fill "" below (isSecret keyHint) v) =
      redactJsonValue classes keyHint (fill "a" below (isSecret keyHint) v) → Guarded below (isSecret keyHint) v
  | .object members, below, _, h => guardedMembers_of_fill members below (object.inj h)
  | .array items, below, keyHint, h => guardedItems_of_fill items below keyHint (array.inj h)
  | .string value, below, keyHint, h => by
    intro hbelow
    subst hbelow
    by_contra hnear
    rw [Bool.not_eq_true] at hnear
    rw [fill, fill, hnear, Bool.not_false, Bool.and_true, if_pos rfl, if_pos rfl, redactJsonValue, redactJsonValue] at h
    exact redactString_ne hnear (string.inj h)
  | .null, _, _, _ | .bool _, _, _, _ | .number _, _, _, _ => trivial

lemma guardedItems_of_fill : ∀ (items : List Json) (below : Bool) (keyHint : Option String),
    redactItems classes keyHint (fillItems "" below (isSecret keyHint) items) =
      redactItems classes keyHint (fillItems "a" below (isSecret keyHint) items) → GuardedItems below (isSecret keyHint) items
  | [], _, _, _ => trivial
  | item :: items, below, keyHint, h =>
    ⟨guarded_of_fill item below keyHint (List.cons.inj h).1, guardedItems_of_fill items below keyHint (List.cons.inj h).2⟩

lemma guardedMembers_of_fill : ∀ (members : List (String × Json)) (below : Bool),
    redactMembers classes (fillMembers "" below members) = redactMembers classes (fillMembers "a" below members) →
      GuardedMembers below members
  | [], _, _ => trivial
  | (key, item) :: members, below, h =>
    ⟨guarded_of_fill item _ (some key) (Prod.mk.inj (List.cons.inj h).1).2,
      guardedMembers_of_fill members below (List.cons.inj h).2⟩

end

/-! ### Payloads -/

lemma redactJsonPayload_of_loads {payload : String} {v : Json} (h : loads numbers payload.toList = some v) :
    redactJsonPayload classes numbers payload = .ok (String.ofList (write (redactJsonValue classes none v))) := by
  unfold redactJsonPayload
  rw [h]

lemma redactJsonPayload_write {v : Json} (h : Json.Valid numbers v) :
    redactJsonPayload classes numbers (String.ofList (write v)) =
      .ok (String.ofList (write (redactJsonValue classes none v))) := by
  refine redactJsonPayload_of_loads ?_
  rw [String.toList_ofList]
  exact loads_write h

end

/-- Texts of numbers as they are, where they are such texts. -/
def literalNumbers : Json.Numbers where
  canonical text := if readNumber text.toList = some (text.toList, []) then text else "0"
  scalar text := by
    by_cases htext : readNumber text.toList = some (text.toList, [])
    · rw [if_pos htext, if_pos htext]
      exact .inr ⟨htext, rfl⟩
    · rw [if_neg htext]
      exact .inr ⟨rfl, rfl⟩

def listedTokens : Json := .object [("tokens", .number "2"), ("Token", .array [.string "t-1", .array [.string "t-2"]])]

def nestedPassword (password : String) : Json := .object [("password", .object [("value", .string password)])]

end IncidentLens.Operations.Payloads
