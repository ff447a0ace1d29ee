import IncidentLens.Data.Dict
import Mathlib

/-!
# The schema validator

`_validate_schema` follows a schema down a value as far as the types in the schema lead, and tests the
keywords in the branch of their type. In JSON Schema every keyword is tested wherever it stands.
-/
namespace IncidentLens.Investigations.Schemas
open Data Dict List

/-- A JSON value as Python holds it; a float is its value. -/
inductive Value
  | null
  | bool (b : Bool)
  | int (n : ℤ)
  | float (q : ℚ)
  | string (text : String)
  | array (items : List Value)
  | object (members : List (String × Value))

inductive Kind
  | object | array | string | integer | number | boolean | null
  deriving DecidableEq

/-- The value of `additionalProperties`. -/
inductive Additional (σ : Type)
  | bool (b : Bool)
  | schema (s : σ)

structure Keywords where
  type : Option Kind := none
  enum : Option (List Value) := none
  required : List String := []
  minLength : ℕ := 0
  maxLength : Option ℕ := none
  pattern : Option String := none
  minimum : Option ℚ := none
  maximum : Option ℚ := none
  minItems : ℕ := 0
  maxItems : Option ℕ := none

inductive Schema
  | mk (keywords : Keywords) (properties : List (String × Schema)) (additional : Option (Additional Schema))
    (items : Option Schema)

/-! ### Equality -/

/-- The number that a value is; in Python a `bool` is one. -/
def number (python : Bool) : Value → Option ℚ
  | .bool b => if python then some (if b then 1 else 0) else none
  | .int n => some n
  | .float q => some q
  | _ => none

mutual

/-- Equality of values, as Python has it or as JSON Schema. -/
def equal (python : Bool) : Value → Value → Bool
  | .null, .null => true
  | .bool a, .bool b => a = b
  | .string a, .string b => a = b
  | .array as, .array bs => equalItems python as bs
  | .object as, .object bs => as.length = bs.length && equalMembers python as bs
  | a, b => (number python a).isSome && number python a = number python b

def equalItems (python : Bool) : List Value → List Value → Bool
  | [], [] => true
  | a :: as, b :: bs => equal python a b && equalItems python as bs
  | _, _ => false

def equalMembers (python : Bool) : List (String × Value) → List (String × Value) → Bool
  | [], _ => true
  | (key, a) :: as, bs => (match get? bs key with
    | some b => equal python a b
    | none => false) && equalMembers python as bs

end

/-- `value in enum`, where there is an `enum`. -/
def listed (python : Bool) (enum : Option (List Value)) (value : Value) : Bool :=
  enum.all fun values => values.any fun other => equal python value other

/-! ### The validator -/

/-- Why a value is not accepted, with its path. -/
inductive Violation
  | notOneOf (path : String) (values : List Value)
  | notOfType (path : String) (kind : Kind)
  | missing (path name : String)
  | unknown (path : String) (names : List String)
  | fewItems (path : String)
  | manyItems (path : String)
  | short (path : String)
  | long (path : String)
  | noMatch (path pattern : String)
  | low (path : String)
  | high (path : String)

/-- The `isinstance` tests. -/
def isInstance : Kind → Value → Bool
  | .object, .object _ => true
  | .array, .array _ => true
  | .string, .string _ => true
  | .integer, .int _ => true
  | .number, .int _ => true
  | .number, .float _ => true
  | .boolean, .bool _ => true
  | .null, .null => true
  | _, _ => false

def names {α : Type} (properties : List (String × α)) : List String := properties.map Prod.fst

/-- `set(value) - set(properties)`. -/
def unknownNames {α : Type} (members : List (String × Value)) (properties : List (String × α)) : List String :=
  (names members).filter fun name => name ∉ names properties

def validateNumber (keywords : Keywords) (q : ℚ) (path : String) : Except Violation Unit :=
  if keywords.minimum.any fun least => q < least then .error (.low path)
  else if keywords.maximum.any fun most => most < q then .error (.high path)
  else .ok ()

section
variable (search : String → String → Bool)

/-- `search pattern text` is `re.search(pattern, text) is not None`. -/
def validateString (keywords : Keywords) (text path : String) : Except Violation Unit :=
  if text.length < keywords.minLength then .error (.short path)
  else if keywords.maxLength.any fun most => most < text.length then .error (.long path)
  else match keywords.pattern with
    | some pattern => if search pattern text then .ok () else .error (.noMatch path pattern)
    | none => .ok ()

/-- `for index, item in enumerate(value)`. -/
def validateItems (validate : Value → String → Except Violation Unit) (path : String) :
    List Value → ℕ → Except Violation Unit
  | [], _ => .ok ()
  | item :: items, index => do
    validate item (path ++ "[" ++ toString index ++ "]")
    validateItems validate path items (index + 1)

def isClosed : Option (Additional Schema) → Bool
  | some (.bool false) => true
  | _ => false

/-- The tests of an object before its properties. -/
def validateNames (keywords : Keywords) (properties : List (String × Schema)) (additional : Option (Additional Schema))
    (members : List (String × Value)) (path : String) : Except Violation Unit :=
  match keywords.required.find? fun name => (get? members name).isNone with
  | some name => .error (.missing path name)
  | none =>
    let unknown := unknownNames members properties
    if isClosed additional && unknown ≠ [] then .error (.unknown path (unknown.insertionSort (· ≤ ·))) else .ok ()

def validateLength (keywords : Keywords) (values : List Value) (path : String) : Except Violation Unit :=
  if values.length < keywords.minItems then .error (.fewItems path)
  else if keywords.maxItems.any fun most => most < values.length then .error (.manyItems path)
  else .ok ()

mutual

/-- `_validate_schema` -/
def validateSchema : Schema → Value → String → Except Violation Unit
  | .mk keywords properties additional items, value, path =>
    match keywords.type with
    | none => .ok ()
    | some kind =>
      if !listed true keywords.enum value then .error (.notOneOf path (keywords.enum.getD []))
      else if !isInstance kind value then .error (.notOfType path kind)
      else match value with
        | .object members => do
          validateNames keywords properties additional members path
          validateProperties properties members path
        | .array values => do
          validateLength keywords values path
          match items with
          | some items => validateItems (validateSchema items) path values 0
          | none => .ok ()
        | .string text => validateString search keywords text path
        | .int n => validateNumber keywords n path
        | .float q => validateNumber keywords q path
        | .bool _ => .ok ()
        | .null => .ok ()

def validateProperties : List (String × Schema) → List (String × Value) → String → Except Violation Unit
  | [], _, _ => .ok ()
  | (name, schema) :: properties, members, path => do
    match get? members name with
    | some value => validateSchema schema value (path ++ "." ++ name)
    | none => .ok ()
    validateProperties properties members path

end

/-! ### JSON Schema -/

/-- `integer` are the numbers without a fractional part. -/
def hasType : Kind → Value → Bool
  | .integer, value => (number false value).any fun q => q.den = 1
  | kind, value => isInstance kind value

def inRange (keywords : Keywords) (q : ℚ) : Bool :=
  (keywords.minimum.all fun least => least ≤ q) && keywords.maximum.all fun most => q ≤ most

/-- The keywords that apply to a value of some type, whatever the schema's own type is. -/
def fits (keywords : Keywords) (closed : Bool) (known : List String) : Value → Bool
  | .object members => (keywords.required.all fun name => (get? members name).isSome) &&
      (!closed || (names members).all fun name => name ∈ known)
  | .array values => keywords.minItems ≤ values.length && keywords.maxItems.all fun most => values.length ≤ most
  | .string text => keywords.minLength ≤ text.length && (keywords.maxLength.all fun most => text.length ≤ most) &&
      keywords.pattern.all fun pattern => search pattern text
  | .int n => inRange keywords n
  | .float q => inRange keywords q
  | .bool _ => true
  | .null => true

mutual

def Valid : Schema → Value → Prop
  | .mk keywords properties additional items, value =>
    (∀ kind, keywords.type = some kind → hasType kind value = true) ∧ listed false keywords.enum value = true ∧
      fits search keywords (isClosed additional) (names properties) value = true ∧
      match value with
      | .object members => ValidProperties properties members ∧
        match additional with
        | some (.schema schema) => ∀ member ∈ members, member.1 ∉ names properties → Valid schema member.2
        | _ => True
      | .array values =>
        match items with
        | some schema => ∀ item ∈ values, Valid schema item
        | none => True
      | _ => True

def ValidProperties : List (String × Schema) → List (String × Value) → Prop
  | [], _ => True
  | (name, schema) :: properties, members =>
    (∀ value, get? members name = some value → Valid schema value) ∧ ValidProperties properties members

end

/-! ### What the validator visits -/

namespace Schema

def keywords : Schema → Keywords
  | mk keywords _ _ _ => keywords

def properties : Schema → List (String × Schema)
  | mk _ properties _ _ => properties

def additional : Schema → Option (Additional Schema)
  | mk _ _ additional _ => additional

end Schema

/-- A place in a value with the schema for it. -/
structure Node where
  schema : Schema
  value : Value

mutual

/-- The places to which the types of the schema lead: the properties of a typed object that are there, and the
items of a typed array. -/
def visited : Schema → Value → List Node
  | .mk keywords properties additional items, value =>
    ⟨.mk keywords properties additional items, value⟩ ::
      match keywords.type, value with
      | some .object, .object members => visitedProperties properties members
      | some .array, .array values =>
        match items with
        | some schema => values.flatMap fun item => visited schema item
        | none => []
      | _, _ => []

def visitedProperties : List (String × Schema) → List (String × Value) → List Node
  | [], _ => []
  | (name, schema) :: properties, members =>
    (match get? members name with
      | some value => visited schema value
      | none => []) ++ visitedProperties properties members

end

namespace Node

/-- A float without a fractional part where an integer is asked for. -/
def integralFloat (kind : Kind) (n : Node) : Bool :=
  match kind, n.value with
  | .integer, .float q => q.den = 1
  | _, _ => false

def fits (n : Node) : Bool :=
  Schemas.fits search n.schema.keywords (isClosed n.schema.additional) (names n.schema.properties) n.value

def listed (python : Bool) (n : Node) : Bool := Schemas.listed python n.schema.keywords.enum n.value

/-- The members that are no properties are valid against a schema in `additionalProperties`. -/
def ExtraValid (n : Node) : Prop :=
  ∀ members schema, n.value = .object members → n.schema.additional = some (.schema schema) →
    ∀ member ∈ members, member.1 ∉ names n.schema.properties → Valid search schema member.2

/-- Wrong for the validator and for JSON Schema. -/
def Rejected (n : Node) : Prop :=
  ∃ kind, n.schema.keywords.type = some kind ∧ ¬ (hasType kind n.value = true ∧ n.fits search = true ∧
    n.listed true = true ∧ (n.integralFloat kind = true → n.listed false = true))

/-- Right for the validator only: the schema has no type, a value of the `enum` is equal in Python alone, or a member is
not valid against `additionalProperties`. -/
def Lenient (n : Node) : Prop :=
  n.schema.keywords.type = none ∧ ¬ Valid search n.schema n.value ∨
  ∃ kind, n.schema.keywords.type = some kind ∧ hasType kind n.value = true ∧ n.integralFloat kind = false ∧
    n.fits search = true ∧ n.listed true = true ∧ ¬ (n.listed false = true ∧ n.ExtraValid search)

/-- Right for JSON Schema only: a float without a fractional part where an integer is asked for. -/
def Stern (n : Node) : Prop :=
  ∃ kind, n.schema.keywords.type = some kind ∧ n.integralFloat kind = true ∧ n.fits search = true ∧ n.listed false = true

end Node

variable {search} {keywords : Keywords} {path : String}

/-! ### One place -/

mutual

lemma equal_python : ∀ a b : Value, equal false a b = true → equal true a b = true
  | .null, .null, _ => rfl
  | .bool a, .bool b, h => h
  | .string a, .string b, h => h
  | .array as, .array bs, h => equalItems_python as bs h
  | .object as, .object bs, h => by
    rw [equal, Bool.and_eq_true] at h ⊢
    exact ⟨h.1, equalMembers_python as bs h.2⟩
  | .int a, .int b, h => h
  | .int a, .float b, h => h
  | .float a, .int b, h => h
  | .float a, .float b, h => h

lemma equalItems_python : ∀ as bs : List Value, equalItems false as bs = true → equalItems true as bs = true
  | [], [], _ => rfl
  | a :: as, b :: bs, h => by
    rw [equalItems, Bool.and_eq_true] at h ⊢
    exact ⟨equal_python a b h.1, equalItems_python as bs h.2⟩

lemma equalMembers_python : ∀ as bs : List (String × Value),
    equalMembers false as bs = true → equalMembers true as bs = true
  | [], _, _ => rfl
  | (key, a) :: as, bs, h => by
    rw [equalMembers, Bool.and_eq_true] at h ⊢
    refine ⟨?_, equalMembers_python as bs h.2⟩
    cases hget : get? bs key with
    | none =>
      rw [hget] at h
      exact h.1
    | some b =>
      rw [hget] at h
      exact equal_python a b h.1

end

lemma listed_python {enum : Option (List Value)} {v : Value} (h : listed false enum v = true) : listed true enum v = true := by
  cases enum with
  | none => rfl
  | some values =>
    obtain ⟨other, hother, hequal⟩ := any_eq_true.mp h
    exact any_eq_true.mpr ⟨other, hother, equal_python v other hequal⟩

lemma isInstance_iff {kind : Kind} {n : Node} :
    isInstance kind n.value = true ↔ hasType kind n.value = true ∧ n.integralFloat kind = false := by
  obtain ⟨schema, value⟩ := n
  cases kind with
  | integer =>
    cases value with
    | int n => simp [isInstance, hasType, number, Node.integralFloat]
    | float q => simp [isInstance, hasType, number, Node.integralFloat]
    | null | bool b | string text | array items | object members =>
      simp [isInstance, hasType, number, Node.integralFloat]
  | object | array | string | number | boolean | null =>
    simp [hasType, Node.integralFloat]

lemma any_lt {α : Type} [LinearOrder α] (bound : Option α) (x : α) :
    (bound.any fun b => x < b) = !bound.all fun b => b ≤ x := by
  cases bound with
  | none => rfl
  | some b => simp [← not_le]

lemma any_gt {α : Type} [LinearOrder α] (bound : Option α) (x : α) :
    (bound.any fun b => b < x) = !bound.all fun b => x ≤ b := by
  cases bound with
  | none => rfl
  | some b => simp [← not_le]

lemma validateNumber_ok {q : ℚ} : validateNumber keywords q path = .ok () ↔ inRange keywords q = true := by
  unfold validateNumber inRange
  rw [any_lt, any_gt]
  cases keywords.minimum.all fun least => least ≤ q with
  | false => simp
  | true =>
    cases keywords.maximum.all fun most => q ≤ most with
    | false => simp
    | true => simp

lemma validateString_ok {text : String} {closed : Bool} {known : List String} :
    validateString search keywords text path = .ok () ↔ fits search keywords closed known (.string text) = true := by
  rw [validateString, fits, any_gt]
  by_cases hshort : text.length < keywords.minLength
  · simp [hshort]
  · rw [if_neg hshort, decide_eq_true (not_lt.mp hshort), Bool.true_and]
    cases keywords.maxLength.all fun most => text.length ≤ most with
    | false => simp
    | true =>
      cases keywords.pattern with
      | none => simp
      | some pattern =>
        cases hsearch : search pattern text with
        | false => simp [hsearch]
        | true => simp [hsearch]

lemma validateItems_ok {validate : Value → String → Except Violation Unit} {P : Value → Prop} {values : List Value}
    (h : ∀ item ∈ values, ∀ path, validate item path = .ok () ↔ P item) (index : ℕ) :
    validateItems validate path values index = .ok () ↔ ∀ item ∈ values, P item := by
  induction values generalizing index with
  | nil => simp [validateItems]
  | cons item values ih =>
    obtain ⟨hitem, hvalues⟩ := forall_mem_cons.mp h
    rw [forall_mem_cons, ← ih hvalues (index + 1), ← hitem (path ++ "[" ++ toString index ++ "]"), validateItems]
    cases validate item (path ++ "[" ++ toString index ++ "]") with
    | ok u => simp [bind, Except.bind]
    | error e => simp [bind, Except.bind]

lemma unknownNames_eq_nil_iff {members : List (String × Value)} {properties : List (String × Schema)} :
    unknownNames members properties = [] ↔ ((names members).all fun name => name ∈ names properties) = true := by
  simp [unknownNames, filter_eq_nil_iff]

lemma seq_ok {a b : Except Violation Unit} : (do a; b) = .ok () ↔ a = .ok () ∧ b = .ok () := by
  cases a with
  | ok u => exact ⟨fun h => ⟨rfl, h⟩, fun h => h.2⟩
  | error e => simp [bind, Except.bind]

lemma validateNames_ok {properties : List (String × Schema)} {additional : Option (Additional Schema)}
    {members : List (String × Value)} : validateNames keywords properties additional members path = .ok () ↔
      fits search keywords (isClosed additional) (names properties) (.object members) = true := by
  rw [validateNames, fits, Bool.and_eq_true, all_eq_true]
  cases hfind : keywords.required.find? fun name => (get? members name).isNone with
  | some name =>
    have hnone := find?_some hfind
    refine iff_of_false (by simp) fun h => ?_
    have hname := h.1 name (mem_of_find?_eq_some hfind)
    rw [Option.isNone_iff_eq_none.mp hnone] at hname
    cases hname
  | none =>
    have hpresent : ∀ name ∈ keywords.required, (get? members name).isSome = true := by
      intro name hname
      have hsome := find?_eq_none.mp hfind name hname
      rwa [Bool.not_eq_true, Option.isNone_eq_false_iff] at hsome
    rw [and_iff_right hpresent, Bool.or_eq_true, ← unknownNames_eq_nil_iff]
    cases isClosed additional with
    | false => simp
    | true =>
      by_cases hunknown : unknownNames members properties = []
      · simp [hunknown]
      · simp [hunknown]

lemma validateLength_ok {values : List Value} {closed : Bool} {known : List String} :
    validateLength keywords values path = .ok () ↔ fits search keywords closed known (.array values) = true := by
  rw [validateLength, fits, any_gt]
  by_cases hfew : values.length < keywords.minItems
  · simp [hfew]
  · rw [if_neg hfew, decide_eq_true (not_lt.mp hfew)]
    cases keywords.maxItems.all fun most => values.length ≤ most with
    | false => simp
    | true => simp

/-- What a typed schema tests at a place itself. -/
def passes (search : String → String → Bool) (kind : Kind) (n : Node) : Bool :=
  n.listed true && isInstance kind n.value && n.fits search

/-- What it tests below: the properties of an object and the items of an array. -/
def PassesBelow (search : String → String → Bool) (properties : List (String × Schema)) (items : Option Schema)
    (path : String) : Value → Prop
  | .object members => validateProperties search properties members path = .ok ()
  | .array values => ∀ schema, items = some schema → validateItems (validateSchema search schema) path values 0 = .ok ()
  | _ => True

lemma validateSchema_ok {kind : Kind} {properties : List (String × Schema)} {additional : Option (Additional Schema)}
    {items : Option Schema} {value : Value} (hkind : keywords.type = some kind) :
    validateSchema search (.mk keywords properties additional items) value path = .ok () ↔
      passes search kind ⟨.mk keywords properties additional items, value⟩ = true ∧
        PassesBelow search properties items path value := by
  unfold validateSchema passes Node.listed Node.fits
  simp only [hkind, Schema.keywords, Schema.properties, Schema.additional, Bool.and_eq_true]
  cases hlisted : listed true keywords.enum value with
  | false => simp
  | true =>
    cases hinstance : isInstance kind value with
    | false => simp
    | true =>
      simp only [Bool.not_true, Bool.false_eq_true, if_false, true_and]
      cases value with
      | object members => exact seq_ok.trans (and_congr_left fun _ => validateNames_ok)
      | array values =>
        refine seq_ok.trans (and_congr validateLength_ok ?_)
        cases items with
        | none => simp [PassesBelow]
        | some schema => simp [PassesBelow]
      | string text => exact validateString_ok.trans (and_iff_left trivial).symm
      | int n => exact validateNumber_ok.trans (and_iff_left trivial).symm
      | float q => exact validateNumber_ok.trans (and_iff_left trivial).symm
      | bool b => exact iff_of_true rfl ⟨rfl, trivial⟩
      | null => exact iff_of_true rfl ⟨rfl, trivial⟩

section
variable {kind : Kind} {n : Node}

lemma rejected_iff (hkind : n.schema.keywords.type = some kind) : n.Rejected search ↔
    ¬ (hasType kind n.value = true ∧ n.fits search = true ∧ n.listed true = true ∧
      (n.integralFloat kind = true → n.listed false = true)) := by
  constructor
  · rintro ⟨other, hother, h⟩
    rw [hkind] at hother
    rwa [Option.some.inj hother]
  · exact fun h => ⟨kind, hkind, h⟩

lemma stern_iff (hkind : n.schema.keywords.type = some kind) : n.Stern search ↔
    n.integralFloat kind = true ∧ n.fits search = true ∧ n.listed false = true := by
  constructor
  · rintro ⟨other, hother, h⟩
    rw [hkind] at hother
    rwa [Option.some.inj hother]
  · exact fun h => ⟨kind, hkind, h⟩

lemma lenient_iff (hkind : n.schema.keywords.type = some kind) : n.Lenient search ↔
    hasType kind n.value = true ∧ n.integralFloat kind = false ∧ n.fits search = true ∧ n.listed true = true ∧
      ¬ (n.listed false = true ∧ n.ExtraValid search) := by
  constructor
  · rintro (⟨hnone, -⟩ | ⟨other, hother, h⟩)
    · rw [hkind] at hnone
      cases hnone
    · rw [hkind] at hother
      rwa [Option.some.inj hother]
  · exact fun h => .inr ⟨kind, hkind, h⟩

lemma passes_iff (hkind : n.schema.keywords.type = some kind) :
    passes search kind n = true ↔ ¬ n.Rejected search ∧ ¬ n.Stern search := by
  rw [rejected_iff hkind, stern_iff hkind, not_not, passes, Bool.and_eq_true, Bool.and_eq_true, isInstance_iff]
  constructor
  · rintro ⟨⟨hlisted, htype, hfloat⟩, hfits⟩
    rw [hfloat]
    exact ⟨⟨htype, hfits, hlisted, fun h => absurd h Bool.false_ne_true⟩, fun h => absurd h.1 Bool.false_ne_true⟩
  · rintro ⟨⟨htype, hfits, hlisted, hexact⟩, hstern⟩
    refine ⟨⟨hlisted, htype, ?_⟩, hfits⟩
    rw [← Bool.not_eq_true]
    exact fun hfloat => hstern ⟨hfloat, hfits, hexact hfloat⟩

lemma extraValid_of_integralFloat (h : n.integralFloat kind = true) : n.ExtraValid search := by
  obtain ⟨s, v⟩ := n
  intro members schema hvalue
  change v = _ at hvalue
  subst hvalue
  cases kind with
  | integer | object | array | string | number | boolean | null => cases h

lemma conforms_iff (hkind : n.schema.keywords.type = some kind) :
    hasType kind n.value = true ∧ n.listed false = true ∧ n.fits search = true ∧ n.ExtraValid search ↔
      ¬ n.Rejected search ∧ ¬ n.Lenient search := by
  rw [rejected_iff hkind, lenient_iff hkind, not_not]
  constructor
  · rintro ⟨htype, hlisted, hfits, hextra⟩
    exact ⟨⟨htype, hfits, listed_python hlisted, fun _ => hlisted⟩, fun h => h.2.2.2.2 ⟨hlisted, hextra⟩⟩
  · rintro ⟨⟨htype, hfits, hlisted, hexact⟩, hlenient⟩
    cases hfloat : n.integralFloat kind with
    | true => exact ⟨htype, hexact hfloat, hfits, extraValid_of_integralFloat hfloat⟩
    | false =>
      by_contra hno
      refine hlenient ⟨htype, hfloat, hfits, hlisted, fun h => hno ⟨htype, h.1, hfits, h.2⟩⟩

lemma untyped (search : String → String → Bool) (n : Node) (hnone : n.schema.keywords.type = none) : ¬ n.Rejected search ∧ ¬ n.Stern search ∧
    (n.Lenient search ↔ ¬ Valid search n.schema n.value) := by
  refine ⟨?_, ?_, ?_⟩
  · rintro ⟨kind, hkind, -⟩
    rw [hnone] at hkind
    cases hkind
  · rintro ⟨kind, hkind, -⟩
    rw [hnone] at hkind
    cases hkind
  · constructor
    · rintro (h | ⟨kind, hkind, -⟩)
      · exact h.2
      · rw [hnone] at hkind
        cases hkind
    · exact fun h => .inl ⟨hnone, h⟩

end

/-! ### All places -/

variable (search) in
def Accepts (n : Node) : Prop := ¬ n.Rejected search ∧ ¬ n.Stern search

variable (search) in
def Admits (n : Node) : Prop := ¬ n.Rejected search ∧ ¬ n.Lenient search

section
variable {properties : List (String × Schema)} {additional : Option (Additional Schema)} {items : Option Schema}
  {value : Value}

def below (properties : List (String × Schema)) (items : Option Schema) (kind : Kind) (value : Value) : List Node :=
  match kind, value with
  | .object, .object members => visitedProperties properties members
  | .array, .array values =>
    match items with
    | some schema => values.flatMap fun item => visited schema item
    | none => []
  | _, _ => []

lemma visited_typed {kind : Kind} (hkind : keywords.type = some kind) :
    visited (.mk keywords properties additional items) value =
      ⟨.mk keywords properties additional items, value⟩ :: below properties items kind value := by
  unfold visited below
  rw [hkind]
  cases kind with
  | object => cases value with
    | object members => rfl
    | null | bool | int | float | string | array => rfl
  | array => cases value with
    | array values => rfl
    | null | bool | int | float | string | object => rfl
  | string | integer | number | boolean | null => rfl

lemma visited_untyped (hnone : keywords.type = none) :
    visited (.mk keywords properties additional items) value = [⟨.mk keywords properties additional items, value⟩] := by
  unfold visited
  rw [hnone]

lemma passesBelow_iff {kind : Kind} (hinstance : isInstance kind value = true)
    (hproperties : ∀ members path, validateProperties search properties members path = .ok () ↔
      ∀ n ∈ visitedProperties properties members, Accepts search n)
    (hitems : ∀ schema, items = some schema → ∀ item path, validateSchema search schema item path = .ok () ↔
      ∀ n ∈ visited schema item, Accepts search n) :
    PassesBelow search properties items path value ↔ ∀ n ∈ below properties items kind value, Accepts search n := by
  cases value with
  | object members =>
    cases kind with
    | object => exact hproperties members path
    | array | string | integer | number | boolean | null => cases hinstance
  | array values =>
    cases kind with
    | array =>
      cases items with
      | none => simp [PassesBelow, below]
      | some schema =>
        have hvalues : validateItems (validateSchema search schema) path values 0 = .ok () ↔ _ :=
          validateItems_ok (fun item _ => hitems schema rfl item) 0
        simp only [PassesBelow, below, mem_flatMap, Option.some.injEq, forall_eq', hvalues]
        constructor
        · rintro h n ⟨item, hitem, hn⟩
          exact h item hitem n hn
        · exact fun h item hitem n hn => h n ⟨item, hitem, hn⟩
    | object | string | integer | number | boolean | null => cases hinstance
  | null | bool b | int n | float q | string text =>
    refine iff_of_true trivial fun n hn => ?_
    cases kind with
    | object | array | string | integer | number | boolean | null => cases hn

lemma validateSchema_mk (hproperties : ∀ members path, validateProperties search properties members path = .ok () ↔
      ∀ n ∈ visitedProperties properties members, Accepts search n)
    (hitems : ∀ schema, items = some schema → ∀ item path, validateSchema search schema item path = .ok () ↔
      ∀ n ∈ visited schema item, Accepts search n) :
    validateSchema search (.mk keywords properties additional items) value path = .ok () ↔
      ∀ n ∈ visited (.mk keywords properties additional items) value, Accepts search n := by
  cases hkind : keywords.type with
  | none =>
    have huntyped := untyped search ⟨.mk keywords properties additional items, value⟩ hkind
    rw [visited_untyped hkind, forall_mem_singleton]
    unfold validateSchema
    rw [hkind]
    exact iff_of_true rfl ⟨huntyped.1, huntyped.2.1⟩
  | some kind =>
    rw [validateSchema_ok hkind, visited_typed hkind, forall_mem_cons, Accepts,
      ← passes_iff (n := ⟨.mk keywords properties additional items, value⟩) hkind]
    refine and_congr_right fun hpasses => ?_
    rw [passes, Bool.and_eq_true, Bool.and_eq_true] at hpasses
    exact passesBelow_iff hpasses.1.2 hproperties hitems

mutual

lemma validateSchema_iff : ∀ (schema : Schema) (value : Value) (path : String),
    validateSchema search schema value path = .ok () ↔ ∀ n ∈ visited schema value, Accepts search n
  | .mk _ properties _ none, _, _ =>
    validateSchema_mk (fun members path => validateProperties_iff properties members path) (by rintro _ ⟨⟩)
  | .mk _ properties _ (some schema), _, _ =>
    validateSchema_mk (fun members path => validateProperties_iff properties members path)
      (fun other h item path => by
        rw [← Option.some.inj h]
        exact validateSchema_iff schema item path)

lemma validateProperties_iff : ∀ (properties : List (String × Schema)) (members : List (String × Value)) (path : String),
    validateProperties search properties members path = .ok () ↔
      ∀ n ∈ visitedProperties properties members, Accepts search n
  | [], members, path => by simp [validateProperties, visitedProperties]
  | (name, schema) :: properties, members, path => by
    rw [validateProperties, visitedProperties, forall_mem_append, ← validateProperties_iff properties members path]
    cases hget : get? members name with
    | none => simp [bind, Except.bind]
    | some value =>
      rw [← validateSchema_iff schema value (path ++ "." ++ name)]
      exact seq_ok

end

/-- What JSON Schema asks of the properties and items of a value of the right type. -/
def ValidBelow (search : String → String → Bool) (properties : List (String × Schema)) (items : Option Schema) :
    Value → Prop
  | .object members => ValidProperties search properties members
  | .array values => ∀ schema, items = some schema → ∀ item ∈ values, Valid search schema item
  | _ => True

lemma valid_typed {kind : Kind} (hkind : keywords.type = some kind) :
    Valid search (.mk keywords properties additional items) value ↔
      (¬ Node.Rejected search ⟨.mk keywords properties additional items, value⟩ ∧
        ¬ Node.Lenient search ⟨.mk keywords properties additional items, value⟩) ∧
      ValidBelow search properties items value := by
  rw [← conforms_iff (n := ⟨.mk keywords properties additional items, value⟩) hkind]
  unfold Valid
  simp only [hkind, Option.some.injEq, forall_eq', Node.listed, Node.fits, Schema.keywords, Schema.properties,
    Schema.additional, and_assoc]
  refine and_congr_right fun _ => and_congr_right fun _ => and_congr_right fun _ => ?_
  cases value with
  | object members =>
    refine and_comm.trans (and_congr ?_ Iff.rfl)
    cases additional with
    | none =>
      refine iff_of_true trivial ?_
      rintro members schema - ⟨⟩
    | some additional =>
      cases additional with
      | bool b =>
        refine iff_of_true trivial ?_
        rintro members schema - ⟨⟩
      | schema schema =>
        constructor
        · rintro h members schema ⟨⟩ ⟨⟩
          exact h
        · exact fun h => h members schema rfl rfl
  | array values =>
    have hextra : Node.ExtraValid search ⟨.mk keywords properties additional items, .array values⟩ := by
      rintro members schema ⟨⟩
    rw [and_iff_right hextra]
    cases items with
    | none => simp [ValidBelow]
    | some schema => simp [ValidBelow]
  | null | bool b | int n | float q | string text =>
    refine iff_of_true trivial ⟨?_, trivial⟩
    rintro members schema ⟨⟩

lemma validBelow_iff {kind : Kind} (htype : hasType kind value = true)
    (hproperties : ∀ members, ValidProperties search properties members ↔
      ∀ n ∈ visitedProperties properties members, Admits search n)
    (hitems : ∀ schema, items = some schema → ∀ item, Valid search schema item ↔
      ∀ n ∈ visited schema item, Admits search n) :
    ValidBelow search properties items value ↔ ∀ n ∈ below properties items kind value, Admits search n := by
  cases value with
  | object members =>
    cases kind with
    | object => exact hproperties members
    | array | string | integer | number | boolean | null => cases htype
  | array values =>
    cases kind with
    | array =>
      cases items with
      | none => simp [ValidBelow, below]
      | some schema =>
        simp only [ValidBelow, below, mem_flatMap, Option.some.injEq, forall_eq', hitems schema rfl]
        constructor
        · rintro h n ⟨item, hitem, hn⟩
          exact h item hitem n hn
        · exact fun h item hitem n hn => h n ⟨item, hitem, hn⟩
    | object | string | integer | number | boolean | null => cases htype
  | null | bool b | int n | float q | string text =>
    refine iff_of_true trivial fun n hn => ?_
    cases kind with
    | object | array | string | integer | number | boolean | null => cases hn

lemma valid_mk (hproperties : ∀ members, ValidProperties search properties members ↔
      ∀ n ∈ visitedProperties properties members, Admits search n)
    (hitems : ∀ schema, items = some schema → ∀ item, Valid search schema item ↔
      ∀ n ∈ visited schema item, Admits search n) : Valid search (.mk keywords properties additional items) value ↔
      ∀ n ∈ visited (.mk keywords properties additional items) value, Admits search n := by
  cases hkind : keywords.type with
  | none =>
    have huntyped := untyped search ⟨.mk keywords properties additional items, value⟩ hkind
    rw [visited_untyped hkind, forall_mem_singleton, Admits, and_iff_right huntyped.1, huntyped.2.2, not_not]
  | some kind =>
    rw [valid_typed hkind, visited_typed hkind, forall_mem_cons, Admits]
    refine and_congr_right fun hlocal => ?_
    have hconforms := (conforms_iff (n := ⟨.mk keywords properties additional items, value⟩) hkind).mpr hlocal
    exact validBelow_iff hconforms.1 hproperties hitems

mutual

lemma valid_iff : ∀ (schema : Schema) (value : Value), Valid search schema value ↔
    ∀ n ∈ visited schema value, Admits search n
  | .mk _ properties _ none, _ => valid_mk (fun members => validProperties_iff properties members) (by rintro _ ⟨⟩)
  | .mk _ properties _ (some schema), _ =>
    valid_mk (fun members => validProperties_iff properties members)
      (fun other h item => by
        rw [← Option.some.inj h]
        exact valid_iff schema item)

lemma validProperties_iff : ∀ (properties : List (String × Schema)) (members : List (String × Value)),
    ValidProperties search properties members ↔ ∀ n ∈ visitedProperties properties members, Admits search n
  | [], members => by simp [ValidProperties, visitedProperties]
  | (name, schema) :: properties, members => by
    rw [ValidProperties, visitedProperties, forall_mem_append, ← validProperties_iff properties members]
    cases hget : get? members name with
    | none => simp
    | some value => simp [valid_iff schema value]

end

end

end

end IncidentLens.Investigations.Schemas
