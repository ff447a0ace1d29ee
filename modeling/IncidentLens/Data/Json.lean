import Mathlib.Data.List.Sort
import Mathlib.Data.String.Basic

/-!
# JSON texts

`json.dumps` with sorted keys, compact separators and `ensure_ascii=False`.
-/
namespace IncidentLens.Data

/-- A JSON value; a number is kept as its literal. -/
inductive Json
  | null
  | bool (b : Bool)
  | number (literal : String)
  | string (s : String)
  | array (items : List Json)
  | object (members : List (String × Json))

namespace Json

def hexDigit (n : ℕ) : Char := if n < 10 then Char.ofNat (48 + n) else Char.ofNat (87 + n)

/-- Escapes of `ensure_ascii=False`: quotes, backslashes and control characters. -/
def escape (c : Char) : List Char :=
  if c = '"' then ['\\', '"']
  else if c = '\\' then ['\\', '\\']
  else if c = '\n' then ['\\', 'n']
  else if c = '\r' then ['\\', 'r']
  else if c = '\t' then ['\\', 't']
  else if c.toNat = 8 then ['\\', 'b']
  else if c.toNat = 12 then ['\\', 'f']
  else if c.toNat < 32 then ['\\', 'u', '0', '0', hexDigit (c.toNat / 16), hexDigit (c.toNat % 16)]
  else [c]

def quote (s : String) : List Char := ['"'] ++ s.toList.flatMap escape ++ ['"']

def joinComma : List (List Char) → List Char
  | [] => []
  | [item] => item
  | item :: items => item ++ [','] ++ joinComma items

mutual

def dumps : Json → List Char
  | null => ['n', 'u', 'l', 'l']
  | bool true => ['t', 'r', 'u', 'e']
  | bool false => ['f', 'a', 'l', 's', 'e']
  | number literal => literal.toList
  | string s => quote s
  | array items => ['['] ++ joinComma (dumpsItems items) ++ [']']
  | object members =>
    let sorted := (dumpsMembers members).insertionSort fun a b => a.1 ≤ b.1
    ['{'] ++ joinComma (sorted.map fun m => quote m.1 ++ [':'] ++ m.2) ++ ['}']

def dumpsItems : List Json → List (List Char)
  | [] => []
  | item :: items => dumps item :: dumpsItems items

def dumpsMembers : List (String × Json) → List (String × List Char)
  | [] => []
  | (key, value) :: members => (key, dumps value) :: dumpsMembers members

end

example : String.ofList (dumps (.object [("kind", .string "rollback"), ("files", .array [.null])])) =
    "\x7b\"files\":[null],\"kind\":\"rollback\"\x7d" := by decide

end Json
end IncidentLens.Data
