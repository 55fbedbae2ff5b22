import Mathlib.Data.List.Sort
import AgentPlatform.Base

/-!
# JSON values

What `json.loads` returns, with Python's truth values and dictionary lookups, and the canonical text
`encode` writes. A dictionary is the list of its members, in the order of their insertion; a float is
the text `repr` writes for it.
-/

namespace AgentPlatform

/-- A decoded JSON value. -/
inductive Json
  | null
  | bool (value : Bool)
  | int (value : ℤ)
  | float (literal : String)
  | str (value : String)
  | arr (items : List Json)
  | obj (members : List (String × Json))

namespace Json

/-- `bool(value)`. -/
def truthy : Json → Bool
  | null => false
  | bool b => b
  | int n => n != 0
  | float literal => literal != "0.0" && literal != "-0.0"
  | str s => s != ""
  | arr items => !items.isEmpty
  | obj members => !members.isEmpty

/-- `value.get(key)` of a dictionary; `none` where the value is not a dictionary or lacks the key. -/
def get? (key : String) : Json → Option Json
  | obj members => (members.find? fun m => m.1 = key).map Prod.snd
  | _ => none

/-- `value.get(key, default)`. -/
def getD (value : Json) (key : String) (default : Json) : Json := (value.get? key).getD default

/-- `value == ''`. -/
def isEmptyText : Json → Bool
  | str s => s == ""
  | _ => false

/-- `isinstance(value, dict)`. -/
def isDict : Json → Bool
  | obj _ => true
  | _ => false

/-! ### `encode` -/

/-- One character of a JSON string. -/
def escape (c : Char) : List Char :=
  match c with
  | '"' => ['\\', '"']
  | '\\' => ['\\', '\\']
  | '\n' => ['\\', 'n']
  | '\r' => ['\\', 'r']
  | '\t' => ['\\', 't']
  | '\x08' => ['\\', 'b']
  | '\x0c' => ['\\', 'f']
  | c =>
    if c.toNat < 32 then
      ['\\', 'u', '0', '0', Nat.digitChar (c.toNat / 16), Nat.digitChar (c.toNat % 16)]
    else [c]

/-- A JSON string. -/
def quote (s : String) : String := "\"" ++ String.ofList (s.toList.flatMap escape) ++ "\""

mutual

/-- `encode`: no spaces, members in the order of their keys. -/
def encode : Json → String
  | null => "null"
  | bool true => "true"
  | bool false => "false"
  | int n => toString n
  | float literal => literal
  | str s => quote s
  | arr items => "[" ++ ",".intercalate (encodeItems items) ++ "]"
  | obj members =>
    let sorted := (encodeMembers members).insertionSort fun m m' => m.1.toList ≤ m'.1.toList
    "\x7b" ++ ",".intercalate (sorted.map fun m => quote m.1 ++ ":" ++ m.2) ++ "\x7d"

def encodeItems : List Json → List String
  | [] => []
  | item :: items => encode item :: encodeItems items

def encodeMembers : List (String × Json) → List (String × String)
  | [] => []
  | (key, value) :: members => (key, encode value) :: encodeMembers members

end

/-- Equality of values: they are written the same. -/
def same (a b : Json) : Bool := a.encode == b.encode

/-- The items of a list; none where the value is not a list. -/
def items : Json → List Json
  | arr items => items
  | _ => []

/-- `text in value`, for a list of texts. -/
def hasText (value : Json) (text : String) : Bool := value.items.any fun v => v.same (.str text)

/-- `value == text`. -/
def isText (text : String) : Json → Bool
  | str s => s == text
  | _ => false

/-- `isinstance(value, str) and value`. -/
def isNonemptyText : Json → Bool
  | str s => s != ""
  | _ => false

/-- The members of a dictionary. -/
def members : Json → List (String × Json)
  | obj members => members
  | _ => []

end Json

/-- `digest`, over the hexadecimal SHA-256 of a text. -/
def digest (sha256 : String → String) (value : Json) : String := sha256 value.encode

end AgentPlatform
