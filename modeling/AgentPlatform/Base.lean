import Mathlib.Algebra.Group.Int.Defs
import Mathlib.Algebra.Group.Nat.Defs
import Mathlib.Algebra.GroupWithZero.Nat
import Mathlib.Data.Char
import Mathlib.Data.Int.Notation
import Mathlib.Data.List.Infix
import Mathlib.Data.List.Lex
import AgentPlatform.Lib.Outcome

/-!
# What every module of the runtime shares

The exceptions of `engine.py` with the built-in ones the runtime raises, the clock, the identifiers
`uuid.uuid4().hex` draws, and Python's string predicates.
-/

namespace AgentPlatform

/-- The exceptions the runtime raises, with their message. `Conflict` is a `ValueError`, `Forbidden`
a `PermissionError`, `NotFound` a `LookupError`, `RateLimited` a `RuntimeError`. -/
inductive Err
  | conflict (message : String)
  | forbidden (message : String)
  | notFound (message : String)
  | rateLimited (message : String)
  | valueError (message : String)
  | permissionError (message : String)
  | lookupError (message : String)
  | runtimeError (message : String)
  | typeError (message : String)
  /-- `ErpError`, a `RuntimeError` that carries the provider's HTTP status. -/
  | erpError (message : String) (status : Option ℤ)
  /-- Any other exception, by the name of its type. -/
  | other (name : String) (message : String)
  deriving DecidableEq, Repr

namespace Err

/-- `isinstance(e, ValueError)`. -/
def isValueError : Err → Bool
  | conflict _ | valueError _ => true
  | _ => false

/-- `isinstance(e, Forbidden)`. -/
def isForbidden : Err → Bool
  | forbidden _ => true
  | _ => false

/-- `isinstance(e, NotFound)`. -/
def isNotFound : Err → Bool
  | notFound _ => true
  | _ => false

/-- `isinstance(e, PermissionError)`. -/
def isPermissionError : Err → Bool
  | forbidden _ | permissionError _ => true
  | _ => false

/-- `isinstance(e, LookupError)`. -/
def isLookupError : Err → Bool
  | notFound _ | lookupError _ => true
  | _ => false

/-- `isinstance(e, RuntimeError)`. -/
def isRuntimeError : Err → Bool
  | rateLimited _ | runtimeError _ | erpError _ _ => true
  | _ => false

/-- `type(e).__name__`. -/
def typeName : Err → String
  | conflict _ => "Conflict"
  | forbidden _ => "Forbidden"
  | notFound _ => "NotFound"
  | rateLimited _ => "RateLimited"
  | valueError _ => "ValueError"
  | permissionError _ => "PermissionError"
  | lookupError _ => "LookupError"
  | runtimeError _ => "RuntimeError"
  | typeError _ => "TypeError"
  | erpError _ _ => "ErpError"
  | other name _ => name

/-- `str(e)`. -/
def text : Err → String
  | conflict m | forbidden m | notFound m | rateLimited m | valueError m | permissionError m
  | lookupError m | runtimeError m | typeError m | erpError m _ | other _ m => m

end Err

/-- A reading of the clock, in microseconds. -/
abbrev Time := ℤ

/-- `n` seconds. -/
def seconds (n : ℤ) : Time := n * 1000000

/-- What `uuid.uuid4().hex` returns: the numbers in the order they are drawn. -/
abbrev Uuid := ℕ

/-! ### Python strings -/

/-- A statement about the characters of a list is decided along the list, where all characters could be run through. -/
instance (priority := high) decidableCharacters {p : Char → Prop} [DecidablePred p] (l : List Char) : Decidable (∀ c ∈ l, p c) :=
  List.decidableBAll p l

/-- The characters `str.strip` removes. -/
def isSpace (c : Char) : Bool :=
  let n := c.toNat
  (9 ≤ n && n ≤ 13) || (28 ≤ n && n ≤ 32) || n == 0x85 || n == 0xa0 || n == 0x1680 ||
    (0x2000 ≤ n && n ≤ 0x200a) || n == 0x2028 || n == 0x2029 || n == 0x202f || n == 0x205f ||
    n == 0x3000

/-- `not text.strip()`. -/
def isBlank (text : String) : Bool := text.toList.all isSpace

/-- `text == text.strip()`. -/
def isStripped (text : String) : Bool :=
  !(text.toList.head?.any isSpace) && !(text.toList.getLast?.any isSpace)

/-- `text.strip()`. -/
def strip (text : String) : String :=
  String.ofList ((text.toList.dropWhile isSpace).reverse.dropWhile isSpace).reverse

/-- `re.fullmatch('[…]{low,high}', text)` for a character class. -/
def isRunOf (cls : Char → Bool) (low high : ℕ) (text : String) : Bool :=
  decide (low ≤ text.length) && decide (text.length ≤ high) && text.toList.all cls

end AgentPlatform
