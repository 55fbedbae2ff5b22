import Mathlib.Data.List.Basic
import Mathlib.Data.Rat.Lemmas
import AgentPlatform.Lib.Outcome

/-!
# JSON as Python reads and writes it

`loads` is `json.loads` of a text with the hooks `parse_float`, `parse_constant` and `object_pairs_hook`, `dumps` is
`json.dumps` without `ensure_ascii` and `allow_nan`. A text may hold lone surrogates, for an escape may name one. A
value is taken over any type of floats, so that `parse_float` can keep the literal: reading commutes with a map of the
floats (`loads_map`).
-/

namespace PyJson

open Outcome

/-- A character of a text: a Unicode scalar value, or a surrogate that stands alone. -/
inductive Code
  | char (c : Char)
  | surrogate (unit : Fin 0x800)
  deriving DecidableEq

abbrev Text := List Code

def ofString (s : String) : Text := s.toList.map .char

def Code.isChar : Code → Bool
  | char _ => true
  | surrogate _ => false

/-- `len(text.encode('utf-8'))`; a surrogate has no encoding. -/
def utf8Size : Text → Option ℕ
  | [] => some 0
  | .char c :: rest => (utf8Size rest).map (c.utf8Size + ·)
  | .surrogate _ :: _ => none

inductive Value (F : Type)
  | null
  | bool (b : Bool)
  | int (n : ℤ)
  | float (x : F)
  | str (s : Text)
  | arr (items : List (Value F))
  | obj (members : List (Text × Value F))

/-- What reading may raise. -/
inductive Error
  /-- `JSONDecodeError` -/
  | decode
  | recursion
  /-- The `ValueError` of a hook. -/
  | hook (message : String)
  /-- The `ValueError` of `int`, for too many digits. -/
  | digits
  deriving DecidableEq

/-! ### Texts -/

def isSpace : Code → Bool
  | .char c => c == ' ' || c == '\t' || c == '\n' || c == '\r'
  | .surrogate _ => false

def skip (rest : Text) : Text := rest.dropWhile isSpace

/-- What follows a word at the beginning of a text. -/
def after (word : String) (rest : Text) : Option Text :=
  if (ofString word).isPrefixOf rest then some (rest.drop word.length) else none

def hexDigit : Code → Option ℕ
  | .char c =>
    if '0' ≤ c ∧ c ≤ '9' then some (c.toNat - '0'.toNat)
    else if 'a' ≤ c ∧ c ≤ 'f' then some (c.toNat - 'a'.toNat + 10)
    else if 'A' ≤ c ∧ c ≤ 'F' then some (c.toNat - 'A'.toNat + 10)
    else none
  | .surrogate _ => none

/-- The unit that four hexadecimal digits name. -/
def hexUnit (a b c d : Code) : Option ℕ := do
  let a ← hexDigit a
  let b ← hexDigit b
  let c ← hexDigit c
  let d ← hexDigit d
  pure (((a * 16 + b) * 16 + c) * 16 + d)

/-- The character of a unit by itself. -/
def ofUnit (unit : ℕ) : Code :=
  if 0xD800 ≤ unit ∧ unit ≤ 0xDFFF then .surrogate (Fin.ofNat 0x800 (unit - 0xD800)) else .char (Char.ofNat unit)

/-- The character of two units, where they are a pair. -/
def ofPair (high low : ℕ) : Option Code :=
  if 0xD800 ≤ high ∧ high ≤ 0xDBFF ∧ 0xDC00 ≤ low ∧ low ≤ 0xDFFF then
    some (.char (Char.ofNat (0x10000 + (high - 0xD800) * 0x400 + (low - 0xDC00))))
  else none

def unescape : Char → Option Char
  | '"' => some '"'
  | '\\' => some '\\'
  | '/' => some '/'
  | 'b' => some '\x08'
  | 'f' => some '\x0c'
  | 'n' => some '\n'
  | 'r' => some '\r'
  | 't' => some '\t'
  | _ => none

def isControl : Code → Bool
  | .char c => decide (c.toNat < 32)
  | .surrogate _ => false

/-- A character of a string as it is written: itself, or the unit of an escape. -/
inductive Written
  | code (c : Code)
  | unit (n : ℕ)

/-- A string up to its closing mark, and what follows. -/
def scanWritten : Text → Except Error (List Written × Text)
  | [] => .error .decode
  | .char '"' :: rest => .ok ([], rest)
  | .char '\\' :: .char 'u' :: a :: b :: c :: d :: rest =>
    match hexUnit a b c d with
    | none => .error .decode
    | some n => (scanWritten rest).map fun p => (.unit n :: p.1, p.2)
  | .char '\\' :: .char c :: rest =>
    match unescape c with
    | none => .error .decode
    | some c => (scanWritten rest).map fun p => (.code (.char c) :: p.1, p.2)
  | .char '\\' :: _ => .error .decode
  | code :: rest => if isControl code then .error .decode else (scanWritten rest).map fun p => (.code code :: p.1, p.2)

/-- The characters of a string; two units that follow each other may be one. -/
def joined : List Written → Text
  | [] => []
  | .code c :: rest => c :: joined rest
  | .unit high :: .unit low :: rest =>
    match ofPair high low with
    | some c => c :: joined rest
    | none => ofUnit high :: joined (.unit low :: rest)
  | .unit n :: rest => ofUnit n :: joined rest

def scanString (rest : Text) : Except Error (Text × Text) := (scanWritten rest).map fun p => (joined p.1, p.2)

/-! ### Numbers -/

/-- A number as it is written. -/
structure Literal where
  negative : Bool
  whole : List Char
  fraction : Option (List Char)
  exponent : Option (Bool × List Char)
  deriving DecidableEq

/-- The decimal digits at the beginning of a text, and what follows. -/
def scanDigits : Text → List Char × Text
  | .char c :: rest => if c.isDigit then (c :: (scanDigits rest).1, (scanDigits rest).2) else ([], .char c :: rest)
  | rest => ([], rest)

def scanSign : Text → Bool × Text
  | .char '-' :: rest => (true, rest)
  | rest => (false, rest)

/-- `0`, or digits that do not begin with it. -/
def scanWhole (rest : Text) : Option (List Char × Text) :=
  match rest with
  | .char '0' :: rest => some (['0'], rest)
  | rest =>
    match scanDigits rest with
    | ([], _) => none
    | p => some p

def scanFraction (rest : Text) : Option (List Char) × Text :=
  match rest with
  | .char '.' :: later =>
    match scanDigits later with
    | ([], _) => (none, rest)
    | (digits, later) => (some digits, later)
  | rest => (none, rest)

def scanExponent (rest : Text) : Option (Bool × List Char) × Text :=
  match rest with
  | .char c :: later =>
    if c = 'e' ∨ c = 'E' then
      let (negative, later) := match later with
        | .char '+' :: later => (false, later)
        | later => scanSign later
      match scanDigits later with
      | ([], _) => (none, rest)
      | (digits, later) => (some (negative, digits), later)
    else (none, rest)
  | rest => (none, rest)

def scanLiteral (rest : Text) : Option (Literal × Text) :=
  let (negative, rest) := scanSign rest
  (scanWhole rest).map fun (whole, rest) =>
    let (fraction, rest) := scanFraction rest
    let (exponent, rest) := scanExponent rest
    (⟨negative, whole, fraction, exponent⟩, rest)

def Literal.isFloat (l : Literal) : Bool := l.fraction.isSome || l.exponent.isSome

/-- `sys.get_int_max_str_digits()`. -/
def maxDigits : ℕ := 4300

/-- An integer that has no more digits than that. -/
def Short (n : ℤ) : Prop := n.natAbs < 10 ^ maxDigits

instance (n : ℤ) : Decidable (Short n) := inferInstanceAs (Decidable (n.natAbs < 10 ^ maxDigits))

/-- `int` of a literal. -/
def Literal.toInt (l : Literal) : Except Error ℤ :=
  if maxDigits < l.whole.length then .error .digits
  else
    let n : ℤ := Nat.ofDigitChars 10 l.whole 0
    .ok (if l.negative then -n else n)

/-- The number without its sign. -/
def Literal.magnitude (l : Literal) : ℚ :=
  let fraction := l.fraction.getD []
  let mantissa : ℚ := Nat.ofDigitChars 10 (l.whole ++ fraction) 0 / 10 ^ fraction.length
  match l.exponent with
  | none => mantissa
  | some (true, digits) => mantissa / 10 ^ Nat.ofDigitChars 10 digits 0
  | some (false, digits) => mantissa * 10 ^ Nat.ofDigitChars 10 digits 0

/-! ### Values -/

variable {F G : Type}

/-- The hooks of `loads`. -/
structure Hooks (F : Type) where
  parseFloat : Literal → F
  /-- `parse_constant`, of `NaN`, `Infinity` and `-Infinity`. -/
  parseConstant : String → Except String F
  /-- `object_pairs_hook`, where it returns a dictionary: the keys it refuses. -/
  pairs : List Text → Except String Unit

def raised {α : Type} (x : Except String α) : Except Error α := x.mapError .hook

/-- The items of an array, up to its end; each takes a character at least, so that the length of the text is enough. -/
def scanItems (scan : Text → Except Error (Value F × Text)) : ℕ → Text → Except Error (List (Value F) × Text)
  | 0, _ => .error .decode
  | n + 1, rest => do
    let (value, rest) ← scan rest
    match skip rest with
    | .char ']' :: rest => pure ([value], rest)
    | .char ',' :: rest => do
      let (values, rest) ← scanItems scan n (skip rest)
      pure (value :: values, rest)
    | _ => .error .decode

/-- The members of an object, up to its end. -/
def scanMembers (scan : Text → Except Error (Value F × Text)) :
    ℕ → Text → Except Error (List (Text × Value F) × Text)
  | n + 1, .char '"' :: rest => do
    let (key, rest) ← scanString rest
    match skip rest with
    | .char ':' :: rest => do
      let (value, rest) ← scan (skip rest)
      match skip rest with
      | .char '\x7d' :: rest => pure ([(key, value)], rest)
      | .char ',' :: rest => do
        let (members, rest) ← scanMembers scan n (skip rest)
        pure ((key, value) :: members, rest)
      | _ => .error .decode
    | _ => .error .decode
  | _, _ => .error .decode

/-- A number. -/
def scanNumber (hooks : Hooks F) (rest : Text) : Except Error (Value F × Text) := do
  let (literal, rest) ← need (scanLiteral rest) .decode
  if literal.isFloat then pure (.float (hooks.parseFloat literal), rest)
  else do
    let n ← literal.toInt
    pure (.int n, rest)

/-- A word, or a number. -/
def scanWord (hooks : Hooks F) (rest : Text) : Except Error (Value F × Text) :=
  match after "null" rest, after "true" rest, after "false" rest with
  | some rest, _, _ => .ok (.null, rest)
  | _, some rest, _ => .ok (.bool true, rest)
  | _, _, some rest => .ok (.bool false, rest)
  | none, none, none =>
    match ["NaN", "Infinity", "-Infinity"].findSome? fun word => (after word rest).map fun rest => (word, rest) with
    | some (word, rest) => do
      let x ← raised (hooks.parseConstant word)
      pure (.float x, rest)
    | none => scanNumber hooks rest

/-- A value, whose items and members are read with `scan`; without it there is no going into an array or object. -/
def scanWith (hooks : Hooks F) (scan : Option (Text → Except Error (Value F × Text))) (rest : Text) :
    Except Error (Value F × Text) :=
  match rest with
  | .char '"' :: rest => (scanString rest).map fun p => (.str p.1, p.2)
  | .char '[' :: rest => do
    let scan ← need scan .recursion
    match skip rest with
    | .char ']' :: rest => pure (.arr [], rest)
    | rest => do
      let (items, rest) ← scanItems scan rest.length rest
      pure (.arr items, rest)
  | .char '\x7b' :: rest => do
    let scan ← need scan .recursion
    match skip rest with
    | .char '\x7d' :: rest => do
      raised (hooks.pairs [])
      pure (.obj [], rest)
    | rest => do
      let (members, rest) ← scanMembers scan rest.length rest
      raised (hooks.pairs (members.map Prod.fst))
      pure (.obj members, rest)
  | rest => scanWord hooks rest

/-- `scan_once`, into `limit` levels of arrays and objects. -/
def scanOnce (hooks : Hooks F) : ℕ → Text → Except Error (Value F × Text)
  | 0 => scanWith hooks none
  | limit + 1 => scanWith hooks (some (scanOnce hooks limit))

/-- `json.loads`. -/
def loads (limit : ℕ) (hooks : Hooks F) (text : Text) : Except Error (Value F) := do
  ensure (text.head? ≠ some (.char '\uFEFF')) Error.decode
  let (value, rest) ← scanOnce hooks limit (skip text)
  ensure (skip rest = []) Error.decode
  pure value

/-! ### Writing -/

/-- A hexadecimal digit, in lower case. -/
def writeEscape (c : Char) : Text :=
  match c with
  | '"' => ofString "\\\""
  | '\\' => ofString "\\\\"
  | '\n' => ofString "\\n"
  | '\r' => ofString "\\r"
  | '\t' => ofString "\\t"
  | '\x08' => ofString "\\b"
  | '\x0c' => ofString "\\f"
  | c =>
    if c.toNat < 32 then
      ofString "\\u00" ++ [.char (Nat.digitChar (c.toNat / 16)), .char (Nat.digitChar (c.toNat % 16))]
    else [.char c]

def writeCode : Code → Text
  | .char c => writeEscape c
  | .surrogate unit => [.surrogate unit]

def quote (s : Text) : Text := .char '"' :: (s.flatMap writeCode ++ [.char '"'])

mutual

/-- `json.dumps(value, ensure_ascii=False, allow_nan=False)`, with the text of a float where it is finite; an integer
of too many digits has no text. -/
def dumps (repr : F → Option Text) : Value F → Option Text
  | .null => some (ofString "null")
  | .bool true => some (ofString "true")
  | .bool false => some (ofString "false")
  | .int n => if Short n then some (ofString (toString n)) else none
  | .float x => repr x
  | .str s => some (quote s)
  | .arr items => (dumpsItems repr items).map fun parts =>
    .char '[' :: ((ofString ", ").intercalate parts ++ [.char ']'])
  | .obj members => (dumpsMembers repr members).map fun parts =>
    .char '\x7b' :: ((ofString ", ").intercalate parts ++ [.char '\x7d'])

def dumpsItems (repr : F → Option Text) : List (Value F) → Option (List Text)
  | [] => some []
  | item :: items => do
    let part ← dumps repr item
    let parts ← dumpsItems repr items
    pure (part :: parts)

def dumpsMembers (repr : F → Option Text) : List (Text × Value F) → Option (List Text)
  | [] => some []
  | (key, value) :: members => do
    let part ← dumps repr value
    let parts ← dumpsMembers repr members
    pure ((quote key ++ ofString ": " ++ part) :: parts)

end

/-! ### Shape -/

mutual

/-- How deep the deepest part of a value lies in it. -/
def Value.depth : Value F → ℕ
  | .arr items => itemsDepth items
  | .obj members => membersDepth members
  | _ => 0

def itemsDepth : List (Value F) → ℕ
  | [] => 0
  | item :: items => max (item.depth + 1) (itemsDepth items)

def membersDepth : List (Text × Value F) → ℕ
  | [] => 0
  | (_, value) :: members => max (value.depth + 1) (membersDepth members)

end

mutual

/-- How many parts a value has, itself among them. -/
def Value.nodes : Value F → ℕ
  | .arr items => itemsNodes items + 1
  | .obj members => membersNodes members + 1
  | _ => 1

def itemsNodes : List (Value F) → ℕ
  | [] => 0
  | item :: items => item.nodes + itemsNodes items

def membersNodes : List (Text × Value F) → ℕ
  | [] => 0
  | (_, value) :: members => value.nodes + membersNodes members

end

mutual

/-- All floats and all integers of a value are of a kind. -/
def Value.Numbers (p : F → Prop) (q : ℤ → Prop) : Value F → Prop
  | .int n => q n
  | .float x => p x
  | .arr items => itemsNumbers p q items
  | .obj members => membersNumbers p q members
  | _ => True

def itemsNumbers (p : F → Prop) (q : ℤ → Prop) : List (Value F) → Prop
  | [] => True
  | item :: items => item.Numbers p q ∧ itemsNumbers p q items

def membersNumbers (p : F → Prop) (q : ℤ → Prop) : List (Text × Value F) → Prop
  | [] => True
  | (_, value) :: members => value.Numbers p q ∧ membersNumbers p q members

end

mutual

/-- No text of a value has a lone surrogate. -/
def Value.Encodable : Value F → Prop
  | .str s => s.all Code.isChar = true
  | .arr items => itemsEncodable items
  | .obj members => membersEncodable members
  | _ => True

def itemsEncodable : List (Value F) → Prop
  | [] => True
  | item :: items => item.Encodable ∧ itemsEncodable items

def membersEncodable : List (Text × Value F) → Prop
  | [] => True
  | (key, value) :: members => (key.all Code.isChar = true ∧ value.Encodable) ∧ membersEncodable members

end

mutual

/-- A value with its floats replaced. -/
def Value.map (f : F → G) : Value F → Value G
  | .null => .null
  | .bool b => .bool b
  | .int n => .int n
  | .float x => .float (f x)
  | .str s => .str s
  | .arr items => .arr (mapItems f items)
  | .obj members => .obj (mapMembers f members)

def mapItems (f : F → G) : List (Value F) → List (Value G)
  | [] => []
  | item :: items => item.map f :: mapItems f items

def mapMembers (f : F → G) : List (Text × Value F) → List (Text × Value G)
  | [] => []
  | (key, value) :: members => (key, value.map f) :: mapMembers f members

end

/-! ### What is written -/

section Writing

variable {repr : F → Option Text}

mutual

theorem dumps_isSome_iff : (v : Value F) → ((dumps repr v).isSome = true ↔
    v.Numbers (fun x => (repr x).isSome = true) Short)
  | .null | .bool true | .bool false | .str _ => ⟨fun _ => trivial, fun _ => rfl⟩
  | .int n => by
    rw [dumps, Value.Numbers]
    split_ifs with h <;> simp [h]
  | .float x => Iff.rfl
  | .arr items => by
    rw [dumps, Option.isSome_map, dumpsItems_isSome_iff items, Value.Numbers]
  | .obj members => by
    rw [dumps, Option.isSome_map, dumpsMembers_isSome_iff members, Value.Numbers]

theorem dumpsItems_isSome_iff : (items : List (Value F)) → ((dumpsItems repr items).isSome = true ↔
    itemsNumbers (fun x => (repr x).isSome = true) Short items)
  | [] => ⟨fun _ => trivial, fun _ => rfl⟩
  | item :: items => by
    rw [itemsNumbers, ← dumps_isSome_iff item, ← dumpsItems_isSome_iff items, dumpsItems]
    cases dumps repr item <;> cases dumpsItems repr items <;> simp

theorem dumpsMembers_isSome_iff : (members : List (Text × Value F)) → ((dumpsMembers repr members).isSome = true ↔
    membersNumbers (fun x => (repr x).isSome = true) Short members)
  | [] => ⟨fun _ => trivial, fun _ => rfl⟩
  | (key, value) :: members => by
    rw [membersNumbers, ← dumps_isSome_iff value, ← dumpsMembers_isSome_iff members, dumpsMembers]
    cases dumps repr value <;> cases dumpsMembers repr members <;> simp

end

theorem isChar_ofString (s : String) : (ofString s).all Code.isChar = true := by
  simp [ofString, Code.isChar]

theorem isChar_writeEscape (c : Char) : (writeEscape c).all Code.isChar = true := by
  unfold writeEscape
  split
  all_goals first
    | exact isChar_ofString _
    | skip
  split_ifs
  · rw [List.all_append, isChar_ofString]
    rfl
  · rfl

theorem isChar_writeCode (code : Code) : (writeCode code).all Code.isChar = code.isChar := by
  cases code with
  | char c => exact isChar_writeEscape c
  | surrogate unit => rfl

theorem isChar_quote (s : Text) : (quote s).all Code.isChar = s.all Code.isChar := by
  have hbody : (s.flatMap writeCode).all Code.isChar = s.all Code.isChar := by
    rw [List.all_flatMap]
    exact List.all_congr rfl fun code => isChar_writeCode code
  rw [quote, List.all_cons, List.all_append, hbody]
  simp [Code.isChar]

theorem isChar_intercalate (parts : List Text) :
    ((ofString ", ").intercalate parts).all Code.isChar = parts.all fun part => part.all Code.isChar := by
  induction parts with
  | nil => rfl
  | cons part parts ih =>
    cases parts with
    | nil => simp
    | cons part' parts =>
      rw [List.intercalate_cons_cons, List.all_append, List.all_append, ih, isChar_ofString, List.all_cons]
      simp

mutual

/-- What is written of a value can be encoded exactly where its texts can. -/
theorem isChar_dumps (hrepr : ∀ x text, repr x = some text → text.all Code.isChar = true) :
    (v : Value F) → (text : Text) → dumps repr v = some text → (text.all Code.isChar = true ↔ v.Encodable)
  | .null, text | .bool true, text | .bool false, text => by
    intro h
    obtain rfl := Option.some.inj h
    exact ⟨fun _ => trivial, fun _ => isChar_ofString _⟩
  | .int n, text => by
    intro h
    rw [dumps, Option.ite_none_right_eq_some] at h
    obtain rfl := Option.some.inj h.2
    exact ⟨fun _ => trivial, fun _ => isChar_ofString _⟩
  | .float x, text => fun h => ⟨fun _ => trivial, fun _ => hrepr x text h⟩
  | .str s, text => by
    intro h
    obtain rfl := Option.some.inj h
    rw [isChar_quote, Value.Encodable]
  | .arr items, text => by
    intro h
    obtain ⟨parts, hparts, rfl⟩ := Option.map_eq_some_iff.1 h
    rw [Value.Encodable, ← isChar_dumpsItems hrepr items parts hparts, List.all_cons, List.all_append,
      isChar_intercalate]
    simp [Code.isChar]
  | .obj members, text => by
    intro h
    obtain ⟨parts, hparts, rfl⟩ := Option.map_eq_some_iff.1 h
    rw [Value.Encodable, ← isChar_dumpsMembers hrepr members parts hparts, List.all_cons, List.all_append,
      isChar_intercalate]
    simp [Code.isChar]

theorem isChar_dumpsItems (hrepr : ∀ x text, repr x = some text → text.all Code.isChar = true) :
    (items : List (Value F)) → ∀ parts, dumpsItems repr items = some parts →
      ((parts.all fun part => part.all Code.isChar) = true ↔ itemsEncodable items)
  | [], parts, h => by
    obtain rfl := Option.some.inj h
    exact ⟨fun _ => trivial, fun _ => rfl⟩
  | item :: items, parts, h => by
    simp only [dumpsItems, Option.bind_eq_bind, Option.bind_eq_some_iff, Option.pure_def, Option.some.injEq] at h
    obtain ⟨part, hpart, rest, hrest, rfl⟩ := h
    rw [itemsEncodable, ← isChar_dumps hrepr item part hpart, ← isChar_dumpsItems hrepr items rest hrest,
      List.all_cons, Bool.and_eq_true]

theorem isChar_dumpsMembers (hrepr : ∀ x text, repr x = some text → text.all Code.isChar = true) :
    (members : List (Text × Value F)) → ∀ parts, dumpsMembers repr members = some parts →
      ((parts.all fun part => part.all Code.isChar) = true ↔ membersEncodable members)
  | [], parts, h => by
    obtain rfl := Option.some.inj h
    exact ⟨fun _ => trivial, fun _ => rfl⟩
  | (key, value) :: members, parts, h => by
    simp only [dumpsMembers, Option.bind_eq_bind, Option.bind_eq_some_iff, Option.pure_def, Option.some.injEq] at h
    obtain ⟨part, hpart, rest, hrest, rfl⟩ := h
    rw [membersEncodable, ← isChar_dumps hrepr value part hpart, ← isChar_dumpsMembers hrepr members rest hrest,
      List.all_cons, List.all_append, List.all_append, isChar_quote, isChar_ofString]
    simp

end

theorem utf8Size_isSome_iff (text : Text) : (utf8Size text).isSome = true ↔ text.all Code.isChar = true := by
  induction text with
  | nil => exact ⟨fun _ => rfl, fun _ => rfl⟩
  | cons code text ih =>
    cases code with
    | char c =>
      rw [utf8Size, Option.isSome_map, ih]
      simp [Code.isChar]
    | surrogate unit => simp [utf8Size, Code.isChar]

end Writing

/-! ### The numbers of a value -/

section Numbers

variable {p p' : F → Prop} {q q' : ℤ → Prop}

mutual

theorem numbers_and : (v : Value F) →
    (v.Numbers (fun x => p x ∧ p' x) (fun n => q n ∧ q' n) ↔ v.Numbers p q ∧ v.Numbers p' q')
  | .null | .bool _ | .str _ => ⟨fun _ => ⟨trivial, trivial⟩, fun _ => trivial⟩
  | .int _ | .float _ => Iff.rfl
  | .arr items => itemsNumbers_and items
  | .obj members => membersNumbers_and members

theorem itemsNumbers_and : (items : List (Value F)) →
    (itemsNumbers (fun x => p x ∧ p' x) (fun n => q n ∧ q' n) items ↔ itemsNumbers p q items ∧ itemsNumbers p' q' items)
  | [] => ⟨fun _ => ⟨trivial, trivial⟩, fun _ => trivial⟩
  | item :: items => (and_congr (numbers_and item) (itemsNumbers_and items)).trans and_and_and_comm

theorem membersNumbers_and : (members : List (Text × Value F)) →
    (membersNumbers (fun x => p x ∧ p' x) (fun n => q n ∧ q' n) members ↔
      membersNumbers p q members ∧ membersNumbers p' q' members)
  | [] => ⟨fun _ => ⟨trivial, trivial⟩, fun _ => trivial⟩
  | (_, value) :: members => (and_congr (numbers_and value) (membersNumbers_and members)).trans and_and_and_comm

end

variable {v : Value F}

theorem numbers_iff : v.Numbers p q ↔ v.Numbers p (fun _ => True) ∧ v.Numbers (fun _ => True) q := by
  rw [← numbers_and]
  simp only [and_true, true_and]

variable {digits : List Char}

theorem ofDigitChars_lt (h : digits.all Char.isDigit = true) (n : ℕ) :
    Nat.ofDigitChars 10 digits n < (n + 1) * 10 ^ digits.length := by
  induction digits generalizing n with
  | nil => simp
  | cons c digits ih =>
    obtain ⟨hc, hrest⟩ := (Bool.and_eq_true _ _).mp (List.all_cons ▸ h)
    have hdigit : c.toNat - '0'.toNat ≤ 9 := by
      have hle := (Char.isDigit_iff_toNat.1 hc).2
      have h0 : '0'.toNat = 48 := rfl
      have h9 : '9'.toNat = 57 := rfl
      omega
    rw [Nat.ofDigitChars_cons, List.length_cons, pow_succ']
    calc Nat.ofDigitChars 10 digits (10 * n + (c.toNat - '0'.toNat))
        < (10 * n + (c.toNat - '0'.toNat) + 1) * 10 ^ digits.length := ih hrest _
      _ ≤ ((n + 1) * 10) * 10 ^ digits.length := Nat.mul_le_mul_right _ (by omega)
      _ = (n + 1) * (10 * 10 ^ digits.length) := Nat.mul_assoc ..

theorem isDigit_scanDigits (rest : Text) : (scanDigits rest).1.all Char.isDigit = true := by
  induction rest with
  | nil => rfl
  | cons code rest ih =>
    cases code with
    | char c =>
      rw [scanDigits]
      split_ifs with hc
      · rw [List.all_cons, hc, ih]
        rfl
      · rfl
    | surrogate unit => rfl

variable {later rest : Text}

theorem isDigit_scanWhole (h : scanWhole rest = some (digits, later)) : digits.all Char.isDigit = true := by
  unfold scanWhole at h
  split at h
  · obtain ⟨rfl, -⟩ := Prod.mk.inj (Option.some.inj h)
    rfl
  · split at h
    · cases h
    · have hdigits := isDigit_scanDigits rest
      rwa [Option.some.inj h] at hdigits

theorem isDigit_scanLiteral {l : Literal} (h : scanLiteral rest = some (l, later)) :
    l.whole.all Char.isDigit = true := by
  obtain ⟨⟨whole, rest'⟩, hwhole, hl⟩ := Option.map_eq_some_iff.1 h
  obtain ⟨rfl, -⟩ := Prod.mk.inj hl
  exact isDigit_scanWhole hwhole

theorem read_lt (h : digits.all Char.isDigit = true) {most : ℕ} (hlen : ¬most < digits.length) :
    Nat.ofDigitChars 10 digits 0 < 10 ^ most := by
  have hlt := ofDigitChars_lt h 0
  rw [zero_add, one_mul] at hlt
  exact hlt.trans_le (Nat.pow_le_pow_right Nat.succ_pos' (not_lt.1 hlen))

theorem short_of_digits (h : digits.all Char.isDigit = true) (hlen : ¬maxDigits < digits.length) :
    Short (Nat.ofDigitChars 10 digits 0) := by
  unfold Short
  rw [Int.natAbs_natCast]
  exact read_lt h hlen

theorem short_neg {n : ℤ} : Short (-n) ↔ Short n := by
  rw [Short, Int.natAbs_neg, Short]

theorem short_of_toInt {l : Literal} {n : ℤ} (hl : l.whole.all Char.isDigit = true) (h : l.toInt = .ok n) :
    Short n := by
  unfold Literal.toInt at h
  split_ifs at h with hlen hneg
  · obtain rfl := Except.ok.inj h
    exact short_neg.2 (short_of_digits hl hlen)
  · obtain rfl := Except.ok.inj h
    exact short_of_digits hl hlen

variable {scan : Text → Except Error (Value F × Text)}

theorem numbers_scanItems (h : ∀ rest v later, scan rest = .ok (v, later) → v.Numbers p q) {n : ℕ}
    {items : List (Value F)} (hscan : scanItems scan n rest = .ok (items, later)) :
    itemsNumbers p q items := by
  induction n generalizing rest items later with
  | zero => cases hscan
  | succ n ih =>
    rw [scanItems] at hscan
    obtain ⟨⟨value, rest'⟩, hvalue, hscan⟩ := bind_eq_ok.1 hscan
    have hone := h _ _ _ hvalue
    dsimp only at hscan
    split at hscan
    · obtain ⟨rfl, -⟩ := Prod.mk.inj (pure_eq_ok.1 hscan)
      exact ⟨hone, trivial⟩
    · obtain ⟨⟨values, rest''⟩, hvalues, hscan⟩ := bind_eq_ok.1 hscan
      obtain ⟨rfl, -⟩ := Prod.mk.inj (pure_eq_ok.1 hscan)
      exact ⟨hone, ih hvalues⟩
    · cases hscan

theorem numbers_scanMembers (h : ∀ rest v later, scan rest = .ok (v, later) → v.Numbers p q) {n : ℕ}
    {members : List (Text × Value F)} (hscan : scanMembers scan n rest = .ok (members, later)) :
    membersNumbers p q members := by
  induction n generalizing rest members later with
  | zero => cases hscan
  | succ n ih =>
    unfold scanMembers at hscan
    split at hscan
    · rename_i m rest heq
      obtain rfl : n = m := Nat.succ.inj heq
      obtain ⟨⟨key, rest'⟩, -, hscan⟩ := bind_eq_ok.1 hscan
      dsimp only at hscan
      split at hscan
      · obtain ⟨⟨value, rest''⟩, hvalue, hscan⟩ := bind_eq_ok.1 hscan
        have hone := h _ _ _ hvalue
        dsimp only at hscan
        split at hscan
        · obtain ⟨rfl, -⟩ := Prod.mk.inj (pure_eq_ok.1 hscan)
          exact ⟨hone, trivial⟩
        · obtain ⟨⟨values, rest'''⟩, hvalues, hscan⟩ := bind_eq_ok.1 hscan
          obtain ⟨rfl, -⟩ := Prod.mk.inj (pure_eq_ok.1 hscan)
          exact ⟨hone, ih hvalues⟩
        · cases hscan
      · cases hscan
    · cases hscan

/-- What the hooks give, and the integers that are read, are of a kind. -/
structure Hooks.Reads (hooks : Hooks F) (p : F → Prop) (q : ℤ → Prop) : Prop where
  float : ∀ l, p (hooks.parseFloat l)
  constant : ∀ word x, hooks.parseConstant word = .ok x → p x
  int : ∀ l : Literal, ∀ n, l.whole.all Char.isDigit = true → l.toInt = .ok n → q n

variable {hooks : Hooks F}

theorem numbers_scanNumber (hk : hooks.Reads p q) (hscan : scanNumber hooks rest = .ok (v, later)) :
    v.Numbers p q := by
  obtain ⟨⟨literal, rest'⟩, hliteral, hscan⟩ := bind_eq_ok.1 hscan
  dsimp only at hscan
  split_ifs at hscan
  · obtain ⟨rfl, -⟩ := Prod.mk.inj (pure_eq_ok.1 hscan)
    exact hk.float literal
  · obtain ⟨n, hn, hscan⟩ := bind_eq_ok.1 hscan
    obtain ⟨rfl, -⟩ := Prod.mk.inj (pure_eq_ok.1 hscan)
    exact hk.int literal n (isDigit_scanLiteral (need_eq_ok.1 hliteral)) hn

theorem numbers_scanWord (hk : hooks.Reads p q) (hscan : scanWord hooks rest = .ok (v, later)) :
    v.Numbers p q := by
  unfold scanWord at hscan
  split at hscan
  · obtain ⟨rfl, -⟩ := Prod.mk.inj (Except.ok.inj hscan)
    trivial
  · obtain ⟨rfl, -⟩ := Prod.mk.inj (Except.ok.inj hscan)
    trivial
  · obtain ⟨rfl, -⟩ := Prod.mk.inj (Except.ok.inj hscan)
    trivial
  · split at hscan
    · rename_i word later _
      obtain ⟨x, hx, hscan⟩ := bind_eq_ok.1 hscan
      obtain ⟨rfl, -⟩ := Prod.mk.inj (pure_eq_ok.1 hscan)
      refine hk.constant word x ?_
      cases hword : hooks.parseConstant word with
      | error e => simp [raised, Except.mapError, hword] at hx
      | ok y => simpa [raised, Except.mapError, hword] using hx
    · exact numbers_scanNumber hk hscan

theorem numbers_scanWith (hk : hooks.Reads p q) {inner : Option (Text → Except Error (Value F × Text))}
    (h : ∀ scan, inner = some scan → ∀ rest v later, scan rest = .ok (v, later) → v.Numbers p q)
    (hscan : scanWith hooks inner rest = .ok (v, later)) : v.Numbers p q := by
  unfold scanWith at hscan
  split at hscan
  · obtain ⟨s, -, hs⟩ := map_eq_ok.1 hscan
    obtain ⟨rfl, -⟩ := Prod.mk.inj hs
    trivial
  · obtain ⟨scan, hinner, hscan⟩ := bind_eq_ok.1 hscan
    dsimp only at hscan
    split at hscan
    · obtain ⟨rfl, -⟩ := Prod.mk.inj (pure_eq_ok.1 hscan)
      trivial
    · obtain ⟨⟨items, rest'⟩, hitems, hscan⟩ := bind_eq_ok.1 hscan
      obtain ⟨rfl, -⟩ := Prod.mk.inj (pure_eq_ok.1 hscan)
      exact numbers_scanItems (h scan (need_eq_ok.1 hinner)) hitems
  · obtain ⟨scan, hinner, hscan⟩ := bind_eq_ok.1 hscan
    dsimp only at hscan
    split at hscan
    · obtain ⟨_, -, hscan⟩ := bind_eq_ok.1 hscan
      obtain ⟨rfl, -⟩ := Prod.mk.inj (pure_eq_ok.1 hscan)
      trivial
    · obtain ⟨⟨members, rest'⟩, hmembers, hscan⟩ := bind_eq_ok.1 hscan
      obtain ⟨_, -, hscan⟩ := bind_eq_ok.1 hscan
      obtain ⟨rfl, -⟩ := Prod.mk.inj (pure_eq_ok.1 hscan)
      exact numbers_scanMembers (h scan (need_eq_ok.1 hinner)) hmembers
  · exact numbers_scanWord hk hscan

theorem numbers_scanOnce (hk : hooks.Reads p q) {limit : ℕ}
    (hscan : scanOnce hooks limit rest = .ok (v, later)) : v.Numbers p q := by
  induction limit generalizing rest later v with
  | zero =>
    refine numbers_scanWith hk (fun scan h => ?_) hscan
    cases h
  | succ limit ih =>
    refine numbers_scanWith hk (fun scan h => ?_) hscan
    obtain rfl := Option.some.inj h
    exact fun _ _ _ => ih

theorem numbers_loads (hk : hooks.Reads p q) {limit : ℕ} {text : Text} (h : loads limit hooks text = .ok v) :
    v.Numbers p q := by
  obtain ⟨_, -, h⟩ := bind_eq_ok.1 h
  obtain ⟨⟨value, rest⟩, hscan, h⟩ := bind_eq_ok.1 h
  obtain ⟨_, -, h⟩ := bind_eq_ok.1 h
  obtain rfl := pure_eq_ok.1 h
  exact numbers_scanOnce hk hscan

end Numbers

/-! ### Floats that are replaced -/

section Replaced

variable {f : F → G} {p : G → Prop} {q : ℤ → Prop}

mutual

theorem depth_map : (v : Value F) → (v.map f).depth = v.depth
  | .null | .bool _ | .int _ | .float _ | .str _ => rfl
  | .arr items => itemsDepth_map items
  | .obj members => membersDepth_map members

theorem itemsDepth_map : (items : List (Value F)) → itemsDepth (mapItems f items) = itemsDepth items
  | [] => rfl
  | item :: items => by rw [mapItems, itemsDepth, itemsDepth, depth_map item, itemsDepth_map items]

theorem membersDepth_map :
    (members : List (Text × Value F)) → membersDepth (mapMembers f members) = membersDepth members
  | [] => rfl
  | (key, value) :: members => by rw [mapMembers, membersDepth, membersDepth, depth_map value, membersDepth_map members]

end

mutual

theorem nodes_map : (v : Value F) → (v.map f).nodes = v.nodes
  | .null | .bool _ | .int _ | .float _ | .str _ => rfl
  | .arr items => congrArg (· + 1) (itemsNodes_map items)
  | .obj members => congrArg (· + 1) (membersNodes_map members)

theorem itemsNodes_map : (items : List (Value F)) → itemsNodes (mapItems f items) = itemsNodes items
  | [] => rfl
  | item :: items => by rw [mapItems, itemsNodes, itemsNodes, nodes_map item, itemsNodes_map items]

theorem membersNodes_map :
    (members : List (Text × Value F)) → membersNodes (mapMembers f members) = membersNodes members
  | [] => rfl
  | (key, value) :: members => by rw [mapMembers, membersNodes, membersNodes, nodes_map value, membersNodes_map members]

end

mutual

theorem numbers_map : (v : Value F) → ((v.map f).Numbers p q ↔ v.Numbers (fun x => p (f x)) q)
  | .null | .bool _ | .int _ | .float _ | .str _ => Iff.rfl
  | .arr items => itemsNumbers_map items
  | .obj members => membersNumbers_map members

theorem itemsNumbers_map :
    (items : List (Value F)) → (itemsNumbers p q (mapItems f items) ↔ itemsNumbers (fun x => p (f x)) q items)
  | [] => Iff.rfl
  | item :: items => and_congr (numbers_map item) (itemsNumbers_map items)

theorem membersNumbers_map : (members : List (Text × Value F)) →
    (membersNumbers p q (mapMembers f members) ↔ membersNumbers (fun x => p (f x)) q members)
  | [] => Iff.rfl
  | (_, value) :: members => and_congr (numbers_map value) (membersNumbers_map members)

end

mutual

theorem encodable_map : (v : Value F) → ((v.map f).Encodable ↔ v.Encodable)
  | .null | .bool _ | .int _ | .float _ | .str _ => Iff.rfl
  | .arr items => itemsEncodable_map items
  | .obj members => membersEncodable_map members

theorem itemsEncodable_map : (items : List (Value F)) → (itemsEncodable (mapItems f items) ↔ itemsEncodable items)
  | [] => Iff.rfl
  | item :: items => and_congr (encodable_map item) (itemsEncodable_map items)

theorem membersEncodable_map :
    (members : List (Text × Value F)) → (membersEncodable (mapMembers f members) ↔ membersEncodable members)
  | [] => Iff.rfl
  | (_, value) :: members => and_congr (and_congr Iff.rfl (encodable_map value)) (membersEncodable_map members)

end

theorem keys_map (members : List (Text × Value F)) :
    (mapMembers f members).map Prod.fst = members.map Prod.fst := by
  induction members with
  | nil => rfl
  | cons m members ih =>
    obtain ⟨key, value⟩ := m
    rw [mapMembers, List.map_cons, List.map_cons, ih]

/-- The hooks whose floats are replaced. -/
def Hooks.map (f : F → G) (hooks : Hooks F) : Hooks G where
  parseFloat l := f (hooks.parseFloat l)
  parseConstant word := (hooks.parseConstant word).map f
  pairs := hooks.pairs

/-- What a scanner gives, with the floats replaced. -/
def scanned (f : F → G) (x : Except Error (Value F × Text)) : Except Error (Value G × Text) :=
  x.map fun p => (p.1.map f, p.2)

variable {scan : Text → Except Error (Value F × Text)} {scan' : Text → Except Error (Value G × Text)}

theorem scanItems_map (h : ∀ rest, scan' rest = scanned f (scan rest)) (n : ℕ) (rest : Text) :
    scanItems scan' n rest = (scanItems scan n rest).map fun p => (mapItems f p.1, p.2) := by
  induction n generalizing rest with
  | zero => rfl
  | succ n ih =>
    rw [scanItems, scanItems, h]
    cases scan rest with
    | error e => rfl
    | ok p =>
      obtain ⟨value, later⟩ := p
      simp only [scanned, Except.map, bind, Except.bind]
      split
      · rfl
      · rw [ih]
        cases scanItems scan n _ <;> rfl
      · rfl

theorem scanMembers_map (h : ∀ rest, scan' rest = scanned f (scan rest)) (n : ℕ) (rest : Text) :
    scanMembers scan' n rest = (scanMembers scan n rest).map fun p => (mapMembers f p.1, p.2) := by
  induction n generalizing rest with
  | zero => rfl
  | succ n ih =>
    unfold scanMembers
    split
    · rename_i m rest heq
      obtain rfl : n = m := Nat.succ.inj heq
      cases scanString rest with
      | error e => rfl
      | ok p =>
        obtain ⟨key, later⟩ := p
        simp only [bind, Except.bind]
        split
        · rw [h]
          cases scan _ with
          | error e => rfl
          | ok q =>
            obtain ⟨value, later⟩ := q
            simp only [scanned, Except.map]
            split
            · rfl
            · rw [ih]
              cases scanMembers scan n _ <;> rfl
            · rfl
        · rfl
    · rfl

theorem scanNumber_map (hooks : Hooks F) (rest : Text) :
    scanNumber (hooks.map f) rest = scanned f (scanNumber hooks rest) := by
  unfold scanNumber
  cases need (scanLiteral rest) Error.decode with
  | error e => rfl
  | ok p =>
    obtain ⟨literal, later⟩ := p
    simp only [bind, Except.bind]
    split_ifs
    · rfl
    · cases literal.toInt <;> rfl

theorem scanWord_map (hooks : Hooks F) (rest : Text) :
    scanWord (hooks.map f) rest = scanned f (scanWord hooks rest) := by
  unfold scanWord
  split
  · rfl
  · rfl
  · rfl
  · split
    · rename_i word later _
      simp only [Hooks.map]
      cases hooks.parseConstant word <;> rfl
    · exact scanNumber_map hooks rest

theorem scanWith_map (hooks : Hooks F) {inner : Option (Text → Except Error (Value F × Text))}
    {inner' : Option (Text → Except Error (Value G × Text))}
    (h : inner' = none ∧ inner = none ∨ ∃ scan scan', inner = some scan ∧ inner' = some scan' ∧
      ∀ rest, scan' rest = scanned f (scan rest)) (rest : Text) :
    scanWith (hooks.map f) inner' rest = scanned f (scanWith hooks inner rest) := by
  unfold scanWith
  split
  · cases scanString _ <;> rfl
  · obtain ⟨rfl, rfl⟩ | ⟨scan, scan', rfl, rfl, hscan⟩ := h
    · rfl
    · simp only [need, bind, Except.bind]
      split
      · rfl
      · rw [scanItems_map hscan]
        cases scanItems scan _ _ <;> rfl
  · obtain ⟨rfl, rfl⟩ | ⟨scan, scan', rfl, rfl, hscan⟩ := h
    · rfl
    · simp only [need, bind, Except.bind]
      split
      · simp only [Hooks.map]
        cases raised (hooks.pairs []) <;> rfl
      · rw [scanMembers_map hscan]
        cases scanMembers scan _ _ with
        | error e => rfl
        | ok p =>
          simp only [Except.map, Hooks.map, keys_map]
          cases raised (hooks.pairs (p.1.map Prod.fst)) <;> rfl
  · exact scanWord_map hooks rest

theorem scanOnce_map (hooks : Hooks F) (limit : ℕ) (rest : Text) :
    scanOnce (hooks.map f) limit rest = scanned f (scanOnce hooks limit rest) := by
  induction limit generalizing rest with
  | zero => exact scanWith_map hooks (.inl ⟨rfl, rfl⟩) rest
  | succ limit ih => exact scanWith_map hooks (.inr ⟨_, _, rfl, rfl, ih⟩) rest

theorem loads_map (f : F → G) (limit : ℕ) (hooks : Hooks F) (text : Text) :
    loads limit (hooks.map f) text = (loads limit hooks text).map (Value.map f) := by
  unfold loads
  rw [scanOnce_map]
  cases ensure (text.head? ≠ some (.char '\uFEFF')) Error.decode with
  | error e => rfl
  | ok u =>
    cases scanOnce hooks limit (skip text) with
    | error e => rfl
    | ok p =>
      obtain ⟨value, later⟩ := p
      simp only [scanned, Except.map, bind, Except.bind]
      cases ensure (skip later = []) Error.decode <;> rfl

end Replaced

end PyJson
