import AgentPlatform.Lib.Split
import Mathlib.Algebra.Group.Nat.Defs
import Mathlib.Data.Int.Notation
import Mathlib.Data.List.Nodup
import Mathlib.Data.Nat.Notation

/-!
# A part of YAML

A reader of the part of YAML that programs print line by line: comments, block mappings and block sequences whose entries
are more indented than what they belong to, and, on one line, double-quoted texts, decimal integers, and flow sequences and
flow mappings of these. It answers what a reader of YAML answers where it answers, and does not answer for a text that
holds anything else, a character that YAML takes as a line break or refuses, a key that does not stand for itself, a key
that is too long to be one, or a key twice.

What a printer needs: `quoted_flatMap`, with `writes_plain`, `writes_escape` and `writes_hex`, `integer_toDigits`,
`flowList_intercalate`, and for blocks `linesOf_ended`, `groups_flatMap`, `node_map` and `node_seq`.
-/

namespace Yaml

inductive Node
  | null
  | int (n : ℤ)
  | str (text : String)
  | seq (items : List Node)
  | map (entries : List (String × Node))

/-- The longest key. -/
def keyLimit : ℕ := 1024

/-! ### Scalars -/

/-- The value of a hexadecimal digit. -/
def hexValue (c : Char) : Option ℕ :=
  if c.isDigit then some (c.toNat - 48)
  else if 97 ≤ c.toNat ∧ c.toNat ≤ 102 then some (c.toNat - 87)
  else if 65 ≤ c.toNat ∧ c.toNat ≤ 70 then some (c.toNat - 55)
  else none

/-- The number that hexadecimal digits write, after the number `n`. -/
def hexOf : ℕ → List Char → Option ℕ
  | n, [] => some n
  | n, c :: rest => do hexOf (16 * n + (← hexValue c)) rest

/-- The character of a number, where it has one. -/
def charOf (code : ℕ) : Option Char := if code.isValidChar then some (Char.ofNat code) else none

/-- The escapes of one letter. -/
def escape : Char → Option Char
  | '0' => some '\x00'
  | 't' => some '\t'
  | 'n' => some '\n'
  | 'r' => some '\r'
  | '"' => some '"'
  | '/' => some '/'
  | '\\' => some '\\'
  | _ => none

/-- Where a reader stands in an escape; `hex left n` has read `n` and wants `left + 1` digits more. -/
inductive Pending
  | plain
  | slash
  | hex (left n : ℕ)

/-- How many digits a letter asks for after a backslash. -/
def hexLength : Char → Option ℕ
  | 'x' => some 2
  | 'u' => some 4
  | 'U' => some 8
  | _ => none

/-- The text up to its closing quote, and what is after it. -/
def quotedFrom : Pending → List Char → Option (List Char × List Char)
  | _, [] => none
  | .plain, c :: rest =>
    if c = '"' then some ([], rest)
    else if c = '\\' then quotedFrom .slash rest
    else (quotedFrom .plain rest).map fun r => (c :: r.1, r.2)
  | .slash, c :: rest =>
    match hexLength c, escape c with
    | some k, _ => quotedFrom (.hex (k - 1) 0) rest
    | none, some d => (quotedFrom .plain rest).map fun r => (d :: r.1, r.2)
    | none, none => none
  | .hex left n, c :: rest =>
    match hexValue c, left with
    | none, _ => none
    | some v, left + 1 => quotedFrom (.hex left (16 * n + v)) rest
    | some v, 0 =>
      match charOf (16 * n + v) with
      | none => none
      | some d => (quotedFrom .plain rest).map fun r => (d :: r.1, r.2)

/-- The text after an opening quote. -/
def quoted : List Char → Option (List Char × List Char) := quotedFrom .plain

/-- A decimal integer as it is printed, and what is after it. -/
def integer (text : List Char) : Option (ℕ × List Char) :=
  let digits := text.takeWhile Char.isDigit
  let n := Nat.ofDigitChars 10 digits 0
  if Nat.toDigits 10 n = digits then some (n, text.drop digits.length) else none

def scalar (text : List Char) : Option (Node × List Char) :=
  match text with
  | '"' :: rest => do
    let (text, rest) ← quoted rest
    some (.str (String.ofList text), rest)
  | _ => do
    let (n, rest) ← integer text
    some (.int n, rest)

/-! ### Flow collections -/

section Flow

variable {α : Type*}

/-- Elements up to a closing bracket, at most `fuel` of them. -/
def flowList (close : Char) (element : List Char → Option (α × List Char)) : ℕ → List Char → Option (List α × List Char)
  | 0, _ => none
  | fuel + 1, text => do
    let (x, rest) ← element text
    match rest with
    | [] => none
    | c :: rest =>
      if c = close then some ([x], rest)
      else if c = ',' ∧ rest.head? = some ' ' then do
        let (xs, rest) ← flowList close element fuel (rest.drop 1)
        some (x :: xs, rest)
      else none

end Flow

/-- `"key": value`. -/
def flowEntry (text : List Char) : Option ((String × Node) × List Char) :=
  match text with
  | '"' :: rest => do
    let (key, rest') ← quoted rest
    if keyLimit < text.length - rest'.length then none
    else
      match rest' with
      | ':' :: ' ' :: value => do
        let (value, rest) ← scalar value
        some ((String.ofList key, value), rest)
      | _ => none
  | _ => none

/-- What stands after a key on its line. -/
def flow (text : List Char) : Option (Node × List Char) :=
  match text with
  | '[' :: ']' :: rest => some (.seq [], rest)
  | '[' :: rest => do
    let (items, rest) ← flowList ']' scalar rest.length rest
    some (.seq items, rest)
  | '{' :: rest => do
    let (entries, rest) ← flowList '\x7d' flowEntry rest.length rest
    if (entries.map Prod.fst).Nodup then some (.map entries, rest) else none
  | _ => scalar text

/-! ### Blocks -/

structure Line where
  indent : ℕ
  content : List Char

/-- A character that stands for itself, or ends a line. -/
def isPrintable (c : Char) : Bool :=
  let n := c.toNat
  n == 10 || (0x20 ≤ n && n ≤ 0x7e) ||
    (0xa0 ≤ n && n != 0x2028 && n != 0x2029 && n != 0xfeff && n != 0xfffe && n != 0xffff)

/-- A line that is neither blank nor a comment. -/
def lineOf (text : List Char) : Option Line :=
  let content := text.dropWhile fun c => c == ' '
  if content = [] ∨ content.head? = some '#' then none else some ⟨text.length - content.length, content⟩

def linesOf (text : List Char) : List Line := (text.splitOnP fun c => c == '\n').filterMap lineOf

/-- The lines at an indent, each with the lines after it that are more indented; before them, the more indented lines that
come first. -/
def groups (m : ℕ) : List Line → Option (List Line × List (List Char × List Line))
  | [] => some ([], [])
  | line :: rest => do
    let (deeper, gs) ← groups m rest
    if line.indent = m then some ([], (line.content, deeper) :: gs)
    else if m < line.indent then some (line :: deeper, gs)
    else none

/-- A letter of a plain key. -/
def isKeyChar (c : Char) : Bool := ('a' ≤ c && c ≤ 'z') || c == '_'

/-- The plain words that stand for something else. -/
def reserved : List String := ["null", "true", "false", "yes", "no", "on", "off"]

/-- `key: value` on one line, or `key:` and lines that are more indented. -/
def blockEntry (nested : List Line → Option Node) (g : List Char × List Line) : Option (String × Node) :=
  let key := g.1.takeWhile isKeyChar
  if key = [] ∨ String.ofList key ∈ reserved ∨ keyLimit < key.length then none
  else
    match g.1.drop key.length with
    | [':'] => do some (String.ofList key, ← nested g.2)
    | ':' :: ' ' :: text =>
      match flow text, g.2 with
      | some (value, []), [] => some (String.ofList key, value)
      | _, _ => none
    | _ => none

/-- The lines of a node; `fuel` bounds how deep nodes stand in each other. -/
def node : ℕ → List Line → Option Node
  | 0, _ => none
  | _ + 1, [] => some .null
  | fuel + 1, line :: rest => do
    let (_, gs) ← groups line.indent (line :: rest)
    if line.content.head? = some '-' then
      let items ← gs.mapM fun g =>
        if "- ".toList.isPrefixOf g.1 then node fuel (⟨line.indent + 2, g.1.drop 2⟩ :: g.2) else none
      some (.seq items)
    else
      let entries ← gs.mapM (blockEntry (node fuel))
      if (entries.map Prod.fst).Nodup then some (.map entries) else none

/-- The node a text reads as. -/
def load (text : String) : Option Node :=
  if text.toList.all isPrintable then node (text.length + 1) (linesOf text.toList) else none

/-! ### What a printer needs -/

/-- Characters that read as one character of a text. -/
def Writes (written : List Char) (c : Char) : Prop :=
  ∀ rest, quoted (written ++ rest) = (quoted rest).map fun r => (c :: r.1, r.2)

theorem writes_plain {c : Char} (hquote : c ≠ '"') (hslash : c ≠ '\\') : Writes [c] c := by
  intro rest
  show (if c = '"' then some ([], rest) else if c = '\\' then _ else _) = _
  rw [if_neg hquote, if_neg hslash]
  rfl

theorem quoted_slash (d : Char) (rest : List Char) : quoted ('\\' :: d :: rest) =
    match hexLength d, escape d with
    | some k, _ => quotedFrom (.hex (k - 1) 0) rest
    | none, some d => (quoted rest).map fun r => (d :: r.1, r.2)
    | none, none => none := rfl

theorem quotedFrom_digit (left n : ℕ) (c : Char) (rest : List Char) : quotedFrom (.hex left n) (c :: rest) =
    match hexValue c, left with
    | none, _ => none
    | some v, left + 1 => quotedFrom (.hex left (16 * n + v)) rest
    | some v, 0 =>
      match charOf (16 * n + v) with
      | none => none
      | some d => (quoted rest).map fun r => (d :: r.1, r.2) := rfl

theorem writes_escape {c d : Char} (hd : hexLength d = none) (h : escape d = some c) : Writes ['\\', d] c := by
  intro rest
  show quoted ('\\' :: d :: rest) = _
  rw [quoted_slash, hd, h]

/-- The hexadecimal digits of a number, at a width. -/
def hexDigits : ℕ → ℕ → List Char
  | 0, _ => []
  | width + 1, n => hexDigits width (n / 16) ++ [Nat.digitChar (n % 16)]

theorem hexValue_digitChar {n : ℕ} (h : n < 16) : hexValue (Nat.digitChar n) = some n := by
  have hall : ∀ n ∈ List.range 16, hexValue (Nat.digitChar n) = some n := by decide
  exact hall n (List.mem_range.2 h)

theorem hexOf_append {m n : ℕ} {digits rest : List Char} (h : hexOf m digits = some n) :
    hexOf m (digits ++ rest) = hexOf n rest := by
  induction digits generalizing m with
  | nil =>
    obtain rfl := Option.some.inj h
    rfl
  | cons c digits ih =>
    obtain ⟨v, hc, h⟩ := Option.bind_eq_some_iff.1 (show (hexValue c).bind _ = some n from h)
    show (hexValue c).bind _ = _
    rw [hc]
    exact ih h

theorem hexOf_hexDigits {width n : ℕ} (h : n < 16 ^ width) : hexOf 0 (hexDigits width n) = some n := by
  induction width generalizing n with
  | zero =>
    obtain rfl : n = 0 := by simpa using h
    rfl
  | succ width ih =>
    have hhigh : n / 16 < 16 ^ width := by
      rw [Nat.pow_succ] at h
      omega
    rw [hexDigits, hexOf_append (ih hhigh)]
    show (hexValue (Nat.digitChar (n % 16))).bind _ = _
    rw [hexValue_digitChar (Nat.mod_lt n (by decide : 0 < 16))]
    show some (16 * (n / 16) + n % 16) = some n
    rw [Nat.div_add_mod]

theorem length_hexDigits (width n : ℕ) : (hexDigits width n).length = width := by
  induction width generalizing n with
  | zero => rfl
  | succ width ih => rw [hexDigits, List.length_append, ih, List.length_singleton]

/-- The digits a letter asks for. -/
theorem quotedFrom_hex {left m n : ℕ} {digits : List Char} {c : Char} (hlength : digits.length = left + 1)
    (h : hexOf m digits = some n) (hc : charOf n = some c) (rest : List Char) :
    quotedFrom (.hex left m) (digits ++ rest) = (quoted rest).map fun r => (c :: r.1, r.2) := by
  induction digits generalizing left m with
  | nil => cases hlength
  | cons d digits ih =>
    obtain ⟨v, hd, h⟩ := Option.bind_eq_some_iff.1 (show (hexValue d).bind _ = some n from h)
    have h : hexOf (16 * m + v) digits = some n := h
    rw [List.cons_append, quotedFrom_digit, hd]
    cases left with
    | zero =>
      obtain rfl : digits = [] := List.eq_nil_of_length_eq_zero (by simpa using hlength)
      obtain rfl := Option.some.inj h
      simp only [List.nil_append, hc]
    | succ left => exact ih (by simpa using hlength) h

theorem writes_hex {c d : Char} {k : ℕ} (hd : hexLength d = some (k + 1)) (h : c.toNat < 16 ^ (k + 1)) :
    Writes ('\\' :: d :: hexDigits (k + 1) c.toNat) c := by
  intro rest
  have hchar : charOf c.toNat = some c := by
    rw [charOf, if_pos, Char.ofNat_toNat]
    exact c.valid
  show quoted ('\\' :: d :: (hexDigits (k + 1) c.toNat ++ rest)) = _
  rw [quoted_slash, hd]
  exact quotedFrom_hex (length_hexDigits (k + 1) _) (hexOf_hexDigits h) hchar rest

/-- A way to write the characters of a text. -/
def Escapes (write : Char → List Char) : Prop := ∀ c, Writes (write c) c

theorem quoted_flatMap {write : Char → List Char} (h : Escapes write) (text rest : List Char) :
    quoted (text.flatMap write ++ '"' :: rest) = some (text, rest) := by
  induction text with
  | nil => rfl
  | cons c text ih =>
    rw [List.flatMap_cons, List.append_assoc, h c, ih]
    rfl

theorem integer_toDigits (n : ℕ) {rest : List Char} (h : ∀ c ∈ rest.head?, c.isDigit = false) :
    integer (Nat.toDigits 10 n ++ rest) = some (n, rest) := by
  have hdigits : (Nat.toDigits 10 n ++ rest).takeWhile Char.isDigit = Nat.toDigits 10 n := by
    rw [List.takeWhile_append_of_pos fun c hc => Nat.isDigit_of_mem_toDigits (by decide) (by decide) hc]
    cases rest with
    | nil => simp
    | cons c rest => rw [List.takeWhile_cons_of_neg (by simp [h c rfl]), List.append_nil]
  rw [integer, hdigits, Nat.ofDigitChars_ten_toDigits, if_pos rfl, List.drop_left]

section Flow

variable {α β : Type*}

/-- Elements that are read where none of their digits follows are read from their list. -/
theorem flowList_intercalate (close : Char) (element : List Char → Option (α × List Char)) (write : β → List Char)
    (read : β → α) (hclose : close.isDigit = false ∧ close ≠ ',') {xs : List β} (hxs : xs ≠ [])
    (h : ∀ x ∈ xs, ∀ rest : List Char, (∀ c ∈ rest.head?, c.isDigit = false) →
      element (write x ++ rest) = some (read x, rest)) {fuel : ℕ} (hfuel : xs.length ≤ fuel) (rest : List Char) :
    flowList close element fuel ([',', ' '].intercalate (xs.map write) ++ close :: rest) = some (xs.map read, rest) := by
  induction xs generalizing fuel with
  | nil => exact absurd rfl hxs
  | cons x xs ih =>
    obtain ⟨fuel, rfl⟩ : ∃ n, fuel = n + 1 := ⟨fuel - 1, by simp at hfuel; omega⟩
    cases xs with
    | nil =>
      have hx := h x List.mem_cons_self (close :: rest) (by simpa using hclose.1)
      simp only [List.map_cons, List.map_nil, List.intercalate_singleton, flowList, hx]
      exact if_pos rfl
    | cons y ys =>
      have htail := ih (List.cons_ne_nil y ys) (fun z hz => h z (List.mem_cons_of_mem _ hz)) (Nat.le_of_succ_le_succ hfuel)
      have hx := h x List.mem_cons_self
        (',' :: ' ' :: ([',', ' '].intercalate ((y :: ys).map write) ++ close :: rest)) (by simp)
      have htext : [',', ' '].intercalate ((x :: y :: ys).map write) ++ close :: rest =
          write x ++ (',' :: ' ' :: ([',', ' '].intercalate ((y :: ys).map write) ++ close :: rest)) := by
        simp [List.intercalate_cons_cons]
      rw [htext]
      simp only [flowList, hx]
      show (if ',' = close then _ else _) = _
      rw [if_neg hclose.2.symm, if_pos ⟨rfl, rfl⟩, List.drop_one, List.tail_cons, htail]
      rfl

end Flow

section Quotes

variable {write : Char → List Char}

/-- A text in quotes, its characters written one by one. -/
def quote (write : Char → List Char) (text : List Char) : List Char := '"' :: (text.flatMap write ++ ['"'])

theorem scalar_quote (hwrite : Escapes write) (text rest : List Char) : scalar (quote write text ++ rest) = some (.str (String.ofList text), rest) := by
  show (do
    let (text, rest) ← quoted (text.flatMap write ++ ['"'] ++ rest)
    some (Node.str (String.ofList text), rest)) = _
  rw [List.append_assoc, List.singleton_append, quoted_flatMap hwrite]
  rfl

theorem flow_quote (hwrite : Escapes write) (text rest : List Char) : flow (quote write text ++ rest) = some (.str (String.ofList text), rest) :=
  scalar_quote hwrite text rest

theorem toDigits_cons (n : ℕ) : ∃ c cs, Nat.toDigits 10 n = c :: cs ∧ c.isDigit = true := by
  obtain ⟨c, cs, h⟩ := List.exists_cons_of_ne_nil (Nat.toDigits_ne_nil (n := n) (b := 10))
  exact ⟨c, cs, h, Nat.isDigit_of_mem_toDigits (by decide) (by decide) (h ▸ List.mem_cons_self)⟩

theorem scalar_toDigits (n : ℕ) {rest : List Char} (h : ∀ c ∈ rest.head?, c.isDigit = false) :
    scalar (Nat.toDigits 10 n ++ rest) = some (.int n, rest) := by
  have hread := integer_toDigits n h
  obtain ⟨c, cs, hcons, hdigit⟩ := toDigits_cons n
  have hquote : c ≠ '"' := by
    rintro rfl
    cases hdigit
  rw [hcons, List.cons_append] at hread ⊢
  unfold scalar
  split
  · rename_i heq
    exact absurd (List.cons.inj heq).1 hquote
  · rw [hread]
    rfl

theorem flow_toDigits (n : ℕ) {rest : List Char} (h : ∀ c ∈ rest.head?, c.isDigit = false) :
    flow (Nat.toDigits 10 n ++ rest) = some (.int n, rest) := by
  have hread := scalar_toDigits n h
  obtain ⟨c, cs, hcons, hdigit⟩ := toDigits_cons n
  have hne : ∀ d : Char, d.isDigit = false → c ≠ d := by
    rintro d hd rfl
    rw [hd] at hdigit
    cases hdigit
  rw [hcons, List.cons_append] at hread ⊢
  unfold flow
  split
  · rename_i heq
    exact absurd (List.cons.inj heq).1 (hne '[' rfl)
  · rename_i heq
    exact absurd (List.cons.inj heq).1 (hne '[' rfl)
  · rename_i heq
    exact absurd (List.cons.inj heq).1 (hne '\x7b' rfl)
  · exact hread

theorem length_le_intercalate (parts : List (List Char)) (rest : List Char) (c : Char) :
    parts.length ≤ ([',', ' '].intercalate parts ++ c :: rest).length := by
  have hparts : parts.length ≤ ([',', ' '].intercalate parts).length + 1 := by
    induction parts with
    | nil => exact Nat.zero_le _
    | cons part parts ih =>
      cases parts with
      | nil => simp
      | cons next parts =>
        rw [List.intercalate_cons_cons]
        simp only [List.length_append, List.length_cons, List.length_nil] at ih ⊢
        omega
  rw [List.length_append, List.length_cons]
  omega

/-- A flow sequence of texts. -/
theorem flow_quotes (hwrite : Escapes write) (texts : List (List Char)) (rest : List Char) :
    flow ('[' :: ([',', ' '].intercalate (texts.map (quote write)) ++ ']' :: rest)) =
      some (.seq (texts.map fun text => .str (String.ofList text)), rest) := by
  cases texts with
  | nil => rfl
  | cons text texts =>
    have hfuel := length_le_intercalate ((text :: texts).map (quote write)) rest ']'
    rw [List.length_map] at hfuel
    have hlist := flowList_intercalate ']' scalar (quote write) (fun text => Node.str (String.ofList text)) (by decide)
      (List.cons_ne_nil text texts)
      (fun x _ rest _ => scalar_quote hwrite x rest) hfuel rest
    obtain ⟨tail, htail⟩ : ∃ tail, [',', ' '].intercalate ((text :: texts).map (quote write)) ++ ']' :: rest =
        '"' :: tail := by
      cases texts with
      | nil => exact ⟨_, rfl⟩
      | cons next texts => exact ⟨_, by rw [List.map_cons, List.map_cons, List.intercalate_cons_cons]; rfl⟩
    rw [htail] at hlist ⊢
    show (do
      let (items, rest) ← flowList ']' scalar ('"' :: tail).length ('"' :: tail)
      some (Node.seq items, rest)) = _
    rw [hlist]
    rfl

/-- A text and a number as an entry of a flow mapping. -/
def entry (write : Char → List Char) (e : List Char × ℕ) : List Char := quote write e.1 ++ ':' :: ' ' :: Nat.toDigits 10 e.2

theorem flowEntry_entry (hwrite : Escapes write) {e : List Char × ℕ} (hkey : (quote write e.1).length ≤ keyLimit) {rest : List Char}
    (h : ∀ c ∈ rest.head?, c.isDigit = false) :
    flowEntry (entry write e ++ rest) = some ((String.ofList e.1, .int e.2), rest) := by
  have hquoted := quoted_flatMap hwrite e.1 (':' :: ' ' :: (Nat.toDigits 10 e.2 ++ rest))
  have htext : entry write e ++ rest =
      '"' :: (e.1.flatMap write ++ '"' :: (':' :: ' ' :: (Nat.toDigits 10 e.2 ++ rest))) := by
    simp [entry, quote]
  have hlength : ¬keyLimit < (entry write e ++ rest).length -
      (':' :: ' ' :: (Nat.toDigits 10 e.2 ++ rest)).length := by
    simp only [entry, quote, List.length_append, List.length_cons, List.length_nil] at hkey ⊢
    omega
  rw [htext] at hlength ⊢
  unfold flowEntry
  simp only [hquoted]
  show (if keyLimit < _ then none else _) = _
  rw [if_neg hlength]
  show (do
    let (value, rest) ← scalar (Nat.toDigits 10 e.2 ++ rest)
    some ((String.ofList e.1, value), rest)) = _
  rw [scalar_toDigits _ h]
  rfl

/-- A flow mapping of different texts to numbers. -/
theorem flow_entries (hwrite : Escapes write) {es : List (List Char × ℕ)} (hes : es ≠ []) (hkey : ∀ e ∈ es, (quote write e.1).length ≤ keyLimit)
    (hnodup : (es.map fun e => String.ofList e.1).Nodup) (rest : List Char) :
    flow ('\x7b' :: ([',', ' '].intercalate (es.map (entry write)) ++ '\x7d' :: rest)) =
      some (.map (es.map fun e => (String.ofList e.1, .int e.2)), rest) := by
  have hfuel := length_le_intercalate (es.map (entry write)) rest '\x7d'
  rw [List.length_map] at hfuel
  have hlist := flowList_intercalate '\x7d' flowEntry (entry write) (fun e => (String.ofList e.1, Node.int e.2))
    (by decide) hes
    (fun e he rest h => flowEntry_entry hwrite (hkey e he) h) hfuel rest
  have hkeys : ((es.map fun e => (String.ofList e.1, Node.int e.2)).map Prod.fst).Nodup := by rwa [List.map_map]
  show (do
    let (entries, rest) ← flowList '\x7d' flowEntry _ _
    if (entries.map Prod.fst).Nodup then some (Node.map entries, rest) else none) = _
  rw [hlist]
  exact if_pos hkeys

end Quotes

theorem linesOf_ended {lines : List (List Char)} (h : ∀ line ∈ lines, '\n' ∉ line) :
    linesOf (lines.flatMap fun line => line ++ ['\n']) = lines.filterMap lineOf := by
  have hfree : ∀ line ∈ lines, ∀ c ∈ line, (c == '\n') = false := by
    intro line hline c hc
    rw [beq_eq_false_iff_ne]
    rintro rfl
    exact h line hline hc
  have hsplit := @Split.splitOnP_ended _ (fun c => c == '\n') _ '\n' rfl hfree []
  rw [List.append_nil] at hsplit
  rw [linesOf, hsplit, List.filterMap_append]
  simp [lineOf]

theorem lineOf_spaces {n : ℕ} {content : List Char} {c : Char} (h : content.head? = some c) (hspace : c ≠ ' ')
    (hsharp : c ≠ '#') : lineOf (List.replicate n ' ' ++ content) = some ⟨n, content⟩ := by
  obtain ⟨rest, rfl⟩ := List.head?_eq_some_iff.1 h
  have hcontent : (List.replicate n ' ' ++ c :: rest).dropWhile (fun c => c == ' ') = c :: rest := by
    rw [List.dropWhile_append_of_pos (by simp), List.dropWhile_cons_of_neg (by simpa using hspace)]
  rw [lineOf, hcontent, if_neg (by simpa using hsharp)]
  simp

/-- Blocks one after the other are the groups of their lines. -/
theorem groups_flatMap {m : ℕ} (gs : List (List Char × List Line)) (h : ∀ g ∈ gs, ∀ line ∈ g.2, m < line.indent) :
    groups m (gs.flatMap fun g => ⟨m, g.1⟩ :: g.2) = some ([], gs) := by
  have hdeeper : ∀ (lines rest : List Line) (gs' : List (List Char × List Line)), (∀ line ∈ lines, m < line.indent) →
      groups m rest = some ([], gs') → groups m (lines ++ rest) = some (lines, gs') := by
    intro lines rest gs' hlines hrest
    induction lines with
    | nil => exact hrest
    | cons line lines ih =>
      have hline := hlines line List.mem_cons_self
      rw [List.cons_append, groups, ih fun l hl => hlines l (List.mem_cons_of_mem _ hl)]
      show (if line.indent = m then _ else if m < line.indent then _ else _) = _
      rw [if_neg (by omega), if_pos hline]
  induction gs with
  | nil => rfl
  | cons g gs ih =>
    have hgs := ih fun g hg => h g (List.mem_cons_of_mem _ hg)
    rw [List.flatMap_cons, List.cons_append, groups, hdeeper g.2 _ gs (h g List.mem_cons_self) hgs]
    exact if_pos rfl

section Blocks

variable {fuel m : ℕ} {gs : List (List Char × List Line)} {β : Type*} {xs : List β} {f : β → List Char × List Line}

theorem mapM_map_some {α γ : Type*} {g : γ → Option α} {read : β → α} {write : β → γ}
    (h : ∀ x ∈ xs, g (write x) = some (read x)) : (xs.map write).mapM g = some (xs.map read) := by
  induction xs with
  | nil => rfl
  | cons x xs ih =>
    rw [List.map_cons, List.mapM_cons, h x List.mem_cons_self, ih fun y hy => h y (List.mem_cons_of_mem _ hy)]
    rfl

theorem groups_block (h : ∀ x ∈ xs, ∀ line ∈ (f x).2, m < line.indent) :
    groups m (xs.flatMap fun x => ⟨m, (f x).1⟩ :: (f x).2) = some ([], xs.map f) := by
  rw [← groups_flatMap (xs.map f), List.flatMap_map]
  intro g hg
  obtain ⟨x, hx, rfl⟩ := List.mem_map.1 hg
  exact h x hx

/-- A block sequence: its items are read from the lines after their dashes. -/
theorem node_seq {read : β → Node} (hxs : xs ≠ [])
    (h : ∀ x ∈ xs, ∃ content, (f x).1 = '-' :: ' ' :: content ∧ (∀ line ∈ (f x).2, m < line.indent) ∧
      node fuel (⟨m + 2, content⟩ :: (f x).2) = some (read x)) :
    node (fuel + 1) (xs.flatMap fun x => ⟨m, (f x).1⟩ :: (f x).2) = some (.seq (xs.map read)) := by
  have hgroups := groups_block fun x hx => (h x hx).choose_spec.2.1
  have hitems : (xs.map f).mapM (fun g => if "- ".toList.isPrefixOf g.1 then
      node fuel (⟨m + 2, g.1.drop 2⟩ :: g.2) else none) = some (xs.map read) := by
    refine mapM_map_some fun x hx => ?_
    obtain ⟨content, hcontent, -, hread⟩ := h x hx
    rw [hcontent, ← hread]
    rfl
  obtain ⟨x, rest, rfl⟩ := List.exists_cons_of_ne_nil hxs
  obtain ⟨content, hcontent, -⟩ := h x List.mem_cons_self
  rw [List.flatMap_cons, List.cons_append] at hgroups ⊢
  show (groups m _ >>= _) = _
  rw [hgroups]
  show (if (f x).1.head? = some '-' then _ else _) = _
  rw [if_pos (by rw [hcontent]; rfl)]
  show (do
    let items ← ((x :: rest).map f).mapM _
    some (Node.seq items)) = _
  rw [hitems]
  rfl

/-- A block mapping of different keys. -/
theorem node_map {read : β → String × Node} (hxs : xs ≠ []) (hnodup : (xs.map fun x => (read x).1).Nodup)
    (h : ∀ x ∈ xs, (∀ c ∈ (f x).1.head?, c ≠ '-') ∧ (∀ line ∈ (f x).2, m < line.indent) ∧
      blockEntry (node fuel) (f x) = some (read x)) :
    node (fuel + 1) (xs.flatMap fun x => ⟨m, (f x).1⟩ :: (f x).2) = some (.map (xs.map read)) := by
  have hgroups := groups_block fun x hx => (h x hx).2.1
  have hentries : (xs.map f).mapM (blockEntry (node fuel)) = some (xs.map read) :=
    mapM_map_some fun x hx => (h x hx).2.2
  obtain ⟨x, rest, rfl⟩ := List.exists_cons_of_ne_nil hxs
  have hdash := (h x List.mem_cons_self).1
  rw [List.flatMap_cons, List.cons_append] at hgroups ⊢
  show (groups m _ >>= _) = _
  rw [hgroups]
  have hhead : (f x).1.head? ≠ some '-' := fun hhead => hdash '-' hhead rfl
  have hkeys : (((x :: rest).map read).map Prod.fst).Nodup := by rwa [List.map_map]
  show (if (f x).1.head? = some '-' then _ else _) = _
  rw [if_neg hhead]
  show (do
    let entries ← ((x :: rest).map f).mapM (blockEntry (node fuel))
    if (entries.map Prod.fst).Nodup then some (Node.map entries) else none) = _
  rw [hentries]
  exact if_pos hkeys

end Blocks

/-! ### A field on one line -/

/-- A plain word that stands for itself. -/
structure IsKey (key : String) : Prop where
  nonempty : key.toList ≠ []
  chars : ∀ c ∈ key.toList, isKeyChar c = true
  free : key ∉ reserved
  short : key.toList.length ≤ keyLimit

/-- A field whose value is read up to the end of its line. -/
theorem blockEntry_field {key text : String} {value : Node} (hkey : IsKey key)
    (h : flow text.toList = some (value, [])) (nested : List Line → Option Node) :
    blockEntry nested (key.toList ++ ':' :: ' ' :: text.toList, []) = some (key, value) := by
  have htake : (key.toList ++ ':' :: ' ' :: text.toList).takeWhile isKeyChar = key.toList := by
    rw [List.takeWhile_append_of_pos hkey.chars, List.takeWhile_cons_of_neg (by decide), List.append_nil]
  have hgood : ¬(key.toList = [] ∨ String.ofList key.toList ∈ reserved ∨ keyLimit < key.toList.length) := by
    rw [String.ofList_toList]
    rintro (hnil | hreserved | hlong)
    · exact hkey.nonempty hnil
    · exact hkey.free hreserved
    · exact absurd hkey.short (by omega)
  unfold blockEntry
  rw [htake, if_neg hgood, List.drop_left]
  simp only [h, String.ofList_toList]

end Yaml
