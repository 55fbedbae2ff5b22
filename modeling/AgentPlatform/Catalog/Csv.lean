import AgentPlatform.Base

/-!
# The rows of a CSV text

`csv.reader` and `csv.DictReader` of Python's library, in the dialect `excel` with a delimiter: a machine that reads a line
character by character. A record may take several lines where a field is quoted.
-/

namespace AgentPlatform.Catalog

/-- The states of the machine. -/
inductive Mode
  | startRecord
  | startField
  | inField
  | inQuotedField
  | quoteInQuotedField
  | eatCrNl
deriving DecidableEq

/-- The machine in the middle of a record: its fields so far and the present one, both backwards. -/
structure Scan where
  mode : Mode := .startRecord
  fields : List String := []
  field : List Char := []

/-- `csv.field_size_limit()`. -/
def fieldLimit : ℕ := 131072

namespace Scan

/-- `parse_save_field`. -/
def saveField (s : Scan) (mode : Mode) : Scan :=
  { mode := mode, fields := String.ofList s.field.reverse :: s.fields, field := [] }

/-- `parse_add_char`. -/
def addChar (s : Scan) (c : Char) (mode : Mode) : Except String Scan :=
  if fieldLimit ≤ s.field.length then .error ("field larger than field limit (" ++ toString fieldLimit ++ ")")
  else .ok { s with mode := mode, field := c :: s.field }

/-- The end of a line, or a character of it. -/
def isEnd (c : Option Char) : Bool := c == none || c == some '\n' || c == some '\r'

/-- The state after the end of a field at the end of a line. -/
def afterEnd (c : Option Char) : Mode := if c = none then .startRecord else .eatCrNl

/-- The first character of a field. -/
def beginField (delimiter : Char) (s : Scan) (c : Option Char) : Except String Scan :=
  if isEnd c then .ok (s.saveField (afterEnd c))
  else if c = some '"' then .ok { s with mode := .inQuotedField }
  else if c = some delimiter then .ok (s.saveField .startField)
  else s.addChar (c.getD ' ') .inField

/-- `parse_process_char`; `none` is the end of a line. -/
def processChar (delimiter : Char) (s : Scan) (c : Option Char) : Except String Scan :=
  match s.mode with
  | .startRecord =>
    if c = none then .ok s
    else if isEnd c then .ok { s with mode := .eatCrNl }
    else s.beginField delimiter c
  | .startField => s.beginField delimiter c
  | .inField =>
    if isEnd c then .ok (s.saveField (afterEnd c))
    else if c = some delimiter then .ok (s.saveField .startField)
    else s.addChar (c.getD ' ') .inField
  | .inQuotedField =>
    if c = none then .ok s
    else if c = some '"' then .ok { s with mode := .quoteInQuotedField }
    else s.addChar (c.getD ' ') .inQuotedField
  | .quoteInQuotedField =>
    if c = some '"' then s.addChar '"' .inQuotedField
    else if c = some delimiter then .ok (s.saveField .startField)
    else if isEnd c then .ok (s.saveField (afterEnd c))
    else s.addChar (c.getD ' ') .inField
  | .eatCrNl =>
    if c = none then .ok { s with mode := .startRecord }
    else if isEnd c then .ok s
    else .error
      "new-line character seen in unquoted field - do you need to open the file with newline=''?"

end Scan

/-- The lines of a text, each with its end: `\n`, `\r` or `\r\n`. -/
def splitLines : List Char → List Char → List (List Char)
  | line, [] => if line = [] then [] else [line.reverse]
  | line, '\r' :: '\n' :: rest => ('\n' :: '\r' :: line).reverse :: splitLines [] rest
  | line, '\r' :: rest => ('\r' :: line).reverse :: splitLines [] rest
  | line, '\n' :: rest => ('\n' :: line).reverse :: splitLines [] rest
  | line, c :: rest => splitLines (c :: line) rest

/-- `csv.reader(lines)`: the records in turn; a record that cannot be read is the last. -/
def records (delimiter : Char) : Scan → List (List Char) → List (Except String (List String))
  | s, [] => if s.field ≠ [] ∨ s.mode = .inQuotedField then [.ok (s.saveField .startRecord).fields.reverse] else []
  | s, line :: lines =>
    match (line.map some ++ [none]).foldlM (Scan.processChar delimiter) s with
    | .error e => [.error e]
    | .ok t =>
      if t.mode = .startRecord then .ok t.fields.reverse :: records delimiter {} lines
      else records delimiter t lines

/-- A row of `csv.DictReader`: what stands in each column, and whether something stands beyond the last. -/
structure Row where
  cells : List (String × String)
  surplus : Bool

/-- `row.get(column) or ''`. -/
def Row.get (row : Row) (column : String) : String := (row.cells.lookup column).getD ""

/-- The columns of a short record stand as empty. -/
def rowOf (header record : List String) : Row where
  cells := header.zip record
  surplus := decide (header.length < record.length)

end AgentPlatform.Catalog
