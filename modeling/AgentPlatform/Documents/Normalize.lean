import AgentPlatform.Erp.Dates
import AgentPlatform.Graph.Config
import AgentPlatform.Lib.Decimal
import AgentPlatform.Texts

/-!
# Documents

`normalize`, `document_key`, `remember` and `duplicates` of `documents.py`: an extracted document is checked
field by field, and filed under its kind, its supplier and the supplier's number.

The patterns of a supplier and of a number are matched with `re.match` and end in `$`, which also accepts a
line break after the last character. A text they accept is its stripped text, with or without that line break
(`eq_strip_append`), so two spellings of one number have two keys exactly where one of them ends with it
(`spelling_iff`).
-/

namespace AgentPlatform.Documents

open Outcome

/-! ### Parties, numbers and amounts -/

def isPartyStart (c : Char) : Bool := Graph.isLower c || c.isDigit

def isPartyChar (c : Char) : Bool := isPartyStart c || c == '_' || c == '.' || c == '-'

def isNumberChar (c : Char) : Bool :=
  isAlphanumeric c || c == '/' || c == '_' || c == '.' || c == '-'

/-- The shape of `PARTY_RE`. -/
def partyShape : List Char → Bool := Pattern.run isPartyStart isPartyChar 63

/-- The shape of `NUMBER_RE`. -/
def numberShape : List Char → Bool := Pattern.run isAlphanumeric isNumberChar 63

/-- `_party`. -/
def party (value : Json) (name : String) : Except Err String :=
  let e := Err.valueError (name ++ " must be lowercase letters, digits, dot, dash or underscore")
  match value with
  | .str s => do
    ensure (Pattern.anchored partyShape s.toList = true) e
    pure s
  | _ => .error e

/-- `_number`. -/
def number (value : Json) : Except Err String :=
  let e := Err.valueError "document number must be letters, digits or /_.- and at most 64 characters"
  match value with
  | .str s => do
    ensure (Pattern.anchored numberShape s.toList = true) e
    pure s
  | _ => .error e

def currencies : List String := ["UZS", "USD", "EUR", "RUB"]

/-- A text among the allowed ones. -/
def oneOf (value : Json) (name : String) (allowed : List String) : Except Err String :=
  let e := Err.valueError (name ++ " must be one of " ++ ", ".intercalate allowed)
  match value with
  | .str s => do
    ensure (s ∈ allowed) e
    pure s
  | _ => .error e

/-- `_currency`. -/
def currencyOf (value : Json) : Except Err String := oneOf value "currency" currencies

/-- `MINOR_UNITS[currency]`. -/
def minorUnits (currency : String) : ℤ := if currency = "UZS" then 1 else 100

def maxAmount : ℤ := 10 ^ 15

/-- How many digits a currency has after the point. -/
def digitsOf (currency : String) : ℕ := (toString (minorUnits currency)).length - 1

/-- The minor units of a decimal text; the digits the currency does not have are cut. -/
def minorOfText (text : List Char) (currency : String) : Except Err ℤ :=
  match (Decimal.unsigned (· == '.') text).filter fun p =>
      decide (p.1.length ≤ 15) && decide (p.2.length ≤ 6) with
  | some (whole, fraction) =>
    let digits := digitsOf currency
    let cut := (fraction ++ List.replicate digits '0').take digits
    .ok (Erp.valueOf whole * minorUnits currency + if digits = 0 then 0 else (Erp.valueOf cut : ℤ))
  | none => .error (.valueError "amount string must be ASCII digits with an optional decimal part")

/-- The minor units of a declared amount, before the bounds. -/
def minorOf (value : Json) (currency : String) : Except Err ℤ :=
  match value with
  | .int n => .ok (n * minorUnits currency)
  | .float _ => .error (.valueError ("amount must not be a float: use an integer or a decimal string, " ++
      "because binary floating point cannot represent every decimal amount exactly"))
  | .str s => minorOfText (strip s).toList currency
  | _ => .error (.valueError "amount must be a number or a decimal string")

/-- `_amount_minor`. -/
def amountMinor (value : Json) (currency : String) : Except Err ℤ := do
  let minor ← minorOf value currency
  ensure (0 ≤ minor ∧ minor ≤ maxAmount * minorUnits currency) (.valueError "amount out of range")
  pure minor

/-- `str(n).zfill(digits)`. -/
def zfill (n : ℤ) (digits : ℕ) : String :=
  String.ofList (List.replicate (digits - (toString n).length) '0') ++ toString n

/-- `format_amount`. -/
def formatAmount (minor : ℤ) (currency : String) : String :=
  let factor := minorUnits currency
  if factor = 1 then toString minor
  else toString (minor / factor) ++ "." ++ zfill (minor % factor) (digitsOf currency)

/-! ### Dates -/

/-- `datetime.date(year, month, day)` is a date. -/
def isCalendarDate (year month day : ℕ) : Bool :=
  decide (1 ≤ year ∧ year ≤ 9999) && decide (1 ≤ month ∧ month ≤ 12) && decide (1 ≤ day) &&
    decide (day ≤ Erp.monthLength year month)

/-- The part of `_date` after the type check. -/
def isoDate (text : String) : Except Err String := do
  let (year, month, day) ← need (Erp.isoGroups text.toList)
    (.valueError "doc_date must be ISO YYYY-MM-DD in ASCII digits, not an ambiguous local format")
  ensure (isCalendarDate year month day = true)
    (.valueError "doc_date must be a real calendar date in ISO YYYY-MM-DD form")
  pure text

/-- `_date`. -/
def dateOf (value : Json) : Except Err String :=
  match value with
  | .null => .ok ""
  | .str s => if s = "" then .ok "" else isoDate (strip s)
  | _ => .error (.valueError "doc_date must be an ISO date string")

/-! ### Line items -/

def maxLineItems : ℕ := 200
def maxTextChars : ℕ := 200

structure LineItem where
  description : String
  quantity : ℤ
  amount : ℤ
  lineTotal : ℤ

/-- The description of a line item. -/
def descriptionOf (value : Json) (index : ℕ) : Except Err String :=
  let e := Err.valueError ("line item " ++ toString index ++ " description must be text")
  match value with
  | .str s => do
    ensure (s.length ≤ maxTextChars) e
    pure s
  | _ => .error e

/-- The quantity of a line item. -/
def quantityOf (value : Json) (index : ℕ) : Except Err ℤ :=
  let e := Err.valueError ("line item " ++ toString index ++ " quantity must be a non-negative integer")
  match value with
  | .int n => do
    ensure (0 ≤ n) e
    pure n
  | _ => .error e

/-- One line item. -/
def lineItem (currency : String) (item : Json × ℕ) : Except Err LineItem := do
  ensure (item.1.isDict = true) (.valueError ("line item " ++ toString item.2 ++ " must be an object"))
  let unknown := Graph.unknownKeys ["description", "quantity", "amount"] item.1.members
  ensure (unknown = []) (.valueError
    ("line item " ++ toString item.2 ++ " has unknown keys: " ++ ", ".intercalate unknown))
  let description ← descriptionOf (item.1.getD "description" (.str "")) item.2
  let quantity ← quantityOf (item.1.getD "quantity" (.int 1)) item.2
  let amount ← amountMinor (item.1.getD "amount" (.int 0)) currency
  pure ⟨description, quantity, amount, quantity * amount⟩

/-- `_line_items`. -/
def lineItems (value : Json) (currency : String) : Except Err (List LineItem) :=
  let e := Err.valueError ("line_items must be a list of at most " ++ toString maxLineItems)
  match value with
  | .null => .ok []
  | .str s => if s = "" then .ok [] else .error e
  | .arr items => do
    ensure (items.length ≤ maxLineItems) e
    items.zipIdx.mapM (lineItem currency)
  | _ => .error e

/-- `line_items_total`. -/
def lineItemsTotal (items : List LineItem) : ℤ := (items.map LineItem.lineTotal).sum

/-! ### The document -/

def documentKinds : List String := ["invoice", "purchase_order", "delivery_note", "contract"]

/-- A normalized document. An account that is not given stays as it came. -/
structure Document where
  kind : String
  supplier : String
  number : String
  docDate : String
  currency : String
  totalMinor : ℤ
  lineItems : List LineItem
  bankAccount : Json

/-- The bank account: its digits, where one is given. -/
def bankAccountOf (value : Json) : Except Err Json :=
  if value.truthy then
    let e := Err.valueError "bank_account must be 4 to 34 digits"
    match value with
    | .str s => do
      ensure (isRunOf (fun c => c.isDigit || c == ' ') 4 34 s = true) e
      let digits := s.toList.filter fun c => c != ' '
      ensure (4 ≤ digits.length ∧ digits.length ≤ 34) e
      pure (.str (String.ofList digits))
    | _ => .error e
  else .ok value

/-- `normalize`. -/
def normalize (fields : Json) : Except Err Document := do
  ensure (fields.isDict = true) (.valueError "document fields must be an object")
  let unknown := Graph.unknownKeys
    ["kind", "supplier", "number", "doc_date", "currency", "total", "line_items", "bank_account"] fields.members
  ensure (unknown = []) (.valueError ("unknown document keys: " ++ ", ".intercalate unknown))
  let kind ← oneOf (fields.getD "kind" .null) "kind" documentKinds
  let supplier ← party (fields.getD "supplier" .null) "supplier"
  let number ← number (fields.getD "number" .null)
  let currency ← currencyOf (fields.getD "currency" .null)
  let docDate ← dateOf (fields.getD "doc_date" .null)
  let total ← amountMinor (fields.getD "total" (.int 0)) currency
  let items ← lineItems (fields.getD "line_items" .null) currency
  ensure (items = [] ∨ lineItemsTotal items = total) (.valueError
    ("line items sum to " ++ formatAmount (lineItemsTotal items) currency ++ " but the stated total is " ++
      formatAmount total currency ++ ": a document that disagrees with itself cannot be checked"))
  let bankAccount ← bankAccountOf (fields.getD "bank_account" (.str ""))
  pure ⟨kind, supplier, number, docDate, currency, total, items, bankAccount⟩

/-- `document_key`. -/
def documentKey (d : Document) : String × String × String := (d.kind, d.supplier, d.number)

/-! ### Storage -/

/-- A row of `p_documents`, with what its `body` holds of the document. -/
structure Row where
  tenant : String
  id : String
  document : Document
  created : Time

/-- The tables a document is filed and looked up in, and the tenants `require_active` lets through. -/
structure Store where
  documents : List Row
  requireActive : String → Except Err Unit

/-- The row of a key. -/
def Store.find (s : Store) (tenant : String) (key : String × String × String) : Option Row :=
  s.documents.find? fun r => r.tenant = tenant ∧ documentKey r.document = key

/-- What `remember` returns. -/
structure Remembered where
  id : String
  duplicate : Bool
  sameAmount : Bool
  firstTotal : String
  firstCurrency : String

/-- `remember`. -/
def remember (s : Store) (now : Time) (tenant : String) (d : Document) :
    Except Err (Remembered × Store) := do
  s.requireActive tenant
  match s.find tenant (documentKey d) with
  | some row =>
    pure (⟨row.id, true, decide (row.document.totalMinor = d.totalMinor),
      formatAmount row.document.totalMinor row.document.currency, row.document.currency⟩, s)
  | none =>
    let id := d.kind ++ ":" ++ d.supplier ++ ":" ++ d.number
    pure (⟨id, false, false, "", ""⟩, { s with documents := s.documents ++ [⟨tenant, id, d, now⟩] })

/-! ### Duplicates -/

/-- The stored original, as it is reported. -/
structure Original where
  id : String
  number : String
  supplier : String
  date : String
  total : String
  currency : String

/-- A change of the amount. -/
structure AmountChange where
  old : String
  new : String
  note : Option String

/-- How a document differs from its original. -/
structure Found where
  altered : Bool
  sameAmount : Bool
  sameCurrency : Bool
  original : Original
  submittedDate : String
  submittedTotal : String
  submittedCurrency : String
  amountChanged : Option AmountChange
  currencyChanged : Option (String × String)
  amountDeltaMinor : Option ℤ

/-- What `duplicates` returns. -/
structure Duplicates where
  found : Option Found

def Duplicates.duplicate (r : Duplicates) : Bool := r.found.isSome

/-- `_changed_amount`. -/
def changedAmount (existing d : Document) (sameCurrency : Bool) : Option AmountChange :=
  let formatted := formatAmount existing.totalMinor existing.currency
  if sameCurrency = false then
    some ⟨formatted, formatted, some "the number is unchanged; the currency is what differs"⟩
  else if existing.totalMinor = d.totalMinor then none
  else some ⟨formatted, formatAmount d.totalMinor d.currency, none⟩

/-- What `duplicates` reports of a stored row. -/
def differences (row : Row) (d : Document) : Found :=
  let existing := row.document
  let sameCurrency := decide (existing.currency = d.currency)
  let sameAmount := decide (existing.totalMinor = d.totalMinor) && sameCurrency
  { altered := !sameAmount
    sameAmount := sameAmount
    sameCurrency := sameCurrency
    original := ⟨row.id, existing.number, existing.supplier, existing.docDate,
      formatAmount existing.totalMinor existing.currency, existing.currency⟩
    submittedDate := d.docDate
    submittedTotal := formatAmount d.totalMinor d.currency
    submittedCurrency := d.currency
    amountChanged := changedAmount existing d sameCurrency
    currencyChanged := if sameCurrency then none else some (existing.currency, d.currency)
    amountDeltaMinor := if sameCurrency then some (d.totalMinor - existing.totalMinor) else none }

/-- `duplicates`. -/
def duplicates (s : Store) (tenant : String) (fields : Json) : Except Err Duplicates := do
  let d ← normalize fields
  pure ⟨(s.find tenant (documentKey d)).map fun row => differences row d⟩

end AgentPlatform.Documents
