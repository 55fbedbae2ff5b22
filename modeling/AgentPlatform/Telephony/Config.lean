import AgentPlatform.Graph.Collect
import AgentPlatform.Texts

/-!
# Telephony: numbers and declarations

`normalise` and `telephony_config` of `telephony.py`. A phone number is compared by its digits; a text that
names a place where bytes are, or has too few digits or too many, is no number and becomes the empty text. A
declaration that does not have its shape is an error and never a smaller declaration.
-/

namespace AgentPlatform.Telephony

open Outcome AgentPlatform.Graph

/-- Python: `repr`, texts of numbers, `casefold` outside ASCII, and the characters `\d` accepts. -/
structure Library extends Graph.Library where
  decimal : Char → Bool

/-- What `sheets.rows` returns: the rows, and whether the register has more. -/
structure Sheet where
  rows : List (List (String × Cell))
  truncated : Bool

/-- What a telephony read depends on: the `telephony` block, the tool `sheets.rows` as it answers for a
register and a range, the day, and the policy of the agent. -/
structure Engine where
  telephony : Json
  read : String → String → Except Err Sheet
  today : String
  agent : String
  ladder : String

def maxRows : ℕ := 200
def maxRegisters : ℕ := 20
def maxQueueItems : ℕ := 50
def maxPerWindow : ℕ := 1000
def minWindowSeconds : ℕ := 60
def maxWindowSeconds : ℕ := 86400
def minRetentionDays : ℕ := 1
def maxRetentionDays : ℕ := 3650
def maxPurposeChars : ℕ := 64
def maxNumberDigits : ℕ := 15
def minNumberDigits : ℕ := 7
def maxNumbers : ℕ := 5000

def directions : List String := ["inbound", "outbound"]
def purposes : List String := ["service", "delivery", "payment", "support", "marketing"]
def consentStatus : List String := ["granted", "withdrawn"]

variable (lib : Library) (eng : Engine)

/-! ### Numbers -/

/-- The ASCII character a character is compared as under `re.IGNORECASE`. -/
def ignoreCase (c : Char) : Char :=
  if c = 'İ' ∨ c = 'ı' then 'i'
  else if c = 'ſ' then 's'
  else if c = '\u212A' then 'k'
  else c.toLower

/-- The text begins with the word, under `re.IGNORECASE`. -/
def beginsWith (word : String) (text : List Char) : Bool :=
  (text.take word.length).map ignoreCase == word.toList

/-- `[a-z0-9+.-]`. -/
def isSchemeChar (c : Char) : Bool :=
  isLower (ignoreCase c) || c.isDigit || c == '+' || c == '.' || c == '-'

/-- `(?:[a-z][a-z0-9+.-]*://|//|data:|blob:)`, at the front of the text. -/
def carrier (text : List Char) : Bool :=
  (text.head?.any (fun c => isLower (ignoreCase c)) && beginsWith "://" (text.dropWhile isSchemeChar)) ||
    beginsWith "//" text || beginsWith "data:" text || beginsWith "blob:" text

def mediaExtensions : List String :=
  ["wav", "mp3", "ogg", "opus", "webm", "m4a", "aac", "pcm", "flac", "amr", "gsm", "ulaw", "alaw"]

/-- `(?:wav|…)(?:$|[?#\s])`, at the front of the text. -/
def mediaEnd (text : List Char) : Bool :=
  mediaExtensions.any fun e => beginsWith e text &&
    match text.drop e.length with
    | [] => true
    | c :: _ => c == '?' || c == '#' || isSpace c

/-- One place where a locator may stand. -/
def locatorAt : List Char → Bool
  | [] => false
  | c :: cs => ((isSpace c || c == '(' || c == '=') && carrier cs) || (c == '.' && mediaEnd cs)

/-- `_LOCATOR_RE.search`. -/
def locator (text : List Char) : Bool := carrier text || text.tails.any locatorAt

/-- The digits of a text, where a number may have so many. -/
def digitsOf (text : String) : String :=
  let digits := text.toList.filter lib.decimal
  if digits.length < minNumberDigits ∨ maxNumberDigits < digits.length then "" else String.ofList digits

/-- `normalise`, of the text of a number. -/
def normaliseText (text : String) : String :=
  let text := strip text
  if text = "" then ""
  else if beginsWith "tel:" text.toList then
    digitsOf lib (strip (String.ofList ((text.toList.drop 4).dropWhile (· == '/'))))
  else if locator text.toList then ""
  else digitsOf lib text

/-- `normalise`. -/
def normalise : Cell → String
  | .none => ""
  | .bool _ => ""
  | number => normaliseText lib (number.text lib.toTexts)

/-- `normalise`, of a number of the configuration. -/
def normaliseJson : Json → String
  | .null => ""
  | .bool _ => ""
  | .str text => normaliseText lib text
  | value => normaliseText lib (lib.repr value)

/-! ### Cells -/

/-- `NAME_RE`. -/
def nameRe (text : String) : Bool :=
  Pattern.anchored (Pattern.run (fun c => isLower c || c.isDigit) isNameChar 63) text.toList

/-- `[0-9]{4}-[0-9]{2}-[0-9]{2}`. -/
def isDay : List Char → Bool
  | [a, b, c, d, e, f, g, h, i, j] =>
    [a, b, c, d, f, g, i, j].all Char.isDigit && e == '-' && h == '-'
  | _ => false

/-- `DAY_RE`. -/
def dayRe (text : String) : Bool := Pattern.anchored isDay text.toList

/-- `_cell_text`. -/
def cellText (value : Cell) (maximum : ℕ) : String :=
  match value with
  | .none => ""
  | .bool b => if b then "true" else "false"
  | value => String.ofList ((value.text lib.toTexts).toList.take maximum)

/-- `_cell_text(row.get(column), maximum).strip()`. -/
def trimmed (row : List (String × Cell)) (column : String) (maximum : ℕ) : String :=
  strip (cellText lib (field row column) maximum)

/-- `_cell_text(row.get(column), maximum).strip().casefold()`. -/
def word (row : List (String × Cell)) (column : String) (maximum : ℕ) : String :=
  casefold lib.toTexts (trimmed lib row column maximum)

/-! ### Declarations -/

/-- The declaration of a register of calls. -/
structure Register where
  register : String
  range : String
  directionColumn : String
  numberColumn : String
  timestampColumn : String
  outcomeColumn : String
  durationColumn : String
  extensionColumn : String
  purpose : String
  deriving DecidableEq

/-- The declaration of a register of consents. -/
structure ConsentRegister where
  register : String
  range : String
  numberColumn : String
  statusColumn : String
  purposeColumn : String
  expiryColumn : String
  recordingColumn : String
  deriving DecidableEq

/-- The declared pace. -/
structure Throughput where
  perWindow : ℕ
  windowSeconds : ℕ
  deriving DecidableEq

structure Config where
  registers : List (String × Register)
  consentRegisters : List (String × ConsentRegister)
  consentedNumbers : List String
  throughput : Option Throughput
  retentionDays : Option ℕ
  deriving DecidableEq

/-- `entry.get(key)` where it is a name. -/
def nameOf (entry : Json) (label key : String) : Except Err String :=
  match entry.getD key .null with
  | .str value => do
    ensure (nameRe value = true) (.valueError (label ++ " requires a valid " ++ key))
    pure value
  | _ => .error (.valueError (label ++ " requires a valid " ++ key))

/-- `_column`. -/
def column (value : Json) (name : String) : Except Err String :=
  let e := Err.valueError (name ++ " must be a non-empty column name of at most 64 characters")
  match value with
  | .str text => do
    ensure (text ≠ "" ∧ text.length ≤ 64) e
    pure text
  | _ => .error e

/-- `_column(value, …) if value else ''`. -/
def optionalColumn (entry : Json) (label key : String) : Except Err String :=
  let value := entry.getD key (.str "")
  if value.truthy then column value (label ++ " " ++ key) else .ok ""

/-- The name of a declaration and its keys. -/
def declaration (kind label name : String) (keys : List String) (entry : Json) : Except Err Unit := do
  ensure (nameRe name = true) (.valueError ("Invalid " ++ kind ++ " name: " ++ lib.repr (.str name)))
  ensure (entry.isDict = true) (.valueError (label ++ " must be an object"))
  let unknown := unknownKeys keys entry.members
  ensure (unknown = []) (.valueError
    (label ++ " has unsupported keys: " ++ reprTexts lib.toParser unknown))

/-- The purpose of a register. -/
def purposeOf (entry : Json) (label : String) : Except Err String :=
  let e := Err.valueError (label ++ " purpose must be one of " ++ reprTexts lib.toParser purposes)
  match entry.getD "purpose" (.str "service") with
  | .str purpose => do
    ensure (casefold lib.toTexts (strip purpose) ∈ purposes) e
    pure (casefold lib.toTexts (strip purpose))
  | _ => .error e

/-- `_register`. -/
def register (name : String) (entry : Json) : Except Err Register := do
  let label := "Telephony register " ++ name
  declaration lib "telephony register" label name
    ["register", "range", "direction_column", "number_column", "timestamp_column", "outcome_column",
      "duration_column", "extension_column", "purpose"] entry
  let register ← nameOf entry label "register"
  let range ← nameOf entry label "range"
  let direction ← column (entry.getD "direction_column" .null) (label ++ " direction_column")
  let number ← column (entry.getD "number_column" .null) (label ++ " number_column")
  let timestamp ← column (entry.getD "timestamp_column" .null) (label ++ " timestamp_column")
  let outcome ← optionalColumn entry label "outcome_column"
  let duration ← optionalColumn entry label "duration_column"
  let extension ← optionalColumn entry label "extension_column"
  let purpose ← purposeOf lib entry label
  pure ⟨register, range, direction, number, timestamp, outcome, duration, extension, purpose⟩

/-- `_consent_register`. -/
def consentRegister (name : String) (entry : Json) : Except Err ConsentRegister := do
  let label := "Consent register " ++ name
  declaration lib "consent register" label name
    ["register", "range", "number_column", "status_column", "purpose_column", "expiry_column",
      "recording_column"] entry
  let register ← nameOf entry label "register"
  let range ← nameOf entry label "range"
  let number ← column (entry.getD "number_column" .null) (label ++ " number_column")
  let status ← column (entry.getD "status_column" .null) (label ++ " status_column")
  let purpose ← column (entry.getD "purpose_column" .null) (label ++ " purpose_column")
  let expiry ← optionalColumn entry label "expiry_column"
  let recording ← optionalColumn entry label "recording_column"
  pure ⟨register, range, number, status, purpose, expiry, recording⟩

/-- One number of the allowlist. -/
def allowed (item : Json) : Except Err String := do
  ensure (normaliseJson lib item ≠ "") (.valueError
    ("telephony.consented_numbers has an unusable number: " ++ lib.repr item))
  pure (normaliseJson lib item)

/-- `_number_list`. -/
def numberList : Json → Except Err (List String)
  | .null => .ok []
  | .arr items => do
    ensure (items.length ≤ maxNumbers) (.valueError
      "telephony.consented_numbers must be a list of at most 5000 numbers")
    items.mapM (allowed lib)
  | _ => .error (.valueError "telephony.consented_numbers must be a list of at most 5000 numbers")

/-- An integer between two bounds. -/
def boundedInt (value : Json) (low high : ℕ) (name : String) : Except Err ℕ :=
  let e := Err.valueError (name ++ " must be an integer " ++ toString low ++ ".." ++ toString high)
  match value with
  | .int n => do
    ensure ((low : ℤ) ≤ n ∧ n ≤ high) e
    pure n.toNat
  | _ => .error e

/-- `_throughput`. -/
def throughput : Json → Except Err (Option Throughput)
  | .null => .ok none
  | .obj members => do
    let unknown := unknownKeys ["per_window", "window_seconds"] members
    ensure (unknown = []) (.valueError
      ("telephony.throughput has unsupported keys: " ++ reprTexts lib.toParser unknown))
    let per ← boundedInt ((Json.obj members).getD "per_window" .null) 1 maxPerWindow
      "telephony.throughput.per_window"
    let window ← boundedInt ((Json.obj members).getD "window_seconds" .null) minWindowSeconds
      maxWindowSeconds "telephony.throughput.window_seconds"
    pure (some ⟨per, window⟩)
  | _ => .error (.valueError "telephony.throughput must be an object")

/-- `_retention`. -/
def retention : Json → Except Err (Option ℕ)
  | .null => .ok none
  | value => (boundedInt value minRetentionDays maxRetentionDays "telephony.retention_days").map some

/-- A block of declarations. -/
def block (raw : Json) (key : String) : Except Err (List (String × Json)) :=
  let e := Err.valueError
    ("telephony." ++ key ++ " must be an object with at most " ++ toString maxRegisters ++ " entries")
  match raw.getD key (.obj []) with
  | .obj members => do
    ensure (members.length ≤ maxRegisters) e
    pure members
  | _ => .error e

/-- Each declaration of a block, validated. -/
def validated {α : Type} (members : List (String × Json)) (clean : String → Json → Except Err α) :
    Except Err (List (String × α)) :=
  members.mapM fun m => (clean m.1 m.2).map fun a => (m.1, a)

/-- `telephony_config`. -/
def telephonyConfig : Except Err Config :=
  match eng.telephony with
  | .null => .ok ⟨[], [], [], none, none⟩
  | .obj members => do
    let raw := Json.obj members
    let unknown := unknownKeys
      ["registers", "consent_registers", "consented_numbers", "throughput", "retention_days"] members
    ensure (unknown = []) (.valueError
      ("telephony has unsupported keys: " ++ reprTexts lib.toParser unknown))
    let declared ← block raw "registers"
    let consents ← block raw "consent_registers"
    let days ← retention (raw.getD "retention_days" .null)
    ensure (consents = [] ∨ days ≠ none) (.valueError
      ("telephony.retention_days is required when a consent register is declared (VO-07: retention is an " ++
        "operator obligation)"))
    let registers ← validated declared (register lib)
    let consentRegisters ← validated consents (consentRegister lib)
    let numbers ← numberList lib (raw.getD "consented_numbers" .null)
    let pace ← throughput lib (raw.getD "throughput" .null)
    pure ⟨registers, consentRegisters, numbers, pace, days⟩
  | _ => .error (.valueError "telephony must be an object")

/-- `_resolve`. -/
def resolve (name : Option String) : Except Err Register := do
  let config ← telephonyConfig lib eng
  ensure (config.registers ≠ []) (.forbidden "No telephony register is declared for this tenant")
  match name, config.registers with
  | none, [m] => pure m.2
  | none, _ => throw (.forbidden "More than one telephony register is declared; name one")
  | some name, registers =>
    match registers.lookup name with
    | some entry => pure entry
    | none => throw (.forbidden
        ("Telephony register " ++ lib.repr (.str name) ++ " is not declared"))

/-- `_read_rows`. -/
def readRows (register range : String) : Except Err (List (List (String × Cell)) × Bool) :=
  (eng.read register range).map fun sheet => (sheet.rows.take maxRows, sheet.truncated)

end AgentPlatform.Telephony
