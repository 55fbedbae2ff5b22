import AgentPlatform.Telephony.Calls

/-!
# Camera events

`vision.py`: the declared registers of events, the read of the impersonal ones, the read of those that identify a
person, and the summary. A class of events that one register declares as identifying is identifying in all of
them. The class of a row is what the first 64 characters of its cell are, without the white space around them,
in lower case.
-/

namespace AgentPlatform.Vision

open Outcome AgentPlatform.Graph
open Telephony (Sheet cellText trimmed dayRe day window declaration nameOf boundedInt validated)

def maxRows : ℕ := 200
def maxEvents : ℕ := 200
def maxClasses : ℕ := 32
def maxClassChars : ℕ := 64
def maxRegisters : ℕ := 20

/-- `SENSITIVITIES`. -/
inductive Sensitivity
  | station
  | person
  | biometric
  deriving DecidableEq

def Sensitivity.name : Sensitivity → String
  | .station => "station"
  | .person => "person"
  | .biometric => "biometric"

def sensitivities : List Sensitivity := [.station, .person, .biometric]

/-- A validated register of events. -/
structure Register where
  register : String
  range : String
  stationColumn : String
  eventColumn : String
  timestampColumn : String
  confidenceColumn : String
  sensitivity : Sensitivity
  personClasses : List String
  biometricAck : Bool
  deriving DecidableEq

/-- What a read of events depends on: the `vision` and `assets` blocks, the tool `sheets.rows` as it answers for
a register and a range, and the policy of the agent. -/
structure Engine where
  vision : Json
  assets : Json
  read : String → String → Except Err Sheet
  agent : String
  ladder : String

variable (lib : Telephony.Library) (eng : Engine)

/-! ### Declarations -/

/-- A class of events, as it is declared. -/
def classOf (e : Err) : Json → Except Err String
  | .str item => do
    ensure (isBlank item = false ∧ item.length ≤ maxClassChars) e
    pure (casefold lib.toTexts (strip item))
  | _ => .error e

/-- `_class_list`. -/
def classList (label key : String) : Json → Except Err (List String)
  | .arr items => do
    ensure (items.length ≤ maxClasses) (.valueError
      (label ++ " " ++ key ++ " must be a list of at most " ++ toString maxClasses))
    items.mapM (classOf lib (.valueError (label ++ " " ++ key ++ " has an invalid event class")))
  | _ => .error (.valueError (label ++ " " ++ key ++ " must be a list of at most " ++ toString maxClasses))

/-- A column that has to be declared. -/
def columnOf (entry : Json) (label key : String) : Except Err String :=
  let e := Err.valueError (label ++ " requires a " ++ key)
  match entry.getD key .null with
  | .str value => do
    ensure (value ≠ "" ∧ value.length ≤ 64) e
    pure value
  | _ => .error e

def confidenceOf (entry : Json) (label : String) : Except Err String :=
  let e := Err.valueError (label ++ " confidence_column must be a string")
  match entry.getD "confidence_column" (.str "") with
  | .str value => do
    ensure (value.length ≤ 64) e
    pure value
  | _ => .error e

def sensitivityOf (entry : Json) (label : String) : Except Err Sensitivity :=
  let e := Err.valueError
    (label ++ " sensitivity must be one of " ++ reprTexts lib.toParser (sensitivities.map Sensitivity.name))
  match entry.getD "sensitivity" (.str "station") with
  | .str value => need (sensitivities.find? fun s => s.name = value) e
  | _ => .error e

def ackOf (entry : Json) (label : String) : Except Err Bool :=
  match entry.getD "biometric_ack" (.bool false) with
  | .bool ack => .ok ack
  | _ => .error (.valueError (label ++ " biometric_ack must be a boolean"))

/-- `_register`. -/
def register (name : String) (entry : Json) : Except Err Register := do
  let label := "Vision register " ++ name
  declaration lib "vision register" label name
    ["register", "range", "station_column", "event_column", "timestamp_column", "confidence_column", "sensitivity",
      "person_classes", "biometric_ack"] entry
  let register ← nameOf entry label "register"
  let range ← nameOf entry label "range"
  let station ← columnOf entry label "station_column"
  let event ← columnOf entry label "event_column"
  let timestamp ← columnOf entry label "timestamp_column"
  let confidence ← confidenceOf entry label
  let sensitivity ← sensitivityOf lib entry label
  let classes ← classList lib label "person_classes" (entry.getD "person_classes" (.arr []))
  let ack ← ackOf entry label
  ensure (sensitivity = .station ∨ classes ≠ []) (.valueError
    (label ++ " is declared " ++ sensitivity.name ++ " but names no person_classes"))
  pure ⟨register, range, station, event, timestamp, confidence, sensitivity, classes, ack⟩

/-- `vision_config`. -/
def visionConfig : Except Err (List (String × Register)) :=
  let e := Err.valueError
    ("vision.registers must be an object with at most " ++ toString maxRegisters ++ " entries")
  match eng.vision with
  | .null => .ok []
  | .obj members => do
    let unknown := unknownKeys ["registers"] members
    ensure (unknown = []) (.valueError ("vision has unsupported keys: " ++ reprTexts lib.toParser unknown))
    match (Json.obj members).getD "registers" (.obj []) with
    | .obj declared => do
      ensure (declared.length ≤ maxRegisters) e
      validated declared (register lib)
    | _ => throw e
  | _ => .error (.valueError "vision must be an object")

/-- `person_classes`: of all registers. -/
def personClasses : Except Err (List String) :=
  (visionConfig lib eng).map fun registers => registers.flatMap fun m => m.2.personClasses

/-- `_resolve`: the first register of a sensitivity. -/
def resolve (sensitivity : Sensitivity) : Except Err Register := do
  let declared ← visionConfig lib eng
  ensure (declared ≠ []) (.forbidden "No vision register is declared for this tenant")
  need ((declared.map Prod.snd).find? fun entry => entry.sensitivity = sensitivity) (.forbidden
    ("No vision register is declared with sensitivity " ++ lib.repr (.str sensitivity.name)))

/-- `_require_human_led`. -/
def requireHumanLed (entry : Register) : Except Err Unit := do
  ensure (entry.biometricAck = true) (.forbidden
    ("Vision register " ++ lib.repr (.str entry.register) ++ " is person-identifying but biometric_ack is not " ++
      "set. Person-identifying vision data is biometric under Uzbekistan Law No. O'RQ-1125: it may not be " ++
      "processed until the operator acknowledges the local-storage and state-register obligation"))
  ensure (eng.ladder = "human_led") (.forbidden
    ("Person-identifying vision events require a human_led agent, but " ++ lib.repr (.str eng.agent) ++ " is " ++
      lib.repr (.str (if eng.ladder = "" then "unset" else eng.ladder)) ++
      ". A legal duty cannot be discharged by an autonomous agent"))

/-- `_read_rows`. -/
def readRows (entry : Register) : Except Err (List (List (String × Cell)) × Bool) :=
  (eng.read entry.register entry.range).map fun sheet => (sheet.rows.take maxRows, sheet.truncated)

/-- `_check_window`. -/
def checkWindow (since until_ : String) : Except Err Unit :=
  ensure (since = "" ∨ until_ = "" ∨ ¬until_.toList < since.toList) (.valueError "since must not be after until")

/-! ### Rows -/

variable (entry : Register) (row : List (String × Cell))

def stationText : String := trimmed lib row entry.stationColumn 255

/-- `_event_class`. -/
def eventClass : String := casefold lib.toTexts (trimmed lib row entry.eventColumn maxClassChars)

def dayText : String := trimmed lib row entry.timestampColumn 40

/-- `_is_person`. -/
def isPerson (identifying : List String) (event : String) : Bool :=
  decide (event ≠ "") && decide (event ∈ identifying)

/-- There is nothing to bind, or nothing to report. -/
def isUnreadable : Bool := decide (stationText lib entry row = "") || decide (eventClass lib entry row = "")

/-- `_bind`. -/
def bindPath (station : String) : Option (List String) := Assets.placeable lib.toParser eng.assets station

/-- An event that is returned. -/
structure Event where
  station : String
  path : String
  event : String
  day : String
  confidence : Option String
  deriving DecidableEq

/-- The confidence of a row, where a column is declared for it and has something. -/
def confidence : Option String :=
  if entry.confidenceColumn = "" then none
  else
    let text := trimmed lib row entry.confidenceColumn 32
    if text = "" then none else some text

/-- What the loop of `_scan` counts. -/
structure Scan where
  events : List Event
  unbound : ℕ
  undated : ℕ
  skipped : ℕ
  matched : ℕ
  deriving DecidableEq

def Scan.empty : Scan := ⟨[], 0, 0, 0, 0⟩

/-- A row of the window. -/
def Scan.bind (limit : ℕ) (t : Scan) : Scan :=
  let t := { t with matched := t.matched + 1 }
  match bindPath lib eng (stationText lib entry row) with
  | none => { t with unbound := t.unbound + 1 }
  | some segments =>
    if limit ≤ t.events.length then t
    else
      { t with
        events := t.events ++ [⟨stationText lib entry row, Assets.formatPath segments,
          eventClass lib entry row, dayText lib entry row, confidence lib entry row⟩] }

/-- One row of `_scan`. -/
def Scan.next (identifying : List String) (since until_ : String) (limit : ℕ) (t : Scan)
    (row : List (String × Cell)) : Scan :=
  if isUnreadable lib entry row then { t with skipped := t.skipped + 1 }
  else if isPerson identifying (eventClass lib entry row) ≠ decide (entry.sensitivity ≠ .station) then t
  else if dayRe (dayText lib entry row) = false then { t with undated := t.undated + 1 }
  else if window (dayText lib entry row) since until_ = false then t
  else t.bind lib eng entry row limit

/-! ### The reads -/

/-- What `station_event` and `person_event` return. -/
structure EventRead where
  view : String
  register : String
  sensitivity : Sensitivity
  events : List Event
  count : ℕ
  returned : ℕ
  unbound : ℕ
  undated : ℕ
  skipped : ℕ
  scanned : ℕ
  truncated : Bool
  agent : String
  ladder : String
  deriving DecidableEq

/-- What `_scan` makes of the loop. -/
def readOf (view : String) (scanned : ℕ) (more : Bool) (t : Scan) : EventRead :=
  { view := view
    register := entry.register
    sensitivity := entry.sensitivity
    events := t.events
    count := t.matched
    returned := t.events.length
    unbound := t.unbound
    undated := t.undated
    skipped := t.skipped
    scanned := scanned
    truncated := decide (t.events.length < t.matched - t.unbound) || more
    agent := eng.agent
    ladder := eng.ladder }

/-- `_scan`. -/
def scan (view since until_ : String) (limit : ℤ) : Except Err EventRead := do
  let limit ← boundedInt (.int limit) 1 maxEvents "limit"
  let _ ← Assets.hierarchy lib.toParser eng.assets
  let (rows, more) ← readRows eng entry
  let identifying ← personClasses lib eng
  pure (readOf eng entry view rows.length more
    (rows.foldl (Scan.next lib eng entry identifying since until_ limit) .empty))

/-- `station_event`. -/
def stationEvent (since until_ : String) (limit : ℤ) : Except Err EventRead := do
  let since ← day since "since"
  let until_ ← day until_ "until"
  checkWindow since until_
  let entry ← resolve lib eng .station
  scan lib eng entry "station_event" since until_ limit

/-- `person_event`. -/
def personEvent (since until_ : String) (limit : ℤ) : Except Err EventRead := do
  let since ← day since "since"
  let until_ ← day until_ "until"
  checkWindow since until_
  let entry ← resolve lib eng .person
  requireHumanLed lib eng entry
  scan lib eng entry "person_event" since until_ limit

/-- What the loop of `summary` counts. -/
structure Counts where
  byClass : List (String × ℕ)
  byStation : List (String × ℕ)
  undated : ℕ
  skipped : ℕ
  deriving DecidableEq

def Counts.empty : Counts := ⟨[], [], 0, 0⟩

/-- `counts[key] = counts.get(key, 0) + 1`. -/
def increment (key : String) (counts : List (String × ℕ)) : List (String × ℕ) :=
  Dict.modify key (fun n => n.getD 0 + 1) counts

/-- One row of `summary`. -/
def Counts.next (identifying : List String) (since until_ : String) (t : Counts)
    (row : List (String × Cell)) : Counts :=
  if isUnreadable lib entry row || isPerson identifying (eventClass lib entry row) then
    { t with skipped := t.skipped + 1 }
  else if dayRe (dayText lib entry row) = false then { t with undated := t.undated + 1 }
  else if window (dayText lib entry row) since until_ = false then t
  else
    { t with
      byClass := increment (eventClass lib entry row) t.byClass
      byStation := increment (stationText lib entry row) t.byStation }

/-- A station of the summary. -/
structure StationCount where
  station : String
  count : ℕ
  path : String
  deriving DecidableEq

/-- What `summary` returns. -/
structure Summary where
  register : String
  byClass : List (String × ℕ)
  byStation : List StationCount
  stationCount : ℕ
  undated : ℕ
  skipped : ℕ
  scanned : ℕ
  truncated : Bool
  agent : String
  ladder : String
  deriving DecidableEq

/-- The path of a station, or nothing. -/
def pathText (station : String) : String := ((bindPath lib eng station).map Assets.formatPath).getD ""

/-- The stations with the most events first, those with as many in the order of their names. -/
def ordered (t : Counts) : List (String × ℕ) :=
  t.byStation.insertionSort fun a b => b.2 < a.2 ∨ (a.2 = b.2 ∧ a.1.toList ≤ b.1.toList)

/-- What `summary` makes of the loop. -/
def summaryOf (limit scanned : ℕ) (more : Bool) (t : Counts) : Summary :=
  { register := entry.register
    byClass := t.byClass.insertionSort fun a b => a.1.toList ≤ b.1.toList
    byStation := ((ordered t).take limit).map fun m => ⟨m.1, m.2, pathText lib eng m.1⟩
    stationCount := (ordered t).length
    undated := t.undated
    skipped := t.skipped
    scanned := scanned
    truncated := decide (limit < (ordered t).length) || more
    agent := eng.agent
    ladder := eng.ladder }

/-- `summary`. -/
def summary (since until_ : String) (limit : ℤ) : Except Err Summary := do
  let since ← day since "since"
  let until_ ← day until_ "until"
  checkWindow since until_
  let limit ← boundedInt (.int limit) 1 maxEvents "limit"
  let entry ← resolve lib eng .station
  let _ ← Assets.hierarchy lib.toParser eng.assets
  let (rows, more) ← readRows eng entry
  let identifying ← personClasses lib eng
  pure (summaryOf lib eng entry limit rows.length more
    (rows.foldl (Counts.next lib entry identifying since until_) .empty))

end AgentPlatform.Vision
