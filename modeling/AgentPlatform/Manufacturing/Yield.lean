import AgentPlatform.Oee.Report

/-!
# The yield report

`manufacturing_config` and `yield_report` of `manufacturing.py`. A row of the register that has a readable output
counts for the station it names. Outputs and defects are summed as doubles; a station has a yield where a defect
count of it was read, none of its cells could not be read, and its defects are not above its output.
-/

namespace AgentPlatform.Manufacturing

open Outcome AgentPlatform.Graph
open Oee (Sheet Reading textOf reading descending round4 registerRe)

/-- What a read depends on: the `manufacturing` and `assets` blocks, the tool `sheets.rows` as it answers for a
register and a range, and the policy of the agent. -/
structure Engine where
  manufacturing : Json
  assets : Json
  read : String → String → Except Err Sheet
  agent : String
  ladder : String

def maxRows : ℕ := 200
def maxNames : ℕ := 50

/-- The views that have a register. -/
inductive Kind
  | bom
  | cycle
  | yield
  deriving DecidableEq

def Kind.name : Kind → String
  | .bom => "bom"
  | .cycle => "cycle"
  | .yield => "yield"

/-- `_COLUMNS`. -/
def Kind.columns : Kind → List String
  | .bom => ["parent_column", "component_column", "quantity_column", "unit_column", "scrap_column"]
  | .cycle => ["station_column", "duration_column", "standard_column", "unit_column"]
  | .yield => ["station_column", "output_column", "defect_column", "unit_column"]

/-- `_KEYS`. -/
def Kind.keys (kind : Kind) : List String := ["register", "range"] ++ kind.columns

/-- The two columns a register of the kind has to declare. -/
def Kind.required : Kind → String × String
  | .bom => ("parent_column", "component_column")
  | .cycle => ("station_column", "duration_column")
  | .yield => ("station_column", "output_column")

/-- A validated register: `columns` has every column of its kind, empty where it is not declared. -/
structure Entry where
  register : String
  range : String
  columns : List (String × String)
  deriving DecidableEq

/-- `entry[key]`. -/
def Entry.column (entry : Entry) (key : String) : String := (entry.columns.lookup key).getD ""

variable (lib : Oee.Library) (eng : Engine)

/-! ### Declarations -/

/-- The name of a register or a range. -/
def nameOf (entry : Json) (label key : String) : Except Err String :=
  let e := Err.valueError (label ++ " requires a valid " ++ key)
  match entry.getD key .null with
  | .str value => do
    ensure (registerRe value = true) e
    pure value
  | _ => .error e

/-- The name of a column; empty where it is not declared. -/
def columnOf (entry : Json) (label key : String) : Except Err String :=
  let e := Err.valueError (label ++ " " ++ key ++ " must be a string")
  match entry.getD key (.str "") with
  | .str value => do
    ensure (value.length ≤ 64) e
    pure value
  | _ => .error e

/-- `_require_register`. -/
def requireRegister (kind : Kind) (name : String) (entry : Json) : Except Err Entry := do
  let label := "manufacturing." ++ kind.name ++ " " ++ name
  let unknown := unknownKeys kind.keys entry.members
  ensure (unknown = []) (.valueError (label ++ " has unsupported keys: " ++ reprTexts lib.toParser unknown))
  let register ← nameOf entry label "register"
  let range ← nameOf entry label "range"
  let columns ← kind.columns.mapM fun key => (columnOf entry label key).map fun value => (key, value)
  pure ⟨register, range, columns⟩

/-- `_bom_entry`, `_cycle_entry` and `_yield_entry`. -/
def registerEntry (kind : Kind) (name : String) (entry : Json) : Except Err Entry := do
  let label := "manufacturing." ++ kind.name ++ " " ++ name
  ensure (entry.isDict = true) (.valueError (label ++ " must be an object"))
  let out ← requireRegister lib kind name entry
  ensure (out.column kind.required.1 ≠ "" ∧ out.column kind.required.2 ≠ "") (.valueError
    (label ++ " requires " ++ kind.required.1 ++ " and " ++ kind.required.2))
  pure out

/-- `_block`. -/
def block (raw : Json) (kind : Kind) : Except Err (List (String × Entry)) :=
  match raw.getD kind.name .null with
  | .null => .ok []
  | .obj members => members.mapM fun m => (registerEntry lib kind m.1 m.2).map fun entry => (m.1, entry)
  | _ => .error (.valueError ("manufacturing." ++ kind.name ++ " must be an object"))

/-- What `manufacturing_config` returns. -/
structure Config where
  bom : List (String × Entry)
  cycle : List (String × Entry)
  yield : List (String × Entry)

def Config.get (config : Config) : Kind → List (String × Entry)
  | .bom => config.bom
  | .cycle => config.cycle
  | .yield => config.yield

/-- `manufacturing_config`. -/
def manufacturingConfig : Except Err Config :=
  match eng.manufacturing with
  | .null => .ok ⟨[], [], []⟩
  | .obj members => do
    let raw := Json.obj members
    let unknown := unknownKeys ["bom", "cycle", "yield"] members
    ensure (unknown = []) (.valueError ("manufacturing has unsupported keys: " ++ reprTexts lib.toParser unknown))
    let bom ← block lib raw .bom
    let cycle ← block lib raw .cycle
    let yield ← block lib raw .yield
    pure ⟨bom, cycle, yield⟩
  | _ => .error (.valueError "manufacturing must be an object")

/-- `_resolve`. -/
def resolve (kind : Kind) : Except Err Entry := do
  let config ← manufacturingConfig lib eng
  match config.get kind with
  | [] => throw (.forbidden ("No manufacturing " ++ kind.name ++ " register is declared for this tenant"))
  | [m] => pure m.2
  | _ => throw (.forbidden
      ("Manufacturing " ++ kind.name ++ " has more than one register declared; a view is ambiguous"))

/-- `_bind`. -/
def bindPath (station : String) : Option String :=
  (Assets.placeable lib.toParser eng.assets station).map Assets.formatPath

/-! ### Rows -/

variable (entry : Entry)

/-- The station a row names. -/
def stationOf (row : List (String × Cell)) : String :=
  strip (textOf lib (field row (entry.column "station_column")) 255)

/-- What a column of a row says. -/
def readingOf (column : String) (row : List (String × Cell)) : Reading :=
  reading lib (fun _ => true) (entry.column column) row

/-- What a row counts for a station. -/
structure Contribution where
  station : String
  output : Binary64
  defect : Reading
  deriving DecidableEq

/-- A row that is looked at: it names a station, and the wanted one where one is. -/
def isWanted (wanted : String) (row : List (String × Cell)) : Bool :=
  decide (stationOf lib entry row ≠ "") && (decide (wanted = "") || decide (stationOf lib entry row = wanted))

/-- The rows with a readable output. -/
def contributions (wanted : String) (rows : List (List (String × Cell))) : List Contribution :=
  (rows.filter (isWanted lib entry wanted)).filterMap fun row =>
    (readingOf lib entry "output_column" row).number?.map fun output =>
      ⟨stationOf lib entry row, output, readingOf lib entry "defect_column" row⟩

/-- What is collected of a station. -/
structure Bucket where
  output : Binary64
  defect : Oee.Total
  unreadable : Bool

def Bucket.empty : Bucket := ⟨.zero, ⟨.zero, false⟩, false⟩

/-- One more row of the station. -/
def Bucket.take (b : Bucket) (c : Contribution) : Bucket :=
  { output := b.output.add c.output
    defect := b.defect.take c.defect
    unreadable := b.unreadable || decide (c.defect = .unreadable) }

/-- `by_station`. -/
def byStation (cs : List Contribution) : List (String × Bucket) :=
  cs.foldl (fun d c => Dict.modify c.station (fun b => (b.getD .empty).take c) d) []

/-- The stations with the most output first. -/
def ranked (stations : List (String × Bucket)) : List (String × Bucket) :=
  stations.insertionSort fun m n =>
    toLex (descending m.2.output, m.1.toList) ≤ toLex (descending n.2.output, n.1.toList)

/-! ### The report -/

/-- `_yield_figure`: the ratio and the good count. -/
def yieldFigure (output defect : Binary64) : Option (Binary64 × Binary64) :=
  if output.le .zero then none
  else some (round4 ((output.sub defect).div output), output.sub defect)

/-- A defect count was read, and no defect cell was unreadable. -/
def Bucket.computable (b : Bucket) : Bool :=
  decide (entry.column "defect_column" ≠ "") && b.defect.read && !b.unreadable

/-- What a station of the report has as its figures. -/
def Bucket.figure (b : Bucket) : Option (Binary64 × Binary64) :=
  if b.computable entry && !b.output.lt b.defect.sum then yieldFigure b.output b.defect.sum else none

/-- A station of the report; `ratio` is its `yield`. -/
structure StationYield where
  station : String
  output : Binary64
  defect : Option Binary64
  good : Option Binary64
  ratio : Option Binary64
  yieldComputable : Bool
  path : Option String
  unit : Option String
  deriving DecidableEq

/-- The unit of a station: that of its first row. -/
def unitOf (rows : List (List (String × Cell))) (station : String) : Option String :=
  if entry.column "unit_column" = "" then none
  else
    match rows.find? fun row => stationOf lib entry row = station with
    | some row => some (strip (textOf lib (field row (entry.column "unit_column")) 32))
    | none => some ""

/-- The record of a station. -/
def record (rows : List (List (String × Cell))) (m : String × Bucket) : StationYield :=
  let figure := m.2.figure entry
  { station := m.1
    output := m.2.output
    defect := if m.2.computable entry then some m.2.defect.sum else none
    good := figure.map Prod.snd
    ratio := figure.map Prod.fst
    yieldComputable := figure.isSome
    path := bindPath lib eng m.1
    unit := unitOf lib entry rows m.1 }

/-- What `yield_report` returns. -/
structure Report where
  register : String
  station : String
  stations : List StationYield
  stationCount : ℕ
  defectColumnDeclared : Bool
  unbound : ℕ
  unreadableOutput : ℕ
  unreadableDefect : ℕ
  defectExceedsOutput : ℕ
  skipped : ℕ
  scanned : ℕ
  truncated : Bool
  agent : String
  ladder : String
  deriving DecidableEq

/-- What `yield_report` makes of the rows. -/
def reportOf (wanted : String) (limit : ℕ) (sheet : Sheet) : Report :=
  let rows := sheet.rows.take maxRows
  let cs := contributions lib entry wanted rows
  let stations := byStation cs
  let shown := (ranked stations).take limit
  let records := shown.map (record lib eng entry rows)
  { register := entry.register
    station := wanted
    stations := records
    stationCount := stations.length
    defectColumnDeclared := decide (entry.column "defect_column" ≠ "")
    unbound := records.countP fun r => r.path.isNone
    unreadableOutput := (rows.filter (isWanted lib entry wanted)).countP fun row =>
      readingOf lib entry "output_column" row = .unreadable
    unreadableDefect := cs.countP fun c => c.defect = .unreadable
    defectExceedsOutput := shown.countP fun m => m.2.computable entry && m.2.output.lt m.2.defect.sum
    skipped := rows.countP fun row => stationOf lib entry row == ""
    scanned := rows.length
    truncated := decide (limit < stations.length) || sheet.truncated
    agent := eng.agent
    ladder := eng.ladder }

/-- The station that is asked for. -/
def wantedOf (station : String) : String := strip (String.ofList (station.toList.take 255))

/-- `yield_report`. -/
def yieldReport (station : String) (limit : ℤ) : Except Err Report := do
  let limit ← bounded limit "limit" 1 maxNames
  let _ ← Assets.hierarchy lib.toParser eng.assets
  let entry ← resolve lib eng .yield
  let sheet ← eng.read entry.register entry.range
  pure (reportOf lib eng entry (wantedOf station) limit sheet)

end AgentPlatform.Manufacturing
