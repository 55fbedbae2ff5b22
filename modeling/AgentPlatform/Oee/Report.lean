import Mathlib.Data.Prod.Lex
import Mathlib.Data.Char
import Mathlib.Data.List.Lex
import AgentPlatform.Assets.Paths
import AgentPlatform.Graph.Numbers
import AgentPlatform.Graph.Search
import AgentPlatform.Lib.Dict
import AgentPlatform.Texts

/-!
# The OEE report

`oee_config` and `report` of `oee.py`, with `parse_path` of `assets.py`. A row of the register belongs to the
station it names; run time and counts are summed over the rows of a station, the planned run time and the
ideal cycle are those of its last row that has one. A factor is computed where its inputs are there, and the
index where all three factors are.
-/

namespace AgentPlatform.Oee

open Outcome AgentPlatform.Graph

/-- Python: `repr`, texts of numbers, and the double a literal stands for. -/
structure Library extends Graph.Library where
  double : String → Binary64

/-- What `sheets.rows` returns: at most two hundred rows, and whether the register has more. -/
structure Sheet where
  rows : List (List (String × Cell))
  truncated : Bool
  bound : rows.length ≤ 200

/-- What a report depends on: the `oee` and `assets` blocks, the tool `sheets.rows` as it answers for a
register and a range, and the policy of the agent. -/
structure Engine where
  oee : Json
  assets : Json
  read : String → String → Except Err Sheet
  agent : String
  ladder : String

def maxRows : ℕ := 200
def maxStations : ℕ := 50

variable (lib : Library) (eng : Engine)

/-! ### The asset hierarchy -/

/-- `_declared_levels` of `assets.py`. -/
def declaredLevels : Except Err (List String) := Assets.declaredLevels lib.toParser eng.assets

/-- `parse_path` of `assets.py`, for the levels of the hierarchy. -/
def parsePath (levels : List String) (path : String) : Except Err (List String) :=
  Assets.pathOf lib.toParser levels path

/-- `_bind`. -/
def bindPath (levels : List String) (station : String) : Option String :=
  match parsePath lib levels station with
  | .ok segments => some ("/".intercalate segments)
  | .error _ => none

/-! ### Configuration -/

/-- The declaration of a register. -/
structure Entry where
  register : String
  range : String
  stationColumn : String
  plannedRunColumn : String
  idealCycleColumn : String
  runColumn : String
  producedColumn : String
  goodColumn : String
  unplannedColumn : String
  plannedRunSeconds : Option Binary64

/-- The bounds of a threshold. -/
structure Bounds where
  below : Option Binary64
  above : Option Binary64
  deriving DecidableEq

structure Config where
  registers : List (String × Entry)
  thresholds : List (String × Bounds)

/-- `NAME_RE`. -/
def registerRe (text : String) : Bool :=
  Pattern.anchored (Pattern.run (fun c => isLower c || c.isDigit) isNameChar 63) text.toList

/-- `float(value)` of a declared number. -/
def declaredFloat (value : Json) : Option (Except Err Binary64) :=
  match value with
  | .int n =>
    match Binary64.ofRat n with
    | .finite q fits => some (.ok (.finite q fits))
    | _ => some (.error (.other "OverflowError" "int too large to convert to float"))
  | .float literal => some (.ok (lib.double literal))
  | _ => none

/-- `_bounded_number`. -/
def boundedNumber (value : Json) (name : String) (low high : ℕ) : Except Err Binary64 :=
  let e := Err.valueError (name ++ " must be a number " ++ toString low ++ ".." ++ toString high)
  match declaredFloat lib value with
  | none => .error e
  | some number => do
    let x ← number
    match x with
    | .finite q fits => do
      ensure ((low : ℚ) ≤ q ∧ q ≤ high) e
      pure (.finite q fits)
    | _ => throw (.valueError (name ++ " must be a finite number"))

def registerKeys : List String :=
  ["register", "range", "station_column", "planned_run_column", "ideal_cycle_column", "run_column",
    "produced_column", "good_column", "unplanned_column", "planned_run_seconds"]

/-- The name of a register or a range. -/
def nameOf (entry : Json) (name key : String) : Except Err String :=
  match entry.getD key .null with
  | .str value => do
    ensure (registerRe value = true) (.valueError ("oee.registers " ++ name ++ " requires a valid " ++ key))
    pure value
  | _ => .error (.valueError ("oee.registers " ++ name ++ " requires a valid " ++ key))

/-- The name of a column; empty where it is not declared. -/
def columnOf (entry : Json) (name key : String) : Except Err String :=
  match entry.getD key (.str "") with
  | .str value => do
    ensure (value.length ≤ 64) (.valueError ("oee.registers " ++ name ++ " " ++ key ++ " must be a string"))
    pure value
  | _ => .error (.valueError ("oee.registers " ++ name ++ " " ++ key ++ " must be a string"))

/-- The planned run time of a station, where it is declared. -/
def planOf (entry : Json) (name : String) : Except Err (Option Binary64) :=
  match entry.getD "planned_run_seconds" .null with
  | .null => .ok none
  | value =>
    (boundedNumber lib value ("oee.registers " ++ name ++ " planned_run_seconds") 1 31536000).map some

/-- `_register_entry`. -/
def registerEntry (name : String) (entry : Json) : Except Err Entry := do
  ensure (entry.isDict = true) (.valueError ("oee.registers " ++ name ++ " must be an object"))
  let unknown := unknownKeys registerKeys entry.members
  ensure (unknown = []) (.valueError
    ("oee.registers " ++ name ++ " has unsupported keys: " ++ reprTexts lib.toParser unknown))
  let register ← nameOf entry name "register"
  let range ← nameOf entry name "range"
  let station ← columnOf entry name "station_column"
  let planned ← columnOf entry name "planned_run_column"
  let ideal ← columnOf entry name "ideal_cycle_column"
  let run ← columnOf entry name "run_column"
  let produced ← columnOf entry name "produced_column"
  let good ← columnOf entry name "good_column"
  let unplanned ← columnOf entry name "unplanned_column"
  ensure (station ≠ "") (.valueError ("oee.registers " ++ name ++ " requires station_column"))
  let plan ← planOf lib entry name
  pure ⟨register, range, station, planned, ideal, run, produced, good, unplanned, plan⟩

def thresholdKeys : List String := ["oee", "availability", "performance", "quality"]

/-- One bound of a threshold. -/
def boundOf (entry : Json) (key bound : String) : Except Err (Option Binary64) :=
  match entry.get? bound with
  | none => .ok none
  | some value => (boundedNumber lib value ("oee.thresholds " ++ key ++ "." ++ bound) 0 100).map some

/-- `'below' in out and 'above' in out and out['below'] >= out['above']`. -/
def Bounds.crossed (b : Bounds) : Bool :=
  match b.below, b.above with
  | some x, some y => y.le x
  | _, _ => false

/-- `_threshold_entry`. -/
def thresholdEntry (key : String) (entry : Json) : Except Err Bounds := do
  ensure (key ∈ thresholdKeys) (.valueError ("oee.thresholds has an unsupported key " ++
    lib.repr (.str key) ++ "; expected one of " ++ reprTexts lib.toParser (sortTexts thresholdKeys)))
  ensure (entry.isDict = true) (.valueError ("oee.thresholds " ++ key ++ " must be an object"))
  let unknown := unknownKeys ["below", "above"] entry.members
  ensure (unknown = []) (.valueError
    ("oee.thresholds " ++ key ++ " has unsupported keys: " ++ reprTexts lib.toParser unknown))
  ensure (entry.members ≠ []) (.valueError ("oee.thresholds " ++ key ++ " declares no bound"))
  let below ← boundOf lib entry key "below"
  let above ← boundOf lib entry key "above"
  ensure (Bounds.crossed ⟨below, above⟩ = false) (.valueError
    ("oee.thresholds " ++ key ++ " has below >= above, which can never be satisfied"))
  pure ⟨below, above⟩

/-- An object of entries, each validated; none where it is not declared. -/
def entriesOf {α : Type} (value : Json) (label : String) (clean : String → Json → Except Err α) :
    Except Err (List (String × α)) :=
  match value with
  | .null => .ok []
  | .obj members => members.mapM fun m => (clean m.1 m.2).map fun a => (m.1, a)
  | _ => .error (.valueError (label ++ " must be an object"))

/-- `oee_config`. -/
def oeeConfig : Except Err Config :=
  match eng.oee with
  | .null => .ok ⟨[], []⟩
  | .obj members => do
    let raw := Json.obj members
    let unknown := unknownKeys ["registers", "thresholds"] members
    ensure (unknown = []) (.valueError ("oee has unsupported keys: " ++ reprTexts lib.toParser unknown))
    let registers ← entriesOf (raw.getD "registers" .null) "oee.registers" (registerEntry lib)
    let thresholds ← entriesOf (raw.getD "thresholds" .null) "oee.thresholds" (thresholdEntry lib)
    pure ⟨registers, thresholds⟩
  | _ => .error (.valueError "oee must be an object")

/-- `_resolve_register`. -/
def resolveRegister : Except Err Entry := do
  let config ← oeeConfig lib eng
  match config.registers with
  | [] => throw (.forbidden "No OEE register is declared for this tenant")
  | [m] => pure m.2
  | _ => throw (.forbidden "OEE has more than one register declared; a read is ambiguous")

/-! ### Cells -/

/-- `_text`. -/
def textOf (value : Cell) (maximum : ℕ) : String :=
  match value with
  | .none => ""
  | .bool b => if b then "true" else "false"
  | value => String.ofList ((value.text lib.toTexts).toList.take maximum)

/-- What a cell says: a number the column accepts, something else, or nothing. -/
inductive Reading
  | value (number : Binary64)
  | unreadable
  | blank
  deriving DecidableEq

/-- The number of a reading. -/
def Reading.number? : Reading → Option Binary64
  | value x => some x
  | _ => none

def isPositive (x : Binary64) : Bool := Binary64.zero.lt x

def isNonnegative (x : Binary64) : Bool := Binary64.zero.le x

/-- The reading of a column; nothing where the column is not declared. -/
def reading (accepts : Binary64 → Bool) (column : String) (row : List (String × Cell)) : Reading :=
  if column = "" then .blank
  else
    match (cellNumber lib.toTexts (field row column)).filter accepts with
    | some x => .value x
    | none => if strip (textOf lib (field row column) 32) ≠ "" then .unreadable else .blank

/-- The readings of a row. -/
structure Readings where
  planned : Reading
  run : Reading
  ideal : Reading
  produced : Reading
  good : Reading
  unplanned : Reading

/-- What a row says. -/
def readings (entry : Entry) (row : List (String × Cell)) : Readings :=
  { planned := reading lib isPositive entry.plannedRunColumn row
    run := reading lib isNonnegative entry.runColumn row
    ideal := reading lib isPositive entry.idealCycleColumn row
    produced := reading lib isNonnegative entry.producedColumn row
    good := reading lib isNonnegative entry.goodColumn row
    unplanned := reading lib isNonnegative entry.unplannedColumn row }

/-- How many cells of a row could not be read. -/
def Readings.unreadable (r : Readings) : ℕ :=
  [r.planned, r.run, r.ideal, r.produced, r.good, r.unplanned].count .unreadable

/-! ### Stations -/

/-- The sum of a column, and whether a cell of it was read. -/
structure Total where
  sum : Binary64
  read : Bool

/-- `bucket[column] += value`, where the cell has one. -/
def Total.take (t : Total) : Reading → Total
  | .value x => ⟨t.sum.add x, true⟩
  | _ => t

def Total.value? (t : Total) : Option Binary64 := if t.read then some t.sum else none

/-- What is collected of a station. -/
structure Bucket where
  samples : ℕ
  planned : Option Binary64
  run : Total
  ideal : Option Binary64
  produced : Total
  good : Total
  unplanned : Total

def Bucket.empty : Bucket :=
  ⟨0, none, ⟨.zero, false⟩, none, ⟨.zero, false⟩, ⟨.zero, false⟩, ⟨.zero, false⟩⟩

/-- One more row of the station. -/
def Bucket.account (defaultPlan : Option Binary64) (b : Bucket) (r : Readings) : Bucket :=
  { samples := b.samples + 1
    planned :=
      match r.planned with
      | .value x => some x
      | .unreadable => b.planned
      | .blank => b.planned.or defaultPlan
    run := b.run.take r.run
    ideal := r.ideal.number?.or b.ideal
    produced := b.produced.take r.produced
    good := b.good.take r.good
    unplanned := b.unplanned.take r.unplanned }

/-- The station a row names. -/
def stationOf (entry : Entry) (row : List (String × Cell)) : String :=
  strip (textOf lib (field row entry.stationColumn) 255)

/-- The rows that are read, with their station: those that name one, and the wanted one where one is. -/
def stationRows (entry : Entry) (wanted : String) (rows : List (List (String × Cell))) :
    List (String × Readings) :=
  (rows.map fun row => (stationOf lib entry row, readings lib entry row)).filter fun m =>
    m.1 ≠ "" ∧ (wanted = "" ∨ m.1 = wanted)

/-- `by_station`. -/
def byStation (defaultPlan : Option Binary64) (members : List (String × Readings)) :
    List (String × Bucket) :=
  members.foldl (fun d m => Dict.modify m.1 (fun b => (b.getD .empty).account defaultPlan m.2) d) []

/-- The place of `-x` among the doubles. -/
def descending (x : Binary64) : ℤ ×ₗ ℚ :=
  match x with
  | .finite q _ => toLex (0, -q)
  | .infinite false => toLex (-1, 0)
  | .infinite true => toLex (1, 0)
  | .nan => toLex (2, 0)

/-- `(-item['produced'], item['station'])`. -/
def sortKey (m : String × Bucket) : (ℤ ×ₗ ℚ) ×ₗ List Char :=
  toLex (descending m.2.produced.sum, m.1.toList)

/-- The stations in the order of the report. -/
def ranked (stations : List (String × Bucket)) : List (String × Bucket) :=
  stations.insertionSort fun m n => sortKey m ≤ sortKey n

/-! ### Factors -/

/-- The inputs of the factors. -/
structure Inputs where
  planned : Option Binary64
  run : Option Binary64
  ideal : Option Binary64
  produced : Option Binary64
  good : Option Binary64
  deriving DecidableEq

/-- `_factor_availability`. -/
def factorAvailability (planned run : Option Binary64) : Option Binary64 :=
  match planned, run with
  | some p, some r => if p.le .zero then none else some (r.div p)
  | _, _ => none

/-- `_factor_performance`. -/
def factorPerformance (ideal run produced : Option Binary64) : Option Binary64 :=
  match ideal, run, produced with
  | some i, some r, some n => if r.le .zero then none else some ((i.mul n).div r)
  | _, _, _ => none

/-- `_factor_quality`. -/
def factorQuality (produced good : Option Binary64) : Option Binary64 :=
  match produced, good with
  | some n, some g => if n.le .zero then none else if n.lt g then none else some (g.div n)
  | _, _ => none

def factors : List String := ["availability", "performance", "quality"]

/-- A factor of the inputs. -/
def Inputs.factor (i : Inputs) : String → Option Binary64
  | "availability" => factorAvailability i.planned i.run
  | "performance" => factorPerformance i.ideal i.run i.produced
  | "quality" => factorQuality i.produced i.good
  | _ => none

/-- The index: the product of the factors, where each is computable. -/
def Inputs.oee (i : Inputs) : Option Binary64 :=
  match i.factor "availability", i.factor "performance", i.factor "quality" with
  | some a, some p, some q => some ((((Binary64.ofRat 1).mul a).mul p).mul q)
  | _, _, _ => none

/-- `FACTOR_INPUTS`. -/
def factorInputs : String → List String
  | "availability" => ["planned_run_seconds", "run_seconds"]
  | "performance" => ["ideal_cycle_seconds", "run_seconds", "produced"]
  | "quality" => ["produced", "good"]
  | _ => []

/-- `inputs.get(name)`. -/
def Inputs.get (i : Inputs) : String → Option Binary64
  | "planned_run_seconds" => i.planned
  | "run_seconds" => i.run
  | "ideal_cycle_seconds" => i.ideal
  | "produced" => i.produced
  | "good" => i.good
  | _ => none

/-- Whether an input is there and cannot be used. -/
def Inputs.unusable (i : Inputs) (name : String) : Bool :=
  match i.get name with
  | none => false
  | some x =>
    if name = "good" then i.produced.any fun n => n.lt x
    else x.le .zero

/-- Why factors are not computable. -/
structure Missing where
  absent : List String
  unusable : List String
  deriving DecidableEq

/-- `_missing_inputs`. -/
def Inputs.missing (i : Inputs) : Missing :=
  let names := ((factors.filter fun f => (i.factor f).isNone).flatMap factorInputs).dedup
  ⟨sortTexts (names.filter fun n => (i.get n).isNone), sortTexts (names.filter i.unusable)⟩

/-! ### The report -/

/-- `round(value, 4)`. -/
def round4 (x : Binary64) : Binary64 :=
  match x with
  | .finite q _ => .ofRat (roundEven (q * 10 ^ 4) / 10 ^ 4)
  | x => x

/-- `_ratio`. -/
def ratio (value : Option Binary64) : Option Binary64 := value.map round4

/-- A station of the report. -/
structure Record where
  station : String
  samples : ℕ
  oee : Option Binary64
  oeeComputable : Bool
  availability : Option Binary64
  performance : Option Binary64
  quality : Option Binary64
  inputs : Inputs
  unplanned : Option Binary64
  notComputable : Missing
  path : Option String
  deriving DecidableEq

def Bucket.inputs (b : Bucket) : Inputs :=
  ⟨b.planned, b.run.value?, b.ideal, b.produced.value?, b.good.value?⟩

/-- The record of a station. -/
def record (levels : List String) (entry : Entry) (m : String × Bucket) : Record :=
  let i := m.2.inputs
  { station := m.1
    samples := m.2.samples
    oee := ratio i.oee
    oeeComputable := i.oee.isSome
    availability := ratio (i.factor "availability")
    performance := ratio (i.factor "performance")
    quality := ratio (i.factor "quality")
    inputs := i
    unplanned := if entry.unplannedColumn = "" then none else some m.2.unplanned.sum
    notComputable := i.missing
    path := bindPath lib levels m.1 }

/-- `good > produced`, where both were read. -/
def Inputs.goodExceeds (i : Inputs) : Bool :=
  match i.produced, i.good with
  | some n, some g => n.lt g
  | _, _ => false

/-- What `report` returns. -/
structure Report where
  register : String
  station : String
  stations : List Record
  stationCount : ℕ
  computableCount : ℕ
  goodExceedsProduced : ℕ
  unbound : ℕ
  unreadable : ℕ
  skipped : ℕ
  scanned : ℕ
  truncated : Bool
  deriving DecidableEq

/-- What `report` makes of the rows. -/
def reportOf (levels : List String) (entry : Entry) (wanted : String) (limit : ℕ) (sheet : Sheet) :
    Report :=
  let rows := sheet.rows.take maxRows
  let members := stationRows lib entry wanted rows
  let stations := byStation entry.plannedRunSeconds members
  let shown := (ranked stations).take limit
  let records := shown.map (record lib levels entry)
  { register := entry.register
    station := wanted
    stations := records
    stationCount := stations.length
    computableCount := records.countP Record.oeeComputable
    goodExceedsProduced := shown.countP fun m => m.2.inputs.goodExceeds
    unbound := records.countP fun r => r.path.isNone
    unreadable := (members.map fun m => m.2.unreadable).sum
    skipped := rows.countP fun row => stationOf lib entry row == ""
    scanned := rows.length
    truncated := decide (limit < stations.length) || sheet.truncated }

/-- `report`. -/
def report (station : String) (limit : ℤ) : Except Err Report := do
  let limit ← bounded limit "limit" 1 maxStations
  let levels ← declaredLevels lib eng
  ensure (levels ≠ []) (.forbidden "No asset hierarchy is declared for this tenant")
  let entry ← resolveRegister lib eng
  let sheet ← eng.read entry.register entry.range
  pure (reportOf lib levels entry (strip (String.ofList (station.toList.take 255))) limit sheet)

end AgentPlatform.Oee
