import AgentPlatform.Assets.Paths
import AgentPlatform.Graph.Search

/-!
# Views of the asset hierarchy

`tree`, `descendants` and `resolve` of `assets.py`, over the register as the business graph reads it. The two
lists take every identifier that is a path; `resolve` looks one path up. What the lists show at a path comes
from the identifier that was read as that path, whatever it was written like.
-/

namespace AgentPlatform.Assets

open Outcome Graph

def maxDescendants : ℕ := 200

/-- What `_collect_all` reads: the observations by identifier, with the sources. -/
abbrev Register := Collected (List (String × Observations))

/-- The values of an attribute, and how many. -/
structure Values where
  values : List Observation
  count : ℕ
  deriving DecidableEq

/-- A node of the tree; `attributes` at an asset. -/
structure Node where
  path : String
  level : String
  depth : ℕ
  segments : List String
  isAsset : Bool
  attributes : Option (List (String × Values))
  deriving DecidableEq

/-- What `tree` returns. -/
structure Tree where
  entity : String
  identity : String
  levels : List String
  root : String
  nodes : List Node
  count : ℕ
  truncated : Bool
  sources : List Status
  sourceErrors : List Problem
  complete : Bool
  observed : Time
  agent : String
  ladder : String

/-- An asset below a node, with the number of values of each attribute. -/
structure Descendant where
  path : String
  segments : List String
  level : String
  isAsset : Bool
  attributes : List (String × ℕ)
  deriving DecidableEq

/-- What `descendants` returns. -/
structure Descendants where
  root : String
  descendants : List Descendant
  count : ℕ
  returned : ℕ
  truncated : Bool
  sources : List Status
  sourceErrors : List Problem
  complete : Bool
  observed : Time
  agent : String
  ladder : String

/-- What `resolve` returns: the view of the graph, and where it is in the hierarchy. -/
structure Resolved where
  view : View
  level : String
  segments : List String
  isAsset : Bool
  path : String
  registered : Bool

variable (lib : Graph.Library) (assets : Json) (eng : Graph.Engine)

/-- `_asset_read`. -/
def assetRead : Except Err (Entry × Register) := do
  let entity ← assetEntity assets
  let (_, entry) ← declaration lib eng entity
  preflight eng entry
  let register ← collectAll lib eng entry
  pure (entry, register)

/-- `declared[n - 1]`. -/
def levelAt (levels : List String) (n : ℕ) : String := levels.getD (n - 1) ""

/-! ### `tree` -/

/-- The attributes a node of the tree shows. -/
def shown (found : Observations) : List (String × Values) :=
  (sortedObservations found).map fun m => (m.1, ⟨m.2, m.2.length⟩)

/-- The node of a path before an asset is put there. -/
def freshNode (levels segments : List String) : Node :=
  ⟨formatPath segments, levelAt levels segments.length, segments.length, segments,
    decide (segments.length = levels.length), none⟩

/-- The node above an asset at a depth, and the asset itself at its own. -/
def putNode (levels segments : List String) (found : Observations) (nodes : List (String × Node)) (cut : ℕ) :
    List (String × Node) :=
  Dict.modify (formatPath (segments.take cut)) (fun old =>
    let node := old.getD (freshNode levels (segments.take cut))
    if cut = segments.length then { node with attributes := some (shown found) } else node) nodes

/-- `keep`: how many levels are returned. -/
def keptLevels (levels parent : List String) (depth : Option ℕ) : ℕ :=
  match depth with
  | some d => if parent ≠ [] then parent.length + d else d
  | none => levels.length

/-- `range(len(prefix) + 1, min(len(segments), len(prefix) + keep) + 1)`. -/
def cuts (parent segments : List String) (keep : ℕ) : List ℕ :=
  List.range' (parent.length + 1) (min segments.length (parent.length + keep) - parent.length)

/-- One identifier of the register. -/
def place (levels parent : List String) (keep : ℕ) (nodes : List (String × Node))
    (item : String × Observations) : List (String × Node) :=
  match placeable lib.toParser assets item.1 with
  | none => nodes
  | some segments =>
    if parent ≠ [] ∧ segments.take parent.length ≠ parent then nodes
    else (cuts parent segments keep).foldl (putNode levels segments item.2) nodes

/-- `type(depth) is int and 1 <= depth <= len(declared)`, where there is one. -/
def checkDepth (levels : List String) : Option ℤ → Except Err (Option ℕ)
  | none => .ok none
  | some d => do
    ensure (1 ≤ d ∧ d ≤ levels.length) (.valueError
      ("depth must be an integer 1.." ++ toString levels.length))
    pure (some d.toNat)

/-- `prefix_path(tenant, path) if path else []`. -/
def parentOf (path : String) : Except Err (List String) :=
  if path = "" then .ok [] else prefixPath lib.toParser assets path

/-- The nodes of a register, by path. -/
def nodesOf (levels parent : List String) (depth : Option ℕ) (register : Register) : List (String × Node) :=
  register.found.foldl (place lib assets levels parent (keptLevels levels parent depth)) []

/-- `tree`. The `truncated` it returns is a constant. -/
def tree (path : String) (depth : Option ℤ) : Except Err Tree := do
  let levels ← hierarchy lib.toParser assets
  let depth ← checkDepth levels depth
  let parent ← parentOf lib assets path
  let (entry, register) ← assetRead lib assets eng
  let entity ← assetEntity assets
  let nodes := nodesOf lib assets levels parent depth register
  pure
    { entity := entity
      identity := entry.identity
      levels := levels
      root := if parent = [] then "" else formatPath parent
      nodes := (nodes.insertionSort fun m m' => m.1.toList ≤ m'.1.toList).map Prod.snd
      count := nodes.length
      truncated := false
      sources := register.status
      sourceErrors := register.errors
      complete := register.errors.isEmpty
      observed := eng.clock
      agent := eng.agent
      ladder := eng.ladder }

/-! ### `descendants` -/

/-- What the list says of an identifier below the node. -/
def descendantOf (levels parent : List String) (item : String × Observations) : Option Descendant :=
  match placeable lib.toParser assets item.1 with
  | none => none
  | some segments =>
    if isDescendant parent segments then
      some ⟨item.1, segments, levelAt levels segments.length, decide (segments.length = levels.length),
        (sortedObservations item.2).map fun m => (m.1, m.2.length)⟩
    else none

/-- One identifier of the register, after what is listed and how many were seen. -/
def listOne (levels parent : List String) (limit : ℕ) (out : List Descendant × ℕ)
    (item : String × Observations) : List Descendant × ℕ :=
  match descendantOf lib assets levels parent item with
  | none => out
  | some d => (if limit ≤ out.1.length then out.1 else out.1 ++ [d], out.2 + 1)

/-- `sorted(collected)`, with what was observed. -/
def sortedRegister (register : Register) : List (String × Observations) :=
  register.found.insertionSort fun m m' => m.1.toList ≤ m'.1.toList

/-- `descendants`. -/
def descendants (path : String) (limit : ℤ) : Except Err Descendants := do
  let limit ← bounded limit "limit" 1 maxDescendants
  let levels ← hierarchy lib.toParser assets
  let parent ← prefixPath lib.toParser assets path
  let (_, register) ← assetRead lib assets eng
  let (out, seen) := (sortedRegister register).foldl (listOne lib assets levels parent limit) ([], 0)
  pure
    { root := formatPath parent
      descendants := out
      count := seen
      returned := out.length
      truncated := decide (limit < seen)
      sources := register.status
      sourceErrors := register.errors
      complete := register.errors.isEmpty
      observed := eng.clock
      agent := eng.agent
      ladder := eng.ladder }

/-! ### `resolve` -/

/-- `resolve`. -/
def resolve (path : String) : Except Err Resolved := do
  let levels ← hierarchy lib.toParser assets
  let segments ← parsePath lib.toParser assets path
  let entity ← assetEntity assets
  let view ← Graph.resolve lib eng entity (formatPath segments)
  pure ⟨view, levelAt levels segments.length, segments, decide (segments.length = levels.length),
    formatPath segments, !view.attributes.isEmpty⟩

end AgentPlatform.Assets
