import AgentPlatform.Graph.Numbers
import AgentPlatform.Graph.Search

/-!
# Figures of a product

`inventory_config`, `_figure`, `_reason` and `product` of `inventory.py`. A figure is an attribute of the
graph view reduced to a number and its source. It either gives a reason or has a number
(`reason_eq_empty_iff`), and a margin is computed where both of its figures have one.
-/

namespace AgentPlatform.Inventory

open Outcome AgentPlatform.Graph

def maxItems : ℕ := 100

/-- The validated `inventory` block. -/
structure Settings where
  entity : String
  identity : String
  attributes : List (String × String)

/-- What the declaration of the inventory depends on, besides the graph. -/
structure Engine extends Graph.Engine where
  inventory : Json

variable (lib : Library) (eng : Engine)

/-! ### Configuration -/

def roles : List String := ["category", "cost", "currency", "name", "price", "stock", "unit"]

/-- One role. -/
def roleEntry (member : String × Json) : Except Err (String × String) := do
  ensure (member.1 ∈ roles) (.valueError ("inventory.attributes has an unsupported role " ++
    lib.repr (.str member.1) ++ "; expected one of " ++ reprTexts lib.toParser roles))
  match member.2 with
  | .str attr => do
    ensure (attributeRe attr = true) (.valueError
      ("inventory.attributes." ++ member.1 ++ " must be a valid attribute name"))
    pure (member.1, attr)
  | _ => throw (.valueError ("inventory.attributes." ++ member.1 ++ " must be a valid attribute name"))

/-- `inventory.entity`. -/
def entityName (value : Json) : Except Err String :=
  match value with
  | .str entity => do
    ensure (entity = "" ∨ nameRe entity = true)
      (.valueError "inventory.entity must match ^[a-z][a-z0-9_.-]\x7b0,63\x7d$")
    pure entity
  | _ => .error (.valueError "inventory.entity must be a string")

/-- `inventory.identity`. -/
def identityName (value : Json) : Except Err String :=
  match value with
  | .str identity => do
    ensure (attributeRe identity = true)
      (.valueError "inventory.identity must be a valid attribute name")
    pure identity
  | _ => .error (.valueError "inventory.identity must be a valid attribute name")

/-- `inventory.attributes`. -/
def roleTable (value : Json) : Except Err (List (String × String)) :=
  match value with
  | .obj members => do
    ensure (members.length ≤ maxPriorityAttributes) (.valueError
      ("inventory.attributes is limited to " ++ toString maxPriorityAttributes ++ " entries"))
    let clean ← members.mapM (roleEntry lib)
    ensure (clean ≠ []) (.valueError "inventory.attributes declares no attribute at all")
    pure clean
  | _ => .error (.valueError "inventory.attributes must be an object")

/-- `inventory_config`. -/
def inventoryConfig : Except Err Settings :=
  match eng.inventory with
  | .null => .ok ⟨"", "sku", []⟩
  | .obj members => do
    let raw := Json.obj members
    let unknown := unknownKeys ["entity", "identity", "attributes"] members
    ensure (unknown = []) (.valueError
      ("inventory has unsupported keys: " ++ reprTexts lib.toParser unknown))
    let entity ← entityName (raw.getD "entity" (.str ""))
    let identity ← identityName (raw.getD "identity" (.str "sku"))
    let attributes ← roleTable lib (raw.getD "attributes" (.obj []))
    pure ⟨entity, identity, attributes⟩
  | _ => .error (.valueError "inventory must be an object")

/-- `_settings`. -/
def settings : Except Err Settings := do
  let s ← inventoryConfig lib eng
  ensure (s.entity ≠ "") (.forbidden
    "Inventory is not configured for this tenant: inventory.entity is not declared")
  pure s

/-- `_attribute`; the empty text where the role is not mapped. -/
def Settings.attr (s : Settings) (role : String) : String := (s.attributes.lookup role).getD ""

/-! ### Figures -/

/-- One observation of a figure. -/
structure FigureValue where
  source : String
  value : Cell
  number : Option Binary64
  observed : Time
  deriving DecidableEq

/-- The selected observation of a figure. -/
structure FigureSelection where
  value : Cell
  number : Option Binary64
  source : String
  deriving DecidableEq

/-- What `_figure` returns. -/
structure Figure where
  attr : String
  declared : Bool
  values : List FigureValue
  selected : Option FigureSelection
  conflict : Bool
  unreadable : ℕ
  missing : Bool
  deriving DecidableEq

/-- `_number`. -/
def number (value : Cell) : Option Binary64 := cellNumber lib.toTexts value

/-- A number where the figure is numeric. -/
def numberIf (numeric : Bool) (value : Cell) : Option Binary64 :=
  if numeric then number lib value else none

/-- `_observations`. -/
def observations (view : View) (attr : String) : List Observation :=
  if attr = "" then [] else ((view.attributes.lookup attr).map AttributeView.values).getD []

/-- What the graph selected for an attribute. -/
def selectedOf (view : View) (attr : String) : Option Selection :=
  (view.attributes.lookup attr).bind AttributeView.selected

/-- `_figure`. -/
def figure (view : View) (attr : String) (numeric : Bool) : Figure :=
  let values := observations view attr
  if attr = "" then ⟨"", false, [], none, false, 0, true⟩
  else if values = [] then ⟨attr, true, [], none, false, 0, true⟩
  else
    { attr := attr
      declared := true
      values := values.map fun o => ⟨o.source, o.value, numberIf lib numeric o.value, o.observed⟩
      selected := (selectedOf view attr).map fun s => ⟨s.value, numberIf lib numeric s.value, s.source⟩
      conflict := ((view.attributes.lookup attr).map AttributeView.conflict).getD false
      unreadable := if numeric then values.countP fun o => (number lib o.value).isNone else 0
      missing := false }

/-- `_selected_number`. -/
def selectedNumber (f : Figure) : Option Binary64 := f.selected.bind FigureSelection.number

/-- `_reason`. -/
def reason (f : Figure) : String :=
  if f.declared = false then "not_declared"
  else if f.missing = true then "blank"
  else if f.conflict = true ∧ f.selected.isNone then "conflict"
  else
    match f.selected with
    | some s =>
      if s.number.isNone then
        if f.values.any fun v => v.number.isSome then "priority_unreadable" else "unread"
      else ""
    | none => if f.unreadable ≠ 0 then "unread" else "blank"

def policyReasons : List String := ["conflict", "priority_unreadable"]

/-- The reasons two figures give, sorted, each once. -/
def reasonsOf (price cost : Figure) : List String :=
  sortTexts (([reason price, reason cost].filter fun r => r ≠ "").dedup)

/-- `(figure.get('selected') or {}).get('value', '')`. -/
def shown (f : Figure) : Cell :=
  match f.selected with
  | some s => s.value
  | none => .str ""

/-- A difference of two numbers. -/
def difference (price cost : Option Binary64) : Option Binary64 :=
  match price, cost with
  | some p, some c => some (p.sub c)
  | _, _ => none

/-! ### One product -/

/-- The shape of `IDENTITY_RE`. -/
def identityShape (text : List Char) : Bool :=
  decide (1 ≤ text.length) && decide (text.length ≤ 64) &&
    text.all fun c => !isSpace c && decide (32 ≤ c.toNat)

/-- `_identity`, of a text. -/
def identity (value : String) : Except Err String := do
  ensure (value ≠ "") (.valueError "product_id is required")
  ensure (Pattern.anchored identityShape (strip value).toList = true)
    (.valueError "product_id is not a valid product identity")
  pure (strip value)

/-- What `product` returns. -/
structure ProductAnswer where
  entity : String
  id : String
  name : Cell
  price : Figure
  cost : Figure
  stock : Figure
  currency : Cell
  unit : Cell
  margin : Option Binary64
  marginComputable : Bool
  notComputable : List String
  marginBlockedByConflict : List String
  view : View

/-- What `product` makes of a view. -/
def productOf (s : Settings) (productId : String) (view : View) : ProductAnswer :=
  let price := figure lib view (s.attr "price") true
  let cost := figure lib view (s.attr "cost") true
  let margin := difference (selectedNumber price) (selectedNumber cost)
  let reasons := reasonsOf price cost
  { entity := s.entity
    id := productId
    name := shown (figure lib view (s.attr "name") false)
    price := price
    cost := cost
    stock := figure lib view (s.attr "stock") true
    currency := shown (figure lib view (s.attr "currency") false)
    unit := shown (figure lib view (s.attr "unit") false)
    margin := margin
    marginComputable := margin.isSome
    notComputable := reasons.filter fun r => !policyReasons.contains r
    marginBlockedByConflict := reasons.filter fun r => policyReasons.contains r
    view := view }

/-- `product`. -/
def product (productId : String) : Except Err ProductAnswer := do
  let s ← settings lib eng
  let id ← identity productId
  let view ← resolve lib eng.toEngine s.entity id
  pure (productOf lib s id view)

variable {lib}

/-- A figure of a view has a number exactly where it gives no reason. -/
theorem reason_eq_empty_iff (view : View) (attr : String) :
    reason (figure lib view attr true) = "" ↔ (selectedNumber (figure lib view attr true)).isSome := by
  unfold figure
  by_cases hattr : attr = ""
  · simp [hattr, reason, selectedNumber]
  by_cases hvalues : observations view attr = []
  · simp [hattr, hvalues, reason, selectedNumber]
  simp only [hattr, hvalues, if_false, reason, selectedNumber]
  cases selectedOf view attr with
  | none =>
    simp only [Option.map_none, Option.isNone_none, Option.bind_none]
    split_ifs <;> simp
  | some s =>
    cases hnumber : numberIf lib true s.value with
    | none =>
      simp only [Option.map_some, Option.bind_some, hnumber]
      split_ifs <;> simp_all
    | some x => simp [hnumber]

theorem mem_reasonsOf {price cost : Figure} {r : String} :
    r ∈ reasonsOf price cost ↔ r ≠ "" ∧ (r = reason price ∨ r = reason cost) := by
  simp [reasonsOf, sortTexts, and_comm]

/-- A margin has no reasons against it exactly where both figures have a number. -/
theorem reasonsOf_eq_nil_iff (view : View) (price cost : String) :
    reasonsOf (figure lib view price true) (figure lib view cost true) = [] ↔
      (difference (selectedNumber (figure lib view price true))
        (selectedNumber (figure lib view cost true))).isSome := by
  have hnil : reasonsOf (figure lib view price true) (figure lib view cost true) = [] ↔
      reason (figure lib view price true) = "" ∧ reason (figure lib view cost true) = "" := by
    rw [List.eq_nil_iff_forall_not_mem]
    constructor
    · intro h
      constructor
      · by_contra hr
        exact h _ (mem_reasonsOf.2 ⟨hr, .inl rfl⟩)
      · by_contra hr
        exact h _ (mem_reasonsOf.2 ⟨hr, .inr rfl⟩)
    · rintro ⟨hp, hc⟩ r hr
      obtain ⟨hne, h⟩ := mem_reasonsOf.1 hr
      rcases h with rfl | rfl
      · exact hne hp
      · exact hne hc
  rw [hnil, reason_eq_empty_iff, reason_eq_empty_iff]
  unfold difference
  cases selectedNumber (figure lib view price true) <;>
    cases selectedNumber (figure lib view cost true) <;> simp

end AgentPlatform.Inventory
