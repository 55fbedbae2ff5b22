import AgentPlatform.Json
import AgentPlatform.Lib.Patterns

/-!
# The declaration of a business graph

`graph_config` of `business_graph.py`: an entity names its sources, their keys and the columns they map to
attributes; a priority table gives the order of the sources for an attribute. The table at the top level is
shared: every entity takes it, its own entries over the shared ones.

`_entity` checks the whole table it takes, so a shared entry has to fit every entity that does not replace it
(`graphConfig_ok_iff`).
-/

namespace AgentPlatform.Graph

open Outcome

/-- What the declaration uses of Python: `repr`, and `json.loads`. -/
structure Parser where
  repr : Json → String
  loads : String → Option Json

/-- A declared source. -/
structure Source where
  tool : String
  args : List (String × Json)
  key : String
  map : List (String × String)

/-- A source order for some attributes. -/
abbrev Table := List (String × List String)

/-- A declared entity; `order` of the source is its `priority`. -/
structure Entry where
  identity : String
  sources : List (String × Source)
  priority : List String
  attributes : List String
  sourcePriority : Table

inductive ConflictPolicy
  | report
  | primaryWins
  deriving DecidableEq

/-- A validated graph. -/
structure Config where
  conflictPolicy : ConflictPolicy
  entities : List (String × Entry)
  sourcePriority : Table

def maxEntities : ℕ := 20
def maxSources : ℕ := 8
def maxMap : ℕ := 40
def maxPriorityAttributes : ℕ := 40

def safeSourceTools : List String := ["connectors.read", "database.read", "sheets.read", "sheets.rows"]

def isLower (c : Char) : Bool := decide ('a' ≤ c) && decide (c ≤ 'z')

def isNameChar (c : Char) : Bool := isLower c || c.isDigit || c == '_' || c == '.' || c == '-'

/-- `ENTITY_RE` and `SOURCE_RE`. -/
def nameRe (text : String) : Bool := Pattern.anchored (Pattern.run isLower isNameChar 63) text.toList

/-- `ATTRIBUTE_RE`. -/
def attributeRe (text : String) : Bool :=
  Pattern.anchored (Pattern.run isLower (fun c => isNameChar c && c != '-') 63) text.toList

def sortTexts (texts : List String) : List String := texts.insertionSort fun a b => a.toList ≤ b.toList

/-- `sorted(set(value) - allowed)`. -/
def unknownKeys (allowed : List String) (members : List (String × Json)) : List String :=
  sortTexts ((members.map Prod.fst).filter fun k => !allowed.contains k)

variable (lib : Parser)

def reprTexts (texts : List String) : String := lib.repr (.arr (texts.map .str))

/-- `_text`. -/
def textOf (value : Json) (name : String) (maximum : ℕ) : Except Err String :=
  match value with
  | .str s => do
    ensure (s ≠ "" ∧ s.length ≤ maximum) (.valueError
      (name ++ " must be a non-empty string of at most " ++ toString maximum ++ " characters"))
    pure s
  | _ => .error (.valueError
      (name ++ " must be a non-empty string of at most " ++ toString maximum ++ " characters"))

/-! ### Priority tables -/

/-- `SOURCE_RE.match(value)`, for a text. -/
def sourceName (value : Json) (e : Err) : Except Err String :=
  match value with
  | .str s => do
    ensure (nameRe s = true) e
    pure s
  | _ => .error e

/-- The primary source of an entry, where it names one. -/
def primaryOf (label attr : String) (value : Json) : Except Err (List String) :=
  match value with
  | .null => .ok []
  | value => do
    let name ← sourceName value
      (.valueError (label ++ "." ++ attr ++ ".primary is not a valid source name"))
    pure [name]

/-- The order after one more fallback. -/
def fallbackStep (label attr : String) (order : List String) (value : Json) :
    Except Err (List String) := do
  let name ← sourceName value
    (.valueError (label ++ "." ++ attr ++ ".fallback has an invalid source name"))
  pure (if order.contains name then order else order ++ [name])

/-- `primary` and `fallback` of an entry: an object, or the primary source itself. -/
def primaryAndFallback (label attr : String) (entry : Json) : Except Err (Json × List Json) :=
  match entry with
  | .obj members => do
    let unknown := unknownKeys ["primary", "fallback"] members
    ensure (unknown = []) (.valueError
      (label ++ "." ++ attr ++ " has unsupported keys: " ++ reprTexts lib unknown))
    match entry.getD "fallback" (.arr []) with
    | .arr fallback => pure (entry.getD "primary" .null, fallback)
    | _ => throw (.valueError (label ++ "." ++ attr ++ ".fallback must be a list"))
  | entry => .ok (entry, [])

/-- One entry of a priority table. -/
def priorityEntry (label : String) (member : String × Json) : Except Err (String × List String) := do
  ensure (attributeRe member.1 = true) (.valueError
    ("Invalid attribute " ++ lib.repr (.str member.1) ++ " in " ++ label))
  let (primary, fallback) ← primaryAndFallback lib label member.1 member.2
  let first ← primaryOf label member.1 primary
  let order ← fallback.foldlM (fallbackStep label member.1) first
  ensure (order ≠ []) (.valueError (label ++ "." ++ member.1 ++ " declares no source at all"))
  pure (member.1, order)

/-- `_priority_table`. -/
def priorityTable (value : Json) (label : String) : Except Err Table :=
  match value with
  | .null => .ok []
  | .obj members => do
    ensure (members.length ≤ maxPriorityAttributes) (.valueError
      (label ++ " must be an object of at most " ++ toString maxPriorityAttributes ++ " attributes"))
    members.mapM (priorityEntry lib label)
  | _ => .error (.valueError
      (label ++ " must be an object of at most " ++ toString maxPriorityAttributes ++ " attributes"))

/-! ### Sources -/

/-- `set(value)`: the items of a list have to be hashable. -/
def hashable (items : List Json) : Except Err Unit :=
  ensure (items.all fun v => match v with | .arr _ => false | .obj _ => false | _ => true)
    (.typeError "unhashable type")

/-- The columns `key` and `map` read that are not among the declared ones. -/
def missingColumns (key : String) (mapping : List (String × String)) (columns : List Json) :
    Except Err (List String) := do
  hashable columns
  let read := (key :: mapping.map Prod.snd).dedup
  pure (sortTexts (read.filter fun c => !(Json.arr columns).hasText c))

/-- The request of a `database.read` source. -/
def requestColumns (where_ key : String) (mapping : List (String × String)) (request : Json) :
    Except Err Unit :=
  match request.isDict && (request.getD "operation" .null).isText "read",
      request.getD "columns" .null with
  | true, .arr columns => do
    let missing ← missingColumns key mapping columns
    ensure (missing = []) (.valueError
      ("Source " ++ where_ ++ " reads columns that are not requested: " ++ reprTexts lib missing))
  | _, _ => .ok ()

/-- `_require_readable_fields`. -/
def requireReadableFields (where_ tool : String) (args : Json) (key : String)
    (mapping : List (String × String)) : Except Err Unit :=
  if tool = "connectors.read" then
    match args.getD "columns" .null with
    | .arr columns => do
      let missing ← missingColumns key mapping columns
      ensure (missing = []) (.valueError
        ("Source " ++ where_ ++ " reads columns that are not declared: " ++ reprTexts lib missing))
    | _ => .error (.valueError ("Source " ++ where_ ++ " connectors.read requires columns"))
  else if tool = "database.read" then
    match args.getD "request_json" .null with
    | .str text =>
      match lib.loads text with
      | some request => requestColumns lib where_ key mapping request
      | none => .error (.valueError ("Source " ++ where_ ++ " request_json is not valid JSON"))
    | _ => .ok ()
  else .ok ()

/-- One mapped attribute. -/
def mapEntry (where_ : String) (member : String × Json) : Except Err (String × String) := do
  ensure (attributeRe member.1 = true) (.valueError
    ("Invalid attribute " ++ lib.repr (.str member.1) ++ " in source " ++ where_))
  let field ← textOf member.2 (where_ ++ "." ++ member.1) 64
  pure (member.1, field)

/-- A tool that may back a source. -/
def safeTool (where_ : String) (value : Json) : Except Err String :=
  match value with
  | .str tool => do
    ensure (tool ∈ safeSourceTools) (.valueError
      ("Source " ++ where_ ++ " tool must be one of " ++ reprTexts lib safeSourceTools))
    pure tool
  | _ => .error (.valueError
      ("Source " ++ where_ ++ " tool must be one of " ++ reprTexts lib safeSourceTools))

/-- The members of a non-empty dictionary. -/
def nonemptyDict (value : Json) (most : Option ℕ) (e : Err) : Except Err (List (String × Json)) :=
  match value with
  | .obj members => do
    ensure (members ≠ [] ∧ ∀ n ∈ most, members.length ≤ n) e
    pure members
  | _ => .error e

/-- `_source`. -/
def source (where_ : String) (value : Json) : Except Err Source :=
  match value with
  | .obj members => do
    let unknown := unknownKeys ["tool", "args", "key", "map"] members
    ensure (unknown = []) (.valueError
      ("Source " ++ where_ ++ " has unsupported keys: " ++ reprTexts lib unknown))
    let tool ← safeTool lib where_ (value.getD "tool" .null)
    let args ← nonemptyDict (value.getD "args" .null) none
      (.valueError ("Source " ++ where_ ++ " requires operator-declared args"))
    let key ← textOf (value.getD "key" .null) (where_ ++ ".key") 64
    let mapping ← nonemptyDict (value.getD "map" .null) (some maxMap)
      (.valueError ("Source " ++ where_ ++ " requires 1.." ++ toString maxMap ++ " mapped attributes"))
    let map ← mapping.mapM (mapEntry lib where_)
    requireReadableFields lib where_ tool (.obj args) key map
    pure ⟨tool, args, key, map⟩
  | _ => .error (.valueError ("Source " ++ where_ ++ " must be an object"))

/-! ### Entities -/

/-- One source of an entity. -/
def namedSource (entity : String) (member : String × Json) : Except Err (String × Source) := do
  ensure (nameRe member.1 = true) (.valueError
    ("Invalid source name " ++ lib.repr (.str member.1) ++ " in entity " ++ entity))
  let clean ← source lib (entity ++ "." ++ member.1) member.2
  pure (member.1, clean)

/-- The whole-entity order. -/
def priorityOf (entity : String) (declared : Option Json) (names : List String) :
    Except Err (List String) :=
  match declared with
  | none => .ok (if 1 < names.length then sortTexts names else names)
  | some (.arr items) => do
    let e : Err := .valueError ("Entity " ++ entity ++ " priority must list every source exactly once")
    ensure (items.length = names.length) e
    hashable items
    ensure (∀ name ∈ names, (Json.arr items).hasText name = true) e
    pure (items.filterMap fun v => match v with | .str s => some s | _ => none)
  | some _ => .error (.valueError
      ("Entity " ++ entity ++ " priority must list every source exactly once"))

/-- `{**shared, **own}`. -/
def merge (shared own : Table) : Table :=
  (shared.map fun m => (m.1, (own.lookup m.1).getD m.2)) ++
    own.filter fun m => !(shared.map Prod.fst).contains m.1

/-- One entry of the table an entity takes. -/
def checkOrder (entity : String) (attributes names : List String) (m : String × List String) :
    Except Err Unit := do
  ensure (m.1 ∈ attributes) (.valueError
    ("Entity " ++ entity ++ " declares priority for attribute " ++ lib.repr (.str m.1) ++
      ", which no source maps"))
  m.2.forM fun name => ensure (name ∈ names) (.valueError
    ("Entity " ++ entity ++ " priority for " ++ lib.repr (.str m.1) ++ " names source " ++
      lib.repr (.str name) ++ ", which the entity does not declare"))

/-- The attributes the sources map. -/
def mappedAttributes (sources : List (String × Source)) : List String :=
  sortTexts ((sources.flatMap fun s => s.2.map.map Prod.fst).dedup)

/-- What `_entity` reads before it looks at the tables: all fields but `source_priority`. -/
def entityBase (name : String) (entry : Json) : Except Err Entry :=
  match entry with
  | .obj members => do
    let unknown := unknownKeys ["identity", "sources", "priority", "source_priority"] members
    ensure (unknown = []) (.valueError
      ("Business graph entity " ++ name ++ " has unsupported keys: " ++ reprTexts lib unknown))
    let identity ← textOf (entry.getD "identity" (.str "id")) (name ++ ".identity") 64
    let declared ← nonemptyDict (entry.getD "sources" .null) (some maxSources) (.valueError
      ("Business graph entity " ++ name ++ " requires 1.." ++ toString maxSources ++ " sources"))
    let sources ← declared.mapM (namedSource lib name)
    let priority ← priorityOf name (entry.get? "priority") (sources.map Prod.fst)
    let attributes := mappedAttributes sources
    ensure (attributes ≠ []) (.valueError ("Entity " ++ name ++ " declares no mapped attributes"))
    pure ⟨identity, sources, priority, attributes, []⟩
  | _ => .error (.valueError ("Business graph entity " ++ name ++ " must be an object"))

/-- `sorted(table.items())`. -/
def sortedTable (table : Table) : Table := table.insertionSort fun m m' => m.1.toList ≤ m'.1.toList

/-- `_entity`. -/
def entity (name : String) (entry : Json) (shared : Table) : Except Err Entry := do
  let base ← entityBase lib name entry
  let own ← priorityTable lib (entry.getD "source_priority" .null) (name ++ ".source_priority")
  let table := merge shared own
  (sortedTable table).forM (checkOrder lib name base.attributes (base.sources.map Prod.fst))
  pure { base with sourcePriority := table }

/-! ### The graph -/

/-- One entity of the graph. -/
def namedEntity (shared : Table) (member : String × Json) : Except Err (String × Entry) := do
  ensure (nameRe member.1 = true) (.valueError
    ("Invalid business_graph entity name: " ++ lib.repr (.str member.1)))
  let entry ← entity lib member.1 member.2 shared
  pure (member.1, entry)

/-- `conflict_policy`. -/
def policyOf (value : Json) : Except Err ConflictPolicy :=
  if value.isText "report" then .ok .report
  else if value.isText "primary_wins" then .ok .primaryWins
  else if value.isText "newest_wins" then
    .error (.valueError ("conflict_policy newest_wins is not implemented: observed is " ++
      "the local read time, not the provider update time"))
  else .error (.valueError ("conflict_policy must be one of " ++ reprTexts lib ["report", "primary_wins"]))

/-- What `graph_config` reads before it looks at the entities: the policy, the declared entities and the
shared table. -/
def header (raw : Json) : Except Err (ConflictPolicy × List (String × Json) × Table) :=
  match raw with
  | .obj members => do
    let unknown := unknownKeys ["conflict_policy", "entities", "source_priority"] members
    ensure (unknown = []) (.valueError
      ("business_graph has unsupported keys: " ++ reprTexts lib unknown))
    let policy ← policyOf lib (raw.getD "conflict_policy" (.str "report"))
    let declared ← nonemptyDict (raw.getD "entities" (.obj [])) (some maxEntities)
      (.valueError ("business_graph requires 1.." ++ toString maxEntities ++ " entities"))
    let shared ← priorityTable lib (raw.getD "source_priority" .null) "business_graph.source_priority"
    pure (policy, declared, shared)
  | _ => .error (.valueError "business_graph must be an object")

/-- `graph_config`. -/
def graphConfig (raw : Json) : Except Err Config :=
  match raw with
  | .null => .ok ⟨.report, [], []⟩
  | raw => do
    let (policy, declared, shared) ← header lib raw
    let entities ← declared.mapM (namedEntity lib shared)
    pure ⟨policy, entities, shared⟩

/-! ### Shared priorities -/

/-- A shared priority fits an entity: the entity replaces it, or maps its attribute and declares the sources
it names. -/
def Entry.Fits (e : Entry) (m : String × List String) : Prop :=
  m.1 ∈ e.sourcePriority.map Prod.fst ∨
    m.1 ∈ e.attributes ∧ ∀ name ∈ m.2, name ∈ e.sources.map Prod.fst

variable {lib}

variable {name : String}

theorem checkOrder_ok {attributes names : List String} {m : String × List String} {u : Unit} :
    checkOrder lib name attributes names m = .ok u ↔ m.1 ∈ attributes ∧ ∀ n ∈ m.2, n ∈ names := by
  unfold checkOrder
  rw [bind_eq_ok, exists_unit, ensure_eq_ok, forM_eq_ok]
  simp only [ensure_eq_ok]

theorem checkTable_ok {attributes names : List String} {table : Table} {u : Unit} :
    (sortedTable table).forM (checkOrder lib name attributes names) = .ok u ↔
      ∀ m ∈ table, m.1 ∈ attributes ∧ ∀ n ∈ m.2, n ∈ names := by
  simp only [forM_eq_ok, sortedTable, List.mem_insertionSort, checkOrder_ok]

theorem merge_nil (own : Table) : merge [] own = own := by
  simp [merge]

variable {shared : Table}

/-- What holds of the entity's own entries holds of the table it takes when it holds of the shared entries
the entity does not replace. -/
theorem forall_merge {p : String × List String → Prop} {own : Table} (hown : ∀ m ∈ own, p m) :
    (∀ m ∈ merge shared own, p m) ↔ ∀ m ∈ shared, m.1 ∈ own.map Prod.fst ∨ p m := by
  constructor
  · intro h m hm
    by_cases hkey : m.1 ∈ own.map Prod.fst
    · exact .inl hkey
    · have hlookup : own.lookup m.1 = none := by
        rw [List.lookup_eq_none_iff]
        intro m' hm'
        simpa using fun heq => hkey (List.mem_map.2 ⟨m', hm', heq.symm⟩)
      refine .inr (h m (List.mem_append_left _ (List.mem_map.2 ⟨m, hm, ?_⟩)))
      rw [hlookup]
      rfl
  · intro h m hm
    rcases List.mem_append.1 hm with hm | hm
    · obtain ⟨m', hm', rfl⟩ := List.mem_map.1 hm
      cases hlookup : own.lookup m'.1 with
      | some order =>
        obtain ⟨before, after, heq, -⟩ := List.lookup_eq_some_iff.1 hlookup
        exact hown _ (heq ▸ List.mem_append_right _ List.mem_cons_self)
      | none =>
        refine (h m' hm').resolve_left fun hkey => ?_
        obtain ⟨m, hm, heq⟩ := List.mem_map.1 hkey
        have hne := List.lookup_eq_none_iff.1 hlookup m hm
        simp [heq] at hne
    · exact hown m (List.mem_of_mem_filter hm)

variable {value : Json}

theorem entity_ok {e : Entry} :
    entity lib name value shared = .ok e ↔
      ∃ base own, entityBase lib name value = .ok base ∧
        priorityTable lib (value.getD "source_priority" .null) (name ++ ".source_priority") = .ok own ∧
        (∀ m ∈ merge shared own,
          m.1 ∈ base.attributes ∧ ∀ n ∈ m.2, n ∈ base.sources.map Prod.fst) ∧
        { base with sourcePriority := merge shared own } = e := by
  unfold entity
  simp only [bind_eq_ok, exists_unit, pure_eq_ok, checkTable_ok, exists_and_left]

/-- An entity that is valid on its own is valid under a shared table exactly when the table fits it. -/
theorem entity_shared_iff {alone : Entry} (h : entity lib name value [] = .ok alone) (shared : Table) :
    (∃ e, entity lib name value shared = .ok e) ↔ ∀ m ∈ shared, alone.Fits m := by
  obtain ⟨base, own, hbase, hown, hcheck, rfl⟩ := entity_ok.1 h
  rw [merge_nil] at hcheck
  have hfits : (∀ m ∈ merge shared own,
      m.1 ∈ base.attributes ∧ ∀ n ∈ m.2, n ∈ base.sources.map Prod.fst) ↔
      ∀ m ∈ shared, ({ base with sourcePriority := merge [] own } : Entry).Fits m := by
    rw [forall_merge hcheck]
    simp only [Entry.Fits, merge_nil]
  rw [← hfits]
  constructor
  · rintro ⟨e, he⟩
    obtain ⟨base', own', hbase', hown', hcheck', -⟩ := entity_ok.1 he
    rw [hbase] at hbase'
    rw [hown] at hown'
    cases hbase'
    cases hown'
    exact hcheck'
  · intro hcheck'
    exact ⟨_, entity_ok.2 ⟨base, own, hbase, hown, hcheck', rfl⟩⟩

theorem entity_own_mapped {alone : Entry} (h : entity lib name value [] = .ok alone) :
    ∀ key ∈ alone.sourcePriority.map Prod.fst, key ∈ alone.attributes := by
  obtain ⟨base, own, -, -, hcheck, rfl⟩ := entity_ok.1 h
  intro key hkey
  obtain ⟨m, hm, rfl⟩ := List.mem_map.1 hkey
  exact (hcheck m hm).1

theorem namedEntity_ok {member : String × Json} {e : String × Entry} :
    namedEntity lib shared member = .ok e ↔
      nameRe member.1 = true ∧ e.1 = member.1 ∧ entity lib member.1 member.2 shared = .ok e.2 := by
  unfold namedEntity
  rw [bind_eq_ok, exists_unit, ensure_eq_ok]
  constructor
  · rintro ⟨hname, h⟩
    obtain ⟨entry, hentry, h⟩ := bind_eq_ok.1 h
    obtain rfl := pure_eq_ok.1 h
    exact ⟨hname, rfl, hentry⟩
  · rintro ⟨hname, hfst, hentry⟩
    refine ⟨hname, ?_⟩
    rw [hentry, ← hfst]
    rfl

/-- A loop succeeds where each of its calls does. -/
theorem entities_ok_iff {declared : List (String × Json)} {entities : List (String × Entry)}
    (halone : declared.mapM (namedEntity lib []) = .ok entities) :
    (∃ es, declared.mapM (namedEntity lib shared) = .ok es) ↔
      ∀ e ∈ entities, ∀ m ∈ shared, e.2.Fits m := by
  rw [mapM_eq_ok] at halone
  simp only [mapM_eq_ok]
  induction halone with
  | nil => exact iff_of_true ⟨[], .nil⟩ (by simp)
  | @cons member alone declared entities hhead _ ih =>
    obtain ⟨hname, hfst, hentity⟩ := namedEntity_ok.1 hhead
    rw [List.forall_mem_cons, ← entity_shared_iff hentity shared, ← ih]
    constructor
    · rintro ⟨es, hes⟩
      obtain ⟨e, es, he, hrest, rfl⟩ := List.forall₂_cons_left_iff.1 hes
      exact ⟨⟨e.2, (namedEntity_ok.1 he).2.2⟩, es, hrest⟩
    · rintro ⟨⟨e, he⟩, es, hrest⟩
      exact ⟨(member.1, e) :: es, .cons (namedEntity_ok.2 ⟨hname, rfl, he⟩) hrest⟩

/-- **A graph whose entities are valid on their own is accepted exactly when its shared priorities fit every
entity; one entity that does not map a shared attribute is enough for it to be refused.** -/
theorem graphConfig_ok_iff {raw : Json} {policy : ConflictPolicy} {declared : List (String × Json)}
    {shared : Table} {entities : List (String × Entry)}
    (hheader : header lib raw = .ok (policy, declared, shared))
    (halone : declared.mapM (namedEntity lib []) = .ok entities) :
    ((∃ c, graphConfig lib raw = .ok c) ↔ ∀ e ∈ entities, ∀ m ∈ shared, e.2.Fits m) ∧
      ∀ e ∈ entities, ∀ m ∈ shared, m.1 ∉ e.2.attributes → ¬∃ c, graphConfig lib raw = .ok c := by
  have hgraph : (∃ c, graphConfig lib raw = .ok c) ↔
      ∃ es, declared.mapM (namedEntity lib shared) = .ok es := by
    have hread : graphConfig lib raw = header lib raw >>= fun p =>
        p.2.1.mapM (namedEntity lib p.2.2) >>= fun es => pure ⟨p.1, es, p.2.2⟩ := by
      cases raw with
      | null => cases hheader
      | _ => rfl
    simp only [hread, bind_eq_ok, hheader, Except.ok.injEq, exists_eq_left', pure_eq_ok]
    constructor
    · rintro ⟨_, es, hes, -⟩
      exact ⟨es, hes⟩
    · rintro ⟨es, hes⟩
      exact ⟨_, es, hes, rfl⟩
  have hiff := hgraph.trans (entities_ok_iff halone)
  refine ⟨hiff, fun e he m hm hunmapped hok => ?_⟩
  rcases hiff.1 hok e he m hm with hown | hmapped
  · rw [mapM_eq_ok] at halone
    obtain ⟨member, -, hmember⟩ := exists_of_mem_right halone he
    exact hunmapped (entity_own_mapped (namedEntity_ok.1 hmember).2.2 _ hown)
  · exact hunmapped hmapped.1

/-! ### A product and a customer -/

/-- A `sheets.rows` source that maps one attribute. -/
def sheet (attr : String) : Json :=
  .obj [("tool", .str "sheets.rows"), ("args", .obj [("register", .str "book")]),
    ("key", .str "id"), ("map", .obj [(attr, .str "value")])]

/-- A graph of products, priced by two systems, with `erp` preferred for prices. -/
def products (others : List (String × Json)) : Json :=
  .obj [("entities", .obj (("product", .obj [("sources",
      .obj [("erp", sheet "price"), ("finance", sheet "price")])]) :: others)),
    ("source_priority", .obj [("price", .str "erp")])]

def plainParser : Parser := ⟨fun _ => "", fun _ => none⟩

theorem graphConfig_ok_iff_sample :
    ∃ entities : List (String × Entry), ((∃ c, graphConfig plainParser (products []) = .ok c) ↔
      ∀ e ∈ entities, ∀ m ∈ ([("price", ["erp"])] : Table), e.2.Fits m) ∧
      ∀ e ∈ entities, ∀ m ∈ ([("price", ["erp"])] : Table), m.1 ∉ e.2.attributes →
        ¬∃ c, graphConfig plainParser (products []) = .ok c :=
  ⟨_, @graphConfig_ok_iff plainParser (products []) .report [("product", .obj [("sources",
    .obj [("erp", sheet "price"), ("finance", sheet "price")])])] _ _ rfl rfl⟩

/-- A customer has no price, and a graph of products with shared prices is refused when one is added. -/
theorem shared_priority_refused :
    ¬∀ (lib : Parser) (raw : Json) (policy : ConflictPolicy) (declared : List (String × Json))
      (shared : Table) (entities : List (String × Entry)),
      header lib raw = .ok (policy, declared, shared) →
      declared.mapM (namedEntity lib []) = .ok entities →
      (∀ m ∈ shared, ∀ name ∈ m.2, ∃ e ∈ entities, ∃ s ∈ e.2.sources,
        s.1 = name ∧ m.1 ∈ s.2.map.map Prod.fst) →
      ∃ c, graphConfig lib raw = .ok c := by
  intro h
  have hmapped : ∀ e : String × Entry, e.2.sources = [("erp", ⟨"sheets.rows",
      [("register", .str "book")], "id", [("price", "value")]⟩), ("finance", ⟨"sheets.rows",
      [("register", .str "book")], "id", [("price", "value")]⟩)] →
      ∀ m ∈ ([("price", ["erp"])] : Table), ∀ name ∈ m.2, ∃ s ∈ e.2.sources,
        s.1 = name ∧ m.1 ∈ s.2.map.map Prod.fst := by
    intro e he m hm name hname
    rw [he]
    simp only [List.mem_singleton] at hm
    subst hm
    simp only [List.mem_singleton] at hname
    subst hname
    exact ⟨_, List.mem_cons_self, rfl, List.mem_cons_self⟩
  obtain ⟨c, hc⟩ := h plainParser (products [("customer", .obj [("sources", .obj [("crm", sheet "phone")])])])
    .report _ [("price", ["erp"])] _ rfl rfl
    fun m hm name hname => ⟨_, List.mem_cons_self, hmapped _ rfl m hm name hname⟩
  cases hc

end AgentPlatform.Graph
