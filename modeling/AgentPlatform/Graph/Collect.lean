import AgentPlatform.Graph.Canonical
import AgentPlatform.Graph.Config
import AgentPlatform.Lib.Dict

/-!
# Reading the sources of an entity

`_rows`, `_collect`, `_collect_all` and `_view` of `business_graph.py`. A single record asks each source for
the first row with its identifier; a list reads the same rows once and puts what it observes under the
identifier of the row. `collectAll_agrees`: what the list finds under an identifier is what the single record
finds, and they fail alike; only the number of rows that matched differs.
-/

namespace AgentPlatform.Graph

open Outcome

/-- The libraries. -/
structure Library extends Parser, Texts

/-- A row of a source; `none` where it is not a dictionary. -/
abbrev Row := Option (List (String × Cell))

/-- What a read handler returns: not a dictionary, or one with its `rows` where they are a list, whether
`truncated` is `True`, and `limit` where it is an integer. -/
inductive Payload
  | other
  | dict (rows : Option (List Row)) (truncated : Bool) (limit : Option ℤ)

/-- What a read depends on: the declaration of the tenant, the handlers and validators of the read tools, the
registers, the policy of the agent and the clock. -/
structure Engine where
  graph : Json
  handler : Source → Except Err Payload
  validate : Source → Except Err Unit
  registers : Except Err (List (String × Json))
  agent : String
  tools : List String
  allowedConnections : List String
  ladder : String
  clock : Time

def maxScan : ℕ := 200
def maxMatches : ℕ := 100
def maxCellChars : ℕ := 200
def defaultSourceLimit : ℤ := 50

variable (lib : Library) (eng : Engine)

/-! ### Rows -/

/-- `_cell`. -/
def boundCell : Cell → Cell
  | .none => .str ""
  | .str s => .str (String.ofList (s.toList.take maxCellChars))
  | .other s => .str (String.ofList (s.toList.take maxCellChars))
  | v => v

/-- `row.get(name)`. -/
def field (row : List (String × Cell)) (name : String) : Cell := (row.lookup name).getD .none

/-- The value where it is an integer, and not a truth value. -/
def integer? : Json → Option ℤ
  | .int n => some n
  | _ => none

/-- The row ceiling the request of a source names. -/
def declaredCeiling (s : Source) : Option ℤ :=
  if s.tool = "database.read" then
    match (Json.obj s.args).getD "request_json" (.str "") with
    | .str text =>
      match lib.loads text with
      | some (.obj request) => integer? ((Json.obj request).getD "limit" (.int defaultSourceLimit))
      | _ => none
    | _ => none
  else if s.tool = "connectors.read" then
    integer? ((Json.obj s.args).getD "limit" (.int defaultSourceLimit))
  else none

/-- `_source_truncated`. -/
def sourceTruncated (s : Source) (truncated : Bool) (limit : Option ℤ) (rows : List Row) : Bool :=
  truncated || decide (maxScan < rows.length) ||
    (match limit.orElse fun _ => declaredCeiling lib s with
    | some ceiling => decide (0 < ceiling) && decide (ceiling ≤ rows.length)
    | none => false)

/-- `_rows`. -/
def rows (s : Source) : Except Err (List Row × Bool) := do
  match ← eng.handler s with
  | .dict (some rows) truncated limit => pure (rows, sourceTruncated lib s truncated limit rows)
  | .dict none _ _ => throw (.other "BusinessGraphError" "Source payload carried no row list")
  | .other => throw (.other "BusinessGraphError" "Source payload was not an object")

/-- A read inside `try`: a `Forbidden` is raised, any other exception is named. -/
def attempt (s : Source) : Except Err (Except String (List Row × Bool)) :=
  match rows lib eng s with
  | .ok r => .ok (.ok r)
  | .error e => if e.isForbidden then .error e else .ok (.error e.typeName)

/-- `entry['sources'][name]`. -/
def Entry.source (entry : Entry) (name : String) : Except Err Source :=
  need (entry.sources.lookup name) (.other "KeyError" name)

/-- The identifier of a row and its fields; `none` where the loops skip the row. -/
def keyed (s : Source) (row : Row) : Option (String × List (String × Cell)) :=
  match row with
  | none => none
  | some fields =>
    let raw := field fields s.key
    if raw = .none ∨ isBlank (raw.text lib.toTexts) = true then none
    else some (raw.text lib.toTexts, fields)

/-! ### Observations -/

/-- One value of an attribute, and where it comes from. -/
structure Observation where
  source : String
  value : Cell
  observed : Time
  deriving DecidableEq

/-- Observations by attribute. -/
abbrev Observations := List (String × List Observation)

/-- `observations.setdefault(attribute, []).append(item)`. -/
def note (found : Observations) (p : String × Observation) : Observations :=
  Dict.modify p.1 (fun old => old.getD [] ++ [p.2]) found

/-- What a row says about the mapped attributes. -/
def rowObservations (name : String) (s : Source) (fields : List (String × Cell)) :
    List (String × Observation) :=
  s.map.filterMap fun m =>
    let value := field fields m.2
    if value = .none ∨ value = .str "" then none
    else some (m.1, ⟨name, boundCell value, eng.clock⟩)

def noteRow (name : String) (s : Source) (fields : List (String × Cell)) (found : Observations) :
    Observations :=
  (rowObservations eng name s fields).foldl note found

/-- What was read of one source. -/
structure Status where
  source : String
  rows : ℕ
  matched : ℕ
  read : Bool
  truncated : Bool
  deriving DecidableEq

/-- A source that could not be read. -/
structure Problem where
  source : String
  error : String
  deriving DecidableEq

/-- What a pass over the sources has so far. -/
structure Collected (α : Type) where
  found : α
  status : List Status
  errors : List Problem

/-- What a pass over the rows of one source has so far. -/
structure Scan (α : Type) where
  found : α
  seen : List String
  matched : ℕ

/-- What a pass has after one more source, with what one row does. -/
def Collected.next {α : Type} (scanRow : Scan α → Row → Scan α) (c : Collected α) (name : String) :
    Except String (List Row × Bool) → Collected α
  | .error error =>
    { c with
      errors := c.errors ++ [⟨name, error⟩]
      status := c.status ++ [⟨name, 0, 0, false, false⟩] }
  | .ok (rows, cut) =>
    let scan := (rows.take maxScan).foldl scanRow ⟨c.found, [], 0⟩
    { c with
      found := scan.found
      status := c.status ++ [⟨name, rows.length, scan.matched, true, cut⟩] }

/-- The loop over the sources. -/
def overSources {α : Type} (entry : Entry) (scanRow : String → Source → Scan α → Row → Scan α)
    (c : Collected α) (name : String) : Except Err (Collected α) := do
  let s ← entry.source name
  let outcome ← attempt lib eng s
  pure (c.next (scanRow name s) name outcome)

/-- One row of `_collect_all`. -/
def scanAll (name : String) (s : Source) (scan : Scan (List (String × Observations))) (row : Row) :
    Scan (List (String × Observations)) :=
  match keyed lib s row with
  | none => scan
  | some (identifier, fields) =>
    if identifier ∈ scan.seen then scan
    else
      ⟨Dict.modify identifier (fun bucket => noteRow eng name s fields (bucket.getD [])) scan.found,
        identifier :: scan.seen, scan.matched + 1⟩

/-- One row of `_collect`. -/
def scanOne (entityId : Option String) (name : String) (s : Source) (scan : Scan Observations)
    (row : Row) : Scan Observations :=
  match keyed lib s row with
  | none => scan
  | some (identifier, fields) =>
    if (∃ id ∈ entityId, identifier ≠ id) ∨ identifier ∈ scan.seen then scan
    else ⟨noteRow eng name s fields scan.found, identifier :: scan.seen, scan.matched + 1⟩

/-- `_collect_all`. -/
def collectAll (entry : Entry) : Except Err (Collected (List (String × Observations))) :=
  entry.priority.foldlM (overSources lib eng entry (scanAll lib eng)) ⟨[], [], []⟩

/-- `_collect`. -/
def collect (entry : Entry) (entityId : Option String) : Except Err (Collected Observations) :=
  entry.priority.foldlM (overSources lib eng entry (scanOne lib eng entityId)) ⟨[], [], []⟩

/-! ### Views -/

/-- A value that was chosen, with its source. -/
structure Selection where
  value : Cell
  source : String
  deriving DecidableEq

/-- One attribute of a view. -/
structure AttributeView where
  values : List Observation
  conflict : Bool
  selected : Option Selection
  deriving DecidableEq

/-- A disagreement between sources. -/
structure Conflict where
  attr : String
  values : List Cell
  sources : List String
  resolution : ConflictPolicy
  selectedSource : Option String
  deriving DecidableEq

/-- What `_view` returns. -/
structure View where
  entity : String
  identity : String
  id : String
  attributes : List (String × AttributeView)
  conflicts : List Conflict
  conflictPolicy : ConflictPolicy
  sources : List Status
  sourceErrors : List Problem
  complete : Bool
  truncated : Bool
  sourcesTruncated : List String
  observed : Time
  agent : String
  ladder : String

/-- `_truncated_names(status)`. -/
def truncatedNames (status : List Status) : List String :=
  (status.filter Status.truncated).map Status.source

/-- `_truncated_names(status, unmatched_only=True)`. -/
def truncatedUnmatched (status : List Status) : List String :=
  (status.filter fun s => s.truncated && s.matched == 0).map Status.source

/-- `len({canonical(item['value']) for item in values}) > 1`. -/
def disagree (values : List Observation) : Bool :=
  match values.map fun o => canonical lib.toTexts o.value with
  | [] => false
  | key :: keys => keys.any fun k => !key.same k

def Observation.selection (o : Observation) : Selection := ⟨o.value, o.source⟩

/-- `_primary`. -/
def primary (entry : Entry) (attr : String) (values : List Observation) : Option String :=
  let order := match entry.sourcePriority.lookup attr with
    | some (name :: names) => name :: names
    | _ => entry.priority
  (order.find? fun name => values.any fun o => o.source == name).orElse
    fun _ => values.head?.map Observation.source

/-- The observation `primary_wins` chooses. -/
def chosen (entry : Entry) (attr : String) (values : List Observation) : Option Observation :=
  values.find? fun o => primary entry attr values == some o.source

/-- One attribute of the view. -/
def attributeView (entry : Entry) (policy : ConflictPolicy) (attr : String)
    (values : List Observation) : AttributeView :=
  ⟨values, disagree lib values,
    if disagree lib values = true then
      match policy with
      | .primaryWins => (chosen entry attr values).map Observation.selection
      | .report => none
    else values.head?.map Observation.selection⟩

/-- The conflict an attribute reports. -/
def conflictOf (entry : Entry) (policy : ConflictPolicy) (attr : String) (values : List Observation) :
    Option Conflict :=
  if disagree lib values = true then
    some ⟨attr, values.map Observation.value, values.map Observation.source, policy,
      match policy with
      | .primaryWins => (chosen entry attr values).map Observation.source
      | .report => none⟩
  else none

/-- `sorted(observations)`, with what was observed. -/
def sortedObservations (found : Observations) : Observations :=
  found.insertionSort fun m m' => m.1.toList ≤ m'.1.toList

/-- `_view`. -/
def view (name : String) (entry : Entry) (policy : ConflictPolicy) (entityId : String)
    (c : Collected Observations) : View :=
  { entity := name
    identity := entry.identity
    id := entityId
    attributes := (sortedObservations c.found).map fun m =>
      (m.1, attributeView lib entry policy m.1 m.2)
    conflicts := (sortedObservations c.found).filterMap fun m => conflictOf lib entry policy m.1 m.2
    conflictPolicy := policy
    sources := c.status
    sourceErrors := c.errors
    complete := c.errors.isEmpty
    truncated := !(truncatedUnmatched c.status).isEmpty
    sourcesTruncated := truncatedUnmatched c.status
    observed := eng.clock
    agent := eng.agent
    ladder := eng.ladder }

/-- `_view_from` of what `_collect_all` put under an identifier. -/
def viewFrom (name : String) (entry : Entry) (policy : ConflictPolicy) (entityId : String)
    (c : Collected (List (String × Observations))) : View :=
  view lib eng name entry policy entityId
    ⟨(c.found.lookup entityId).getD [], c.status, c.errors⟩

/-! ### One pass and a pass for each identifier -/

/-- What one row of `_collect_all` and of `_collect` leave alike, for an identifier. -/
def Scan.Agree (id : String) (all : Scan (List (String × Observations))) (one : Scan Observations) :
    Prop :=
  (all.found.lookup id).getD [] = one.found ∧ (id ∈ all.seen ↔ id ∈ one.seen)

variable {lib eng} {id name : String} {s : Source}

theorem scan_agree {all : Scan (List (String × Observations))} {one : Scan Observations} {row : Row}
    (h : all.Agree id one) :
    (scanAll lib eng name s all row).Agree id (scanOne lib eng (some id) name s one row) := by
  obtain ⟨hfound, hseen⟩ := h
  unfold scanAll scanOne
  cases keyed lib s row with
  | none => exact ⟨hfound, hseen⟩
  | some p =>
    obtain ⟨identifier, fields⟩ := p
    dsimp only
    by_cases hid : identifier = id
    · subst hid
      by_cases hold : identifier ∈ all.seen
      · rw [if_pos hold, if_pos (.inr (hseen.1 hold))]
        exact ⟨hfound, hseen⟩
      · rw [if_neg hold, if_neg (by simpa using fun h => hold (hseen.2 h))]
        refine ⟨?_, by simp⟩
        rw [Dict.lookup_modify_self, Option.getD_some, hfound]
    -- a row of another identifier
    · have hskip : (∃ x ∈ some id, identifier ≠ x) ∨ identifier ∈ one.seen := .inl ⟨id, rfl, hid⟩
      rw [if_pos hskip]
      by_cases hold : identifier ∈ all.seen
      · rw [if_pos hold]
        exact ⟨hfound, hseen⟩
      · rw [if_neg hold]
        have hne : id ≠ identifier := fun h => hid h.symm
        refine ⟨?_, by simp [hseen, hne]⟩
        rw [Dict.lookup_modify_of_ne hne]
        exact hfound

theorem scanRows_agree {all : Scan (List (String × Observations))} {one : Scan Observations}
    (rows : List Row) (h : all.Agree id one) :
    (rows.foldl (scanAll lib eng name s) all).Agree id
      (rows.foldl (scanOne lib eng (some id) name s) one) := by
  induction rows generalizing all one with
  | nil => exact h
  | cons row rows ih => exact ih (scan_agree h)

/-- A status without the number of rows that matched. -/
def Status.unmatched (status : Status) : Status := { status with matched := 0 }

/-- What a pass for one identifier finds, and what it says about the sources. -/
def Collected.plain (c : Collected Observations) : Observations × List Status × List Problem :=
  (c.found, c.status.map Status.unmatched, c.errors)

/-- What the pass for all identifiers found for one of them. -/
def Collected.under (id : String) (c : Collected (List (String × Observations))) :
    Collected Observations :=
  ⟨(c.found.lookup id).getD [], c.status, c.errors⟩

theorem next_agree {all : Collected (List (String × Observations))} {one : Collected Observations}
    (h : (all.under id).plain = one.plain) (outcome : Except String (List Row × Bool)) :
    ((all.next (scanAll lib eng name s) name outcome).under id).plain =
      (one.next (scanOne lib eng (some id) name s) name outcome).plain := by
  obtain ⟨hfound, hrest⟩ := Prod.mk.inj h
  obtain ⟨hstatus, herrors⟩ := Prod.mk.inj hrest
  have hstatus' : ∀ x y : Status, x.unmatched = y.unmatched →
      (all.status ++ [x]).map Status.unmatched = (one.status ++ [y]).map Status.unmatched := by
    intro x y hxy
    rw [List.map_append, List.map_append, List.map_singleton, List.map_singleton, hxy]
    exact congrArg (· ++ [y.unmatched]) hstatus
  cases outcome with
  | error error =>
    refine Prod.ext hfound (Prod.ext (hstatus' _ _ rfl) ?_)
    exact congrArg (· ++ [⟨name, error⟩]) herrors
  | ok r =>
    obtain ⟨rows, cut⟩ := r
    have hscan : Scan.Agree id ⟨all.found, [], 0⟩ ⟨one.found, [], 0⟩ := ⟨hfound, Iff.rfl⟩
    exact Prod.ext (scanRows_agree (rows.take maxScan) hscan).1
      (Prod.ext (hstatus' _ _ rfl) herrors)

/-- The two loops go on alike, or raise the same. -/
theorem overAll_agree {entry : Entry} (names : List String)
    {all : Collected (List (String × Observations))} {one : Collected Observations}
    (h : (all.under id).plain = one.plain) :
    (names.foldlM (overSources lib eng entry (scanAll lib eng)) all).map
        (fun c => (c.under id).plain) =
      (names.foldlM (overSources lib eng entry (scanOne lib eng (some id))) one).map
        Collected.plain := by
  induction names generalizing all one with
  | nil => exact congrArg Except.ok h
  | cons name names ih =>
    simp only [List.foldlM_cons, overSources]
    cases entry.source name with
    | error e => rfl
    | ok s =>
      cases hread : attempt lib eng s with
      | error e => simp only [bind, Except.bind, hread, Except.map]
      | ok outcome =>
        simp only [bind, Except.bind, hread, pure, Except.pure]
        exact ih (next_agree h outcome)

/-- What a view says of an identifier: its attributes, its conflicts and the read problems. -/
def View.content (v : View) : List (String × AttributeView) × List Conflict × List Problem :=
  (v.attributes, v.conflicts, v.sourceErrors)

/-- **What the pass over all identifiers finds under one is what the pass for that one finds, with the same
sources read and the same problems, and the views made of the two say the same.** -/
theorem collectAll_agrees (lib : Library) (eng : Engine) (entry : Entry) (id : String) :
    (collectAll lib eng entry).map (fun c => (c.under id).plain) =
        (collect lib eng entry (some id)).map Collected.plain ∧
      ∀ (name : String) (policy : ConflictPolicy),
        (collectAll lib eng entry).map (fun c => (viewFrom lib eng name entry policy id c).content) =
          (collect lib eng entry (some id)).map
            fun one => (view lib eng name entry policy id one).content := by
  have hagree : (collectAll lib eng entry).map (fun c => (c.under id).plain) =
      (collect lib eng entry (some id)).map Collected.plain :=
    overAll_agree entry.priority rfl
  refine ⟨hagree, fun name policy => ?_⟩
  -- a view says nothing but what the plain part of a pass holds
  have hall : ∀ c : Collected (List (String × Observations)),
      (viewFrom lib eng name entry policy id c).content =
        (view lib eng name entry policy id (c.under id)).content := fun _ => rfl
  have hcontent : ∀ x y : Collected Observations, x.plain = y.plain →
      (view lib eng name entry policy id x).content = (view lib eng name entry policy id y).content := by
    intro x y h
    have hfound : x.found = y.found := congrArg Prod.fst h
    have herrors : x.errors = y.errors := congrArg (fun p => p.2.2) h
    simp only [View.content, view, hfound, herrors]
  cases hc : collectAll lib eng entry with
  | error e =>
    cases hone : collect lib eng entry (some id) with
    | error e' =>
      rw [hc, hone] at hagree
      exact congrArg Except.error (Except.error.inj hagree)
    | ok one =>
      rw [hc, hone] at hagree
      cases hagree
  | ok c =>
    cases hone : collect lib eng entry (some id) with
    | error e =>
      rw [hc, hone] at hagree
      cases hagree
    | ok one =>
      rw [hc, hone] at hagree
      exact congrArg Except.ok ((hall c).trans (hcontent _ _ (Except.ok.inj hagree)))

end AgentPlatform.Graph
