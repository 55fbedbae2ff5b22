import AgentPlatform.Graph.Collect
import AgentPlatform.Lib.Capped

/-!
# Lists over the identifiers of an entity

`resolve`, `identifiers`, `search` and `conflicts` of `business_graph.py`. A list is bounded in three places:
a source shows its first two hundred rows, `search` and `conflicts` look at the first hundred identifiers, and
the answer holds as many items as the caller asks for. The first and the last are reported with the answer of
`search` and `conflicts`; the identifiers past the hundredth are not, and `identifiers` does not report the
rows past the two hundredth (`covers_iff`).
-/

namespace AgentPlatform.Graph

open Outcome Capped

variable (lib : Library) (eng : Engine)

/-! ### Authority -/

/-- `declaration`. -/
def declaration (entity : String) : Except Err (ConflictPolicy × Entry) := do
  let config ← graphConfig lib.toParser eng.graph
  let entry ← need (config.entities.lookup entity) (.forbidden
    ("Business graph entity " ++ lib.repr (.str entity) ++ " is not declared for this tenant"))
  pure (config.conflictPolicy, entry)

/-- The connection a register names; of an entry that names none, the empty text. -/
def entryConnection : Option Json → String
  | some entry =>
    match entry.getD "connection" .null with
    | .str connection => connection
    | _ => ""
  | none => ""

/-- `_register_connection`. -/
def registerConnection (s : Source) : Except Err String :=
  if s.tool = "sheets.rows" ∨ s.tool = "sheets.read" then
    match (Json.obj s.args).getD "register" .null with
    | .str register =>
      if register = "" then .ok ""
      else eng.registers.map fun registers => entryConnection (registers.lookup register)
    | _ => .ok ""
  else .ok ""

/-- The connection a source reaches: the one its arguments name, or that of its register. -/
def connectionOf (s : Source) : Except Err Json :=
  let named := (Json.obj s.args).getD "connection" .null
  if named.truthy = true then .ok named else (registerConnection eng s).map .str

/-- `except (LookupError, ValueError)` around the validation of the arguments. -/
def validArguments (name : String) (s : Source) : Except Err Unit :=
  match eng.validate s with
  | .ok u => .ok u
  | .error e =>
    if e.isLookupError || e.isValueError then
      .error (.valueError ("Graph source " ++ name ++ " arguments are invalid for " ++ s.tool ++ ": " ++
        e.text))
    else .error e

/-- One source of `preflight`. -/
def preflightSource (entry : Entry) (name : String) : Except Err Unit := do
  let s ← entry.source name
  ensure (s.tool ∈ eng.tools) (.forbidden
    ("Graph source " ++ name ++ " requires " ++ s.tool ++ ", which this agent does not hold"))
  let connection ← connectionOf eng s
  ensure (connection.truthy = true → eng.allowedConnections.any (fun c => connection.isText c) = true)
    (.forbidden ("Graph source " ++ name ++ " connection is not allowed for this agent"))
  validArguments eng name s

/-- `preflight`. -/
def preflight (entry : Entry) : Except Err Unit := entry.priority.forM (preflightSource eng entry)

/-- `bounded`. -/
def bounded (value : ℤ) (name : String) (low high : ℕ) : Except Err ℕ := do
  ensure ((low : ℤ) ≤ value ∧ value ≤ high) (.valueError
    (name ++ " must be an integer " ++ toString low ++ ".." ++ toString high))
  pure value.toNat

/-! ### The lists -/

/-- `resolve`. -/
def resolve (entity entityId : String) : Except Err View := do
  let (policy, entry) ← declaration lib eng entity
  preflight eng entry
  let c ← collect lib eng entry (some entityId)
  pure (view lib eng entity entry policy entityId c)

/-- The identifiers among the rows a loop looks at. -/
def rowIds (s : Source) (rows : List Row) : List String :=
  rows.filterMap fun row => (keyed lib s row).map Prod.fst

/-- The loop of `identifiers` over the sources. -/
def overNames (entry : Entry) (limit : ℕ) (found : List String) (errors : List Problem) :
    List String → Except Err (List String × List Problem × Bool)
  | [] => .ok (found, errors, false)
  | name :: names => do
    let s ← entry.source name
    match ← attempt lib eng s with
    | .error error => overNames entry limit found (errors ++ [⟨name, error⟩]) names
    | .ok (rows, _) =>
      let picked := pick limit found (rowIds lib s (rows.take maxScan))
      if picked.2 = true then pure (picked.1, errors, true)
      else overNames entry limit picked.1 errors names

/-- `identifiers`; `collected` is what the caller has read already. -/
def identifiers (entity : String) (limit : ℤ)
    (collected : Option (Collected (List (String × Observations)))) :
    Except Err (List String × List Problem × Bool) := do
  let (_, entry) ← declaration lib eng entity
  preflight eng entry
  let limit ← bounded limit "limit" 1 maxMatches
  match collected with
  | some c =>
    let picked := pick limit [] (c.found.map Prod.fst)
    pure (picked.1, [], picked.2)
  | none => overNames lib eng entry limit [] [] entry.priority

/-- A match of `search`. -/
structure Match where
  id : String
  attr : String
  value : Cell
  source : String
  conflict : Bool
  deriving DecidableEq

/-- What `search` returns. -/
structure SearchAnswer where
  entity : String
  attr : String
  hits : List Match
  truncated : Bool
  sourcesTruncated : List String
  complete : Bool
  sourceErrors : List Problem

/-- The match an identifier gives, if any. -/
def hit (name : String) (entry : Entry) (policy : ConflictPolicy) (attr : String) (target : Key)
    (c : Collected (List (String × Observations))) (id : String) : Option Match :=
  match (viewFrom lib eng name entry policy id c).attributes.lookup attr with
  | none => none
  | some av =>
    if av.values.any (fun o => (canonical lib.toTexts o.value).same target) then
      (av.selected.orElse fun _ => av.values.head?.map Observation.selection).map fun chosen =>
        ⟨id, attr, chosen.value, chosen.source, av.conflict⟩
    else none

/-- `search`. -/
def search (entity attr : String) (equals : Cell) (limit : ℤ) : Except Err SearchAnswer := do
  let (policy, entry) ← declaration lib eng entity
  ensure (attr ∈ entry.attributes) (.forbidden
    ("Attribute " ++ lib.repr (.str attr) ++ " is not declared on entity " ++ lib.repr (.str entity)))
  let limit ← bounded limit "limit" 1 maxMatches
  preflight eng entry
  let c ← collectAll lib eng entry
  let ids ← identifiers lib eng entity maxMatches (some c)
  let answer := capped limit []
    (ids.1.filterMap (hit lib eng entity entry policy attr (canonical lib.toTexts equals) c))
  let ceiling := truncatedNames c.status
  pure ⟨entity, attr, answer.1, answer.2 || !ceiling.isEmpty, ceiling, c.errors.isEmpty, c.errors⟩

/-- What `conflicts` returns. -/
structure ConflictsAnswer where
  entity : String
  conflicts : List (String × Conflict)
  scanned : ℕ
  truncated : Bool
  sourcesTruncated : List String
  complete : Bool
  sourceErrors : List Problem

/-- The conflicts of an identifier. -/
def conflictsOf (name : String) (entry : Entry) (policy : ConflictPolicy)
    (c : Collected (List (String × Observations))) (id : String) : List (String × Conflict) :=
  (viewFrom lib eng name entry policy id c).conflicts.map fun conflict => (id, conflict)

/-- `conflicts`: both loops end at the first conflict the limit refuses. -/
def conflicts (entity : String) (limit : ℤ) : Except Err ConflictsAnswer := do
  let limit ← bounded limit "limit" 1 50
  let (policy, entry) ← declaration lib eng entity
  preflight eng entry
  let c ← collectAll lib eng entry
  let ids ← identifiers lib eng entity maxMatches (some c)
  let answer := capped limit [] (ids.1.flatMap (conflictsOf lib eng entity entry policy c))
  let ceiling := truncatedNames c.status
  pure ⟨entity, answer.1, ids.1.length, answer.2 || !ceiling.isEmpty, ceiling, c.errors.isEmpty,
    c.errors⟩

/-! ### What was read -/

/-- The identifiers a readable source shows, among the rows a window leaves. -/
def idsOf (entry : Entry) (window : List Row → List Row) (name : String) : List String :=
  match entry.source name with
  | .ok s =>
    match attempt lib eng s with
    | .ok (.ok (rows, _)) => rowIds lib s (window rows)
    | _ => []
  | .error _ => []

/-- The identifiers in the rows that were read. -/
def presentIds (entry : Entry) : List String := entry.priority.flatMap (idsOf lib eng entry id)

/-- The identifiers in the first two hundred rows of each source. -/
def scannedIds (entry : Entry) : List String :=
  entry.priority.flatMap (idsOf lib eng entry (·.take maxScan))

/-- The identifiers `search` and `conflicts` look at. -/
def examined (entry : Entry) : List String := (distinct (scannedIds lib eng entry)).take maxMatches

/-- A source could not be read. -/
def UnreadAt (entry : Entry) (name : String) : Prop :=
  ∃ s error, entry.source name = .ok s ∧ attempt lib eng s = .ok (.error error)

/-- A source stopped at its ceiling. -/
def CeilingAt (entry : Entry) (name : String) : Prop :=
  ∃ s rows, entry.source name = .ok s ∧ attempt lib eng s = .ok (.ok (rows, true))

def Unread (entry : Entry) : Prop := ∃ name ∈ entry.priority, UnreadAt lib eng entry name

def AtCeiling (entry : Entry) : Prop := ∃ name ∈ entry.priority, CeilingAt lib eng entry name

variable {lib eng} {entry : Entry} {name : String} {s : Source}

theorem scanAll_keys {scan : Scan (List (String × Observations))} {row : Row}
    (h : ∀ id ∈ scan.seen, id ∈ scan.found.map Prod.fst) :
    (scanAll lib eng name s scan row).found.map Prod.fst =
        extend (scan.found.map Prod.fst) (rowIds lib s [row]) ∧
      ∀ id ∈ (scanAll lib eng name s scan row).seen,
        id ∈ (scanAll lib eng name s scan row).found.map Prod.fst := by
  unfold scanAll rowIds
  cases hkey : keyed lib s row with
  | none => simpa [hkey] using h
  | some p =>
    obtain ⟨identifier, fields⟩ := p
    simp only [List.filterMap_cons, hkey, Option.map_some, List.filterMap_nil, extend_cons, extend_nil]
    by_cases hold : identifier ∈ scan.seen
    · rw [if_pos hold, if_pos (h _ hold)]
      exact ⟨rfl, h⟩
    · rw [if_neg hold, Dict.keys_modify]
      refine ⟨rfl, fun id hid => ?_⟩
      rcases List.mem_cons.1 hid with rfl | hid
      · split_ifs <;> simp_all
      · split_ifs
        · exact h id hid
        · exact List.mem_append_left _ (h id hid)

theorem scanRows_keys {scan : Scan (List (String × Observations))} (rows : List Row)
    (h : ∀ id ∈ scan.seen, id ∈ scan.found.map Prod.fst) :
    (rows.foldl (scanAll lib eng name s) scan).found.map Prod.fst =
      extend (scan.found.map Prod.fst) (rowIds lib s rows) := by
  induction rows generalizing scan with
  | nil => rfl
  | cons row rows ih =>
    obtain ⟨hkeys, hseen⟩ : (scanAll lib eng name s scan row).found.map Prod.fst =
        extend (scan.found.map Prod.fst) (rowIds lib s [row]) ∧ _ := scanAll_keys h
    rw [List.foldl_cons, ih hseen, hkeys, ← extend_append]
    congr 1
    exact (List.filterMap_append : (([row] ++ rows).filterMap _) = _).symm

/-- What a pass of `_collect_all` over some sources adds. -/
structure Passed (lib : Library) (eng : Engine) (entry : Entry) (names : List String)
    (c c' : Collected (List (String × Observations))) : Prop where
  keys_eq : c'.found.map Prod.fst =
    extend (c.found.map Prod.fst) (names.flatMap (idsOf lib eng entry (·.take maxScan)))
  errors_iff : c'.errors = [] ↔ c.errors = [] ∧ ∀ name ∈ names, ¬UnreadAt lib eng entry name
  ceiling_iff : truncatedNames c'.status = [] ↔
    truncatedNames c.status = [] ∧ ∀ name ∈ names, ¬CeilingAt lib eng entry name

theorem truncatedNames_append {status : List Status} {x : Status} :
    truncatedNames (status ++ [x]) = [] ↔ truncatedNames status = [] ∧ x.truncated = false := by
  simp [truncatedNames, List.filter_eq_nil_iff]

variable {c : Collected (List (String × Observations))}

theorem passed_one {c' : Collected (List (String × Observations))}
    (h : overSources lib eng entry (scanAll lib eng) c name = .ok c') : Passed lib eng entry [name] c c' := by
  obtain ⟨s, hs, h⟩ := bind_eq_ok.1 h
  obtain ⟨outcome, hread, h⟩ := bind_eq_ok.1 h
  obtain rfl := pure_eq_ok.1 h
  have hids : [name].flatMap (idsOf lib eng entry (·.take maxScan)) =
      idsOf lib eng entry (·.take maxScan) name := by simp
  cases outcome with
  | error error =>
    refine ⟨?_, ?_, ?_⟩
    · rw [hids, idsOf, hs]
      simp only [hread]
      rfl
    · have hunread : UnreadAt lib eng entry name := ⟨s, error, hs, hread⟩
      simp [Collected.next, hunread]
    · have hnone : ¬CeilingAt lib eng entry name := by
        rintro ⟨s', rows, hs', hread'⟩
        obtain rfl := Except.ok.inj (hs.symm.trans hs')
        rw [hread] at hread'
        cases hread'
      simp [Collected.next, truncatedNames_append, hnone]
  | ok r =>
    obtain ⟨rows, cut⟩ := r
    refine ⟨?_, ?_, ?_⟩
    · rw [hids, idsOf, hs]
      simp only [hread]
      exact scanRows_keys _ (by simp)
    · have hnone : ¬UnreadAt lib eng entry name := by
        rintro ⟨s', error, hs', hread'⟩
        obtain rfl := Except.ok.inj (hs.symm.trans hs')
        rw [hread] at hread'
        cases hread'
      simp [Collected.next, hnone]
    · have hcut : cut = false ↔ ¬CeilingAt lib eng entry name := by
        constructor
        · rintro rfl ⟨s', rows', hs', hread'⟩
          obtain rfl := Except.ok.inj (hs.symm.trans hs')
          rw [hread] at hread'
          cases hread'
        · intro hnone
          cases cut with
          | false => rfl
          | true => exact absurd ⟨s, rows, hs, hread⟩ hnone
      simp [Collected.next, truncatedNames_append, hcut]

theorem passed_run {c' : Collected (List (String × Observations))} {names : List String}
    (h : names.foldlM (overSources lib eng entry (scanAll lib eng)) c = .ok c') :
    Passed lib eng entry names c c' := by
  induction names generalizing c with
  | nil =>
    obtain rfl := pure_eq_ok.1 h
    exact ⟨rfl, by simp, by simp⟩
  | cons name names ih =>
    rw [List.foldlM_cons, bind_eq_ok] at h
    obtain ⟨c₁, hfirst, h⟩ := h
    have hone := passed_one hfirst
    have hrest := ih h
    refine ⟨?_, ?_, ?_⟩
    · rw [hrest.keys_eq, hone.keys_eq, ← extend_append, List.flatMap_singleton, List.flatMap_cons]
    · rw [hrest.errors_iff, hone.errors_iff]
      simp [and_assoc]
    · rw [hrest.ceiling_iff, hone.ceiling_iff]
      simp [and_assoc]

theorem collectAll_ok (h : collectAll lib eng entry = .ok c) :
    c.found.map Prod.fst = distinct (scannedIds lib eng entry) ∧
      (c.errors.isEmpty = true ↔ ¬Unread lib eng entry) ∧
      ((truncatedNames c.status).isEmpty = true ↔ ¬AtCeiling lib eng entry) := by
  obtain ⟨hkeys, herrors, hceiling⟩ := passed_run h
  refine ⟨hkeys, ?_, ?_⟩
  · rw [List.isEmpty_iff, herrors]
    simp [Unread]
  · rw [List.isEmpty_iff, hceiling]
    simp [AtCeiling, truncatedNames]

theorem length_le_of_attempt {rows : List Row} (h : attempt lib eng s = .ok (.ok (rows, false))) :
    rows.length ≤ maxScan := by
  unfold attempt at h
  split at h
  · rename_i r hr
    obtain rfl : r = (rows, false) := Except.ok.inj (Except.ok.inj h)
    obtain ⟨payload, -, hpayload⟩ := bind_eq_ok.1 hr
    split at hpayload
    · obtain ⟨rfl, hcut⟩ := Prod.mk.inj (pure_eq_ok.1 hpayload)
      simp only [sourceTruncated, Bool.or_eq_false_iff, decide_eq_false_iff_not] at hcut
      exact Nat.not_lt.1 hcut.1.2
    · cases hpayload
    · cases hpayload
  · split at h
    · cases h
    · cases Except.ok.inj h

theorem present_eq_scanned (h : ¬AtCeiling lib eng entry) :
    presentIds lib eng entry = scannedIds lib eng entry := by
  refine List.flatMap_congr fun name hname => ?_
  unfold idsOf
  cases hs : entry.source name with
  | error e => rfl
  | ok s =>
    cases hread : attempt lib eng s with
    | error e => simp only [hread]
    | ok outcome =>
      cases outcome with
      | error error => simp only [hread]
      | ok r =>
        obtain ⟨rows, cut⟩ := r
        cases cut with
        | true => exact absurd ⟨name, hname, s, rows, hs, hread⟩ h
        | false =>
          simp only [hread, id]
          rw [List.take_of_length_le (length_le_of_attempt hread)]

/-- The loop of `identifiers`: the first distinct identifiers and whether one more was refused; where none was,
every source was looked at. -/
theorem overNames_ok {limit : ℕ} {found found' : List String} {errors errors' : List Problem}
    {cut : Bool} {names : List String} (hlimit : found.length ≤ limit)
    (h : overNames lib eng entry limit found errors names = .ok (found', errors', cut)) :
    let all := extend found (names.flatMap (idsOf lib eng entry (·.take maxScan)))
    found' = all.take limit ∧ cut = decide (limit < all.length) ∧
      (cut = false → (errors' = [] ↔ errors = [] ∧ ∀ name ∈ names, ¬UnreadAt lib eng entry name)) := by
  induction names generalizing found errors with
  | nil =>
    obtain ⟨rfl, hpair⟩ := Prod.mk.inj (Except.ok.inj h)
    obtain ⟨rfl, rfl⟩ := Prod.mk.inj hpair
    simp [List.take_of_length_le hlimit, hlimit]
  | cons name names ih =>
    obtain ⟨s, hs, h⟩ := bind_eq_ok.1 h
    obtain ⟨outcome, hread, h⟩ := bind_eq_ok.1 h
    simp only [List.flatMap_cons, extend_append]
    cases outcome with
    | error error =>
      have hids : idsOf lib eng entry (·.take maxScan) name = [] := by
        rw [idsOf, hs]
        simp only [hread]
      have hunread : UnreadAt lib eng entry name := ⟨s, error, hs, hread⟩
      obtain ⟨hfound, hcut, herrors⟩ := ih hlimit h
      rw [hids]
      exact ⟨hfound, hcut, fun hc => by simp [herrors hc, hunread]⟩
    | ok r =>
      obtain ⟨rows, sourceCut⟩ := r
      have hids : idsOf lib eng entry (·.take maxScan) name = rowIds lib s (rows.take maxScan) := by
        rw [idsOf, hs]
        simp only [hread]
      have hread' : ¬UnreadAt lib eng entry name := by
        rintro ⟨s', error, hs', hread'⟩
        obtain rfl := Except.ok.inj (hs.symm.trans hs')
        rw [hread] at hread'
        cases hread'
      rw [hids]
      dsimp only at h
      rw [pick_eq hlimit] at h
      split at h
      · rename_i hfull
        obtain ⟨rfl, hpair⟩ := Prod.mk.inj (pure_eq_ok.1 h)
        obtain ⟨rfl, rfl⟩ := Prod.mk.inj hpair
        have hlong : limit < (extend found (rowIds lib s (rows.take maxScan))).length := by
          simpa using hfull
        obtain ⟨rest, hrest⟩ : extend found (rowIds lib s (rows.take maxScan)) <+:
            extend (extend found (rowIds lib s (rows.take maxScan)))
              (names.flatMap (idsOf lib eng entry (·.take maxScan))) := prefix_extend
        refine ⟨?_, ?_, by simp⟩
        · rw [← hrest, List.take_append_of_le_length hlong.le]
        · rw [← hrest, List.length_append]
          simp
          omega
      · rename_i hroom
        have hshort : (extend found (rowIds lib s (rows.take maxScan))).length ≤ limit := by
          simpa using hroom
        dsimp only at h
        rw [List.take_of_length_le hshort] at h
        obtain ⟨hfound, hcut, herrors⟩ := ih hshort h
        exact ⟨hfound, hcut, fun hc => by simp [herrors hc, hread']⟩

variable {entity : String}

theorem identifiers_collected {ids : List String × List Problem × Bool}
    (hc : collectAll lib eng entry = .ok c) (h : identifiers lib eng entity maxMatches (some c) = .ok ids) :
    ids.1 = examined lib eng entry := by
  obtain ⟨p, -, h⟩ := bind_eq_ok.1 h
  obtain ⟨u, -, h⟩ := bind_eq_ok.1 h
  obtain ⟨limit, hlimit, h⟩ := bind_eq_ok.1 h
  obtain ⟨u', -, hlimit⟩ := bind_eq_ok.1 hlimit
  obtain rfl := pure_eq_ok.1 hlimit
  obtain rfl := pure_eq_ok.1 h
  rw [pick_eq (Nat.zero_le _), (collectAll_ok hc).1]
  exact congrArg (List.take maxMatches) (distinct_of_nodup nodup_distinct)

/-- A bounded answer over the examined identifiers covers the ones that were read, unless it says otherwise:
exactly where a source failed or stopped at its ceiling, where the limit refused an item, and where no
identifier lies past the examined ones. -/
theorem bounded_covers_iff {β : Type} {limit : ℕ} (items : String → List β)
    (hread : collectAll lib eng entry = .ok c) :
    (c.errors.isEmpty = true →
        ((capped limit [] ((examined lib eng entry).flatMap items)).2 ||
          !(truncatedNames c.status).isEmpty) = false →
        ∀ id ∈ presentIds lib eng entry, id ∈ examined lib eng entry ∧
          ∀ x ∈ items id, x ∈ (capped limit [] ((examined lib eng entry).flatMap items)).1) ↔
      Unread lib eng entry ∨ AtCeiling lib eng entry ∨
        limit < ((examined lib eng entry).flatMap items).length ∨
        (distinct (presentIds lib eng entry)).length ≤ maxMatches := by
  obtain ⟨-, herrors, hceiling⟩ := collectAll_ok hread
  obtain ⟨all, hall⟩ : ∃ all, all = (examined lib eng entry).flatMap items := ⟨_, rfl⟩
  rw [← hall, capped_nil]
  simp only [Bool.or_eq_false_iff, Bool.not_eq_false', decide_eq_false_iff_not, herrors, hceiling]
  by_cases hunread : Unread lib eng entry
  · simp [hunread]
  by_cases hcut : AtCeiling lib eng entry
  · simp [hcut]
  by_cases hlong : limit < all.length
  · simp [hlong]
  simp only [hunread, hcut, hlong, not_false_eq_true, and_true, forall_const, false_or]
  rw [present_eq_scanned hcut, List.take_of_length_le (Nat.not_lt.1 hlong)]
  constructor
  · intro hcover
    rw [← forall_mem_take_iff nodup_distinct]
    exact fun id hid => (hcover id (mem_distinct.1 hid)).1
  · intro hshort id hid
    have hexamined : id ∈ examined lib eng entry := by
      rw [examined, List.take_of_length_le hshort]
      exact mem_distinct.2 hid
    exact ⟨hexamined, fun x hx => hall ▸ List.mem_flatMap.2 ⟨id, hexamined, hx⟩⟩

variable {limit : ℤ} {policy : ConflictPolicy}

/-- What `search` and `conflicts` report of the sources, and what they look at. -/
theorem search_ok {attr : String} {equals : Cell} {a : SearchAnswer}
    (hentry : declaration lib eng entity = .ok (policy, entry)) (hread : collectAll lib eng entry = .ok c)
    (h : search lib eng entity attr equals limit = .ok a) :
    ∃ n : ℕ, limit = n ∧ a.complete = c.errors.isEmpty ∧
      let answer := capped n [] ((examined lib eng entry).flatMap fun id =>
        (hit lib eng entity entry policy attr (canonical lib.toTexts equals) c id).toList)
      a.hits = answer.1 ∧ a.truncated = (answer.2 || !(truncatedNames c.status).isEmpty) := by
  unfold search at h
  rw [hentry] at h
  obtain ⟨p, hp, h⟩ := bind_eq_ok.1 h
  cases hp
  obtain ⟨u, -, h⟩ := bind_eq_ok.1 h
  obtain ⟨n, hn, h⟩ := bind_eq_ok.1 h
  obtain ⟨u₁, hbound, hn⟩ := bind_eq_ok.1 hn
  obtain rfl := pure_eq_ok.1 hn
  obtain ⟨u₂, -, h⟩ := bind_eq_ok.1 h
  rw [hread] at h
  obtain ⟨c', hc', h⟩ := bind_eq_ok.1 h
  cases hc'
  obtain ⟨ids, hids, h⟩ := bind_eq_ok.1 h
  obtain rfl := pure_eq_ok.1 h
  have hpos := (ensure_eq_ok.1 hbound).1
  refine ⟨limit.toNat, by omega, rfl, ?_⟩
  rw [identifiers_collected hread hids, List.filterMap_eq_flatMap_toList]
  exact ⟨rfl, rfl⟩

theorem conflicts_ok {a : ConflictsAnswer} (hentry : declaration lib eng entity = .ok (policy, entry))
    (hread : collectAll lib eng entry = .ok c) (h : conflicts lib eng entity limit = .ok a) :
    ∃ n : ℕ, limit = n ∧ a.complete = c.errors.isEmpty ∧
      let answer := capped n [] ((examined lib eng entry).flatMap
        (conflictsOf lib eng entity entry policy c))
      a.conflicts = answer.1 ∧ a.truncated = (answer.2 || !(truncatedNames c.status).isEmpty) := by
  unfold conflicts at h
  obtain ⟨n, hn, h⟩ := bind_eq_ok.1 h
  obtain ⟨u, hbound, hn⟩ := bind_eq_ok.1 hn
  obtain rfl := pure_eq_ok.1 hn
  rw [hentry] at h
  obtain ⟨p, hp, h⟩ := bind_eq_ok.1 h
  cases hp
  obtain ⟨u₁, -, h⟩ := bind_eq_ok.1 h
  rw [hread] at h
  obtain ⟨c', hc', h⟩ := bind_eq_ok.1 h
  cases hc'
  obtain ⟨ids, hids, h⟩ := bind_eq_ok.1 h
  obtain rfl := pure_eq_ok.1 h
  have hpos := (ensure_eq_ok.1 hbound).1
  refine ⟨limit.toNat, by omega, rfl, ?_⟩
  rw [identifiers_collected hread hids]
  exact ⟨rfl, rfl⟩

theorem identifiers_ok {found : List String} {errors : List Problem} {cut : Bool}
    (hentry : declaration lib eng entity = .ok (policy, entry))
    (h : identifiers lib eng entity limit none = .ok (found, errors, cut)) :
    ∃ n : ℕ, limit = n ∧ found = (distinct (scannedIds lib eng entry)).take n ∧
      cut = decide (n < (distinct (scannedIds lib eng entry)).length) ∧
      (cut = false → (errors = [] ↔ ¬Unread lib eng entry)) := by
  unfold identifiers at h
  rw [hentry] at h
  obtain ⟨p, hp, h⟩ := bind_eq_ok.1 h
  cases hp
  obtain ⟨u, -, h⟩ := bind_eq_ok.1 h
  obtain ⟨n, hn, h⟩ := bind_eq_ok.1 h
  obtain ⟨u₁, hbound, hn⟩ := bind_eq_ok.1 hn
  obtain rfl := pure_eq_ok.1 hn
  have hpos := (ensure_eq_ok.1 hbound).1
  obtain ⟨hfound, hcut, herrors⟩ := overNames_ok (Nat.zero_le _) h
  refine ⟨limit.toNat, by omega, hfound, hcut, fun hc => ?_⟩
  rw [herrors hc]
  simp [Unread]

/-- **When a list says that it is complete and not truncated, every identifier that was read is covered:
for `search` and `conflicts` exactly where a source failed or stopped at its ceiling, the limit refused an
item, or at most a hundred identifiers were read; for `identifiers` exactly where a source failed, the limit
refused an identifier, or the rows past the two hundredth hold no identifier of their own.** -/
theorem covers_iff {entity : String} {policy : ConflictPolicy}
    {c : Collected (List (String × Observations))}
    (hentry : declaration lib eng entity = .ok (policy, entry))
    (hread : collectAll lib eng entry = .ok c) :
    (∀ attr equals limit a, search lib eng entity attr equals limit = .ok a →
      ((a.complete = true → a.truncated = false → ∀ id ∈ presentIds lib eng entry,
          id ∈ examined lib eng entry ∧
            ∀ m ∈ (hit lib eng entity entry policy attr (canonical lib.toTexts equals) c id).toList,
              m ∈ a.hits) ↔
        Unread lib eng entry ∨ AtCeiling lib eng entry ∨
          limit < ((examined lib eng entry).flatMap fun id =>
            (hit lib eng entity entry policy attr (canonical lib.toTexts equals) c id).toList).length ∨
          (distinct (presentIds lib eng entry)).length ≤ maxMatches)) ∧
    (∀ limit a, conflicts lib eng entity limit = .ok a →
      ((a.complete = true → a.truncated = false → ∀ id ∈ presentIds lib eng entry,
          id ∈ examined lib eng entry ∧
            ∀ x ∈ conflictsOf lib eng entity entry policy c id, x ∈ a.conflicts) ↔
        Unread lib eng entry ∨ AtCeiling lib eng entry ∨
          limit < ((examined lib eng entry).flatMap
            (conflictsOf lib eng entity entry policy c)).length ∨
          (distinct (presentIds lib eng entry)).length ≤ maxMatches)) ∧
    ∀ limit found errors cut, identifiers lib eng entity limit none = .ok (found, errors, cut) →
      ((errors = [] → cut = false → ∀ id ∈ presentIds lib eng entry, id ∈ found) ↔
        Unread lib eng entry ∨ limit < (distinct (scannedIds lib eng entry)).length ∨
          ∀ id ∈ presentIds lib eng entry, id ∈ scannedIds lib eng entry) ∧
      (errors = [] → cut = false → ∀ id ∈ scannedIds lib eng entry, id ∈ found) := by
  refine ⟨fun attr equals limit a h => ?_, fun limit a h => ?_, fun limit found errors cut h => ?_⟩
  · obtain ⟨n, rfl, hcomplete, hhits, htruncated⟩ := search_ok hentry hread h
    rw [hcomplete, hhits, htruncated, Nat.cast_lt]
    exact bounded_covers_iff _ hread
  · obtain ⟨n, rfl, hcomplete, hconflicts, htruncated⟩ := conflicts_ok hentry hread h
    rw [hcomplete, hconflicts, htruncated, Nat.cast_lt]
    exact bounded_covers_iff _ hread
  · obtain ⟨n, rfl, rfl, rfl, herrors⟩ := identifiers_ok hentry h
    rw [Nat.cast_lt]
    by_cases hlong : n < (distinct (scannedIds lib eng entry)).length
    · simp [hlong]
    · simp only [hlong, decide_false, forall_const] at herrors ⊢
      rw [herrors, List.take_of_length_le (Nat.not_lt.1 hlong)]
      simp only [mem_distinct, false_or]
      refine ⟨?_, fun _ id hid => hid⟩
      by_cases hunread : Unread lib eng entry
      · simp [hunread]
      · simp [hunread]

/-! ### A catalogue of a hundred and one products -/

def plainLibrary : Library := ⟨plainParser, ⟨fun _ => "", fun c => [c]⟩⟩

/-- Rows with the identifiers from zero up, of which only the last is priced. -/
def catalogueRows (n : ℕ) (last : Cell) : List Row :=
  (List.range n).map fun i => some [("id", .int i), ("value", if i + 1 = n then last else .int 0)]

/-- An agent that reads those rows from both sources of the product. -/
def catalogueEngine (rows : List Row) : Engine :=
  { graph := products []
    handler := fun _ => .ok (.dict (some rows) false none)
    validate := fun _ => .ok ()
    registers := .ok []
    agent := "sales"
    tools := ["sheets.rows"]
    allowedConnections := []
    ladder := ""
    clock := 0 }

theorem covers_iff_sample :
    ∃ entry, (([] : List Problem) = [] → false = false → ∀ id ∈ presentIds plainLibrary
        (catalogueEngine (catalogueRows 2 (.int 7))) entry, id ∈ ["0", "1"]) ↔
      Unread plainLibrary (catalogueEngine (catalogueRows 2 (.int 7))) entry ∨
        100 < ((distinct (scannedIds plainLibrary (catalogueEngine (catalogueRows 2 (.int 7)))
          entry)).length : ℤ) ∨
        ∀ id ∈ presentIds plainLibrary (catalogueEngine (catalogueRows 2 (.int 7))) entry,
          id ∈ scannedIds plainLibrary (catalogueEngine (catalogueRows 2 (.int 7))) entry :=
  ⟨_, ((@covers_iff plainLibrary (catalogueEngine (catalogueRows 2 (.int 7))) _ "product" _ _ rfl rfl).2.2 100 ["0", "1"] [] false rfl).1⟩

/-- The hundred and first product has the price that is searched for; the search finds nothing, and says that
it is complete and not truncated. -/
theorem search_drops_identifier :
    ¬∀ (lib : Library) (eng : Engine) (entity attr : String) (equals : Cell) (limit : ℤ)
      (policy : ConflictPolicy) (entry : Entry) (c : Collected (List (String × Observations)))
      (a : SearchAnswer), declaration lib eng entity = .ok (policy, entry) →
      collectAll lib eng entry = .ok c → search lib eng entity attr equals limit = .ok a →
      a.complete = true → a.truncated = false → ∀ id ∈ presentIds lib eng entry,
        ∀ m ∈ (hit lib eng entity entry policy attr (canonical lib.toTexts equals) c id).toList,
          m ∈ a.hits := by
  intro h
  have hrun : (do
      let eng := catalogueEngine (catalogueRows 101 (.int 7))
      let p ← declaration plainLibrary eng "product"
      let c ← collectAll plainLibrary eng p.2
      let a ← search plainLibrary eng "product" "price" (.int 7) 100
      pure (a.complete, a.truncated, a.hits.isEmpty, (presentIds plainLibrary eng p.2).contains "100",
        (hit plainLibrary eng "product" p.2 p.1 "price" (canonical plainLibrary.toTexts (.int 7)) c
          "100").isSome)) = (.ok (true, false, true, true, true) : Except Err _) := by
    decide +kernel
  obtain ⟨p, hp, hrun⟩ := bind_eq_ok.1 hrun
  obtain ⟨c, hc, hrun⟩ := bind_eq_ok.1 hrun
  obtain ⟨a, ha, hrun⟩ := bind_eq_ok.1 hrun
  have hfacts := pure_eq_ok.1 hrun
  simp only [Prod.mk.injEq, List.isEmpty_iff, List.contains_iff_mem] at hfacts
  obtain ⟨hcomplete, htruncated, hempty, hpresent, hhit⟩ := hfacts
  obtain ⟨m, hm⟩ := Option.isSome_iff_exists.1 hhit
  have hmem := h _ _ _ _ _ _ p.1 p.2 c a hp hc ha hcomplete htruncated _ hpresent m
    (Option.mem_toList.2 hm)
  rw [hempty] at hmem
  cases hmem

end AgentPlatform.Graph
