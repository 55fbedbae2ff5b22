import AgentPlatform.Inventory.Figures

/-!
# The catalogue

`stock`, `price` and `margin` of `inventory.py`: one product, or a list of the first identifiers of the graph
with a view of each. The list of identifiers is cut at a hundred by the graph, which says so and is not asked;
the list itself says that it is truncated where the caller's limit left identifiers out or where a view found
a source at its ceiling (`represents_iff`).

A row of a list and the answer for one product come from the same view, for the identifiers that are product
identities (`rows_agree`).
-/

namespace AgentPlatform.Inventory

open Outcome AgentPlatform.Graph Capped

variable (lib : Library) (eng : Engine)

/-- What the three reports have in common. -/
structure Listing (α : Type) where
  entity : String
  view : String
  items : List α
  scanned : Option ℕ
  truncated : Bool
  sourcesTruncated : List String
  complete : Bool
  sourceErrors : List Problem
  observed : Time

/-- `_ceiling`. -/
def ceiling (views : List View) : List String :=
  distinct (views.flatMap fun v => truncatedNames v.sources)

/-- The answer for one product. -/
def single {α : Type} (view : String) (p : ProductAnswer) (item : α) : Listing α :=
  ⟨p.entity, view, [item], none, p.view.truncated, p.view.sourcesTruncated, p.view.complete,
    p.view.sourceErrors, p.view.observed⟩

/-- The views of the identifiers, up to the limit. -/
def views (s : Settings) (ids : List String) (limit : ℕ) : Except Err (List (String × View)) :=
  (ids.take limit).mapM fun id => do
    let view ← resolve lib eng.toEngine s.entity id
    pure (id, view)

/-- The answer of a list. -/
def listing {α : Type} (s : Settings) (view : String) (limit : ℕ) (ids : List String)
    (seen : List (String × View)) (row : String × View → α) : Listing α :=
  { entity := s.entity
    view := view
    items := seen.map row
    scanned := some ids.length
    truncated := decide (limit ≤ seen.length ∧ seen.length < ids.length) ||
      !(ceiling (seen.map Prod.snd)).isEmpty
    sourcesTruncated := ceiling (seen.map Prod.snd)
    complete := (seen.flatMap fun m => m.2.sourceErrors).isEmpty
    sourceErrors := seen.flatMap fun m => m.2.sourceErrors
    observed := eng.clock }

/-- The loop of a list: the identifiers of the graph, and the views of the first ones. -/
def catalogue (s : Settings) (limit : ℕ) : Except Err (List String × List (String × View)) := do
  let ids ← identifiers lib eng.toEngine s.entity maxItems none
  let seen ← views lib eng s ids.1 limit
  pure (ids.1, seen)

/-- `_bounded`. -/
def boundedLimit (limit : ℤ) : Except Err ℕ := bounded limit "limit" 1 maxItems

/-! ### Stock -/

structure StockItem where
  id : String
  stock : Figure
  unit : Cell
  deriving DecidableEq

/-- A row of the stock list. -/
def stockRow (s : Settings) (m : String × View) : StockItem :=
  ⟨m.1, figure lib m.2 (s.attr "stock") true, shown (figure lib m.2 (s.attr "unit") false)⟩

/-- `stock`. -/
def stock (productId : String) (limit : ℤ) : Except Err (Listing StockItem) := do
  let s ← settings lib eng
  let limit ← boundedLimit limit
  if productId ≠ "" then do
    let p ← product lib eng productId
    pure (single "stock" p ⟨p.id, p.stock, p.unit⟩)
  else do
    let (ids, seen) ← catalogue lib eng s limit
    pure (listing eng s "stock" limit ids seen (stockRow lib s))

/-! ### Prices -/

/-- A price, with the name and the currency where one product was asked for. -/
structure PriceItem where
  id : String
  name : Option Cell
  price : Figure
  currency : Option Cell
  priceReason : String
  conflicts : List Conflict
  deriving DecidableEq

/-- The price report: also the reasons that were given and the policy. -/
structure PriceListing extends Listing PriceItem where
  unresolved : List String
  conflictPolicy : Option ConflictPolicy

/-- A row of the price list. -/
def priceRow (s : Settings) (m : String × View) : PriceItem :=
  let price := figure lib m.2 (s.attr "price") true
  ⟨m.1, none, price, none, reason price, m.2.conflicts⟩

/-- The reasons of a list, sorted, each once. -/
def reasonList (reasons : List String) : List String :=
  sortTexts ((reasons.filter fun r => r ≠ "").dedup)

/-- The policy of the first view. -/
def firstPolicy (seen : List (String × View)) : Option ConflictPolicy :=
  seen.head?.map fun m => m.2.conflictPolicy

/-- `price`. -/
def price (productId : String) (limit : ℤ) : Except Err PriceListing := do
  let s ← settings lib eng
  let limit ← boundedLimit limit
  if productId ≠ "" then do
    let p ← product lib eng productId
    let item := ⟨p.id, some p.name, p.price, some p.currency, reason p.price, p.view.conflicts⟩
    pure ⟨single "price" p item, reasonList [reason p.price], some p.view.conflictPolicy⟩
  else do
    let (ids, seen) ← catalogue lib eng s limit
    let list := listing eng s "price" limit ids seen (priceRow lib s)
    pure ⟨list, reasonList (list.items.map PriceItem.priceReason), firstPolicy seen⟩

/-! ### Margins -/

/-- A margin, with the name and the currency where one product was asked for. -/
structure MarginItem where
  id : String
  name : Option Cell
  price : Figure
  cost : Figure
  margin : Option Binary64
  marginComputable : Bool
  notComputable : List String
  marginBlockedByConflict : List String
  currency : Option Cell
  deriving DecidableEq

/-- The margin report: also the reasons that were given and the policy. -/
structure MarginListing extends Listing MarginItem where
  notComputable : List String
  marginBlockedByConflict : List String
  conflictPolicy : Option ConflictPolicy

/-- A row of the margin list: no margin where there is a reason against it. -/
def marginRow (s : Settings) (m : String × View) : MarginItem :=
  let price := figure lib m.2 (s.attr "price") true
  let cost := figure lib m.2 (s.attr "cost") true
  let reasons := reasonsOf price cost
  { id := m.1
    name := none
    price := price
    cost := cost
    margin := if reasons = [] then difference (selectedNumber price) (selectedNumber cost) else none
    marginComputable := decide (reasons = [])
    notComputable := reasons.filter fun r => !policyReasons.contains r
    marginBlockedByConflict := reasons.filter fun r => policyReasons.contains r
    currency := none }

/-- The margin of one product. -/
def marginItem (p : ProductAnswer) : MarginItem :=
  ⟨p.id, some p.name, p.price, p.cost, p.margin, p.marginComputable, p.notComputable,
    p.marginBlockedByConflict, some p.currency⟩

/-- `margin`. -/
def margin (productId : String) (limit : ℤ) : Except Err MarginListing := do
  let s ← settings lib eng
  let limit ← boundedLimit limit
  if productId ≠ "" then do
    let p ← product lib eng productId
    pure ⟨single "margin" p (marginItem p), p.notComputable, p.marginBlockedByConflict,
      some p.view.conflictPolicy⟩
  else do
    let (ids, seen) ← catalogue lib eng s limit
    let list := listing eng s "margin" limit ids seen (marginRow lib s)
    pure ⟨list, reasonList (list.items.flatMap MarginItem.notComputable),
      reasonList (list.items.flatMap MarginItem.marginBlockedByConflict), firstPolicy seen⟩

/-! ### What a list represents -/

variable {lib eng} {s : Settings} {policy : ConflictPolicy} {entry : Entry}

theorem truncatedNames_unmatched (status : List Status) :
    truncatedNames (status.map Status.unmatched) = truncatedNames status := by
  simp [truncatedNames, List.filter_map, Function.comp_def, Status.unmatched]

variable {id : String}

/-- A view of one identifier names the sources that stopped at their ceiling. -/
theorem resolve_ceiling {v : View} (hentry : declaration lib eng.toEngine s.entity = .ok (policy, entry))
    (h : resolve lib eng.toEngine s.entity id = .ok v) :
    truncatedNames v.sources = [] ↔ ¬AtCeiling lib eng.toEngine entry := by
  unfold resolve at h
  rw [hentry] at h
  obtain ⟨p, hp, h⟩ := bind_eq_ok.1 h
  cases hp
  obtain ⟨u, -, h⟩ := bind_eq_ok.1 h
  obtain ⟨one, hone, h⟩ := bind_eq_ok.1 h
  obtain rfl := pure_eq_ok.1 h
  have hagree := (collectAll_agrees lib eng.toEngine entry id).1
  rw [hone] at hagree
  obtain ⟨c, hc, hplain⟩ := map_eq_ok.1 hagree
  have hstatus : c.status.map Status.unmatched = one.status.map Status.unmatched :=
    congrArg (fun p => p.2.1) hplain
  change truncatedNames one.status = [] ↔ _
  rw [← truncatedNames_unmatched, ← hstatus, truncatedNames_unmatched, ← List.isEmpty_iff]
  exact (collectAll_ok hc).2.2

variable {ids : List String} {seen : List (String × View)}

theorem views_ok {limit : ℕ} (h : views lib eng s ids limit = .ok seen) :
    seen.map Prod.fst = ids.take limit ∧
      ∀ m ∈ seen, resolve lib eng.toEngine s.entity m.1 = .ok m.2 := by
  have hrows := mapM_eq_ok.1 h
  clear h
  generalize ids.take limit = taken at hrows ⊢
  induction hrows with
  | nil => simp
  | @cons id m ids seen hm _ ih =>
    obtain ⟨v, hv, hpair⟩ := bind_eq_ok.1 hm
    obtain rfl := pure_eq_ok.1 hpair
    rw [List.map_cons, ih.1, List.forall_mem_cons]
    exact ⟨rfl, hv, ih.2⟩

theorem ceiling_isEmpty :
    (ceiling (seen.map Prod.snd)).isEmpty = true ↔ ∀ m ∈ seen, truncatedNames m.2.sources = [] := by
  rw [List.isEmpty_iff, List.eq_nil_iff_forall_not_mem]
  simp only [ceiling, mem_distinct, List.mem_flatMap, List.mem_map, List.eq_nil_iff_forall_not_mem]
  constructor
  · exact fun h m hm name hname => h name ⟨m.2, ⟨m, hm, rfl⟩, hname⟩
  · rintro h name ⟨v, ⟨m, hm, rfl⟩, hname⟩
    exact h m hm name hname

/-- What the loop of a list reads. -/
theorem catalogue_ok {limit : ℕ} (hentry : declaration lib eng.toEngine s.entity = .ok (policy, entry))
    (h : catalogue lib eng s limit = .ok (ids, seen)) :
    ids = (distinct (scannedIds lib eng.toEngine entry)).take maxItems ∧
      seen.map Prod.fst = ids.take limit ∧
      ((ceiling (seen.map Prod.snd)).isEmpty = true ↔
        seen = [] ∨ ¬AtCeiling lib eng.toEngine entry) := by
  obtain ⟨⟨found, errors, cut⟩, hids, h⟩ := bind_eq_ok.1 h
  obtain ⟨seen', hseen, h⟩ := bind_eq_ok.1 h
  cases pure_eq_ok.1 h
  obtain ⟨n, hn, hfound, -, -⟩ := identifiers_ok hentry hids
  obtain rfl : maxItems = n := by exact_mod_cast hn
  obtain ⟨hfirst, hviews⟩ := views_ok hseen
  refine ⟨hfound, hfirst, ?_⟩
  rw [ceiling_isEmpty]
  cases seen with
  | nil => simp
  | cons m seen =>
    have hname : ∀ m' ∈ m :: seen, (truncatedNames m'.2.sources = [] ↔
        ¬AtCeiling lib eng.toEngine entry) := fun m' hm' => resolve_ceiling hentry (hviews m' hm')
    simp only [List.cons_ne_nil, false_or]
    exact ⟨fun h => (hname m List.mem_cons_self).1 (h m List.mem_cons_self),
      fun h m' hm' => (hname m' hm').2 h⟩

/-- Where a list that says it is not truncated has every identifier that was read. -/
def Represented (lib : Library) (eng : Engine) (entry : Entry) (limit : ℤ) : Prop :=
  (scannedIds lib eng.toEngine entry ≠ [] ∧ AtCeiling lib eng.toEngine entry) ∨
    (limit < maxItems ∧ limit < (distinct (scannedIds lib eng.toEngine entry)).length) ∨
    ((distinct (scannedIds lib eng.toEngine entry)).length ≤ maxItems ∧
      ∀ id ∈ presentIds lib eng.toEngine entry, id ∈ scannedIds lib eng.toEngine entry)

/-- A list represents what was read, unless it says that it is truncated. -/
theorem listing_iff {α : Type} {limit : ℕ} {view : String} {row : String × View → α} {key : α → String}
    (hkey : ∀ m, key (row m) = m.1) (hlimit : 1 ≤ limit)
    (hentry : declaration lib eng.toEngine s.entity = .ok (policy, entry))
    (h : catalogue lib eng s limit = .ok (ids, seen)) :
    ((listing eng s view limit ids seen row).truncated = false →
        ∀ id ∈ presentIds lib eng.toEngine entry,
          id ∈ (listing eng s view limit ids seen row).items.map key) ↔
      Represented lib eng entry limit := by
  obtain ⟨hids, hfirst, hceiling⟩ := catalogue_ok hentry h
  have hitems : (listing eng s view limit ids seen row).items.map key = ids.take limit := by
    rw [← hfirst]
    simp [listing, Function.comp_def, hkey]
  have hlength : seen.length = min limit ids.length := by
    rw [← List.length_map Prod.fst, hfirst, List.length_take]
  have hempty : seen = [] ↔ scannedIds lib eng.toEngine entry = [] := by
    rw [← List.length_eq_zero_iff, hlength, hids, List.length_take, List.eq_nil_iff_forall_not_mem]
    have hmem : ∀ id, id ∉ scannedIds lib eng.toEngine entry ↔
        id ∉ distinct (scannedIds lib eng.toEngine entry) := fun id => not_congr mem_distinct.symm
    simp only [hmem]
    rw [← List.eq_nil_iff_forall_not_mem, ← List.length_eq_zero_iff]
    have : 0 < maxItems := by decide
    omega
  have htruncated : (listing eng s view limit ids seen row).truncated = false ↔
      ¬(limit ≤ seen.length ∧ seen.length < ids.length) ∧
        (scannedIds lib eng.toEngine entry = [] ∨ ¬AtCeiling lib eng.toEngine entry) := by
    simp only [listing, Bool.or_eq_false_iff, decide_eq_false_iff_not, Bool.not_eq_false', hceiling,
      hempty]
  have hcount : ids.length = min maxItems (distinct (scannedIds lib eng.toEngine entry)).length := by
    rw [hids, List.length_take]
  rw [hitems, htruncated, Represented]
  by_cases hcut : scannedIds lib eng.toEngine entry ≠ [] ∧ AtCeiling lib eng.toEngine entry
  · refine iff_of_true (fun h => ?_) (.inl hcut)
    exact absurd hcut (by tauto)
  by_cases hlong : (limit : ℤ) < maxItems ∧
      (limit : ℤ) < (distinct (scannedIds lib eng.toEngine entry)).length
  · refine iff_of_true (fun h => absurd ?_ h.1) (.inr (.inl hlong))
    omega
  -- nothing is flagged: the answer holds every identifier of the list
  have hroom : ids.length ≤ limit := by omega
  have hquiet : scannedIds lib eng.toEngine entry = [] ∨ ¬AtCeiling lib eng.toEngine entry := by
    tauto
  have hnocut : ¬(limit ≤ seen.length ∧ seen.length < ids.length) := by omega
  rw [List.take_of_length_le hroom, hids]
  constructor
  · intro h
    have hall := h (hids ▸ ⟨hnocut, hquiet⟩)
    refine .inr (.inr ⟨?_, fun id hid => mem_distinct.1 (List.mem_of_mem_take (hall id hid))⟩)
    rcases hquiet with hnone | hbelow
    · rw [hnone]
      exact Nat.zero_le _
    · rw [← forall_mem_take_iff nodup_distinct]
      intro id hid
      refine hall id ?_
      rw [present_eq_scanned hbelow]
      exact mem_distinct.1 hid
  · rintro (h | h | ⟨hshort, hsub⟩) _ id hid
    · exact absurd h hcut
    · exact absurd h hlong
    · rw [List.take_of_length_le hshort, mem_distinct]
      exact hsub id hid

variable {limit : ℤ} {n : ℕ}

theorem boundedLimit_ok (h : boundedLimit limit = .ok n) : limit = n ∧ 1 ≤ n ∧ n ≤ maxItems := by
  obtain ⟨u, hbound, h⟩ := bind_eq_ok.1 h
  obtain rfl := pure_eq_ok.1 h
  have hrange := ensure_eq_ok.1 hbound
  refine ⟨?_, ?_, ?_⟩ <;> omega

theorem stock_list_ok {a : Listing StockItem} (hsettings : settings lib eng = .ok s)
    (h : stock lib eng "" limit = .ok a) :
    ∃ n ids seen, boundedLimit limit = .ok n ∧ catalogue lib eng s n = .ok (ids, seen) ∧
      a = listing eng s "stock" n ids seen (stockRow lib s) := by
  unfold stock at h
  rw [hsettings] at h
  obtain ⟨s', hs', h⟩ := bind_eq_ok.1 h
  cases hs'
  obtain ⟨n, hn, h⟩ := bind_eq_ok.1 h
  rw [if_neg (not_not.2 rfl)] at h
  obtain ⟨⟨ids, seen⟩, hread, h⟩ := bind_eq_ok.1 h
  exact ⟨n, ids, seen, hn, hread, (pure_eq_ok.1 h).symm⟩

theorem price_list_ok {a : PriceListing} (hsettings : settings lib eng = .ok s)
    (h : price lib eng "" limit = .ok a) :
    ∃ n ids seen, boundedLimit limit = .ok n ∧ catalogue lib eng s n = .ok (ids, seen) ∧
      a.toListing = listing eng s "price" n ids seen (priceRow lib s) := by
  unfold price at h
  rw [hsettings] at h
  obtain ⟨s', hs', h⟩ := bind_eq_ok.1 h
  cases hs'
  obtain ⟨n, hn, h⟩ := bind_eq_ok.1 h
  rw [if_neg (not_not.2 rfl)] at h
  obtain ⟨⟨ids, seen⟩, hread, h⟩ := bind_eq_ok.1 h
  exact ⟨n, ids, seen, hn, hread, congrArg PriceListing.toListing (pure_eq_ok.1 h).symm⟩

theorem margin_list_ok {a : MarginListing} (hsettings : settings lib eng = .ok s)
    (h : margin lib eng "" limit = .ok a) :
    ∃ n ids seen, boundedLimit limit = .ok n ∧ catalogue lib eng s n = .ok (ids, seen) ∧
      a.toListing = listing eng s "margin" n ids seen (marginRow lib s) := by
  unfold margin at h
  rw [hsettings] at h
  obtain ⟨s', hs', h⟩ := bind_eq_ok.1 h
  cases hs'
  obtain ⟨n, hn, h⟩ := bind_eq_ok.1 h
  rw [if_neg (not_not.2 rfl)] at h
  obtain ⟨⟨ids, seen⟩, hread, h⟩ := bind_eq_ok.1 h
  exact ⟨n, ids, seen, hn, hread, congrArg MarginListing.toListing (pure_eq_ok.1 h).symm⟩

/-- **A list of stocks, prices or margins that says it is not truncated has every product identifier that was
read: exactly where it is flagged (a source at its ceiling, or a limit below a hundred that left identifiers
out), or where at most a hundred identifiers were read and the rows past the two hundredth hold none of their
own.** -/
theorem represents_iff (hsettings : settings lib eng = .ok s)
    (hentry : declaration lib eng.toEngine s.entity = .ok (policy, entry)) :
    (∀ limit a, stock lib eng "" limit = .ok a →
      ((a.truncated = false → ∀ id ∈ presentIds lib eng.toEngine entry,
        id ∈ a.items.map StockItem.id) ↔ Represented lib eng entry limit)) ∧
    (∀ limit a, price lib eng "" limit = .ok a →
      ((a.truncated = false → ∀ id ∈ presentIds lib eng.toEngine entry,
        id ∈ a.items.map PriceItem.id) ↔ Represented lib eng entry limit)) ∧
    ∀ limit a, margin lib eng "" limit = .ok a →
      ((a.truncated = false → ∀ id ∈ presentIds lib eng.toEngine entry,
        id ∈ a.items.map MarginItem.id) ↔ Represented lib eng entry limit) := by
  refine ⟨fun limit a h => ?_, fun limit a h => ?_, fun limit a h => ?_⟩
  · obtain ⟨n, ids, seen, hn, hread, rfl⟩ := stock_list_ok hsettings h
    obtain ⟨rfl, hpos, -⟩ := boundedLimit_ok hn
    exact listing_iff (fun _ => rfl) hpos hentry hread
  · obtain ⟨n, ids, seen, hn, hread, hlist⟩ := price_list_ok hsettings h
    obtain ⟨rfl, hpos, -⟩ := boundedLimit_ok hn
    rw [hlist]
    exact listing_iff (fun _ => rfl) hpos hentry hread
  · obtain ⟨n, ids, seen, hn, hread, hlist⟩ := margin_list_ok hsettings h
    obtain ⟨rfl, hpos, -⟩ := boundedLimit_ok hn
    rw [hlist]
    exact listing_iff (fun _ => rfl) hpos hentry hread

/-! ### A shop with one price list -/

/-- The product of a graph with one source. -/
def oneSource : Json :=
  .obj [("entities", .obj [("product", .obj [("sources", .obj [("erp", sheet "price")])])])]

/-- An inventory whose price is that attribute, over rows of identifiers and prices. -/
def shopEngine (rows : List (Cell × Cell)) : Engine :=
  { catalogueEngine (rows.map fun r => some [("id", r.1), ("value", r.2)]) with
    graph := oneSource
    inventory := .obj [("entity", .str "product"), ("attributes", .obj [("price", .str "price")])] }

theorem represents_iff_sample :
    ∃ entry, (∀ limit a, stock plainLibrary (shopEngine [(.int 1, .int 5), (.int 2, .int 7)]) "" limit = .ok a →
      ((a.truncated = false → ∀ id ∈ presentIds plainLibrary
          (shopEngine [(.int 1, .int 5), (.int 2, .int 7)]).toEngine entry,
        id ∈ a.items.map StockItem.id) ↔
          Represented plainLibrary (shopEngine [(.int 1, .int 5), (.int 2, .int 7)]) entry limit)) :=
  ⟨_, (@represents_iff plainLibrary (shopEngine [(.int 1, .int 5), (.int 2, .int 7)]) _ _ _ rfl rfl).1⟩

/-- The hundred and first product is in no row of the list, which says that it is not truncated. -/
theorem stock_drops_identifier :
    ¬∀ (lib : Library) (eng : Engine) (s : Settings) (policy : ConflictPolicy) (entry : Entry) (limit : ℤ)
      (a : Listing StockItem), settings lib eng = .ok s →
      declaration lib eng.toEngine s.entity = .ok (policy, entry) → stock lib eng "" limit = .ok a →
      a.truncated = false → ∀ id ∈ presentIds lib eng.toEngine entry, id ∈ a.items.map StockItem.id := by
  intro h
  have hrun : (do
      let eng := shopEngine ((List.range 101).map fun i => (.int i, .int i))
      let s ← settings plainLibrary eng
      let p ← declaration plainLibrary eng.toEngine s.entity
      let a ← stock plainLibrary eng "" 100
      pure (a.truncated, (presentIds plainLibrary eng.toEngine p.2).contains "100",
        (a.items.map StockItem.id).contains "100")) = Except.ok (false, true, false) := by
    decide +kernel
  obtain ⟨s, hs, hrun⟩ := bind_eq_ok.1 hrun
  obtain ⟨p, hp, hrun⟩ := bind_eq_ok.1 hrun
  obtain ⟨a, ha, hrun⟩ := bind_eq_ok.1 hrun
  have hfacts := pure_eq_ok.1 hrun
  simp only [Prod.mk.injEq, List.contains_iff_mem] at hfacts
  obtain ⟨htruncated, hpresent, hitem⟩ := hfacts
  have hmem := h _ _ s p.1 p.2 100 a hs hp ha htruncated "100" hpresent
  rw [← List.contains_iff_mem, hitem] at hmem
  cases hmem

/-! ### One product and its row -/

variable {text : String}

theorem strip_of_identityShape (h : identityShape text.toList = true) : strip text = text := by
  refine strip_eq_self fun c hc => ?_
  simp only [identityShape, Bool.and_eq_true, List.all_eq_true, Bool.not_eq_true'] at h
  exact (h.2 c hc).1

theorem ne_empty_of_identityShape (h : identityShape text.toList = true) : text ≠ "" := by
  rintro rfl
  cases h

theorem identity_of_shape (h : identityShape text.toList = true) : identity text = .ok text := by
  unfold identity
  rw [strip_of_identityShape h]
  exact bind_eq_ok.2 ⟨(), ensure_eq_ok.2 (ne_empty_of_identityShape h),
    bind_eq_ok.2 ⟨(), ensure_eq_ok.2 (Pattern.anchored_of_shape h), rfl⟩⟩

theorem product_of_seen {m : String × View} (hsettings : settings lib eng = .ok s)
    (hid : identityShape m.1.toList = true)
    (hview : resolve lib eng.toEngine s.entity m.1 = .ok m.2) :
    product lib eng m.1 = .ok (productOf lib s m.1 m.2) := by
  unfold product
  rw [hsettings, identity_of_shape hid]
  exact bind_eq_ok.2 ⟨s, rfl, bind_eq_ok.2 ⟨m.1, rfl, bind_eq_ok.2 ⟨m.2, hview, rfl⟩⟩⟩

/-- A row of the margin list is the margin of the product, without its name and currency. -/
theorem marginRow_eq (m : String × View) :
    marginRow lib s m = { marginItem (productOf lib s m.1 m.2) with name := none, currency := none } := by
  have hnil : reasonsOf (figure lib m.2 (s.attr "price") true) (figure lib m.2 (s.attr "cost") true) = [] ↔ _ :=
    reasonsOf_eq_nil_iff m.2 (s.attr "price") (s.attr "cost")
  unfold marginRow marginItem productOf
  dsimp only
  by_cases hreasons : reasonsOf (figure lib m.2 (s.attr "price") true)
      (figure lib m.2 (s.attr "cost") true) = []
  · rw [if_pos hreasons, decide_eq_true hreasons, hnil.1 hreasons]
  · have hnone : (difference (selectedNumber (figure lib m.2 (s.attr "price") true))
        (selectedNumber (figure lib m.2 (s.attr "cost") true))) = none := by
      rw [← Option.not_isSome_iff_eq_none, ← hnil]
      exact hreasons
    rw [if_neg hreasons, decide_eq_false hreasons, hnone]
    rfl

theorem catalogue_seen {limit : ℕ} (h : catalogue lib eng s limit = .ok (ids, seen)) :
    ∀ m ∈ seen, resolve lib eng.toEngine s.entity m.1 = .ok m.2 := by
  obtain ⟨found, -, h⟩ := bind_eq_ok.1 h
  obtain ⟨seen', hseen, h⟩ := bind_eq_ok.1 h
  cases pure_eq_ok.1 h
  exact (views_ok hseen).2

variable {p : ProductAnswer}

theorem stock_single (hsettings : settings lib eng = .ok s) (hlimit : boundedLimit limit = .ok n)
    (hne : id ≠ "") (hproduct : product lib eng id = .ok p) :
    stock lib eng id limit = .ok (single "stock" p ⟨p.id, p.stock, p.unit⟩) := by
  unfold stock
  rw [hsettings, hproduct]
  exact bind_eq_ok.2 ⟨s, rfl, bind_eq_ok.2 ⟨n, hlimit, if_pos hne⟩⟩

theorem price_single (hsettings : settings lib eng = .ok s) (hlimit : boundedLimit limit = .ok n)
    (hne : id ≠ "") (hproduct : product lib eng id = .ok p) :
    ∃ one, price lib eng id limit = .ok one ∧
      one.items = [⟨p.id, some p.name, p.price, some p.currency, reason p.price, p.view.conflicts⟩] := by
  unfold price
  rw [hsettings, hproduct]
  exact ⟨_, bind_eq_ok.2 ⟨s, rfl, bind_eq_ok.2 ⟨n, hlimit, if_pos hne⟩⟩, rfl⟩

theorem margin_single (hsettings : settings lib eng = .ok s) (hlimit : boundedLimit limit = .ok n)
    (hne : id ≠ "") (hproduct : product lib eng id = .ok p) :
    ∃ one, margin lib eng id limit = .ok one ∧ one.items = [marginItem p] := by
  unfold margin
  rw [hsettings, hproduct]
  exact ⟨_, bind_eq_ok.2 ⟨s, rfl, bind_eq_ok.2 ⟨n, hlimit, if_pos hne⟩⟩, rfl⟩

/-- A margin has a number for both figures, or names the reasons of those that have none. -/
theorem productOf_margin (id : String) (view : View) :
    let p := productOf lib s id view
    p.margin = difference (selectedNumber p.price) (selectedNumber p.cost) ∧
      (p.marginComputable = true ↔
        (selectedNumber p.price).isSome = true ∧ (selectedNumber p.cost).isSome = true) ∧
      (p.marginComputable = true ↔ p.notComputable = [] ∧ p.marginBlockedByConflict = []) := by
  intro p
  refine ⟨rfl, ?_, ?_⟩
  · change (difference (selectedNumber p.price) (selectedNumber p.cost)).isSome = true ↔ _
    unfold difference
    cases selectedNumber p.price <;> cases selectedNumber p.cost <;> simp
  · change (difference (selectedNumber p.price) (selectedNumber p.cost)).isSome = true ↔
      (reasonsOf p.price p.cost).filter (fun r => !policyReasons.contains r) = [] ∧
        (reasonsOf p.price p.cost).filter (fun r => policyReasons.contains r) = []
    have hnil : reasonsOf p.price p.cost = [] ↔
        (difference (selectedNumber p.price) (selectedNumber p.cost)).isSome = true :=
      reasonsOf_eq_nil_iff view (s.attr "price") (s.attr "cost")
    rw [← hnil]
    constructor
    · intro h
      rw [h]
      exact ⟨rfl, rfl⟩
    · rintro ⟨hdata, hpolicy⟩
      rw [List.filter_eq_nil_iff] at hdata hpolicy
      rw [List.eq_nil_iff_forall_not_mem]
      intro r hr
      have hnot := hpolicy r hr
      exact hdata r hr (by simpa using hnot)

/-- **For an identifier that is a product identity, a row of the stock, price or margin list is the answer for
that product alone, without its name and currency; and the answer has a margin exactly where its price and its
cost both have a selected number, and no reason against it exactly there.** -/
theorem rows_agree (hsettings : settings lib eng = .ok s) :
    (∀ limit a, stock lib eng "" limit = .ok a → ∀ item ∈ a.items, identityShape item.id.toList = true →
      ∃ one, stock lib eng item.id limit = .ok one ∧ one.items = [item]) ∧
    (∀ limit a, price lib eng "" limit = .ok a → ∀ item ∈ a.items, identityShape item.id.toList = true →
      ∃ one row, price lib eng item.id limit = .ok one ∧ one.items = [row] ∧
        item = { row with name := none, currency := none }) ∧
    (∀ limit a, margin lib eng "" limit = .ok a → ∀ item ∈ a.items, identityShape item.id.toList = true →
      ∃ one row, margin lib eng item.id limit = .ok one ∧ one.items = [row] ∧
        item = { row with name := none, currency := none }) ∧
    ∀ id p, product lib eng id = .ok p →
      p.margin = difference (selectedNumber p.price) (selectedNumber p.cost) ∧
        (p.marginComputable = true ↔
          (selectedNumber p.price).isSome = true ∧ (selectedNumber p.cost).isSome = true) ∧
        (p.marginComputable = true ↔ p.notComputable = [] ∧ p.marginBlockedByConflict = []) := by
  refine ⟨fun limit a h => ?_, fun limit a h => ?_, fun limit a h => ?_, fun id p h => ?_⟩
  · obtain ⟨n, ids, seen, hn, hread, rfl⟩ := stock_list_ok hsettings h
    intro item hitem hid
    obtain ⟨m, hm, rfl⟩ := List.mem_map.1 hitem
    have hproduct := product_of_seen hsettings hid (catalogue_seen hread m hm)
    exact ⟨_, stock_single hsettings hn (ne_empty_of_identityShape hid) hproduct, rfl⟩
  · obtain ⟨n, ids, seen, hn, hread, hlist⟩ := price_list_ok hsettings h
    intro item hitem hid
    rw [hlist] at hitem
    obtain ⟨m, hm, rfl⟩ := List.mem_map.1 hitem
    have hproduct := product_of_seen hsettings hid (catalogue_seen hread m hm)
    obtain ⟨one, hone, hitems⟩ :=
      price_single hsettings hn (ne_empty_of_identityShape hid) hproduct
    exact ⟨one, _, hone, hitems, rfl⟩
  · obtain ⟨n, ids, seen, hn, hread, hlist⟩ := margin_list_ok hsettings h
    intro item hitem hid
    rw [hlist] at hitem
    obtain ⟨m, hm, rfl⟩ := List.mem_map.1 hitem
    have hproduct := product_of_seen hsettings hid (catalogue_seen hread m hm)
    obtain ⟨one, hone, hitems⟩ :=
      margin_single hsettings hn (ne_empty_of_identityShape hid) hproduct
    exact ⟨one, _, hone, hitems, marginRow_eq m⟩
  · unfold product at h
    obtain ⟨s', hs', h⟩ := bind_eq_ok.1 h
    obtain ⟨known, -, h⟩ := bind_eq_ok.1 h
    obtain ⟨view, -, h⟩ := bind_eq_ok.1 h
    obtain rfl := pure_eq_ok.1 h
    exact productOf_margin known view

theorem rows_agree_sample :
    ∃ one, stock plainLibrary (shopEngine [(.int 1, .int 5), (.int 2, .int 7)]) "2" 100 = .ok one ∧
      one.items.map StockItem.id = ["2"] := by
  have hrun : (do
      let a ← stock plainLibrary (shopEngine [(.int 1, .int 5), (.int 2, .int 7)]) "" 100
      pure (a.items.map StockItem.id)) = Except.ok ["1", "2"] := by
    decide +kernel
  obtain ⟨a, ha, hrun⟩ := bind_eq_ok.1 hrun
  have hids : "2" ∈ a.items.map StockItem.id := by
    rw [pure_eq_ok.1 hrun]
    decide
  obtain ⟨item, hitem, hid⟩ := List.mem_map.1 hids
  obtain ⟨one, hone, hitems⟩ :=
    (@rows_agree plainLibrary (shopEngine [(.int 1, .int 5), (.int 2, .int 7)]) _ rfl).1
      100 a ha item hitem (by rw [hid]; decide)
  rw [hid] at hone
  exact ⟨one, hone, by rw [hitems, List.map_singleton, hid]⟩

/-- The list shows the price of the identifier that begins with a space; asked for it alone, the tool answers
with the price of the identifier without. -/
theorem price_of_padded_differs :
    ¬∀ (lib : Library) (eng : Engine) (limit : ℤ) (a one : PriceListing), price lib eng "" limit = .ok a →
      ∀ item ∈ a.items, item.id ≠ "" → price lib eng item.id limit = .ok one →
        one.items.map PriceItem.price = [item.price] := by
  intro h
  have hrun : (do
      let eng := shopEngine [(.str " SKU-1", .int 5), (.str "SKU-1", .int 7)]
      let a ← price plainLibrary eng "" 100
      let one ← price plainLibrary eng " SKU-1" 100
      pure ((a.items.head?.map PriceItem.id), (a.items.head?.map PriceItem.price) ==
        (one.items.head?.map PriceItem.price))) = Except.ok (some " SKU-1", false) := by
    decide +kernel
  obtain ⟨a, ha, hrun⟩ := bind_eq_ok.1 hrun
  obtain ⟨one, hone, hrun⟩ := bind_eq_ok.1 hrun
  have hfacts := pure_eq_ok.1 hrun
  simp only [Prod.mk.injEq, Option.map_eq_some_iff, beq_eq_false_iff_ne, ne_eq] at hfacts
  obtain ⟨⟨item, hhead, hid⟩, hne⟩ := hfacts
  have hitem : item ∈ a.items := List.mem_of_mem_head? hhead
  have hsame := h _ _ 100 a one ha item hitem (by rw [hid]; decide) (by rw [hid]; exact hone)
  rw [hhead] at hne
  apply hne
  rw [← List.head?_map, hsame]
  rfl

end AgentPlatform.Inventory
