import AgentPlatform.Lib.AnyOrder
import AgentPlatform.Oee.Report

/-!
# The order of the rows

What is collected of a station is the last plan and the last ideal cycle of its rows, and the sum of the other
columns, a double at a time (`foldl_account`). So the report does not depend on the order of the rows exactly
where the plans of a station agree, its ideal cycles agree, and its sums are the same in any order
(`rowOrder_iff`). Counts whose sum is at most `2 ^ 53` are (`anyOrder_counts`).
-/

namespace AgentPlatform.Oee

open Outcome AgentPlatform.Graph

/-! ### What is collected of a station -/

/-- The numbers of a column. -/
def numbers (column : Readings → Reading) (rs : List Readings) : List Binary64 :=
  rs.filterMap fun r => (column r).number?

/-- The total of a column. -/
def totalOf (xs : List Binary64) : Total := ⟨xs.foldl Binary64.add .zero, !xs.isEmpty⟩

/-- What the rows of a station come to. -/
def collected (plan : Option Binary64) (rs : List Readings) : Bucket :=
  { samples := rs.length
    planned := (numbers Readings.planned rs).getLast?.or
      (if rs.any fun r => r.planned = .blank then plan else none)
    run := totalOf (numbers Readings.run rs)
    ideal := (numbers Readings.ideal rs).getLast?
    produced := totalOf (numbers Readings.produced rs)
    good := totalOf (numbers Readings.good rs)
    unplanned := totalOf (numbers Readings.unplanned rs) }

variable {column : Readings → Reading} {rs rs' : List Readings} {r : Readings}

theorem numbers_append :
    numbers column (rs ++ [r]) = numbers column rs ++ (column r).number?.toList := by
  rw [numbers, List.filterMap_append]
  cases h : (column r).number? <;> simp [numbers, h]

theorem totalOf_append :
    totalOf (numbers column (rs ++ [r])) = (totalOf (numbers column rs)).take (column r) := by
  rw [numbers_append]
  cases column r <;> simp [totalOf, Total.take, Reading.number?]

theorem getLast?_numbers_append :
    (numbers column (rs ++ [r])).getLast? =
      (column r).number?.or (numbers column rs).getLast? := by
  rw [numbers_append]
  cases column r <;> simp [Reading.number?]

/-- A run over the rows of a station. -/
theorem foldl_account {plan : Option Binary64} :
    rs.foldl (Bucket.account plan) .empty = collected plan rs := by
  induction rs using List.reverseRecOn with
  | nil => rfl
  | append_singleton rs r ih =>
    rw [List.foldl_append, ih]
    simp only [List.foldl_cons, List.foldl_nil, Bucket.account, collected, totalOf_append,
      getLast?_numbers_append, List.length_append, List.length_singleton, Bucket.mk.injEq, and_true,
      true_and]
    cases hplanned : r.planned with
    | value x => simp [Reading.number?]
    | unreadable => simp [Reading.number?, hplanned]
    | blank =>
      simp only [Reading.number?, Option.none_or, List.any_append, List.any_cons, List.any_nil, hplanned,
        decide_true, Bool.or_false, Bool.or_true, if_true]
      cases (numbers Readings.planned rs).getLast? with
      | some x => rfl
      | none =>
        simp only [Option.none_or]
        split_ifs <;> simp

/-- What is collected is the same in another order, where the plans and the ideal cycles agree and the sums
do not depend on the order. -/
theorem collected_perm {plan : Option Binary64} (hperm : rs'.Perm rs)
    (hplanned : ∀ x ∈ numbers Readings.planned rs, ∀ y ∈ numbers Readings.planned rs, x = y)
    (hideal : ∀ x ∈ numbers Readings.ideal rs, ∀ y ∈ numbers Readings.ideal rs, x = y)
    (hsums : ∀ column ∈ [Readings.run, Readings.produced, Readings.good, Readings.unplanned],
      AnyOrder Binary64.add .zero (numbers column rs)) :
    collected plan rs' = collected plan rs := by
  have hnumbers : ∀ column, (numbers column rs').Perm (numbers column rs) :=
    fun column => hperm.filterMap _
  have htotal : ∀ column ∈ [Readings.run, Readings.produced, Readings.good, Readings.unplanned],
      totalOf (numbers column rs') = totalOf (numbers column rs) := by
    intro column hcolumn
    rw [totalOf, totalOf, hsums column hcolumn _ (hnumbers column), (hnumbers column).isEmpty_eq]
  have hblank : (rs'.any fun r => r.planned = .blank) = rs.any fun r => r.planned = .blank :=
    hperm.any_eq
  unfold collected
  rw [hperm.length_eq, hblank, AnyOrder.getLast?_anyOrder_iff.2 hplanned _ (hnumbers _),
    AnyOrder.getLast?_anyOrder_iff.2 hideal _ (hnumbers _), htotal _ (by simp), htotal _ (by simp),
    htotal _ (by simp), htotal _ (by simp)]

/-! ### The stations of a register -/

variable {lib : Library} {eng : Engine} {entry : Entry} {plan : Option Binary64}
  {members members' : List (String × Readings)} {name wanted : String}
  {rows rows' : List (List (String × Cell))}

/-- The readings of one station. -/
def readingsOf (name : String) (members : List (String × Readings)) : List Readings :=
  (members.filter fun m => m.1 = name).map Prod.snd

theorem lookup_byStation :
    (byStation plan members).lookup name =
      if readingsOf name members = [] then none else some (collected plan (readingsOf name members)) := by
  have hlookup : (byStation plan members).lookup name =
      if (members.filter fun m => m.1 = name) = [] then none
      else some ((members.filter fun m => m.1 = name).foldl (fun b m => b.account plan m.2) .empty) :=
    @Dict.lookup_foldl_getD _ _ _ name _ Prod.fst members (fun b m => Bucket.account plan b m.2) Bucket.empty
  rw [hlookup, readingsOf, ← foldl_account, List.foldl_map]
  simp only [List.map_eq_nil_iff]

theorem nodup_byStation : ((byStation plan members).map Prod.fst).Nodup :=
  Dict.nodup_keys_foldl_modify List.nodup_nil

/-- The order of the report is one order: a station is there once. -/
theorem ranked_eq {ms ns : List (String × Bucket)} (hperm : ms.Perm ns)
    (hnodup : (ns.map Prod.fst).Nodup) : ranked ms = ranked ns := by
  have htotal : Std.Total fun m n : String × Bucket => sortKey m ≤ sortKey n :=
    ⟨fun m n => le_total _ _⟩
  have htrans : IsTrans (String × Bucket) fun m n => sortKey m ≤ sortKey n :=
    ⟨fun _ _ _ => le_trans⟩
  have hms := List.perm_insertionSort (fun m n : String × Bucket => sortKey m ≤ sortKey n) ms
  have hns := List.perm_insertionSort (fun m n : String × Bucket => sortKey m ≤ sortKey n) ns
  refine List.Perm.eq_of_pairwise ?_ (List.pairwise_insertionSort _ ms) (List.pairwise_insertionSort _ ns)
    (hms.trans (hperm.trans hns.symm))
  intro m n hm hn hmn hnm
  have hkey : sortKey m = sortKey n := le_antisymm hmn hnm
  have hname : m.1 = n.1 := String.ext (congrArg (fun k => (ofLex k).2) hkey)
  exact List.inj_on_of_nodup_map hnodup (hperm.subset ((List.mem_insertionSort _).1 hm))
    ((List.mem_insertionSort _).1 hn) hname

/-! ### The rows of a station -/

/-- The numbers of a column in the rows of a station. -/
def cells (lib : Library) (entry : Entry) (name : String) (column : Readings → Reading)
    (rows : List (List (String × Cell))) : List Binary64 :=
  rows.filterMap fun row =>
    if stationOf lib entry row = name then (column (readings lib entry row)).number? else none

/-- A station with one plan and one ideal cycle, whose sums are the same in any order. -/
structure Settled (lib : Library) (entry : Entry) (rows : List (List (String × Cell))) (name : String) :
    Prop where
  planned : ∀ x ∈ cells lib entry name Readings.planned rows,
    ∀ y ∈ cells lib entry name Readings.planned rows, x = y
  ideal : ∀ x ∈ cells lib entry name Readings.ideal rows,
    ∀ y ∈ cells lib entry name Readings.ideal rows, x = y
  sums : ∀ column ∈ [Readings.run, Readings.produced, Readings.good, Readings.unplanned],
    AnyOrder Binary64.add .zero (cells lib entry name column rows)

/-- Whether a report reads a station. -/
def Wanted (wanted name : String) : Prop := name ≠ "" ∧ (wanted = "" ∨ name = wanted)

instance : Decidable (Wanted wanted name) := inferInstanceAs (Decidable (_ ∧ _))

theorem readingsOf_stationRows :
    readingsOf name (stationRows lib entry wanted rows) =
      if Wanted wanted name then
        (rows.filter fun row => stationOf lib entry row = name).map (readings lib entry) else [] := by
  have hfilter : readingsOf name (stationRows lib entry wanted rows) =
      (rows.filter fun row => stationOf lib entry row = name ∧
        Wanted wanted (stationOf lib entry row)).map (readings lib entry) := by
    rw [readingsOf, stationRows, List.filter_filter, List.filter_map, List.map_map]
    refine congrArg (List.map (readings lib entry)) (List.filter_congr fun row _ => ?_)
    rw [Bool.eq_iff_iff, Function.comp_apply, Bool.and_eq_true]
    simp only [decide_eq_true_eq]
    rfl
  rw [hfilter]
  split_ifs with hwanted
  · refine congrArg (List.map (readings lib entry)) (List.filter_congr fun row _ => ?_)
    by_cases hname : stationOf lib entry row = name
    · simp [hname, hwanted]
    · simp [hname]
  · rw [List.map_eq_nil_iff, List.filter_eq_nil_iff]
    intro row _ h
    simp only [decide_eq_true_eq] at h
    exact hwanted (h.1 ▸ h.2)

theorem numbers_stationRows :
    numbers column (readingsOf name (stationRows lib entry wanted rows)) =
      if Wanted wanted name then cells lib entry name column rows else [] := by
  rw [readingsOf_stationRows]
  split_ifs
  · rw [numbers, List.filterMap_map, List.filterMap_filter]
    simp only [decide_eq_true_eq]
    rfl
  · rfl

theorem anyOrder_nil {α σ : Type} {f : σ → α → σ} {s : σ} : AnyOrder f s [] := by
  intro ys hys
  rw [hys.eq_nil]

theorem take_rows (sheet : Sheet) : sheet.rows.take maxRows = sheet.rows :=
  List.take_of_length_le sheet.bound

/-- A report reads the same of a settled register in another order. -/
theorem reportOf_perm {levels : List String} {limit : ℕ} {sheet sheet' : Sheet}
    (hperm : sheet'.rows.Perm sheet.rows) (htruncated : sheet'.truncated = sheet.truncated)
    (h : ∀ name ≠ "", Settled lib entry sheet.rows name) :
    reportOf lib levels entry wanted limit sheet' = reportOf lib levels entry wanted limit sheet := by
  have hmembers : (stationRows lib entry wanted sheet'.rows).Perm (stationRows lib entry wanted sheet.rows) :=
    (hperm.map _).filter _
  have hreadings : ∀ name, (readingsOf name (stationRows lib entry wanted sheet'.rows)).Perm
      (readingsOf name (stationRows lib entry wanted sheet.rows)) :=
    fun name => (hmembers.filter _).map _
  have hcollected : ∀ name, collected entry.plannedRunSeconds
        (readingsOf name (stationRows lib entry wanted sheet'.rows)) =
      collected entry.plannedRunSeconds (readingsOf name (stationRows lib entry wanted sheet.rows)) := by
    intro name
    by_cases hwanted : Wanted wanted name
    · have hsettled := h name hwanted.1
      apply collected_perm (hreadings name)
      · rw [numbers_stationRows, if_pos hwanted]
        exact hsettled.planned
      · rw [numbers_stationRows, if_pos hwanted]
        exact hsettled.ideal
      · intro column hcolumn
        rw [numbers_stationRows, if_pos hwanted]
        exact hsettled.sums column hcolumn
    · rw [readingsOf_stationRows, readingsOf_stationRows, if_neg hwanted, if_neg hwanted]
  have hstations : (byStation entry.plannedRunSeconds (stationRows lib entry wanted sheet'.rows)).Perm
      (byStation entry.plannedRunSeconds (stationRows lib entry wanted sheet.rows)) := by
    apply Dict.perm_of_lookup_eq nodup_byStation nodup_byStation
    intro name
    rw [lookup_byStation, lookup_byStation, hcollected name]
    have hnil : readingsOf name (stationRows lib entry wanted sheet'.rows) = [] ↔
        readingsOf name (stationRows lib entry wanted sheet.rows) = [] := by
      rw [← List.length_eq_zero_iff, (hreadings name).length_eq, List.length_eq_zero_iff]
    simp only [hnil]
  have hunreadable := (hmembers.map fun m => m.2.unreadable).sum_eq
  unfold reportOf
  dsimp only
  rw [take_rows, take_rows, ranked_eq hstations nodup_byStation, hstations.length_eq, hperm.countP_eq,
    hperm.length_eq, htruncated, hunreadable]

/-! ### Registers in another order -/

/-- The same tenant and agent, over other rows. -/
def Engine.withSheet (eng : Engine) (sheet : Sheet) : Engine := { eng with read := fun _ _ => .ok sheet }

variable {levels : List String} {sheet sheet' : Sheet}

/-- A report is what `report` makes of the rows. -/
theorem report_eq {station : String} {limit : ℤ} (hlevels : declaredLevels lib eng = .ok levels)
    (hne : levels ≠ []) (hentry : resolveRegister lib eng = .ok entry)
    (hread : eng.read entry.register entry.range = .ok sheet) :
    report lib eng station limit = (bounded limit "limit" 1 maxStations).map fun n =>
      reportOf lib levels entry (strip (String.ofList (station.toList.take 255))) n sheet := by
  unfold report
  rw [hlevels, hentry]
  cases bounded limit "limit" 1 maxStations with
  | error e => rfl
  | ok n =>
    refine bind_eq_ok.2 ⟨n, rfl, bind_eq_ok.2 ⟨levels, rfl, bind_eq_ok.2 ⟨(), ensure_eq_ok.2 hne, ?_⟩⟩⟩
    exact bind_eq_ok.2 ⟨entry, rfl, bind_eq_ok.2 ⟨sheet, hread, rfl⟩⟩

theorem stationOf_canonical (row : List (String × Cell)) :
    strip (String.ofList ((stationOf lib entry row).toList.take 255)) = stationOf lib entry row := by
  have hshort : ∀ value, (textOf lib value 255).toList.length ≤ 255 := by
    intro value
    cases value with
    | none => simp [textOf]
    | bool b => cases b <;> simp [textOf]
    | _ => simp [textOf]
  have hlength : (stationOf lib entry row).toList.length ≤ 255 :=
    (length_strip_le _).trans (hshort _)
  rw [List.take_of_length_le hlength, String.ofList_toList, stationOf, strip_strip]

/-- The report of one station shows what its rows come to. -/
theorem stations_of_one {row : List (String × Cell)} (hrow : row ∈ sheet.rows)
    (hname : stationOf lib entry row = name) (hne : name ≠ "") :
    (reportOf lib levels entry name 1 sheet).stations =
      [record lib levels entry (name, collected entry.plannedRunSeconds
        (readingsOf name (stationRows lib entry name sheet.rows)))] := by
  have hrows : readingsOf name (stationRows lib entry name sheet.rows) ≠ [] := by
    rw [readingsOf_stationRows, if_pos ⟨hne, .inr rfl⟩, Ne, List.map_eq_nil_iff]
    exact List.ne_nil_of_mem (List.mem_filter.2 ⟨hrow, by simpa using hname⟩)
  have hstations : (byStation entry.plannedRunSeconds (stationRows lib entry name sheet.rows)).Perm
      [(name, collected entry.plannedRunSeconds
        (readingsOf name (stationRows lib entry name sheet.rows)))] := by
    apply Dict.perm_of_lookup_eq nodup_byStation (by simp)
    intro k
    rw [lookup_byStation]
    by_cases hk : k = name
    · rw [hk, if_neg hrows]
      simp
    · have hother : ¬Wanted name k := by
        rintro ⟨-, h | h⟩
        · exact hne h
        · exact hk h
      have hnil : readingsOf k (stationRows lib entry name sheet.rows) = [] := by
        rw [readingsOf_stationRows, if_neg hother]
      have hbeq : (k == name) = false := by simpa using hk
      rw [if_pos hnil, List.lookup_cons, hbeq]
      rfl
  unfold reportOf
  dsimp only
  rw [take_rows, List.perm_singleton.1 hstations]
  rfl

theorem cells_of_one :
    numbers column (readingsOf name (stationRows lib entry name rows)) =
      if name = "" then [] else cells lib entry name column rows := by
  rw [numbers_stationRows]
  by_cases hname : name = ""
  · rw [if_pos hname, if_neg fun h => h.1 hname]
  · rw [if_neg hname, if_pos ⟨hname, .inr rfl⟩]

theorem sum_eq_of_value?_eq {xs ys : List Binary64} (hperm : ys.Perm xs)
    (h : (totalOf ys).value? = (totalOf xs).value?) :
    ys.foldl Binary64.add .zero = xs.foldl Binary64.add .zero := by
  cases xs with
  | nil => rw [hperm.eq_nil]
  | cons x xs =>
    cases ys with
    | nil => exact absurd hperm.symm.eq_nil (List.cons_ne_nil _ _)
    | cons y ys => exact Option.some.inj h

/-- Plans that are shown the same are the same. -/
theorem getLast?_of_planned (hperm : rs'.Perm rs)
    (h : (collected plan rs').planned = (collected plan rs).planned) :
    (numbers Readings.planned rs').getLast? = (numbers Readings.planned rs).getLast? := by
  have hnumbers : (numbers Readings.planned rs').Perm (numbers Readings.planned rs) := hperm.filterMap _
  cases hx : (numbers Readings.planned rs).getLast? with
  | none =>
    rw [List.getLast?_eq_none_iff] at hx ⊢
    rw [hx] at hnumbers
    exact hnumbers.eq_nil
  | some x =>
    cases hy : (numbers Readings.planned rs').getLast? with
    | none =>
      rw [List.getLast?_eq_none_iff] at hy
      rw [hy] at hnumbers
      rw [hnumbers.symm.eq_nil] at hx
      cases hx
    | some y =>
      simpa [collected, hx, hy] using h

theorem cells_undeclared (h : entry.unplannedColumn = "") :
    cells lib entry name Readings.unplanned rows = [] := by
  rw [cells, List.filterMap_eq_nil_iff]
  intro row _
  split_ifs
  · simp [readings, reading, h, Reading.number?]
  · rfl

/-- **The report does not depend on the order of the rows, its figures, their inputs and the reasons of every
station included, exactly where each station has one plan and one ideal cycle, and sums that are the same in
any order.** -/
theorem rowOrder_iff (hlevels : declaredLevels lib eng = .ok levels) (hne : levels ≠ [])
    (hentry : resolveRegister lib eng = .ok entry)
    (hread : eng.read entry.register entry.range = .ok sheet) :
    (∀ sheet' : Sheet, sheet'.rows.Perm sheet.rows → sheet'.truncated = sheet.truncated →
      ∀ station limit, report lib (eng.withSheet sheet') station limit = report lib eng station limit) ↔
      ∀ name ≠ "", Settled lib entry sheet.rows name := by
  have hreport : ∀ (sheet' : Sheet) station limit, report lib (eng.withSheet sheet') station limit =
      (bounded limit "limit" 1 maxStations).map fun n =>
        reportOf lib levels entry (strip (String.ofList (station.toList.take 255))) n sheet' :=
    fun sheet' station limit =>
      @report_eq lib (eng.withSheet sheet') entry levels sheet' station limit hlevels hne hentry rfl
  constructor
  · intro h name hname
    by_cases hrow : ∃ row ∈ sheet.rows, stationOf lib entry row = name
    swap
    -- no row is of this station
    · have hnil : ∀ column, cells lib entry name column sheet.rows = [] := by
        intro column
        rw [cells, List.filterMap_eq_nil_iff]
        intro row hmem
        rw [if_neg fun heq => hrow ⟨row, hmem, heq⟩]
      refine ⟨?_, ?_, fun column _ => ?_⟩
      · simp [hnil]
      · simp [hnil]
      · rw [hnil]
        exact anyOrder_nil
    obtain ⟨row, hrow, hstation⟩ := hrow
    -- the report of this station alone
    have hrecord : ∀ rows' : List (List (String × Cell)), rows'.Perm sheet.rows →
        record lib levels entry (name, collected entry.plannedRunSeconds
            (readingsOf name (stationRows lib entry name rows'))) =
          record lib levels entry (name, collected entry.plannedRunSeconds
            (readingsOf name (stationRows lib entry name sheet.rows))) := by
      intro rows' hperm
      let sheet' : Sheet := ⟨rows', sheet.truncated, hperm.length_eq ▸ sheet.bound⟩
      have hcanonical : strip (String.ofList (name.toList.take 255)) = name := by
        rw [← hstation]
        exact stationOf_canonical row
      have heq := h sheet' hperm rfl name 1
      rw [hreport, report_eq hlevels hne hentry hread, hcanonical] at heq
      have hstations : (reportOf lib levels entry name 1 sheet').stations =
          (reportOf lib levels entry name 1 sheet).stations :=
        congrArg Report.stations (Except.ok.inj heq)
      have hrow' : row ∈ sheet'.rows := hperm.symm.subset hrow
      rw [stations_of_one hrow' hstation hname, stations_of_one hrow hstation hname] at hstations
      exact (List.cons.inj hstations).1
    have hcells : ∀ column rows', numbers column (readingsOf name (stationRows lib entry name rows')) =
        cells lib entry name column rows' := by
      intro column rows'
      rw [cells_of_one, if_neg hname]
    have hreadings : ∀ rows' : List (List (String × Cell)), rows'.Perm sheet.rows →
        (readingsOf name (stationRows lib entry name rows')).Perm
          (readingsOf name (stationRows lib entry name sheet.rows)) :=
      fun rows' hperm => (((hperm.map _).filter _).filter _).map _
    refine ⟨?_, ?_, ?_⟩
    · rw [← AnyOrder.getLast?_anyOrder_iff]
      intro ys hys
      obtain ⟨rows', hperm, rfl⟩ := AnyOrder.exists_perm_filterMap hys
      have hplanned := getLast?_of_planned (hreadings rows' hperm)
        (congrArg (fun r => r.inputs.planned) (hrecord rows' hperm))
      rw [hcells, hcells] at hplanned
      exact hplanned
    · rw [← AnyOrder.getLast?_anyOrder_iff]
      intro ys hys
      obtain ⟨rows', hperm, rfl⟩ := AnyOrder.exists_perm_filterMap hys
      have hideal : (numbers Readings.ideal (readingsOf name (stationRows lib entry name rows'))).getLast? =
          (numbers Readings.ideal (readingsOf name (stationRows lib entry name sheet.rows))).getLast? :=
        congrArg (fun r => r.inputs.ideal) (hrecord rows' hperm)
      rw [hcells, hcells] at hideal
      exact hideal
    · intro column hcolumn
      rw [cells, AnyOrder.anyOrder_filterMap_iff]
      intro rows' hperm
      change (cells lib entry name column rows').foldl Binary64.add .zero =
        (cells lib entry name column sheet.rows).foldl Binary64.add .zero
      have hnumbers : (cells lib entry name column rows').Perm (cells lib entry name column sheet.rows) :=
        hperm.filterMap _
      simp only [List.mem_cons, List.not_mem_nil, or_false] at hcolumn
      rw [← hcells, ← hcells] at hnumbers ⊢
      rcases hcolumn with rfl | rfl | rfl | rfl
      · exact sum_eq_of_value?_eq hnumbers (congrArg (fun r => r.inputs.run) (hrecord rows' hperm))
      · exact sum_eq_of_value?_eq hnumbers (congrArg (fun r => r.inputs.produced) (hrecord rows' hperm))
      · exact sum_eq_of_value?_eq hnumbers (congrArg (fun r => r.inputs.good) (hrecord rows' hperm))
      · by_cases hcolumn : entry.unplannedColumn = ""
        · rw [hcells, hcells, cells_undeclared hcolumn, cells_undeclared hcolumn]
        · have hunplanned := congrArg Record.unplanned (hrecord rows' hperm)
          simp only [record, if_neg hcolumn, Option.some.injEq] at hunplanned
          exact hunplanned
  · intro h sheet' hperm htruncated station limit
    rw [hreport, report_eq hlevels hne hentry hread]
    exact congrArg (fun f => (bounded limit "limit" 1 maxStations).map f)
      (funext fun n => reportOf_perm hperm htruncated h)

/-! ### Two shifts of one press -/

/-- A row of the shift register: the plan, the run time and the counts. -/
def shiftRow (plan run produced good : ℤ) : List (String × Cell) :=
  [("station", .str "press"), ("plan", .int plan), ("run", .int run), ("ideal", .int 10),
    ("produced", .int produced), ("good", .int good)]

/-- A register with those columns, and a threshold of 85 for the availability. -/
def shiftConfig : Json :=
  .obj [("registers", .obj [("line", .obj [("register", .str "plant"), ("range", .str "oee"),
      ("station_column", .str "station"), ("planned_run_column", .str "plan"),
      ("ideal_cycle_column", .str "ideal"), ("run_column", .str "run"),
      ("produced_column", .str "produced"), ("good_column", .str "good")])]),
    ("thresholds", .obj [("availability", .obj [("below", .int 85)])])]

def shiftEngine (sheet : Sheet) : Engine :=
  ⟨shiftConfig, .obj [("levels", .arr [.str "station"])], fun _ _ => .ok sheet, "manager", "L1"⟩

def shiftLibrary : Library := ⟨plainLibrary, fun _ => .nan⟩

theorem rowOrder_iff_sample :
    ∃ (entry : Entry) (sheet : Sheet), sheet.rows = [shiftRow 28800 25200 2400 2304] ∧
      ((∀ sheet' : Sheet, sheet'.rows.Perm sheet.rows → sheet'.truncated = sheet.truncated →
          ∀ station limit, report shiftLibrary ((shiftEngine sheet).withSheet sheet') station limit =
            report shiftLibrary (shiftEngine sheet) station limit) ↔
        ∀ name ≠ "", Settled shiftLibrary entry sheet.rows name) := by
  have hrun : (resolveRegister shiftLibrary (shiftEngine
      ⟨[shiftRow 28800 25200 2400 2304], false, by decide⟩)).toOption.isSome = true := by
    decide +kernel
  cases hentry : resolveRegister shiftLibrary (shiftEngine
      ⟨[shiftRow 28800 25200 2400 2304], false, by decide⟩) with
  | error e =>
    rw [hentry] at hrun
    cases hrun
  | ok entry =>
    refine ⟨entry, ⟨[shiftRow 28800 25200 2400 2304], false, by decide⟩, rfl, ?_⟩
    exact rowOrder_iff rfl (List.cons_ne_nil "station" []) hentry rfl

/-- Two shifts of one press with plans of eight and of four hours: its availability is that of the last row's
plan. -/
theorem availability_depends_on_order :
    ¬∀ (lib : Library) (eng : Engine) (sheet sheet' : Sheet) (station : String) (limit : ℤ) (a a' : Report),
      sheet'.rows.Perm sheet.rows → sheet'.truncated = sheet.truncated →
      report lib (eng.withSheet sheet) station limit = .ok a →
      report lib (eng.withSheet sheet') station limit = .ok a' →
        a'.stations.map Record.availability = a.stations.map Record.availability := by
  intro h
  let day : List (String × Cell) := shiftRow 28800 25200 2400 2304
  let evening : List (String × Cell) := shiftRow 14400 10800 1000 990
  have hrun : (do
      let a ← report shiftLibrary (shiftEngine ⟨[day, evening], false, by decide⟩) "" 50
      let a' ← report shiftLibrary (shiftEngine ⟨[evening, day], false, by decide⟩) "" 50
      pure (a.stations.map Record.availability, a'.stations.map Record.availability)) =
      Except.ok ([some (.ofRat (5 / 2))], [some (.ofRat (5 / 4))]) := by
    decide +kernel
  obtain ⟨a, ha, hrun⟩ := bind_eq_ok.1 hrun
  obtain ⟨a', ha', hrun⟩ := bind_eq_ok.1 hrun
  have hfacts := pure_eq_ok.1 hrun
  rw [Prod.mk.injEq] at hfacts
  have hsame := h shiftLibrary (shiftEngine ⟨[day, evening], false, by decide⟩) ⟨[day, evening], false, by decide⟩
    ⟨[evening, day], false, by decide⟩ "" 50 a a' (.swap day evening []) rfl ha ha'
  rw [hfacts.1, hfacts.2] at hsame
  revert hsame
  decide +kernel

/-! ### Counts -/

end AgentPlatform.Oee
