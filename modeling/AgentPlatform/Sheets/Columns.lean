import Mathlib.Data.List.Dedup
import Mathlib.Data.List.Perm.Subperm
import AgentPlatform.Graph.Collect

/-!
# The columns of a sheet

`shape_rows` of `sheets.py` names the columns of a sheet after its first row. A column without a label is named
by its place, and a label that comes again gets the number of times it came; cells beyond the labels are named
by their places too. A made-up name can be a label of the sheet: then two columns share it, and of the cells in a
row the last one stays (`columns_apart_iff`).
-/

namespace AgentPlatform.Sheets

open Graph

/-- An object of `rows`. -/
abbrev Entry := List (String × Cell)

/-- What `shape_rows` returns: the cells, or the names of the columns with an object for each row. -/
inductive Shaped
  | plain (rows : List (List Cell))
  | keyed (header : List String) (rows : List Entry)

variable (lib : Texts)

/-- `f'column_{place}'`. -/
def columnName (place : ℕ) : String := "column_" ++ toString place

/-- `f'{label}_{count}'`. -/
def numbered (label : String) (count : ℕ) : String := label ++ "_" ++ toString count

/-- The label of a column, from the cell at the top of it. -/
def labelOf (index : ℕ) (name : Cell) : String :=
  let label := strip (name.text lib)
  if label = "" then columnName (index + 1) else label

def labelsOf (header : List Cell) : List String := header.mapIdx (labelOf lib)

/-- One label, after the names so far and how often each label came. -/
def nameStep (state : List String × List (String × ℕ)) (label : String) : List String × List (String × ℕ) :=
  let count := (state.2.lookup label).getD 0 + 1
  (state.1 ++ [if count = 1 then label else numbered label count], Dict.modify label (fun _ => count) state.2)

/-- The names of the columns. -/
def namesOf (labels : List String) : List String := (labels.foldl nameStep ([], [])).1

/-- `entry[name] = cell`. -/
def put (entry : Entry) (m : String × Cell) : Entry := Dict.modify m.1 (fun _ => m.2) entry

/-- The cells of a row with their names, in the order in which they are written. -/
def writes (header : List String) (row : List Cell) : List (String × Cell) :=
  header.mapIdx (fun index name => (name, row.getD index (.str ""))) ++
    (row.drop header.length).mapIdx fun index value => (columnName (header.length + index + 1), value)

/-- The object of a row. -/
def entryOf (header : List String) (row : List Cell) : Entry := (writes header row).foldl put []

/-- The rows that are lists, each cell cut to its length. -/
def matrixOf (values : List (Option (List Cell))) (most : ℕ) : List (List Cell) :=
  (values.take most).filterMap fun row => row.map fun cells => cells.map boundCell

/-- `shape_rows`. -/
def shapeRows (values : List (Option (List Cell))) (headerRow : Bool) (limit : ℕ) : Shaped :=
  let matrix := matrixOf values (limit + if headerRow then 1 else 0)
  if headerRow then
    match matrix with
    | [] => .keyed [] []
    | first :: rows =>
      let header := namesOf (labelsOf lib first)
      .keyed header ((rows.take limit).map (entryOf header))
  else .plain (matrix.take limit)

/-! ### Names -/

variable {lib} {label label' x : String} {m n : ℕ} {labels header : List String} {row : List Cell}

theorem digits_of_toString {c : Char} (h : c ∈ (toString n).toList) : c.isDigit = true := by
  rw [Nat.toString_eq_repr, Nat.toList_repr] at h
  exact Nat.isDigit_of_mem_toDigits (by decide) (by decide) h

/-- A label and a number are read back from the name made of them: the number is what follows the last
underscore. -/
theorem numbered_inj (h : numbered label m = numbered label' n) : label = label' ∧ m = n := by
  have hfree : ∀ k : ℕ, ∀ c ∈ (toString k).toList.reverse, (c != '_') = true := by
    intro k c hc
    have hdigit := digits_of_toString (List.mem_reverse.1 hc)
    rw [bne_iff_ne]
    rintro rfl
    exact absurd hdigit (by decide)
  have hread : ∀ (l : String) (k : ℕ),
      (numbered l k).toList.reverse.takeWhile (· != '_') = (toString k).toList.reverse := by
    intro l k
    rw [numbered, String.toList_append, String.toList_append, List.reverse_append, List.reverse_append,
      List.takeWhile_append_of_pos (hfree k)]
    simp
  have hnumber := (hread label m).symm.trans ((congrArg _ (congrArg List.reverse (congrArg String.toList h))).trans
    (hread label' n))
  rw [List.reverse_inj, String.toList_inj, Nat.toString_eq_repr, Nat.toString_eq_repr] at hnumber
  have hvalue := congrArg (fun text => Nat.ofDigitChars 10 text.toList 0) hnumber
  simp only [Nat.toList_repr, Nat.ofDigitChars_ten_toDigits] at hvalue
  obtain rfl := hvalue
  refine ⟨?_, rfl⟩
  apply String.toList_injective
  have hlist := congrArg String.toList h
  rw [numbered, numbered, String.toList_append, String.toList_append] at hlist
  simpa using hlist

theorem columnName_eq (n : ℕ) : columnName n = numbered "column" n := rfl

/-- The name of a label that comes after these. -/
def nameAfter (labels : List String) (label : String) : String :=
  if label ∈ labels then numbered label (labels.count label + 1) else label

/-- Each name is made of its label and how often the label came before. -/
theorem namesOf_snoc : namesOf (labels ++ [label]) = namesOf labels ++ [nameAfter labels label] := by
  have hseen : ∀ labels label, (((labels.foldl nameStep ([], [])).2).lookup label).getD 0 =
      List.count label labels := by
    intro labels
    induction labels using List.reverseRecOn with
    | nil => exact fun _ => rfl
    | append_singleton labels last ih =>
      intro label
      rw [List.foldl_append, List.foldl_cons, List.foldl_nil, nameStep, List.count_append]
      by_cases h : label = last
      · rw [h, Dict.lookup_modify_self, Option.getD_some, ih, List.count_singleton_self]
      · rw [Dict.lookup_modify_of_ne h, ih, List.count_singleton, if_neg (by simpa using Ne.symm h), Nat.add_zero]
  rw [namesOf, List.foldl_append, List.foldl_cons, List.foldl_nil, nameStep]
  dsimp only
  rw [hseen, nameAfter, namesOf]
  by_cases h : label ∈ labels
  · have hpos := List.count_pos_iff.2 h
    rw [if_pos h, if_neg (by omega)]
  · rw [if_neg h, List.count_eq_zero.2 h, if_pos rfl]

@[simp] theorem length_namesOf : (namesOf labels).length = labels.length := by
  induction labels using List.reverseRecOn with
  | nil => rfl
  | append_singleton labels last ih => simp [namesOf_snoc, ih]

/-- The names are the labels, and a numbered one for each time a label comes again. -/
theorem mem_namesOf : x ∈ namesOf labels ↔
    x ∈ labels ∨ ∃ label k, 2 ≤ k ∧ k ≤ labels.count label ∧ x = numbered label k := by
  induction labels using List.reverseRecOn with
  | nil => simp [namesOf]
  | append_singleton labels last ih =>
    have hcount : ∀ label, List.count label (labels ++ [last]) =
        labels.count label + if last = label then 1 else 0 := by
      intro label
      rw [List.count_append, List.count_singleton]
      simp only [beq_iff_eq]
    simp only [namesOf_snoc, List.mem_append, ih, List.mem_singleton, hcount, nameAfter]
    by_cases h : last ∈ labels
    · have hpos := List.count_pos_iff.2 h
      rw [if_pos h]
      constructor
      · rintro ((hx | ⟨label, k, hlow, hhigh, rfl⟩) | rfl)
        · exact .inl (.inl hx)
        · exact .inr ⟨label, k, hlow, by omega, rfl⟩
        · exact .inr ⟨last, _, by omega, by rw [if_pos rfl], rfl⟩
      · rintro ((hx | rfl) | ⟨label, k, hlow, hhigh, rfl⟩)
        · exact .inl (.inl hx)
        · exact .inl (.inl h)
        · by_cases hk : k ≤ labels.count label
          · exact .inl (.inr ⟨label, k, hlow, hk, rfl⟩)
          · by_cases hlabel : last = label
            · rw [if_pos hlabel] at hhigh
              have heq : k = labels.count last + 1 := by
                rw [hlabel]
                omega
              exact .inr (by rw [heq, hlabel])
            · rw [if_neg hlabel] at hhigh
              omega
    · have hzero := List.count_eq_zero.2 h
      rw [if_neg h]
      constructor
      · rintro ((hx | ⟨label, k, hlow, hhigh, rfl⟩) | rfl)
        · exact .inl (.inl hx)
        · exact .inr ⟨label, k, hlow, by omega, rfl⟩
        · exact .inl (.inr rfl)
      · rintro ((hx | rfl) | ⟨label, k, hlow, hhigh, rfl⟩)
        · exact .inl (.inl hx)
        · exact .inr rfl
        · refine .inl (.inr ⟨label, k, hlow, ?_, rfl⟩)
          by_cases hlabel : last = label
          · rw [if_pos hlabel, ← hlabel, hzero] at hhigh
            omega
          · rw [if_neg hlabel] at hhigh
            omega

/-- No label is spelled like the numbered name of one that comes so often. -/
def Clear (labels : List String) : Prop :=
  ∀ label ∈ labels, ∀ k, 2 ≤ k → k ≤ labels.count label → numbered label k ∉ labels

/-- A new name is none of the names before it. -/
theorem nameAfter_not_mem_iff : nameAfter labels label ∉ namesOf labels ↔
    if label ∈ labels then numbered label (labels.count label + 1) ∉ labels
    else ∀ l ∈ labels, ∀ k, 2 ≤ k → k ≤ labels.count l → label ≠ numbered l k := by
  rw [mem_namesOf, not_or, nameAfter]
  by_cases h : label ∈ labels
  · rw [if_pos h, if_pos h, and_iff_left_iff_imp]
    rintro - ⟨l, k, hlow, hhigh, heq⟩
    obtain ⟨rfl, rfl⟩ := numbered_inj heq
    omega
  · rw [if_neg h, if_neg h, and_iff_right h]
    constructor
    · exact fun hnot l _ k hlow hhigh heq => hnot ⟨l, k, hlow, hhigh, heq⟩
    · rintro hall ⟨l, k, hlow, hhigh, heq⟩
      exact hall l (List.count_pos_iff.1 (by omega)) k hlow hhigh heq

theorem clear_snoc : Clear (labels ++ [label]) ↔ Clear labels ∧ nameAfter labels label ∉ namesOf labels := by
  have hcount : ∀ l, List.count l (labels ++ [label]) = labels.count l + if label = l then 1 else 0 := by
    intro l
    rw [List.count_append, List.count_singleton]
    simp only [beq_iff_eq]
  rw [nameAfter_not_mem_iff]
  by_cases h : label ∈ labels
  · have hmem : ∀ x, x ∈ labels ++ [label] ↔ x ∈ labels := fun x => by
      rw [List.mem_append, List.mem_singleton, or_iff_left_iff_imp]
      rintro rfl
      exact h
    simp only [Clear, hmem, hcount]
    rw [if_pos h]
    constructor
    · refine fun hall => ⟨fun l hl k hlow hhigh => hall l hl k hlow (by omega), ?_⟩
      have hpos := List.count_pos_iff.2 h
      exact hall label h _ (by omega) (by rw [if_pos rfl])
    · rintro ⟨hall, hlast⟩ l hl k hlow hhigh
      by_cases hk : k ≤ labels.count l
      · exact hall l hl k hlow hk
      · by_cases hlabel : label = l
        · rw [if_pos hlabel] at hhigh
          have heq : k = labels.count label + 1 := by
            rw [hlabel]
            omega
          rwa [heq, ← hlabel]
        · rw [if_neg hlabel] at hhigh
          omega
  · have hzero := List.count_eq_zero.2 h
    rw [if_neg h]
    constructor
    · intro hall
      refine ⟨fun l hl k hlow hhigh hmem => ?_, fun l hl k hlow hhigh heq => ?_⟩
      · exact hall l (List.mem_append_left _ hl) k hlow (by rw [hcount]; omega) (List.mem_append_left _ hmem)
      · exact hall l (List.mem_append_left _ hl) k hlow (by rw [hcount]; omega)
          (List.mem_append_right _ (List.mem_singleton.2 heq.symm))
    · rintro ⟨hall, hnew⟩ l hl k hlow hhigh hmem
      rw [hcount] at hhigh
      rcases List.mem_append.1 hl with hl | hl
      · have hne : label ≠ l := fun heq => h (heq ▸ hl)
        rw [if_neg hne] at hhigh
        rcases List.mem_append.1 hmem with hmem | hmem
        · exact hall l hl k hlow (by omega) hmem
        · exact hnew l hl k hlow (by omega) (List.mem_singleton.1 hmem).symm
      · -- the new label came once
        rw [List.mem_singleton] at hl
        rw [hl, hzero, if_pos rfl] at hhigh
        omega

theorem nodup_namesOf : (namesOf labels).Nodup ↔ Clear labels := by
  induction labels using List.reverseRecOn with
  | nil => simp [namesOf, Clear]
  | append_singleton labels last ih =>
    rw [clear_snoc, ← ih, namesOf_snoc, List.nodup_append]
    simp only [List.nodup_cons, List.not_mem_nil, not_false_eq_true, List.nodup_nil, and_self, true_and,
      List.mem_singleton, forall_eq]
    exact and_congr_right fun _ => ⟨fun h hmem => h _ hmem rfl, fun h a ha heq => h (heq ▸ ha)⟩

/-! ### Objects -/

/-- Every cell of the row is in the object, each under a key of its own. -/
def Kept (row : List Cell) (entry : Entry) : Prop :=
  ∃ key : ℕ → String, (∀ i < row.length, ∀ j < row.length, key i = key j → i = j) ∧
    ∀ i (h : i < row.length), entry.lookup (key i) = some row[i]

theorem length_writes : (writes header row).length = max header.length row.length := by
  rw [writes, List.length_append, List.length_mapIdx, List.length_mapIdx, List.length_drop]
  omega

/-- The columns beyond the labels that a row has. -/
def overflow (header : List String) (row : List Cell) : List String :=
  (List.range (row.length - header.length)).map fun index => columnName (header.length + index + 1)

theorem keys_writes : (writes header row).map Prod.fst = header ++ overflow header row := by
  rw [writes, List.map_append]
  congr 1
  · refine List.ext_getElem (by simp) fun i h h' => ?_
    simp
  · refine List.ext_getElem (by simp [overflow]) fun i h h' => ?_
    simp [overflow]

theorem mem_overflow : x ∈ overflow header row ↔
    ∃ j, header.length < j ∧ j ≤ row.length ∧ x = columnName j := by
  rw [overflow, List.mem_map]
  constructor
  · rintro ⟨index, hindex, rfl⟩
    rw [List.mem_range] at hindex
    exact ⟨header.length + index + 1, by omega, by omega, rfl⟩
  · rintro ⟨j, hlow, hhigh, rfl⟩
    refine ⟨j - header.length - 1, List.mem_range.2 (by omega), congrArg columnName ?_⟩
    omega

theorem nodup_overflow : (overflow header row).Nodup := by
  refine List.Nodup.map ?_ List.nodup_range
  intro i j heq
  have hsame : header.length + i + 1 = header.length + j + 1 := (@numbered_inj "column" "column" _ _ heq).2
  omega

theorem writes_get {i : ℕ} (h : i < row.length) : (writes header row)[i]?.map Prod.snd = some row[i] := by
  unfold writes
  by_cases hi : i < header.length
  · rw [List.getElem?_append_left (by simpa using hi)]
    simp [hi, h]
  · rw [List.getElem?_append_right (by simpa using hi)]
    have hplace : header.length + (i - header.length) = i := by omega
    simp [hplace, h]

theorem keys_put {ms : List (String × Cell)} {entry : Entry} {k : String} :
    k ∈ (ms.foldl put entry).map Prod.fst ↔ k ∈ entry.map Prod.fst ∨ ∃ m ∈ ms, m.1 = k :=
  Dict.mem_keys_foldl_modify

theorem lookup_put {ms : List (String × Cell)} (h : (ms.map Prod.fst).Nodup) {m : String × Cell} (hm : m ∈ ms)
    (entry : Entry) : (ms.foldl put entry).lookup m.1 = some m.2 := by
  induction ms using List.reverseRecOn with
  | nil => cases hm
  | append_singleton ms last ih =>
    rw [List.map_append, List.map_singleton, List.nodup_append] at h
    rw [List.foldl_append, List.foldl_cons, List.foldl_nil, put]
    rcases List.mem_append.1 hm with hm | hm
    · have hne : m.1 ≠ last.1 := h.2.2 _ (List.mem_map_of_mem hm) _ (List.mem_singleton.2 rfl)
      rw [Dict.lookup_modify_of_ne hne]
      exact ih h.1 hm
    · rw [List.mem_singleton] at hm
      rw [hm, Dict.lookup_modify_self]

/-- Every cell of a row is kept where the names of its columns differ. -/
theorem kept_of_nodup (h : (header ++ overflow header row).Nodup) : Kept row (entryOf header row) := by
  have hnodup : ((writes header row).map Prod.fst).Nodup := keys_writes ▸ h
  -- the write of a cell
  have hwrite : ∀ i (hi : i < row.length), ∃ m, (writes header row)[i]? = some m ∧ m.2 = row[i] := fun i hi => by
    obtain ⟨m, hm, heq⟩ := Option.map_eq_some_iff.1 (@writes_get header row i hi)
    exact ⟨m, hm, heq⟩
  refine ⟨fun i => (((writes header row).map Prod.fst)[i]?).getD "", fun i hi j hj heq => ?_, fun i hi => ?_⟩
  · obtain ⟨m, hm, -⟩ := hwrite i hi
    obtain ⟨m', hm', -⟩ := hwrite j hj
    dsimp only at heq
    rw [List.getElem?_map, List.getElem?_map, hm, hm', Option.map_some, Option.map_some, Option.getD_some,
      Option.getD_some] at heq
    refine (List.getElem?_inj ?_ hnodup).1 ?_
    · rw [List.length_map, length_writes]
      omega
    · rw [List.getElem?_map, List.getElem?_map, hm, hm', Option.map_some, Option.map_some, heq]
  · obtain ⟨m, hm, heq⟩ := hwrite i hi
    dsimp only
    rw [List.getElem?_map, hm, Option.map_some, Option.getD_some, ← heq]
    exact lookup_put hnodup (List.mem_of_getElem? hm) []

/-- A row that is kept has as many columns of different names. -/
theorem nodup_of_kept (hkept : Kept row (entryOf header row)) (hnodup : header.Nodup) :
    (header ++ overflow header row).Nodup := by
  by_cases hmore : header.length < row.length
  · obtain ⟨key, hinj, hread⟩ := hkept
    have hkeys : ((List.range row.length).map key).Nodup := by
      refine List.Nodup.map_on (fun i hi j hj heq => ?_) List.nodup_range
      exact hinj i (List.mem_range.1 hi) j (List.mem_range.1 hj) heq
    have hsubset : (List.range row.length).map key ⊆ header ++ overflow header row := by
      intro k hk
      obtain ⟨i, hi, rfl⟩ := List.mem_map.1 hk
      have hlookup := hread i (List.mem_range.1 hi)
      have hentry : (entryOf header row).map Prod.fst ⊆ header ++ overflow header row := by
        intro k hk
        rcases keys_put.1 hk with hk | ⟨m, hm, rfl⟩
        · cases hk
        · rw [← keys_writes]
          exact List.mem_map_of_mem hm
      refine hentry ?_
      by_contra hnot
      have hnone : (entryOf header row).lookup (key i) = none := by
        refine List.lookup_eq_none_iff.2 fun m hm => ?_
        rw [bne_iff_ne]
        rintro heq
        exact hnot (List.mem_map.2 ⟨m, hm, heq.symm⟩)
      rw [hnone] at hlookup
      cases hlookup
    have hlength : (header ++ overflow header row).length ≤ ((List.range row.length).map key).length := by
      rw [← keys_writes, List.length_map, length_writes, List.length_map, List.length_range]
      omega
    exact ((List.subperm_of_subset hkeys hsubset).perm_of_length_le hlength).nodup_iff.1 hkeys
  · have hnone : overflow header row = [] := by
      rw [overflow, Nat.sub_eq_zero_of_le (by omega)]
      rfl
    rwa [hnone, List.append_nil]

/-- The columns of a row differ where the labels are clear, and none of them is the place of a column beyond
them that the row has. -/
theorem nodup_columns : (namesOf labels ++ overflow (namesOf labels) row).Nodup ↔
    Clear labels ∧ ∀ j, labels.length < j → j ≤ row.length → columnName j ∉ labels := by
  rw [List.nodup_append, nodup_namesOf, and_iff_right nodup_overflow]
  refine and_congr_right fun _ => ⟨fun h j hlow hhigh hmem => ?_, fun h x hx y hy heq => ?_⟩
  · refine h _ (mem_namesOf.2 (.inl hmem)) _ (mem_overflow.2 ⟨j, ?_, hhigh, rfl⟩) rfl
    rwa [length_namesOf]
  · obtain ⟨j, hlow, hhigh, rfl⟩ := mem_overflow.1 hy
    rw [length_namesOf] at hlow
    rcases mem_namesOf.1 hx with hx | ⟨label, k, -, hcount, hname⟩
    · exact h j hlow hhigh (heq ▸ hx)
    · -- no label comes as often as the place of a column beyond the labels
      obtain ⟨-, rfl⟩ := numbered_inj ((columnName_eq j).symm.trans (heq.symm.trans hname))
      have := List.count_le_length (a := label) (l := labels)
      omega

/-! ### The sheet -/

variable {values : List (Option (List Cell))} {limit : ℕ} {rows : List Entry}

/-- The labels of a sheet. -/
def sheetLabels (lib : Texts) (values : List (Option (List Cell))) (limit : ℕ) : List String :=
  labelsOf lib ((matrixOf values (limit + 1)).headD [])

/-- The rows below the labels that are returned. -/
def dataRows (values : List (Option (List Cell))) (limit : ℕ) : List (List Cell) :=
  (matrixOf values (limit + 1)).tail.take limit

/-- The names differ, and every returned row is kept. -/
structure Apart (header : List String) (data : List (List Cell)) (rows : List Entry) : Prop where
  names : header.Nodup
  kept : List.Forall₂ Kept data rows

theorem shapeRows_keyed (h : shapeRows lib values true limit = .keyed header rows) :
    header = namesOf (sheetLabels lib values limit) ∧ rows = (dataRows values limit).map (entryOf header) := by
  unfold shapeRows at h
  unfold sheetLabels dataRows
  dsimp only at h
  rw [if_pos rfl, if_pos rfl] at h
  cases hmatrix : matrixOf values (limit + 1) with
  | nil =>
    rw [hmatrix] at h
    cases h
    refine ⟨rfl, ?_⟩
    rw [List.tail_nil, List.take_nil, List.map_nil]
  | cons first later =>
    rw [hmatrix] at h
    cases h
    exact ⟨rfl, rfl⟩

/-- **The columns of a sheet do not collide where no label is spelled like a numbered one, and no returned row
reaches a column whose place is spelled like a label.** -/
theorem columns_apart_iff (h : shapeRows lib values true limit = .keyed header rows) :
    Apart header (dataRows values limit) rows ↔ Clear (sheetLabels lib values limit) ∧
      ∀ row ∈ dataRows values limit, ∀ j, (sheetLabels lib values limit).length < j → j ≤ row.length →
        columnName j ∉ sheetLabels lib values limit := by
  obtain ⟨rfl, rfl⟩ := shapeRows_keyed h
  constructor
  · rintro ⟨hnames, hkept⟩
    rw [List.forall₂_map_right_iff, List.forall₂_same] at hkept
    exact ⟨nodup_namesOf.1 hnames, fun row hrow => (nodup_columns.1 (nodup_of_kept (hkept row hrow) hnames)).2⟩
  · rintro ⟨hclear, hplaces⟩
    refine ⟨nodup_namesOf.2 hclear, ?_⟩
    rw [List.forall₂_map_right_iff, List.forall₂_same]
    exact fun row hrow => kept_of_nodup (nodup_columns.2 ⟨hclear, hplaces row hrow⟩)

def plainTexts : Texts := ⟨fun _ => "", fun c => [c]⟩

/-- Two columns with a label, and a cell beyond them. -/
def wideSheet : List (Option (List Cell)) := [some [.str "a", .str "b"], some [.int 1, .int 2, .int 3]]

theorem columns_apart_iff_sample :
    ∃ header rows, Apart header (dataRows wideSheet 1) rows ↔ Clear (sheetLabels plainTexts wideSheet 1) ∧
      ∀ row ∈ dataRows wideSheet 1, ∀ j, (sheetLabels plainTexts wideSheet 1).length < j → j ≤ row.length →
        columnName j ∉ sheetLabels plainTexts wideSheet 1 :=
  ⟨_, _, columns_apart_iff rfl⟩

/-- The second of two columns named `a` takes the name of the third. -/
theorem numbered_collides : ¬∀ (lib : Texts) (values : List (Option (List Cell))) (limit : ℕ)
    (header : List String) (rows : List Entry), shapeRows lib values true limit = .keyed header rows →
    Apart header (dataRows values limit) rows := by
  intro h
  have happart := h plainTexts [some [.str "a", .str "a", .str "a_2"], some [.int 1, .int 2, .int 3]] 1 _ _ rfl
  exact absurd happart.names (by decide +kernel)

end AgentPlatform.Sheets
