import AgentPlatform.Manufacturing.Yield

/-!
# When a yield is honest

A station of the yield report is computable where a defect count of it was read and no cell was unreadable. That
passes over a blank defect cell beside a count that was read, and takes a negative count as it is. Of a
computable station the defects are those of its rows, and the good count and the ratio are within their bounds,
exactly when no row of it has such a cell and the outputs do not overflow (`honest_iff`).
-/

namespace AgentPlatform.Manufacturing

open Outcome AgentPlatform.Graph
open Oee (Sheet Reading round4)
open Binary64 (zero)

/-- The rows of a station. -/
def ofStation (cs : List Contribution) (name : String) : List Contribution := cs.filter fun c => c.station = name

/-- The defects of a station are those of its rows, and its figures are within their bounds. -/
structure Honest (cs : List Contribution) (r : StationYield) : Prop where
  rows : ∀ c ∈ ofStation cs r.station, ∃ x, c.defect = .value x ∧ zero.le x = true
  good : ∃ d g, r.defect = some d ∧ r.good = some g ∧ g = r.output.sub d ∧ zero.le g = true ∧
    g.le r.output = true
  ratio : ∃ y, r.ratio = some y ∧ zero.le y = true ∧ y.le (.ofRat 1) = true

/-- No row of a station has a blank defect cell or a negative count, and its outputs do not overflow. -/
structure Sound (cs : List Contribution) (name : String) : Prop where
  recorded : ∀ c ∈ ofStation cs name, c.defect ≠ .blank
  nonnegative : ∀ c ∈ ofStation cs name, ∀ x, c.defect = .value x → zero.le x = true
  bounded : ∃ q h, ((ofStation cs name).map Contribution.output).foldl Binary64.add zero = .finite q h

/-! ### What is collected of a station -/

variable {lib : Oee.Library} {eng : Engine} {entry : Entry} {cs : List Contribution} {b : Bucket}

theorem output_foldl : (cs.foldl Bucket.take b).output = (cs.map Contribution.output).foldl Binary64.add b.output := by
  induction cs generalizing b with
  | nil => rfl
  | cons c cs ih => exact ih

theorem unreadable_foldl : (cs.foldl Bucket.take b).unreadable =
    (b.unreadable || cs.any fun c => decide (c.defect = .unreadable)) := by
  induction cs generalizing b with
  | nil => simp
  | cons c cs ih =>
    rw [List.foldl_cons, ih, List.any_cons, ← Bool.or_assoc]
    rfl

theorem zero_le_defect (hb : zero.le b.defect.sum = true)
    (h : ∀ c ∈ cs, ∀ x, c.defect = .value x → zero.le x = true) :
    zero.le (cs.foldl Bucket.take b).defect.sum = true := by
  induction cs generalizing b with
  | nil => exact hb
  | cons c cs ih =>
    rw [List.forall_mem_cons] at h
    refine ih ?_ h.2
    cases hc : c.defect with
    | value x =>
      simp only [Bucket.take, Oee.Total.take, hc]
      exact Binary64.zero_le_add hb (h.1 x hc)
    | unreadable => simpa [Bucket.take, Oee.Total.take, hc] using hb
    | blank => simpa [Bucket.take, Oee.Total.take, hc] using hb

theorem mem_byStation {m : String × Bucket} (h : m ∈ byStation cs) :
    m.2 = (ofStation cs m.1).foldl Bucket.take .empty :=
  (Dict.mem_foldl_getD.1 h).2

/-! ### The figures of a station -/

variable {output defect : Binary64}

/-- Rounding to four places keeps a double between zero and one there. -/
theorem round4_bounds {x : Binary64} (hx : zero.le x = true) (hle : x.le (.ofRat 1) = true) :
    zero.le (round4 x) = true ∧ (round4 x).le (.ofRat 1) = true := by
  have hone : Binary64.ofRat 1 = .finite 1 (Binary64.fits_natCast (n := 1) (by norm_num)) :=
    Binary64.ofRat_of_fits _
  rw [hone] at hle
  obtain ⟨p, hp, rfl, hpos, hp1⟩ := Binary64.finite_of_le hx hle
  have hlow : (0 : ℤ) ≤ roundEven (p * 10 ^ 4) := le_roundEven (by positivity)
  have hhigh : roundEven (p * 10 ^ 4) ≤ 10 ^ 4 := roundEven_le (by push_cast; linarith)
  have hhigh' : (roundEven (p * 10 ^ 4) : ℚ) ≤ 10 ^ 4 := by exact_mod_cast hhigh
  constructor
  · exact Binary64.zero_le_ofRat (div_nonneg (by exact_mod_cast hlow) (by positivity))
  · exact Binary64.ofRat_le_ofRat (div_le_one_of_le₀ hhigh' (by positivity))

/-- Counts within their bounds have figures within theirs. -/
theorem figure_bounds {q : ℚ} {hq : Binary64.Fits q} {y g : Binary64} (hdefect : zero.le defect = true)
    (hle : (Binary64.finite q hq).lt defect = false) (h : yieldFigure (.finite q hq) defect = some (y, g)) :
    zero.le g = true ∧ g.le (.finite q hq) = true ∧ zero.le y = true ∧ y.le (.ofRat 1) = true := by
  unfold yieldFigure at h
  split_ifs at h with hpos
  cases h
  obtain ⟨p, hp, rfl, hp0, hpq⟩ := Binary64.finite_of_not_lt hdefect hle
  have hgood : zero.le (Binary64.ofRat (q - p)) = true := Binary64.zero_le_ofRat (sub_nonneg.2 hpq)
  have hgood' : (Binary64.ofRat (q - p)).le (.finite q hq) = true := by
    rw [← Binary64.ofRat_of_fits hq]
    exact Binary64.ofRat_le_ofRat (sub_le_self q hp0)
  obtain ⟨g, hg, heq, hg0, hgq⟩ := Binary64.finite_of_le hgood hgood'
  refine ⟨hgood, hgood', ?_⟩
  rw [Binary64.sub, heq]
  exact round4_bounds (Binary64.div_le_one hg0 hgq).1 (Binary64.div_le_one hg0 hgq).2

theorem figure_overflow {y g : Binary64} (hover : ∀ q h, output ≠ .finite q h)
    (h : yieldFigure output defect = some (y, g)) : y = .nan := by
  unfold yieldFigure at h
  split_ifs at h
  cases h
  cases output with
  | finite q hq => exact absurd rfl (hover q hq)
  | infinite s =>
    cases defect with
    | finite p hp => rfl
    | nan => rfl
    | infinite t => cases s <;> cases t <;> rfl
  | nan => rfl

/-- What a computable station is honest about, of its rows. -/
theorem record_honest_iff {rows : List (List (String × Cell))} {name : String}
    (hcomputable : (record lib eng entry rows
      (name, (ofStation cs name).foldl Bucket.take .empty)).yieldComputable = true) :
    Honest cs (record lib eng entry rows (name, (ofStation cs name).foldl Bucket.take .empty)) ↔
      Sound cs name := by
  generalize hb : (ofStation cs name).foldl Bucket.take .empty = b at hcomputable ⊢
  obtain ⟨⟨y, g⟩, hfigure⟩ := Option.isSome_iff_exists.1 hcomputable
  have hboth := hfigure
  unfold Bucket.figure at hboth
  split_ifs at hboth with hflags
  rw [Bool.and_eq_true, Bool.not_eq_true'] at hflags
  obtain ⟨hread, hle⟩ := hflags
  have hgood : g = b.output.sub b.defect.sum := by
    unfold yieldFigure at hboth
    split_ifs at hboth
    cases hboth
    rfl
  have houtput : b.output = ((ofStation cs name).map Contribution.output).foldl Binary64.add zero := by
    rw [← hb]
    exact output_foldl
  have hreadable : ∀ c ∈ ofStation cs name, c.defect ≠ .unreadable := by
    have hnone : b.unreadable = false := by
      simp only [Bucket.computable, Bool.and_eq_true, Bool.not_eq_true'] at hread
      exact hread.2
    rw [← hb, unreadable_foldl] at hnone
    simpa [Bucket.empty] using hnone
  have hrecord : (record lib eng entry rows (name, b)).defect = some b.defect.sum :=
    if_pos hread
  have hrecord' : (record lib eng entry rows (name, b)).good = some g :=
    congrArg (Option.map Prod.snd) hfigure
  have hrecord'' : (record lib eng entry rows (name, b)).ratio = some y :=
    congrArg (Option.map Prod.fst) hfigure
  constructor
  · rintro ⟨hrows, -, y', hy', hlow, -⟩
    obtain rfl : y' = y := Option.some.inj (hy'.symm.trans hrecord'')
    refine ⟨fun c hc hblank => ?_, fun c hc x hx => ?_, ?_⟩
    · obtain ⟨x, hx, -⟩ := hrows c hc
      rw [hblank] at hx
      cases hx
    · obtain ⟨x', hx', hpos⟩ := hrows c hc
      rw [hx] at hx'
      cases hx'
      exact hpos
    · by_contra hover
      push Not at hover
      rw [figure_overflow (fun q h => houtput ▸ hover q h) hboth, Binary64.zero_le_nan] at hlow
      cases hlow
  · rintro ⟨hrecorded, hnonnegative, q, hq, hbounded⟩
    have hdefect : zero.le b.defect.sum = true := by
      rw [← hb]
      exact zero_le_defect (Binary64.zero_le_ofRat le_rfl) hnonnegative
    rw [houtput, hbounded] at hle hboth hgood
    obtain ⟨hg, hgq, hy, hy1⟩ := figure_bounds hdefect hle hboth
    refine ⟨fun c hc => ?_, ⟨_, g, hrecord, hrecord', ?_, hg, ?_⟩, y, hrecord'', hy, hy1⟩
    · cases hc' : c.defect with
      | value x => exact ⟨x, rfl, hnonnegative c hc x hc'⟩
      | unreadable => exact absurd hc' (hreadable c hc)
      | blank => exact absurd hc' (hrecorded c hc)
    · rw [hgood, ← hbounded, ← houtput]
      rfl
    · rw [← hbounded, ← houtput] at hgq
      exact hgq

/-! ### The report -/

section Report

variable {station : String} {limit : ℤ} {sheet : Sheet} {a : Report} {r : StationYield}

/-- A station of the report is one of the register, with what its rows come to. -/
theorem mem_stations (hentry : resolve lib eng .yield = .ok entry)
    (hread : eng.read entry.register entry.range = .ok sheet) (h : yieldReport lib eng station limit = .ok a)
    (hr : r ∈ a.stations) :
    ∃ name, r = record lib eng entry (sheet.rows.take maxRows) (name,
      (ofStation (contributions lib entry (wantedOf station) (sheet.rows.take maxRows)) name).foldl
        Bucket.take .empty) := by
  obtain ⟨_, -, h⟩ := bind_eq_ok.1 h
  obtain ⟨_, -, h⟩ := bind_eq_ok.1 h
  obtain ⟨entry', hentry', h⟩ := bind_eq_ok.1 h
  obtain rfl : entry' = entry := Except.ok.inj (hentry'.symm.trans hentry)
  obtain ⟨sheet', hread', h⟩ := bind_eq_ok.1 h
  obtain rfl : sheet' = sheet := Except.ok.inj (hread'.symm.trans hread)
  cases h
  obtain ⟨m, hm, rfl⟩ := List.mem_map.1 hr
  have hmem := (List.mem_insertionSort _).1 (List.mem_of_mem_take hm)
  exact ⟨m.1, by rw [← mem_byStation hmem]⟩

/-- A computable station is honest exactly when none of its rows has a blank defect cell or a negative count, and
its outputs do not overflow. -/
theorem honest_iff (hentry : resolve lib eng .yield = .ok entry)
    (hread : eng.read entry.register entry.range = .ok sheet) (h : yieldReport lib eng station limit = .ok a)
    (hr : r ∈ a.stations) (hcomputable : r.yieldComputable = true) :
    Honest (contributions lib entry (wantedOf station) (sheet.rows.take maxRows)) r ↔
      Sound (contributions lib entry (wantedOf station) (sheet.rows.take maxRows)) r.station := by
  obtain ⟨name, rfl⟩ := mem_stations hentry hread h hr
  exact record_honest_iff hcomputable

end Report

/-! ### A blank defect cell -/

def pressLibrary : Oee.Library := ⟨⟨plainParser, ⟨fun _ => "", fun c => [c]⟩⟩, fun _ => .nan⟩

/-- A shift of a press. -/
def pressRow (output : ℤ) (defect : Cell) : List (String × Cell) :=
  [("stanok", .str "zavod-1/stanok-1"), ("chiqish", .int output), ("nuqson", defect)]

def pressEngine (sheet : Sheet) : Engine :=
  { manufacturing := .obj [("yield", .obj [("sex", .obj [("register", .str "plant"), ("range", .str "yield"),
      ("station_column", .str "stanok"), ("output_column", .str "chiqish"), ("defect_column", .str "nuqson")])])]
    assets := .obj [("levels", .arr [.str "zavod", .str "stanok"])]
    read := fun _ _ => .ok sheet
    agent := "agent"
    ladder := "autonomous" }

/-- What a run of `yield_report` reads, and the stations it returns. -/
structure PressRead where
  entry : Entry
  contributions : List Contribution
  stations : List StationYield
  deriving DecidableEq

def pressRun (sheet : Sheet) : Except Err PressRead := do
  let entry ← resolve pressLibrary (pressEngine sheet) .yield
  let a ← yieldReport pressLibrary (pressEngine sheet) "" 50
  pure ⟨entry, contributions pressLibrary entry (wantedOf "") (sheet.rows.take maxRows), a.stations⟩

theorem pressRun_eq_ok {sheet : Sheet} {p : PressRead} (h : pressRun sheet = .ok p) :
    resolve pressLibrary (pressEngine sheet) .yield = .ok p.entry ∧
      contributions pressLibrary p.entry (wantedOf "") (sheet.rows.take maxRows) = p.contributions ∧
      ∃ a, yieldReport pressLibrary (pressEngine sheet) "" 50 = .ok a ∧ a.stations = p.stations := by
  obtain ⟨entry, hentry, h⟩ := bind_eq_ok.1 h
  obtain ⟨a, ha, h⟩ := bind_eq_ok.1 h
  cases h
  exact ⟨hentry, rfl, a, ha, rfl⟩

def pressEntry : Entry :=
  ⟨"plant", "yield", [("station_column", "stanok"), ("output_column", "chiqish"), ("defect_column", "nuqson"),
    ("unit_column", "")]⟩

/-- The record of the press. -/
def pressYield (output defect good : ℤ) (ratio : ℚ) : StationYield :=
  ⟨"zavod-1/stanok-1", .ofRat output, some (.ofRat defect), some (.ofRat good), some (.ofRat ratio), true,
    some "zavod-1/stanok-1", none⟩

def countedRow (output defect : ℤ) : Contribution :=
  ⟨"zavod-1/stanok-1", .ofRat output, .value (.ofRat defect)⟩

/-- A shift of a hundred pieces with two defects. -/
theorem honest_iff_sample :
    Honest [countedRow 100 2] (pressYield 100 2 98 (98 / 100)) ↔
      Sound [countedRow 100 2] "zavod-1/stanok-1" := by
  have hrun : pressRun ⟨[pressRow 100 (.int 2)], false, by decide⟩ =
      .ok ⟨pressEntry, [countedRow 100 2], [pressYield 100 2 98 (98 / 100)]⟩ := by
    decide +kernel
  obtain ⟨hentry, hcs, a, ha, hstations⟩ := pressRun_eq_ok hrun
  have hmem : pressYield 100 2 98 (98 / 100) ∈ a.stations := by
    rw [hstations]
    exact List.mem_singleton_self _
  have hiff := honest_iff hentry rfl ha hmem rfl
  rw [hcs] at hiff
  exact hiff

/-- The second shift has no defect count, and its output is in the yield. -/
theorem blank_passed_over : ¬ ∀ (lib : Oee.Library) (eng : Engine) (entry : Entry) (sheet : Sheet) (station : String)
    (limit : ℤ) (a : Report) (r : StationYield),
    resolve lib eng .yield = .ok entry → eng.read entry.register entry.range = .ok sheet →
    yieldReport lib eng station limit = .ok a → r ∈ a.stations → r.yieldComputable = true →
    Honest (contributions lib entry (wantedOf station) (sheet.rows.take maxRows)) r := by
  intro hall
  have hrun : pressRun ⟨[pressRow 100 (.int 2), pressRow 50 .none], false, by decide⟩ =
      .ok ⟨pressEntry, [countedRow 100 2, ⟨"zavod-1/stanok-1", .ofRat 50, .blank⟩],
        [pressYield 150 2 148 (9867 / 10000)]⟩ := by
    decide +kernel
  obtain ⟨hentry, hcs, a, ha, hstations⟩ := pressRun_eq_ok hrun
  have hmem : pressYield 150 2 148 (9867 / 10000) ∈ a.stations := by
    rw [hstations]
    exact List.mem_singleton_self _
  have hhonest := hall _ _ _ _ _ _ _ _ hentry rfl ha hmem rfl
  rw [hcs] at hhonest
  obtain ⟨x, hx, -⟩ := hhonest.rows ⟨"zavod-1/stanok-1", .ofRat 50, .blank⟩ (by decide +kernel)
  cases hx

end AgentPlatform.Manufacturing
