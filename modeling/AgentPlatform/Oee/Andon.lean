import AgentPlatform.Oee.RowOrder

/-!
# Andon thresholds

`andon` of `oee.py`. A factor is compared after it is rounded to four places and multiplied by a hundred in
double precision. What is compared depends on the ten-thousandths nearest the factor only, and it grows with
them (`percent_lt_iff`, `lt_percent_iff`): a threshold of `b` is a threshold of about `100 * b`
ten-thousandths.
-/

namespace AgentPlatform.Oee

open Outcome AgentPlatform.Graph

/-! ### The comparison -/

/-- The side of a bound. -/
inductive Side
  | below
  | above
  deriving DecidableEq

/-- `bounds[hit]`. -/
def Bounds.get (b : Bounds) : Side → Option Binary64
  | .below => b.below
  | .above => b.above

/-- `value * PERCENT`. -/
def percent (x : Binary64) : Binary64 := x.mul (.ofRat 100)

/-- The bound a percentage is beyond: the upper one, where it is beyond both. -/
def Bounds.hit (b : Bounds) (x : Binary64) : Option Side :=
  if b.above.any fun y => y.lt x then some .above
  else if b.below.any fun y => x.lt y then some .below
  else none

/-- `record.get(key)`. -/
def Record.get (r : Record) : String → Option Binary64
  | "oee" => r.oee
  | "availability" => r.availability
  | "performance" => r.performance
  | "quality" => r.quality
  | _ => none

structure Breach where
  station : String
  metric : String
  value : Binary64
  threshold : Binary64
  breach : Side
  path : Option String
  deriving DecidableEq

/-- The breach of a threshold by a value. -/
def breachOf (record : Record) (key : String) (bounds : Bounds) (value : Binary64) : Option Breach := do
  let hit ← bounds.hit (percent value)
  let threshold ← bounds.get hit
  pure ⟨record.station, key, round4 (percent value), threshold, hit, record.path⟩

/-- `sorted(declared)`, with the bounds of each. -/
def declared (thresholds : List (String × Bounds)) : List (String × Bounds) :=
  (sortTexts (thresholds.map Prod.fst)).filterMap fun key =>
    (thresholds.lookup key).map fun bounds => (key, bounds)

/-- The thresholds a station is beyond. -/
def breachesOf (thresholds : List (String × Bounds)) (record : Record) : List Breach :=
  (declared thresholds).filterMap fun m => (record.get m.1).bind (breachOf record m.1 m.2)

/-- The thresholds a station has no value for. -/
def missingOf (thresholds : List (String × Bounds)) (record : Record) : List String :=
  ((declared thresholds).filter fun m => (record.get m.1).isNone).map Prod.fst

/-- What `andon` returns. -/
structure Andon where
  register : String
  breaches : List Breach
  breachCount : ℕ
  thresholds : List (String × Bounds)
  notEvaluated : ℕ
  notEvaluatedMetrics : List String
  notEvaluatedStations : List (String × List String)
  stations : List Record
  stationCount : ℕ
  computableCount : ℕ
  unbound : ℕ
  unreadable : ℕ
  skipped : ℕ
  scanned : ℕ
  truncated : Bool
  evaluatedCount : ℕ
  complete : Bool

/-- What `andon` makes of a report. -/
def andonOf (thresholds : List (String × Bounds)) (limit : ℕ) (result : Report) : Andon :=
  let breaches := result.stations.flatMap (breachesOf thresholds)
  let missing := result.stations.map fun r => (r.station, missingOf thresholds r)
  { register := result.register
    breaches := breaches
    breachCount := breaches.length
    thresholds := declared thresholds
    notEvaluated := (missing.map fun m => m.2.length).sum
    notEvaluatedMetrics := sortTexts (missing.flatMap Prod.snd).dedup
    notEvaluatedStations := missing.filter fun m => !m.2.isEmpty
    stations := result.stations.take limit
    stationCount := result.stationCount
    computableCount := result.computableCount
    unbound := result.stations.countP fun r => r.path.isNone
    unreadable := result.unreadable
    skipped := result.skipped
    scanned := result.scanned
    truncated := result.truncated
    evaluatedCount := result.stations.length
    complete := !result.truncated }

/-- `andon`. -/
def andon (lib : Library) (eng : Engine) (limit : ℤ) : Except Err Andon := do
  let limit ← bounded limit "limit" 1 maxStations
  let config ← oeeConfig lib eng
  ensure (config.thresholds ≠ []) (.forbidden
    "No OEE thresholds are declared for this tenant; there is nothing to compare against")
  let result ← report lib eng "" maxStations
  pure (andonOf config.thresholds limit result)

/-- Whether a breach of a threshold is reported. -/
def Andon.reports (a : Andon) (station key : String) (side : Side) : Prop :=
  ∃ b ∈ a.breaches, b.station = station ∧ b.metric = key ∧ b.breach = side

/-! ### The level of a threshold -/

/-- What is compared of a number of ten-thousandths. -/
def shownPercent (k : ℤ) : ℚ := Binary64.nearest (Binary64.nearest (k / 10 ^ 4) * 100)

/-- Where a condition begins to hold, next to `c`. -/
def level (p : ℤ → Bool) (c : ℤ) : ℤ :=
  if p (c - 1) then c - 1 else if p c then c else c + 1

/-- The least ten-thousandths that are shown at `b` percent or over it. -/
def lowLevel (b : ℚ) : ℤ := level (fun k => b ≤ shownPercent k) ⌈100 * b⌉

/-- The least ten-thousandths that are shown over `b` percent. -/
def highLevel (b : ℚ) : ℤ := level (fun k => b < shownPercent k) (⌊100 * b⌋ + 1)

theorem level_le_iff {p : ℤ → Bool} {c k : ℤ} (hmono : ∀ i j, i ≤ j → p i = true → p j = true)
    (hlow : p (c - 2) = false) (hhigh : p (c + 1) = true) : level p c ≤ k ↔ p k = true := by
  have hfirst : p (level p c - 1) = false := by
    unfold level
    split_ifs with h1 h2
    · rwa [sub_sub]
    · exact Bool.eq_false_of_not_eq_true h1
    · rw [add_sub_cancel_right]
      exact Bool.eq_false_of_not_eq_true h2
  have hlevel : p (level p c) = true := by
    unfold level
    split_ifs with h1 h2
    · exact h1
    · exact h2
    · exact hhigh
  constructor
  · intro hle
    exact hmono _ _ hle hlevel
  · intro hk
    by_contra hlt
    have hearlier := hmono k (level p c - 1) (by omega) hk
    rw [hfirst] at hearlier
    cases hearlier

theorem shownPercent_mono {i j : ℤ} (h : i ≤ j) : shownPercent i ≤ shownPercent j := by
  have hdiv : (i : ℚ) / 10 ^ 4 ≤ j / 10 ^ 4 :=
    div_le_div_of_nonneg_right (by exact_mod_cast h) (by norm_num)
  exact Binary64.nearest_mono (mul_le_mul_of_nonneg_right (Binary64.nearest_mono hdiv) (by norm_num))

/-- Up to a hundred percent, what is compared is off by less than a thousandth of a point. -/
theorem abs_shownPercent_sub_le {k : ℤ} (h : |k| ≤ 10002) : |shownPercent k - k / 100| ≤ 1 / 1000 := by
  have htiny : Binary64.pow2 (-1075) ≤ 1 / 2 ^ 53 := by
    have hle := Binary64.pow2_le (by norm_num : (-1075 : ℤ) ≤ -53)
    rw [Binary64.pow2_eq (-53)] at hle
    norm_num at hle ⊢
    exact hle
  have hk : |(k : ℚ)| ≤ 10002 := by exact_mod_cast h
  have hratio : |(k : ℚ) / 10 ^ 4| ≤ 2 := by
    rw [abs_div, abs_of_pos (by norm_num : (0 : ℚ) < 10 ^ 4), div_le_iff₀ (by norm_num)]
    linarith
  -- the quotient
  have hfirst : |Binary64.nearest (k / 10 ^ 4) - k / 10 ^ 4| ≤ 1 / 2 ^ 51 := by
    have herror := Binary64.abs_nearest_sub_le_mul ((k : ℚ) / 10 ^ 4)
    have hscaled : |(k : ℚ) / 10 ^ 4| / 2 ^ 53 ≤ 2 / 2 ^ 53 :=
      div_le_div_of_nonneg_right hratio (by norm_num)
    norm_num at herror htiny hscaled ⊢
    linarith
  have hproduct : |Binary64.nearest (k / 10 ^ 4) * 100 - k / 100| ≤ 100 / 2 ^ 51 := by
    have hsplit : Binary64.nearest ((k : ℚ) / 10 ^ 4) * 100 - k / 100 =
        (Binary64.nearest (k / 10 ^ 4) - k / 10 ^ 4) * 100 := by ring
    rw [hsplit, abs_mul, abs_of_pos (by norm_num : (0 : ℚ) < 100)]
    calc |Binary64.nearest ((k : ℚ) / 10 ^ 4) - k / 10 ^ 4| * 100 ≤ 1 / 2 ^ 51 * 100 :=
          mul_le_mul_of_nonneg_right hfirst (by norm_num)
      _ = 100 / 2 ^ 51 := by ring
  -- the percentage
  have hsecond : |shownPercent k - Binary64.nearest (k / 10 ^ 4) * 100| ≤ 1 / 2 ^ 40 := by
    have herror := Binary64.abs_nearest_sub_le_mul (Binary64.nearest ((k : ℚ) / 10 ^ 4) * 100)
    have hsize : |Binary64.nearest ((k : ℚ) / 10 ^ 4) * 100| ≤ 300 := by
      have hhundredth : |(k : ℚ) / 100| ≤ 200 := by
        rw [abs_div, abs_of_pos (by norm_num : (0 : ℚ) < 100), div_le_iff₀ (by norm_num)]
        linarith
      have hsum := abs_add_le (Binary64.nearest ((k : ℚ) / 10 ^ 4) * 100 - k / 100) (k / 100)
      rw [sub_add_cancel] at hsum
      norm_num at hproduct
      linarith
    have hscaled : |Binary64.nearest ((k : ℚ) / 10 ^ 4) * 100| / 2 ^ 53 ≤ 300 / 2 ^ 53 :=
      div_le_div_of_nonneg_right hsize (by norm_num)
    have hshown : shownPercent k = Binary64.nearest (Binary64.nearest (k / 10 ^ 4) * 100) := rfl
    rw [hshown]
    norm_num at herror htiny hscaled ⊢
    linarith
  have htriangle := abs_sub_le (shownPercent k) (Binary64.nearest (k / 10 ^ 4) * 100) ((k : ℚ) / 100)
  norm_num at hproduct hsecond ⊢
  linarith

variable {b : ℚ}

theorem lowLevel_le_iff {k : ℤ} (h0 : 0 ≤ b) (h100 : b ≤ 100) : lowLevel b ≤ k ↔ b ≤ shownPercent k := by
  have hceil := Int.ceil_lt_add_one (100 * b)
  have hle := Int.le_ceil (100 * b)
  have hrange : 0 ≤ ⌈100 * b⌉ ∧ ⌈100 * b⌉ ≤ 10000 := by
    constructor
    · exact Int.ceil_nonneg (by linarith)
    · rw [Int.ceil_le]
      push_cast
      linarith
  have hiff : level (fun k => b ≤ shownPercent k) ⌈100 * b⌉ ≤ k ↔ decide (b ≤ shownPercent k) = true := by
    apply level_le_iff (p := fun k => b ≤ shownPercent k)
    · intro i j hij hi
      exact decide_eq_true ((of_decide_eq_true hi).trans (shownPercent_mono hij))
    · have herror := abs_le.1 (abs_shownPercent_sub_le (k := ⌈100 * b⌉ - 2) (abs_le.2 (by omega)))
      push_cast at herror
      exact decide_eq_false (by linarith)
    · have herror := abs_le.1 (abs_shownPercent_sub_le (k := ⌈100 * b⌉ + 1) (abs_le.2 (by omega)))
      push_cast at herror
      exact decide_eq_true (by linarith)
  rw [decide_eq_true_eq] at hiff
  exact hiff

theorem highLevel_le_iff {k : ℤ} (h0 : 0 ≤ b) (h100 : b ≤ 100) : highLevel b ≤ k ↔ b < shownPercent k := by
  have hfloor := Int.floor_le (100 * b)
  have hlt := Int.lt_floor_add_one (100 * b)
  have hrange : 0 ≤ ⌊100 * b⌋ ∧ ⌊100 * b⌋ ≤ 10000 := by
    constructor
    · exact Int.floor_nonneg.2 (by linarith)
    · have hcast : ((⌊100 * b⌋ : ℤ) : ℚ) ≤ 10000 := by linarith
      exact_mod_cast hcast
  have hiff : level (fun k => b < shownPercent k) (⌊100 * b⌋ + 1) ≤ k ↔
      decide (b < shownPercent k) = true := by
    apply level_le_iff (p := fun k => b < shownPercent k)
    · intro i j hij hi
      exact decide_eq_true ((of_decide_eq_true hi).trans_le (shownPercent_mono hij))
    · have herror := abs_le.1 (abs_shownPercent_sub_le (k := ⌊100 * b⌋ + 1 - 2) (abs_le.2 (by omega)))
      push_cast at herror
      exact decide_eq_false (by linarith)
    · have herror := abs_le.1 (abs_shownPercent_sub_le (k := ⌊100 * b⌋ + 1 + 1) (abs_le.2 (by omega)))
      push_cast at herror
      exact decide_eq_true (by linarith)
  rw [decide_eq_true_eq] at hiff
  exact hiff

/-! ### What is compared -/

/-- Whether the ten-thousandths nearest a factor are on a side of the level of a bound. -/
def Crosses (side : Side) (b : ℚ) : Binary64 → Prop
  | .finite q _ =>
    match side with
    | .below => roundEven (q * 10 ^ 4) < lowLevel b
    | .above => highLevel b ≤ roundEven (q * 10 ^ 4)
  | .infinite negative => side = if negative then .below else .above
  | .nan => False

variable {fits : Binary64.Fits b}

theorem hundred_fits : Binary64.Fits 100 := Binary64.fits_natCast (n := 100) (by norm_num)

theorem hundred_eq : Binary64.ofRat 100 = .finite 100 hundred_fits :=
  Binary64.ofRat_of_fits _

/-- A product with a hundred is past the largest double where the factor is. -/
theorem percent_of_overflow {q : ℚ} (h : ¬|Binary64.nearest q| < Binary64.pow2 1024) :
    percent (.ofRat q) = .infinite (decide (q < 0)) ∧
      if q < 0 then Binary64.nearest (Binary64.nearest q * 100) ≤ -Binary64.pow2 1024
      else Binary64.pow2 1024 ≤ Binary64.nearest (Binary64.nearest q * 100) := by
  have hinfinite : Binary64.ofRat q = .infinite (decide (q < 0)) := dif_neg h
  have hover := Binary64.nearest_of_overflow h
  have hpos := Binary64.pow2_pos 1024
  refine ⟨?_, ?_⟩
  · rw [percent, hinfinite, hundred_eq]
    cases decide (q < 0) <;> simp [Binary64.mul]
  · have hlarge : Binary64.pow2 1024 ≤ |Binary64.nearest (Binary64.nearest q * 100)| := by
      apply Binary64.pow2_le_abs_nearest (by norm_num)
      rw [abs_mul, abs_of_pos (by norm_num : (0 : ℚ) < 100)]
      linarith [not_lt.1 h]
    split_ifs at hover ⊢ with hq
    · have hneg : 0 ≤ Binary64.nearest (-(Binary64.nearest q * 100)) :=
        Binary64.nearest_nonneg (by linarith)
      rw [Binary64.nearest_neg] at hneg
      rw [abs_of_nonpos (by linarith)] at hlarge
      linarith
    · rwa [abs_of_nonneg (Binary64.nearest_nonneg (by linarith))] at hlarge

theorem percent_of_fits {q : ℚ} (h : |Binary64.nearest q| < Binary64.pow2 1024) :
    percent (.ofRat q) = .ofRat (Binary64.nearest q * 100) := by
  have hfinite : Binary64.ofRat q = .finite (Binary64.nearest q) (Binary64.fits_nearest h) := dif_pos h
  rw [percent, hfinite, hundred_eq]
  rfl

theorem percent_lt_iff {q : ℚ} :
    (percent (.ofRat q)).lt (.finite b fits) = true ↔
      Binary64.nearest (Binary64.nearest q * 100) < b := by
  have hb := abs_lt.1 fits.2
  by_cases h : |Binary64.nearest q| < Binary64.pow2 1024
  · rw [percent_of_fits h, Binary64.ofRat_lt_iff]
  · obtain ⟨hpercent, hover⟩ := percent_of_overflow h
    rw [hpercent]
    by_cases hq : q < 0
    · rw [if_pos hq] at hover
      exact iff_of_true (decide_eq_true hq) (by linarith)
    · rw [if_neg hq] at hover
      exact iff_of_false (fun hlt => hq (of_decide_eq_true hlt)) (by linarith)

theorem lt_percent_iff {q : ℚ} :
    (Binary64.finite b fits).lt (percent (.ofRat q)) = true ↔
      b < Binary64.nearest (Binary64.nearest q * 100) := by
  have hb := abs_lt.1 fits.2
  by_cases h : |Binary64.nearest q| < Binary64.pow2 1024
  · rw [percent_of_fits h, Binary64.lt_ofRat_iff]
  · obtain ⟨hpercent, hover⟩ := percent_of_overflow h
    rw [hpercent]
    by_cases hq : q < 0
    · rw [if_pos hq] at hover
      refine iff_of_false (fun hlt => ?_) (by linarith)
      simp [Binary64.lt, hq] at hlt
    · rw [if_neg hq] at hover
      refine iff_of_true ?_ (by linarith)
      simp [Binary64.lt, hq]

variable {x : Binary64}

theorem round4_infinite (negative : Bool) : round4 (.infinite negative) = .infinite negative := rfl

theorem round4_nan : round4 .nan = .nan := rfl

theorem shown_lt_iff (h0 : 0 ≤ b) (h100 : b ≤ 100) :
    (percent (round4 x)).lt (.finite b fits) = true ↔ Crosses .below b x := by
  cases x with
  | finite q hq =>
    have hiff : (percent (round4 (.finite q hq))).lt (.finite b fits) = true ↔
        shownPercent (roundEven (q * 10 ^ 4)) < b := percent_lt_iff
    rw [hiff, ← not_le, ← lowLevel_le_iff h0 h100, not_le]
    rfl
  | infinite negative =>
    rw [round4_infinite, percent, hundred_eq]
    cases negative <;> simp [Binary64.mul, Binary64.lt, Crosses]
  | nan =>
    rw [round4_nan, percent, hundred_eq]
    simp [Binary64.mul, Binary64.lt, Crosses]

theorem lt_shown_iff (h0 : 0 ≤ b) (h100 : b ≤ 100) :
    (Binary64.finite b fits).lt (percent (round4 x)) = true ↔ Crosses .above b x := by
  cases x with
  | finite q hq =>
    have hiff : (Binary64.finite b fits).lt (percent (round4 (.finite q hq))) = true ↔
        b < shownPercent (roundEven (q * 10 ^ 4)) := lt_percent_iff
    rw [hiff, ← highLevel_le_iff h0 h100]
    rfl
  | infinite negative =>
    rw [round4_infinite, percent, hundred_eq]
    cases negative <;> simp [Binary64.mul, Binary64.lt, Crosses]
  | nan =>
    rw [round4_nan, percent, hundred_eq]
    simp [Binary64.mul, Binary64.lt, Crosses]

/-! ### The declared bounds -/

/-- A bound of a threshold is a percentage, and the lower one is under the upper one. -/
structure Bounds.Valid (bounds : Bounds) : Prop where
  range : ∀ side y, bounds.get side = some y → ∃ b fits, y = .finite b fits ∧ 0 ≤ b ∧ b ≤ 100
  crossed : bounds.crossed = false

variable {lib : Library} {eng : Engine} {bounds : Bounds} {key : String} {side : Side}

theorem boundedNumber_ok {value : Json} {name : String} {low high : ℕ}
    (h : boundedNumber lib value name low high = .ok x) :
    ∃ b fits, x = .finite b fits ∧ (low : ℚ) ≤ b ∧ b ≤ high := by
  unfold boundedNumber at h
  cases hnumber : declaredFloat lib value with
  | none =>
    rw [hnumber] at h
    cases h
  | some number =>
    rw [hnumber] at h
    obtain ⟨y, -, h⟩ := bind_eq_ok.1 h
    cases y with
    | finite q hq =>
      obtain ⟨_, hrange, h⟩ := bind_eq_ok.1 h
      exact ⟨q, hq, (pure_eq_ok.1 h).symm, (ensure_eq_ok.1 hrange).1, (ensure_eq_ok.1 hrange).2⟩
    | infinite negative => cases h
    | nan => cases h

theorem boundOf_ok {entry : Json} {bound : String} {y : Binary64}
    (h : boundOf lib entry key bound = .ok (some y)) :
    ∃ b fits, y = .finite b fits ∧ 0 ≤ b ∧ b ≤ 100 := by
  unfold boundOf at h
  cases hvalue : entry.get? bound with
  | none =>
    rw [hvalue] at h
    cases h
  | some value =>
    rw [hvalue] at h
    obtain ⟨z, hz, heq⟩ := map_eq_ok.1 h
    rw [← Option.some.inj heq]
    exact_mod_cast boundedNumber_ok hz

theorem thresholdEntry_ok {entry : Json} (h : thresholdEntry lib key entry = .ok bounds) : bounds.Valid := by
  unfold thresholdEntry at h
  obtain ⟨-, -, h⟩ := bind_eq_ok.1 h
  obtain ⟨-, -, h⟩ := bind_eq_ok.1 h
  obtain ⟨-, -, h⟩ := bind_eq_ok.1 h
  obtain ⟨-, -, h⟩ := bind_eq_ok.1 h
  obtain ⟨below, hbelow, h⟩ := bind_eq_ok.1 h
  obtain ⟨above, habove, h⟩ := bind_eq_ok.1 h
  obtain ⟨_, hcrossed, h⟩ := bind_eq_ok.1 h
  rw [← pure_eq_ok.1 h]
  refine ⟨?_, ensure_eq_ok.1 hcrossed⟩
  intro side y hy
  cases side with
  | below =>
    rw [show below = some y from hy] at hbelow
    exact boundOf_ok hbelow
  | above =>
    rw [show above = some y from hy] at habove
    exact boundOf_ok habove

theorem entriesOf_valid {value : Json} {entries : List (String × Bounds)}
    (h : entriesOf value "oee.thresholds" (thresholdEntry lib) = .ok entries) :
    ∀ m ∈ entries, m.2.Valid := by
  intro m hm
  cases value with
  | null =>
    rw [← Except.ok.inj h] at hm
    cases hm
  | obj members =>
    obtain ⟨member, -, hmember⟩ := exists_of_mem_right (mapM_eq_ok.1 h) hm
    obtain ⟨entry, hentry, rfl⟩ := map_eq_ok.1 hmember
    exact thresholdEntry_ok hentry
  | _ => cases h

/-- The thresholds of a configuration are valid. -/
theorem valid_of_config {config : Config} (h : oeeConfig lib eng = .ok config)
    (hkey : config.thresholds.lookup key = some bounds) : bounds.Valid := by
  have hmem : (key, bounds) ∈ config.thresholds := by
    obtain ⟨ms, ns, heq, -⟩ := List.lookup_eq_some_iff.1 hkey
    rw [heq]
    exact List.mem_append_right _ List.mem_cons_self
  unfold oeeConfig at h
  cases hoee : eng.oee with
  | null =>
    rw [hoee] at h
    rw [← Except.ok.inj h] at hmem
    cases hmem
  | obj members =>
    rw [hoee] at h
    obtain ⟨-, -, h⟩ := bind_eq_ok.1 h
    obtain ⟨registers, -, h⟩ := bind_eq_ok.1 h
    obtain ⟨thresholds, hthresholds, h⟩ := bind_eq_ok.1 h
    rw [← pure_eq_ok.1 h] at hmem
    exact entriesOf_valid hthresholds _ hmem
  | _ =>
    rw [hoee] at h
    cases h

/-- A value under the lower bound is not over the upper one. -/
theorem not_both (hvalid : bounds.Valid) {low high : Binary64} (hlow : bounds.below = some low)
    (hhigh : bounds.above = some high) (h : x.lt low = true) : high.lt x = false := by
  obtain ⟨b, hb, rfl, -⟩ := hvalid.range .below low hlow
  obtain ⟨c, hc, rfl, -⟩ := hvalid.range .above high hhigh
  have hcrossed := hvalid.crossed
  unfold Bounds.crossed at hcrossed
  rw [hlow, hhigh] at hcrossed
  have hbc : b ≤ c := by
    have hle : ((Binary64.finite c hc).lt (.finite b hb) || (Binary64.finite c hc).same (.finite b hb)) = false :=
      hcrossed
    rw [Bool.or_eq_false_iff] at hle
    exact not_lt.1 (of_decide_eq_false hle.1)
  cases x with
  | finite q hq =>
    have hqb : q < b := of_decide_eq_true h
    exact decide_eq_false (by linarith)
  | infinite negative =>
    have hnegative : negative = true := h
    rw [hnegative]
    rfl
  | nan => rfl

/-- What a comparison says: the bound of a side is there, and the value is beyond it. -/
theorem hit_eq_some_iff (hvalid : bounds.Valid) :
    bounds.hit (percent (round4 x)) = some side ↔
      ∃ b, (bounds.get side).bind Binary64.value? = some b ∧ Crosses side b x := by
  have hlow : ∀ y, bounds.below = some y → ((percent (round4 x)).lt y = true ↔
      ∃ b, y.value? = some b ∧ Crosses .below b x) := by
    intro y hy
    obtain ⟨b, hb, rfl, h0, h100⟩ := hvalid.range .below y hy
    rw [shown_lt_iff h0 h100]
    simp [Binary64.value?]
  have hhigh : ∀ y, bounds.above = some y → (y.lt (percent (round4 x)) = true ↔
      ∃ b, y.value? = some b ∧ Crosses .above b x) := by
    intro y hy
    obtain ⟨b, hb, rfl, h0, h100⟩ := hvalid.range .above y hy
    rw [lt_shown_iff h0 h100]
    simp [Binary64.value?]
  have hboth := @not_both (percent (round4 x)) bounds hvalid
  unfold Bounds.hit
  cases side with
  | below =>
    change _ ↔ ∃ b, bounds.below.bind Binary64.value? = some b ∧ _
    cases hbelow : bounds.below with
    | none => split_ifs <;> simp_all
    | some y =>
      rw [Option.bind_some, ← hlow y hbelow]
      cases habove : bounds.above with
      | none => simp
      | some z =>
        have hnot := hboth hbelow habove
        rw [Option.any_some, Option.any_some]
        cases h : (percent (round4 x)).lt y with
        | false => cases z.lt (percent (round4 x)) <;> simp
        | true => simp [hnot h]
  | above =>
    change _ ↔ ∃ b, bounds.above.bind Binary64.value? = some b ∧ _
    cases habove : bounds.above with
    | none => split_ifs <;> simp_all
    | some y =>
      rw [Option.bind_some, ← hhigh y habove, Option.any_some]
      split_ifs with h1 h2
      · simp [h1]
      · simp [h1]
      · simp [h1]

/-! ### The stations that are compared -/

variable {m : String × Bucket} {levels : List String} {entry : Entry}
  {name : String} {sheet : Sheet} {plan : Option Binary64} {members : List (String × Readings)}

/-- An element of a strictly sorted list is among the first `n` where fewer than `n` are less. -/
theorem mem_take_iff {α : Type} {lt : α → α → Bool} {xs : List α} {n : ℕ} {a : α}
    (hsorted : xs.Pairwise fun x y => lt x y = true ∧ lt y x = false) (hirrefl : lt a a = false)
    (ha : a ∈ xs) : a ∈ xs.take n ↔ xs.countP (fun x => lt x a) < n := by
  induction xs generalizing n with
  | nil => cases ha
  | cons x xs ih =>
    obtain ⟨hx, hrest⟩ := List.pairwise_cons.1 hsorted
    cases n with
    | zero => simp
    | succ n =>
      rw [List.take_succ_cons, List.mem_cons, List.countP_cons]
      rcases List.mem_cons.1 ha with rfl | hmem
      · have hnone : xs.countP (fun x => lt x a) = 0 := by
          rw [List.countP_eq_zero]
          intro y hy hlt
          rw [(hx y hy).2] at hlt
          cases hlt
        simp [hnone, hirrefl]
      · have hless := (hx a hmem).1
        have hne : a ≠ x := by
          rintro rfl
          rw [hirrefl] at hless
          cases hless
        rw [ih hrest hmem, if_pos hless]
        simp [hne]

/-- Whether a station is compared: fewer than fifty are before it. -/
def Compared (plan : Option Binary64) (members : List (String × Readings)) (name : String) : Prop :=
  readingsOf name members ≠ [] ∧
    (byStation plan members).countP
      (fun m => sortKey m < sortKey (name, collected plan (readingsOf name members))) < maxStations

theorem mem_byStation :
    m ∈ byStation plan members ↔
      readingsOf m.1 members ≠ [] ∧ m.2 = collected plan (readingsOf m.1 members) := by
  obtain ⟨name, bucket⟩ := m
  rw [Dict.mem_iff_lookup nodup_byStation, lookup_byStation]
  split_ifs with hnil
  · simp [hnil]
  · rw [Option.some.injEq]
    exact ⟨fun h => ⟨hnil, h.symm⟩, fun h => h.2.symm⟩

/-- The first stations of a report. -/
theorem mem_first_iff :
    m ∈ (ranked (byStation plan members)).take maxStations ↔
      Compared plan members m.1 ∧ m.2 = collected plan (readingsOf m.1 members) := by
  have htotal : Std.Total fun m n : String × Bucket => sortKey m ≤ sortKey n :=
    ⟨fun m n => le_total _ _⟩
  have htrans : IsTrans (String × Bucket) fun m n => sortKey m ≤ sortKey n :=
    ⟨fun _ _ _ => le_trans⟩
  have hperm : (ranked (byStation plan members)).Perm (byStation plan members) :=
    List.perm_insertionSort _ _
  have hnodup : ((ranked (byStation plan members)).map Prod.fst).Nodup :=
    (hperm.map Prod.fst).nodup_iff.2 nodup_byStation
  have hstrict : (ranked (byStation plan members)).Pairwise fun m n =>
      decide (sortKey m < sortKey n) = true ∧ decide (sortKey n < sortKey m) = false := by
    refine ((List.pairwise_insertionSort _ _).and (List.pairwise_map.1 hnodup)).imp ?_
    rintro m n ⟨hle, hne⟩
    have hkey : sortKey m ≠ sortKey n := fun heq =>
      hne (String.ext (congrArg (fun k => (ofLex k).2) heq))
    exact ⟨decide_eq_true (hle.lt_of_ne hkey), decide_eq_false (not_lt.2 hle)⟩
  have htake : m ∈ byStation plan members →
      (m ∈ (ranked (byStation plan members)).take maxStations ↔
        (byStation plan members).countP (fun n => sortKey n < sortKey m) < maxStations) := by
    intro hm
    rw [← hperm.countP_eq]
    exact mem_take_iff hstrict (decide_eq_false (lt_irrefl _)) (hperm.mem_iff.2 hm)
  constructor
  · intro hm
    have hmem := hperm.subset (List.mem_of_mem_take hm)
    obtain ⟨hne, heq⟩ := mem_byStation.1 hmem
    have hcount := (htake hmem).1 hm
    rw [← heq]
    exact ⟨⟨hne, by rwa [← heq]⟩, rfl⟩
  · rintro ⟨⟨hne, hcount⟩, heq⟩
    have hmem := mem_byStation.2 ⟨hne, heq⟩
    rw [← heq] at hcount
    exact (htake hmem).2 hcount

/-! ### The exact factors -/

/-- The sum of the numbers of a column, where there is one. -/
def exactSum (xs : List Binary64) : Option ℚ :=
  if xs = [] then none else some (xs.filterMap Binary64.value?).sum

/-- The inputs of the factors, as rationals. -/
structure ExactInputs where
  planned : Option ℚ
  run : Option ℚ
  ideal : Option ℚ
  produced : Option ℚ
  good : Option ℚ

/-- The inputs of a station: its last plan and its last ideal cycle, and its sums without rounding. -/
def exactInputs (plan : Option Binary64) (rs : List Readings) : ExactInputs :=
  { planned := (collected plan rs).planned.bind Binary64.value?
    run := exactSum (numbers Readings.run rs)
    ideal := (collected plan rs).ideal.bind Binary64.value?
    produced := exactSum (numbers Readings.produced rs)
    good := exactSum (numbers Readings.good rs) }

def ExactInputs.availability (i : ExactInputs) : Option ℚ :=
  match i.planned, i.run with
  | some p, some r => if p ≤ 0 then none else some (r / p)
  | _, _ => none

def ExactInputs.performance (i : ExactInputs) : Option ℚ :=
  match i.ideal, i.run, i.produced with
  | some c, some r, some n => if r ≤ 0 then none else some (c * n / r)
  | _, _, _ => none

def ExactInputs.quality (i : ExactInputs) : Option ℚ :=
  match i.produced, i.good with
  | some n, some g => if n ≤ 0 then none else if n < g then none else some (g / n)
  | _, _ => none

/-- The exact value of a factor, or of the index. -/
def ExactInputs.value (i : ExactInputs) : String → Option ℚ
  | "availability" => i.availability
  | "performance" => i.performance
  | "quality" => i.quality
  | "oee" =>
    match i.availability, i.performance, i.quality with
    | some a, some p, some q => some (a * p * q)
    | _, _, _ => none
  | _ => none

/-- Whether a percentage is beyond a bound. -/
def Beyond : Side → ℚ → ℚ → Prop
  | .below, b, x => x < b
  | .above, b, x => b < x

/-- Whether the exact value of a factor, times a hundred, is beyond a bound. -/
def ExactBeyond (plan : Option Binary64) (rs : List Readings) (key : String) (side : Side) (b : ℚ) : Prop :=
  ∃ x, (exactInputs plan rs).value key = some x ∧ Beyond side b (x * 100)

/-- The index or a factor of the inputs. -/
def Inputs.figure (i : Inputs) (key : String) : Option Binary64 :=
  if key = "oee" then i.oee else i.factor key

/-- Whether the double a factor comes to is on the far side of the level of a bound. -/
def RoundedBeyond (plan : Option Binary64) (rs : List Readings) (key : String) (side : Side) (b : ℚ) : Prop :=
  ∃ x, (collected plan rs).inputs.figure key = some x ∧ Crosses side b x

theorem get_record : (record lib levels entry m).get key = ratio (m.2.inputs.figure key) := by
  unfold Record.get Inputs.figure
  split
  · rfl
  · rfl
  · rfl
  · rfl
  · rename_i hoee havailability hperformance hquality
    rw [if_neg hoee]
    unfold Inputs.factor
    split
    · exact absurd rfl havailability
    · exact absurd rfl hperformance
    · exact absurd rfl hquality
    · rfl

theorem mem_declared {thresholds : List (String × Bounds)} {n : String × Bounds} :
    n ∈ declared thresholds ↔ thresholds.lookup n.1 = some n.2 := by
  obtain ⟨key, bounds⟩ := n
  unfold declared sortTexts
  rw [List.mem_filterMap]
  constructor
  · rintro ⟨k, -, hk⟩
    obtain ⟨b, hb, heq⟩ := Option.map_eq_some_iff.1 hk
    cases heq
    exact hb
  · intro h
    have hmem : key ∈ thresholds.map Prod.fst := by
      obtain ⟨ms, ns, heq, -⟩ := List.lookup_eq_some_iff.1 h
      rw [heq]
      simp
    exact ⟨key, (List.mem_insertionSort _).2 hmem, Option.map_eq_some_iff.2 ⟨bounds, h, rfl⟩⟩

theorem get_of_hit (h : bounds.hit x = some side) : ∃ threshold, bounds.get side = some threshold := by
  unfold Bounds.hit at h
  split_ifs at h with habove hbelow
  · obtain ⟨hsome, -⟩ := (Option.any_eq_true_iff_get _ _).1 habove
    rw [← Option.some.inj h]
    exact Option.isSome_iff_exists.1 hsome
  · obtain ⟨hsome, -⟩ := (Option.any_eq_true_iff_get _ _).1 hbelow
    rw [← Option.some.inj h]
    exact Option.isSome_iff_exists.1 hsome

/-- A breach of a record: its threshold, and the side of it that its value is on. -/
theorem mem_breachesOf {thresholds : List (String × Bounds)} {r : Record}
    (hkey : thresholds.lookup key = some bounds) :
    (∃ breach ∈ breachesOf thresholds r,
        breach.station = name ∧ breach.metric = key ∧ breach.breach = side) ↔
      r.station = name ∧ ∃ x, r.get key = some x ∧ bounds.hit (percent x) = some side := by
  unfold breachesOf
  constructor
  · rintro ⟨breach, hbreach, hstation, hmetric, hside⟩
    obtain ⟨⟨k, bs⟩, hdeclared, hsome⟩ := List.mem_filterMap.1 hbreach
    obtain ⟨x, hx, hof⟩ := Option.bind_eq_some_iff.1 hsome
    obtain ⟨hit, hhit, hof⟩ := Option.bind_eq_some_iff.1 hof
    obtain ⟨threshold, -, hof⟩ := Option.bind_eq_some_iff.1 hof
    cases hof
    dsimp only at hstation hmetric hside hx hhit
    rw [hmetric] at hx
    have hbounds : bounds = bs := by
      have hlookup := mem_declared.1 hdeclared
      dsimp only at hlookup
      rw [hmetric, hkey] at hlookup
      exact Option.some.inj hlookup
    rw [hside, ← hbounds] at hhit
    exact ⟨hstation, x, hx, hhit⟩
  · rintro ⟨hstation, x, hx, hhit⟩
    obtain ⟨threshold, hthreshold⟩ := get_of_hit hhit
    have hof : breachOf r key bounds x =
        some ⟨r.station, key, round4 (percent x), threshold, side, r.path⟩ := by
      unfold breachOf
      rw [hhit, Option.bind_eq_bind, Option.bind_some, hthreshold]
      rfl
    exact ⟨_, List.mem_filterMap.2 ⟨(key, bounds), mem_declared.2 hkey, Option.bind_eq_some_iff.2 ⟨x, hx, hof⟩⟩,
      hstation, rfl, rfl⟩

variable {config : Config} {limit : ℤ} {a : Andon}

/-- What `andon` makes of the register. -/
theorem andon_eq (hconfig : oeeConfig lib eng = .ok config) (hentry : resolveRegister lib eng = .ok entry)
    (hread : eng.read entry.register entry.range = .ok sheet) (h : andon lib eng limit = .ok a) :
    ∃ levels, ∃ n : ℕ, a = andonOf config.thresholds n (reportOf lib levels entry "" maxStations sheet) := by
  unfold andon at h
  obtain ⟨n, -, h⟩ := bind_eq_ok.1 h
  obtain ⟨config', hconfig', h⟩ := bind_eq_ok.1 h
  obtain ⟨-, -, h⟩ := bind_eq_ok.1 h
  obtain ⟨result, hresult, h⟩ := bind_eq_ok.1 h
  rw [hconfig] at hconfig'
  unfold report at hresult
  obtain ⟨fifty, hfifty, hresult⟩ := bind_eq_ok.1 hresult
  obtain ⟨levels, -, hresult⟩ := bind_eq_ok.1 hresult
  obtain ⟨-, -, hresult⟩ := bind_eq_ok.1 hresult
  obtain ⟨entry', hentry', hresult⟩ := bind_eq_ok.1 hresult
  obtain ⟨sheet', hread', hresult⟩ := bind_eq_ok.1 hresult
  rw [hentry] at hentry'
  cases hentry'
  rw [hread] at hread'
  cases hread'
  cases hconfig'
  have hmax : fifty = maxStations := (Except.ok.inj hfifty).symm
  refine ⟨levels, n, ?_⟩
  rw [← pure_eq_ok.1 h, ← pure_eq_ok.1 hresult, hmax]
  rfl

/-- The rows a report reads of a station. -/
def rowsOf (lib : Library) (entry : Entry) (sheet : Sheet) (name : String) : List Readings :=
  readingsOf name (stationRows lib entry "" sheet.rows)

/-- A breach is reported of the stations that are compared whose double is on the far side of the level of the
bound. -/
theorem reports_iff (hconfig : oeeConfig lib eng = .ok config) (hentry : resolveRegister lib eng = .ok entry)
    (hread : eng.read entry.register entry.range = .ok sheet) (h : andon lib eng limit = .ok a)
    (hkey : config.thresholds.lookup key = some bounds)
    (hbound : (bounds.get side).bind Binary64.value? = some b) :
    a.reports name key side ↔
      Compared entry.plannedRunSeconds (stationRows lib entry "" sheet.rows) name ∧
        RoundedBeyond entry.plannedRunSeconds (rowsOf lib entry sheet name) key side b := by
  obtain ⟨levels, n, rfl⟩ := andon_eq hconfig hentry hread h
  have hvalid := valid_of_config hconfig hkey
  have hrecord : ∀ m : String × Bucket, (∃ x, (record lib levels entry m).get key = some x ∧
      bounds.hit (percent x) = some side) ↔ ∃ x, m.2.inputs.figure key = some x ∧ Crosses side b x := by
    intro m
    rw [get_record]
    constructor
    · rintro ⟨y, hy, hhit⟩
      obtain ⟨x, hx, rfl⟩ := Option.map_eq_some_iff.1 hy
      obtain ⟨c, hc, hcrosses⟩ := (hit_eq_some_iff hvalid).1 hhit
      rw [hbound] at hc
      cases hc
      exact ⟨x, hx, hcrosses⟩
    · rintro ⟨x, hx, hcrosses⟩
      exact ⟨round4 x, Option.map_eq_some_iff.2 ⟨x, hx, rfl⟩,
        (hit_eq_some_iff hvalid).2 ⟨b, hbound, hcrosses⟩⟩
  have hstations : (reportOf lib levels entry "" maxStations sheet).stations =
      ((ranked (byStation entry.plannedRunSeconds (stationRows lib entry "" sheet.rows))).take
        maxStations).map (record lib levels entry) := by
    unfold reportOf
    dsimp only
    rw [take_rows]
  unfold Andon.reports andonOf
  dsimp only
  rw [hstations]
  simp only [List.mem_flatMap, List.mem_map]
  constructor
  · rintro ⟨breach, ⟨r, ⟨m, hm, rfl⟩, hbreach⟩, hfields⟩
    obtain ⟨hstation, hx⟩ := (mem_breachesOf hkey).1 ⟨breach, hbreach, hfields⟩
    obtain ⟨hcompared, hbucket⟩ := mem_first_iff.1 hm
    have hname : m.1 = name := hstation
    rw [hrecord, hbucket, hname] at hx
    rw [hname] at hcompared
    exact ⟨hcompared, hx⟩
  · rintro ⟨hcompared, hx⟩
    let m : String × Bucket := (name, collected entry.plannedRunSeconds (rowsOf lib entry sheet name))
    have hm := (mem_first_iff (m := m)).2 ⟨hcompared, rfl⟩
    obtain ⟨breach, hbreach, hfields⟩ := (mem_breachesOf hkey).2 ⟨rfl, (hrecord m).2 hx⟩
    exact ⟨breach, ⟨_, ⟨_, hm, rfl⟩, hbreach⟩, hfields⟩

/-- How the alarm of a station agrees with its exact factor: it is compared where the exact value is beyond the
bound, rounding does not bring the value back to the bound, and does not take it there. -/
structure Agrees (plan : Option Binary64) (members : List (String × Readings)) (name key : String) (side : Side)
    (b : ℚ) : Prop where
  compared : ExactBeyond plan (readingsOf name members) key side b → Compared plan members name
  kept : ExactBeyond plan (readingsOf name members) key side b →
    RoundedBeyond plan (readingsOf name members) key side b
  earned : Compared plan members name → RoundedBeyond plan (readingsOf name members) key side b →
    ExactBeyond plan (readingsOf name members) key side b

/-- A press that ran 84996 of 100000 planned seconds. -/
def slowSheet : Sheet := ⟨[shiftRow 100000 84996 1000 990], false, by decide⟩

theorem slow_facts :
    ∃ (config : Config) (entry : Entry) (a : Andon) (bounds : Bounds),
      oeeConfig shiftLibrary (shiftEngine slowSheet) = .ok config ∧
      resolveRegister shiftLibrary (shiftEngine slowSheet) = .ok entry ∧
      (shiftEngine slowSheet).read entry.register entry.range = .ok slowSheet ∧
      andon shiftLibrary (shiftEngine slowSheet) 50 = .ok a ∧
      config.thresholds.lookup "availability" = some bounds ∧
      (bounds.get .below).bind Binary64.value? = some 85 ∧ a.breaches = [] ∧
      (exactInputs entry.plannedRunSeconds (rowsOf shiftLibrary entry slowSheet "press")).value
        "availability" = some (84996 / 100000) := by
  have hrun : (do
      let config ← oeeConfig shiftLibrary (shiftEngine slowSheet)
      let entry ← resolveRegister shiftLibrary (shiftEngine slowSheet)
      let a ← andon shiftLibrary (shiftEngine slowSheet) 50
      pure ((config.thresholds.lookup "availability").bind fun bounds =>
          (bounds.get .below).bind Binary64.value?, a.breaches,
        (exactInputs entry.plannedRunSeconds (rowsOf shiftLibrary entry slowSheet "press")).value
          "availability")) =
      Except.ok (some 85, [], some (84996 / 100000)) := by
    decide +kernel
  obtain ⟨config, hconfig, hrun⟩ := bind_eq_ok.1 hrun
  obtain ⟨entry, hentry, hrun⟩ := bind_eq_ok.1 hrun
  obtain ⟨a, ha, hrun⟩ := bind_eq_ok.1 hrun
  have hfacts := pure_eq_ok.1 hrun
  rw [Prod.mk.injEq, Prod.mk.injEq] at hfacts
  obtain ⟨hbound, hbreaches, hvalue⟩ := hfacts
  obtain ⟨bounds, hkey, hbound⟩ := Option.bind_eq_some_iff.1 hbound
  exact ⟨config, entry, a, bounds, hconfig, hentry, rfl, ha, hkey, hbound, hbreaches, hvalue⟩

end AgentPlatform.Oee
