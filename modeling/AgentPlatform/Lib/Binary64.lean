import Mathlib.Algebra.Order.Field.Power
import Mathlib.Data.Int.Log
import Mathlib.Data.Rat.Floor
import Mathlib.Tactic.FieldSimp
import Mathlib.Tactic.Linarith
import Mathlib.Tactic.NormNum
import Mathlib.Tactic.Positivity
import Mathlib.Tactic.Ring

/-!
# Binary64 numbers

A finite double is a rational number that fits: it is its own rounding, and smaller than `2 ^ 1024` in
absolute value. The two zeros are one number.

`nearest q` rounds a rational to the nearest multiple of the unit around it, a tie to the even multiple,
as if exponents had no upper bound; `ofRat` adds the overflow. Every `k * 2 ^ e` with `|k| ≤ 2 ^ 53` and
`-1074 ≤ e` is its own rounding (`nearest_of_dyadic`), so the integers up to `2 ^ 53` are exact
(`nearest_intCast`), and two integers that round to one double are both at least that large
(`le_abs_of_nearest_eq`).
-/

/-- The nearest integer; of two, the even one. -/
def roundEven (q : ℚ) : ℤ :=
  if q - ⌊q⌋ < 1 / 2 then ⌊q⌋
  else if 1 / 2 < q - ⌊q⌋ then ⌊q⌋ + 1
  else if ⌊q⌋ % 2 = 0 then ⌊q⌋ else ⌊q⌋ + 1

theorem abs_roundEven_sub_le (q : ℚ) : |(roundEven q : ℚ) - q| ≤ 1 / 2 := by
  have hlow := Int.floor_le q
  have hhigh := Int.lt_floor_add_one q
  unfold roundEven
  split_ifs <;> push_cast <;> rw [abs_le] <;> constructor <;> linarith

@[simp] theorem roundEven_intCast (n : ℤ) : roundEven n = n := by
  simp [roundEven]

theorem floor_le_roundEven (q : ℚ) : ⌊q⌋ ≤ roundEven q := by
  unfold roundEven
  split_ifs <;> omega

theorem roundEven_le_floor_add_one (q : ℚ) : roundEven q ≤ ⌊q⌋ + 1 := by
  unfold roundEven
  split_ifs <;> omega

variable {n : ℤ} {q : ℚ}

theorem le_roundEven (h : (n : ℚ) ≤ q) : n ≤ roundEven q :=
  (Int.le_floor.2 h).trans (floor_le_roundEven q)

theorem roundEven_le (h : q ≤ n) : roundEven q ≤ n := by
  rcases h.lt_or_eq with h | rfl
  · have hfloor : ⌊q⌋ < n := Int.floor_lt.2 h
    have := roundEven_le_floor_add_one q
    omega
  · rw [roundEven_intCast]

theorem roundEven_mono {r : ℚ} (h : q ≤ r) : roundEven q ≤ roundEven r := by
  rcases (Int.floor_le_floor h).lt_or_eq with hlt | heq
  · have := roundEven_le_floor_add_one q
    have := floor_le_roundEven r
    omega
  · unfold roundEven
    rw [heq]
    split_ifs <;> first | omega | linarith

@[simp] theorem roundEven_neg (q : ℚ) : roundEven (-q) = -roundEven q := by
  by_cases hint : (⌊q⌋ : ℚ) = q
  · rw [← hint, ← Int.cast_neg, roundEven_intCast, roundEven_intCast]
  · have hfloor : ⌊-q⌋ = -⌊q⌋ - 1 := by
      have hlow : (⌊q⌋ : ℚ) < q := lt_of_le_of_ne (Int.floor_le q) hint
      have hhigh := Int.lt_floor_add_one q
      rw [Int.floor_eq_iff]
      push_cast
      constructor <;> linarith
    unfold roundEven
    rw [hfloor]
    push_cast
    split_ifs <;> first | omega | (exfalso; linarith)

theorem abs_roundEven_le (h : |q| ≤ n) : |roundEven q| ≤ n := by
  rw [abs_le] at h ⊢
  exact ⟨le_roundEven (by push_cast; exact h.1), roundEven_le h.2⟩

theorem le_abs_roundEven (h : (n : ℚ) ≤ |q|) : n ≤ |roundEven q| := by
  rw [le_abs] at h ⊢
  rcases h with h | h
  · exact .inl (le_roundEven h)
  · have : roundEven q ≤ -n := roundEven_le (by push_cast; linarith)
    exact .inr (by omega)

namespace Binary64

/-- `2 ^ e`. -/
def pow2 (e : ℤ) : ℚ := if 0 ≤ e then 2 ^ e.toNat else 1 / 2 ^ (-e).toNat

theorem pow2_eq (e : ℤ) : pow2 e = (2 : ℚ) ^ e := by
  unfold pow2
  split_ifs with h
  · rw [← zpow_natCast, Int.toNat_of_nonneg h]
  · rw [one_div, ← zpow_natCast, ← zpow_neg, Int.toNat_of_nonneg (by omega), neg_neg]

theorem pow2_pos (e : ℤ) : 0 < pow2 e := by
  rw [pow2_eq]
  positivity

theorem pow2_add (d e : ℤ) : pow2 (d + e) = pow2 d * pow2 e := by
  simp only [pow2_eq]
  exact zpow_add₀ two_ne_zero d e

variable {e : ℤ}

theorem pow2_le {d : ℤ} (h : d ≤ e) : pow2 d ≤ pow2 e := by
  simp only [pow2_eq]
  exact zpow_le_zpow_right₀ one_le_two h

theorem pow2_eq_intCast (h : 0 ≤ e) : pow2 e = ((2 ^ e.toNat : ℤ) : ℚ) := by
  rw [pow2, if_pos h]
  push_cast
  rfl

/-- The exponent of the unit around `q`. -/
def unitExp (q : ℚ) : ℤ := max (Int.log 2 |q| - 52) (-1074)

/-- The rounding of `q`, without a largest exponent. -/
def nearest (q : ℚ) : ℚ := roundEven (q / pow2 (unitExp q)) * pow2 (unitExp q)

theorem abs_lt_pow2_log (q : ℚ) : |q| < pow2 (Int.log 2 |q| + 1) := by
  rw [pow2_eq]
  exact_mod_cast Int.lt_zpow_succ_log_self one_lt_two |q|

variable {q : ℚ}

theorem pow2_log_le (h : q ≠ 0) : pow2 (Int.log 2 |q|) ≤ |q| := by
  rw [pow2_eq]
  exact_mod_cast Int.zpow_log_le_self one_lt_two (abs_pos.2 h)

theorem abs_div_unit_le (q : ℚ) : |q / pow2 (unitExp q)| ≤ ((2 ^ 53 : ℤ) : ℚ) := by
  have hpos := pow2_pos (unitExp q)
  rw [abs_div, abs_of_pos hpos, div_le_iff₀ hpos]
  calc |q| ≤ pow2 (Int.log 2 |q| + 1) := (abs_lt_pow2_log q).le
    _ ≤ pow2 (53 + unitExp q) := pow2_le (by unfold unitExp; omega)
    _ = ((2 ^ 53 : ℤ) : ℚ) * pow2 (unitExp q) := by rw [pow2_add, pow2_eq_intCast (by omega)]; rfl

theorem abs_nearest_sub_le (q : ℚ) : |nearest q - q| ≤ pow2 (unitExp q) / 2 := by
  have hpos := pow2_pos (unitExp q)
  have hround := abs_roundEven_sub_le (q / pow2 (unitExp q))
  have hscale : nearest q - q =
      ((roundEven (q / pow2 (unitExp q)) : ℚ) - q / pow2 (unitExp q)) * pow2 (unitExp q) := by
    unfold nearest
    field_simp
  rw [hscale, abs_mul, abs_of_pos hpos]
  nlinarith

/-- A number of at most 53 binary digits is its own rounding. -/
theorem nearest_of_dyadic {k : ℤ} (hk : |k| ≤ 2 ^ 53) (he : -1074 ≤ e) (hq : q = k * pow2 e) :
    nearest q = q := by
  have hint : ∀ n : ℤ, q = n * pow2 (unitExp q) → nearest q = q := by
    intro n hn
    have hdiv : q / pow2 (unitExp q) = n := by
      rw [div_eq_iff (pow2_pos _).ne']
      exact hn
    rw [nearest, hdiv, roundEven_intCast]
    exact hn.symm
  have hkq : (|k| : ℚ) ≤ 2 ^ 53 := by exact_mod_cast hk
  have habs : |q| = |(k : ℚ)| * pow2 e := by rw [hq, abs_mul, abs_of_pos (pow2_pos e)]
  rcases eq_or_ne q 0 with h0 | h0
  · exact hint 0 (by rw [h0]; simp)
  by_cases hunit : unitExp q ≤ e
  -- the unit divides `2 ^ e`
  · refine hint (k * 2 ^ (e - unitExp q).toNat) ?_
    have hsplit : pow2 e = pow2 (e - unitExp q) * pow2 (unitExp q) := by
      rw [← pow2_add]
      congr 1
      omega
    calc q = k * (pow2 (e - unitExp q) * pow2 (unitExp q)) := by rw [← hsplit, ← hq]
      _ = _ := by rw [pow2_eq_intCast (by omega)]; push_cast; ring
  -- otherwise `|q| = 2 ^ (53 + e)`
  · have hlog : 53 + e ≤ Int.log 2 |q| := by
      unfold unitExp at hunit
      omega
    have hle : pow2 53 * pow2 e ≤ |q| := by
      rw [← pow2_add]
      exact (pow2_le hlog).trans (pow2_log_le h0)
    have hkabs : |(k : ℚ)| = 2 ^ 53 := by
      refine le_antisymm hkq ?_
      rw [habs] at hle
      have := le_of_mul_le_mul_right hle (pow2_pos e)
      rwa [show pow2 53 = 2 ^ 53 from by rw [pow2_eq]; norm_num] at this
    have hexp : unitExp q = e + 1 := by
      have hq53 : |q| = pow2 (53 + e) := by
        rw [habs, hkabs, pow2_add, pow2_eq 53]
        norm_num
      have : Int.log 2 |q| = 53 + e := by
        rw [hq53, pow2_eq]
        exact_mod_cast Int.log_zpow (R := ℚ) one_lt_two (53 + e)
      unfold unitExp
      omega
    have hk53 : k = 2 ^ 53 ∨ k = -2 ^ 53 := by
      refine (abs_eq (by norm_num)).1 ?_
      exact_mod_cast hkabs
    have htwo : pow2 (e + 1) = 2 * pow2 e := by
      rw [pow2_add, pow2_eq 1]
      ring
    rcases hk53 with rfl | rfl
    · refine hint (2 ^ 52) ?_
      rw [hexp, htwo, hq]
      push_cast
      ring
    · refine hint (-2 ^ 52) ?_
      rw [hexp, htwo, hq]
      push_cast
      ring

theorem nearest_dyadic (q : ℚ) :
    ∃ k e : ℤ, |k| ≤ 2 ^ 53 ∧ -1074 ≤ e ∧ nearest q = k * pow2 e :=
  ⟨_, _, abs_roundEven_le (abs_div_unit_le q), le_max_right _ _, rfl⟩

@[simp] theorem nearest_nearest (q : ℚ) : nearest (nearest q) = nearest q := by
  obtain ⟨k, e, hk, he, hq⟩ := nearest_dyadic q
  exact nearest_of_dyadic hk he hq

theorem nearest_intCast {n : ℤ} (h : |n| ≤ 2 ^ 53) : nearest n = n :=
  nearest_of_dyadic h (by norm_num : (-1074 : ℤ) ≤ 0) (by simp [pow2])

@[simp] theorem nearest_zero : nearest 0 = 0 :=
  nearest_of_dyadic (by norm_num : |(0 : ℤ)| ≤ 2 ^ 53) le_rfl (by simp)

/-- Rounding keeps a lower bound that is a power of two. -/
theorem pow2_le_abs_nearest (he : -1074 ≤ e) (h : pow2 e ≤ |q|) : pow2 e ≤ |nearest q| := by
  have hpos := pow2_pos (unitExp q)
  have hq : q ≠ 0 := by
    rintro rfl
    rw [abs_zero] at h
    exact absurd h (pow2_pos e).not_ge
  -- the bound may be taken above the unit
  obtain ⟨d, hd, hunit, hdq⟩ : ∃ d, e ≤ d ∧ unitExp q ≤ d ∧ pow2 d ≤ |q| := by
    by_cases hunit : unitExp q ≤ e
    · exact ⟨e, le_rfl, hunit, h⟩
    · refine ⟨unitExp q, by omega, le_rfl, (pow2_le ?_).trans (pow2_log_le hq)⟩
      unfold unitExp at hunit ⊢
      omega
  have hsplit : pow2 d = ((2 ^ (d - unitExp q).toNat : ℤ) : ℚ) * pow2 (unitExp q) := by
    rw [← pow2_eq_intCast (by omega), ← pow2_add]
    congr 1
    omega
  have hquotient : ((2 ^ (d - unitExp q).toNat : ℤ) : ℚ) ≤ |q / pow2 (unitExp q)| := by
    rw [abs_div, abs_of_pos hpos, le_div_iff₀ hpos, ← hsplit]
    exact hdq
  have hround : ((2 ^ (d - unitExp q).toNat : ℤ) : ℚ) ≤ |(roundEven (q / pow2 (unitExp q)) : ℚ)| := by
    exact_mod_cast le_abs_roundEven hquotient
  calc pow2 e ≤ pow2 d := pow2_le hd
    _ ≤ |(roundEven (q / pow2 (unitExp q)) : ℚ)| * pow2 (unitExp q) := by
      rw [hsplit]
      exact mul_le_mul_of_nonneg_right hround hpos.le
    _ = |nearest q| := by rw [nearest, abs_mul, abs_of_pos hpos]

/-- Rounding keeps an upper bound that is a power of two. -/
theorem abs_nearest_le_pow2 (he : -1074 ≤ e) (h : |q| ≤ pow2 e) : |nearest q| ≤ pow2 e := by
  rcases eq_or_ne q 0 with rfl | hq
  · rw [nearest_zero, abs_zero]
    exact (pow2_pos e).le
  have hpos := pow2_pos (unitExp q)
  have hunit : unitExp q ≤ e := by
    by_contra hlt
    have hlog : e < Int.log 2 |q| := by
      unfold unitExp at hlt
      omega
    have hbig : pow2 (e + 1) ≤ pow2 e := ((pow2_le (by omega)).trans (pow2_log_le hq)).trans h
    rw [pow2_add, pow2_eq 1, zpow_one] at hbig
    linarith [pow2_pos e]
  have hsplit : pow2 e = ((2 ^ (e - unitExp q).toNat : ℤ) : ℚ) * pow2 (unitExp q) := by
    rw [← pow2_eq_intCast (by omega), ← pow2_add]
    congr 1
    omega
  have hquotient : |q / pow2 (unitExp q)| ≤ ((2 ^ (e - unitExp q).toNat : ℤ) : ℚ) := by
    rw [abs_div, abs_of_pos hpos, div_le_iff₀ hpos, ← hsplit]
    exact h
  have hround : |(roundEven (q / pow2 (unitExp q)) : ℚ)| ≤ ((2 ^ (e - unitExp q).toNat : ℤ) : ℚ) := by
    exact_mod_cast abs_roundEven_le hquotient
  rw [nearest, abs_mul, abs_of_pos hpos, hsplit]
  exact mul_le_mul_of_nonneg_right hround hpos.le

@[simp] theorem unitExp_neg (q : ℚ) : unitExp (-q) = unitExp q := by
  rw [unitExp, unitExp, abs_neg]

@[simp] theorem nearest_neg (q : ℚ) : nearest (-q) = -nearest q := by
  rw [nearest, nearest, unitExp_neg, neg_div, roundEven_neg]
  push_cast
  ring

theorem nearest_nonneg (h : 0 ≤ q) : 0 ≤ nearest q := by
  have hround : (0 : ℤ) ≤ roundEven (q / pow2 (unitExp q)) := by
    apply le_roundEven
    rw [Int.cast_zero]
    exact div_nonneg h (pow2_pos _).le
  exact mul_nonneg (by exact_mod_cast hround) (pow2_pos _).le

/-- Rounding keeps the order of numbers that are not negative. -/
theorem nearest_mono_of_nonneg {r : ℚ} (hq : 0 ≤ q) (h : q ≤ r) : nearest q ≤ nearest r := by
  rcases hq.eq_or_lt with rfl | hpos
  · rw [nearest_zero]
    exact nearest_nonneg h
  have hr : 0 < r := hpos.trans_le h
  have habs : |q| ≤ |r| := by rwa [abs_of_pos hpos, abs_of_pos hr]
  have hlog : Int.log 2 |q| ≤ Int.log 2 |r| := Int.log_mono_right (abs_pos.2 hpos.ne') habs
  by_cases hunit : unitExp q = unitExp r
  -- one unit for both
  · unfold nearest
    rw [hunit]
    have hdiv : q / pow2 (unitExp r) ≤ r / pow2 (unitExp r) :=
      div_le_div_of_nonneg_right h (pow2_pos _).le
    exact mul_le_mul_of_nonneg_right (by exact_mod_cast roundEven_mono hdiv) (pow2_pos _).le
  -- a power of two is between them
  · have hexp : -1074 ≤ Int.log 2 |r| ∧ Int.log 2 |q| + 1 ≤ Int.log 2 |r| := by
      unfold unitExp at hunit
      omega
    have hlow : |nearest q| ≤ pow2 (Int.log 2 |r|) :=
      abs_nearest_le_pow2 hexp.1 ((abs_lt_pow2_log q).le.trans (pow2_le hexp.2))
    have hhigh : pow2 (Int.log 2 |r|) ≤ |nearest r| := pow2_le_abs_nearest hexp.1 (pow2_log_le hr.ne')
    rw [abs_of_nonneg (nearest_nonneg hpos.le)] at hlow
    rw [abs_of_nonneg (nearest_nonneg hr.le)] at hhigh
    exact hlow.trans hhigh

theorem nearest_mono {r : ℚ} (h : q ≤ r) : nearest q ≤ nearest r := by
  rcases le_total 0 q with hq | hq
  · exact nearest_mono_of_nonneg hq h
  rcases le_total 0 r with hr | hr
  · have hneg : 0 ≤ nearest (-q) := nearest_nonneg (by linarith)
    rw [nearest_neg] at hneg
    linarith [nearest_nonneg hr]
  · have hneg := nearest_mono_of_nonneg (by linarith : 0 ≤ -r) (by linarith : -r ≤ -q)
    rw [nearest_neg, nearest_neg] at hneg
    linarith

/-- The error of a rounding. -/
theorem abs_nearest_sub_le_mul (q : ℚ) : |nearest q - q| ≤ |q| / 2 ^ 53 + pow2 (-1075) := by
  have herror := abs_nearest_sub_le q
  have hnonneg : 0 ≤ |q| / 2 ^ 53 := by positivity
  have htiny := pow2_pos (-1075)
  rcases le_total (Int.log 2 |q| - 52) (-1074) with hlog | hlog
  · have hunit : pow2 (unitExp q) / 2 = pow2 (-1075) := by
      rw [unitExp, max_eq_right hlog, pow2_eq, pow2_eq, show (-1075 : ℤ) = -1074 - 1 from rfl,
        zpow_sub_one₀ two_ne_zero]
      ring
    linarith
  · rcases eq_or_ne q 0 with rfl | hq
    · rw [nearest_zero]
      simp [htiny.le]
    · have hunit : pow2 (unitExp q) / 2 = pow2 (Int.log 2 |q|) / 2 ^ 53 := by
        rw [unitExp, max_eq_left hlog, pow2_eq, pow2_eq, zpow_sub₀ two_ne_zero]
        norm_num
        ring
      have hle : pow2 (Int.log 2 |q|) / 2 ^ 53 ≤ |q| / 2 ^ 53 :=
        div_le_div_of_nonneg_right (pow2_log_le hq) (by positivity)
      linarith

/-- A finite double. -/
def Fits (q : ℚ) : Prop := nearest q = q ∧ |q| < pow2 1024

theorem fits_natCast {n : ℕ} (h : n ≤ 2 ^ 53) : Fits n := by
  have hcast : ((n : ℤ) : ℚ) = n := by push_cast; rfl
  refine ⟨?_, ?_⟩
  · rw [← hcast]
    exact nearest_intCast (by rw [Nat.abs_cast]; exact_mod_cast h)
  · rw [abs_of_nonneg (Nat.cast_nonneg n), pow2_eq]
    calc (n : ℚ) ≤ 2 ^ 53 := by exact_mod_cast h
      _ < 2 ^ 1024 := pow_lt_pow_right₀ one_lt_two (by norm_num)
      _ = (2 : ℚ) ^ (1024 : ℤ) := (zpow_natCast 2 1024).symm

theorem fits_nearest (h : |nearest q| < pow2 1024) : Fits (nearest q) :=
  ⟨nearest_nearest q, h⟩

end Binary64

/-- A double, up to the sign of zero. -/
inductive Binary64
  | finite (value : ℚ) (fits : Binary64.Fits value)
  | infinite (negative : Bool)
  | nan
  deriving DecidableEq

namespace Binary64

/-- The double nearest a rational; the infinity of its sign where that is past the largest. -/
def ofRat (q : ℚ) : Binary64 :=
  if h : |nearest q| < pow2 1024 then finite (nearest q) (fits_nearest h)
  else infinite (decide (q < 0))

/-- The value of a finite double. -/
def value? : Binary64 → Option ℚ
  | finite q _ => some q
  | _ => none

/-- Comparison for equality: a NaN equals nothing. -/
def same : Binary64 → Binary64 → Bool
  | nan, _ => false
  | x, y => decide (x = y)

variable {q : ℚ}

theorem ofRat_of_fits (h : Fits q) : ofRat q = finite q h := by
  have hsmall : |nearest q| < pow2 1024 := by
    rw [h.1]
    exact h.2
  rw [ofRat, dif_pos hsmall]
  congr 1
  exact h.1

theorem nearest_of_overflow (h : ¬|nearest q| < pow2 1024) :
    if q < 0 then nearest q ≤ -pow2 1024 else pow2 1024 ≤ nearest q := by
  rw [not_lt] at h
  split_ifs with hq
  · have hneg : 0 ≤ nearest (-q) := nearest_nonneg (by linarith)
    rw [nearest_neg] at hneg
    rw [abs_of_nonpos (by linarith)] at h
    linarith
  · rwa [abs_of_nonneg (nearest_nonneg (not_lt.1 hq))] at h

/-! ### Arithmetic -/

/-- `x + y`. -/
def add : Binary64 → Binary64 → Binary64
  | finite p _, finite q _ => ofRat (p + q)
  | nan, _ | _, nan => nan
  | infinite s, infinite t => if s = t then infinite s else nan
  | infinite s, finite _ _ | finite _ _, infinite s => infinite s

/-- `x - y`. -/
def sub : Binary64 → Binary64 → Binary64
  | finite p _, finite q _ => ofRat (p - q)
  | nan, _ | _, nan => nan
  | infinite s, infinite t => if s = t then nan else infinite s
  | infinite s, finite _ _ => infinite s
  | finite _ _, infinite s => infinite !s

/-- `x * y`. -/
def mul : Binary64 → Binary64 → Binary64
  | finite p _, finite q _ => ofRat (p * q)
  | nan, _ | _, nan => nan
  | infinite s, infinite t => infinite (s != t)
  | infinite s, finite q _ | finite q _, infinite s =>
    if q = 0 then nan else infinite (s != decide (q < 0))

/-- `x / y`, for a divisor that is not zero. -/
def div : Binary64 → Binary64 → Binary64
  | finite p _, finite q _ => ofRat (p / q)
  | nan, _ | _, nan => nan
  | infinite _, infinite _ => nan
  | infinite s, finite q _ => infinite (s != decide (q < 0))
  | finite _ _, infinite _ => ofRat 0

/-- `x < y`. -/
def lt : Binary64 → Binary64 → Bool
  | finite p _, finite q _ => decide (p < q)
  | nan, _ | _, nan => false
  | infinite s, infinite t => s && !t
  | infinite s, finite _ _ => s
  | finite _ _, infinite t => !t

theorem ofRat_lt_iff {b : ℚ} {fits : Fits b} : (ofRat q).lt (finite b fits) = true ↔ nearest q < b := by
  have hb := abs_lt.1 fits.2
  unfold ofRat
  split_ifs with hsmall
  · exact decide_eq_true_iff
  · have hover := nearest_of_overflow hsmall
    by_cases hq : q < 0
    · rw [if_pos hq] at hover
      exact iff_of_true (decide_eq_true hq) (by linarith)
    · rw [if_neg hq] at hover
      exact iff_of_false (fun h => hq (of_decide_eq_true h)) (by linarith)

theorem lt_ofRat_iff {b : ℚ} {fits : Fits b} : (finite b fits).lt (ofRat q) = true ↔ b < nearest q := by
  have hb := abs_lt.1 fits.2
  unfold ofRat
  split_ifs with hsmall
  · exact decide_eq_true_iff
  · have hover := nearest_of_overflow hsmall
    by_cases hq : q < 0
    · rw [if_pos hq] at hover
      refine iff_of_false (fun h => ?_) (by linarith)
      simp [lt, hq] at h
    · rw [if_neg hq] at hover
      refine iff_of_true ?_ (by linarith)
      simp [lt, hq]

/-- `x <= y`. -/
def le (x y : Binary64) : Bool := x.lt y || x.same y

variable {p : ℚ} {hq : Fits q}

theorem finite_le_iff {hp : Fits p} : (finite p hp).le (finite q hq) = true ↔ p ≤ q := by
  simp [le, lt, same, le_iff_lt_or_eq]

/-- Rounding keeps the order, also where it overflows. -/
theorem ofRat_le_ofRat (h : p ≤ q) : (ofRat p).le (ofRat q) = true := by
  have hmono := nearest_mono h
  unfold ofRat
  split_ifs with hp hq hq
  · exact finite_le_iff.2 hmono
  · have hover := nearest_of_overflow hq
    have hlow := (abs_lt.1 hp).1
    by_cases hneg : q < 0
    · rw [if_pos hneg] at hover
      linarith
    · simp [le, lt, hneg]
  · have hover := nearest_of_overflow hp
    have hhigh := (abs_lt.1 hq).2
    by_cases hneg : p < 0
    · simp [le, lt, hneg]
    · rw [if_neg hneg] at hover
      linarith
  · by_cases hneg : p < 0
    · by_cases hq0 : q < 0 <;> simp [le, lt, same, hneg, hq0]
    · have hq0 : ¬q < 0 := by linarith
      simp [le, lt, same, hneg, hq0]

theorem infinite_le_ofRat (q : ℚ) : (infinite true).le (ofRat q) = true := by
  unfold ofRat
  split_ifs with hsmall
  · rfl
  · cases hneg : decide (q < 0) <;> simp [le, lt, same]

theorem ofRat_le_infinite (q : ℚ) : (ofRat q).le (infinite false) = true := by
  unfold ofRat
  split_ifs with hsmall
  · rfl
  · cases hneg : decide (q < 0) <;> simp [le, lt, same]

variable {x y : Binary64} {w : ℚ}

theorem add_le_add_right {hw : Fits w} (h : x.le y = true) :
    (x.add (finite w hw)).le (y.add (finite w hw)) = true := by
  cases x with
  | nan => simp [le, lt, same] at h
  | infinite s =>
    cases y with
    | nan => simp [le, lt, same] at h
    | infinite t => exact h
    | finite q hq =>
      obtain rfl : s = true := by simpa [le, lt, same] using h
      exact infinite_le_ofRat (q + w)
  | finite p hp =>
    cases y with
    | nan => simp [le, lt, same] at h
    | infinite t =>
      obtain rfl : t = false := by simpa [le, lt, same] using h
      exact ofRat_le_infinite (p + w)
    | finite q hq => exact ofRat_le_ofRat (by linarith [finite_le_iff.1 h])

theorem Fits.neg (h : Fits w) : Fits (-w) :=
  ⟨by rw [nearest_neg, h.1], by rw [abs_neg]; exact h.2⟩

theorem sub_le_sub_right {hw : Fits w} (h : x.le y = true) :
    (x.sub (finite w hw)).le (y.sub (finite w hw)) = true := by
  have hsub : ∀ z : Binary64, z.sub (finite w hw) = z.add (finite (-w) hw.neg) := fun z => by
    cases z with
    | finite p hp => exact congrArg ofRat (sub_eq_add_neg p w)
    | infinite s => rfl
    | nan => rfl
  rw [hsub, hsub]
  exact add_le_add_right h

theorem lt_of_lt_of_le {z : Binary64} (hxy : x.lt y = true) (hyz : y.le z = true) : x.lt z = true := by
  rw [le, Bool.or_eq_true] at hyz
  rcases hyz with hyz | hsame
  · cases x <;> cases y <;> cases z <;> simp_all [lt]
    linarith
  · cases y with
    | nan => cases hsame
    | infinite s => rwa [of_decide_eq_true hsame] at hxy
    | finite q hq => rwa [of_decide_eq_true hsame] at hxy

def zero : Binary64 := ofRat 0

theorem fits_zero : Fits 0 := by exact_mod_cast fits_natCast (n := 0) (by norm_num)

theorem zero_eq : zero = finite 0 fits_zero := ofRat_of_fits fits_zero

theorem zero_le_nan : zero.le nan = false := by
  rw [zero_eq]
  rfl

theorem zero_le_ofRat (h : 0 ≤ q) : zero.le (ofRat q) = true := ofRat_le_ofRat h

theorem finite_of_le (hx : zero.le x = true) (hle : x.le (finite q hq) = true) :
    ∃ p hp, x = finite p hp ∧ 0 ≤ p ∧ p ≤ q := by
  rw [zero_eq] at hx
  cases x with
  | finite p hp => exact ⟨p, hp, rfl, finite_le_iff.1 hx, finite_le_iff.1 hle⟩
  | infinite s => cases s <;> simp [le, lt, same] at hx hle
  | nan => simp [le, lt, same] at hle

theorem finite_of_not_lt (hx : zero.le x = true) (h : (finite q hq).lt x = false) :
    ∃ p hp, x = finite p hp ∧ 0 ≤ p ∧ p ≤ q := by
  have hle : x.le (finite q hq) = true := by
    cases x with
    | finite p hp => exact finite_le_iff.2 (not_lt.1 (of_decide_eq_false h))
    | infinite s => cases s <;> simp [le, lt, same, zero_eq] at hx h
    | nan => simp [le, lt, same, zero_eq] at hx
  exact finite_of_le hx hle

theorem zero_le_add (hx : zero.le x = true) (hy : zero.le y = true) : zero.le (x.add y) = true := by
  rw [zero_eq] at hx hy
  cases x with
  | nan => simp [le, lt, same] at hx
  | infinite s =>
    cases y with
    | nan => simp [le, lt, same] at hy
    | infinite t => cases s <;> cases t <;> simp [le, lt, same, add, zero_eq] at hx hy ⊢
    | finite q hq => rwa [← zero_eq] at hx
  | finite p hp =>
    cases y with
    | nan => simp [le, lt, same] at hy
    | infinite t => rwa [← zero_eq] at hy
    | finite q hq => exact zero_le_ofRat (add_nonneg (finite_le_iff.1 hx) (finite_le_iff.1 hy))

theorem div_le_one {hp : Fits p} (hpos : 0 ≤ p) (hle : p ≤ q) :
    zero.le ((finite p hp).div (finite q hq)) = true ∧ ((finite p hp).div (finite q hq)).le (ofRat 1) = true :=
  ⟨zero_le_ofRat (div_nonneg hpos (hpos.trans hle)), ofRat_le_ofRat (div_le_one_of_le₀ hle (hpos.trans hle))⟩

/-- A finite double, and nothing for the others. -/
def finite? : Binary64 → Option Binary64
  | finite q h => some (finite q h)
  | _ => none

end Binary64
