import Mathlib.Data.List.TakeWhile
import Mathlib.Data.Rat.Lemmas
import Mathlib.Tactic.Common
import Mathlib.Tactic.NormNum

/-!
# Decimal texts

A sign, decimal digits, and more digits after a separator: `read` splits such a text and `value` is the
number it denotes. The text of an integer denotes that integer (`read_toString`).
-/

/-- A decimal number as it is written. -/
structure Decimal where
  negative : Bool
  whole : List Char
  fraction : List Char
  deriving DecidableEq

namespace Decimal

/-- The number without its sign. -/
def magnitude (d : Decimal) : ℚ :=
  Nat.ofDigitChars 10 d.whole 0 + Nat.ofDigitChars 10 d.fraction 0 / 10 ^ d.fraction.length

/-- The number. -/
def value (d : Decimal) : ℚ := if d.negative then -d.magnitude else d.magnitude

/-- The digits before the separator and after it. -/
def unsigned (separator : Char → Bool) (text : List Char) : Option (List Char × List Char) :=
  let whole := text.takeWhile Char.isDigit
  match text.dropWhile Char.isDigit with
  | [] => if whole = [] then none else some (whole, [])
  | c :: fraction =>
    if whole ≠ [] ∧ separator c = true ∧ fraction ≠ [] ∧ fraction.all Char.isDigit = true then
      some (whole, fraction)
    else none

/-- `-?[0-9]+(?:[…][0-9]+)?`. -/
def read (separator : Char → Bool) : List Char → Option Decimal
  | '-' :: text => (unsigned separator text).map fun p => ⟨true, p.1, p.2⟩
  | text => (unsigned separator text).map fun p => ⟨false, p.1, p.2⟩

variable {separator : Char → Bool} {text : List Char}

theorem unsigned_digits (hne : text ≠ []) (h : ∀ c ∈ text, c.isDigit = true) :
    unsigned separator text = some (text, []) := by
  have htake : text.takeWhile Char.isDigit = text := List.takeWhile_eq_self_iff.2 h
  have hdrop : text.dropWhile Char.isDigit = [] := List.dropWhile_eq_nil_iff.2 h
  simp [unsigned, htake, hdrop, hne]

theorem mem_of_unsigned {p : List Char × List Char} (h : unsigned separator text = some p) {c : Char}
    (hc : c ∈ text) : c.isDigit = true ∨ separator c = true := by
  rw [← List.takeWhile_append_dropWhile (p := Char.isDigit) (l := text), List.mem_append] at hc
  rcases hc with hc | hc
  · exact .inl (List.mem_takeWhile_imp hc)
  · unfold unsigned at h
    dsimp only at h
    split at h
    · rename_i hdrop
      rw [hdrop] at hc
      cases hc
    · rename_i d fraction hdrop
      split at h
      · rename_i hshape
        rw [hdrop, List.mem_cons] at hc
        rcases hc with rfl | hc
        · exact .inr hshape.2.1
        · exact .inl (List.all_eq_true.1 hshape.2.2.2 c hc)
      · cases h

theorem mem_of_read {d : Decimal} (h : read separator text = some d) {c : Char} (hc : c ∈ text) :
    c = '-' ∨ c.isDigit = true ∨ separator c = true := by
  unfold read at h
  split at h
  · obtain ⟨p, hp, -⟩ := Option.map_eq_some_iff.1 h
    rcases List.mem_cons.1 hc with rfl | hc
    · exact .inl rfl
    · exact .inr (mem_of_unsigned hp hc)
  · obtain ⟨p, hp, -⟩ := Option.map_eq_some_iff.1 h
    exact .inr (mem_of_unsigned hp hc)

theorem unsigned_toDigits (n : ℕ) :
    unsigned separator (Nat.toDigits 10 n) = some (Nat.toDigits 10 n, []) :=
  unsigned_digits Nat.toDigits_ne_nil fun _ hc =>
    Nat.isDigit_of_mem_toDigits (by decide) (by decide) hc

theorem read_of_isDigit (hne : text ≠ []) (h : ∀ c ∈ text, c.isDigit = true) :
    read separator text = some ⟨false, text, []⟩ := by
  unfold read
  split
  · have := h '-' List.mem_cons_self
    contradiction
  · rw [unsigned_digits hne h]
    rfl

/-- The text of an integer denotes it. -/
theorem read_toString (n : ℤ) : (read separator (toString n).toList).map value = some (n : ℚ) := by
  have hdigits : ∀ m : ℕ, ∀ c ∈ Nat.toDigits 10 m, c.isDigit = true := fun m _ hc =>
    Nat.isDigit_of_mem_toDigits (by decide) (by decide) hc
  have hvalue : ∀ m : ℕ, Nat.ofDigitChars 10 (Nat.toDigits 10 m) 0 = m := fun _ =>
    Nat.ofDigitChars_ten_toDigits
  rw [Int.toString_eq_repr, Int.repr_eq_if]
  split
  · rename_i hn
    rw [Nat.toList_repr, read_of_isDigit Nat.toDigits_ne_nil (hdigits _)]
    have hcast : ((n.toNat : ℕ) : ℚ) = n := by exact_mod_cast Int.toNat_of_nonneg hn
    simp [value, magnitude, hvalue, hcast]
  · rename_i hn
    rw [String.toList_append, Nat.toList_repr]
    change ((unsigned separator (Nat.toDigits 10 (-n).toNat)).map _).map value = _
    rw [unsigned_toDigits]
    have hcast : (((-n).toNat : ℕ) : ℚ) = -n := by exact_mod_cast Int.toNat_of_nonneg (by omega)
    simp [value, magnitude, hvalue, hcast]

end Decimal
