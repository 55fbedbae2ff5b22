import Mathlib.Data.List.Basic
import Mathlib.Tactic.Common

/-!
# Anchored patterns

What `re.match` accepts for a pattern `^…$`. In Python `$` stands at the end of the text and also before a
line break at the end, so the pattern accepts a text of its shape and the same text with a line break after
it; `fullmatch` accepts the shape only.
-/

namespace Pattern

/-- One character of a class, and at most `most` of another. -/
def run (first rest : Char → Bool) (most : ℕ) : List Char → Bool
  | [] => false
  | c :: cs => first c && decide (cs.length ≤ most) && cs.all rest

/-- `re.match('^…$', text)`, for the shape between the anchors. -/
def anchored (shape : List Char → Bool) (text : List Char) : Bool :=
  shape text || (text.getLast? == some '\n' && shape text.dropLast)

variable {shape : List Char → Bool} {text : List Char}

theorem anchored_of_shape (h : shape text = true) : anchored shape text = true := by
  rw [anchored, h, Bool.true_or]

theorem anchored_append_newline (h : shape text = true) : anchored shape (text ++ ['\n']) = true := by
  simp [anchored, h]

theorem anchored_iff :
    anchored shape text = true ↔ shape text = true ∨ ∃ t, text = t ++ ['\n'] ∧ shape t = true := by
  constructor
  · intro h
    rw [anchored, Bool.or_eq_true, Bool.and_eq_true, beq_iff_eq] at h
    rcases h with h | ⟨hlast, h⟩
    · exact .inl h
    · exact .inr ⟨_, (List.dropLast_append_getLast? _ hlast).symm, h⟩
  · rintro (h | ⟨t, rfl, h⟩)
    · exact anchored_of_shape h
    · exact anchored_append_newline h

theorem run_iff {first rest : Char → Bool} {most : ℕ} :
    run first rest most text = true ↔
      ∃ c cs, text = c :: cs ∧ first c = true ∧ cs.length ≤ most ∧ ∀ d ∈ cs, rest d = true := by
  cases text with
  | nil => simp [run]
  | cons c cs => simp [run, and_assoc]

end Pattern
