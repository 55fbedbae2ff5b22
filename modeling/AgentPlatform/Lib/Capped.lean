import Mathlib.Data.List.Basic
import Mathlib.Data.List.Nodup
import Mathlib.Tactic.Common

/-!
# Bounded answers

A loop that fills an answer up to a limit and stops when it has to refuse an item: `capped` takes every item,
`pick` each distinct one. Both return the first `limit` items and whether one more was refused (`capped_eq`,
`pick_eq`).
-/

namespace Capped

variable {α : Type*} {limit : ℕ} {taken xs ys : List α} {x : α}

/-- Items up to a limit, and whether one was refused. -/
def capped (limit : ℕ) (taken : List α) : List α → List α × Bool
  | [] => (taken, false)
  | x :: xs => if limit ≤ taken.length then (taken, true) else capped limit (taken ++ [x]) xs

theorem capped_eq (h : taken.length ≤ limit) :
    capped limit taken xs = ((taken ++ xs).take limit, decide (limit < (taken ++ xs).length)) := by
  induction xs generalizing taken with
  | nil => simp [capped, h, List.take_of_length_le]
  | cons x xs ih =>
    unfold capped
    split
    · rename_i hfull
      have heq : limit = taken.length := by omega
      simp [heq]
    · rename_i hroom
      rw [ih (by rw [List.length_append, List.length_singleton]; omega), List.append_assoc]
      rfl

theorem capped_nil : capped limit [] xs = (xs.take limit, decide (limit < xs.length)) :=
  capped_eq (Nat.zero_le limit)

variable [DecidableEq α]

/-- The list with the new items after it, in the order in which they first come. -/
def extend (taken xs : List α) : List α :=
  xs.foldl (fun taken x => if x ∈ taken then taken else taken ++ [x]) taken

/-- The distinct items. -/
def distinct (xs : List α) : List α := extend [] xs

@[simp] theorem extend_nil : extend taken [] = taken := rfl

theorem extend_cons :
    extend taken (x :: xs) = extend (if x ∈ taken then taken else taken ++ [x]) xs := rfl

theorem extend_append : extend taken (xs ++ ys) = extend (extend taken xs) ys :=
  List.foldl_append

theorem prefix_extend : taken <+: extend taken xs := by
  induction xs generalizing taken with
  | nil => exact List.prefix_rfl
  | cons x xs ih =>
    rw [extend_cons]
    split
    · exact ih
    · exact (List.prefix_append taken [x]).trans ih

theorem mem_extend : x ∈ extend taken xs ↔ x ∈ taken ∨ x ∈ xs := by
  induction xs generalizing taken with
  | nil => simp
  | cons y xs ih =>
    rw [extend_cons, ih]
    split <;> simp only [List.mem_append, List.mem_cons, List.not_mem_nil, or_false] <;> grind

theorem mem_distinct : x ∈ distinct xs ↔ x ∈ xs := by
  rw [distinct, mem_extend]
  simp

theorem nodup_extend (h : taken.Nodup) : (extend taken xs).Nodup := by
  induction xs generalizing taken with
  | nil => exact h
  | cons x xs ih =>
    rw [extend_cons]
    split
    · exact ih h
    · rename_i hnew
      refine ih (List.nodup_append.2 ⟨h, List.nodup_singleton x, ?_⟩)
      rintro a ha b hb rfl
      exact hnew (List.mem_singleton.1 hb ▸ ha)

theorem nodup_distinct : (distinct xs).Nodup := nodup_extend List.nodup_nil

theorem extend_of_nodup (h : (taken ++ xs).Nodup) : extend taken xs = taken ++ xs := by
  induction xs generalizing taken with
  | nil => simp
  | cons x xs ih =>
    have hsplit : taken ++ x :: xs = (taken ++ [x]) ++ xs := by simp
    have hnew : x ∉ taken := fun hx =>
      (List.nodup_append.1 h).2.2 x hx x List.mem_cons_self rfl
    rw [extend_cons, if_neg hnew, hsplit]
    exact ih (hsplit ▸ h)

theorem distinct_of_nodup (h : xs.Nodup) : distinct xs = xs := by
  have happend : ([] ++ xs).Nodup := h
  exact extend_of_nodup happend

/-- Distinct items up to a limit, and whether one was refused. -/
def pick (limit : ℕ) (taken : List α) : List α → List α × Bool
  | [] => (taken, false)
  | x :: xs =>
    if x ∈ taken then pick limit taken xs
    else if limit ≤ taken.length then (taken, true)
    else pick limit (taken ++ [x]) xs

theorem pick_eq (h : taken.length ≤ limit) :
    pick limit taken xs =
      ((extend taken xs).take limit, decide (limit < (extend taken xs).length)) := by
  induction xs generalizing taken with
  | nil => rw [pick, extend_nil, List.take_of_length_le h, decide_eq_false (by omega)]
  | cons x xs ih =>
    unfold pick
    rw [extend_cons]
    split
    · exact ih h
    · split
      · rename_i hfull
        obtain ⟨rest, hrest⟩ : taken ++ [x] <+: extend (taken ++ [x]) xs := prefix_extend
        have heq : limit = taken.length := by omega
        rw [← hrest]
        simp [heq]
      · rename_i hroom
        exact ih (by rw [List.length_append, List.length_singleton]; omega)

omit [DecidableEq α] in
/-- Everything is among the first `limit` exactly when there are no more than `limit`. -/
theorem forall_mem_take_iff (h : xs.Nodup) : (∀ x ∈ xs, x ∈ xs.take limit) ↔ xs.length ≤ limit := by
  constructor
  · intro hall
    by_contra hlong
    have hlt : limit < xs.length := Nat.not_le.1 hlong
    have hmem := hall xs[limit] (List.getElem_mem hlt)
    obtain ⟨i, hi, heq⟩ := List.mem_take_iff_getElem.1 hmem
    have : i = limit := (h.getElem_inj_iff).1 heq
    omega
  · intro hle x hx
    rwa [List.take_of_length_le hle]

end Capped
