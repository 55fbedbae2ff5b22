import Mathlib.Data.List.Perm.Basic
import Mathlib.Tactic.Common

/-!
# Folds in any order

`AnyOrder f s xs`: the fold of a list gives the same over every rearrangement of it. Over the cells of a
column, that is over every rearrangement of the rows (`anyOrder_filterMap_iff`): each order of the cells is
the order of some arrangement of the rows (`exists_perm_filterMap`). The last element is the same in any
order exactly where all elements are equal (`getLast?_anyOrder_iff`).
-/

variable {α β σ : Type*}

/-- The fold does not depend on the order. -/
def AnyOrder (f : σ → α → σ) (s : σ) (xs : List α) : Prop :=
  ∀ ys : List α, ys.Perm xs → ys.foldl f s = xs.foldl f s

namespace AnyOrder

variable {g : β → Option α} {xs : List α} {rows : List β}

/-- An order of the cells comes from an order of the rows. -/
theorem exists_perm_filterMap (h : xs.Perm (rows.filterMap g)) :
    ∃ rows' : List β, rows'.Perm rows ∧ rows'.filterMap g = xs := by
  induction xs generalizing rows with
  | nil => exact ⟨rows, .refl _, List.nil_perm.1 h⟩
  | cons x xs ih =>
    obtain ⟨row, hrow, hx⟩ := List.mem_filterMap.1 (h.subset List.mem_cons_self)
    obtain ⟨before, after, rfl⟩ := List.append_of_mem hrow
    have hrest : xs.Perm ((before ++ after).filterMap g) := by
      have hmiddle : (x :: xs).Perm (x :: (before ++ after).filterMap g) := by
        refine h.trans ?_
        rw [List.filterMap_append, List.filterMap_cons_some hx, List.filterMap_append]
        exact List.perm_middle
      exact hmiddle.cons_inv
    obtain ⟨rows', hperm, hcells⟩ := ih hrest
    refine ⟨row :: rows', (hperm.cons row).trans List.perm_middle.symm, ?_⟩
    rw [List.filterMap_cons_some hx, hcells]

theorem anyOrder_filterMap_iff {f : σ → α → σ} {s : σ} :
    AnyOrder f s (rows.filterMap g) ↔ ∀ rows' : List β, rows'.Perm rows →
      (rows'.filterMap g).foldl f s = (rows.filterMap g).foldl f s := by
  constructor
  · intro h rows' hperm
    exact h _ (hperm.filterMap g)
  · intro h ys hys
    obtain ⟨rows', hperm, rfl⟩ := exists_perm_filterMap hys
    exact h rows' hperm

/-- The last element is the same in any order where all are equal. -/
theorem getLast?_anyOrder_iff :
    (∀ ys : List α, ys.Perm xs → ys.getLast? = xs.getLast?) ↔ ∀ x ∈ xs, ∀ y ∈ xs, x = y := by
  constructor
  · intro h
    have hlast : ∀ x ∈ xs, xs.getLast? = some x := by
      intro x hx
      obtain ⟨before, after, rfl⟩ := List.append_of_mem hx
      have hperm : (before ++ after ++ [x]).Perm (before ++ x :: after) := by
        rw [List.append_assoc]
        exact (List.perm_append_singleton x after).append_left before
      rw [← h _ hperm, List.getLast?_append_of_ne_nil]
      · rfl
      · exact List.cons_ne_nil _ _
    intro x hx y hy
    exact Option.some.inj ((hlast x hx).symm.trans (hlast y hy))
  · intro h ys hys
    cases hlast : xs.getLast? with
    | none =>
      rw [List.getLast?_eq_none_iff] at hlast ⊢
      rw [hlast] at hys
      exact hys.eq_nil
    | some x =>
      have hx := List.mem_of_getLast? hlast
      cases hlast' : ys.getLast? with
      | none =>
        rw [List.getLast?_eq_none_iff] at hlast'
        rw [hlast'] at hys
        rw [← hys.nil_eq] at hx
        cases hx
      | some y =>
        rw [h y (hys.subset (List.mem_of_getLast? hlast')) x hx]

end AnyOrder
