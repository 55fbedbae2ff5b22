import Mathlib.Tactic.Common

/-!
# Splitting at separators

`List.splitOnP p` cuts a list at the elements that meet `p`; the pieces are what lies between.

* no separator is in a piece (`pieces_free`);
* two or more pieces show the first separator (`splitOnP_cons_cons`), one piece is the list itself
  (`splitOnP_eq_one`);
* pieces that are each ended by a separator are what a list begins with (`splitOnP_ended`);
* replacing what is no separator by what has none replaces it in each piece (`splitOnP_flatMap`).
-/

namespace Split

variable {α β : Type*} {p : α → Bool} {xs piece : List α} {pieces : List (List α)}

theorem pieces_free (p : α → Bool) (xs : List α) : ∀ piece ∈ xs.splitOnP p, ∀ x ∈ piece, p x = false := by
  induction xs with
  | nil => simp
  | cons x xs ih =>
    rw [List.splitOnP_cons_eq_if_modifyHead]
    split
    · simpa using ih
    · rename_i hx
      cases hpieces : xs.splitOnP p with
      | nil => exact absurd hpieces (List.splitOnP_ne_nil p xs)
      | cons head rest =>
        rw [hpieces, List.forall_mem_cons] at ih
        rw [List.modifyHead_cons, List.forall_mem_cons, List.forall_mem_cons]
        exact ⟨⟨by simpa using hx, ih.1⟩, ih.2⟩

/-- Two or more pieces: the first, a separator, and what the others are the pieces of. -/
theorem splitOnP_cons_cons {second : List α} (h : xs.splitOnP p = piece :: second :: pieces) :
    ∃ sep rest, xs = piece ++ sep :: rest ∧ p sep = true ∧ rest.splitOnP p = second :: pieces := by
  induction xs generalizing piece with
  | nil => cases h
  | cons x xs ih =>
    rw [List.splitOnP_cons_eq_if_modifyHead] at h
    split at h
    · rename_i hx
      obtain ⟨rfl, hrest⟩ := List.cons.inj h
      exact ⟨x, xs, rfl, hx, hrest⟩
    · obtain ⟨head, rest, heq⟩ := List.exists_cons_of_ne_nil (List.splitOnP_ne_nil p xs)
      rw [heq, List.modifyHead_cons] at h
      obtain ⟨rfl, rfl⟩ := List.cons.inj h
      obtain ⟨sep, rest, rfl, hsep, hrest⟩ := ih heq
      exact ⟨sep, rest, rfl, hsep, hrest⟩

theorem splitOnP_eq_one (h : xs.splitOnP p = [piece]) : xs = piece := by
  induction xs generalizing piece with
  | nil => exact (List.cons.inj h).1
  | cons x xs ih =>
    rw [List.splitOnP_cons_eq_if_modifyHead] at h
    split at h
    · exact absurd (List.cons.inj h).2 (List.splitOnP_ne_nil p xs)
    · obtain ⟨head, rest, heq⟩ := List.exists_cons_of_ne_nil (List.splitOnP_ne_nil p xs)
      rw [heq, List.modifyHead_cons] at h
      obtain ⟨rfl, rfl⟩ := List.cons.inj h
      rw [ih heq]

theorem splitOnP_ended {sep : α} (hsep : p sep = true)
    (h : ∀ piece ∈ pieces, ∀ x ∈ piece, p x = false) (rest : List α) :
    (pieces.flatMap (fun piece => piece ++ [sep]) ++ rest).splitOnP p = pieces ++ rest.splitOnP p := by
  induction pieces with
  | nil => rfl
  | cons piece pieces ih =>
    have hrest := ih fun l hl => h l (List.mem_cons_of_mem _ hl)
    simp only [List.flatMap_cons, List.append_assoc, List.cons_append, List.nil_append]
    rw [List.splitOnP_append_cons_of_forall_mem (h piece List.mem_cons_self) sep hsep, hrest]

theorem splitOnP_append {piece : List α} (h : ∀ x ∈ piece, p x = false) (rest : List α) :
    (piece ++ rest).splitOnP p = (rest.splitOnP p).modifyHead (piece ++ ·) := by
  induction piece with
  | nil =>
    obtain ⟨head, others, heq⟩ := List.exists_cons_of_ne_nil (List.splitOnP_ne_nil p rest)
    rw [List.nil_append, heq]
    rfl
  | cons x piece ih =>
    rw [List.cons_append, List.splitOnP_cons_eq_if_modifyHead, if_neg (by simp [h x List.mem_cons_self]),
      ih fun y hy => h y (List.mem_cons_of_mem x hy)]
    cases rest.splitOnP p <;> rfl

/-- Replacing the elements between the separators replaces them in each piece. -/
theorem splitOnP_flatMap {q : β → Bool} {f : α → List β} (hsep : ∀ x, p x = true → ∃ y, f x = [y] ∧ q y = true)
    {xs : List α}
    (hother : ∀ x ∈ xs, p x = false → ∀ y ∈ f x, q y = false) :
    (xs.flatMap f).splitOnP q = (xs.splitOnP p).map fun piece => piece.flatMap f := by
  induction xs with
  | nil => rfl
  | cons x xs ih =>
    specialize ih fun y hy => hother y (List.mem_cons_of_mem x hy)
    rw [List.flatMap_cons, List.splitOnP_cons_eq_if_modifyHead]
    split_ifs with hx
    · obtain ⟨y, hy, hq⟩ := hsep x hx
      rw [hy, List.singleton_append, List.splitOnP_cons_eq_if_modifyHead, if_pos hq, ih]
      rfl
    · rw [splitOnP_append (hother x List.mem_cons_self (by simpa using hx)), ih]
      cases xs.splitOnP p <;> rfl

/-- Three pieces. -/
theorem splitOnP_eq_three {a b c : List α} :
    xs.splitOnP p = [a, b, c] ↔ (∃ sep sep', p sep = true ∧ p sep' = true ∧
      xs = a ++ sep :: b ++ sep' :: c) ∧ ∀ piece ∈ [a, b, c], ∀ x ∈ piece, p x = false := by
  constructor
  · intro h
    obtain ⟨sep, rest, hxs, hsep, hrest⟩ := splitOnP_cons_cons h
    obtain ⟨sep', rest', hrest', hsep', hlast⟩ := splitOnP_cons_cons hrest
    have hlast' := splitOnP_eq_one hlast
    refine ⟨⟨sep, sep', hsep, hsep', by simp [hxs, hrest', hlast']⟩, fun piece hpiece => ?_⟩
    exact pieces_free p xs piece (h ▸ hpiece)
  · rintro ⟨⟨sep, sep', hsep, hsep', rfl⟩, hfree⟩
    have hc : c.splitOnP p = [c] := List.splitOnP_eq_singleton (hfree c (by simp))
    rw [List.append_assoc, List.cons_append,
      List.splitOnP_append_cons_of_forall_mem (hfree a (by simp)) sep hsep,
      List.splitOnP_append_cons_of_forall_mem (hfree b (by simp)) sep' hsep', hc]

end Split
