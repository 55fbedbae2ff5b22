import Mathlib.Data.List.Basic

/-!
# Counting the elements of a list that a filter keeps

What the elements that a filter drops, or that stand behind the first ones, add to a count or to a loop.
-/

namespace List

variable {α σ : Type*} {p q : α → Bool} {l : List α} {n : ℕ} {a : α}

theorem countP_filter_eq_iff :
    (l.filter q).countP p = l.countP p ↔ ∀ a ∈ l, q a = false → p a = false := by
  induction l with
  | nil => simp
  | cons a l ih =>
    have hle : (l.filter q).countP p ≤ l.countP p := List.filter_sublist.countP_le
    rw [List.forall_mem_cons, ← ih, List.countP_cons]
    cases hq : q a with
    | true =>
      rw [List.filter_cons_of_pos hq, List.countP_cons]
      simp
    | false =>
      rw [List.filter_cons_of_neg (by simp [hq])]
      cases hp : p a with
      | true =>
        simp only [if_true, forall_const, Bool.true_eq_false, false_and, iff_false]
        omega
      | false => simp

theorem foldl_filter_of_forall {f : σ → α → σ} {s : σ} (h : ∀ a ∈ l, q a = false → ∀ s, f s a = s) :
    (l.filter q).foldl f s = l.foldl f s := by
  induction l generalizing s with
  | nil => rfl
  | cons a l ih =>
    rw [List.forall_mem_cons] at h
    rw [List.foldl_cons]
    cases hq : q a with
    | true => rw [List.filter_cons_of_pos hq, List.foldl_cons, ih h.2]
    | false => rw [List.filter_cons_of_neg (by simp [hq]), ih h.2, h.1 hq]

theorem foldl_counts (f : σ → α → σ) (c : σ → ℕ) (p : α → Bool) {s : σ}
    (h : ∀ s a, c (f s a) = c s + if p a then 1 else 0) : c (l.foldl f s) = c s + l.countP p := by
  induction l generalizing s with
  | nil => rfl
  | cons a l ih =>
    rw [List.foldl_cons, ih, h, List.countP_cons]
    omega

theorem countP_take_iff :
    ((l.take n).countP p = l.countP p ∧ ((l.take n).countP fun a => !p a) = l.countP fun a => !p a) ↔
      l.length ≤ n := by
  constructor
  · rintro ⟨hp, hn⟩
    have hall := List.length_eq_countP_add_countP p (l := l)
    have htaken := List.length_eq_countP_add_countP p (l := l.take n)
    have hsame : (l.take n).length = l.length := by
      rw [htaken, hall, hp]
      simpa using hn
    rw [List.length_take] at hsame
    omega
  · intro h
    rw [List.take_of_length_le h]
    exact ⟨rfl, rfl⟩

/-- Of the elements with a property, an element is among the first ones when fewer stand before it. -/
theorem mem_take_filter_iff :
    a ∈ (l.filter p).take n ↔
      p a = true ∧ ∃ before after, l = before ++ a :: after ∧ (before.filter p).length < n := by
  constructor
  · intro ha
    obtain ⟨i, hi, rfl⟩ := List.mem_take_iff_getElem.1 ha
    have hlt : i < (l.filter p).length := Nat.lt_of_lt_of_le hi (Nat.min_le_right _ _)
    obtain ⟨before, after, hl, hbefore, hafter⟩ := List.filter_eq_append_iff.1
      (List.take_append_drop i (l.filter p)).symm
    rw [List.drop_eq_getElem_cons hlt] at hafter
    obtain ⟨skipped, rest, rfl, hskipped, ha, -⟩ := List.filter_eq_cons_iff.1 hafter
    refine ⟨ha, before ++ skipped, rest, hl.trans (List.append_assoc ..).symm, ?_⟩
    have hnone : skipped.filter p = [] := List.filter_eq_nil_iff.2 hskipped
    rw [List.filter_append, hnone, List.append_nil, hbefore, List.length_take]
    omega
  · rintro ⟨ha, before, after, rfl, hlt⟩
    rw [List.filter_append, List.filter_cons_of_pos ha, List.take_append]
    obtain ⟨k, hk⟩ : ∃ k, n - (before.filter p).length = k + 1 := ⟨n - (before.filter p).length - 1, by omega⟩
    rw [hk]
    exact List.mem_append_right _ List.mem_cons_self

end List
