import Mathlib.Data.List.DropRight
import Mathlib.Data.List.Enum
import Mathlib.Tactic.Common

/-!
# Numbered windows of a log

A log that numbers its entries from one on and keeps only the last of them.

* `numbered xs` pairs every entry with its number;
* `window n xs` is what remains of it when only the last `n` entries are kept;
* `window_append` is one more entry: it takes the next number, and what is `n` numbers behind goes;
* `lastNumber_window` says that the largest number in the window is the length of the whole log, so the
  next number can be read off what was kept.
-/

namespace Window

variable {α : Type*} {n : ℕ} {xs : List α}

/-- The entries with their numbers. -/
def numbered (xs : List α) : List (α × ℕ) := xs.zipIdx 1

/-- The last `n` entries with their numbers. -/
def window (n : ℕ) (xs : List α) : List (α × ℕ) := (numbered xs).rtake n

/-- The largest number of some entries, zero where there is none. -/
def lastNumber (rows : List (α × ℕ)) : ℕ := (rows.map Prod.snd).foldr max 0

theorem numbered_append (xs : List α) (x : α) :
    numbered (xs ++ [x]) = numbered xs ++ [(x, xs.length + 1)] := by
  simp [numbered, List.zipIdx_append, Nat.add_comm]

theorem numbered_pairwise (xs : List α) : (numbered xs).Pairwise fun r r' => r.2 < r'.2 := by
  induction xs using List.reverseRecOn with
  | nil => exact .nil
  | append_singleton xs x ih =>
    rw [numbered_append, List.pairwise_append]
    refine ⟨ih, List.pairwise_singleton _ _, ?_⟩
    intro r hr r' hr'
    obtain rfl := List.mem_singleton.1 hr'
    have hlt := (List.mem_zipIdx hr).2.1
    omega

theorem zipIdx_filter (xs : List α) (k m : ℕ) :
    (xs.zipIdx k).filter (fun r => decide (k + m ≤ r.2)) = (xs.zipIdx k).drop m := by
  induction xs generalizing k m with
  | nil => simp
  | cons x xs ih =>
    rw [List.zipIdx_cons]
    cases m with
    | zero =>
      rw [List.drop_zero, List.filter_eq_self]
      intro r hr
      rcases List.mem_cons.1 hr with rfl | hr
      · simp
      · have hle := (List.mem_zipIdx hr).1
        exact decide_eq_true (by omega)
    | succ m =>
      rw [List.filter_cons_of_neg (by simp), List.drop_succ_cons, ← ih (k + 1) m]
      exact List.filter_congr fun r _ => decide_eq_decide.2 (by omega)

theorem window_eq (n : ℕ) (xs : List α) :
    window n xs = (numbered xs).filter fun r => decide (xs.length < r.2 + n) := by
  have hdrop : window n xs = (xs.zipIdx 1).drop (xs.length - n) := by
    simp [window, numbered, List.rtake]
  rw [hdrop, ← zipIdx_filter xs 1 (xs.length - n)]
  refine List.filter_congr fun r hr => decide_eq_decide.2 ?_
  have hle := (List.mem_zipIdx hr).1
  omega

/-- **One more entry.** It takes the next number, and what is `n` numbers behind goes. -/
theorem window_append (n : ℕ) (xs : List α) (x : α) :
    window n (xs ++ [x]) =
      (window n xs ++ [(x, xs.length + 1)]).filter fun r => !decide (r.2 + n ≤ xs.length + 1) := by
  rw [window_eq, window_eq, numbered_append, List.filter_append, List.filter_append,
    List.filter_filter]
  congr 1
  · refine List.filter_congr fun r _ => ?_
    rw [Bool.eq_iff_iff]
    simp only [List.length_append, List.length_singleton, decide_eq_true_eq, Bool.and_eq_true,
      Bool.not_eq_true', decide_eq_false_iff_not]
    omega
  · refine List.filter_congr fun r hr => ?_
    obtain rfl := List.mem_singleton.1 hr
    rw [Bool.eq_iff_iff]
    simp only [List.length_append, List.length_singleton, decide_eq_true_eq, Bool.not_eq_true',
      decide_eq_false_iff_not]
    omega

theorem window_pairwise (n : ℕ) (xs : List α) : (window n xs).Pairwise fun r r' => r.2 < r'.2 := by
  rw [window_eq]
  exact (numbered_pairwise xs).filter _

theorem lastNumber_append (rows rows' : List (α × ℕ)) :
    lastNumber (rows ++ rows') = max (lastNumber rows) (lastNumber rows') := by
  induction rows with
  | nil => simp [lastNumber]
  | cons r rows ih =>
    simp only [lastNumber, List.cons_append, List.map_cons, List.foldr_cons] at ih ⊢
    rw [ih, max_assoc]

theorem lastNumber_le {rows : List (α × ℕ)} {m : ℕ} (h : ∀ r ∈ rows, r.2 ≤ m) :
    lastNumber rows ≤ m := by
  induction rows with
  | nil => exact Nat.zero_le m
  | cons r rows ih =>
    obtain ⟨hr, hrows⟩ := List.forall_mem_cons.1 h
    exact max_le hr (ih hrows)

theorem lastNumber_window (hn : 0 < n) (xs : List α) : lastNumber (window n xs) = xs.length := by
  refine Nat.le_antisymm (lastNumber_le fun r hr => ?_) ?_
  · rw [window_eq] at hr
    have hlt := (List.mem_zipIdx (List.mem_filter.1 hr).1).2.1
    omega
  · rcases List.eq_nil_or_concat xs with rfl | ⟨ys, y, rfl⟩
    · exact Nat.zero_le _
    · rw [List.concat_eq_append, window_eq, numbered_append, List.filter_append, lastNumber_append]
      refine Nat.le_trans ?_ (Nat.le_max_right _ _)
      simp [lastNumber, hn]

end Window
