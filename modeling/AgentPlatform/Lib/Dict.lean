import Mathlib.Data.List.Nodup
import Mathlib.Tactic.Common

/-!
# Dictionaries in the order of insertion

A dictionary is the list of its members; `List.lookup` reads it. `Dict.modify k f` writes at `k` what `f`
makes of the value there: in its place, or at the end where there is none.

A loop that modifies one key for each element collects the elements of a key (`lookup_foldl_modify`). Its keys
are there once (`nodup_keys_foldl_modify`), and two such dictionaries that read the same are rearrangements of
each other (`perm_of_lookup_eq`).
-/

namespace Dict

variable {κ β : Type*} [DecidableEq κ]

/-- `d[k] = f(d.get(k))`. -/
def modify (k : κ) (f : Option β → β) : List (κ × β) → List (κ × β)
  | [] => [(k, f none)]
  | (k', b) :: d => if k' = k then (k', f (some b)) :: d else (k', b) :: modify k f d

variable {k k' : κ} {f : Option β → β} {d : List (κ × β)}

theorem modify_cons (m : κ × β) : modify k f (m :: d) =
    if m.1 = k then (m.1, f (some m.2)) :: d else m :: modify k f d := rfl

@[simp] theorem lookup_modify_self : (modify k f d).lookup k = some (f (d.lookup k)) := by
  induction d with
  | nil => simp [show modify k f [] = [(k, f none)] from rfl]
  | cons m d ih =>
    obtain ⟨k', b⟩ := m
    by_cases h : k' = k
    · simp [modify_cons, h]
    · have hne : (k == k') = false := by simpa using Ne.symm h
      simp [modify_cons, h, hne, List.lookup_cons, ih]

theorem lookup_modify_of_ne (h : k' ≠ k) : (modify k f d).lookup k' = d.lookup k' := by
  induction d with
  | nil =>
    have hne : (k' == k) = false := by simpa using h
    simp [show modify k f [] = [(k, f none)] from rfl, List.lookup_cons, hne]
  | cons m d ih =>
    obtain ⟨j, b⟩ := m
    by_cases hj : j = k
    · have hne : (k' == k) = false := by simpa using h
      simp [modify_cons, hj, List.lookup_cons, hne]
    · simp [modify_cons, hj, List.lookup_cons, ih]

theorem keys_modify :
    (modify k f d).map Prod.fst =
      if k ∈ d.map Prod.fst then d.map Prod.fst else d.map Prod.fst ++ [k] := by
  induction d with
  | nil => rfl
  | cons m d ih =>
    obtain ⟨j, b⟩ := m
    by_cases hj : j = k
    · simp [modify_cons, hj]
    · have hkj : ¬k = j := fun h => hj h.symm
      simp only [modify_cons, hj, if_false, List.map_cons, ih, List.mem_cons, hkj, false_or]
      split_ifs <;> rfl

theorem nodup_keys_modify (h : (d.map Prod.fst).Nodup) : ((modify k f d).map Prod.fst).Nodup := by
  rw [keys_modify]
  split_ifs with hk
  · exact h
  · rw [List.nodup_append]
    refine ⟨h, List.nodup_singleton k, ?_⟩
    rintro a ha b hb rfl
    exact hk (List.mem_singleton.1 hb ▸ ha)

theorem forall_modify {P : κ → β → Prop} (hd : ∀ m ∈ d, P m.1 m.2)
    (h : ∀ old : Option β, (∀ b ∈ old, P k b) → P k (f old)) : ∀ m ∈ modify k f d, P m.1 m.2 := by
  induction d with
  | nil =>
    intro m hm
    obtain rfl := List.mem_singleton.1 hm
    exact h none fun b hb => by cases hb
  | cons m d ih =>
    rw [List.forall_mem_cons] at hd
    rw [modify_cons]
    split_ifs with hk
    · rw [List.forall_mem_cons]
      refine ⟨?_, hd.2⟩
      rw [hk] at hd ⊢
      exact h _ fun b hb => by cases hb; exact hd.1
    · rw [List.forall_mem_cons]
      exact ⟨hd.1, ih hd.2⟩

/-! ### Collecting by a key -/

variable {α : Type*} {key : α → κ} {g : α → Option β → β} {xs : List α}

theorem lookup_foldl_modify :
    (xs.foldl (fun d x => modify (key x) (g x) d) d).lookup k =
      (xs.filter fun x => key x = k).foldl (fun b x => some (g x b)) (d.lookup k) := by
  induction xs generalizing d with
  | nil => rfl
  | cons x xs ih =>
    rw [List.foldl_cons, ih]
    by_cases h : key x = k
    · rw [List.filter_cons_of_pos (by simpa using h), List.foldl_cons, ← h, lookup_modify_self]
    · rw [List.filter_cons_of_neg (by simpa using h), lookup_modify_of_ne fun hk => h hk.symm]

theorem nodup_keys_foldl_modify (h : (d.map Prod.fst).Nodup) :
    ((xs.foldl (fun d x => modify (key x) (g x) d) d).map Prod.fst).Nodup := by
  induction xs generalizing d with
  | nil => exact h
  | cons x xs ih => exact ih (nodup_keys_modify h)

theorem mem_keys_foldl_modify :
    k ∈ (xs.foldl (fun d x => modify (key x) (g x) d) d).map Prod.fst ↔
      k ∈ d.map Prod.fst ∨ ∃ x ∈ xs, key x = k := by
  induction xs generalizing d with
  | nil => simp
  | cons x xs ih =>
    rw [List.foldl_cons, ih, keys_modify]
    by_cases h : key x ∈ d.map Prod.fst
    · rw [if_pos h]
      grind
    · rw [if_neg h]
      grind

theorem forall_foldl_modify {P : κ → β → Prop} (hd : ∀ m ∈ d, P m.1 m.2)
    (h : ∀ x ∈ xs, ∀ old : Option β, (∀ b ∈ old, P (key x) b) → P (key x) (g x old)) :
    ∀ m ∈ xs.foldl (fun d x => modify (key x) (g x) d) d, P m.1 m.2 := by
  induction xs generalizing d with
  | nil => exact hd
  | cons x xs ih =>
    refine ih (forall_modify hd (h x List.mem_cons_self)) fun y hy => ?_
    exact h y (List.mem_cons_of_mem _ hy)

theorem mem_iff_lookup (h : (d.map Prod.fst).Nodup) {b : β} : (k, b) ∈ d ↔ d.lookup k = some b := by
  induction d with
  | nil => simp
  | cons m d ih =>
    obtain ⟨j, c⟩ := m
    rw [List.map_cons, List.nodup_cons] at h
    rw [List.mem_cons, Prod.mk.injEq, List.lookup_cons]
    by_cases hk : k = j
    · have hnot : (k, b) ∉ d := fun hmem => h.1 (hk ▸ List.mem_map.2 ⟨(k, b), hmem, rfl⟩)
      simp [hk ▸ hnot, hk, eq_comm]
    · have hne : (k == j) = false := by simpa using hk
      simp [hne, hk, ih h.2]

/-- A loop that folds each element into the value of its key, from `e` where there is none, has at a key what the
elements with it fold to. -/
theorem lookup_foldl_getD {take : β → α → β} {e : β} :
    (xs.foldl (fun d x => modify (key x) (fun b => take (b.getD e) x) d) []).lookup k =
      if (xs.filter fun x => key x = k) = [] then none
      else some ((xs.filter fun x => key x = k).foldl take e) := by
  have hsome : ∀ (ys : List α) (b : β),
      ys.foldl (fun o y => some (take (o.getD e) y)) (some b) = some (ys.foldl take b) := by
    intro ys
    induction ys with
    | nil => exact fun b => rfl
    | cons y ys ih => exact fun b => ih (take b y)
  rw [lookup_foldl_modify]
  cases xs.filter fun x => key x = k with
  | nil => rfl
  | cons y ys =>
    rw [if_neg (List.cons_ne_nil _ _), List.foldl_cons, List.foldl_cons]
    exact hsome ys _

theorem mem_foldl_getD {take : β → α → β} {e b : β} :
    (k, b) ∈ xs.foldl (fun d x => modify (key x) (fun b => take (b.getD e) x) d) [] ↔
      (∃ x ∈ xs, key x = k) ∧ b = (xs.filter fun x => key x = k).foldl take e := by
  have hnodup : (([] : List (κ × β)).map Prod.fst).Nodup := List.nodup_nil
  rw [mem_iff_lookup (nodup_keys_foldl_modify hnodup), lookup_foldl_getD]
  split_ifs with hnil
  · rw [List.filter_eq_nil_iff] at hnil
    simpa using fun x hx hk => absurd hk (by simpa using hnil x hx)
  · rw [List.filter_eq_nil_iff] at hnil
    have hmem : ∃ x ∈ xs, key x = k := by simpa using hnil
    rw [Option.some.injEq]
    exact ⟨fun h => ⟨hmem, h.symm⟩, fun h => h.2.symm⟩

theorem perm_of_lookup_eq {d' : List (κ × β)} (h : (d.map Prod.fst).Nodup) (h' : (d'.map Prod.fst).Nodup)
    (heq : ∀ k, d.lookup k = d'.lookup k) : d.Perm d' := by
  rw [List.perm_ext_iff_of_nodup (List.Nodup.of_map _ h) (List.Nodup.of_map _ h')]
  rintro ⟨k, b⟩
  rw [mem_iff_lookup h, mem_iff_lookup h', heq]

end Dict
