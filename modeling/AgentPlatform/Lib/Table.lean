import Mathlib.Algebra.BigOperators.Group.List.Basic
import Mathlib.Algebra.Order.BigOperators.Group.List
import Mathlib.Data.List.Count
import Mathlib.Data.List.Nodup
import Mathlib.Tactic.Abel
import Mathlib.Tactic.Common

/-!
# Tables of keyed rows

A database table is the list of its rows, in the order of their insertion.

* `Table.update p f rows` is an `UPDATE … SET f WHERE p`: rows keep their places;
* `Keyed key rows` says that no two rows share a key (`PRIMARY KEY`, `UNIQUE`);
* `Table.get key k rows` is the row with key `k`;
* `total w rows` adds up a weight over the rows, as `SELECT sum(…)` and `SELECT count(*)` do;
  `total_update_one` is the double-entry rule: updating one row changes a total by the change of
  that row's weight.
-/

namespace Table

variable {ρ κ : Type*}

/-- `UPDATE … SET f WHERE p`. -/
def update (p : ρ → Bool) (f : ρ → ρ) (rows : List ρ) : List ρ :=
  rows.map fun r => if p r then f r else r

@[simp] theorem update_nil (p : ρ → Bool) (f : ρ → ρ) : update p f [] = [] := rfl

@[simp] theorem update_cons (p : ρ → Bool) (f : ρ → ρ) (r : ρ) (rows : List ρ) :
    update p f (r :: rows) = (if p r then f r else r) :: update p f rows := rfl

variable {p : ρ → Bool} {f : ρ → ρ} {rows : List ρ} {r' : ρ}

theorem mem_update : r' ∈ update p f rows ↔ ∃ r ∈ rows, (if p r then f r else r) = r' :=
  List.mem_map

theorem update_of_none (h : ∀ r ∈ rows, p r = false) : update p f rows = rows := by
  refine (List.map_congr_left fun r hr => ?_).trans rows.map_id
  simp [h r hr]

variable {r : ρ}

theorem mem_update_of_not (hr : r ∈ rows) (hp : p r = false) : r ∈ update p f rows :=
  mem_update.2 ⟨r, hr, by simp [hp]⟩

theorem mem_update_of_pos (hr : r ∈ rows) (hp : p r = true) : f r ∈ update p f rows :=
  mem_update.2 ⟨r, hr, by simp [hp]⟩

theorem map_update {α : Type*} {g : ρ → α} (hg : ∀ r ∈ rows, p r = true → g (f r) = g r) :
    (update p f rows).map g = rows.map g := by
  simp only [update, List.map_map]
  refine List.map_congr_left fun r hr => ?_
  by_cases hp : p r = true
  · simp [hp, hg r hr hp]
  · simp [hp]

variable {q : ρ → Bool}

theorem filter_update (hpq : ∀ r ∈ rows, p r = true → q r = false) (hf : ∀ r, q (f r) = q r) :
    (update p f rows).filter q = rows.filter q := by
  induction rows with
  | nil => rfl
  | cons r rows ih =>
    rw [List.forall_mem_cons] at hpq
    rw [update_cons, List.filter_cons, List.filter_cons, ih hpq.2]
    by_cases hp : p r = true
    · simp [hp, hf, hpq.1 hp]
    · simp [hp]

theorem countP_update_le (h : ∀ r ∈ rows, p r = true → q (f r) = true → q r = true) :
    (update p f rows).countP q ≤ rows.countP q := by
  rw [update, List.countP_map]
  refine List.countP_mono_left fun r hr hq => ?_
  by_cases hp : p r = true
  · exact h r hr hp (by simpa [hp] using hq)
  · simpa [hp] using hq

theorem countP_update_le_succ (hone : rows.Pairwise fun r r' => p r = true → p r' = false) :
    (update p f rows).countP q ≤ rows.countP q + 1 := by
  induction rows with
  | nil => simp
  | cons r rows ih =>
    obtain ⟨hr, hrows⟩ := List.pairwise_cons.1 hone
    by_cases hp : p r = true
    · have hrest : update p f rows = rows := update_of_none fun x hx => hr x hx hp
      rw [update_cons, if_pos hp, hrest, List.countP_cons, List.countP_cons]
      split <;> split <;> omega
    · rw [update_cons, if_neg hp, List.countP_cons, List.countP_cons]
      have hle := ih hrows
      omega

/-! ### Keys -/

/-- No two rows share a key. -/
def Keyed (key : ρ → κ) (rows : List ρ) : Prop := (rows.map key).Nodup

@[simp] theorem keyed_nil (key : ρ → κ) : Keyed key [] := List.nodup_nil

variable {key : ρ → κ}

theorem Keyed.nodup (h : Keyed key rows) : rows.Nodup :=
  List.Nodup.of_map key h

theorem Keyed.eq_of_key (h : Keyed key rows) (hr : r ∈ rows) (hr' : r' ∈ rows) (hk : key r = key r') :
    r = r' :=
  List.inj_on_of_nodup_map h hr hr' hk

/-- A filter that only the row of a key meets. -/
theorem Keyed.filter_eq (h : Keyed key rows) (hr : r ∈ rows) (hq : ∀ r' ∈ rows, q r' = true ↔ key r' = key r) :
    rows.filter q = [r] := by
  have hall : ∀ r' ∈ rows.filter q, r' = r := by
    intro r' hr'
    obtain ⟨hmem, htrue⟩ := List.mem_filter.1 hr'
    exact h.eq_of_key hmem hr ((hq r' hmem).1 htrue)
  have hmem : r ∈ rows.filter q := List.mem_filter.2 ⟨hr, (hq r hr).2 rfl⟩
  have hnodup : (rows.filter q).Nodup := h.nodup.filter q
  rw [List.eq_replicate_of_mem hall] at hmem hnodup ⊢
  have hle := List.nodup_replicate.1 hnodup
  have hpos : (rows.filter q).length ≠ 0 := (List.mem_replicate.1 hmem).1
  obtain hone : (rows.filter q).length = 1 := by omega
  rw [hone]
  rfl

theorem Keyed.countP_le (h : Keyed key rows) {k : κ} (hq : ∀ r ∈ rows, q r = true → key r = k) :
    rows.countP q ≤ 1 := by
  classical
  have hcount : rows.countP (fun r => decide (key r = k)) = (rows.map key).count k := by
    rw [List.count_eq_countP, List.countP_map]
    exact List.countP_congr fun r _ => by simp
  calc rows.countP q
      ≤ rows.countP fun r => decide (key r = k) :=
        List.countP_mono_left fun r hr hqr => decide_eq_true (hq r hr hqr)
    _ = (rows.map key).count k := hcount
    _ ≤ 1 := List.nodup_iff_count_le_one.1 h k

theorem Keyed.countP_eq_one (h : Keyed key rows) (hr : r ∈ rows) (hself : q r = true)
    (hq : ∀ x ∈ rows, q x = true → key x = key r) : rows.countP q = 1 := by
  have hle : rows.countP q ≤ 1 := h.countP_le hq
  have hpos : 0 < rows.countP q := List.countP_pos_iff.2 ⟨r, hr, hself⟩
  omega

theorem Keyed.update (h : Keyed key rows) (hf : ∀ r, key (f r) = key r) : Keyed key (update p f rows) := by
  unfold Keyed
  rwa [map_update fun r _ _ => hf r]

theorem Keyed.eq_update (h : Keyed key rows) (hf : ∀ r, key (f r) = key r) (hr : r ∈ rows)
    (hr' : r' ∈ Table.update p f rows) (hk : key r = key r') : r' = if p r then f r else r := by
  obtain ⟨x, hx, rfl⟩ := mem_update.1 hr'
  have hkx : key (if p x then f x else x) = key x := by
    split
    · exact hf x
    · rfl
  rw [h.eq_of_key hr hx (hk.trans hkx)]

theorem Keyed.insert (h : Keyed key rows) (hr : ∀ r' ∈ rows, key r' ≠ key r) : Keyed key (rows ++ [r]) := by
  unfold Keyed at h ⊢
  rw [List.map_append, List.nodup_append]
  refine ⟨h, by simp, ?_⟩
  simpa using hr

/-- What holds of all rows before a row, as a relation of the rows in order. -/
theorem Keyed.before {pre post : List ρ} {q : ρ → Prop} (h : Keyed key (pre ++ r :: post))
    (hq : ∀ x ∈ pre, q x) : (pre ++ r :: post).Pairwise fun x y => key y = key r → q x := by
  unfold Keyed at h
  rw [List.map_append, List.map_cons, List.nodup_append, List.nodup_cons] at h
  obtain ⟨-, ⟨hpost, -⟩, hapart⟩ := h
  have hne : ∀ y ∈ post, key y ≠ key r := fun y hy hk => hpost (hk ▸ List.mem_map_of_mem hy)
  rw [List.pairwise_append, List.pairwise_cons]
  refine ⟨?_, ⟨?_, ?_⟩, ?_⟩
  · refine List.pairwise_of_forall_mem_list fun x _ y hy hk => ?_
    exact absurd hk (hapart _ (List.mem_map_of_mem hy) _ List.mem_cons_self)
  · intro y hy hk
    exact absurd hk (hne y hy)
  · exact List.pairwise_of_forall_mem_list fun x _ y hy hk => absurd hk (hne y hy)
  · intro x hx y _ _
    exact hq x hx

/-- The row with key `k`. -/
def get [DecidableEq κ] (key : ρ → κ) (k : κ) (rows : List ρ) : Option ρ :=
  rows.find? fun r => key r = k

section Get

variable [DecidableEq κ] {key : ρ → κ} {k : κ} {rows : List ρ} {r : ρ}

theorem mem_of_get (h : get key k rows = some r) : r ∈ rows := List.mem_of_find?_eq_some h

theorem key_of_get (h : get key k rows = some r) : key r = k := by
  simpa using List.find?_some h

theorem get_eq_none : get key k rows = none ↔ ∀ r ∈ rows, key r ≠ k := by
  simp [get, List.find?_eq_none]

theorem Keyed.get_eq (h : Keyed key rows) (hr : r ∈ rows) (hk : key r = k) :
    get key k rows = some r := by
  cases hg : get key k rows with
  | none => exact absurd hk (get_eq_none.1 hg r hr)
  | some r' => rw [h.eq_of_key (mem_of_get hg) hr ((key_of_get hg).trans hk.symm)]

theorem get_update_map {p : ρ → Bool} {f : ρ → ρ} (hf : ∀ r, key (f r) = key r) :
    get key k (update p f rows) = (get key k rows).map fun r => if p r then f r else r := by
  induction rows with
  | nil => rfl
  | cons r rows ih =>
    have hkey : key (if p r then f r else r) = key r := by
      split
      · exact hf r
      · rfl
    simp only [get, update_cons, List.find?_cons, hkey] at ih ⊢
    split
    · rfl
    · exact ih

theorem get_update {f : ρ → ρ} (hf : ∀ r, key (f r) = key r) (k' : κ) :
    get key k (update (fun r => key r = k') f rows) =
      if k = k' then (get key k rows).map f else get key k rows := by
  induction rows with
  | nil => simp [get]
  | cons r rows ih =>
    simp only [get, update_cons] at ih ⊢
    by_cases hk' : key r = k'
    · by_cases hk : k = k'
      · simp [hk, hk', hf]
      · have hne : ¬ k' = k := fun h => hk h.symm
        simpa [hk, hk', hf, hne] using ih
    · by_cases hr : key r = k
      · have hne : ¬ k = k' := fun h => hk' (hr.trans h)
        simp [hr, hne]
      · simpa [hk', hr] using ih

theorem get_append (r' : ρ) :
    get key k (rows ++ [r']) = (get key k rows).or (if key r' = k then some r' else none) := by
  simp only [get, List.find?_append]
  congr 1
  by_cases h : key r' = k <;> simp [h]

end Get

/-! ### Totals -/

section Total

variable {M : Type*} [AddCommGroup M]

/-- The sum of a weight over the rows. -/
def total (w : ρ → M) (rows : List ρ) : M := (rows.map w).sum

@[simp] theorem total_nil (w : ρ → M) : total w [] = 0 := rfl

@[simp] theorem total_cons (w : ρ → M) (r : ρ) (rows : List ρ) :
    total w (r :: rows) = w r + total w rows := by simp [total]

@[simp] theorem total_append (w : ρ → M) (rows rows' : List ρ) :
    total w (rows ++ rows') = total w rows + total w rows' := by simp [total]

variable {w : ρ → M} {rows : List ρ}

theorem total_update {p : ρ → Bool} {f : ρ → ρ} (h : ∀ r ∈ rows, p r = true → w (f r) = w r) :
    total w (update p f rows) = total w rows := by
  unfold total
  rw [map_update h]

/-- **Double entry.** Updating a single row changes a total by the change of that row's weight. -/
theorem total_update_one {p : ρ → Bool} {f : ρ → ρ} {r : ρ} (hn : rows.Nodup) (hr : r ∈ rows)
    (hp : ∀ x ∈ rows, p x = true ↔ x = r) : total w (update p f rows) = total w rows + (w (f r) - w r) := by
  induction rows with
  | nil => simp at hr
  | cons x rows ih =>
    obtain ⟨hx, hrows⟩ := List.nodup_cons.1 hn
    rw [update_cons, total_cons, total_cons]
    rcases List.mem_cons.1 hr with rfl | hr
    · have hrest : total w (update p f rows) = total w rows := by
        refine total_update fun y hy hpy => ?_
        exact absurd hy (by rwa [(hp y (List.mem_cons_of_mem _ hy)).1 hpy])
      rw [if_pos ((hp r List.mem_cons_self).2 rfl), hrest]
      abel
    · have hxr : ¬ p x = true := fun h => hx (by rwa [(hp x List.mem_cons_self).1 h])
      rw [if_neg hxr, ih hrows hr fun y hy => hp y (List.mem_cons_of_mem _ hy)]
      abel

theorem total_nonneg [PartialOrder M] [IsOrderedAddMonoid M] (h : ∀ r ∈ rows, 0 ≤ w r) :
    0 ≤ total w rows := by
  refine List.sum_nonneg fun x hx => ?_
  obtain ⟨r, hr, rfl⟩ := List.mem_map.1 hx
  exact h r hr

end Total

end Table
