import Mathlib.Data.List.Basic
import Mathlib.Data.Nat.Notation

/-!
# Backtracking regular expressions

What a backtracking matcher does with an expression: `ends r s` lists every way to match `r` from the cursor `s`, in the
order the matcher tries them, so its first element is the match, and the others are what the matcher falls back on when
what comes after does not match. Repetition is greedy and goes on only where it moves.

`findIter` is the search for matches that do not overlap, from left to right.

* a match only moves forward (`ends_forward`);
* a greedy run of a class of characters first takes all of them (`ends_star_cls`, `ends_upTo_cls`).
-/

namespace Regex

variable {α : Type}

inductive Re (α : Type) : Type
  | eps
  | cls (p : α → Bool)
  | seq (a b : Re α)
  | alt (a b : Re α)
  | star (a : Re α)
  /-- A group, by its number. -/
  | cap (k : ℕ) (a : Re α)
  /-- `(?!a)`. -/
  | notAhead (a : Re α)
  /-- `(?<!p)`, for a class of characters. -/
  | notBehind (p : α → Bool)
  /-- `$`: at the end, or before a last character that `p` says ends a line. -/
  | atEnd (p : α → Bool)

namespace Re

def opt (a : Re α) : Re α := alt a eps

def plus (a : Re α) : Re α := seq a (star a)

/-- `a{0,n}`. -/
def upTo (a : Re α) : ℕ → Re α
  | 0 => eps
  | n + 1 => alt (seq a (upTo a n)) eps

/-- `a{n}`. -/
def times (a : Re α) : ℕ → Re α
  | 0 => eps
  | n + 1 => seq a (times a n)

/-- One of the alternatives, the first ones first. -/
def anyOf : List (Re α) → Re α
  | [] => notAhead eps
  | [a] => a
  | a :: rest => alt a (anyOf rest)

/-- One expression after the other. -/
def all : List (Re α) → Re α
  | [] => eps
  | [a] => a
  | a :: rest => seq a (all rest)

end Re

/-- Where a matcher stands in a text: what is behind it, last character first, what is ahead, and the groups so far. -/
structure Cursor (α : Type) where
  behind : List α
  ahead : List α
  groups : List (ℕ × List α) := []

namespace Cursor

/-- The position. -/
def pos (s : Cursor α) : ℕ := s.behind.length

/-- `k` characters further. -/
def advance (s : Cursor α) (k : ℕ) : Cursor α :=
  { s with behind := (s.ahead.take k).reverse ++ s.behind, ahead := s.ahead.drop k }

/-- What was read from `s` to `t`. -/
def taken (s t : Cursor α) : List α := s.ahead.take (s.ahead.length - t.ahead.length)

/-- The text of a group. -/
def group (s : Cursor α) (k : ℕ) : Option (List α) := s.groups.lookup k

end Cursor

/-- Up to `n` steps, as many as possible first. -/
def iterate (step : Cursor α → List (Cursor α)) : ℕ → Cursor α → List (Cursor α)
  | 0, s => [s]
  | n + 1, s =>
    (step s).flatMap (fun t => if t.ahead.length < s.ahead.length then iterate step n t else []) ++ [s]

/-- The ways to match, in the order they are tried. -/
def ends : Re α → Cursor α → List (Cursor α)
  | .eps, s => [s]
  | .cls p, s =>
    match s.ahead with
    | [] => []
    | c :: _ => if p c then [s.advance 1] else []
  | .seq a b, s => (ends a s).flatMap (ends b)
  | .alt a b, s => ends a s ++ ends b s
  | .star a, s => iterate (ends a) s.ahead.length s
  | .cap k a, s => (ends a s).map fun t => { t with groups := (k, s.taken t) :: t.groups }
  | .notAhead a, s => if (ends a s).isEmpty then [s] else []
  | .notBehind p, s => if s.behind.head?.any p then [] else [s]
  | .atEnd p, s =>
    match s.ahead with
    | [] => [s]
    | [c] => if p c then [s] else []
    | _ => []

/-- The first way to match. -/
def matchAt (r : Re α) (s : Cursor α) : Option (Cursor α) := (ends r s).head?

/-- The beginning of a text. -/
def start (text : List α) : Cursor α := { behind := [], ahead := text }

/-- The matches that do not overlap, from left to right, with at most `fuel` steps. -/
def findFrom (r : Re α) : ℕ → Cursor α → List (Cursor α × Cursor α)
  | 0, _ => []
  | fuel + 1, s =>
    match matchAt r s, s.ahead with
    | some t, _ :: _ =>
      if t.ahead.length < s.ahead.length then (s, t) :: findFrom r fuel { t with groups := [] }
      else findFrom r fuel (s.advance 1)
    | none, _ :: _ => findFrom r fuel (s.advance 1)
    | _, [] => []

/-- `finditer`, for an expression that matches no empty text. -/
def findIter (r : Re α) (text : List α) : List (Cursor α × Cursor α) := findFrom r text.length (start text)

/-- `search`, as a test. -/
def searches (r : Re α) : ℕ → Cursor α → Bool
  | 0, s => !(ends r s).isEmpty
  | n + 1, s => !(ends r s).isEmpty || searches r n (s.advance 1)

/-- `fullmatch`, as a test. -/
def fullMatch (r : Re α) (text : List α) : Bool := (ends r (start text)).any fun t => t.ahead.isEmpty

/-! ### Moving forward -/

section Forward

variable {r : Re α} {p : α → Bool} {s t : Cursor α}

namespace Cursor

@[simp] theorem advance_ahead (s : Cursor α) (k : ℕ) : (s.advance k).ahead = s.ahead.drop k := rfl

@[simp] theorem advance_groups (s : Cursor α) (k : ℕ) : (s.advance k).groups = s.groups := rfl

@[simp] theorem advance_zero (s : Cursor α) : s.advance 0 = s := rfl

theorem advance_advance (s : Cursor α) (j k : ℕ) : (s.advance j).advance k = s.advance (j + k) := by
  unfold advance
  simp only [Cursor.mk.injEq, List.drop_drop, and_true]
  rw [List.take_add, List.reverse_append, List.append_assoc]

/-- The characters of a class that are next. -/
def run (p : α → Bool) (s : Cursor α) : ℕ := (s.ahead.takeWhile p).length

theorem run_advance_one {c : α} {rest : List α} (h : s.ahead = c :: rest) (hc : p c = true) :
    s.run p = (s.advance 1).run p + 1 := by
  rw [run, run, advance_ahead, h, List.takeWhile_cons_of_pos hc]
  rfl

theorem run_eq_zero {c : α} {rest : List α} (h : s.ahead = c :: rest) (hc : p c = false) : s.run p = 0 := by
  rw [run, h, List.takeWhile_cons_of_neg (by rw [hc]; exact Bool.false_ne_true)]
  rfl

end Cursor

theorem iterate_forward {step : Cursor α → List (Cursor α)} (h : ∀ s t, t ∈ step s → t.ahead <:+ s.ahead) {n : ℕ}
    (ht : t ∈ iterate step n s) : t.ahead <:+ s.ahead := by
  induction n generalizing s with
  | zero =>
    obtain rfl := List.mem_singleton.1 ht
    exact List.suffix_refl _
  | succ n ih =>
    rcases List.mem_append.1 ht with ht | ht
    · obtain ⟨u, hu, ht⟩ := List.mem_flatMap.1 ht
      split at ht
      · exact (ih ht).trans (h s u hu)
      · cases ht
    · obtain rfl := List.mem_singleton.1 ht
      exact List.suffix_refl _

theorem ends_cls_pos {c : α} {rest : List α} (h : s.ahead = c :: rest) (hc : p c = true) :
    ends (.cls p) s = [s.advance 1] := by
  obtain ⟨behind, ahead, groups⟩ := s
  subst h
  exact if_pos hc

theorem ends_cls_eq_nil (h : ∀ c ∈ s.ahead.head?, p c = false) : ends (.cls p) s = [] := by
  obtain ⟨behind, _ | ⟨c, rest⟩, groups⟩ := s
  · rfl
  · exact if_neg (by rw [h c rfl]; exact Bool.false_ne_true)

/-- A class matches the next character, or nothing. -/
theorem mem_ends_cls (h : t ∈ ends (.cls p) s) :
    ∃ c rest, s.ahead = c :: rest ∧ p c = true ∧ t = s.advance 1 := by
  cases hahead : s.ahead with
  | nil =>
    rw [ends_cls_eq_nil (by simp [hahead])] at h
    cases h
  | cons c rest =>
    cases hc : p c with
    | false =>
      rw [ends_cls_eq_nil (by simp [hahead, hc])] at h
      cases h
    | true =>
      rw [ends_cls_pos hahead hc] at h
      exact ⟨c, rest, rfl, hc, List.mem_singleton.1 h⟩

theorem eq_of_mem_ite {b : Bool} (h : t ∈ if b then [s] else []) : t = s := by
  cases b with
  | false => cases h
  | true => exact List.mem_singleton.1 h

theorem eq_of_mem_notAhead (h : t ∈ ends (.notAhead r) s) : t = s := eq_of_mem_ite h

theorem eq_of_mem_notBehind (h : t ∈ ends (.notBehind p) s) : t = s := by
  have h : t ∈ if s.behind.head?.any p then [] else [s] := h
  split at h
  · cases h
  · exact List.mem_singleton.1 h

theorem eq_of_mem_atEnd (h : t ∈ ends (.atEnd p) s) : t = s := by
  obtain ⟨behind, _ | ⟨c, _ | ⟨d, rest⟩⟩, groups⟩ := s
  · exact List.mem_singleton.1 h
  · exact eq_of_mem_ite h
  · cases h

/-- A match moves forward. -/
theorem ends_forward (h : t ∈ ends r s) : t.ahead <:+ s.ahead := by
  induction r generalizing s t with
  | eps =>
    obtain rfl := List.mem_singleton.1 h
    exact List.suffix_refl _
  | cls p =>
    obtain ⟨c, rest, -, -, rfl⟩ := mem_ends_cls h
    exact List.drop_suffix 1 _
  | seq a b iha ihb =>
    obtain ⟨u, hu, ht⟩ := List.mem_flatMap.1 h
    exact (ihb ht).trans (iha hu)
  | alt a b iha ihb => exact (List.mem_append.1 h).elim iha ihb
  | star a ih => exact iterate_forward (fun _ _ => ih) h
  | cap k a ih =>
    obtain ⟨u, hu, rfl⟩ := List.mem_map.1 h
    exact @ih s u hu
  | notAhead a _ => exact eq_of_mem_notAhead h ▸ List.suffix_refl _
  | notBehind p => exact eq_of_mem_notBehind h ▸ List.suffix_refl _
  | atEnd p => exact eq_of_mem_atEnd h ▸ List.suffix_refl _

end Forward

/-! ### Runs of a class -/

section Runs

variable {p : α → Bool} {s t : Cursor α}

/-- A greedy repetition of a class: all of a run, then one character less, down to none. -/
theorem ends_star_cls (p : α → Bool) (s : Cursor α) :
    ends (.star (.cls p)) s = (List.range (s.run p + 1)).reverse.map s.advance := by
  have hloop : ∀ n (s : Cursor α), s.run p ≤ n →
      iterate (ends (.cls p)) n s = (List.range (s.run p + 1)).reverse.map s.advance := by
    intro n
    induction n with
    | zero =>
      intro s hn
      rw [Nat.le_zero.1 hn]
      rfl
    | succ n ih =>
      intro s hn
      cases hahead : s.ahead with
      | nil =>
        have hrun : s.run p = 0 := by rw [Cursor.run, hahead]; rfl
        rw [hrun, iterate, ends_cls_eq_nil (by simp [hahead])]
        rfl
      | cons c rest =>
        cases hc : p c with
        | false =>
          rw [Cursor.run_eq_zero hahead hc, iterate, ends_cls_eq_nil (by simp [hahead, hc])]
          rfl
        | true =>
          have hrun := Cursor.run_advance_one hahead hc
          have hshort : (s.advance 1).ahead.length < s.ahead.length := by
            rw [Cursor.advance_ahead, hahead]
            simp
          have hrange : List.range ((s.advance 1).run p + 1 + 1) =
              0 :: (List.range ((s.advance 1).run p + 1)).map Nat.succ := List.range_succ_eq_map
          rw [iterate, ends_cls_pos hahead hc, List.flatMap_singleton, if_pos hshort, ih _ (by omega), hrun, hrange,
            List.reverse_cons, List.map_append, ← List.map_reverse, List.map_map]
          congr 1
          refine List.map_congr_left fun k _ => ?_
          rw [Cursor.advance_advance, Nat.add_comm 1 k]
          rfl
  exact hloop _ s (List.takeWhile_sublist p).length_le

theorem ends_plus_cls (p : α → Bool) (s : Cursor α) :
    ends (.plus (.cls p)) s = (List.range (s.run p)).reverse.map fun k => s.advance (k + 1) := by
  show (ends (.cls p) s).flatMap (ends (.star (.cls p))) = _
  cases hahead : s.ahead with
  | nil =>
    have hrun : s.run p = 0 := by rw [Cursor.run, hahead]; rfl
    rw [hrun, ends_cls_eq_nil (by simp [hahead])]
    rfl
  | cons c rest =>
    cases hc : p c with
    | false =>
      rw [Cursor.run_eq_zero hahead hc, ends_cls_eq_nil (by simp [hahead, hc])]
      rfl
    | true =>
      rw [ends_cls_pos hahead hc, List.flatMap_singleton, ends_star_cls, Cursor.run_advance_one hahead hc]
      refine List.map_congr_left fun k _ => ?_
      rw [Cursor.advance_advance, Nat.add_comm]

theorem matchAt_plus_cls (p : α → Bool) (s : Cursor α) :
    matchAt (.plus (.cls p)) s = if s.run p = 0 then none else some (s.advance (s.run p)) := by
  rw [matchAt, ends_plus_cls]
  cases s.run p with
  | zero => rfl
  | succ n => rw [List.range_succ, List.reverse_append]; rfl

/-- Bounded repetition takes characters of the run. -/
theorem mem_ends_upTo_cls {n : ℕ} (h : t ∈ ends (.upTo (.cls p) n) s) : ∃ k ≤ s.run p, t = s.advance k := by
  induction n generalizing s with
  | zero =>
    obtain rfl := List.mem_singleton.1 h
    exact ⟨0, Nat.zero_le _, rfl⟩
  | succ n ih =>
    rcases List.mem_append.1 h with h | h
    · obtain ⟨u, hu, ht⟩ := List.mem_flatMap.1 h
      obtain ⟨c, rest, hahead, hc, rfl⟩ := mem_ends_cls hu
      obtain ⟨k, hk, rfl⟩ := ih ht
      refine ⟨1 + k, ?_, Cursor.advance_advance s 1 k⟩
      rw [Cursor.run_advance_one hahead hc]
      omega
    · obtain rfl := List.mem_singleton.1 h
      exact ⟨0, Nat.zero_le _, rfl⟩

/-- Fixed repetition takes so many characters. -/
theorem mem_ends_times_cls {n : ℕ} (h : t ∈ ends (.times (.cls p) n) s) : n ≤ s.ahead.length ∧ t = s.advance n := by
  induction n generalizing s with
  | zero =>
    obtain rfl := List.mem_singleton.1 h
    exact ⟨Nat.zero_le _, rfl⟩
  | succ n ih =>
    obtain ⟨u, hu, ht⟩ := List.mem_flatMap.1 h
    obtain ⟨c, rest, hahead, -, rfl⟩ := mem_ends_cls hu
    obtain ⟨hlength, rfl⟩ := ih ht
    rw [Cursor.advance_ahead, hahead] at hlength
    refine ⟨?_, ?_⟩
    · rw [hahead]
      simpa using hlength
    · rw [Cursor.advance_advance, Nat.add_comm]

end Runs

/-! ### Searching -/

section Searching

variable {r : Re α} {p : α → Bool} {s t : Cursor α}

theorem mem_ends_of_matchAt (h : matchAt r s = some t) : t ∈ ends r s := List.mem_of_mem_head? h

theorem ends_seq_nil {a b : Re α} (h : ∀ t ∈ ends a s, ends b t = []) : ends (.seq a b) s = [] :=
  List.flatMap_eq_nil_iff.2 h

theorem ends_seq_left {a b : Re α} (h : ends a s = []) : ends (.seq a b) s = [] := by
  show (ends a s).flatMap (ends b) = []
  rw [h]
  rfl

theorem ends_all_nil {rs : List (Re α)} (h : ends r s = []) : ends (.all (r :: rs)) s = [] := by
  cases rs with
  | nil => exact h
  | cons r' rs => exact ends_seq_left h

theorem ends_anyOf_nil {rs : List (Re α)} (hne : rs ≠ []) (h : ∀ r ∈ rs, ends r s = []) : ends (.anyOf rs) s = [] := by
  induction rs with
  | nil => exact absurd rfl hne
  | cons r rs ih =>
    cases rs with
    | nil => exact h r List.mem_cons_self
    | cons r' rs =>
      have hlater := ih (List.cons_ne_nil _ _) fun r'' hr => h r'' (List.mem_cons_of_mem _ hr)
      show ends r s ++ ends (.anyOf (r' :: rs)) s = []
      rw [h r List.mem_cons_self, hlater]
      rfl

theorem findFrom_succ (r : Re α) (fuel : ℕ) (s : Cursor α) : findFrom r (fuel + 1) s =
    match matchAt r s, s.ahead with
    | some t, _ :: _ =>
      if t.ahead.length < s.ahead.length then (s, t) :: findFrom r fuel { t with groups := [] }
      else findFrom r fuel (s.advance 1)
    | none, _ :: _ => findFrom r fuel (s.advance 1)
    | _, [] => [] := rfl

theorem matchAt_of_mem_findFrom {fuel : ℕ} {u : Cursor α} (h : (s, t) ∈ findFrom r fuel u) : matchAt r s = some t := by
  induction fuel generalizing u with
  | zero => cases h
  | succ fuel ih =>
    rw [findFrom_succ] at h
    split at h
    · rename_i t' c rest hmatch hahead
      split at h
      · obtain h | h := List.mem_cons.1 h
        · obtain ⟨rfl, rfl⟩ := Prod.mk.inj h
          exact hmatch
        · exact ih h
      · exact ih h
    · exact ih h
    · cases h

theorem matchAt_of_mem_findIter {text : List α} (h : (s, t) ∈ findIter r text) : matchAt r s = some t :=
  matchAt_of_mem_findFrom h

theorem findFrom_eq_nil {fuel : ℕ} {s : Cursor α} (h : ∀ t : Cursor α, t.ahead <:+ s.ahead → matchAt r t = none) :
    findFrom r fuel s = [] := by
  induction fuel generalizing s with
  | zero => rfl
  | succ fuel ih =>
    rw [findFrom_succ, h s (List.suffix_refl _)]
    cases hahead : s.ahead with
    | nil => rfl
    | cons c rest => exact ih fun t ht => h t (ht.trans (List.drop_suffix 1 _))

/-- Words that are each ended by a character that begins no match, and are each matched as a whole, are found. -/
theorem findFrom_lines {sep : α} {words : List (List α)} (hwords : ∀ w ∈ words, w ≠ [])
    (hword : ∀ w ∈ words, ∀ (s : Cursor α) rest, s.ahead = w ++ sep :: rest →
      ∃ t, matchAt r s = some t ∧ t.ahead = sep :: rest)
    (hsep : ∀ (s : Cursor α) rest, s.ahead = sep :: rest → matchAt r s = none) {fuel : ℕ} {s : Cursor α}
    (hs : s.ahead = words.flatMap fun w => w ++ [sep]) (hfuel : s.ahead.length ≤ fuel) :
    (findFrom r fuel s).map (fun m => m.1.taken m.2) = words := by
  induction words generalizing fuel s with
  | nil =>
    cases fuel with
    | zero => rfl
    | succ fuel =>
      have hnil : s.ahead = [] := hs
      rw [findFrom_succ, hnil]
      cases matchAt r s <;> rfl
  | cons w words ih =>
    have hahead : s.ahead = w ++ sep :: words.flatMap fun w => w ++ [sep] := by
      rw [hs, List.flatMap_cons, List.append_assoc]
      rfl
    obtain ⟨t, ht, htahead⟩ := hword w List.mem_cons_self s _ hahead
    obtain ⟨c, tail, hcons⟩ := List.exists_cons_of_ne_nil (hwords w List.mem_cons_self)
    have hlength : s.ahead.length = w.length + 1 + (words.flatMap fun w => w ++ [sep]).length := by
      rw [hahead, List.length_append, List.length_cons]
      omega
    have htlength : t.ahead.length = 1 + (words.flatMap fun w => w ++ [sep]).length := by
      rw [htahead, List.length_cons]
      omega
    have hwlength : 0 < w.length := by
      rw [hcons]
      exact Nat.succ_pos _
    obtain ⟨fuel, rfl⟩ : ∃ n, fuel = n + 2 := ⟨fuel - 2, by omega⟩
    have hnext : (({ t with groups := [] } : Cursor α).advance 1).ahead = words.flatMap fun w => w ++ [sep] := by
      rw [Cursor.advance_ahead, htahead]
      rfl
    have hrest : (findFrom r fuel (({ t with groups := [] } : Cursor α).advance 1)).map
        (fun m => m.1.taken m.2) = words :=
      ih (fun w hw => hwords w (List.mem_cons_of_mem _ hw)) (fun w hw => hword w (List.mem_cons_of_mem _ hw)) hnext
        (by rw [hnext]; omega)
    have hnone := hsep { t with groups := [] } _ htahead
    have hfirst : findFrom r (fuel + 2) s =
        (s, t) :: findFrom r fuel (({ t with groups := [] } : Cursor α).advance 1) := by
      have hfound : s.ahead = c :: (tail ++ sep :: words.flatMap fun w => w ++ [sep]) := by
        rw [hahead, hcons]
        rfl
      rw [findFrom_succ, ht, hfound]
      show (if t.ahead.length < (c :: _ : List α).length then _ else _) = _
      rw [if_pos (by rw [← hfound]; omega), findFrom_succ, hnone, htahead]
    rw [hfirst, List.map_cons, hrest]
    congr 1
    rw [Cursor.taken, hlength, htlength, hahead,
      show w.length + 1 + (words.flatMap fun w => w ++ [sep]).length -
        (1 + (words.flatMap fun w => w ++ [sep]).length) = w.length by omega, List.take_left]

end Searching

end Regex
