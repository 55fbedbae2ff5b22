import Mathlib.Data.List.Forall2
import Mathlib.Tactic.Common

/-!
# Fallible transactions

A transaction that may raise is a function into `Except E α`: `ensure c e` goes on only under the
condition `c` and raises `e` otherwise. The lemmas peel a successful run of a `do` block apart, one
statement at a time: what each guard checked and what each call returned.

`commit` is the rollback rule: a state changes only when the transaction returns.
-/

namespace Outcome

variable {E α β σ : Type}

/-- Go on only under `c`; raise `e` otherwise. -/
def ensure (c : Prop) [Decidable c] (e : E) : Except E Unit :=
  if c then .ok () else .error e

@[simp] theorem ensure_eq_ok {c : Prop} [Decidable c] {e : E} {u : Unit} :
    ensure c e = .ok u ↔ c := by
  unfold ensure
  split <;> simp_all

variable {x : Except E α} {f : α → Except E β}

theorem bind_eq_ok {b : β} : (x >>= f) = .ok b ↔ ∃ a, x = .ok a ∧ f a = .ok b := by
  cases x with
  | ok a => simp [bind, Except.bind]
  | error e => simp [bind, Except.bind]

variable {e : E}

theorem bind_eq_error : (x >>= f) = .error e ↔ x = .error e ∨ ∃ a, x = .ok a ∧ f a = .error e := by
  cases x with
  | ok a => simp [bind, Except.bind]
  | error e' => simp [bind, Except.bind]

theorem ensure_eq_error {c : Prop} [Decidable c] {e' : E} : ensure c e = .error e' ↔ ¬c ∧ e = e' := by
  unfold ensure
  split <;> simp_all

theorem map_eq_ok {f : α → β} {b : β} : x.map f = .ok b ↔ ∃ a, x = .ok a ∧ f a = b := by
  cases x <;> simp [Except.map]

theorem exists_unit {p : Unit → Prop} : (∃ a, p a) ↔ p () :=
  ⟨fun ⟨_, h⟩ => h, fun h => ⟨(), h⟩⟩

theorem pure_eq_ok {a b : α} : (pure a : Except E α) = .ok b ↔ a = b := by
  simp [pure, Except.pure]

@[simp] theorem throw_ne_ok {e : E} {a : α} : (throw e : Except E α) ≠ .ok a := by
  simp [throw, throwThe, MonadExceptOf.throw]

/-- `x`, or `e` raised when there is none. -/
def need (x : Option α) (e : E) : Except E α :=
  match x with
  | some a => .ok a
  | none => .error e

@[simp] theorem need_eq_ok {x : Option α} {e : E} {a : α} : need x e = .ok a ↔ x = some a := by
  cases x <;> simp [need]

theorem need_eq_error {x : Option α} {e' : E} : need x e = .error e' ↔ x = none ∧ e = e' := by
  cases x <;> simp [need]

variable {xs : List α}

theorem mapM_eq_ok {ys : List β} : xs.mapM f = .ok ys ↔ List.Forall₂ (fun x y => f x = .ok y) xs ys := by
  induction xs generalizing ys with
  | nil =>
    rw [List.mapM_nil, pure_eq_ok, List.forall₂_nil_left_iff]
    exact eq_comm
  | cons x xs ih =>
    simp only [List.mapM_cons, bind_eq_ok, pure_eq_ok, ih]
    constructor
    · rintro ⟨y, hy, ys, hys, rfl⟩
      exact .cons hy hys
    · rintro (_ | ⟨hy, hys⟩)
      exact ⟨_, hy, _, hys, rfl⟩

theorem mapM_ok_iff : (∃ ys, xs.mapM f = .ok ys) ↔ ∀ x ∈ xs, ∃ y, f x = .ok y := by
  simp only [mapM_eq_ok]
  induction xs with
  | nil => simp
  | cons x xs ih =>
    rw [List.forall_mem_cons, ← ih]
    constructor
    · rintro ⟨_, _ | ⟨hx, hxs⟩⟩
      exact ⟨⟨_, hx⟩, _, hxs⟩
    · rintro ⟨⟨y, hy⟩, ys, hys⟩
      exact ⟨y :: ys, .cons hy hys⟩

theorem mapError_eq_ok {E' : Type} {f : E → E'} {a : α} : x.mapError f = .ok a ↔ x = .ok a := by
  cases x <;> simp [Except.mapError]

theorem exists_of_mem_right {R : α → β → Prop} {ys : List β} (h : List.Forall₂ R xs ys) {y : β} (hy : y ∈ ys) :
    ∃ x ∈ xs, R x y := by
  induction h with
  | nil => cases hy
  | cons hR _ ih =>
    rcases List.mem_cons.1 hy with rfl | hy
    · exact ⟨_, List.mem_cons_self, hR⟩
    · obtain ⟨x, hx, hR'⟩ := ih hy
      exact ⟨x, List.mem_cons_of_mem _ hx, hR'⟩

theorem forM_eq_ok {f : α → Except E Unit} {u : Unit} : xs.forM f = .ok u ↔ ∀ x ∈ xs, f x = .ok () := by
  induction xs with
  | nil => simp [pure_eq_ok]
  | cons x xs ih =>
    change (f x >>= fun _ => xs.forM f) = .ok u ↔ _
    rw [bind_eq_ok, exists_unit, ih, List.forall_mem_cons]

theorem foldlM_induct {f : σ → α → Except E σ} {I : σ → Prop} {s t : σ} (h : xs.foldlM f s = .ok t) (hs : I s)
    (hstep : ∀ s t, ∀ x ∈ xs, I s → f s x = .ok t → I t) : I t := by
  induction xs generalizing s with
  | nil =>
    obtain rfl := pure_eq_ok.1 h
    exact hs
  | cons x xs ih =>
    rw [List.foldlM_cons, bind_eq_ok] at h
    obtain ⟨s₁, hfirst, h⟩ := h
    refine ih h (hstep s s₁ x List.mem_cons_self hs hfirst) fun s t y hy => ?_
    exact hstep s t y (List.mem_cons_of_mem _ hy)

/-- The state after a transaction: its own when it returns, the old one when it raises. -/
def commit (s : σ) (x : Except E (σ × α)) : σ :=
  match x with
  | .ok (t, _) => t
  | .error _ => s

@[simp] theorem commit_ok {s t : σ} {a : α} : commit s (.ok (t, a) : Except E (σ × α)) = t := rfl

@[simp] theorem commit_error {s : σ} {e : E} : commit s (.error e : Except E (σ × α)) = s := rfl

theorem commit_keeps {p : σ → Prop} {s : σ} {x : Except E (σ × α)} (hs : p s)
    (h : ∀ t a, x = .ok (t, a) → p t) : p (commit s x) := by
  cases x with
  | ok ta => exact h ta.1 ta.2 rfl
  | error e => exact hs

end Outcome
