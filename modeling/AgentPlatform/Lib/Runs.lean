import Mathlib.Data.List.Basic
import Mathlib.Data.List.Count
import Mathlib.Data.List.Nodup
import Mathlib.Tactic.Common

/-!
# Runs of labelled transition systems

A system is a relation `step : σ → ε → σ → Prop`: from a state, under a label, to a state.

* `Run step s₀ τs s` is a finite run from `s₀` to `s` through the transitions `τs`, oldest first;
  since the labels name who acts, every interleaving of several parties is one run;
* `Run.invariant` is the induction rule of an inductive invariant, `Run.always` its form for every
  transition of the run;
* `guarded ok step` keeps the steps whose source and label meet `ok`: a property of all runs of
  `guarded ok step` is a property of the runs of `step` whose steps all meet the condition;
* `Run.past` is about every past transition and the state reached by now, `Run.pairwise` about every two
  transitions;
* `Run.countP_le_one` counts the transitions that make a stable predicate true: at most one.
-/

namespace Runs

variable {σ ε : Type*}

/-- One transition of a run. -/
structure Transition (σ ε : Type*) where
  src : σ
  label : ε
  dst : σ

/-- Finite runs of `step` from `s₀`, with their transitions in order. -/
inductive Run (step : σ → ε → σ → Prop) (s₀ : σ) : List (Transition σ ε) → σ → Prop
  | nil : Run step s₀ [] s₀
  | snoc {τs : List (Transition σ ε)} {s t : σ} {e : ε} :
      Run step s₀ τs s → step s e t → Run step s₀ (τs ++ [⟨s, e, t⟩]) t

/-- The steps whose source and label meet `ok`. -/
def guarded (ok : σ → ε → Prop) (step : σ → ε → σ → Prop) : σ → ε → σ → Prop :=
  fun s e t => step s e t ∧ ok s e

variable {step : σ → ε → σ → Prop} {s₀ s : σ} {τs : List (Transition σ ε)}

variable {I : σ → Prop}

theorem Run.invariant (h : Run step s₀ τs s) (h₀ : I s₀) (hstep : ∀ s e t, I s → step s e t → I t) : I s := by
  induction h with
  | nil => exact h₀
  | snoc _ hs ih => exact hstep _ _ _ ih hs

theorem Run.strengthen (h : Run step s₀ τs s) (h₀ : I s₀) (hstep : ∀ s e t, I s → step s e t → I t) :
    Run (fun s e t => step s e t ∧ I s) s₀ τs s := by
  induction h with
  | nil => exact .nil
  | snoc hr hs ih => exact ih.snoc ⟨hs, hr.invariant h₀ hstep⟩

/-- The transitions of the calls `es` of a deterministic system, from `s`. -/
def trace (f : σ → ε → σ) : σ → List ε → List (Transition σ ε)
  | _, [] => []
  | s, e :: es => ⟨s, e, f s e⟩ :: trace f (f s e) es

variable {f : σ → ε → σ} {τ : Transition σ ε}

theorem label_of_mem_trace {es : List ε} (hτ : τ ∈ trace f s es) : τ.label ∈ es := by
  induction es generalizing s with
  | nil => cases hτ
  | cons e es ih =>
    rcases List.mem_cons.1 hτ with rfl | hτ
    · exact List.mem_cons_self
    · exact List.mem_cons_of_mem _ (ih hτ)

theorem trace_append (f : σ → ε → σ) (s : σ) (es : List ε) (e : ε) (es' : List ε) :
    trace f s (es ++ e :: es') =
      trace f s es ++ ⟨es.foldl f s, e, f (es.foldl f s) e⟩ :: trace f (f (es.foldl f s) e) es' := by
  induction es generalizing s with
  | nil => rfl
  | cons e' es ih => exact congrArg _ (ih (f s e'))

theorem Run.calls (h : Run (fun s e t => t = f s e) s₀ τs s) (es : List ε) :
    Run (fun s e t => t = f s e) s₀ (τs ++ trace f s es) (es.foldl f s) := by
  induction es generalizing τs s with
  | nil => simpa [trace] using h
  | cons e es ih => simpa [trace] using ih (h.snoc rfl)

theorem Run.guardedCalls {ok : σ → ε → Prop} (h : Run (guarded ok fun s e t => t = f s e) s₀ τs s)
    (es : List ε) (hok : ∀ τ ∈ trace f s es, ok τ.src τ.label) :
    Run (guarded ok fun s e t => t = f s e) s₀ (τs ++ trace f s es) (es.foldl f s) := by
  induction es generalizing τs s with
  | nil => simpa [trace] using h
  | cons e es ih =>
    obtain ⟨hfirst, hrest⟩ := List.forall_mem_cons.1 hok
    simpa [trace] using ih (h.snoc ⟨rfl, hfirst⟩) hrest

theorem Run.guard {ok : σ → ε → Prop} (h : Run step s₀ τs s) (hok : ∀ τ ∈ τs, ok τ.src τ.label) :
    Run (guarded ok step) s₀ τs s := by
  induction h with
  | nil => exact .nil
  | snoc _ hs ih =>
    refine (ih fun τ hτ => hok τ (List.mem_append_left _ hτ)).snoc ⟨hs, ?_⟩
    exact hok _ (List.mem_append_right _ List.mem_cons_self)

theorem Run.later {q : σ → σ → Prop} (h : Run step s₀ τs s) (hrefl : ∀ s, q s s)
    (htrans : ∀ s t u, q s t → q t u → q s u) (hq : ∀ s e t, step s e t → q s t) (hτ : τ ∈ τs) :
    q τ.src s ∧ q τ.dst s := by
  induction h with
  | nil => simp at hτ
  | snoc _ hs ih =>
    rcases List.mem_append.1 hτ with hτ | hτ
    · exact ⟨htrans _ _ _ (ih hτ).1 (hq _ _ _ hs), htrans _ _ _ (ih hτ).2 (hq _ _ _ hs)⟩
    · obtain rfl := List.mem_singleton.1 hτ
      exact ⟨hq _ _ _ hs, hrefl _⟩

theorem Run.past {q : Transition σ ε → σ → Prop} (h : Run step s₀ τs s) (h₀ : I s₀)
    (hI : ∀ s e t, I s → step s e t → I t) (hkeep : ∀ τ s e t, I s → step s e t → q τ s → q τ t)
    (hnew : ∀ s e t, I s → step s e t → q ⟨s, e, t⟩ t) : ∀ τ ∈ τs, q τ s := by
  induction h with
  | nil => simp
  | snoc hr hs ih =>
    intro τ hτ
    have hinv := hr.invariant h₀ hI
    rcases List.mem_append.1 hτ with hτ | hτ
    · exact hkeep _ _ _ _ hinv hs (ih τ hτ)
    · obtain rfl := List.mem_singleton.1 hτ
      exact hnew _ _ _ hinv hs

/-- The pairwise form of `Run.past`: every step is related to all earlier ones. -/
theorem Run.pairwise {q : Transition σ ε → σ → Prop} {R : Transition σ ε → Transition σ ε → Prop}
    (h : Run step s₀ τs s) (h₀ : I s₀) (hI : ∀ s e t, I s → step s e t → I t)
    (hkeep : ∀ τ s e t, I s → step s e t → q τ s → q τ t) (hnew : ∀ s e t, I s → step s e t → q ⟨s, e, t⟩ t)
    (hR : ∀ τ s e t, I s → step s e t → q τ s → R τ ⟨s, e, t⟩) : τs.Pairwise R := by
  induction h with
  | nil => exact .nil
  | snoc hr hs ih =>
    rw [List.pairwise_append]
    refine ⟨ih, List.pairwise_singleton _ _, ?_⟩
    intro τ hτ τ' hτ'
    obtain rfl := List.mem_singleton.1 hτ'
    exact hR _ _ _ _ (hr.invariant h₀ hI) hs (hr.past h₀ hI hkeep hnew τ hτ)

theorem Run.step_of_mem (h : Run step s₀ τs s) (hτ : τ ∈ τs) : step τ.src τ.label τ.dst := by
  induction h with
  | nil => simp at hτ
  | snoc _ hs ih =>
    rcases List.mem_append.1 hτ with hτ | hτ
    · exact ih hτ
    · obtain rfl := List.mem_singleton.1 hτ
      exact hs

theorem Run.always (h : Run step s₀ τs s) (h₀ : I s₀) (hstep : ∀ s e t, I s → step s e t → I t) (hτ : τ ∈ τs) :
    step τ.src τ.label τ.dst ∧ I τ.src :=
  (h.strengthen h₀ hstep).step_of_mem hτ

theorem Run.split {pre post : List (Transition σ ε)} (h : Run step s₀ (pre ++ τ :: post) s) :
    Run step s₀ pre τ.src ∧ step τ.src τ.label τ.dst := by
  generalize hτs : pre ++ τ :: post = τs at h
  induction h generalizing post with
  | nil => simp at hτs
  | snoc hr hs ih =>
    rcases List.eq_nil_or_concat post with rfl | ⟨post, τ', rfl⟩
    · obtain ⟨rfl, hlast⟩ := List.append_inj' hτs rfl
      obtain rfl := (List.cons.inj hlast).1
      exact ⟨hr, hs⟩
    · rw [List.concat_eq_append, ← List.cons_append, ← List.append_assoc] at hτs
      exact ih (List.append_inj' hτs rfl).1

/-- The part of a run after one of its transitions. -/
theorem Run.rest {pre post : List (Transition σ ε)} (h : Run step s₀ (pre ++ τ :: post) s) :
    Run step τ.dst post s := by
  generalize hτs : pre ++ τ :: post = τs at h
  induction h generalizing post with
  | nil => simp at hτs
  | snoc hr hs ih =>
    rcases List.eq_nil_or_concat post with rfl | ⟨post, τ', rfl⟩
    · obtain ⟨-, hlast⟩ := List.append_inj' hτs rfl
      obtain rfl := (List.cons.inj hlast).1
      exact .nil
    · rw [List.concat_eq_append, ← List.cons_append, ← List.append_assoc] at hτs
      obtain ⟨hpre, hlast⟩ := List.append_inj' hτs rfl
      obtain rfl := (List.cons.inj hlast).1
      rw [List.concat_eq_append]
      exact (ih hpre).snoc hs

variable {p : σ → Prop}

theorem Run.since {q : Transition σ ε → Prop} (h : Run step s₀ τs s) (h₀ : ¬ p s₀)
    (hstep : ∀ s e t, step s e t → p t → p s ∨ q ⟨s, e, t⟩) (hp : p s) : ∃ τ ∈ τs, q τ := by
  induction h with
  | nil => exact absurd hp h₀
  | snoc _ hs ih =>
    rcases hstep _ _ _ hs hp with hp | hq
    · obtain ⟨τ, hτ, hq⟩ := ih hp
      exact ⟨τ, List.mem_append_left _ hτ, hq⟩
    · exact ⟨_, List.mem_append_right _ List.mem_cons_self, hq⟩

theorem Run.stable (h : Run step s₀ τs s) (hp : ∀ s e t, step s e t → p s → p t) (h₀ : p s₀) : p s :=
  h.invariant h₀ fun s e t hs hst => hp s e t hst hs

/-- **A stable predicate becomes true at most once.** If every step keeps `p`, and every transition
that `q` selects makes `p` true, then a run has at most one such transition, and none while `p` is
still false. -/
theorem Run.countP_le_one {q : Transition σ ε → Prop} [DecidablePred p] [DecidablePred q]
    (h : Run step s₀ τs s) (hp : ∀ s e t, step s e t → p s → p t)
    (hq : ∀ s e t, step s e t → q ⟨s, e, t⟩ → ¬ p s ∧ p t) :
    τs.countP (fun τ => q τ) ≤ if p s then 1 else 0 := by
  induction h with
  | nil => simp
  | @snoc τs s t e _ hs ih =>
    rw [List.countP_append]
    by_cases hqτ : q ⟨s, e, t⟩
    · obtain ⟨hns, ht⟩ := hq s e t hs hqτ
      rw [if_neg hns] at ih
      have hnone : τs.countP (fun τ => q τ) = 0 := Nat.le_zero.1 ih
      simp [hqτ, ht, hnone]
    · have hle : (if p s then 1 else 0) ≤ if p t then 1 else 0 := by
        by_cases hps : p s
        · simp [hps, hp s e t hs hps]
        · simp [hps]
      simpa [hqτ] using Nat.le_trans ih hle

theorem nodup_filterMap {κ : Type*} [DecidableEq κ] {f : Transition σ ε → Option κ}
    (h : ∀ k, τs.countP (fun τ => decide (f τ = some k)) ≤ 1) : (τs.filterMap f).Nodup := by
  refine List.nodup_iff_count_le_one.2 fun k => ?_
  rw [List.count_filterMap]
  refine Nat.le_trans (List.countP_mono_left fun τ _ hτ => ?_) (h k)
  simpa using hτ

end Runs
