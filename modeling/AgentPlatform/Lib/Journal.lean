import Mathlib.Data.List.Nodup
import Mathlib.Data.Set.Insert
import Mathlib.Logic.Function.Basic
import Mathlib.Tactic.Common

/-!
# Write-ahead journals

A journal holds one row for each key and never loses one. A worker that records a new key may cross,
once, a boundary nothing can undo; a worker that crashes keeps its leave to cross, or loses it.

* `Book`: the recorded keys, the key each worker may still cross with, and the crossings so far;
* `Move`: what one event does to a book;
* `Sound`: the invariant. Every crossing was recorded before, and no key crossed twice;
* `Move.refused`: a worker without leave for a recorded key never gets it.
-/

namespace Journal

variable {κ : Type*}

/-- The recorded keys, what each worker may still send, and what was sent. -/
structure Book (κ : Type*) where
  recorded : Set κ
  holds : ℕ → Option κ
  sent : List κ

/-- What one event does. -/
inductive Move (b : Book κ) : Book κ → Prop
  | same : Move b b
  | drop (w : ℕ) : Move b ⟨b.recorded, Function.update b.holds w none, b.sent⟩
  | record {w : ℕ} {k : κ} (hnew : k ∉ b.recorded) :
      Move b ⟨insert k b.recorded, Function.update b.holds w (some k), b.sent⟩
  | send {w : ℕ} {k : κ} (hheld : b.holds w = some k) :
      Move b ⟨b.recorded, Function.update b.holds w none, b.sent ++ [k]⟩

/-- Every crossing was recorded, and each key crosses once: while its worker holds it, not yet. -/
structure Sound (b : Book κ) : Prop where
  recorded : ∀ k ∈ b.sent, k ∈ b.recorded
  held : ∀ w k, b.holds w = some k → k ∈ b.recorded ∧ k ∉ b.sent
  alone : ∀ w w' k, b.holds w = some k → b.holds w' = some k → w = w'
  once : b.sent.Nodup

variable {b b' : Book κ}

theorem sound_empty : Sound (⟨∅, fun _ => none, []⟩ : Book κ) where
  recorded := by simp
  held := by simp
  alone := by simp
  once := List.nodup_nil

theorem holds_of_drop {holds : ℕ → Option κ} {w v : ℕ} {k : κ}
    (h : Function.update holds w none v = some k) : v ≠ w ∧ holds v = some k := by
  by_cases hv : v = w
  · rw [hv, Function.update_self] at h
    cases h
  · rw [Function.update_of_ne hv] at h
    exact ⟨hv, h⟩

theorem Move.recorded_sub (h : Move b b') : ∀ k ∈ b.recorded, k ∈ b'.recorded := by
  intro k hk
  cases h with
  | record => exact Set.mem_insert_of_mem _ hk
  | _ => exact hk

theorem Move.sound (hs : Sound b) (h : Move b b') : Sound b' := by
  cases h with
  | same => exact hs
  | drop w =>
    refine ⟨hs.recorded, ?_, ?_, hs.once⟩
    · intro v k hv
      exact hs.held v k (holds_of_drop hv).2
    · intro v v' k hv hv'
      exact hs.alone v v' k (holds_of_drop hv).2 (holds_of_drop hv').2
  | @record w k hnew =>
    have hother : ∀ v k', Function.update b.holds w (some k) v = some k' →
        v = w ∧ k' = k ∨ v ≠ w ∧ b.holds v = some k' := by
      intro v k' hv
      by_cases hvw : v = w
      · rw [hvw, Function.update_self] at hv
        exact .inl ⟨hvw, (Option.some.inj hv).symm⟩
      · rw [Function.update_of_ne hvw] at hv
        exact .inr ⟨hvw, hv⟩
    refine ⟨?_, ?_, ?_, hs.once⟩
    · intro k' hk'
      exact Set.mem_insert_of_mem _ (hs.recorded k' hk')
    · intro v k' hv
      rcases hother v k' hv with ⟨-, rfl⟩ | ⟨-, hv⟩
      · exact ⟨Set.mem_insert _ _, fun hsent => hnew (hs.recorded _ hsent)⟩
      · obtain ⟨hrec, hsent⟩ := hs.held v k' hv
        exact ⟨Set.mem_insert_of_mem _ hrec, hsent⟩
    · intro v v' k' hv hv'
      -- a key that was held before was recorded before, so it is not the new one
      rcases hother v k' hv with ⟨hvw, hk⟩ | ⟨-, hold⟩ <;>
        rcases hother v' k' hv' with ⟨hvw', hk'⟩ | ⟨-, hold'⟩
      · exact hvw.trans hvw'.symm
      · exact absurd (hk ▸ (hs.held _ _ hold').1) hnew
      · exact absurd (hk' ▸ (hs.held _ _ hold).1) hnew
      · exact hs.alone v v' k' hold hold'
  | @send w k hheld =>
    obtain ⟨hrec, hsent⟩ := hs.held w k hheld
    refine ⟨?_, ?_, ?_, ?_⟩
    · intro k' hk'
      rcases List.mem_append.1 hk' with hk' | hk'
      · exact hs.recorded k' hk'
      · obtain rfl := List.mem_singleton.1 hk'
        exact hrec
    · intro v k' hv
      obtain ⟨hvw, hold⟩ := holds_of_drop hv
      obtain ⟨hrec', hsent'⟩ := hs.held v k' hold
      refine ⟨hrec', fun hk' => ?_⟩
      rcases List.mem_append.1 hk' with hk' | hk'
      · exact hsent' hk'
      · obtain rfl := List.mem_singleton.1 hk'
        exact hvw (hs.alone v w k' hold hheld)
    · intro v v' k' hv hv'
      exact hs.alone v v' k' (holds_of_drop hv).2 (holds_of_drop hv').2
    · refine List.nodup_append.2 ⟨hs.once, List.nodup_singleton k, fun a ha c hc heq => hsent ?_⟩
      rwa [← List.mem_singleton.1 hc, ← heq]

/-- The key is recorded, and the worker has no leave to cross with it. -/
def Refused (b : Book κ) (w : ℕ) (k : κ) : Prop := k ∈ b.recorded ∧ b.holds w ≠ some k

theorem Move.refused (h : Move b b') {w : ℕ} {k : κ} (hr : Refused b w k) : Refused b' w k := by
  refine ⟨h.recorded_sub k hr.1, ?_⟩
  cases h with
  | same => exact hr.2
  | drop v =>
    intro hw
    exact hr.2 (holds_of_drop hw).2
  | @record v k' hnew =>
    intro (hw : Function.update b.holds v (some k') w = some k)
    by_cases hv : w = v
    · rw [hv, Function.update_self, Option.some.injEq] at hw
      exact hnew (hw ▸ hr.1)
    · rw [Function.update_of_ne hv] at hw
      exact hr.2 hw
  | send =>
    intro hw
    exact hr.2 (holds_of_drop hw).2

end Journal
