import Mathlib.Data.List.Basic
import Mathlib.Logic.Function.Basic
import Mathlib.Tactic.Common

/-!
# Feeds of versioned records

A feed comes in pages. `Chained` says that each page begins at the cursor where the last one ended.
The entries of the pages are versions of records; a register keeps, for each record, the greatest
version it was given (`put`), and `Latest` relates the register to all that was put into it.
-/

namespace Feed

/-! ### Chains of pages -/

section Chains

variable {π γ : Type*} {expected next : π → γ}

/-- The pages lead from the first cursor to the last. -/
def Chained (expected next : π → γ) : γ → List π → γ → Prop
  | c, [], c' => c = c'
  | c, p :: ps, c' => c = expected p ∧ Chained expected next (next p) ps c'

theorem Chained.snoc {c c' : γ} {ps : List π} {p : π} (h : Chained expected next c ps c')
    (hp : c' = expected p) : Chained expected next c (ps ++ [p]) (next p) := by
  induction ps generalizing c with
  | nil => exact ⟨Eq.trans h hp, rfl⟩
  | cons q ps ih => exact ⟨h.1, ih h.2⟩

end Chains

/-! ### Registers -/

section Registers

variable {κ α : Type*} [DecidableEq κ]

/-- A version of a record. -/
structure Entry (κ α : Type*) where
  key : κ
  version : ℕ
  value : α

/-- The register takes a version that is greater than its own. -/
def put (m : κ → Option (ℕ × α)) (e : Entry κ α) : κ → Option (ℕ × α) :=
  if (m e.key).all (fun r => decide (r.1 < e.version)) then
    Function.update m e.key (some (e.version, e.value))
  else m

/-- The register holds the greatest version of every record, as it was put. -/
structure Latest (m : κ → Option (ℕ × α)) (es : List (Entry κ α)) : Prop where
  absent : ∀ k, m k = none → ∀ e ∈ es, e.key ≠ k
  present : ∀ k v a, m k = some (v, a) →
    (∃ e ∈ es, e.key = k ∧ e.version = v ∧ e.value = a) ∧ ∀ e ∈ es, e.key = k → e.version ≤ v

variable {m : κ → Option (ℕ × α)} {es : List (Entry κ α)}

omit [DecidableEq κ] in
theorem latest_empty : Latest (fun _ => none : κ → Option (ℕ × α)) [] where
  absent := by simp
  present := by simp

theorem Latest.put (h : Latest m es) (e : Entry κ α) : Latest (put m e) (es ++ [e]) := by
  unfold Feed.put
  split
  · rename_i hnew
    refine ⟨fun k hk => ?_, fun k v a hk => ?_⟩
    · by_cases hke : k = e.key
      · rw [hke, Function.update_self] at hk
        cases hk
      · rw [Function.update_of_ne hke] at hk
        intro e' he'
        rcases List.mem_append.1 he' with he' | he'
        · exact h.absent k hk e' he'
        · obtain rfl := List.mem_singleton.1 he'
          exact fun heq => hke heq.symm
    · by_cases hke : k = e.key
      · rw [hke, Function.update_self, Option.some.injEq, Prod.mk.injEq] at hk
        obtain ⟨rfl, rfl⟩ := hk
        refine ⟨⟨e, by simp, hke.symm, rfl, rfl⟩, fun e' he' hkey => ?_⟩
        rcases List.mem_append.1 he' with he' | he'
        · -- an older version of the record is below the register's, which is below the new one
          cases hold : m e.key with
          | none => exact absurd (hkey.trans hke) (h.absent _ hold e' he')
          | some r =>
            have hlt : r.1 < e.version := by simpa [hold] using hnew
            have hle := (h.present e.key r.1 r.2 hold).2 e' he' (hkey.trans hke)
            omega
        · obtain rfl := List.mem_singleton.1 he'
          exact Nat.le_refl _
      · rw [Function.update_of_ne hke] at hk
        obtain ⟨⟨e', he', hrest⟩, hmax⟩ := h.present k v a hk
        refine ⟨⟨e', List.mem_append_left _ he', hrest⟩, fun e'' he'' hkey => ?_⟩
        rcases List.mem_append.1 he'' with he'' | he''
        · exact hmax e'' he'' hkey
        · obtain rfl := List.mem_singleton.1 he''
          exact absurd hkey.symm hke
  · rename_i hold
    refine ⟨fun k hk e' he' => ?_, fun k v a hk => ?_⟩
    · rcases List.mem_append.1 he' with he' | he'
      · exact h.absent k hk e' he'
      · obtain rfl := List.mem_singleton.1 he'
        intro heq
        rw [heq, hk] at hold
        exact hold rfl
    · obtain ⟨⟨e', he', hrest⟩, hmax⟩ := h.present k v a hk
      refine ⟨⟨e', List.mem_append_left _ he', hrest⟩, fun e'' he'' hkey => ?_⟩
      rcases List.mem_append.1 he'' with he'' | he''
      · exact hmax e'' he'' hkey
      · obtain rfl := List.mem_singleton.1 he''
        rw [hkey, hk] at hold
        simpa using hold

end Registers

end Feed
