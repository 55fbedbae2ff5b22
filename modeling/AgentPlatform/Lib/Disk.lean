import Mathlib.Logic.Function.Basic
import Mathlib.Tactic.Common

/-!
# Files replaced by renaming

A file is replaced by writing another one, flushing it and renaming it over the old name. Whoever reads the
name sees the new file at once, but the rename itself reaches the disk only when the directory is flushed;
a power failure before that keeps or loses it.

* `seen` is what a reader finds, `kept` what a power failure leaves at worst;
* `Forward`: what is seen is no older than what is kept, in an order in which every rename goes forward;
* `Keeps`, `Shows`: what a later directory has of what an earlier one kept, or showed.
-/

/-- The files of a directory, by their names: what a reader sees, and what is on the disk. -/
structure Disk (κ ρ : Type*) where
  seen : κ → Option ρ := fun _ => none
  kept : κ → Option ρ := fun _ => none

namespace Disk

variable {κ ρ : Type*}

/-- A finished file is renamed over a name. -/
def rename [DecidableEq κ] (d : Disk κ ρ) (k : κ) (r : ρ) : Disk κ ρ :=
  { d with seen := Function.update d.seen k (some r) }

/-- The directory is flushed. -/
def sync (d : Disk κ ρ) : Disk κ ρ := { d with kept := d.seen }

/-- A power failure: of a name that was not flushed, the old or the new file is left. -/
def lose (d : Disk κ ρ) (survives : κ → Bool) : Disk κ ρ :=
  let left := fun k => if survives k then d.seen k else d.kept k
  ⟨left, left⟩

/-- What is kept is seen, or a later file is. -/
def Forward (later : ρ → ρ → Prop) (d : Disk κ ρ) : Prop :=
  ∀ k r, d.kept k = some r → ∃ r', d.seen k = some r' ∧ later r r'

/-- No name is lost or goes back. -/
def Keeps (later : ρ → ρ → Prop) (d d' : Disk κ ρ) : Prop :=
  ∀ k r, d.kept k = some r → ∃ r', d'.kept k = some r' ∧ later r r'

/-- No name disappears from the readers or goes back. -/
def Shows (later : ρ → ρ → Prop) (d d' : Disk κ ρ) : Prop :=
  ∀ k r, d.seen k = some r → ∃ r', d'.seen k = some r' ∧ later r r'

variable {later : ρ → ρ → Prop} {d d' : Disk κ ρ} {k k' : κ} {r : ρ}

@[simp] theorem rename_seen_self [DecidableEq κ] : (d.rename k r).seen k = some r := Function.update_self ..

theorem rename_seen_of_ne [DecidableEq κ] (h : k' ≠ k) : (d.rename k r).seen k' = d.seen k' :=
  Function.update_of_ne h ..

@[simp] theorem rename_kept [DecidableEq κ] : (d.rename k r).kept = d.kept := rfl

@[simp] theorem sync_seen : d.sync.seen = d.seen := rfl

@[simp] theorem sync_kept : d.sync.kept = d.seen := rfl

theorem lose_eq (survives : κ → Bool) (k : κ) :
    (d.lose survives).seen k = (d.lose survives).kept k ∧
      ((d.lose survives).seen k = d.seen k ∨ (d.lose survives).seen k = d.kept k) := by
  refine ⟨rfl, ?_⟩
  unfold lose
  cases hs : survives k with
  | true => exact .inl (if_pos hs)
  | false => exact .inr (if_neg (by simp [hs]))

theorem keeps_of_eq (hrefl : ∀ r, later r r) (h : d'.kept = d.kept) : Keeps later d d' :=
  fun _ r hk => ⟨r, h ▸ hk, hrefl r⟩

theorem Forward.keeps_sync (h : Forward later d) : Keeps later d d.sync := h

theorem Forward.keeps_lose (hrefl : ∀ r, later r r) (h : Forward later d) (survives : κ → Bool) :
    Keeps later d (d.lose survives) := by
  intro k r hk
  obtain ⟨heq, hseen | hkept⟩ := d.lose_eq survives k
  · rw [← heq, hseen]
    exact h k r hk
  · exact ⟨r, heq ▸ hkept.trans hk, hrefl r⟩

theorem forward_empty : Forward later ({} : Disk κ ρ) := fun _ _ h => by cases h

theorem Forward.sync (hrefl : ∀ r, later r r) : Forward later d.sync := fun _ r hk => ⟨r, hk, hrefl r⟩

theorem Forward.lose (hrefl : ∀ r, later r r) (survives : κ → Bool) : Forward later (d.lose survives) :=
  fun k r hk => ⟨r, (d.lose_eq survives k).1.trans hk, hrefl r⟩

theorem Forward.rename [DecidableEq κ] (htrans : ∀ a b c, later a b → later b c → later a c)
    (h : Forward later d) (hnew : ∀ r', d.seen k = some r' → later r' r) : Forward later (d.rename k r) := by
  intro k' r₁ hk
  obtain ⟨r₂, hseen, hlater⟩ := h k' r₁ hk
  by_cases hname : k' = k
  · subst hname
    exact ⟨r, rename_seen_self, htrans _ _ _ hlater (hnew r₂ hseen)⟩
  · exact ⟨r₂, (rename_seen_of_ne hname).trans hseen, hlater⟩

theorem shows_of_eq (hrefl : ∀ r, later r r) (h : d'.seen = d.seen) : Shows later d d' :=
  fun _ r hk => ⟨r, h ▸ hk, hrefl r⟩

theorem shows_rename [DecidableEq κ] (hrefl : ∀ r, later r r)
    (hnew : ∀ r', d.seen k = some r' → later r' r) : Shows later d (d.rename k r) := by
  intro k' r₁ hk
  by_cases hname : k' = k
  · subst hname
    exact ⟨r, rename_seen_self, hnew r₁ hk⟩
  · exact ⟨r₁, (rename_seen_of_ne hname).trans hk, hrefl r₁⟩

theorem Keeps.trans (htrans : ∀ a b c, later a b → later b c → later a c) {d₁ d₂ d₃ : Disk κ ρ}
    (h : Keeps later d₁ d₂) (h' : Keeps later d₂ d₃) : Keeps later d₁ d₃ := by
  intro k r hk
  obtain ⟨r', hk', hlater⟩ := h k r hk
  obtain ⟨r'', hk'', hlater'⟩ := h' k r' hk'
  exact ⟨r'', hk'', htrans _ _ _ hlater hlater'⟩

theorem Shows.trans (htrans : ∀ a b c, later a b → later b c → later a c) {d₁ d₂ d₃ : Disk κ ρ}
    (h : Shows later d₁ d₂) (h' : Shows later d₂ d₃) : Shows later d₁ d₃ := by
  intro k r hk
  obtain ⟨r', hk', hlater⟩ := h k r hk
  obtain ⟨r'', hk'', hlater'⟩ := h' k r' hk'
  exact ⟨r'', hk'', htrans _ _ _ hlater hlater'⟩

end Disk
