import Mathlib.Data.List.Chain
import Mathlib.Tactic.Common
import AgentPlatform.Knowledge.Store

/-!
# The chunks of a text

`chunks` walks over a text with slices of at most `chunkSize` characters, each of which starts `chunkOverlap`
before the end of the one before it.

* `Walk` is the loop without its fuel; the fuel `pieces` gives is enough for it (`walk_chunkLoop`).
* The chunks are slices that overlap and reach the end of the text (`mem_pieces`, `pieces_cover`), and a short
  piece of the text lies inside one of them (`chunks_covers`).
-/

namespace AgentPlatform.Knowledge

open Outcome

variable {text : List Char} {start stop fuel n : ℕ} {piece : List Char}

/-- The characters of a text from `start` to `stop`. -/
def slice (text : List Char) (start stop : ℕ) : List Char := (text.take stop).drop start

/-- The loop of `chunks` from `start` on ends, with these chunks. -/
inductive Walk (text : List Char) : ℕ → List (ℕ × ℕ × List Char) → Prop
  | out {start : ℕ} (h : ¬start < text.length) : Walk text start []
  | last {start : ℕ} (h : start < text.length) (hlast : min text.length (start + chunkSize) = text.length) :
    Walk text start [(start, text.length, slice text start text.length)]
  | next {start : ℕ} {rest : List (ℕ × ℕ × List Char)} (h : start < text.length)
    (hmore : min text.length (start + chunkSize) ≠ text.length)
    (hrest : Walk text (min text.length (start + chunkSize) - chunkOverlap) rest) :
    Walk text start ((start, min text.length (start + chunkSize),
      slice text start (min text.length (start + chunkSize))) :: rest)

/-- With a round for each character that is left, the loop is not cut short. -/
theorem walk_chunkLoop (hfuel : text.length - start < fuel) : Walk text start (chunkLoop text fuel start) := by
  induction fuel generalizing start with
  | zero => omega
  | succ fuel ih =>
    unfold chunkLoop
    by_cases hlt : start < text.length
    · rw [if_pos hlt]
      dsimp only
      by_cases hlast : min text.length (start + chunkSize) = text.length
      · rw [if_pos hlast, hlast]
        exact .last hlt hlast
      · rw [if_neg hlast]
        -- the next chunk starts later than this one
        have hlater : text.length - (min text.length (start + chunkSize) - chunkOverlap) < fuel := by
          unfold chunkSize chunkOverlap at *
          omega
        exact .next hlt hlast (ih hlater)
    · rw [if_neg hlt]
      exact .out hlt

theorem walk_pieces (content : String) : Walk content.toList 0 (pieces content) := by
  refine walk_chunkLoop ?_
  rw [String.length_toList]
  omega

/-- A chunk is a slice of at most `chunkSize` characters. -/
theorem mem_walk {chunks : List (ℕ × ℕ × List Char)} (hwalk : Walk text n chunks)
    (h : (start, stop, piece) ∈ chunks) :
    n ≤ start ∧ start < stop ∧ stop ≤ text.length ∧ stop ≤ start + chunkSize ∧ piece = slice text start stop := by
  induction hwalk with
  | out => cases h
  | last hlt hlast =>
    simp only [List.mem_singleton, Prod.mk.injEq] at h
    obtain ⟨rfl, rfl, rfl⟩ := h
    exact ⟨Nat.le_refl _, hlt, Nat.le_refl _, hlast ▸ Nat.min_le_right _ _, rfl⟩
  | @next n rest hlt hmore hrest ih =>
    rcases List.mem_cons.1 h with heq | hmem
    · simp only [Prod.mk.injEq] at heq
      obtain ⟨rfl, rfl, rfl⟩ := heq
      refine ⟨Nat.le_refl _, ?_, Nat.min_le_left _ _, Nat.min_le_right _ _, rfl⟩
      unfold chunkSize at *
      omega
    · obtain ⟨hle, hslice⟩ := ih hmem
      refine ⟨Nat.le_trans ?_ hle, hslice⟩
      unfold chunkSize chunkOverlap at *
      omega

/-- The characters from `i` to `j` are inside a chunk, where they are at most one more than two chunks share. -/
theorem walk_covers {chunks : List (ℕ × ℕ × List Char)} {i j : ℕ} (hwalk : Walk text start chunks)
    (hstart : start < text.length) (hi : start ≤ i) (hij : i ≤ j) (hj : j ≤ text.length)
    (hshort : j ≤ i + (chunkOverlap + 1)) : ∃ c ∈ chunks, c.1 ≤ i ∧ j ≤ c.2.1 := by
  induction hwalk with
  | out hout => exact absurd hstart hout
  | last => exact ⟨_, List.mem_singleton.2 rfl, hi, hj⟩
  | @next start rest hlt hmore hrest ih =>
    by_cases hin : j ≤ min text.length (start + chunkSize)
    · exact ⟨_, List.mem_cons_self, hi, hin⟩
    · -- what reaches beyond this chunk starts in the part that the next one shares with it, or later
      obtain ⟨c, hc, hcovers⟩ : ∃ c ∈ rest, c.1 ≤ i ∧ j ≤ c.2.1 := by
        refine ih ?_ ?_
        all_goals
          unfold chunkSize chunkOverlap at *
          omega
      exact ⟨c, List.mem_cons_of_mem _ hc, hcovers⟩

/-- Two chunks share exactly `chunkOverlap` characters. -/
def Share (c c' : ℕ × ℕ × List Char) : Prop :=
  c.1 < c'.1 ∧ c.2.1 < c'.2.1 ∧ min c.2.1 c'.2.1 - max c.1 c'.1 = chunkOverlap

theorem walk_head {chunks : List (ℕ × ℕ × List Char)} {c : ℕ × ℕ × List Char} (hwalk : Walk text start chunks)
    (h : chunks.head? = some c) : c.1 = start ∧ c.2.1 = min text.length (start + chunkSize) := by
  cases hwalk with
  | out => cases h
  | last _ hlast =>
    cases h
    exact ⟨rfl, hlast.symm⟩
  | next =>
    cases h
    exact ⟨rfl, rfl⟩

theorem walk_first {chunks : List (ℕ × ℕ × List Char)} (hwalk : Walk text start chunks)
    (hstart : start < text.length) : chunks.head?.map (·.1) = some start := by
  cases hwalk with
  | out hout => exact absurd hstart hout
  | last => rfl
  | next => rfl

theorem walk_chain {chunks : List (ℕ × ℕ × List Char)} (hwalk : Walk text start chunks) :
    chunks.IsChain Share := by
  induction hwalk with
  | out => exact .nil
  | last => exact .singleton _
  | @next start rest hlt hmore hrest ih =>
    refine List.isChain_cons.2 ⟨fun c hc => ?_, ih⟩
    obtain ⟨hfirst, hstop⟩ := walk_head hrest hc
    unfold Share
    rw [hfirst, hstop]
    dsimp only
    unfold chunkSize chunkOverlap at *
    omega

theorem walk_last {chunks : List (ℕ × ℕ × List Char)} (hwalk : Walk text start chunks)
    (hstart : start < text.length) : chunks.getLast?.map (·.2.1) = some text.length := by
  induction hwalk with
  | out hout => exact absurd hstart hout
  | last => rfl
  | @next start rest hlt hmore hrest ih =>
    have hlater : min text.length (start + chunkSize) - chunkOverlap < text.length := by
      unfold chunkSize chunkOverlap at *
      omega
    have hih := ih hlater
    rw [List.getLast?_cons]
    cases hgot : rest.getLast? with
    | none => simp [hgot] at hih
    | some c =>
      rw [hgot] at hih
      exact hih

/-- What the chunks of a text are. -/
structure Covers (text : List Char) (chunks : List (ℕ × ℕ × List Char)) : Prop where
  first : chunks.head?.map (·.1) = some 0
  last : chunks.getLast?.map (·.2.1) = some text.length
  /-- The offsets are exact. -/
  exact : ∀ c ∈ chunks, c.1 < c.2.1 ∧ c.2.1 ≤ text.length ∧ c.2.2 = slice text c.1 c.2.1
  short : ∀ c ∈ chunks, c.2.2.length ≤ chunkSize
  overlap : chunks.IsChain Share
  /-- A short piece of the text is a piece of a chunk, at its place. -/
  inside : ∀ before piece after, text = before ++ (piece ++ after) → piece.length ≤ chunkOverlap + 1 →
    ∃ c ∈ chunks, ∃ left right, c.2.2 = left ++ (piece ++ right) ∧ c.1 + left.length = before.length

theorem length_slice (h : stop ≤ text.length) : (slice text start stop).length = stop - start := by
  simp [slice, Nat.min_eq_left h]

theorem slice_around {before after : List Char} (hstart : start ≤ before.length)
    (hstop : before.length + piece.length ≤ stop) :
    slice (before ++ (piece ++ after)) start stop =
      before.drop start ++ (piece ++ after.take (stop - before.length - piece.length)) := by
  unfold slice
  rw [List.take_append, List.take_of_length_le (by omega), List.take_append,
    List.take_of_length_le (by omega), List.drop_append_of_le_length hstart]

theorem walk_inside {chunks : List (ℕ × ℕ × List Char)} {before after : List Char}
    (hwalk : Walk (before ++ (piece ++ after)) 0 chunks) (hne : before ++ (piece ++ after) ≠ [])
    (hshort : piece.length ≤ chunkOverlap + 1) :
    ∃ c ∈ chunks, ∃ left right, c.2.2 = left ++ (piece ++ right) ∧ c.1 + left.length = before.length := by
  have hpos := List.length_pos_iff.2 hne
  obtain ⟨⟨start, stop, chunk⟩, hc, hstart, hstop⟩ := walk_covers hwalk hpos (Nat.zero_le before.length)
    (Nat.le_add_right _ piece.length) (by simp) (by omega)
  obtain ⟨-, -, -, -, rfl⟩ := mem_walk hwalk hc
  refine ⟨_, hc, before.drop start, _, slice_around hstart hstop, ?_⟩
  rw [List.length_drop]
  exact Nat.add_sub_of_le hstart

/-- **`chunks` ends on every text it accepts, and its slices cover the text.** -/
theorem chunks_covers {content : String} (h : isBlank content = false ∧ content.length ≤ maxDocumentChars ∧
    content.toList.contains '\x00' = false) :
    ∃ out, chunks content = .ok out ∧ Walk content.toList 0 out ∧ Covers content.toList out := by
  have hne : content.toList ≠ [] := by
    intro hnil
    have hempty : content = "" := String.toList_eq_nil_iff.1 hnil
    rw [hempty] at h
    exact absurd h.1 (by decide)
  have hpos := List.length_pos_iff.2 hne
  have hwalk := walk_pieces content
  refine ⟨pieces content, bind_eq_ok.2 ⟨(), ensure_eq_ok.2 h, rfl⟩, hwalk, ?_⟩
  refine ⟨walk_first hwalk hpos, walk_last hwalk hpos, ?_, ?_, walk_chain hwalk, ?_⟩
  · rintro ⟨start, stop, piece⟩ hc
    obtain ⟨-, hlt, hle, -, hslice⟩ := mem_walk hwalk hc
    exact ⟨hlt, hle, hslice⟩
  · rintro ⟨start, stop, piece⟩ hc
    obtain ⟨-, -, hle, hsize, rfl⟩ := mem_walk hwalk hc
    rw [length_slice hle]
    omega
  · intro before piece after htext hshort
    rw [htext] at hwalk hne
    exact walk_inside hwalk hne hshort

theorem chunks_covers_sample :
    ∃ out, chunks "two words" = .ok out ∧ Walk "two words".toList 0 out ∧ Covers "two words".toList out :=
  chunks_covers ⟨by decide, by decide, by decide⟩

end AgentPlatform.Knowledge
