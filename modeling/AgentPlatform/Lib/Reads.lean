import Mathlib.Tactic.Common

/-!
# Programs that read a store

`Reads α ρ` is a program that asks questions `k`, gets answers of type `α k`, and ends with a result. Run
against a fixed store it has one result, `Reads.run`; run step by step while the store changes it gets each
answer from a different store, and `Yields p past r` says that with the answers `past`, in that order, the
program ends with `r`.

* `Yields.run_eq`: a store that gives all these answers gives that result;
* `yields_ok_bind`: how the answers of a program that may raise compose.
-/

/-- A program that asks a store. -/
inductive Reads {κ : Type} (α : κ → Type) (ρ : Type) : Type
  | done (result : ρ)
  | ask (k : κ) (next : α k → Reads α ρ)

namespace Reads

variable {κ : Type} {α : κ → Type} {ρ ρ' ε : Type}

/-- First the one program, then the other with its result. -/
def andThen : Reads α ρ → (ρ → Reads α ρ') → Reads α ρ'
  | done r, g => g r
  | ask k next, g => ask k fun a => (next a).andThen g

instance : Monad (Reads α) where
  pure := done
  bind := andThen

/-- One question. -/
def query (k : κ) : Reads α (α k) := ask k done

/-- The result in a store that does not change. -/
def run (answer : ∀ k, α k) : Reads α ρ → ρ
  | done r => r
  | ask k next => (next (answer k)).run answer

/-- With these answers the program ends with this result. -/
inductive Yields : Reads α ρ → List (Σ k, α k) → ρ → Prop
  | done (r : ρ) : Yields (done r) [] r
  | ask {k : κ} {next : α k → Reads α ρ} {a : α k} {past : List (Σ k, α k)} {r : ρ} :
      Yields (next a) past r → Yields (ask k next) (⟨k, a⟩ :: past) r

variable {p : Reads α ρ} {past : List (Σ k, α k)} {r : ρ}

theorem Yields.run_eq (h : Yields p past r) {answer : ∀ k, α k}
    (hpast : ∀ qa ∈ past, answer qa.1 = qa.2) : p.run answer = r := by
  induction h with
  | done r => rfl
  | @ask k next a past r _ ih =>
    obtain ⟨hfirst, hrest⟩ := List.forall_mem_cons.1 hpast
    show (next (answer k)).run answer = r
    rw [show answer k = a from hfirst]
    exact ih hrest

@[simp] theorem yields_done {r' : ρ} : Yields (Reads.done r' : Reads α ρ) past r ↔ past = [] ∧ r = r' := by
  constructor
  · rintro ⟨⟩
    exact ⟨rfl, rfl⟩
  · rintro ⟨rfl, rfl⟩
    exact .done _

theorem yields_ask {k : κ} {next : α k → Reads α ρ} :
    Yields (ask k next) past r ↔ ∃ a past', past = ⟨k, a⟩ :: past' ∧ Yields (next a) past' r := by
  constructor
  · intro h
    cases h with
    | @ask _ _ a past' _ h => exact ⟨a, past', rfl, h⟩
  · rintro ⟨a, past', rfl, h⟩
    exact .ask h

theorem yields_andThen {g : ρ → Reads α ρ'} {r' : ρ'} :
    Yields (p.andThen g) past r' ↔
      ∃ past₁ r past₂, Yields p past₁ r ∧ Yields (g r) past₂ r' ∧ past = past₁ ++ past₂ := by
  induction p generalizing past with
  | done r =>
    constructor
    · intro h
      exact ⟨[], r, past, .done r, h, rfl⟩
    · rintro ⟨past₁, r', past₂, ⟨⟩, h, rfl⟩
      exact h
  | ask k next ih =>
    constructor
    · intro h
      obtain ⟨a, past', rfl, hnext⟩ := yields_ask.1 h
      obtain ⟨past₁, r, past₂, hfirst, hsecond, rfl⟩ := (ih a).1 hnext
      exact ⟨⟨k, a⟩ :: past₁, r, past₂, .ask hfirst, hsecond, rfl⟩
    · rintro ⟨past₁, r, past₂, hfirst, hsecond, rfl⟩
      obtain ⟨a, past', rfl, hnext⟩ := yields_ask.1 hfirst
      exact .ask ((ih a).2 ⟨past', r, past₂, hnext, hsecond, rfl⟩)

/-! ### Programs that may raise -/

/-- One question of a program that may raise. -/
def want (k : κ) : ExceptT ε (Reads α) (α k) := ExceptT.lift (query k)

theorem yields_want {k : κ} {a : α k} :
    Yields (want k : ExceptT ε (Reads α) (α k)).run past (.ok a) ↔ past = [⟨k, a⟩] := by
  constructor
  · intro h
    obtain ⟨a', past', rfl, hnext⟩ := yields_ask.1 h
    obtain ⟨rfl, hr⟩ := yields_done.1 hnext
    cases hr
    rfl
  · rintro rfl
    exact .ask (.done _)

theorem yields_pure_ok {a b : ρ} :
    Yields (pure a : ExceptT ε (Reads α) ρ).run past (.ok b) ↔ past = [] ∧ b = a := by
  refine yields_done.trans ?_
  simp

theorem not_yields_throw {e : ε} {b : ρ} :
    ¬ Yields (throw e : ExceptT ε (Reads α) ρ).run past (.ok b) := by
  intro h
  cases (yields_done.1 h).2

theorem yields_ok_bind {x : ExceptT ε (Reads α) ρ} {g : ρ → ExceptT ε (Reads α) ρ'} {c : ρ'} :
    Yields (x >>= g).run past (.ok c) ↔
      ∃ past₁ b past₂, Yields x.run past₁ (.ok b) ∧ Yields (g b).run past₂ (.ok c) ∧
        past = past₁ ++ past₂ := by
  refine yields_andThen.trans ?_
  constructor
  · rintro ⟨past₁, r, past₂, hfirst, hsecond, rfl⟩
    cases r with
    | ok b => exact ⟨past₁, b, past₂, hfirst, hsecond, rfl⟩
    | error e => cases (yields_done.1 hsecond).2
  · rintro ⟨past₁, b, past₂, hfirst, hsecond, rfl⟩
    exact ⟨past₁, .ok b, past₂, hfirst, hsecond, rfl⟩

end Reads
