import Mathlib.Data.List.Sort
import AgentPlatform.Base

/-!
# What the scheduled coordinators share

The checks `configure` makes of its arguments, and the order in which `tick` takes what is due: the
first by `next_due` and `id`.
-/

namespace AgentPlatform.Coordinator

open Outcome

/-- `_identifier`. -/
def identifier (value name : String) (maximum : ℕ) : Except Err String := do
  ensure (value ≠ "" ∧ value.length ≤ maximum) (.valueError (name ++ " is required"))
  ensure (strip value ≠ "") (.valueError (name ++ " must not be blank"))
  pure (strip value)

def isLowerOrDigit (c : Char) : Bool := ('a' ≤ c && c ≤ 'z') || ('0' ≤ c && c ≤ '9')

/-- `POLICY_ID_RE`. -/
def isPolicyId (id : String) : Bool :=
  match id.toList with
  | [] => false
  | c :: rest =>
    isLowerOrDigit c && decide (rest.length ≤ 63) &&
      rest.all fun c => isLowerOrDigit c || "_.-".toList.contains c

/-- `_bounded`. -/
def bounded (value : ℤ) (name : String) (low high : ℤ) : Except Err Unit :=
  ensure (low ≤ value ∧ value ≤ high)
    (.valueError (name ++ " must be an integer " ++ toString low ++ ".." ++ toString high))

/-- `ORDER BY next_due, id LIMIT 1`. -/
def earliest {ρ : Type} (nextDue : ρ → Time) (id : ρ → String) (rows : List ρ) : Option ρ :=
  (rows.insertionSort fun r r' => nextDue r < nextDue r' ∨ nextDue r = nextDue r' ∧ ¬ id r' < id r).head?

theorem mem_of_earliest {ρ : Type} {nextDue : ρ → Time} {id : ρ → String} {rows : List ρ} {r : ρ}
    (h : earliest nextDue id rows = some r) : r ∈ rows :=
  (List.mem_insertionSort _).1 (List.mem_of_mem_head? h)

theorem exists_earliest {ρ : Type} {nextDue : ρ → Time} {id : ρ → String} {rows : List ρ} {r : ρ}
    (h : r ∈ rows) : ∃ r', earliest nextDue id rows = some r' := by
  refine Option.isSome_iff_exists.1 ?_
  rw [earliest, List.isSome_head?]
  exact List.ne_nil_of_mem ((List.mem_insertionSort _).2 h)

end AgentPlatform.Coordinator
