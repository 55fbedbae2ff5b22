import AgentPlatform.Graph.Canonical

/-!
# Numbers in cells

`_number` of `inventory.py` and `oee.py`: a cell that is not a finite number is not read as one.
-/

namespace AgentPlatform.Graph

/-- `NUMBER_RE`: at most fifteen digits, and at most nine after a dot or a comma. -/
def shortDecimal? (text : List Char) : Option Decimal :=
  (Decimal.read (fun c => c == '.' || c == ',') text).filter fun d =>
    decide (d.whole.length ≤ 15) && decide (d.fraction.length ≤ 9)

/-- `_number`. -/
def cellNumber (lib : Texts) : Cell → Option Binary64
  | .none => Option.none
  | .bool _ => Option.none
  | .int n => (Binary64.ofRat n).finite?
  | .float x => x.finite?
  | v => (shortDecimal? (strip (v.text lib)).toList).map fun d => Binary64.ofRat d.value

end AgentPlatform.Graph
