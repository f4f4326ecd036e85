import Scorebook.Arithmetic

/-!
# Percentiles of sorted values

A fraction of the unit interval is a rank between the first and the last of the sorted values.
The percentile is the value at that rank, or lies between the two values around it.
-/

namespace Scorebook

open Arithmetic

variable {α : Type} [Arithmetic α]

/-- The values in ascending order. -/
def sortValues (values : List α) : List α := values.mergeSort atMost

/-- The value at a rank between whole ranks `lower` and `upper`. -/
def interpolate (lowerValue upperValue weight : α) : α :=
  lowerValue * (ofNat 1 - weight) + upperValue * weight

/-- The percentile of ascending values for a fraction, none for no values. -/
def percentile? (sorted : List α) (fraction : α) : Option α :=
  match sorted with
  | [] => none
  | [x] => some x
  | _ =>
    let rank := intoUnit fraction * ofNat (sorted.length - 1)
    let lower := floor rank
    let upper := ceil rank
    if lower = upper then sorted[lower]?
    else do
      return interpolate (← sorted[lower]?) (← sorted[upper]?) (rank - ofNat lower)

/-- The percentile for a number of hundredths. -/
def hundredths? (sorted : List α) (percent : Nat) : Option α :=
  percentile? sorted (ofNat percent / ofNat 100)

end Scorebook
