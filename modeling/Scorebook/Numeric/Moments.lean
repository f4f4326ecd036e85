import Scorebook.Arithmetic

/-!
# Running moments

Mean and spread of a sequence are kept in one pass. Each value moves the mean by its share, and
adds to the sum of squared deviations the product of its distances from the old and from the
new mean.
-/

namespace Scorebook

/-- A two-sided confidence interval. -/
structure Interval (α : Type) where
  lower : α
  upper : α
  deriving Repr

/-- The count, the mean and the sum of squared deviations of the values so far. -/
structure Moments (α : Type) where
  count : Nat
  center : α
  squares : α
  deriving Repr

namespace Moments

open Arithmetic

variable {α : Type} [Arithmetic α]

/-- The moments of no values. -/
def empty : Moments α := ⟨0, ofNat 0, ofNat 0⟩

/-- Takes in one more value. -/
def push (moments : Moments α) (x : α) : Moments α :=
  let count := moments.count + 1
  let delta := x - moments.center
  let center := moments.center + delta / ofNat count
  ⟨count, center, moments.squares + delta * (x - center)⟩

/-- The moments of a list of values. -/
def ofList (values : List α) : Moments α := values.foldl push empty

/-- The mean, defined as soon as there is a value. -/
def mean? (moments : Moments α) : Option α :=
  if 0 < moments.count then some moments.center else none

/-- The sample variance, defined for two values or more. Rounding can leave the sum of squares
just below zero, which counts as zero. -/
def variance? (moments : Moments α) : Option α :=
  if 1 < moments.count then
    some (positivePart (moments.squares / ofNat (moments.count - 1)))
  else none

/-- The sample standard deviation. -/
def deviation? (moments : Moments α) : Option α := moments.variance?.map sqrt

/-- Half the width of a confidence interval of a mean of `count` values. -/
def halfWidth (z deviation : α) (count : Nat) : α := z * deviation / sqrt (ofNat count)

/-- The interval of a given half-width around a center. -/
def intervalAround (center half : α) : Interval α := ⟨center - half, center + half⟩

/-- The confidence interval of the mean by the normal approximation. -/
def interval? (moments : Moments α) (z : α) : Option (Interval α) := do
  let mean ← moments.mean?
  let deviation ← moments.deviation?
  return intervalAround mean (halfWidth z deviation moments.count)

end Moments

end Scorebook
