import Scorebook.Numeric.Moments
import Scorebook.Numeric.Percentile
import Scorebook.Score.RawValue
import Scorebook.Settings

/-!
# Summaries of numeric scores

A numeric sample keeps the running moments and the values themselves, because percentiles need
the exact order of the values. Rows whose value is no number are counted and otherwise ignored.
-/

namespace Scorebook

namespace Numeric

/-- The descriptive statistics of a numeric population. -/
structure Summary (α : Type) where
  scored : Nat
  mean : Option α
  variance : Option α
  deviation : Option α
  least : Option α
  greatest : Option α
  p10 : Option α
  p25 : Option α
  p50 : Option α
  p75 : Option α
  p90 : Option α
  interval : Option (Interval α)
  excluded : Nat
  deriving Repr

/-- The numeric values of a pass so far; the latest value comes first. -/
structure Sample (α : Type) where
  moments : Moments α
  values : List α
  excluded : Nat

namespace Sample

variable {α : Type} [Arithmetic α]

/-- The sample without values. -/
def empty : Sample α := ⟨.empty, [], 0⟩

/-- Takes in one more value. -/
def push (sample : Sample α) (x : α) : Sample α :=
  { sample with moments := sample.moments.push x, values := x :: sample.values }

/-- Counts a row without a numeric value. -/
def exclude (sample : Sample α) : Sample α := { sample with excluded := sample.excluded + 1 }

/-- Takes in a raw value if it is a number, and counts its row as excluded otherwise. -/
def pushRaw (sample : Sample α) (raw : RawValue) : Sample α :=
  match raw.number? with
  | some x => sample.push (Arithmetic.ofDouble x)
  | none => sample.exclude

/-- The number of values. -/
def scored (sample : Sample α) : Nat := sample.moments.count

/-- The statistics of the values so far. -/
def summary (settings : Settings) (sample : Sample α) : Summary α :=
  let sorted := sortValues sample.values.reverse
  let variance := sample.moments.variance?
  { scored := sample.moments.count
    mean := sample.moments.mean?
    variance
    deviation := variance.map Arithmetic.sqrt
    least := sorted.head?
    greatest := sorted.getLast?
    p10 := hundredths? sorted 10
    p25 := hundredths? sorted 25
    p50 := hundredths? sorted 50
    p75 := hundredths? sorted 75
    p90 := hundredths? sorted 90
    interval := sample.moments.interval? (Arithmetic.ofDouble settings.zCritical)
    excluded := sample.excluded }

end Sample

end Numeric

end Scorebook
