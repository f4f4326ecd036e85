import Scorebook.Join
import Scorebook.Numeric.Moments
import Scorebook.Outcomes
import Scorebook.Settings
import Scorebook.Tail

/-!
# Paired comparison of numeric scores

Three running moments are kept: one for each side and one for the differences. The sides are
fed the same values in the same order as a sample of that side alone would be. A row in which
either value is no number is counted as excluded.
-/

namespace Scorebook

namespace Numeric

open Arithmetic

/-- The paired t test of the differences. -/
structure TTest (α : Type) where
  statistic : α
  df : α
  pValue : Option α
  significant : Bool
  deriving Repr

/-- The comparison of two numeric sides over their shared rows. -/
structure Comparison (α : Type) where
  paired : Nat
  meanA : Option α
  meanB : Option α
  deviationA : Option α
  deviationB : Option α
  deltaMean : Option α
  outcomes : Outcomes α
  deltaInterval : Option (Interval α)
  tTest : Option (TTest α)
  excluded : Nat
  deriving Repr

/-- The shared rows of a pass so far. -/
structure PairedSample (α : Type) where
  sideA : Moments α
  sideB : Moments α
  differences : Moments α
  tally : Tally
  excluded : Nat

namespace PairedSample

variable {α : Type} [Arithmetic α]

/-- The sample without rows. -/
def empty : PairedSample α := ⟨.empty, .empty, .empty, .empty, 0⟩

/-- Takes in one more pair of numbers. -/
def push (sample : PairedSample α) (a b : α) : PairedSample α :=
  { sample with
    sideA := sample.sideA.push a
    sideB := sample.sideB.push b
    differences := sample.differences.push (b - a)
    tally := sample.tally.record (compareNumbers b a) }

/-- Takes in one more row if both values are numbers, and counts it as excluded otherwise. -/
def pushRow (sample : PairedSample α) (row : PairedRow) : PairedSample α :=
  match row.rawA.number?, row.rawB.number? with
  | some a, some b => sample.push (ofDouble a) (ofDouble b)
  | _, _ => { sample with excluded := sample.excluded + 1 }

variable [TailTable α]

/-- The t test of the differences, defined when they vary. -/
def tTest? (settings : Settings) (differences : Moments α) : Option (TTest α) := do
  let mean ← differences.mean?
  let deviation ← differences.deviation?
  if less (ofNat 0) deviation then
    let statistic := mean / (deviation / sqrt (ofNat differences.count))
    let df := ofNat (differences.count - 1)
    let pValue := Tail.student statistic df
    return ⟨statistic, df, pValue,
      Tail.isSignificant (ofDouble settings.significanceLevel) pValue⟩
  else none

/-- The comparison of the rows so far. -/
def comparison (settings : Settings) (sample : PairedSample α) : Comparison α :=
  let meanA := sample.sideA.mean?
  let meanB := sample.sideB.mean?
  let deltaMean := do return (← meanB) - (← meanA)
  { paired := sample.differences.count
    meanA
    meanB
    deviationA := sample.sideA.deviation?
    deviationB := sample.sideB.deviation?
    deltaMean
    outcomes := sample.tally.outcomes
    deltaInterval := do
      let deviation ← sample.differences.deviation?
      return Moments.intervalAround (← deltaMean)
        (Moments.halfWidth (ofDouble settings.zCritical) deviation sample.differences.count)
    tTest := tTest? settings sample.differences
    excluded := sample.excluded }

end PairedSample

end Numeric

end Scorebook
