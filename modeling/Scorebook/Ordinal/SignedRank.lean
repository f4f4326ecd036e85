import Scorebook.Keyed
import Scorebook.Settings
import Scorebook.Tail

/-!
# The signed-rank test

The differences of paired codes are ranked by their magnitude, differences of the same magnitude
sharing the middle of their ranks. A histogram of the magnitudes is enough for that, since codes
lie on a small declared scale.
-/

namespace Scorebook

namespace Ordinal

open Arithmetic

/-- The differences of one magnitude: how many there are, and how many of them are positive. -/
structure Bucket where
  count : Nat
  positive : Nat
  deriving Repr, DecidableEq

/-- The buckets of the magnitudes that occur, in ascending order. -/
abbrev Histogram := List (Nat × Bucket)

namespace Histogram

/-- Counts one more difference that is not zero. -/
def record (histogram : Histogram) (difference : Int) : Histogram :=
  Keyed.alter difference.natAbs
    (fun bucket =>
      let bucket := bucket.getD ⟨0, 0⟩
      ⟨bucket.count + 1, if 0 < difference then bucket.positive + 1 else bucket.positive⟩)
    histogram

end Histogram

/-- The signed-rank test by the normal approximation. -/
structure SignedRankTest (α : Type) where
  /-- The number of differences that are not zero. -/
  nonzero : Nat
  plus : α
  minus : α
  /-- The smaller of the two rank sums. -/
  statistic : α
  z : Option α
  pValue : Option α
  significant : Bool
  deriving Repr

/-- Rank sums under way: the number of ranks given so far, the sums of the ranks of positive and
of negative differences, and the correction of the variance for ties. -/
structure RankSums (α : Type) where
  offset : α
  plus : α
  minus : α
  ties : α
  count : Nat

variable {α : Type} [Arithmetic α]

namespace RankSums

/-- The rank sums before the first bucket. -/
def empty : RankSums α := ⟨ofNat 0, ofNat 0, ofNat 0, ofNat 0, 0⟩

/-- Ranks the differences of the next bucket. -/
def push (sums : RankSums α) (bucket : Bucket) : RankSums α :=
  let t : α := ofNat bucket.count
  let midrank := sums.offset + (t + ofNat 1) / ofNat 2
  { offset := sums.offset + t
    plus := sums.plus + midrank * ofNat bucket.positive
    minus := sums.minus + midrank * ofNat (bucket.count - bucket.positive)
    ties := sums.ties + (t * t * t - t)
    count := sums.count + bucket.count }

/-- The rank sums of a histogram. -/
def ofHistogram (histogram : Histogram) : RankSums α :=
  histogram.foldl (fun sums (_, bucket) => sums.push bucket) empty

/-- The mean of either rank sum if signs are random. -/
def mean (sums : RankSums α) : α :=
  ofNat sums.count * (ofNat sums.count + ofNat 1) / ofNat 4

/-- The variance of either rank sum if signs are random, corrected for ties. -/
def variance (sums : RankSums α) : α :=
  let n : α := ofNat sums.count
  n * (n + ofNat 1) * (ofNat 2 * n + ofNat 1) / ofNat 24 - sums.ties / ofNat 48

/-- The deviation of the positive rank sum from its mean. The correction for continuity takes
half a unit off its magnitude, but not more than there is. -/
def deviation (corrected : Bool) (sums : RankSums α) : α :=
  let raw := sums.plus - sums.mean
  if corrected then
    let magnitude := positivePart (abs raw - ofNat 1 / ofNat 2)
    if less raw (ofNat 0) then -magnitude else magnitude
  else raw

/-- The deviation in standard deviations, if there is a spread. -/
def z? (corrected : Bool) (sums : RankSums α) : Option α :=
  if 0 < sums.count ∧ less (ofNat 0) sums.variance then
    some (sums.deviation corrected / sqrt sums.variance)
  else none

end RankSums

/-- The signed-rank test of a histogram of differences. -/
def signedRankTest [TailTable α] (settings : Settings) (histogram : Histogram) :
    SignedRankTest α :=
  let sums : RankSums α := .ofHistogram histogram
  let z := sums.z? settings.continuityCorrection
  let pValue := z.bind Tail.normal
  { nonzero := sums.count
    plus := sums.plus
    minus := sums.minus
    statistic := smaller sums.plus sums.minus
    z
    pValue
    significant := Tail.isSignificant (ofDouble settings.significanceLevel) pValue }

end Ordinal

end Scorebook
