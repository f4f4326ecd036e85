import Scorebook.Join
import Scorebook.Ordinal.SignedRank
import Scorebook.Ordinal.Summary
import Scorebook.Outcomes

/-!
# Paired comparison of ordinal scores

Each side is summarized as a population of its own. The differences of the codes are tallied,
and their magnitudes collected for the signed-rank test. A row with a value off the scale on
either side is counted as excluded.
-/

namespace Scorebook

namespace Ordinal

/-- The pass rate of either side, and what the second gains over the first. -/
structure PassRateDelta (α : Type) where
  rateA : α
  rateB : α
  delta : α
  deriving Repr

/-- The cumulative share of one category on each side. -/
structure CdfPair (α : Type) where
  code : Int
  cdfA : α
  cdfB : α
  deriving Repr

/-- The comparison of two ordinal sides over their shared rows. -/
structure Comparison (α : Type) where
  paired : Nat
  passRates : PassRateDelta α
  /-- The cumulative shares by label. -/
  cdf : List (String × CdfPair α)
  outcomes : Outcomes α
  signedRank : SignedRankTest α
  cliffsDelta : Option α
  superiority : Option α
  excluded : Nat
  deriving Repr

/-- The shared rows of a pass so far. -/
structure PairedSample where
  coder : Coder
  sideA : Sample
  sideB : Sample
  tally : Tally
  histogram : Histogram
  excluded : Nat

namespace PairedSample

/-- The sample without rows. -/
def empty (definition : Definition) : PairedSample :=
  let coder := Coder.ofDefinition definition
  let side := Sample.empty definition.passRule coder
  ⟨coder, side, side, .empty, [], 0⟩

/-- Takes in one more row if both values are on the scale. -/
def pushRow (sample : PairedSample) (row : PairedRow) : PairedSample :=
  match (sample.coder.code row.rawA).1, (sample.coder.code row.rawB).1 with
  | some a, some b =>
    { sample with
      sideA := sample.sideA.push a
      sideB := sample.sideB.push b
      tally := sample.tally.record (compare b a)
      histogram := if b = a then sample.histogram else sample.histogram.record (b - a) }
  | _, _ => { sample with excluded := sample.excluded + 1 }

/-- The cumulative shares of two summaries by label. -/
def pairCdf {α : Type} [Arithmetic α] (a b : Summary α) : List (String × CdfPair α) :=
  let share (summary : Summary α) (code : Int) : α :=
    (Keyed.find? code summary.cdf).getD (Arithmetic.ofNat 0)
  Keyed.ofList (a.labels.map fun (code, label) =>
    (label, ⟨code, share a code, share b code⟩))

/-- The comparison of the rows so far. -/
def comparison {α : Type} [Arithmetic α] [TailTable α] (settings : Settings)
    (sample : PairedSample) : Comparison α :=
  let a : Summary α := sample.sideA.summary sample.coder settings.percentiles
  let b : Summary α := sample.sideB.summary sample.coder settings.percentiles
  { paired := a.scored
    passRates := ⟨a.passRate.proportion, b.passRate.proportion,
      b.passRate.proportion - a.passRate.proportion⟩
    cdf := pairCdf a b
    outcomes := sample.tally.outcomes
    signedRank := signedRankTest settings sample.histogram
    cliffsDelta := sample.tally.cliffsDelta?
    superiority := sample.tally.superiority?
    excluded := sample.excluded }

end PairedSample

end Ordinal

end Scorebook
