import Mathlib.Tactic.Linarith
import Scorebook.Proofs.Ordinal.Midranks
import Scorebook.Proofs.Results

/-!
# The signed-rank test

In exact arithmetic the test that an ordinal comparison reports is the signed-rank test of the
differences in its rows. Its rank sums are sums of midranks, its variance is never zero as long as
there is a difference, and so every such sample has a deviate.
-/

namespace Scorebook

variable {K : Type} [ExactArithmetic K] [TailTable K] {definition : Definition}

namespace Ordinal

/-- The variance of the signed-rank test with its correction for ties is a quarter of the sum of
the squared midranks, so that every sample with a difference has a spread and a deviate. The
positive rank sum is no further away from its mean than zero is. -/
theorem PairedSample.signedRank_spreads (definition : Definition) (settings : Settings)
    (rows : List PairedRow) :
    let differences := differencesOf (Coder.ofDefinition definition) rows
    let histogram := (ofRows definition rows).histogram
    let variance : K := (RankSums.ofHistogram histogram).variance
    let test : SignedRankTest K := ((ofRows definition rows).comparison settings).signedRank
    let n : K := test.nonzero
    test.nonzero = differences.length ∧
    variance = n * (n + 1) * (2 * n + 1) / 24 -
      (histogram.map fun entry => (entry.2.count : K) ^ 3 - entry.2.count).sum / 48 ∧
    variance = (differences.map fun d => midrank differences d ^ 2).sum / 4 ∧
    (0 < variance ↔ 0 < test.nonzero) ∧
    (test.z.isSome ↔ 0 < test.nonzero) ∧
    -(n * (n + 1) / 4) ≤ test.plus - n * (n + 1) / 4 ∧
    test.plus - n * (n + 1) / 4 ≤ n * (n + 1) / 4 := by
  intro differences histogram variance test n
  have hcounts : histogram.Counts differences := counts_ofRows definition rows
  have hranks := RankSums.ranks_ofHistogram (K := K) hcounts
  have hcount : test.nonzero = differences.length := hranks.count
  have hlength : (differences.length : K) = n := by
    rw [← hcount]
  refine ⟨hcount, ?_, hranks.variance, hranks.variance_pos_iff, hranks.isSome_z?_iff _, ?_⟩
  · have hvariance : variance = n * (n + Arithmetic.ofNat 1) *
        (Arithmetic.ofNat 2 * n + Arithmetic.ofNat 1) / Arithmetic.ofNat 24 -
          (RankSums.ofHistogram histogram).ties / Arithmetic.ofNat 48 := by
      simp only [n, ← ExactArithmetic.ofNat_eq_cast]
      rfl
    rw [hvariance, RankSums.ties_ofHistogram]
    simp
  · have hsum : test.plus + test.minus = differences.length * (differences.length + 1) / 2 :=
      RankSums.plus_add_minus_eq hcounts
    obtain ⟨hplus, hminus⟩ : 0 ≤ test.plus ∧ 0 ≤ test.minus := hranks.rankSums_nonneg
    rw [hlength] at hsum
    constructor <;> linarith

end Ordinal

open Scorebook.Ordinal in
/-- The signed-rank test of a comparison is the one of the textbooks. It ranks the differences of
the codes that are not zero, and each rank sum adds up the midranks of the differences of its sign.
Both together are the sum of all ranks, and the statistic is the smaller one. -/
theorem compareExperiments_signedRank (hordinal : definition.scoringType = .ordinal)
    (settings : Settings) (experimentA experimentB : String) (rows : List PairedRow) :
    let differences := differencesOf (Coder.ofDefinition definition) rows
    let n := differences.length
    ∃ comparison : Ordinal.Comparison K,
      compareExperiments definition experimentA experimentB settings false (rows.map .row) =
        (.ok ⟨experimentA, experimentB, definition.scoreId, definition.scoringType,
          .ordinal comparison⟩, false) ∧
      comparison.signedRank.nonzero = n ∧
      comparison.signedRank.plus = ((differences.filter (0 < ·)).map (midrank differences)).sum ∧
      comparison.signedRank.minus = ((differences.filter (· < 0)).map (midrank differences)).sum ∧
      comparison.signedRank.plus + comparison.signedRank.minus = n * (n + 1) / 2 ∧
      comparison.signedRank.statistic =
        min comparison.signedRank.plus comparison.signedRank.minus := by
  intro differences n
  have hcounts : (PairedSample.ofRows definition rows).histogram.Counts differences :=
    PairedSample.counts_ofRows definition rows
  have hranks := RankSums.ranks_ofHistogram (K := K) hcounts
  refine ⟨_, compareExperiments_eq_ok (compareRows_ofRows hordinal settings rows) _ _, ?_⟩
  exact ⟨hranks.count, hranks.plus, hranks.minus, RankSums.plus_add_minus_eq hcounts,
    ExactArithmetic.smaller_eq_min _ _⟩

open Scorebook.Ordinal in
/-- On a scale from the least to the greatest rank the two greatest differences share the ranks two
and three. A tie and a row off the scale are not ranked. -/
theorem compareExperiments_signedRank_extreme_ranks :
    let definition := Definition.ordinal "extreme"
      [⟨"low", -0x8000000000000000⟩, ⟨"middle", 0⟩, ⟨"high", 0x7FFFFFFFFFFFFFFF⟩] .empty
    let rows : List PairedRow := [⟨1, .label "low", .label "high"⟩,
      ⟨2, .label "low", .label "high"⟩, ⟨3, .label "high", .label "middle"⟩,
      ⟨4, .label "middle", .label "middle"⟩, ⟨5, .label "low", .label "unheard of"⟩]
    let _ : TailTable ℚ := ⟨some, fun statistic _ => some statistic, fun t _ => some t⟩
    definition.scoringType = .ordinal ∧
    differencesOf (Coder.ofDefinition definition) rows =
      [0xFFFFFFFFFFFFFFFF, 0xFFFFFFFFFFFFFFFF, -0x7FFFFFFFFFFFFFFF] ∧
    ∃ comparison : Ordinal.Comparison ℚ,
      compareExperiments definition "first" "second" .standard false (rows.map .row) =
        (.ok ⟨"first", "second", "extreme", .ordinal, .ordinal comparison⟩, false) ∧
      comparison.signedRank.nonzero = 3 ∧
      comparison.signedRank.plus = 5 ∧
      comparison.signedRank.minus = 1 ∧
      comparison.signedRank.plus + comparison.signedRank.minus = 3 * (3 + 1) / 2 ∧
      comparison.signedRank.statistic =
        min comparison.signedRank.plus comparison.signedRank.minus := by
  intro definition rows tails
  have hordinal : definition.scoringType = .ordinal := rfl
  have hdifferences : differencesOf (Coder.ofDefinition definition) rows =
      [0xFFFFFFFFFFFFFFFF, 0xFFFFFFFFFFFFFFFF, -0x7FFFFFFFFFFFFFFF] := by decide +kernel
  obtain ⟨comparison, hok, hnonzero, hplus, hminus, hsum, hstatistic⟩ :=
    compareExperiments_signedRank (K := ℚ) hordinal .standard "first" "second" rows
  rw [hdifferences] at hnonzero hplus hminus hsum
  refine ⟨hordinal, hdifferences, comparison, hok, hnonzero, ?_, ?_, hsum, hstatistic⟩
  · rw [hplus]
    decide +kernel
  · rw [hminus]
    decide +kernel

end Scorebook
