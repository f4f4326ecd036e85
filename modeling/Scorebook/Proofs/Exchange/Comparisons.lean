import Scorebook.Proofs.Exchange.Numeric
import Scorebook.Proofs.Exchange.Ordinal
import Scorebook.Proofs.Results

/-!
# Exchanging the sides of a comparison

Comparing two experiments the other way round tells nothing new about a numeric or an ordinal
score: in exact arithmetic every field of the comparison follows from the field that was reported
before. A nominal comparison has other codes when its sides are exchanged, so it is treated apart.
-/

namespace Scorebook

variable {K : Type} [ExactArithmetic K]

/-- The second comparison is the first one with its sides exchanged. No nominal comparison counts,
because its codes change with the order of the sides. -/
def ComparisonBody.MirroredBy : ComparisonBody K → ComparisonBody K → Prop
  | .numeric comparison, .numeric mirrored => mirrored = comparison.exchanged
  | .ordinal comparison, .ordinal mirrored => mirrored = comparison.exchanged
  | _, _ => False

variable [TailTable K] {definition : Definition}

/-- The comparison of exchanged rows on a numeric score is the exchanged comparison. -/
theorem Numeric.compareRows_exchanged (hnumeric : definition.scoringType.isCategorical = false)
    (settings : Settings) (rows : List PairedRow) : ∃ comparison : Numeric.Comparison K,
      compareRows definition settings false (rows.map .row) = (.ok (.numeric comparison), false) ∧
      compareRows definition settings false ((rows.map PairedRow.exchanged).map .row) =
        (.ok (.numeric comparison.exchanged), false) := by
  refine ⟨_, compareRows_rows hnumeric settings rows, ?_⟩
  rw [compareRows_rows hnumeric, PairedRow.readPairs_exchanged, PairedRow.unreadable_exchanged,
    PairedSample.ofPairs_swap, PairedSample.comparison_exchanged]

/-- The comparison of exchanged rows on an ordinal score is the exchanged comparison. -/
theorem Ordinal.compareRows_exchanged (hordinal : definition.scoringType = .ordinal)
    (settings : Settings) (rows : List PairedRow) : ∃ comparison : Ordinal.Comparison K,
      compareRows definition settings false (rows.map .row) = (.ok (.ordinal comparison), false) ∧
      compareRows definition settings false ((rows.map PairedRow.exchanged).map .row) =
        (.ok (.ordinal comparison.exchanged), false) := by
  refine ⟨_, compareRows_rows hordinal settings rows, ?_⟩
  rw [compareRows_rows hordinal, PairedRow.readPairs_exchanged, PairedRow.unreadable_exchanged,
    PairedSample.comparison_swap]

/-- The comparison of exchanged rows succeeds with the exchanged comparison, unless the score is
nominal. -/
theorem compareExperiments_exchanged (htype : definition.scoringType ≠ .nominal)
    (settings : Settings) (experimentA experimentB : String) (rows : List PairedRow) :
    ∃ body mirrored : ComparisonBody K,
      compareExperiments definition experimentA experimentB settings false (rows.map .row) =
        (.ok ⟨experimentA, experimentB, definition.scoreId, definition.scoringType, body⟩,
          false) ∧
      compareExperiments definition experimentA experimentB settings false
          ((rows.map PairedRow.exchanged).map .row) =
        (.ok ⟨experimentA, experimentB, definition.scoreId, definition.scoringType, mirrored⟩,
          false) ∧
      body.MirroredBy mirrored := by
  cases hcategorical : definition.scoringType.isCategorical with
  | false =>
    obtain ⟨comparison, hrows, hexchanged⟩ :=
      Numeric.compareRows_exchanged (K := K) hcategorical settings rows
    exact ⟨_, _, compareExperiments_eq_ok hrows _ _, compareExperiments_eq_ok hexchanged _ _, rfl⟩
  | true =>
    have hordinal : definition.scoringType = .ordinal := by
      cases htype : definition.scoringType <;> simp_all [ScoringType.isCategorical]
    obtain ⟨comparison, hrows, hexchanged⟩ :=
      Ordinal.compareRows_exchanged (K := K) hordinal settings rows
    exact ⟨_, _, compareExperiments_eq_ok hrows _ _, compareExperiments_eq_ok hexchanged _ _, rfl⟩

/-- A win, a loss and a tie on a scale of two ranks, beside a row that is off the scale. -/
theorem compareExperiments_exchanged_graded :
    let definition := Definition.ordinal "grade" [⟨"poor", 1⟩, ⟨"good", 4⟩] ⟨none, some 4⟩
    let rows : List PairedRow := [⟨1, .label "poor", .label "good"⟩,
      ⟨2, .label "good", .label "poor"⟩, ⟨3, .label "good", .label "good"⟩,
      ⟨4, .label "good", .label "unheard of"⟩]
    let _ : TailTable ℚ := ⟨some, fun statistic _ => some statistic, fun t _ => some t⟩
    definition.scoringType ≠ .nominal ∧
    ∃ body mirrored : ComparisonBody ℚ,
      compareExperiments definition "first" "second" .standard false (rows.map .row) =
        (.ok ⟨"first", "second", "grade", .ordinal, body⟩, false) ∧
      compareExperiments definition "first" "second" .standard false
          ((rows.map PairedRow.exchanged).map .row) =
        (.ok ⟨"first", "second", "grade", .ordinal, mirrored⟩, false) ∧
      body.MirroredBy mirrored := by
  intro definition rows tails
  have htype : definition.scoringType ≠ .nominal := by decide
  exact ⟨htype, compareExperiments_exchanged htype .standard "first" "second" rows⟩

end Scorebook
