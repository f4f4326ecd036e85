import Mathlib.Tactic.Positivity
import Scorebook.Proofs.Nominal.ByLabel
import Scorebook.Proofs.Nominal.Independence

/-!
# Cramér's V is well defined

Whatever rows a nominal sample has taken in, it is the sample of some pairs of codes, so that its
totals and its table describe the same pairs. The bounds of the statistic of independence are
therefore bounds of what a comparison computes: nothing is divided by zero, and the ratio under the
square root of Cramér's V never exceeds one.
-/

namespace Scorebook.Nominal

namespace PairedSample

variable (coder : Coder) (pairs : List (ℤ × ℤ))

/-- A row adds its pair of codes to those of a sample, if both of its values have one. -/
theorem exists_pushRow_eq_ofCodes (row : PairedRow) :
    ∃ coder' pairs', (ofCodes coder pairs).pushRow row = ofCodes coder' pairs' := by
  unfold pushRow
  rcases hA : (ofCodes coder pairs).coder.code row.rawA with ⟨codeA?, between⟩
  rcases hB : between.code row.rawB with ⟨codeB?, coder'⟩
  simp only [hB]
  cases codeA? with
  | none => exact ⟨coder', pairs, rfl⟩
  | some a =>
    cases codeB? with
    | none => exact ⟨coder', pairs, rfl⟩
    | some b =>
      refine ⟨coder', pairs ++ [(a, b)], ?_⟩
      simp [ofCodes, Sample.push_ofCodes, Keyed.tally_concat]

/-- Whatever the definition, a sample is that of some pairs of codes. -/
theorem exists_ofRows_eq_ofCodes (definition : Definition) (rows : List PairedRow) :
    ∃ coder pairs, ofRows definition rows = ofCodes coder pairs := by
  induction rows using List.reverseRecOn with
  | nil => exact ⟨Coder.ofDefinition definition, [], rfl⟩
  | append_singleton rows row ih =>
    obtain ⟨coder, pairs, hrows⟩ := ih
    rw [ofRows_concat, hrows]
    exact exists_pushRow_eq_ofCodes coder pairs row

/-- What holds of all counts of both sides holds of all codes that occur there. -/
theorem forall_counts_ofCodes (P : ℤ → ℕ → ℤ → ℕ → Prop) :
    (∀ row ∈ (ofCodes coder pairs).sideA.counts, ∀ column ∈ (ofCodes coder pairs).sideB.counts,
        P row.1 row.2 column.1 column.2) ↔
      ∀ x ∈ firsts pairs, ∀ y ∈ seconds pairs,
        P x ((pairs.map (·.1)).count x) y ((pairs.map (·.2)).count y) := by
  simp only [firsts, seconds, List.mem_toFinset]
  rw [← Keyed.forall_mem_tally fun x xs => ∀ y ∈ pairs.map (·.2),
    P x xs y ((pairs.map (·.2)).count y)]
  refine forall₂_congr fun row _ => ?_
  exact Keyed.forall_mem_tally (P row.1 row.2)

end PairedSample

section Ratio

variable {β : Type} [DecidableEq β] (pairs : List (β × β))

/-- The ratio under the square root of Cramér's V is at most one. -/
theorem ratio_le_one {K : Type} [ExactArithmetic K] : ((measures pairs).ratio : K) ≤ 1 := by
  refine div_le_one_of_le₀ (independence_le pairs) ?_
  positivity

/-- Two categories on the side with fewer are enough for Cramér's V, which is the square root of its
ratio. -/
theorem cramersV?_eq : (measures pairs : Measures ℝ).cramersV? =
    if (measures pairs : Measures ℝ).fewer < 2 then none
    else some (Real.sqrt (measures pairs).ratio) := by
  have hempty : (measures pairs : Measures ℝ).paired = 0 →
      (measures pairs : Measures ℝ).fewer < 2 := by
    intro hzero
    obtain rfl := List.length_eq_zero_iff.mp hzero
    simp [measures, firsts]
  have hroot : Arithmetic.smaller (Arithmetic.ofNat 1 : ℝ)
      (Arithmetic.sqrt (measures pairs).ratio) = Real.sqrt (measures pairs).ratio := by
    rw [ExactArithmetic.smaller_eq_min, ExactArithmetic.ofNat_eq_cast, Nat.cast_one]
    exact min_eq_right (Real.sqrt_le_one.mpr (ratio_le_one pairs))
  rw [Measures.cramersV?, hroot]
  simp only [or_iff_right_of_imp hempty]

end Ratio

namespace PairedSample

variable {K : Type} [ExactArithmetic K] [TailTable ℝ]

/-- Cramér's V is well defined, and it lies in the unit interval by itself. No expected count is
zero. The statistic of independence lies between zero and its greatest possible value, so the bound
by one never applies. It is zero exactly if every two codes meet as often as their totals let
expect. -/
theorem association_within_bounds (definition : Definition) (settings : Settings)
    (rows : List PairedRow) :
    let sample := ofRows definition rows
    let rowTotals := sample.sideA.counts
    let columnTotals := sample.sideB.counts
    let whole := sample.sideA.scored
    let fewer := min rowTotals.length columnTotals.length
    let chiSquare : K := independenceStatistic sample.table rowTotals columnTotals whole
    (∀ row ∈ rowTotals, ∀ column ∈ columnTotals, (0 : K) < expectedCount row.2 column.2 whole) ∧
    0 ≤ chiSquare ∧ chiSquare ≤ whole * (fewer - 1 : ℕ) ∧
    (chiSquare = 0 ↔ ∀ row ∈ rowTotals, ∀ column ∈ columnTotals,
      whole * sample.table.cell row.1 column.1 = row.2 * column.2) ∧
    (sample.comparison settings : Comparison ℝ).cramersV =
      if fewer < 2 then none
      else some (Real.sqrt (independenceStatistic sample.table rowTotals columnTotals whole /
        (whole * (fewer - 1 : ℕ)))) := by
  obtain ⟨coder, pairs, hsample⟩ := exists_ofRows_eq_ofCodes definition rows
  rw [hsample]
  intro sample rowTotals columnTotals whole fewer chiSquare
  have hwhole : whole = pairs.length := scored_ofCodes coder pairs
  have hchiSquare : chiSquare = (measures pairs).independence := by
    rw [← independenceStatistic_ofCodes coder, ← hwhole]
  have hfewer : fewer = (measures pairs : Measures K).fewer := fewer_ofCodes coder pairs
  refine ⟨?_, ?_, ?_, ?_, ?_⟩
  · refine (forall_counts_ofCodes coder pairs fun _ rowTotal _ columnTotal =>
      (0 : K) < expectedCount rowTotal columnTotal whole).mpr fun x hx y hy => ?_
    have hpos : (0 : K) < expected pairs x y := expected_pos hx hy
    simpa [expectedCount, hwhole, expected] using hpos
  · rw [hchiSquare]
    exact independence_nonneg pairs
  · rw [hchiSquare, hwhole, hfewer]
    exact independence_le pairs
  · rw [hchiSquare, independence_eq_zero_iff, hwhole]
    have hcounts := forall_counts_ofCodes coder pairs fun x rowTotal y columnTotal =>
      pairs.length * sample.table.cell x y = rowTotal * columnTotal
    simp only [sample, cell_ofCodes] at hcounts ⊢
    exact hcounts.symm
  · have hratio : independenceStatistic sample.table rowTotals columnTotals whole /
        (whole * (fewer - 1 : ℕ)) = ((measures pairs).ratio : ℝ) := by
      rw [hwhole, independenceStatistic_ofCodes, hfewer]
      rfl
    rw [hratio, hfewer]
    exact (cramersV?_ofCodes coder pairs).trans (cramersV?_eq pairs)

/-- The bound is attained by two labels that always meet the same one on the other side. -/
example :
    let sample := ofRows (Definition.nominal "topic" none) [⟨1, .label "x", .label "p"⟩,
      ⟨2, .label "x", .label "p"⟩, ⟨3, .label "y", .label "q"⟩]
    (independenceStatistic sample.table sample.sideA.counts sample.sideB.counts 3 : ℚ) =
      3 * (2 - 1 : ℕ) := by
  decide +kernel

end PairedSample

end Scorebook.Nominal
