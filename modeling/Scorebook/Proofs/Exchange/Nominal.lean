import Scorebook.Proofs.Exchange.Rows
import Scorebook.Proofs.Nominal.ByLabel
import Scorebook.Proofs.Results

/-!
# Nominal comparisons of rearranged rows

Codes are given out in the order in which labels appear, so a comparison of the same rows in
another order, or with their sides exchanged, has other codes, another order of its entries and
another order of its cells. By label it says the same, except that with exchanged sides the shares
are exchanged and the table is transposed.
-/

namespace Scorebook

/-- The categories of an exchanged row are exchanged. -/
theorem PairedRow.map_categories_exchanged (rows : List PairedRow) :
    (rows.map exchanged).map categories = (rows.map categories).map Prod.swap := by
  simp only [List.map_map]
  rfl

namespace Nominal

section Exchanged

variable {α : Type}

/-- The shares with the sides exchanged. -/
def CategoryShares.exchanged (shares : CategoryShares α) : CategoryShares α :=
  ⟨shares.label, shares.proportionB, shares.proportionA⟩

namespace Comparison

/-- The comparison seen with the sides exchanged: the shares are exchanged and the table is
transposed. -/
def exchanged (comparison : Comparison α) : Comparison α :=
  { comparison with
    distribution := comparison.distribution.map fun entry => (entry.1, entry.2.exchanged)
    table := comparison.table.map fun entry => (⟨entry.1.b, entry.1.a⟩, entry.2) }

/-- Exchanging the sides keeps the labels of the codes. -/
theorem labelOf?_exchanged (comparison : Comparison α) (code : ℤ) :
    comparison.exchanged.labelOf? code = comparison.labelOf? code := by
  simp only [labelOf?, exchanged, Keyed.find?_map_values, Option.map_map]
  rfl

/-- Exchanging the sides transposes the cells. -/
theorem cells_exchanged (comparison : Comparison α) :
    comparison.exchanged.cells = comparison.cells.map fun cell => (cell.1.swap, cell.2) := by
  simp only [cells, labelOf?_exchanged]
  simp [exchanged, Function.comp_def]

end Comparison

end Exchanged

variable {K : Type} [ExactArithmetic K]

/-- Two comparisons say the same, whatever codes their categories have. -/
structure Comparison.SameByLabel (comparison other : Comparison K) : Prop where
  paired : other.paired = comparison.paired
  agreement : other.agreement = comparison.agreement
  symmetry : other.symmetry = comparison.symmetry
  cramersV : other.cramersV = comparison.cramersV
  /-- The entries have different labels. -/
  nodup : (comparison.distribution.map (·.2.label)).Nodup
  /-- Both comparisons report the same shares for each label. -/
  shares : (other.distribution.map (·.2)).Perm (comparison.distribution.map (·.2))
  /-- Every code of the table is that of an entry. -/
  labelled : ∀ cell ∈ comparison.cells, cell.1.1.isSome ∧ cell.1.2.isSome
  /-- Both comparisons count each pair of labels equally often. -/
  cells : other.cells.Perm comparison.cells

section Pairs

variable {pairs other : List (String × String)}

/-- Reordered pairs have the same shares. -/
theorem sharesOf_perm (h : other.Perm pairs) :
    (sharesOf other : List (CategoryShares K)).Perm (sharesOf pairs) := by
  have hlabels := ((h.map (·.1)).append (h.map (·.2))).dedup
  simp only [sharesOf, h.length_eq, (h.map (·.1)).count_eq, (h.map (·.2)).count_eq]
  exact hlabels.map _

/-- Reordered pairs have the same cells. -/
theorem cellsOf_perm (h : other.Perm pairs) : (cellsOf other).Perm (cellsOf pairs) := by
  simp only [cellsOf, h.count_eq]
  exact h.dedup.map _

variable (pairs)

/-- Exchanged pairs have the exchanged shares. -/
theorem sharesOf_map_swap : (sharesOf (pairs.map Prod.swap) : List (CategoryShares K)).Perm
    ((sharesOf pairs).map CategoryShares.exchanged) := by
  rw [sharesOf, sharesOf, map_fst_swap, map_snd_swap, List.length_map, List.map_map]
  exact List.perm_append_comm.dedup.map _

/-- Exchanged pairs have the transposed cells. -/
theorem cellsOf_map_swap : (cellsOf (pairs.map Prod.swap)).Perm
    ((cellsOf pairs).map fun cell => (cell.1.swap, cell.2)) := by
  rw [cellsOf, cellsOf, List.map_map]
  refine ((dedup_map_perm Prod.swap_injective.injOn).map _).trans (.of_eq ?_)
  rw [List.map_map]
  refine List.map_congr_left fun pair _ => ?_
  obtain ⟨x, y⟩ := pair
  simp [count_map_swap]

end Pairs

namespace Comparison

variable [TailTable K] {settings : Settings} {comparison other : Comparison K}
  {pairs pairs' : List (String × String)}

/-- A comparison of some pairs is one of the reordered pairs. -/
theorem Describes.of_perm (h : comparison.Describes settings pairs) (hperm : pairs'.Perm pairs) :
    comparison.Describes settings pairs' where
  paired := h.paired.trans hperm.length_eq.symm
  agreement := by rw [h.agreement, hperm.length_eq, hperm.countP_eq]
  symmetry := by rw [h.symmetry, measures_perm hperm]
  cramersV := by rw [h.cramersV, measures_perm hperm]
  shares := h.shares.trans (sharesOf_perm hperm).symm
  cells := h.cells.trans (cellsOf_perm hperm).symm

/-- The exchanged comparison is that of the exchanged pairs. -/
theorem Describes.exchanged (h : comparison.Describes settings pairs) :
    comparison.exchanged.Describes settings (pairs.map Prod.swap) where
  paired := h.paired.trans (List.length_map _).symm
  agreement := by
    have hagreeing := congrArg Measures.agreeing (measures_map_swap (K := K) pairs)
    simp only [measures] at hagreeing
    rw [hagreeing, List.length_map]
    exact h.agreement
  symmetry := by rw [measures_map_swap]; exact h.symmetry
  cramersV := by rw [measures_map_swap]; exact h.cramersV
  shares := by
    have hshares : comparison.exchanged.distribution.map (·.2) =
        (comparison.distribution.map (·.2)).map CategoryShares.exchanged := by
      simp [Comparison.exchanged]
    rw [hshares]
    exact (h.shares.map _).trans (sharesOf_map_swap pairs).symm
  cells := by
    rw [cells_exchanged]
    exact (h.cells.map _).trans (cellsOf_map_swap pairs).symm

/-- Two comparisons of the same pairs say the same by label. -/
theorem Describes.sameByLabel (h : comparison.Describes settings pairs)
    (hother : other.Describes settings pairs) : comparison.SameByLabel other where
  paired := hother.paired.trans h.paired.symm
  agreement := hother.agreement.trans h.agreement.symm
  symmetry := hother.symmetry.trans h.symmetry.symm
  cramersV := hother.cramersV.trans h.cramersV.symm
  nodup := by
    have hlabels := h.shares.map (·.label)
    rw [List.map_map, sharesOf, List.map_map] at hlabels
    refine hlabels.nodup_iff.mpr ?_
    simpa [Function.comp_def] using List.nodup_dedup (pairs.map (·.1) ++ pairs.map (·.2))
  shares := hother.shares.trans h.shares.symm
  labelled cell hcell := by
    obtain ⟨pair, -, rfl⟩ := List.mem_map.mp (h.cells.mem_iff.mp hcell)
    exact ⟨rfl, rfl⟩
  cells := hother.cells.trans h.cells.symm

end Comparison

end Nominal

open Nominal in
/-- A comparison on a nominal score depends on the pairs of labels alone. The same rows in another
order give a comparison that says the same by label, with the same ratio under the square root of
Cramér's V, and so do the exchanged rows in any order, up to the exchange of the sides. -/
theorem compareExperiments_sameByLabel {K : Type} [ExactArithmetic K] [TailTable K]
    {definition : Definition} (hnominal : definition.scoringType = .nominal) (settings : Settings)
    (experimentA experimentB : String) (rows other : List PairedRow) :
    let comparison : Nominal.Comparison K :=
      (PairedSample.ofRows definition rows).comparison settings
    let comparison' : Nominal.Comparison K :=
      (PairedSample.ofRows definition other).comparison settings
    let ratio : K := (PairedSample.ofRows definition rows).ratio
    let ratio' : K := (PairedSample.ofRows definition other).ratio
    compareExperiments definition experimentA experimentB settings false (rows.map .row) =
        (.ok ⟨experimentA, experimentB, definition.scoreId, definition.scoringType,
          .nominal comparison⟩, false) ∧
      compareExperiments definition experimentA experimentB settings false (other.map .row) =
        (.ok ⟨experimentA, experimentB, definition.scoreId, definition.scoringType,
          .nominal comparison'⟩, false) ∧
      (other.Perm rows → comparison.SameByLabel comparison' ∧ ratio' = ratio) ∧
      (other.Perm (rows.map PairedRow.exchanged) →
        comparison.exchanged.SameByLabel comparison' ∧ ratio' = ratio) := by
  intro comparison comparison' ratio ratio'
  obtain ⟨labels, hholds⟩ := PairedSample.holds_ofRows hnominal rows
  obtain ⟨labels', hholds'⟩ := PairedSample.holds_ofRows hnominal other
  have hdescribes : comparison.Describes settings _ := hholds.describes settings
  have hdescribes' : comparison'.Describes settings _ := hholds'.describes settings
  have hratio : ratio = _ := hholds.ratio_eq
  have hratio' : ratio' = _ := hholds'.ratio_eq
  refine ⟨compareExperiments_eq_ok (compareRows_ofRows hnominal settings rows) _ _,
    compareExperiments_eq_ok (compareRows_ofRows hnominal settings other) _ _, ?_, ?_⟩
  · intro hperm
    have hcategories := hperm.map PairedRow.categories
    refine ⟨(hdescribes.of_perm hcategories).sameByLabel hdescribes', ?_⟩
    rw [hratio, hratio', measures_perm hcategories]
  · intro hperm
    have hcategories := hperm.map PairedRow.categories
    rw [PairedRow.map_categories_exchanged] at hcategories
    refine ⟨(hdescribes.exchanged.of_perm hcategories).sameByLabel hdescribes', ?_⟩
    rw [hratio, hratio', measures_perm hcategories, measures_map_swap]

open Nominal in
/-- Read backwards, the rows give the label `good` the first code and not the second one. -/
theorem compareExperiments_sameByLabel_backwards :
    let definition := Definition.nominal "verdict" none
    let rows : List PairedRow := [⟨1, .label "bad", .label "good"⟩,
      ⟨2, .label "good", .label "unclear"⟩]
    let _ : TailTable ℚ := ⟨some, fun statistic _ => some statistic, fun t _ => some t⟩
    let comparison (rows : List PairedRow) : Nominal.Comparison ℚ :=
      (PairedSample.ofRows definition rows).comparison .standard
    let ratio (rows : List PairedRow) : ℚ := (PairedSample.ofRows definition rows).ratio
    definition.scoringType = .nominal ∧ rows.reverse.Perm rows ∧
      (rows.map PairedRow.exchanged).reverse.Perm (rows.map PairedRow.exchanged) ∧
      ((comparison rows).SameByLabel (comparison rows.reverse) ∧
        ratio rows.reverse = ratio rows) ∧
      ((comparison rows).exchanged.SameByLabel
          (comparison (rows.map PairedRow.exchanged).reverse) ∧
        ratio (rows.map PairedRow.exchanged).reverse = ratio rows) := by
  intro definition rows tails comparison ratio
  have hnominal : definition.scoringType = .nominal := rfl
  have hreordered := compareExperiments_sameByLabel (K := ℚ) hnominal .standard "first" "second"
    rows rows.reverse
  have hexchanged := compareExperiments_sameByLabel (K := ℚ) hnominal .standard "first" "second"
    rows (rows.map PairedRow.exchanged).reverse
  exact ⟨hnominal, List.reverse_perm _, List.reverse_perm _,
    hreordered.2.2.1 (List.reverse_perm _), hexchanged.2.2.2 (List.reverse_perm _)⟩

end Scorebook
