import Scorebook.Proofs.Nominal.CodedMeasures
import Scorebook.Proofs.Nominal.Shares

/-!
# Nominal comparisons by label

What a nominal comparison reports is determined by the pairs of categories, once labels stand in
place of codes. The label-free part is computed from the measures of the pairs, and the shares and
the table are lists that have one entry for each category and for each different pair.
-/

namespace Scorebook

namespace Nominal

variable {K : Type} [ExactArithmetic K]

namespace Measures

variable (m : Measures K)

/-- The ratio under the square root of Cramér's V. -/
def ratio : K := m.independence / (m.paired * (m.fewer - 1 : ℕ))

/-- Cramér's V. -/
def cramersV? : Option K :=
  if m.paired = 0 ∨ m.fewer < 2 then none
  else some (Arithmetic.smaller (Arithmetic.ofNat 1) (Arithmetic.sqrt m.ratio))

/-- The test of symmetry. -/
def symmetryTest [TailTable K] (settings : Settings) : SymmetryTest K :=
  let df := m.categories * (m.categories - 1) / 2
  let pValue := if 0 < df then Tail.chiSquare m.symmetry (Arithmetic.ofNat df) else none
  ⟨m.symmetry, df, pValue,
    Tail.isSignificant (Arithmetic.ofDouble settings.significanceLevel) pValue⟩

end Measures

/-- The shares of each category on both sides of some pairs. -/
def sharesOf (pairs : List (String × String)) : List (CategoryShares K) :=
  (pairs.map (·.1) ++ pairs.map (·.2)).dedup.map fun label =>
    ⟨label, (pairs.map (·.1)).count label / pairs.length,
      (pairs.map (·.2)).count label / pairs.length⟩

/-- In exact arithmetic the share of a label is the quotient of two counts. -/
theorem shareOf_eq_div (column : List String) (label : String) :
    (shareOf column label : K) = column.count label / column.length := by
  unfold shareOf occurrences?
  by_cases hmem : label ∈ column
  · simp [hmem]
  · simp [hmem, List.count_eq_zero_of_not_mem hmem]

/-- The number of occurrences of each different pair. -/
def cellsOf (pairs : List (String × String)) : List ((Option String × Option String) × ℕ) :=
  pairs.dedup.map fun pair => ((some pair.1, some pair.2), pairs.count pair)

/-- The ratio under the square root of Cramér's V for a sample. -/
def PairedSample.ratio (sample : PairedSample) : K :=
  associationRatio sample.table sample.sideA.counts sample.sideB.counts sample.sideA.scored

namespace Comparison

/-- The label under which a comparison reports a code. -/
def labelOf? (comparison : Comparison K) (code : ℤ) : Option String :=
  (Keyed.find? code comparison.distribution).map (·.label)

/-- The contingency table of a comparison with labels in place of codes. -/
def cells (comparison : Comparison K) : List ((Option String × Option String) × ℕ) :=
  comparison.table.map fun (cell, count) =>
    ((comparison.labelOf? cell.a, comparison.labelOf? cell.b), count)

/-- A comparison is that of some pairs of categories, up to the codes of the categories. -/
structure Describes [TailTable K] (settings : Settings) (comparison : Comparison K)
    (pairs : List (String × String)) : Prop where
  paired : comparison.paired = pairs.length
  agreement : comparison.agreement =
    (pairs.countP fun pair => pair.1 = pair.2 : ℕ) / (pairs.length : K)
  symmetry : comparison.symmetry = (measures pairs).symmetryTest settings
  cramersV : comparison.cramersV = (measures pairs).cramersV?
  shares : (comparison.distribution.map (·.2)).Perm (sharesOf pairs)
  cells : comparison.cells.Perm (cellsOf pairs)

end Comparison

namespace PairedSample

section Measured

variable (coder : Coder) (pairs : List (ℤ × ℤ))

/-- Each pair is scored. -/
theorem scored_ofCodes : (ofCodes coder pairs).sideA.scored = pairs.length := List.length_map _

/-- The side with fewer codes is the one with fewer counts. -/
theorem fewer_ofCodes : min (ofCodes coder pairs).sideA.counts.length
    (ofCodes coder pairs).sideB.counts.length = (measures pairs : Measures K).fewer :=
  congrArg₂ min (Keyed.length_tally _) (Keyed.length_tally _)

/-- The ratio under the square root of Cramér's V is that of the measures. -/
theorem ratio_ofCodes : ((ofCodes coder pairs).ratio : K) = (measures pairs).ratio := by
  rw [ratio, associationRatio, scored_ofCodes coder pairs, independenceStatistic_ofCodes,
    fewer_ofCodes (K := K) coder pairs]
  simp [Measures.ratio, measures]

/-- Cramér's V is that of the measures. -/
theorem cramersV?_ofCodes :
    cramersV? (ofCodes coder pairs).table (ofCodes coder pairs).sideA.counts
      (ofCodes coder pairs).sideB.counts (ofCodes coder pairs).sideA.scored =
        (measures pairs : Measures K).cramersV? := by
  have hratio := ratio_ofCodes (K := K) coder pairs
  unfold ratio at hratio
  rw [cramersV?, hratio, fewer_ofCodes (K := K) coder pairs, scored_ofCodes coder pairs]
  rfl

/-- The test of symmetry is that of the measures. -/
theorem symmetryTest_ofCodes [TailTable K] (settings : Settings) :
    symmetryTest settings (ofCodes coder pairs).table (ofCodes coder pairs).codes =
      (measures pairs : Measures K).symmetryTest settings := by
  have hlength : (ofCodes coder pairs).codes.length = (measures pairs : Measures K).categories := by
    rw [← List.toFinset_card_of_nodup (nodup_codes _), toFinset_codes_ofCodes]
    rfl
  simp only [symmetryTest, Measures.symmetryTest, symmetryStatistic_ofCodes, hlength]

end Measured

/-- The shares that a comparison reports for a code. -/
def sharesAt (sample : PairedSample) (code : ℤ) : CategoryShares K :=
  let share (side : Sample) : K :=
    match Keyed.find? code side.counts with
    | some count => Arithmetic.proportion count side.scored
    | none => Arithmetic.ofNat 0
  ⟨(sample.coder.labelOf? code).getD "", share sample.sideA, share sample.sideB⟩

/-- The entries of a comparison are the shares at its codes. -/
theorem distribution_eq [TailTable K] (settings : Settings) (sample : PairedSample) :
    (sample.comparison settings : Comparison K).distribution =
      sample.codes.map fun code => (code, sample.sharesAt code) := rfl

section Labelled

variable {labels : List String} {sample : PairedSample} {pairs : List (String × String)}

/-- The codes of a sample are those of the categories that it holds. -/
theorem Holds.codes_perm (h : Holds labels sample pairs) : sample.codes.Perm
    ((pairs.map (·.1) ++ pairs.map (·.2)).dedup.map (Coder.codeIn labels)) := by
  have hoccurring : sample.codes.toFinset =
      ((pairs.map (·.1) ++ pairs.map (·.2)).map (Coder.codeIn labels)).toFinset := by
    rw [h.eq_ofCodes, toFinset_codes_ofCodes, occurring, firsts, seconds, ← List.toFinset_append,
      codesIn, map_fst_rename, map_snd_rename, List.map_append]
  refine (List.perm_of_nodup_nodup_toFinset_eq (nodup_codes sample) (List.nodup_dedup _) ?_).trans
    (dedup_map_perm (Coder.codeIn_injOn.mono fun _ => h.mem_labels))
  rw [hoccurring]
  ext code
  simp

/-- The shares at the code of a category are those of the category. -/
theorem Holds.sharesAt (h : Holds labels sample pairs) {label : String}
    (hlabel : label ∈ pairs.map (·.1) ++ pairs.map (·.2)) :
    (sample.sharesAt (Coder.codeIn labels label) : CategoryShares K) =
      ⟨label, (pairs.map (·.1)).count label / pairs.length,
        (pairs.map (·.2)).count label / pairs.length⟩ := by
  have htallies := h.pairedTallies
  have hcode := Coder.labelOf?_codeIn (h.mem_labels hlabel)
  have hname : (sample.coder.labelOf? (Coder.codeIn labels label)).getD "" = label := by
    rw [htallies.coder, hcode, Option.getD_some]
  have hfirst := htallies.sideA.share_eq (α := K) hcode
  have hsecond := htallies.sideB.share_eq (α := K) hcode
  rw [shareOf_eq_div, List.length_map] at hfirst hsecond
  simp only [PairedSample.sharesAt, hname]
  exact congrArg₂ (CategoryShares.mk label) hfirst hsecond

/-- The codes of the pairs have the measures of the pairs. -/
theorem Holds.measures_codesIn (h : Holds labels sample pairs) :
    (measures (codesIn labels pairs) : Measures K) = measures pairs :=
  measures_rename Coder.codeIn_injOn h.known

/-- The diagonal of the table counts the pairs of equal categories. -/
theorem Holds.diagonal_eq (h : Holds labels sample pairs) :
    sample.table.diagonal = pairs.countP fun pair => pair.1 = pair.2 := by
  rw [h.eq_ofCodes, diagonal_ofCodes]
  exact congrArg Measures.agreeing (h.measures_codesIn (K := ℚ))

/-- The ratio of a sample is that of the pairs of categories that it holds. -/
theorem Holds.ratio_eq (h : Holds labels sample pairs) :
    (sample.ratio : K) = (measures pairs).ratio := by
  rw [h.eq_ofCodes, ratio_ofCodes, h.measures_codesIn]

variable [TailTable K]

/-- A comparison has the label of each code that occurs. -/
theorem Holds.labelOf?_comparison (h : Holds labels sample pairs) (settings : Settings)
    {label : String} (hlabel : label ∈ pairs.map (·.1) ++ pairs.map (·.2)) :
    (sample.comparison settings : Comparison K).labelOf? (Coder.codeIn labels label) =
      some label := by
  have hcode : Coder.codeIn labels label ∈ sample.codes :=
    h.codes_perm.mem_iff.mpr (List.mem_map_of_mem (List.mem_dedup.mpr hlabel))
  have hascending :
      Keyed.Ascending (sample.comparison settings : Comparison K).distribution :=
    distribution_ascending
  have hentry : Keyed.find? (Coder.codeIn labels label)
      (sample.comparison settings : Comparison K).distribution =
        some (sample.sharesAt (Coder.codeIn labels label)) := by
    rw [hascending.find?_eq_some_iff, distribution_eq]
    exact List.mem_map_of_mem hcode
  rw [Comparison.labelOf?, hentry, h.sharesAt hlabel, Option.map_some]

/-- The shares of a comparison are those of the categories. -/
theorem Holds.shares_perm (h : Holds labels sample pairs) (settings : Settings) :
    ((sample.comparison settings : Comparison K).distribution.map (·.2)).Perm
      (sharesOf pairs) := by
  rw [distribution_eq, List.map_map]
  refine (h.codes_perm.map _).trans ?_
  rw [List.map_map, sharesOf]
  exact .of_eq (List.map_congr_left fun label hlabel => h.sharesAt (List.mem_dedup.mp hlabel))

/-- The cells of a comparison are those of the pairs of categories. -/
theorem Holds.cells_perm (h : Holds labels sample pairs) (settings : Settings) :
    (sample.comparison settings : Comparison K).cells.Perm (cellsOf pairs) := by
  have hinjective : Set.InjOn (cellIn labels) {pair | pair ∈ pairs} := cellIn_injOn.mono h.known
  have htable : (sample.comparison settings : Comparison K).table =
      Keyed.tally (pairs.map (cellIn labels)) := h.table_eq
  rw [Comparison.cells, htable, cellsOf]
  refine ((Keyed.tally_map_perm hinjective).map _).trans ?_
  rw [List.map_map]
  refine .of_eq (List.map_congr_left fun pair hpair => ?_)
  have hpair := List.mem_dedup.mp hpair
  have hfirst := h.labelOf?_comparison (K := K) settings
    (List.mem_append_left _ (List.mem_map_of_mem hpair))
  have hsecond := h.labelOf?_comparison (K := K) settings
    (List.mem_append_right _ (List.mem_map_of_mem hpair))
  simp only [Function.comp_apply, cellIn, hfirst, hsecond]

/-- The comparison of a sample describes the pairs of categories that it holds. -/
theorem Holds.describes (h : Holds labels sample pairs) (settings : Settings) :
    (sample.comparison settings : Comparison K).Describes settings pairs where
  paired := by
    rw [comparison, h.eq_ofCodes, scored_ofCodes, codesIn, List.length_map]
  agreement := by
    rw [comparison, h.diagonal_eq, ExactArithmetic.proportion_eq_div, h.eq_ofCodes,
      scored_ofCodes, codesIn, List.length_map]
  symmetry := by
    rw [← h.measures_codesIn, ← symmetryTest_ofCodes (.positional labels), ← h.eq_ofCodes]
    rfl
  cramersV := by
    rw [← h.measures_codesIn, ← cramersV?_ofCodes (.positional labels), ← h.eq_ofCodes]
    rfl
  shares := h.shares_perm settings
  cells := h.cells_perm settings

end Labelled

end PairedSample

end Nominal

end Scorebook
