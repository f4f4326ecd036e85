import Mathlib.Tactic.LinearCombination
import Scorebook.Proofs.Exact
import Scorebook.Proofs.Nominal.CodedPairs
import Scorebook.Proofs.Nominal.Measures

/-!
# The measures of a nominal sample

In exact arithmetic, what a comparison computes from the table and the counts of a sample are the
measures of its pairs of codes. A sum over a table is a sum over the codes that occur, and the
pairs of codes that the test of symmetry goes through are half of all ordered pairs, the two orders
of a pair adding the same.
-/

namespace Scorebook.Nominal

variable {K : Type} [ExactArithmetic K]

/-- Items without a value add nothing to a sum. -/
theorem sum_filterMap {ι : Type} (value? : ι → Option K) (items : List ι) :
    (items.filterMap value?).sum = (items.map fun item => (value? item).getD 0).sum := by
  induction items with
  | nil => rfl
  | cons item rest ih => cases hvalue : value? item <;> simp [hvalue, ih]

section UnorderedPairs

variable {f : ℤ → ℤ → K}

/-- A sum over all ordered pairs meets each unordered pair twice, if it has nothing on the
diagonal. -/
theorem two_mul_sum_unorderedPairs (hsymm : ∀ x y, f x y = f y x) (hdiagonal : ∀ x, f x x = 0)
    (codes : List ℤ) : 2 * ((unorderedPairs codes).map fun pair => f pair.1 pair.2).sum =
      (codes.map fun x => (codes.map fun y => f x y).sum).sum := by
  induction codes with
  | nil => simp [unorderedPairs]
  | cons code rest ih =>
    have hcolumn : (rest.map fun x => f x code).sum = (rest.map fun y => f code y).sum := by
      simp only [hsymm]
    simp only [unorderedPairs, List.map_append, List.sum_append, List.map_map, Function.comp_def,
      List.map_cons, List.sum_cons, hdiagonal, List.sum_map_add]
    linear_combination ih - hcolumn

end UnorderedPairs

namespace PairedSample

variable (coder : Coder) (pairs : List (ℤ × ℤ))

/-- A cell counts the pairs of its two codes. -/
theorem cell_ofCodes (a b : ℤ) : (ofCodes coder pairs).table.cell a b = pairs.count (a, b) := by
  have hinjective : Function.Injective fun pair : ℤ × ℤ => Cell.mk pair.1 pair.2 := by
    rintro ⟨a, b⟩ ⟨a', b'⟩ heq
    simpa using heq
  rw [Table.cell, ofCodes, Keyed.countOf_tally]
  exact List.count_map_of_injective pairs _ hinjective (a, b)

/-- The diagonal of the table counts the pairs of equal codes. -/
theorem diagonal_ofCodes :
    (ofCodes coder pairs).table.diagonal = pairs.countP fun pair => pair.1 = pair.2 := by
  have hsum : ∀ table : Table, table.diagonal =
      (table.map fun entry => if entry.1.a = entry.1.b then entry.2 else 0).sum := by
    intro table
    rw [Table.diagonal, List.sum_eq_foldl, List.foldl_map]
    congr 1
    funext total entry
    split_ifs <;> simp_all
  have htally := Keyed.sum_tally (fun (cell : Cell) count => if cell.a = cell.b then count else 0)
    (pairs.map fun pair => ⟨pair.1, pair.2⟩)
  rw [hsum]
  refine htally.trans ?_
  rw [← Finset.sum_filter, Finset.sum_filter_count_eq_countP, List.countP_map]
  rfl

/-- The codes of a sample are those that occur in its pairs. -/
theorem toFinset_codes_ofCodes : (ofCodes coder pairs).codes.toFinset = occurring pairs := by
  ext code
  rw [List.mem_toFinset, mem_codes_iff, occurring, Finset.mem_union, firsts, seconds,
    List.mem_toFinset, List.mem_toFinset]
  exact or_congr Keyed.mem_keys_tally Keyed.mem_keys_tally

/-- What a pair of codes adds to the statistic of symmetry, nothing for empty cells. -/
theorem getD_imbalance?_ofCodes (pair : ℤ × ℤ) :
    (imbalance? (ofCodes coder pairs).table pair).getD (0 : K) =
      imbalance pairs pair.1 pair.2 := by
  simp only [imbalance?, cell_ofCodes, ExactArithmetic.less_eq_decide, decide_eq_true_eq,
    ExactArithmetic.ofNat_eq_cast, Nat.cast_zero, Arithmetic.square, imbalance]
  split_ifs with hcells
  · rw [Option.getD_some, sq]
  · have hempty : ((pairs.count (pair.1, pair.2) : K) + pairs.count (pair.2, pair.1)) = 0 :=
      le_antisymm (not_lt.mp hcells) (by positivity)
    rw [hempty, div_zero, Option.getD_none]

/-- A sum over the codes of a sample is a sum over those that occur. -/
theorem sum_codes_ofCodes (f : ℤ → K) :
    ((ofCodes coder pairs).codes.map f).sum = ∑ code ∈ occurring pairs, f code := by
  rw [← toFinset_codes_ofCodes coder, List.sum_toFinset f (nodup_codes _)]

/-- The statistic of the test of symmetry measures the pairs of codes. -/
theorem symmetryStatistic_ofCodes :
    (symmetryStatistic (ofCodes coder pairs).table (ofCodes coder pairs).codes : K) =
      (measures pairs).symmetry := by
  have hsymm : ∀ x y, (imbalance pairs x y : K) = imbalance pairs y x := fun x y => by
    rw [imbalance, imbalance, add_comm, sub_sq_comm]
  have hdiagonal : ∀ x, (imbalance pairs x x : K) = 0 := fun x => by simp [imbalance]
  have htwice := two_mul_sum_unorderedPairs hsymm hdiagonal (ofCodes coder pairs).codes
  simp only [sum_codes_ofCodes] at htwice
  rw [symmetryStatistic, ExactArithmetic.sum_eq_sum, sum_filterMap]
  simp only [getD_imbalance?_ofCodes, measures, ← htwice, Nat.cast_ofNat]
  field_simp

/-- What two codes with their totals add to the statistic of independence. -/
def independenceTerm (table : Table) (whole : ℕ) (row : ℤ) (rowTotal : ℕ) (column : ℤ)
    (columnTotal : ℕ) : K :=
  let expected : K := expectedCount rowTotal columnTotal whole
  Arithmetic.square (Arithmetic.ofNat (table.cell row column) - expected) / expected

/-- The statistic of independence is a double sum over the counts of both sides. -/
theorem independenceStatistic_eq (table : Table) (rows columns : List (ℤ × ℕ)) (whole : ℕ) :
    (independenceStatistic table rows columns whole : K) =
      (rows.map fun row => (columns.map fun column =>
        independenceTerm table whole row.1 row.2 column.1 column.2).sum).sum := by
  rw [independenceStatistic, ExactArithmetic.sum_eq_sum, List.flatMap_def, List.sum_flatten,
    List.map_map]
  rfl

/-- Two codes add their dependence to the statistic of independence. -/
theorem independenceTerm_ofCodes (row column : ℤ) :
    (independenceTerm (ofCodes coder pairs).table pairs.length row ((pairs.map (·.1)).count row)
      column ((pairs.map (·.2)).count column) : K) = dependence pairs row column := by
  simp [independenceTerm, dependence, expected, expectedCount, cell_ofCodes, Arithmetic.square, sq]

/-- The statistic of independence measures the pairs of codes. -/
theorem independenceStatistic_ofCodes :
    (independenceStatistic (ofCodes coder pairs).table (ofCodes coder pairs).sideA.counts
      (ofCodes coder pairs).sideB.counts pairs.length : K) = (measures pairs).independence := by
  have hcolumns : ∀ row rowTotal, ((ofCodes coder pairs).sideB.counts.map fun column =>
      independenceTerm (ofCodes coder pairs).table pairs.length row rowTotal column.1
        column.2).sum = ∑ column ∈ seconds pairs, (independenceTerm (ofCodes coder pairs).table
          pairs.length row rowTotal column ((pairs.map (·.2)).count column) : K) :=
    fun row rowTotal => Keyed.sum_tally (independenceTerm _ _ row rowTotal) _
  have hrows := Keyed.sum_tally (fun row rowTotal => ∑ column ∈ seconds pairs,
    (independenceTerm (ofCodes coder pairs).table pairs.length row rowTotal column
      ((pairs.map (·.2)).count column) : K)) (pairs.map (·.1))
  simp only [independenceTerm_ofCodes] at hrows
  simp only [independenceStatistic_eq, hcolumns]
  exact hrows

end PairedSample

end Scorebook.Nominal
