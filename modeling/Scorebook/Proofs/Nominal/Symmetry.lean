import Mathlib.Algebra.BigOperators.Sym
import Mathlib.Data.String.Basic
import Mathlib.Tactic.Positivity
import Scorebook.Proofs.Counts
import Scorebook.Proofs.Nominal.ByLabel

/-!
# The test of symmetry on labels

The test of symmetry goes through the pairs of codes of a sample. Read by label, it goes through
the unordered pairs of different labels, each of them once. Two labels contribute the squared excess
of one order of meeting over the other, relative to all their meetings, and that is at most the
number of these meetings.
-/

namespace Scorebook.Nominal

section UnorderedPairs

variable {β : Type}

/-- A sum over the ordered pairs of different items does not change when the pairs are exchanged. -/
theorem sum_offDiag_swap {M : Type} [AddCommMonoid M] (items : Finset β) (f : β × β → M) :
    ∑ pair ∈ items.offDiag, f pair.swap = ∑ pair ∈ items.offDiag, f pair := by
  have hswap : ∀ pair ∈ items.offDiag, pair.swap ∈ items.offDiag := by
    intro pair hpair
    obtain ⟨hx, hy, hne⟩ := Finset.mem_offDiag.mp hpair
    exact Finset.mem_offDiag.mpr ⟨hy, hx, Ne.symm hne⟩
  exact Finset.sum_nbij' Prod.swap Prod.swap hswap hswap (fun pair _ => pair.swap_swap)
    (fun pair _ => pair.swap_swap) fun pair _ => rfl

/-- A sum over the ordered pairs of different items meets each unordered pair twice. -/
theorem two_mul_sum_sym2 [LinearOrder β] {K : Type} [Semiring K] (items : Finset β)
    (f : Sym2 β → K) :
    2 * ∑ z ∈ items.sym2 with ¬z.IsDiag, f z = ∑ pair ∈ items.offDiag, f s(pair.1, pair.2) := by
  have hswapped : ∑ pair ∈ items.offDiag with ¬pair.1 < pair.2, f s(pair.1, pair.2) =
      ∑ pair ∈ items.offDiag with pair.1 < pair.2, f s(pair.1, pair.2) := by
    refine Finset.sum_nbij' Prod.swap Prod.swap ?_ ?_ ?_ ?_ ?_
    · rintro ⟨x, y⟩ hpair
      obtain ⟨hmem, hnot⟩ := Finset.mem_filter.mp hpair
      obtain ⟨hx, hy, hne⟩ := Finset.mem_offDiag.mp hmem
      have hlt : y < x := lt_of_le_of_ne (not_lt.mp hnot) (Ne.symm hne)
      exact Finset.mem_filter.mpr ⟨Finset.mem_offDiag.mpr ⟨hy, hx, Ne.symm hne⟩, hlt⟩
    · rintro ⟨x, y⟩ hpair
      obtain ⟨hmem, hlt⟩ := Finset.mem_filter.mp hpair
      obtain ⟨hx, hy, hne⟩ := Finset.mem_offDiag.mp hmem
      exact Finset.mem_filter.mpr ⟨Finset.mem_offDiag.mpr ⟨hy, hx, Ne.symm hne⟩, not_lt.mpr hlt.le⟩
    · exact fun pair _ => Prod.swap_swap pair
    · exact fun pair _ => Prod.swap_swap pair
    · exact fun pair _ => congrArg f Sym2.eq_swap
  rw [Finset.sum_sym2_filter_not_isDiag, two_mul,
    ← Finset.sum_filter_add_sum_filter_not items.offDiag fun pair => pair.1 < pair.2, hswapped]

end UnorderedPairs

section Definitions

variable {β : Type} [DecidableEq β] (pairs : List (β × β))

/-- How often two categories meet, whichever of them is on the first side. -/
def meetings : Sym2 β → ℕ :=
  Sym2.lift ⟨fun x y => pairs.count (x, y) + pairs.count (y, x), fun _ _ => Nat.add_comm _ _⟩

/-- The square of how much more often two categories meet in one order than in the other. -/
def squaredExcess {K : Type} [Field K] : Sym2 β → K :=
  Sym2.lift ⟨fun x y => ((pairs.count (x, y) : K) - pairs.count (y, x)) ^ 2,
    fun _ _ => sub_sq_comm _ _⟩

variable {pairs}

/-- Both categories of a pair occur. -/
theorem mem_occurring {pair : β × β} (hpair : pair ∈ pairs) :
    pair.1 ∈ occurring pairs ∧ pair.2 ∈ occurring pairs :=
  ⟨Finset.mem_union_left _ (List.mem_toFinset.mpr (List.mem_map_of_mem hpair)),
    Finset.mem_union_right _ (List.mem_toFinset.mpr (List.mem_map_of_mem hpair))⟩

end Definitions

section Statistic

variable {β : Type} [LinearOrder β] {K : Type} [Field K] (pairs : List (β × β))

/-- The contribution of two categories to the statistic of symmetry. -/
theorem imbalance_eq (x y : β) :
    (imbalance pairs x y : K) = squaredExcess pairs s(x, y) / meetings pairs s(x, y) := by
  simp [imbalance, squaredExcess, meetings]

variable [LinearOrder K] [IsStrictOrderedRing K]

/-- The statistic of symmetry is a sum over the unordered pairs of different categories that
meet. -/
theorem symmetry_eq_sum : ((measures pairs).symmetry : K) =
    ∑ z ∈ (occurring pairs).sym2 with ¬z.IsDiag ∧ 0 < meetings pairs z,
      (squaredExcess pairs z : K) / meetings pairs z := by
  have hdouble : ∑ x ∈ occurring pairs, ∑ y ∈ occurring pairs, (imbalance pairs x y : K) =
      ∑ pair ∈ (occurring pairs).offDiag, imbalance pairs pair.1 pair.2 := by
    rw [← Finset.sum_product']
    refine (Finset.sum_subset (fun pair hpair => ?_) fun pair hpair hnot => ?_).symm
    · obtain ⟨hx, hy, -⟩ := Finset.mem_offDiag.mp hpair
      exact Finset.mem_product.mpr ⟨hx, hy⟩
    · obtain ⟨hx, hy⟩ := Finset.mem_product.mp hpair
      have hdiagonal : pair.1 = pair.2 := by
        by_contra hne
        exact hnot (Finset.mem_offDiag.mpr ⟨hx, hy, hne⟩)
      simp [imbalance, hdiagonal]
  have htwice := two_mul_sum_sym2 (occurring pairs)
    fun z => (squaredExcess pairs z / meetings pairs z : K)
  simp only [← imbalance_eq, ← hdouble] at htwice
  have hhalf : ((measures pairs).symmetry : K) =
      ∑ z ∈ (occurring pairs).sym2 with ¬z.IsDiag,
        (squaredExcess pairs z : K) / meetings pairs z := by
    rw [measures, ← htwice, Nat.cast_ofNat, mul_div_cancel_left₀ _ two_ne_zero]
  rw [hhalf, ← Finset.filter_filter]
  refine (Finset.sum_filter_of_ne fun z _ hne => ?_).symm
  by_contra hnone
  have hzero : meetings pairs z = 0 := by omega
  simp [hzero] at hne

/-- The pairs of different categories are counted by the meetings of all unordered pairs. -/
theorem sum_meetings : ∑ z ∈ (occurring pairs).sym2 with ¬z.IsDiag, meetings pairs z =
    pairs.countP fun pair => pair.1 ≠ pair.2 := by
  have hcounted : ∑ pair ∈ (occurring pairs).offDiag, pairs.count pair =
      pairs.countP fun pair => pair.1 ≠ pair.2 := by
    rw [sum_count_eq_countP]
    refine List.countP_congr fun pair hpair => ?_
    simp [Finset.mem_offDiag, mem_occurring hpair]
  have htwice := two_mul_sum_sym2 (occurring pairs) (meetings pairs)
  have hordered : ∑ pair ∈ (occurring pairs).offDiag, meetings pairs s(pair.1, pair.2) =
      ∑ pair ∈ (occurring pairs).offDiag, pairs.count pair +
        ∑ pair ∈ (occurring pairs).offDiag, pairs.count pair.swap := by
    rw [← Finset.sum_add_distrib]
    rfl
  rw [hordered, sum_offDiag_swap _ fun pair => pairs.count pair, hcounted] at htwice
  omega

/-- The contribution of two categories is at most the number of times that they meet. -/
theorem squaredExcess_div_le (z : Sym2 β) :
    (squaredExcess pairs z : K) / meetings pairs z ≤ meetings pairs z := by
  induction z using Sym2.ind with
  | _ x y =>
    simp only [squaredExcess, meetings, Sym2.lift_mk, Nat.cast_add]
    have hfirst : (0 : K) ≤ pairs.count (x, y) := Nat.cast_nonneg _
    have hsecond : (0 : K) ≤ pairs.count (y, x) := Nat.cast_nonneg _
    refine div_le_of_le_mul₀ (by positivity) (by positivity) ?_
    nlinarith [mul_nonneg hfirst hsecond]

/-- The contribution of two categories is not negative. -/
theorem squaredExcess_div_nonneg (z : Sym2 β) :
    (0 : K) ≤ squaredExcess pairs z / meetings pairs z := by
  induction z using Sym2.ind with
  | _ x y =>
    simp only [squaredExcess, Sym2.lift_mk]
    positivity

/-- The statistic of symmetry is at most the number of pairs of different categories. -/
theorem symmetry_le : ((measures pairs).symmetry : K) ≤
    (pairs.countP fun pair => pair.1 ≠ pair.2 : ℕ) := by
  rw [symmetry_eq_sum, ← sum_meetings, Nat.cast_sum, ← Finset.filter_filter]
  calc ∑ z ∈ {z ∈ (occurring pairs).sym2 | ¬z.IsDiag} with 0 < meetings pairs z,
        (squaredExcess pairs z : K) / meetings pairs z
      ≤ ∑ z ∈ {z ∈ (occurring pairs).sym2 | ¬z.IsDiag} with 0 < meetings pairs z,
          (meetings pairs z : K) := Finset.sum_le_sum fun z _ => squaredExcess_div_le pairs z
    _ ≤ ∑ z ∈ (occurring pairs).sym2 with ¬z.IsDiag, (meetings pairs z : K) :=
        Finset.sum_le_sum_of_subset_of_nonneg (Finset.filter_subset _ _)
          fun z _ _ => Nat.cast_nonneg _

/-- The statistic of symmetry is zero exactly if all categories meet equally often in both
orders. -/
theorem symmetry_eq_zero_iff : ((measures pairs).symmetry : K) = 0 ↔
    ∀ x y, pairs.count (x, y) = pairs.count (y, x) := by
  rw [symmetry_eq_sum, Finset.sum_eq_zero_iff_of_nonneg fun z _ => squaredExcess_div_nonneg pairs z]
  constructor
  · intro hzero x y
    by_contra hne
    -- Categories that meet more often in one order are different, and both occur.
    have hdifferent : x ≠ y := by
      rintro rfl
      exact hne rfl
    have hmeet : 0 < meetings pairs s(x, y) := by
      simp only [meetings, Sym2.lift_mk]
      omega
    have hoccur : x ∈ occurring pairs ∧ y ∈ occurring pairs := by
      have hsome : 0 < pairs.count (x, y) ∨ 0 < pairs.count (y, x) := by omega
      rcases hsome with hpos | hpos
      · exact mem_occurring (List.count_pos_iff.mp hpos)
      · exact (mem_occurring (List.count_pos_iff.mp hpos)).symm
    have hmem : s(x, y) ∈ {z ∈ (occurring pairs).sym2 | ¬z.IsDiag ∧ 0 < meetings pairs z} :=
      Finset.mem_filter.mpr ⟨Finset.mk_mem_sym2_iff.mpr hoccur, by simpa using hdifferent, hmeet⟩
    have hterm := hzero s(x, y) hmem
    have hdenominator : (meetings pairs s(x, y) : K) ≠ 0 := Nat.cast_ne_zero.mpr hmeet.ne'
    rw [div_eq_zero_iff, or_iff_left hdenominator] at hterm
    simp only [squaredExcess, Sym2.lift_mk, sq_eq_zero_iff, sub_eq_zero, Nat.cast_inj] at hterm
    exact hne hterm
  · intro hsymmetric z _
    induction z using Sym2.ind with
    | _ x y => simp [squaredExcess, hsymmetric x y]

end Statistic

end Scorebook.Nominal

namespace Scorebook

/-- What a pair of codes adds to the statistic of symmetry is divided by a positive number. -/
theorem Nominal.cells_pos_of_imbalance? {K : Type} [ExactArithmetic K] {table : Table}
    {codes : ℤ × ℤ} {term : K} (h : imbalance? table codes = some term) :
    0 < table.cell codes.1 codes.2 + table.cell codes.2 codes.1 := by
  simp only [imbalance?, ExactArithmetic.less_eq_decide, ExactArithmetic.ofNat_eq_cast,
    decide_eq_true_eq, Nat.cast_zero, Option.ite_none_right_eq_some] at h
  exact_mod_cast h.1

open Nominal in
/-- The test of symmetry is the one of the textbooks on the labels of the rows, whatever codes they
have. It has a degree of freedom for each unordered pair of labels, and its statistic goes through
those of them that meet. The statistic is at most the number of rows with different labels, and it
is zero exactly if all labels meet equally often in both orders. -/
theorem compareExperiments_symmetry {K : Type} [ExactArithmetic K] [TailTable K]
    {definition : Definition} (hnominal : definition.scoringType = .nominal) (settings : Settings)
    (experimentA experimentB : String) (rows : List PairedRow) :
    let pairs := rows.map PairedRow.categories
    let labels := occurring pairs
    let disagreeing := pairs.countP fun pair => pair.1 ≠ pair.2
    ∃ comparison : Nominal.Comparison K,
      compareExperiments definition experimentA experimentB settings false (rows.map .row) =
        (.ok ⟨experimentA, experimentB, definition.scoreId, definition.scoringType,
          .nominal comparison⟩, false) ∧
      comparison.symmetry.df = labels.card * (labels.card - 1) / 2 ∧
      comparison.symmetry.statistic =
        ∑ z ∈ labels.sym2 with ¬z.IsDiag ∧ 0 < meetings pairs z,
          (squaredExcess pairs z : K) / meetings pairs z ∧
      (∀ codes ∈ unorderedPairs (comparison.distribution.map (·.1)), ∀ term : K,
        imbalance? comparison.table codes = some term →
          0 < comparison.table.cell codes.1 codes.2 + comparison.table.cell codes.2 codes.1) ∧
      comparison.symmetry.statistic ≤ disagreeing ∧
      comparison.paired = comparison.table.diagonal + disagreeing ∧
      (comparison.symmetry.statistic = 0 ↔ ∀ x y, pairs.count (x, y) = pairs.count (y, x)) := by
  intro pairs labels disagreeing
  obtain ⟨known, hholds⟩ := PairedSample.holds_ofRows hnominal rows
  have hdescribes : ((PairedSample.ofRows definition rows).comparison settings :
      Nominal.Comparison K).Describes settings pairs := hholds.describes settings
  refine ⟨_, compareExperiments_eq_ok (compareRows_ofRows hnominal settings rows) _ _, ?_⟩
  rw [hdescribes.symmetry]
  refine ⟨rfl, symmetry_eq_sum pairs, ?_, symmetry_le pairs, ?_, symmetry_eq_zero_iff pairs⟩
  · exact fun codes _ term hterm => cells_pos_of_imbalance? hterm
  · have htotal := List.length_eq_countP_add_countP (fun pair : String × String =>
      decide (pair.1 = pair.2)) (l := pairs)
    rw [hdescribes.paired, htotal]
    simp [PairedSample.comparison, hholds.diagonal_eq, disagreeing, pairs]

open Nominal in
/-- Three labels of which two never meet. The labels `good` and `bad` meet three times in one order
and once in the other. -/
theorem compareExperiments_symmetry_three_labels :
    let definition := Definition.nominal "verdict" none
    let rows : List PairedRow := [⟨1, .label "good", .label "bad"⟩,
      ⟨2, .label "good", .label "bad"⟩, ⟨3, .label "good", .label "bad"⟩,
      ⟨4, .label "bad", .label "good"⟩, ⟨5, .label "good", .label "good"⟩,
      ⟨6, .label "unclear", .label "good"⟩]
    let pairs := rows.map PairedRow.categories
    let _ : TailTable ℚ := ⟨some, fun statistic _ => some statistic, fun t _ => some t⟩
    definition.scoringType = .nominal ∧
    ∃ comparison : Nominal.Comparison ℚ,
      compareExperiments definition "first" "second" .standard false (rows.map .row) =
        (.ok ⟨"first", "second", "verdict", .nominal, .nominal comparison⟩, false) ∧
      comparison.symmetry.df = 3 ∧
      comparison.symmetry.statistic = 2 ∧
      (∀ codes ∈ unorderedPairs (comparison.distribution.map (·.1)), ∀ term : ℚ,
        imbalance? comparison.table codes = some term →
          0 < comparison.table.cell codes.1 codes.2 + comparison.table.cell codes.2 codes.1) ∧
      comparison.symmetry.statistic ≤ 5 ∧
      comparison.paired = comparison.table.diagonal + 5 ∧
      (comparison.symmetry.statistic = 0 ↔ ∀ x y, pairs.count (x, y) = pairs.count (y, x)) := by
  intro definition rows pairs tails
  have hnominal : definition.scoringType = .nominal := rfl
  have hlabels : (occurring pairs).card = 3 := by decide +kernel
  have hdisagreeing : (pairs.countP fun pair => pair.1 ≠ pair.2) = 5 := by decide +kernel
  have hsum : ∑ z ∈ (occurring pairs).sym2 with ¬z.IsDiag ∧ 0 < meetings pairs z,
      (squaredExcess pairs z : ℚ) / meetings pairs z = 2 := by decide +kernel
  obtain ⟨comparison, hok, hdf, hstatistic, hdenominators, hle, hpaired, hzero⟩ :=
    compareExperiments_symmetry (K := ℚ) hnominal .standard "first" "second" rows
  rw [hlabels] at hdf
  rw [hsum] at hstatistic
  rw [hdisagreeing] at hle hpaired
  exact ⟨hnominal, comparison, hok, hdf, hstatistic, hdenominators, hle, hpaired, hzero⟩

end Scorebook
