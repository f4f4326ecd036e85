import Mathlib.Algebra.BigOperators.Field
import Mathlib.Algebra.Order.BigOperators.Ring.Finset
import Mathlib.Algebra.Order.Field.Basic
import Mathlib.Tactic.FieldSimp
import Mathlib.Tactic.Linarith
import Mathlib.Tactic.Positivity
import Scorebook.Proofs.Counts
import Scorebook.Proofs.Nominal.Measures

/-!
# The bounds of the statistic of independence

The statistic of independence adds up the squared deviations from the expected counts, each over
its expected count. Expanded, it measures by how much the overlaps of all categories exceed one. A
category of one side has overlaps of at most one with all categories of the other side together, so
there are at most as many overlaps as categories on the side that has fewer.
-/

namespace Scorebook.Nominal

variable {β : Type} [DecidableEq β] {K : Type} [Field K]

section Marginals

variable (pairs : List (β × β))

/-- Summed over the categories of the second side, the meetings with a category of the first side
are all its occurrences. -/
theorem sum_count_seconds (x : β) :
    ∑ y ∈ seconds pairs, pairs.count (x, y) = (pairs.map (·.1)).count x := by
  have hsum := sum_count_eq_countP ({x} ×ˢ seconds pairs) pairs
  rw [Finset.sum_product, Finset.sum_singleton] at hsum
  rw [hsum, List.count, List.countP_map]
  refine List.countP_congr fun pair hpair => ?_
  have hsecond : pair.2 ∈ seconds pairs := List.mem_toFinset.mpr (List.mem_map_of_mem hpair)
  simp only [Finset.mem_product, Finset.mem_singleton, hsecond, and_true, Function.comp_apply,
    decide_eq_true_eq, beq_iff_eq]

/-- Summed over the categories of the first side, the meetings with a category of the second side
are all its occurrences. -/
theorem sum_count_firsts (y : β) :
    ∑ x ∈ firsts pairs, pairs.count (x, y) = (pairs.map (·.2)).count y := by
  have hswapped := sum_count_seconds (pairs.map Prod.swap) y
  simpa only [seconds_map_swap, count_map_swap, map_fst_swap] using hswapped

/-- A category that occurs on the first side is counted there. -/
theorem count_pos_of_mem_firsts {x : β} (hx : x ∈ firsts pairs) : 0 < (pairs.map (·.1)).count x :=
  List.count_pos_iff.mpr (List.mem_toFinset.mp hx)

/-- There are pairs if a category occurs. -/
theorem length_pos_of_mem_firsts {x : β} (hx : x ∈ firsts pairs) : 0 < pairs.length := by
  have hcount : (pairs.map (·.1)).count x ≤ (pairs.map (·.1)).length := List.count_le_length
  rw [List.length_map] at hcount
  exact (count_pos_of_mem_firsts pairs hx).trans_le hcount

/-- A category that occurs on the second side is counted there. -/
theorem count_pos_of_mem_seconds {y : β} (hy : y ∈ seconds pairs) :
    0 < (pairs.map (·.2)).count y :=
  List.count_pos_iff.mpr (List.mem_toFinset.mp hy)

/-- All pairs are counted on the first side. -/
theorem sum_firsts : ∑ x ∈ firsts pairs, (pairs.map (·.1)).count x = pairs.length := by
  rw [firsts, List.sum_toFinset_count_eq_length, List.length_map]

/-- All pairs are counted on the second side. -/
theorem sum_seconds : ∑ y ∈ seconds pairs, (pairs.map (·.2)).count y = pairs.length := by
  rw [seconds, List.sum_toFinset_count_eq_length, List.length_map]

/-- Two categories meet at most as often as the first one occurs. -/
theorem count_le_count_fst (x y : β) : pairs.count (x, y) ≤ (pairs.map (·.1)).count x := by
  have hle : pairs.count (x, y) ≤ (pairs.map Prod.fst).count (Prod.fst (x, y)) :=
    List.count_le_count_map
  exact hle

end Marginals

section Bounds

variable [LinearOrder K] [IsStrictOrderedRing K] (pairs : List (β × β))

/-- The share of two categories in what either of them could share with the other. -/
def overlap (x y : β) : K :=
  (pairs.count (x, y) : K) ^ 2 / ((pairs.map (·.1)).count x * (pairs.map (·.2)).count y)

variable {pairs} {x y : β}

/-- Two categories that occur are expected to meet. -/
theorem expected_pos (hx : x ∈ firsts pairs) (hy : y ∈ seconds pairs) :
    (0 : K) < expected pairs x y := by
  have hfirst : (0 : K) < (pairs.map (·.1)).count x := by
    exact_mod_cast count_pos_of_mem_firsts pairs hx
  have hsecond : (0 : K) < (pairs.map (·.2)).count y := by
    exact_mod_cast count_pos_of_mem_seconds pairs hy
  have hlength : (0 : K) < pairs.length := by
    exact_mod_cast length_pos_of_mem_firsts pairs hx
  exact div_pos (mul_pos hfirst hsecond) hlength

/-- The dependence of two categories in terms of their overlap. -/
theorem dependence_eq (hx : x ∈ firsts pairs) (hy : y ∈ seconds pairs) :
    (dependence pairs x y : K) =
      pairs.length * overlap pairs x y - 2 * pairs.count (x, y) + expected pairs x y := by
  have hfirst : ((pairs.map (·.1)).count x : K) ≠ 0 := by
    exact_mod_cast (count_pos_of_mem_firsts pairs hx).ne'
  have hsecond : ((pairs.map (·.2)).count y : K) ≠ 0 := by
    exact_mod_cast (count_pos_of_mem_seconds pairs hy).ne'
  have hlength : (pairs.length : K) ≠ 0 := by
    exact_mod_cast (length_pos_of_mem_firsts pairs hx).ne'
  rw [dependence, overlap, expected]
  field_simp
  ring

/-- Two categories that occur have no negative dependence. -/
theorem dependence_nonneg (hx : x ∈ firsts pairs) (hy : y ∈ seconds pairs) :
    (0 : K) ≤ dependence pairs x y :=
  div_nonneg (sq_nonneg _) (expected_pos hx hy).le

/-- Two categories that occur are independent if they meet as often as they are expected to. -/
theorem dependence_eq_zero_iff (hx : x ∈ firsts pairs) (hy : y ∈ seconds pairs) :
    (dependence pairs x y : K) = 0 ↔ pairs.length * pairs.count (x, y) =
      (pairs.map (·.1)).count x * (pairs.map (·.2)).count y := by
  have hexpected : (0 : K) < expected pairs x y := expected_pos hx hy
  have hlength : (pairs.length : K) ≠ 0 := by
    exact_mod_cast (length_pos_of_mem_firsts pairs hx).ne'
  rw [dependence, div_eq_zero_iff, or_iff_left hexpected.ne', sq_eq_zero_iff, sub_eq_zero, expected,
    eq_div_iff hlength, mul_comm]
  exact_mod_cast Iff.rfl

variable (pairs)

/-- The statistic of independence measures by how much the overlaps exceed one. -/
theorem independence_eq : ((measures pairs).independence : K) =
    pairs.length * (∑ x ∈ firsts pairs, ∑ y ∈ seconds pairs, overlap pairs x y) - pairs.length := by
  have hcounts : ∑ x ∈ firsts pairs, ∑ y ∈ seconds pairs, (pairs.count (x, y) : K) =
      pairs.length := by
    have hcounts : ∑ x ∈ firsts pairs, ∑ y ∈ seconds pairs, pairs.count (x, y) = pairs.length := by
      simp only [sum_count_seconds, sum_firsts]
    exact_mod_cast hcounts
  have hexpected : ∑ x ∈ firsts pairs, ∑ y ∈ seconds pairs, (expected pairs x y : K) =
      pairs.length := by
    have hfirsts : ∑ x ∈ firsts pairs, ((pairs.map (·.1)).count x : K) = pairs.length := by
      exact_mod_cast sum_firsts pairs
    have hseconds : ∑ y ∈ seconds pairs, ((pairs.map (·.2)).count y : K) = pairs.length := by
      exact_mod_cast sum_seconds pairs
    simp only [expected, ← Finset.sum_div, ← Finset.mul_sum, ← Finset.sum_mul, hfirsts, hseconds]
    exact mul_self_div_self _
  have hterms : ∀ x ∈ firsts pairs, ∑ y ∈ seconds pairs, (dependence pairs x y : K) =
      ∑ y ∈ seconds pairs, ((pairs.length : K) * overlap pairs x y - 2 * pairs.count (x, y) +
        expected pairs x y) :=
    fun x hx => Finset.sum_congr rfl fun y hy => dependence_eq hx hy
  rw [measures, Finset.sum_congr rfl hterms]
  simp only [Finset.sum_add_distrib, Finset.sum_sub_distrib, ← Finset.mul_sum, hcounts, hexpected]
  ring

/-- The overlaps of a category of the second side add up to one at most. -/
theorem sum_overlap_firsts_le_one {y : β} (hy : y ∈ seconds pairs) :
    ∑ x ∈ firsts pairs, (overlap pairs x y : K) ≤ 1 := by
  have hsecond : (0 : K) < (pairs.map (·.2)).count y := by
    exact_mod_cast count_pos_of_mem_seconds pairs hy
  have hterm : ∀ x ∈ firsts pairs, (overlap pairs x y : K) ≤
      pairs.count (x, y) / (pairs.map (·.2)).count y := by
    intro x hx
    have hfirst : (0 : K) < (pairs.map (·.1)).count x := by
      exact_mod_cast count_pos_of_mem_firsts pairs hx
    have hle : (pairs.count (x, y) : K) ≤ (pairs.map (·.1)).count x := by
      exact_mod_cast count_le_count_fst pairs x y
    rw [overlap, sq, mul_div_mul_comm]
    exact mul_le_of_le_one_left (by positivity) ((div_le_one hfirst).mpr hle)
  calc ∑ x ∈ firsts pairs, (overlap pairs x y : K)
      ≤ ∑ x ∈ firsts pairs, (pairs.count (x, y) : K) / (pairs.map (·.2)).count y :=
        Finset.sum_le_sum hterm
    _ = 1 := by
        rw [← Finset.sum_div, ← Nat.cast_sum, sum_count_firsts, div_self hsecond.ne']

/-- The statistic of independence is bounded by the number of categories on the second side. -/
theorem independence_le_seconds : ((measures pairs).independence : K) ≤
    pairs.length * ((seconds pairs).card - 1) := by
  have hoverlaps : ∑ x ∈ firsts pairs, ∑ y ∈ seconds pairs, (overlap pairs x y : K) ≤
      (seconds pairs).card := by
    rw [Finset.sum_comm]
    have hle := Finset.sum_le_card_nsmul (seconds pairs)
      (fun y => ∑ x ∈ firsts pairs, (overlap pairs x y : K)) 1
      fun y hy => sum_overlap_firsts_le_one pairs hy
    simpa using hle
  have hlength : (0 : K) ≤ pairs.length := Nat.cast_nonneg _
  have hscaled := mul_le_mul_of_nonneg_left hoverlaps hlength
  rw [independence_eq]
  linarith

/-- The statistic of independence is bounded by the number of categories on the first side. -/
theorem independence_le_firsts : ((measures pairs).independence : K) ≤
    pairs.length * ((firsts pairs).card - 1) := by
  have hswapped := independence_le_seconds (K := K) (pairs.map Prod.swap)
  rwa [measures_map_swap, seconds_map_swap, List.length_map] at hswapped

/-- The statistic of independence is not negative. -/
theorem independence_nonneg : (0 : K) ≤ (measures pairs).independence :=
  Finset.sum_nonneg fun _ hx => Finset.sum_nonneg fun _ hy => dependence_nonneg hx hy

/-- The statistic of independence is at most the number of pairs for each category but one on the
side that has fewer. -/
theorem independence_le : ((measures pairs).independence : K) ≤
    pairs.length * ((measures pairs : Measures K).fewer - 1 : ℕ) := by
  rcases pairs.eq_nil_or_concat with rfl | ⟨before, last, hpairs⟩
  · simp [measures, firsts]
  · have hlast : last ∈ pairs := by simp [hpairs]
    have hfirsts : 0 < (firsts pairs).card :=
      Finset.card_pos.mpr ⟨last.1, List.mem_toFinset.mpr (List.mem_map_of_mem hlast)⟩
    have hseconds : 0 < (seconds pairs).card :=
      Finset.card_pos.mpr ⟨last.2, List.mem_toFinset.mpr (List.mem_map_of_mem hlast)⟩
    have hfewer : (measures pairs : Measures K).fewer =
        min (firsts pairs).card (seconds pairs).card := rfl
    rcases min_choice (firsts pairs).card (seconds pairs).card with hmin | hmin
    · rw [hfewer, hmin, Nat.cast_pred hfirsts]
      exact independence_le_firsts pairs
    · rw [hfewer, hmin, Nat.cast_pred hseconds]
      exact independence_le_seconds pairs

/-- The statistic of independence is zero exactly for independent sides. -/
theorem independence_eq_zero_iff : ((measures pairs).independence : K) = 0 ↔
    ∀ x ∈ firsts pairs, ∀ y ∈ seconds pairs, pairs.length * pairs.count (x, y) =
      (pairs.map (·.1)).count x * (pairs.map (·.2)).count y := by
  rw [measures, Finset.sum_eq_zero_iff_of_nonneg fun x hx =>
    Finset.sum_nonneg fun y hy => dependence_nonneg hx hy]
  refine forall₂_congr fun x hx => ?_
  rw [Finset.sum_eq_zero_iff_of_nonneg fun y hy => dependence_nonneg hx hy]
  exact forall₂_congr fun y hy => dependence_eq_zero_iff hx hy

end Bounds

end Scorebook.Nominal
