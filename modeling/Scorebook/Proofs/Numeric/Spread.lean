import Mathlib.Algebra.Order.BigOperators.Group.List
import Mathlib.Tactic.Positivity
import Scorebook.Proofs.Numeric.ExactMoments

/-!
# Mean, variance and interval of running moments

In exact arithmetic the running moments give the mean and the sample variance of the textbooks. The
sum of squares is never negative, so the positive part in the variance guards against rounding only.
The variance vanishes exactly when all values are the same. The moments of fewer than two values
have no variance and no interval.
-/

namespace Scorebook

namespace Moments

variable {K : Type} [ExactArithmetic K]

/-- A squared deviation is not negative. -/
theorem nonneg_of_mem_squares {values : List K} {c square : K}
    (h : square ∈ values.map fun x => (x - c) ^ 2) : 0 ≤ square := by
  obtain ⟨x, -, rfl⟩ := List.mem_map.mp h
  positivity

/-- The squared deviations do not add up to less than zero. -/
theorem deviations_nonneg (values : List K) : 0 ≤ deviations values :=
  List.sum_nonneg fun _ hsquare => nonneg_of_mem_squares hsquare

/-- The average of copies of a value is the value. -/
theorem average_eq_of_forall_eq {values : List K} {x : K} (hx : x ∈ values)
    (hsame : ∀ y ∈ values, y = x) : average values = x := by
  have hcopies : values = List.replicate values.length x := List.eq_replicate_iff.mpr ⟨rfl, hsame⟩
  have hlength : (values.length : K) ≠ 0 := Nat.cast_ne_zero.mpr (List.length_pos_of_mem hx).ne'
  have hsum : values.sum = x * values.length := by
    conv_lhs => rw [hcopies]
    rw [List.sum_replicate, nsmul_eq_mul, mul_comm]
  rw [average, hsum, mul_div_cancel_right₀ x hlength]

/-- Some values do not deviate from their average exactly if they are all the same. -/
theorem deviations_eq_zero_iff (values : List K) :
    deviations values = 0 ↔ ∀ x ∈ values, ∀ y ∈ values, x = y := by
  constructor
  · intro hzero
    have haverage : ∀ x ∈ values, x = average values := by
      intro x hx
      have hsquare : (x - average values) ^ 2 = 0 :=
        List.all_zero_of_le_zero_le_of_sum_eq_zero (fun _ h => nonneg_of_mem_squares h) hzero
          (List.mem_map_of_mem hx)
      exact sub_eq_zero.mp (pow_eq_zero_iff two_ne_zero |>.mp hsquare)
    intro x hx y hy
    rw [haverage x hx, haverage y hy]
  · intro hsame
    refine List.sum_eq_zero fun square hsquare => ?_
    obtain ⟨x, hx, rfl⟩ := List.mem_map.mp hsquare
    rw [average_eq_of_forall_eq hx fun y hy => hsame y hy x hx, sub_self, zero_pow two_ne_zero]

/-- The mean of running moments is the average. -/
theorem mean?_ofList (values : List K) :
    (ofList values).mean? = if 0 < values.length then some (average values) else none := by
  rw [ofList_eq, mean?]

/-- The positive part in the variance of running moments changes nothing. -/
theorem positivePart_ofList (values : List K) :
    Arithmetic.positivePart
        ((ofList values).squares / Arithmetic.ofNat ((ofList values).count - 1)) =
      (ofList values).squares / Arithmetic.ofNat ((ofList values).count - 1) := by
  rw [ofList_eq, ExactArithmetic.positivePart_eq_max, ExactArithmetic.ofNat_eq_cast]
  exact max_eq_left (div_nonneg (deviations_nonneg values) (Nat.cast_nonneg _))

/-- The variance of running moments is the share of the squared deviations. -/
theorem variance?_ofList (values : List K) : (ofList values).variance? =
    if 2 ≤ values.length then some (deviations values / (values.length - 1)) else none := by
  rw [variance?, positivePart_ofList, ofList_eq]
  refine ite_congr rfl (fun hlength => ?_) fun _ => rfl
  rw [ExactArithmetic.ofNat_eq_cast, Nat.cast_sub (Nat.le_of_lt hlength), Nat.cast_one]

/-- Running moments have an interval exactly if they have a variance. -/
theorem isSome_interval?_ofList (values : List K) (z : K) :
    ((ofList values).interval? z).isSome ↔ 2 ≤ values.length := by
  by_cases hlength : 2 ≤ values.length
  · have hpos : 0 < values.length := by omega
    simp [interval?, deviation?, mean?_ofList, variance?_ofList, hlength, hpos]
  · simp [interval?, deviation?, variance?_ofList, hlength]

/-- Moments are those of the textbooks. -/
structure IsTextbook (moments : Moments K) (values : List K) : Prop where
  count : moments.count = values.length
  mean_eq_none_iff : moments.mean? = none ↔ values = []
  mean : values ≠ [] → moments.mean? = some (values.sum / values.length)
  /-- The squared deviations are those from the mean of all values. -/
  squares : moments.squares = (values.map fun x => (x - values.sum / values.length) ^ 2).sum
  squares_nonneg : 0 ≤ moments.squares
  /-- Taking the positive part changes nothing. -/
  unclamped : Arithmetic.positivePart (moments.squares / Arithmetic.ofNat (moments.count - 1)) =
    moments.squares / Arithmetic.ofNat (moments.count - 1)
  variance_eq_none_iff : moments.variance? = none ↔ values.length < 2
  variance : 2 ≤ values.length →
    moments.variance? = some (moments.squares / (values.length - 1))
  variance_eq_zero_iff : moments.variance? = some 0 ↔
    2 ≤ values.length ∧ ∀ x ∈ values, ∀ y ∈ values, x = y
  interval : ∀ z, (moments.interval? z).isSome ↔ 2 ≤ values.length

/-- The running moments of any values are those of the textbooks. -/
theorem isTextbook_ofList (values : List K) : (ofList values).IsTextbook values := by
  constructor
  case count => exact count_ofList values
  case mean_eq_none_iff => simp [mean?_ofList]
  case mean =>
    intro hne
    rw [mean?_ofList, if_pos (List.length_pos_iff.mpr hne), average]
  case squares => rw [ofList_eq, deviations, average]
  case squares_nonneg =>
    rw [ofList_eq]
    exact deviations_nonneg values
  case unclamped => exact positivePart_ofList values
  case variance_eq_none_iff => simp [variance?_ofList]
  case variance =>
    intro hlength
    rw [variance?_ofList, if_pos hlength, ofList_eq]
  case variance_eq_zero_iff =>
    rw [variance?_ofList, ← deviations_eq_zero_iff]
    by_cases hlength : 2 ≤ values.length
    · have hone : (1 : K) < values.length := Nat.one_lt_cast.mpr hlength
      rw [if_pos hlength, and_iff_right hlength, Option.some.injEq, div_eq_zero_iff,
        or_iff_left (sub_pos.mpr hone).ne']
    · rw [if_neg hlength]
      exact iff_of_false (by simp) fun h => hlength h.1
  case interval => exact isSome_interval?_ofList values

end Moments

end Scorebook
