import Mathlib.Tactic.FieldSimp
import Mathlib.Tactic.LinearCombination
import Scorebook.Proofs.Exact
import Scorebook.Proofs.Numeric.Columns

/-!
# Running moments in exact arithmetic

The running moments take in one value after another and never look back. Without rounding they are
the moments of the textbooks: the center is the average, and the sum of squares is that of the
deviations from the average, although each of its terms was added when the average was another one.
The order of the values is therefore lost in them.
-/

namespace Scorebook

namespace Moments

variable {K : Type} [ExactArithmetic K]

/-- The average of some values, zero if there are none. -/
def average (values : List K) : K := values.sum / values.length

/-- The sum of the squared deviations of some values from their average. -/
def deviations (values : List K) : K :=
  (values.map fun x => (x - average values) ^ 2).sum

/-- The average times the number of values is their sum. -/
theorem length_mul_average (values : List K) :
    (values.length : K) * average values = values.sum := by
  cases values with
  | nil => simp
  | cons x values =>
    have hlength : ((x :: values).length : K) ≠ 0 := Nat.cast_ne_zero.mpr (by simp)
    rw [average, mul_div_cancel₀ _ hlength]

/-- The squared deviations from any number, by the sum of the values and that of their squares. -/
theorem sum_squared_deviations (values : List K) (c : K) :
    (values.map fun x => (x - c) ^ 2).sum =
      (values.map fun x => x ^ 2).sum - 2 * c * values.sum + values.length * c ^ 2 := by
  induction values with
  | nil => simp
  | cons x values ih =>
    simp only [List.map_cons, List.sum_cons, ih, List.length_cons, Nat.cast_add, Nat.cast_one]
    ring

/-- The deviations from the average are the squares less what the average accounts for. -/
theorem deviations_eq (values : List K) : deviations values =
    (values.map fun x => x ^ 2).sum - values.length * average values ^ 2 := by
  rw [deviations, sum_squared_deviations, ← length_mul_average values]
  ring

/-- One more value moves the average by its share of the distance. -/
theorem average_concat (values : List K) (x : K) :
    average (values ++ [x]) =
      average values + (x - average values) / ((values.length + 1 : ℕ) : K) := by
  have hlength : ((values.length + 1 : ℕ) : K) ≠ 0 := Nat.cast_ne_zero.mpr (by omega)
  have hsum := length_mul_average values
  rw [average, List.sum_append, List.sum_singleton, List.length_append, List.length_singleton]
  rw [← hsum]
  field_simp
  push_cast
  ring

/-- One more value adds the product of its distances from the old and from the new average. -/
theorem deviations_concat (values : List K) (x : K) :
    deviations (values ++ [x]) =
      deviations values + (x - average values) * (x - average (values ++ [x])) := by
  have hold := length_mul_average values
  have hnew := length_mul_average (values ++ [x])
  rw [deviations_eq, deviations_eq]
  simp only [List.map_append, List.map_singleton, List.sum_append, List.sum_singleton,
    List.length_append, List.length_singleton, Nat.cast_add, Nat.cast_one] at hnew ⊢
  rw [← hold] at hnew
  linear_combination -(average values + average (values ++ [x])) * hnew

/-- The running moments are the number of the values, their average and the sum of the squared
deviations from it. -/
theorem ofList_eq (values : List K) :
    ofList values = ⟨values.length, average values, deviations values⟩ := by
  induction values using List.reverseRecOn with
  | nil => simp [ofList, empty, average, deviations]
  | append_singleton values x ih =>
    have hcenter := average_concat values x
    rw [ofList_concat, ih, push, deviations_concat]
    simp only [List.length_append, List.length_singleton, ExactArithmetic.ofNat_eq_cast, ← hcenter]

/-- Values in another order have the same moments. -/
theorem ofList_eq_of_perm {values others : List K} (hperm : values.Perm others) :
    ofList values = ofList others := by
  have haverage : average values = average others := by
    rw [average, average, hperm.sum_eq, hperm.length_eq]
  have hdeviations : deviations values = deviations others := by
    rw [deviations, deviations, haverage, (hperm.map _).sum_eq]
  rw [ofList_eq, ofList_eq, haverage, hdeviations, hperm.length_eq]

end Moments

end Scorebook
