import Mathlib.Algebra.Order.Field.Basic
import Mathlib.Algebra.Order.Floor.Semiring
import Mathlib.Analysis.Real.Sqrt
import Mathlib.Data.Rat.Floor
import Mathlib.Data.Rat.Sqrt
import Scorebook.Arithmetic
import Scorebook.Binary64

/-!
# Exact arithmetic

A statistic is written over an arbitrary arithmetic. Over an ordered field whose operations are not
rounded it is the quantity of the textbooks. Both the rational and the real numbers are such fields.
The square root is left open, because the rational numbers have none; what holds for every function
in its place holds for the real square root.
-/

namespace Scorebook

/-- An arithmetic without rounding: the operations are those of an ordered field, and counts and
doubles stand for their exact values. -/
class ExactArithmetic (K : Type) extends Arithmetic K, Field K, LinearOrder K,
    IsStrictOrderedRing K, FloorSemiring K where
  ofNat_eq_cast : ∀ n : ℕ, Arithmetic.ofNat n = (n : K)
  /-- A finite double is its significand times a power of two. -/
  ofDouble_eq : ∀ (x : Float) (negative : Bool) (significand : ℕ) (exponent : ℤ),
    Binary64.ofDouble x = .finite negative significand exponent →
    Arithmetic.ofDouble x = (if negative then -1 else 1) * (significand : K) * 2 ^ exponent
  less_eq_decide : ∀ x y : K, Arithmetic.less x y = decide (x < y)
  atMost_eq_decide : ∀ x y : K, Arithmetic.atMost x y = decide (x ≤ y)
  abs_eq_abs : ∀ x : K, Arithmetic.abs x = |x|

namespace Binary64

/-- The exact value of a double in a field, zero for a double that is no number. -/
def value {K : Type} [Field K] : Binary64 → K
  | finite negative significand exponent =>
    (if negative then -1 else 1) * significand * 2 ^ exponent
  | _ => 0

end Binary64

/-- The rational numbers, with square roots of numerator and denominator that are rounded down. -/
instance : ExactArithmetic ℚ where
  __ := (inferInstance : Field ℚ)
  __ := (inferInstance : LinearOrder ℚ)
  __ := (inferInstance : IsStrictOrderedRing ℚ)
  __ := (inferInstance : FloorSemiring ℚ)
  ofNat n := n
  ofDouble x := (Binary64.ofDouble x).value
  less x y := decide (x < y)
  atMost x y := decide (x ≤ y)
  sqrt := Rat.sqrt
  abs x := |x|
  ofNat_eq_cast _ := rfl
  ofDouble_eq x negative significand exponent h := by rw [h]; rfl
  less_eq_decide _ _ := rfl
  atMost_eq_decide _ _ := rfl
  abs_eq_abs _ := rfl

/-- The real numbers. -/
noncomputable instance : ExactArithmetic ℝ where
  __ := (inferInstance : Field ℝ)
  __ := (inferInstance : LinearOrder ℝ)
  __ := (inferInstance : IsStrictOrderedRing ℝ)
  __ := (inferInstance : FloorSemiring ℝ)
  ofNat n := n
  ofDouble x := (Binary64.ofDouble x).value
  less x y := decide (x < y)
  atMost x y := decide (x ≤ y)
  sqrt := Real.sqrt
  abs x := |x|
  ofNat_eq_cast _ := rfl
  ofDouble_eq x negative significand exponent h := by rw [h]; rfl
  less_eq_decide _ _ := rfl
  atMost_eq_decide _ _ := rfl
  abs_eq_abs _ := rfl

namespace ExactArithmetic

attribute [simp] ofNat_eq_cast less_eq_decide atMost_eq_decide abs_eq_abs

variable {K : Type} [ExactArithmetic K]

@[simp] theorem positivePart_eq_max (x : K) : Arithmetic.positivePart x = max x 0 := by
  simp only [Arithmetic.positivePart, less_eq_decide, ofNat_eq_cast, Nat.cast_zero,
    decide_eq_true_eq]
  split_ifs with h
  · exact (max_eq_left h.le).symm
  · exact (max_eq_right (not_lt.mp h)).symm

@[simp] theorem smaller_eq_min (x y : K) : Arithmetic.smaller x y = min x y := by
  simp only [Arithmetic.smaller, less_eq_decide, decide_eq_true_eq]
  split_ifs with h
  · exact (min_eq_right h.le).symm
  · exact (min_eq_left (not_lt.mp h)).symm

/-- A sum does not depend on the order in which it is added up. -/
@[simp] theorem sum_eq_sum (xs : List K) : Arithmetic.sum xs = xs.sum := by
  simp [Arithmetic.sum, List.sum_eq_foldl]

/-- The share of a part in an empty whole is the quotient by zero, which is zero in a field. -/
@[simp] theorem proportion_eq_div (part whole : ℕ) :
    Arithmetic.proportion part whole = (part / whole : K) := by
  unfold Arithmetic.proportion
  split_ifs with h
  · simp [h]
  · simp

end ExactArithmetic

end Scorebook
