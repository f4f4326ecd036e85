import Scorebook.Arithmetic.Double
import Scorebook.Numeric.Percentile
import Scorebook.Proofs.Doubles
import Scorebook.Proofs.Exact

/-!
# Sorted values

Values are sorted by a linear order. For doubles it is the total order of their bits, which tells
also the two zeros apart, and in exact arithmetic it is the order of the field. The sorted list of
some values is therefore the same in whatever order they arrived.
-/

namespace Scorebook

open Arithmetic

/-- The order by which an arithmetic sorts its values is linear. -/
class LinearSorting (α : Type) [Arithmetic α] : Prop where
  atMost_trans : ∀ x y z : α, atMost x y = true → atMost y z = true → atMost x z = true
  atMost_total : ∀ x y : α, (atMost x y || atMost y x) = true
  atMost_antisymm : ∀ x y : α, atMost x y = true → atMost y x = true → x = y

/-- A double is sorted by its place in the total order. -/
theorem atMost_double {x y : Float} :
    atMost x y = true ↔ Binary64.rank x.toBits ≤ Binary64.rank y.toBits :=
  decide_eq_true_iff

instance : LinearSorting Float where
  atMost_trans x y z hxy hyz := by
    rw [atMost_double] at *
    exact hxy.trans hyz
  atMost_total x y := by
    rw [Bool.or_eq_true, atMost_double, atMost_double]
    exact le_total _ _
  atMost_antisymm x y hxy hyx := by
    rw [atMost_double] at hxy hyx
    exact Binary64.rank_injective (hxy.antisymm hyx)

instance {K : Type} [ExactArithmetic K] : LinearSorting K where
  atMost_trans x y z hxy hyz := by
    simp only [ExactArithmetic.atMost_eq_decide, decide_eq_true_eq] at *
    exact hxy.trans hyz
  atMost_total x y := by
    simp only [ExactArithmetic.atMost_eq_decide, Bool.or_eq_true, decide_eq_true_eq]
    exact le_total x y
  atMost_antisymm x y hxy hyx := by
    simp only [ExactArithmetic.atMost_eq_decide, decide_eq_true_eq] at hxy hyx
    exact hxy.antisymm hyx

section Sorting

variable {α : Type} [Arithmetic α] [LinearSorting α]

/-- Sorted values ascend. -/
theorem sortValues_ascending (values : List α) :
    (sortValues values).Pairwise fun x y => atMost x y = true :=
  List.pairwise_mergeSort LinearSorting.atMost_trans LinearSorting.atMost_total values

/-- Values in another order are sorted to the same list. -/
theorem sortValues_eq_of_perm {values others : List α} (hperm : values.Perm others) :
    sortValues values = sortValues others := by
  have hsorted : (sortValues values).Perm (sortValues others) :=
    (List.mergeSort_perm values _).trans (hperm.trans (List.mergeSort_perm others _).symm)
  exact hsorted.eq_of_pairwise (fun x y _ _ => LinearSorting.atMost_antisymm x y)
    (sortValues_ascending values) (sortValues_ascending others)

end Sorting

end Scorebook
