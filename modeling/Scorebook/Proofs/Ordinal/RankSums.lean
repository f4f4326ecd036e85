import Mathlib.Data.List.Induction
import Mathlib.Tactic.LinearCombination
import Scorebook.Proofs.Exact
import Scorebook.Ordinal.SignedRank

/-!
# Rank sums

The buckets of a histogram are given consecutive ranks, so that in exact arithmetic all the ranks
together have the sum of the first natural numbers. Sharing the middle rank within a bucket does
not change that sum, and either rank sum has half of it as its mean.
-/

namespace Scorebook.Ordinal

/-- A histogram in which no magnitude has more positive differences than differences. -/
def Histogram.Sound (histogram : Histogram) : Prop :=
  ∀ entry ∈ histogram, entry.2.positive ≤ entry.2.count

namespace RankSums

/-- The rank sums of a histogram with one more bucket behind all others. -/
theorem ofHistogram_concat {α : Type} [Arithmetic α] (histogram : Histogram)
    (entry : ℕ × Bucket) :
    (ofHistogram (histogram ++ [entry]) : RankSums α) = (ofHistogram histogram).push entry.2 := by
  simp [ofHistogram]

variable {K : Type} [ExactArithmetic K]

/-- The number of ranks given is the number of differences. -/
theorem offset_ofHistogram (histogram : Histogram) :
    (ofHistogram histogram : RankSums K).offset = (ofHistogram histogram : RankSums K).count := by
  induction histogram using List.reverseRecOn with
  | nil => simp [ofHistogram, empty]
  | append_singleton histogram entry ih => simp [ofHistogram_concat, push, ih]

/-- The ties of a histogram add up over its buckets. -/
theorem ties_ofHistogram (histogram : Histogram) :
    (ofHistogram histogram : RankSums K).ties =
      (histogram.map fun entry => (entry.2.count : K) ^ 3 - entry.2.count).sum := by
  induction histogram using List.reverseRecOn with
  | nil => simp [ofHistogram, empty]
  | append_singleton histogram entry ih =>
    rw [ofHistogram_concat, push, ih, List.map_append, List.sum_append]
    simp only [ExactArithmetic.ofNat_eq_cast, List.map_singleton, List.sum_singleton]
    ring

/-- The two rank sums of a histogram add up to the sum of all ranks, twice the mean of either. -/
theorem plus_add_minus {histogram : Histogram} (h : histogram.Sound) :
    (ofHistogram histogram : RankSums K).plus + (ofHistogram histogram).minus =
      2 * (ofHistogram histogram).mean := by
  induction histogram using List.reverseRecOn with
  | nil => simp [ofHistogram, empty, mean]
  | append_singleton histogram entry ih =>
    obtain ⟨magnitude, bucket⟩ := entry
    have hbefore := ih fun entry hentry => h entry (List.mem_append_left _ hentry)
    have hbucket : bucket.positive ≤ bucket.count := h (magnitude, bucket) (by simp)
    simp only [mean, ofHistogram_concat, push, offset_ofHistogram, Nat.cast_sub hbucket,
      Nat.cast_add, Nat.cast_one, Nat.cast_ofNat, ExactArithmetic.ofNat_eq_cast] at hbefore ⊢
    linear_combination hbefore

end RankSums

end Scorebook.Ordinal
