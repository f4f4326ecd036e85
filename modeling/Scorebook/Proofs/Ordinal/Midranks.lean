import Mathlib.Algebra.BigOperators.Group.List.Lemmas
import Mathlib.Algebra.Order.BigOperators.Group.List
import Mathlib.Tactic.FieldSimp
import Mathlib.Tactic.LinearCombination
import Mathlib.Tactic.Positivity
import Scorebook.Proofs.Ordinal.Differences

/-!
# Midranks

A difference is ranked by its magnitude. The differences of one magnitude share the middle of the
ranks that they take up together, behind all smaller ones. In exact arithmetic the rank sums of a
histogram are sums of these midranks, and the variance with its correction for ties is a quarter of
the sum of their squares. Both hold because the buckets come in ascending order: a bucket is ranked
behind all differences before it, and does not change their ranks.
-/

namespace Scorebook.Ordinal

variable {K : Type} [ExactArithmetic K]

/-- The middle of the ranks that the differences of one magnitude have among all differences. -/
def midrank (differences : List ℤ) (difference : ℤ) : K :=
  (differences.countP fun other => other.natAbs < difference.natAbs : ℕ) +
    ((differences.countP fun other => other.natAbs = difference.natAbs : ℕ) + 1) / (2 : ℕ)

/-- The midranks do not depend on the order of the differences. -/
theorem midrank_perm {differences other : List ℤ} (h : other.Perm differences) :
    (midrank other : ℤ → K) = midrank differences := by
  funext difference
  rw [midrank, midrank, h.countP_eq, h.countP_eq]

/-- A midrank is positive. -/
theorem midrank_pos (differences : List ℤ) (difference : ℤ) :
    (0 : K) < midrank differences difference := by
  unfold midrank
  positivity

section Append

variable {before bucket : List ℤ} {magnitude : ℕ}
  (hbefore : ∀ difference ∈ before, difference.natAbs < magnitude)
  (hbucket : ∀ difference ∈ bucket, difference.natAbs = magnitude)

include hbefore hbucket

/-- Greater differences do not change the midrank of a difference. -/
theorem midrank_append_of_mem_left {difference : ℤ} (h : difference ∈ before) :
    (midrank (before ++ bucket) difference : K) = midrank before difference := by
  have hlt := hbefore difference h
  have hnone : (bucket.countP fun other => other.natAbs < difference.natAbs) = 0 := by
    refine List.countP_eq_zero.mpr fun other hother => ?_
    have heq := hbucket other hother
    simp only [decide_eq_true_eq]
    omega
  have hdiffer : (bucket.countP fun other => other.natAbs = difference.natAbs) = 0 := by
    refine List.countP_eq_zero.mpr fun other hother => ?_
    have heq := hbucket other hother
    simp only [decide_eq_true_eq]
    omega
  rw [midrank, midrank, List.countP_append, List.countP_append, hnone, hdiffer, Nat.add_zero,
    Nat.add_zero]

/-- The greatest differences share the middle of the last ranks. -/
theorem midrank_append_of_mem_right {difference : ℤ} (h : difference ∈ bucket) :
    (midrank (before ++ bucket) difference : K) = before.length + (bucket.length + 1) / 2 := by
  have hmagnitude := hbucket difference h
  have hall : (before.countP fun other => other.natAbs < difference.natAbs) = before.length := by
    refine List.countP_eq_length.mpr fun other hother => ?_
    rw [hmagnitude]
    exact decide_eq_true (hbefore other hother)
  have hnone : (bucket.countP fun other => other.natAbs < difference.natAbs) = 0 := by
    refine List.countP_eq_zero.mpr fun other hother => ?_
    rw [hmagnitude, hbucket other hother]
    simp
  have hdiffer : (before.countP fun other => other.natAbs = difference.natAbs) = 0 := by
    refine List.countP_eq_zero.mpr fun other hother => ?_
    have hlt := hbefore other hother
    simp only [decide_eq_true_eq]
    omega
  have hsame : (bucket.countP fun other => other.natAbs = difference.natAbs) = bucket.length := by
    refine List.countP_eq_length.mpr fun other hother => ?_
    rw [hmagnitude]
    exact decide_eq_true (hbucket other hother)
  rw [midrank, List.countP_append, List.countP_append, hall, hnone, hdiffer, hsame, Nat.add_zero,
    Nat.zero_add, Nat.cast_ofNat]

/-- Differences behind smaller ones add their midrank to a sum once for each of them. -/
theorem sum_midranks_append (select : ℤ → Bool) (g : K → K) :
    (((before ++ bucket).filter select).map fun difference =>
        g (midrank (before ++ bucket) difference)).sum =
      ((before.filter select).map fun difference => g (midrank before difference)).sum +
        bucket.countP select * g (before.length + (bucket.length + 1) / 2) := by
  have hleft : ((before.filter select).map fun difference =>
      g (midrank (before ++ bucket) difference)) =
        (before.filter select).map fun difference => g (midrank before difference) := by
    refine List.map_congr_left fun difference h => ?_
    rw [midrank_append_of_mem_left hbefore hbucket (List.mem_of_mem_filter h)]
  have hright : ((bucket.filter select).map fun difference =>
      g (midrank (before ++ bucket) difference)) =
        List.replicate (bucket.countP select)
          (g (before.length + (bucket.length + 1) / 2)) := by
    rw [List.countP_eq_length_filter]
    refine List.map_eq_replicate_iff.mpr fun difference h => ?_
    rw [midrank_append_of_mem_right hbefore hbucket (List.mem_of_mem_filter h)]
  rw [List.filter_append, List.map_append, List.sum_append, hleft, hright, List.sum_replicate,
    nsmul_eq_mul]

end Append

namespace RankSums

/-- The rank sums of a histogram are those of some differences. -/
structure Ranks (sums : RankSums K) (differences : List ℤ) : Prop where
  count : sums.count = differences.length
  offset : sums.offset = differences.length
  plus : sums.plus = ((differences.filter (0 < ·)).map (midrank differences)).sum
  minus : sums.minus = ((differences.filter (· < 0)).map (midrank differences)).sum
  /-- The variance is a quarter of the sum of the squared midranks. -/
  variance : sums.variance = (differences.map fun d => midrank differences d ^ 2).sum / 4

/-- No differences have no ranks. -/
theorem ranks_empty : (empty : RankSums K).Ranks [] := by
  constructor <;> simp [empty, variance]

/-- A bucket behind smaller differences is ranked as its differences are. -/
theorem Ranks.push {sums : RankSums K} {differences : List ℤ} (h : sums.Ranks differences)
    {bucket : Bucket} {magnitude : ℕ} (hsound : bucket.positive ≤ bucket.count)
    (hmagnitude : magnitude ≠ 0)
    (hbefore : ∀ difference ∈ differences, difference.natAbs < magnitude) :
    (sums.push bucket).Ranks (differences ++ bucket.differences magnitude) := by
  have hbucket : ∀ difference ∈ bucket.differences magnitude, difference.natAbs = magnitude :=
    fun difference => Bucket.natAbs_of_mem_differences
  have hlength : (bucket.differences magnitude).length = bucket.count :=
    Bucket.length_differences hsound
  have hplus := sum_midranks_append (K := K) hbefore hbucket (0 < ·) id
  have hminus := sum_midranks_append (K := K) hbefore hbucket (· < 0) id
  have hsquares := sum_midranks_append (K := K) hbefore hbucket (fun _ => true) (· ^ 2)
  simp only [Bucket.countP_pos_differences hmagnitude, Bucket.countP_neg_differences hmagnitude,
    hlength, id_eq, List.filter_true, List.countP_true] at hplus hminus hsquares
  constructor
  · simp [RankSums.push, h.count, hlength]
  · simp [RankSums.push, h.offset, hlength]
  · simp only [RankSums.push, h.plus, h.offset, ExactArithmetic.ofNat_eq_cast]
    rw [hplus, Nat.cast_one, Nat.cast_ofNat]
    ring
  · simp only [RankSums.push, h.minus, h.offset, ExactArithmetic.ofNat_eq_cast]
    rw [hminus, Nat.cast_one, Nat.cast_ofNat]
    ring
  · have hold := h.variance
    simp only [RankSums.variance, RankSums.push, ExactArithmetic.ofNat_eq_cast, h.count,
      Nat.cast_add, Nat.cast_one, Nat.cast_ofNat] at hold ⊢
    rw [hsquares]
    linear_combination hold

/-- Reordered differences have the same rank sums. -/
theorem Ranks.of_perm {sums : RankSums K} {differences other : List ℤ} (h : sums.Ranks differences)
    (hperm : other.Perm differences) : sums.Ranks other where
  count := h.count.trans hperm.length_eq.symm
  offset := by rw [h.offset, hperm.length_eq]
  plus := by rw [h.plus, midrank_perm hperm, ((hperm.filter _).map _).sum_eq]
  minus := by rw [h.minus, midrank_perm hperm, ((hperm.filter _).map _).sum_eq]
  variance := by rw [h.variance, midrank_perm hperm, (hperm.map _).sum_eq]

/-- All the differences of a histogram are smaller than a magnitude that exceeds all others. -/
theorem natAbs_lt_of_mem_differences {histogram : Histogram} {entry : ℕ × Bucket}
    (hascending : Keyed.Ascending (histogram ++ [entry])) :
    ∀ difference ∈ histogram.differences, difference.natAbs < entry.1 := by
  intro difference hdifference
  obtain ⟨before, hbefore, hmem⟩ := List.mem_flatMap.mp hdifference
  have hlast := (List.pairwise_append.mp hascending).2.2 before hbefore entry (by simp)
  rw [Bucket.natAbs_of_mem_differences hmem]
  exact Nat.compare_eq_lt.mp hlast

/-- The rank sums of a histogram are those of its differences. -/
theorem ranks_differences {histogram : Histogram} (hascending : Keyed.Ascending histogram)
    (hsound : histogram.Sound) (hnonzero : ∀ entry ∈ histogram, entry.1 ≠ 0) :
    (ofHistogram histogram : RankSums K).Ranks histogram.differences := by
  -- The last bucket has the greatest magnitude, so the ranks before it stay as they are.
  induction histogram using List.reverseRecOn with
  | nil => exact ranks_empty
  | append_singleton histogram entry ih =>
    obtain ⟨magnitude, bucket⟩ := entry
    have hmem : (magnitude, bucket) ∈ histogram ++ [(magnitude, bucket)] := by simp
    have hranks := ih (List.pairwise_append.mp hascending).1
      (fun entry hentry => hsound entry (List.mem_append_left _ hentry))
      (fun entry hentry => hnonzero entry (List.mem_append_left _ hentry))
    have hpushed := hranks.push (hsound _ hmem) (hnonzero _ hmem)
      (natAbs_lt_of_mem_differences hascending)
    rw [ofHistogram_concat]
    simpa [Histogram.differences] using hpushed

/-- The rank sums of a histogram are those of the differences that it counts. -/
theorem ranks_ofHistogram {histogram : Histogram} {differences : List ℤ}
    (h : histogram.Counts differences) :
    (ofHistogram histogram : RankSums K).Ranks differences := by
  have hranks := ranks_differences (K := K) h.ascending h.sound h.nonzero
  exact hranks.of_perm h.perm.symm

/-- The two rank sums add up to the sum of all ranks. -/
theorem plus_add_minus_eq {histogram : Histogram} {differences : List ℤ}
    (h : histogram.Counts differences) :
    (ofHistogram histogram : RankSums K).plus + (ofHistogram histogram).minus =
      differences.length * (differences.length + 1) / 2 := by
  have hsum := plus_add_minus (K := K) h.sound
  have hcount := (ranks_ofHistogram (K := K) h).count
  simp only [mean, hcount, ExactArithmetic.ofNat_eq_cast, Nat.cast_one, Nat.cast_ofNat] at hsum
  rw [hsum]
  ring

namespace Ranks

variable {sums : RankSums K} {differences : List ℤ}

/-- The rank sums are not negative. -/
theorem rankSums_nonneg (h : sums.Ranks differences) : 0 ≤ sums.plus ∧ 0 ≤ sums.minus := by
  have hnonneg : ∀ selected : List ℤ, (0 : K) ≤ (selected.map (midrank differences)).sum := by
    intro selected
    refine List.sum_nonneg fun rank hrank => ?_
    obtain ⟨difference, -, rfl⟩ := List.mem_map.mp hrank
    exact (midrank_pos differences difference).le
  rw [h.plus, h.minus]
  exact ⟨hnonneg _, hnonneg _⟩

/-- There is a spread exactly if there are differences. -/
theorem variance_pos_iff (h : sums.Ranks differences) : 0 < sums.variance ↔ 0 < sums.count := by
  rw [h.variance, h.count]
  constructor
  · intro hpos
    by_contra hnone
    have hnil : differences = [] := List.length_eq_zero_iff.mp (by omega)
    simp [hnil] at hpos
  · intro hsome
    refine div_pos (List.sum_pos _ (fun square hsquare => ?_) ?_) (by norm_num)
    · obtain ⟨difference, -, rfl⟩ := List.mem_map.mp hsquare
      exact pow_pos (midrank_pos differences difference) 2
    · rw [ne_eq, List.map_eq_nil_iff]
      exact List.ne_nil_of_length_pos hsome

/-- There is a deviate exactly if there are differences. -/
theorem isSome_z?_iff (h : sums.Ranks differences) (corrected : Bool) :
    (sums.z? corrected).isSome ↔ 0 < sums.count := by
  have hspread : (0 < sums.count ∧ Arithmetic.less (Arithmetic.ofNat 0) sums.variance = true) ↔
      0 < sums.count := by
    rw [ExactArithmetic.less_eq_decide, decide_eq_true_eq, ExactArithmetic.ofNat_eq_cast,
      Nat.cast_zero, h.variance_pos_iff, and_self]
  unfold z?
  split_ifs with hboth
  · simpa using hspread.mp hboth
  · simpa using mt hspread.mpr hboth

end Ranks

end RankSums

end Scorebook.Ordinal
