import Mathlib.Tactic.Linarith
import Scorebook.Proofs.Exchange.Rows
import Scorebook.Proofs.Numeric.Spread

/-!
# The interval and the test of paired differences

A numeric comparison reports the difference of the means of its sides, an interval around it and a
test of the differences, out of three running moments and a tally. In exact arithmetic they are all
about one list, the differences of the pairs: the difference of the means is the mean of the
differences, the tally counts their signs, and the interval leaves out zero exactly if the statistic
of the test exceeds the critical value.
-/

namespace Scorebook

namespace Moments

variable {K : Type} [ExactArithmetic K]

/-- The mean of differences is the difference of the means. -/
theorem average_map_sub (pairs : List (K × K)) :
    average (pairs.map fun pair => pair.2 - pair.1) =
      average (pairs.map (·.2)) - average (pairs.map (·.1)) := by
  have hsum : (pairs.map fun pair => pair.2 - pair.1).sum =
      (pairs.map (·.2)).sum - (pairs.map (·.1)).sum := by
    induction pairs with
    | nil => simp
    | cons pair pairs ih =>
      simp only [List.map_cons, List.sum_cons, ih]
      ring
  simp only [average, hsum, List.length_map, sub_div]

/-- The sample standard deviation of some values. -/
def deviationOf (values : List K) : K :=
  Arithmetic.sqrt (deviations values / (values.length - 1))

/-- The standard deviation of running moments is the sample standard deviation. -/
theorem deviation?_ofList (values : List K) : (ofList values).deviation? =
    if 2 ≤ values.length then some (deviationOf values) else none := by
  rw [deviation?, variance?_ofList]
  split_ifs <;> rfl

/-- The standard error of the mean of some values. -/
def standardError (values : List K) : K :=
  deviationOf values / Arithmetic.sqrt (values.length : K)

end Moments

namespace Numeric

open Moments

variable {K : Type} [ExactArithmetic K]

/-- A tally of pairs counts the signs of their differences. -/
theorem tally_ofPairs (pairs : List (K × K)) (excluded : ℕ) :
    let differences := pairs.map fun pair => pair.2 - pair.1
    (PairedSample.ofPairs pairs excluded).tally =
      ⟨differences.countP (0 < ·), differences.countP (· < 0), differences.countP (· = 0)⟩ := by
  induction pairs using List.reverseRecOn with
  | nil => rfl
  | append_singleton pairs pair ih =>
    simp only [PairedSample.ofPairs, List.foldl_append, List.foldl_cons, List.foldl_nil] at ih ⊢
    rw [ih]
    rcases lt_trichotomy pair.1 pair.2 with hlt | heq | hgt
    · simp [compareNumbers, Tally.record, hlt, hlt.not_gt, sub_eq_zero, hlt.ne']
    · simp [compareNumbers, Tally.record, heq]
    · simp [compareNumbers, Tally.record, hgt, hgt.not_gt, sub_eq_zero, hgt.ne]

/-- A tally of pairs counts each pair once. -/
theorem total_tally_ofPairs (pairs : List (K × K)) (excluded : ℕ) :
    (PairedSample.ofPairs pairs excluded).tally.total = pairs.length := by
  induction pairs using List.reverseRecOn with
  | nil => rfl
  | append_singleton pairs pair ih =>
    simp only [PairedSample.ofPairs, List.foldl_append, List.foldl_cons, List.foldl_nil,
      Tally.total_record] at ih ⊢
    rw [ih, List.length_append, List.length_singleton]

/-- An interval around a mean leaves out zero exactly if the mean exceeds the critical number of
standard errors. -/
theorem zero_notMem_interval_iff {mean error z : K} (herror : 0 < error) :
    0 ∉ Set.Icc (mean - z * error) (mean + z * error) ↔ z < |mean / error| := by
  have hmem : 0 ∈ Set.Icc (mean - z * error) (mean + z * error) ↔ |mean| ≤ z * error := by
    rw [Set.mem_Icc, abs_le]
    constructor <;> rintro ⟨hlower, hupper⟩ <;> constructor <;> linarith
  rw [hmem, not_le, abs_div, abs_of_pos herror, lt_div_iff₀ herror]

variable [TailTable K] (settings : Settings)

/-- The test of some values, defined when they have a spread. Its statistic is their mean in
standard errors. -/
theorem tTest?_ofList (values : List K) :
    ((PairedSample.tTest? settings (ofList values)).isSome ↔
      2 ≤ values.length ∧ 0 < deviationOf values) ∧
    ∀ test, PairedSample.tTest? settings (ofList values) = some test →
      test.statistic = average values / standardError values := by
  unfold PairedSample.tTest?
  rw [mean?_ofList, deviation?_ofList, count_ofList]
  by_cases hlength : 2 ≤ values.length
  · have hpos : 0 < values.length := by omega
    by_cases hspread : 0 < deviationOf values
    · simp [hlength, hpos, hspread, standardError]
    · simp [hlength, hpos, hspread]
  · simp [hlength]

section Pairs

variable (pairs : List (K × K)) (excluded : ℕ)

/-- The difference of the means of two sides is the mean of the differences. -/
theorem deltaMean_ofPairs :
    let differences := pairs.map fun pair => pair.2 - pair.1
    ((PairedSample.ofPairs pairs excluded).comparison settings).deltaMean =
      if 0 < differences.length then some (average differences) else none := by
  simp only [PairedSample.comparison, PairedSample.ofPairs, mean?_ofList, List.length_map,
    average_map_sub]
  split_ifs <;> rfl

/-- The interval around the difference of the means has the critical number of standard errors to
either side. -/
theorem deltaInterval_ofPairs :
    let differences := pairs.map fun pair => pair.2 - pair.1
    ((PairedSample.ofPairs pairs excluded).comparison settings).deltaInterval =
      if 2 ≤ differences.length then
        some (intervalAround (average differences)
          (Arithmetic.ofDouble settings.zCritical * standardError differences))
      else none := by
  intro differences
  have hdelta := deltaMean_ofPairs settings pairs excluded
  have hinterval : ((PairedSample.ofPairs pairs excluded).comparison settings).deltaInterval = do
      let deviation ← (ofList differences).deviation?
      return intervalAround
        (← ((PairedSample.ofPairs pairs excluded).comparison settings).deltaMean)
        (halfWidth (Arithmetic.ofDouble settings.zCritical) deviation
          (ofList differences).count) := rfl
  have hhalf : halfWidth (Arithmetic.ofDouble settings.zCritical) (deviationOf differences)
      differences.length = Arithmetic.ofDouble settings.zCritical * standardError differences := by
    simp [halfWidth, standardError, mul_div_assoc]
  rw [hinterval, hdelta, deviation?_ofList, count_ofList]
  by_cases hlength : 2 ≤ differences.length
  · have hpos : 0 < differences.length := by omega
    rw [if_pos hlength, if_pos hlength, if_pos hpos, ← hhalf]
    rfl
  · rw [if_neg hlength, if_neg hlength]
    rfl

end Pairs

/-- What a numeric comparison reports about the differences of its pairs. -/
structure Comparison.TellsOneStory (comparison : Comparison K) (z : K) (differences : List K) :
    Prop where
  paired : comparison.paired = differences.length
  /-- The difference of the means of the sides is the mean of the differences. -/
  deltaMean : comparison.deltaMean =
    if 0 < differences.length then some (differences.sum / differences.length) else none
  wins : comparison.outcomes.tally.wins = differences.countP (0 < ·)
  losses : comparison.outcomes.tally.losses = differences.countP (· < 0)
  ties : comparison.outcomes.tally.ties = differences.countP (· = 0)
  total : comparison.outcomes.tally.total = comparison.paired
  isSome_interval : comparison.deltaInterval.isSome ↔ 2 ≤ comparison.paired
  isSome_tTest : comparison.tTest.isSome ↔
    2 ≤ comparison.paired ∧ ¬∀ x ∈ differences, ∀ y ∈ differences, x = y
  /-- The test is about the reported difference of the means. -/
  statistic : ∀ test, comparison.tTest = some test → ∃ mean, comparison.deltaMean = some mean ∧
    test.statistic = mean / standardError differences
  /-- Interval and test come to the same verdict on zero. -/
  agree : ∀ test, comparison.tTest = some test → ∃ interval,
    comparison.deltaInterval = some interval ∧
      (0 ∉ Set.Icc interval.lower interval.upper ↔ z < |test.statistic|)

/-- The comparison of pairs tells one story about their differences, if the square root is positive
exactly for positive numbers. -/
theorem comparison_ofPairs_tellsOneStory
    (hsqrt : ∀ x : K, 0 < Arithmetic.sqrt x ↔ 0 < x) (pairs : List (K × K)) (excluded : ℕ) :
    ((PairedSample.ofPairs pairs excluded).comparison settings).TellsOneStory
      (Arithmetic.ofDouble settings.zCritical) (pairs.map fun pair => pair.2 - pair.1) := by
  set differences := pairs.map fun pair => pair.2 - pair.1 with hdifferences
  set comparison := (PairedSample.ofPairs pairs excluded).comparison settings
  have hpaired : comparison.paired = differences.length := count_ofList differences
  have htally : comparison.outcomes.tally = _ := tally_ofPairs pairs excluded
  have hdelta : comparison.deltaMean =
      if 0 < differences.length then some (average differences) else none :=
    deltaMean_ofPairs settings pairs excluded
  have hinterval : comparison.deltaInterval =
      if 2 ≤ differences.length then
        some (intervalAround (average differences)
          (Arithmetic.ofDouble settings.zCritical * standardError differences))
      else none :=
    deltaInterval_ofPairs settings pairs excluded
  obtain ⟨htest, hstatistic⟩ := tTest?_ofList settings differences
  have hspread (hlength : 2 ≤ differences.length) : 0 < deviationOf differences ↔
      ¬∀ x ∈ differences, ∀ y ∈ differences, x = y := by
    have hone : (1 : K) < differences.length := Nat.one_lt_cast.mpr hlength
    rw [deviationOf, hsqrt, div_pos_iff_of_pos_right (sub_pos.mpr hone),
      (deviations_nonneg differences).lt_iff_ne, ne_comm, ne_eq, deviations_eq_zero_iff]
  constructor
  case paired => exact hpaired
  case deltaMean => exact hdelta
  case wins => rw [htally]
  case losses => rw [htally]
  case ties => rw [htally]
  case total =>
    rw [hpaired, hdifferences, List.length_map]
    exact total_tally_ofPairs pairs excluded
  case isSome_interval =>
    rw [hpaired, hinterval]
    split_ifs with hlength <;> simp [hlength]
  case isSome_tTest =>
    rw [hpaired]
    exact htest.trans (and_congr_right hspread)
  case statistic =>
    intro test hsome
    obtain ⟨hlength, -⟩ := htest.mp (Option.isSome_iff_exists.mpr ⟨test, hsome⟩)
    exact ⟨_, hdelta.trans (if_pos (by omega)), hstatistic test hsome⟩
  case agree =>
    intro test hsome
    obtain ⟨hlength, hdeviation⟩ := htest.mp (Option.isSome_iff_exists.mpr ⟨test, hsome⟩)
    have hcount : (0 : K) < differences.length := Nat.cast_pos.mpr (by omega)
    have herror : 0 < standardError differences :=
      div_pos hdeviation ((hsqrt _).mpr hcount)
    refine ⟨_, hinterval.trans (if_pos hlength), ?_⟩
    rw [hstatistic test hsome]
    exact zero_notMem_interval_iff herror

/-- The comparison of rows tells one story about the differences of the pairs of numbers in them,
with square roots of real numbers. The rows without such a pair are counted apart. -/
theorem comparison_tellsOneStory [TailTable ℝ] (settings : Settings) (rows : List PairedRow) :
    let pairs : List (ℝ × ℝ) := PairedRow.readPairs readNumber? rows
    let comparison := (rows.foldl PairedSample.pushRow PairedSample.empty).comparison settings
    comparison.TellsOneStory (Arithmetic.ofDouble settings.zCritical)
        (pairs.map fun pair => pair.2 - pair.1) ∧
      comparison.paired + comparison.excluded = rows.length := by
  intro pairs comparison
  have hcomparison : comparison = (PairedSample.ofPairs pairs
      (PairedRow.unreadable (readNumber? (α := ℝ)) rows)).comparison settings := by
    rw [← PairedSample.foldl_pushRow]
  have hstory := comparison_ofPairs_tellsOneStory settings (fun _ => Real.sqrt_pos) pairs
    (PairedRow.unreadable (readNumber? (α := ℝ)) rows)
  rw [← hcomparison] at hstory
  refine ⟨hstory, ?_⟩
  have hexcluded : comparison.excluded = PairedRow.unreadable (readNumber? (α := ℝ)) rows := by
    rw [hcomparison]
    rfl
  have hreadable := List.length_filter_le
    (fun row : PairedRow => (readNumber? (α := ℝ) row.rawA).isSome &&
      (readNumber? (α := ℝ) row.rawB).isSome) rows
  rw [hstory.paired, hexcluded, PairedRow.unreadable_eq, List.length_map,
    PairedRow.length_readPairs, PairedRow.readable]
  omega

end Numeric

end Scorebook
