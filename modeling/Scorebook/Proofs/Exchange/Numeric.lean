import Scorebook.Proofs.Exchange.Rows
import Scorebook.Proofs.Numeric.Columns

/-!
# Exchanging the sides of a numeric comparison

In exact arithmetic the differences of exchanged pairs are the negated differences. Their mean is
negated and their spread is the same, so the interval is reflected at zero and the t test changes
the sign of its statistic and nothing else.
-/

namespace Scorebook

variable {K : Type} [ExactArithmetic K]

/-- The interval reflected at zero. -/
def Interval.negated (interval : Interval K) : Interval K := ⟨-interval.upper, -interval.lower⟩

namespace Moments

/-- The moments of the negated values. -/
def negated (moments : Moments K) : Moments K := { moments with center := -moments.center }

/-- Taking in the negated value keeps negated moments negated. -/
theorem push_negated (moments : Moments K) (x : K) :
    moments.negated.push (-x) = (moments.push x).negated := by
  simp only [push, negated, ExactArithmetic.ofNat_eq_cast, mk.injEq, true_and]
  constructor <;> ring

/-- The moments of negated values are the negated moments. -/
theorem ofList_map_neg (values : List K) : ofList (values.map (-·)) = (ofList values).negated := by
  induction values using List.reverseRecOn with
  | nil => simp [ofList, empty, negated]
  | append_singleton values x ih =>
    rw [List.map_append, List.map_singleton, ofList_concat, ofList_concat, ih, push_negated]

/-- An interval around a negated center is reflected. -/
theorem intervalAround_neg (center half : K) :
    intervalAround (-center) half = (intervalAround center half).negated := by
  simp only [intervalAround, Interval.negated, Interval.mk.injEq]
  constructor <;> ring

/-- The mean of negated values is the negated mean. -/
theorem mean?_negated (moments : Moments K) : moments.negated.mean? = moments.mean?.map (-·) := by
  unfold mean? negated
  split_ifs <;> rfl

end Moments

namespace Numeric

/-- The test with its statistic negated. Its degrees of freedom and its tails are the same. -/
def TTest.negated (test : TTest K) : TTest K := { test with statistic := -test.statistic }

/-- The comparison seen with the sides exchanged. The difference of the means changes its sign, and
its interval is reflected. -/
def Comparison.exchanged (comparison : Comparison K) : Comparison K where
  paired := comparison.paired
  meanA := comparison.meanB
  meanB := comparison.meanA
  deviationA := comparison.deviationB
  deviationB := comparison.deviationA
  deltaMean := comparison.deltaMean.map (-·)
  outcomes := comparison.outcomes.exchanged
  deltaInterval := comparison.deltaInterval.map Interval.negated
  tTest := comparison.tTest.map TTest.negated
  excluded := comparison.excluded

namespace PairedSample

/-- The sample seen with the sides exchanged. -/
def exchanged (sample : PairedSample K) : PairedSample K where
  sideA := sample.sideB
  sideB := sample.sideA
  differences := sample.differences.negated
  tally := sample.tally.exchanged
  excluded := sample.excluded

/-- Exchanged pairs leave the exchanged sample. -/
theorem ofPairs_swap (pairs : List (K × K)) (excluded : ℕ) :
    ofPairs (pairs.map Prod.swap) excluded = (ofPairs pairs excluded).exchanged := by
  have hdifferences : (pairs.map Prod.swap).map (fun pair => pair.2 - pair.1) =
      (pairs.map fun pair => pair.2 - pair.1).map (-·) := by
    simp [Function.comp_def]
  have htally := Tally.foldl_record_exchanged
    (fun pair : K × K => compareNumbers pair.2 pair.1)
    (fun pair => compareNumbers_swap pair.2 pair.1) pairs
  simp only [ofPairs, exchanged, mk.injEq]
  refine ⟨by simp [Function.comp_def], by simp [Function.comp_def], ?_, htally, trivial⟩
  rw [hdifferences, Moments.ofList_map_neg]

variable [TailTable K] (settings : Settings)

/-- The test of negated differences is the negated test. -/
theorem tTest?_negated (differences : Moments K) :
    tTest? settings differences.negated = (tTest? settings differences).map TTest.negated := by
  have hdeviation : differences.negated.deviation? = differences.deviation? := rfl
  have hcount : differences.negated.count = differences.count := rfl
  unfold tTest?
  rw [Moments.mean?_negated, hdeviation, hcount]
  cases differences.mean? with
  | none => rfl
  | some mean =>
    cases differences.deviation? with
    | none => rfl
    | some deviation =>
      by_cases hspread : 0 < deviation
      · simp [hspread, TTest.negated, Tail.student, neg_div]
      · simp [hspread]

/-- The comparison of an exchanged sample is the exchanged comparison. -/
theorem comparison_exchanged (sample : PairedSample K) :
    sample.exchanged.comparison settings = (sample.comparison settings).exchanged := by
  have hdeviation : sample.differences.negated.deviation? = sample.differences.deviation? := rfl
  have hcount : sample.differences.negated.count = sample.differences.count := rfl
  -- The mean of the differences is reported as the difference of the means of the sides.
  have hdelta : (do return (← sample.sideA.mean?) - (← sample.sideB.mean?) : Option K) =
      (do return (← sample.sideB.mean?) - (← sample.sideA.mean?) : Option K).map (-·) := by
    cases sample.sideA.mean? <;> cases sample.sideB.mean? <;> simp
  simp only [comparison, Comparison.exchanged, exchanged, Comparison.mk.injEq, true_and,
    and_true, Tally.outcomes_exchanged, tTest?_negated, hdeviation, hcount, hdelta]
  cases sample.differences.deviation? with
  | none => rfl
  | some deviation =>
    cases (do return (← sample.sideB.mean?) - (← sample.sideA.mean?) : Option K) with
    | none => rfl
    | some delta => simp [Moments.intervalAround_neg]

end PairedSample

end Numeric

end Scorebook
