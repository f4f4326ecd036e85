import Scorebook.Proofs.Exchange.Rows
import Scorebook.Proofs.Ordinal.Columns
import Scorebook.Proofs.Ordinal.RankSums
import Scorebook.Proofs.Tables

/-!
# Exchanging the sides of an ordinal comparison

The differences of exchanged pairs have the same magnitudes and opposite signs. So the histograms
of both have the same buckets, in which the positive differences of one are the negative ones of
the other. The rank sums are exchanged, and since both have the same distance from their mean, the
deviation changes its sign, with and without the correction for continuity.
-/

namespace Scorebook

namespace Ordinal

/-- Two buckets hold differences of one magnitude with opposite signs. -/
def Bucket.Opposite (bucket other : Bucket) : Prop :=
  other.count = bucket.count ∧ bucket.positive + other.positive = bucket.count

namespace Histogram

variable {histogram other : Histogram}

/-- Two histograms hold the same magnitudes with opposite signs. -/
def Opposite (histogram other : Histogram) : Prop := Keyed.Alike Bucket.Opposite histogram other

/-- Recording opposite differences keeps histograms opposite. -/
theorem Opposite.record (h : Opposite histogram other) {difference : ℤ} (hne : difference ≠ 0) :
    Opposite (histogram.record difference) (other.record (-difference)) := by
  unfold Histogram.record
  rw [Int.natAbs_neg]
  refine Keyed.Alike.alter h _ ?_ fun bucket bucket' hbuckets => ?_
  · simp only [Bucket.Opposite, Option.getD_none, true_and]
    split_ifs <;> omega
  · simp only [Bucket.Opposite, Option.getD_some] at hbuckets ⊢
    split_ifs <;> omega

/-- A histogram that has an opposite counts no positive difference that it does not count. -/
theorem Opposite.sound (h : Opposite histogram other) : histogram.Sound := by
  unfold Opposite Keyed.Alike at h
  induction h with
  | nil => simp [Sound]
  | cons hentry _ ih =>
    refine List.forall_mem_cons.mpr ⟨?_, ih⟩
    have hbuckets : Bucket.Opposite _ _ := hentry.2
    unfold Bucket.Opposite at hbuckets
    omega

end Histogram

variable {K : Type} [ExactArithmetic K]

namespace RankSums

/-- The rank sums with the signs of all differences changed. -/
def exchanged (sums : RankSums K) : RankSums K :=
  { sums with plus := sums.minus, minus := sums.plus }

/-- An opposite bucket adds the same ranks to the other sum. -/
theorem push_exchanged (sums : RankSums K) {bucket other : Bucket}
    (h : Bucket.Opposite bucket other) :
    sums.exchanged.push other = (sums.push bucket).exchanged := by
  obtain ⟨hcount, hpositive⟩ := h
  have hnegative : bucket.count - bucket.positive = other.positive := by omega
  have hother : bucket.count - other.positive = bucket.positive := by omega
  simp only [push, exchanged, hcount, hnegative, hother]

/-- Opposite histograms have exchanged rank sums. -/
theorem ofHistogram_opposite {histogram other : Histogram} (h : histogram.Opposite other) :
    (ofHistogram other : RankSums K) = (ofHistogram histogram).exchanged := by
  suffices hfold : ∀ sums : RankSums K,
      other.foldl (fun sums entry => sums.push entry.2) sums.exchanged =
        (histogram.foldl (fun sums entry => sums.push entry.2) sums).exchanged from
    hfold empty
  unfold Histogram.Opposite Keyed.Alike at h
  induction h with
  | nil => exact fun sums => rfl
  | cons hentry _ ih =>
    intro sums
    rw [List.foldl_cons, List.foldl_cons, push_exchanged sums hentry.2]
    exact ih _

/-- The rank sums deviate from their common mean by the same amount in opposite directions. -/
theorem deviation_exchanged {sums : RankSums K} (h : sums.plus + sums.minus = 2 * sums.mean)
    (corrected : Bool) : sums.exchanged.deviation corrected = -sums.deviation corrected := by
  have hraw : sums.exchanged.plus - sums.exchanged.mean = -(sums.plus - sums.mean) := by
    have hmean : sums.exchanged.mean = sums.mean := rfl
    have hplus : sums.exchanged.plus = sums.minus := rfl
    rw [hmean, hplus]
    linear_combination h
  simp only [deviation, hraw]
  generalize sums.plus - sums.mean = raw
  cases corrected with
  | false => rfl
  | true =>
    simp only [↓reduceIte, ExactArithmetic.abs_eq_abs, abs_neg, ExactArithmetic.less_eq_decide,
      ExactArithmetic.ofNat_eq_cast, Nat.cast_zero, decide_eq_true_eq]
    rcases lt_trichotomy raw 0 with hneg | rfl | hpos
    · simp [hneg, hneg.not_gt]
    · simp
    · simp [hpos, hpos.not_gt]

/-- The deviate changes its sign with the differences. -/
theorem z?_exchanged {sums : RankSums K} (h : sums.plus + sums.minus = 2 * sums.mean)
    (corrected : Bool) : sums.exchanged.z? corrected = (sums.z? corrected).map (-·) := by
  have hvariance : sums.exchanged.variance = sums.variance := rfl
  have hcount : sums.exchanged.count = sums.count := rfl
  unfold z?
  rw [hvariance, hcount, deviation_exchanged h]
  split_ifs with hspread
  · simp [neg_div]
  · rfl

end RankSums

/-- The test with the signs of all differences changed: the rank sums are exchanged and the deviate
is negated. The smaller rank sum and the tails of the deviate are the same. -/
def SignedRankTest.exchanged (test : SignedRankTest K) : SignedRankTest K :=
  { test with plus := test.minus, minus := test.plus, z := test.z.map (-·) }

/-- The cumulative shares with the sides exchanged. -/
def CdfPair.exchanged (shares : CdfPair K) : CdfPair K := ⟨shares.code, shares.cdfB, shares.cdfA⟩

/-- The pass rates with the sides exchanged. -/
def PassRateDelta.exchanged (rates : PassRateDelta K) : PassRateDelta K :=
  ⟨rates.rateB, rates.rateA, -rates.delta⟩

/-- The comparison seen with the sides exchanged. What compares the sides changes its sign or, for a
probability, turns into its complement. -/
def Comparison.exchanged (comparison : Comparison K) : Comparison K where
  paired := comparison.paired
  passRates := comparison.passRates.exchanged
  cdf := comparison.cdf.map fun entry => (entry.1, entry.2.exchanged)
  outcomes := comparison.outcomes.exchanged
  signedRank := comparison.signedRank.exchanged
  cliffsDelta := comparison.cliffsDelta.map (-·)
  superiority := comparison.superiority.map (1 - ·)
  excluded := comparison.excluded

/-- The test of opposite histograms is the exchanged test. -/
theorem signedRankTest_opposite [TailTable K] (settings : Settings)
    {histogram other : Histogram} (h : histogram.Opposite other) :
    (signedRankTest settings other : SignedRankTest K) =
      (signedRankTest settings histogram).exchanged := by
  have hsums : (RankSums.ofHistogram other : RankSums K) = (.exchanged (.ofHistogram histogram)) :=
    RankSums.ofHistogram_opposite h
  have hz := RankSums.z?_exchanged (K := K) (RankSums.plus_add_minus h.sound)
    settings.continuityCorrection
  have htail : ∀ z? : Option K, (z?.map (-·)).bind Tail.normal = z?.bind Tail.normal := by
    intro z?
    cases z? <;> simp [Tail.normal]
  simp only [signedRankTest, SignedRankTest.exchanged, hsums, hz, htail,
    ExactArithmetic.smaller_eq_min, SignedRankTest.mk.injEq, and_true]
  exact ⟨rfl, rfl, rfl, min_comm _ _⟩

namespace PairedSample

/-- Exchanging the summaries exchanges the cumulative shares of each category. -/
theorem pairCdf_exchanged {a b : Summary K} (hlabels : b.labels = a.labels) :
    pairCdf b a = (pairCdf a b).map fun entry => (entry.1, entry.2.exchanged) := by
  refine Keyed.alike_iff_eq_map.mp (Keyed.Alike.ofList ?_)
  rw [hlabels, Keyed.Alike, List.forall₂_map_left_iff, List.forall₂_map_right_iff,
    List.forall₂_same]
  exact fun _ _ => ⟨rfl, rfl⟩

variable {rule : Option PassRule} {coder : Coder} {excluded : ℕ}

/-- Exchanged pairs leave an opposite histogram. -/
theorem histogram_opposite (pairs : List (ℤ × ℤ)) :
    (ofPairs rule coder pairs excluded).histogram.Opposite
      (ofPairs rule coder (pairs.map Prod.swap) excluded).histogram := by
  induction pairs using List.reverseRecOn with
  | nil => exact .nil
  | append_singleton pairs pair ih =>
    obtain ⟨a, b⟩ := pair
    simp only [ofPairs, List.map_append, List.map_singleton, List.foldl_append, List.foldl_cons,
      List.foldl_nil, Prod.swap_prod_mk] at ih ⊢
    by_cases heq : b = a
    · simpa [heq] using ih
    · rw [if_neg heq, if_neg (Ne.symm heq), ← neg_sub b a]
      exact ih.record (sub_ne_zero.mpr heq)

/-- Exchanged pairs leave the exchanged tally. -/
theorem tally_swap (pairs : List (ℤ × ℤ)) :
    (ofPairs rule coder (pairs.map Prod.swap) excluded).tally =
      (ofPairs rule coder pairs excluded).tally.exchanged :=
  Tally.foldl_record_exchanged (fun pair : ℤ × ℤ => compare pair.2 pair.1)
    (fun _ => Std.OrientedOrd.eq_swap) pairs

/-- The comparison of exchanged pairs is the exchanged comparison. -/
theorem comparison_swap [TailTable K] (settings : Settings) (pairs : List (ℤ × ℤ)) :
    ((ofPairs rule coder (pairs.map Prod.swap) excluded).comparison settings : Comparison K) =
      ((ofPairs rule coder pairs excluded).comparison settings).exchanged := by
  have hsideA : (ofPairs rule coder (pairs.map Prod.swap) excluded).sideA =
      (ofPairs rule coder pairs excluded).sideB := by
    simp [ofPairs, Function.comp_def]
  have hsideB : (ofPairs rule coder (pairs.map Prod.swap) excluded).sideB =
      (ofPairs rule coder pairs excluded).sideA := by
    simp [ofPairs, Function.comp_def]
  have hscored : (ofPairs rule coder pairs excluded).sideB.scored =
      (ofPairs rule coder pairs excluded).sideA.scored := by
    simp [ofPairs, Sample.ofCodes]
  have hcoder : (ofPairs rule coder (pairs.map Prod.swap) excluded).coder =
      (ofPairs rule coder pairs excluded).coder := rfl
  have hopposite : (ofPairs rule coder pairs excluded).histogram.Opposite
      (ofPairs rule coder (pairs.map Prod.swap) excluded).histogram := histogram_opposite pairs
  have htest := signedRankTest_opposite (K := K) settings hopposite
  simp only [comparison, Comparison.exchanged, Comparison.mk.injEq, hsideA, hsideB, hcoder,
    tally_swap, htest, Tally.outcomes_exchanged, Tally.cliffsDelta?_exchanged,
    Tally.superiority?_exchanged, true_and]
  refine ⟨hscored, ?_, pairCdf_exchanged rfl, rfl⟩
  simp [PassRateDelta.exchanged]

end PairedSample

end Ordinal

end Scorebook
