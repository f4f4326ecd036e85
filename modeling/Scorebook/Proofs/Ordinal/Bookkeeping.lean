import Mathlib.Tactic.Linarith
import Mathlib.Tactic.Ring
import Scorebook.Proofs.Ordinal.Differences
import Scorebook.Proofs.Results

/-!
# Wins, losses and ties of an ordinal comparison

A paired sample counts the same rows on each side, in the tally and, unless they are ties, in the
histogram of differences. A side could refuse a code, and the sample would not notice. It never
does: the counts of a side have every code that the coder gives. So the four counts stay
consistent, and the effect sizes that are computed from the tally are those of the pairs.
-/

namespace Scorebook

namespace Tally

variable {K : Type} [ExactArithmetic K] {tally : Tally}

/-- A pair that is not a tie is won or lost by the sign of its difference. -/
theorem record_compare (tally : Tally) {a b : ℤ} (hne : b ≠ a) :
    (tally.record (compare b a)).wins = tally.wins + (if 0 < b - a then 1 else 0) ∧
    (tally.record (compare b a)).wins + (tally.record (compare b a)).losses =
      tally.wins + tally.losses + 1 := by
  rcases lt_or_gt_of_ne hne with hlt | hgt
  · rw [compare_lt_iff_lt.mpr hlt, if_neg (by omega)]
    exact ⟨rfl, rfl⟩
  · rw [compare_gt_iff_gt.mpr hgt, if_pos (by omega)]
    exact ⟨rfl, Nat.add_right_comm _ _ _⟩

/-- Cliff's delta of some pairs is the difference of two shares, so it lies between minus one and
one. It is twice the probability of superiority, less one. -/
theorem cliffsDelta?_eq (hsome : 0 < tally.total) :
    ∃ delta superiority : K,
      tally.cliffsDelta? = some delta ∧ tally.superiority? = some superiority ∧
      delta = (tally.wins - tally.losses) / tally.total ∧ delta = 2 * superiority - 1 ∧
      -1 ≤ delta ∧ delta ≤ 1 := by
  have hpos : (0 : K) < tally.total := Nat.cast_pos.mpr hsome
  have htotal : (tally.total : K) = tally.wins + tally.losses + tally.ties := by
    rw [total]
    push_cast
    rfl
  have hwins : (0 : K) ≤ tally.wins := Nat.cast_nonneg _
  have hlosses : (0 : K) ≤ tally.losses := Nat.cast_nonneg _
  have hties : (0 : K) ≤ tally.ties := Nat.cast_nonneg _
  refine ⟨(tally.wins - tally.losses) / tally.total,
    (tally.wins + 1 / 2 * tally.ties) / tally.total, ?_, ?_, rfl, ?_, ?_, ?_⟩
  · simp [cliffsDelta?, hsome]
  · simp [superiority?, hsome]
  · rw [div_eq_iff hpos.ne', sub_mul, mul_assoc, div_mul_cancel₀ _ hpos.ne', htotal]
    ring
  · rw [le_div_iff₀ hpos]
    linarith
  · rw [div_le_iff₀ hpos]
    linarith

end Tally

namespace Ordinal

namespace Sample

variable {sample : Sample} {code : ℤ}

/-- A sample accepts a code if counting it is not refused. -/
def Accepts (sample : Sample) (code : ℤ) : Prop := (sample.push? code).isSome

/-- Exactly the codes with a count are accepted. -/
theorem accepts_iff :
    sample.Accepts code ↔ ∃ count, Keyed.find? code sample.counts = some count := by
  unfold Accepts push?
  cases Keyed.find? code sample.counts <;> simp

/-- An accepted code is counted once more. -/
theorem Accepts.scored_push (h : sample.Accepts code) :
    (sample.push code).scored = sample.scored + 1 := by
  obtain ⟨count, hfound⟩ := accepts_iff.mp h
  simp [push, push?, hfound]

/-- A sample goes on accepting the codes that it accepted. -/
theorem Accepts.push (h : sample.Accepts code) (other : ℤ) : (sample.push other).Accepts code := by
  obtain ⟨count, hcode⟩ := accepts_iff.mp h
  rw [accepts_iff]
  cases hfound : Keyed.find? other sample.counts with
  | none => exact ⟨count, by simpa [Sample.push, push?, hfound] using hcode⟩
  | some _ =>
    have hcounts : (sample.push other).counts = Keyed.bump other sample.counts := by
      simp [Sample.push, push?, hfound]
    rw [hcounts, Keyed.bump]
    rcases eq_or_ne code other with rfl | hne
    · exact ⟨_, Keyed.find?_alter_self code _ sample.counts⟩
    · exact ⟨count, (Keyed.find?_alter_of_ne hne _ _).trans hcode⟩

/-- Over a closed scale a sample accepts every code that the scale gives. -/
theorem accepts_empty {rule : Option PassRule} {scale : List ScaleEntry} {raw : RawValue}
    (hcode : ((Coder.ranked scale).code raw).1 = some code) :
    (empty rule (.ranked scale)).Accepts code := by
  have hkey : code ∈ (Coder.ranked scale).labels.map (·.1) :=
    Coder.mem_keys_labels_ranked.mpr (Coder.mem_of_rankOf? hcode)
  obtain ⟨label, hlabel⟩ := Coder.labels_ranked_ascending.exists_find?_iff.mpr hkey
  refine accepts_iff.mpr ⟨0, ?_⟩
  rw [empty, Keyed.find?_map_values (fun _ => 0), hlabel, Option.map_some]

end Sample

namespace Histogram

variable (histogram : Histogram) (difference : ℤ)

/-- The number of differences in a histogram. -/
def count : ℕ := (histogram.map fun entry => entry.2.count).sum

/-- The number of positive differences in a histogram. -/
def positive : ℕ := (histogram.map fun entry => entry.2.positive).sum

/-- A recorded difference counts once. -/
theorem count_record : (histogram.record difference).count = histogram.count + 1 :=
  Keyed.sum_alter (fun _ (bucket : Bucket) => bucket.count) rfl (fun _ => rfl) histogram

/-- A recorded difference counts as positive if it is. -/
theorem positive_record : (histogram.record difference).positive =
    histogram.positive + if 0 < difference then 1 else 0 := by
  refine Keyed.sum_alter (fun _ (bucket : Bucket) => bucket.positive) ?_ ?_ histogram
  · rfl
  · intro bucket
    dsimp only [Option.getD_some]
    split_ifs <;> rfl

/-- A histogram holds the differences of the pairs of a tally that are not ties. -/
structure Agrees (histogram : Histogram) (tally : Tally) : Prop where
  /-- No bucket is one of ties. -/
  nonzero : ∀ entry ∈ histogram, entry.1 ≠ 0
  /-- No bucket is empty. -/
  counted : ∀ entry ∈ histogram, 0 < entry.2.count
  /-- The positive differences of a bucket are some of its differences. -/
  sound : histogram.Sound
  /-- The differences are those of wins and losses. -/
  decided : histogram.count = tally.wins + tally.losses
  /-- The positive differences are those of wins. -/
  won : histogram.positive = tally.wins

/-- The empty histogram agrees with the empty tally. -/
theorem agrees_empty : Agrees [] .empty := by
  constructor <;> simp [Sound, count, positive, Tally.empty]

variable {histogram} {tally : Tally}

/-- A tie leaves the histogram as it is. -/
theorem Agrees.record_eq (h : histogram.Agrees tally) : histogram.Agrees (tally.record .eq) :=
  { h with }

/-- A pair that is not a tie adds its difference to the histogram. -/
theorem Agrees.record_ne (h : histogram.Agrees tally) {a b : ℤ} (hne : b ≠ a) :
    (histogram.record (b - a)).Agrees (tally.record (compare b a)) where
  nonzero := by
    have hmagnitude : (b - a).natAbs ≠ 0 := by omega
    exact forall_magnitude_record (· ≠ 0) h.nonzero hmagnitude
  counted := Keyed.forall_mem_alter (fun _ (bucket : Bucket) => 0 < bucket.count) h.counted
    (Nat.succ_pos _) fun _ _ => Nat.succ_pos _
  sound := h.sound.record _
  decided := by rw [count_record, h.decided, (tally.record_compare hne).2]
  won := by rw [positive_record, h.won, (tally.record_compare hne).1]

end Histogram

/-- The ranked differences are those of the histogram. -/
theorem RankSums.count_ofHistogram {α : Type} [Arithmetic α] (histogram : Histogram) :
    (ofHistogram histogram : RankSums α).count = histogram.count := by
  induction histogram using List.reverseRecOn with
  | nil => rfl
  | append_singleton histogram entry ih =>
    rw [ofHistogram_concat, push, ih]
    simp [Histogram.count]

/-- A magnitude is the distance of two codes that a coder gives. -/
def IsDistance (coder : Coder) (magnitude : ℕ) : Prop :=
  ∃ rawA a rawB b, (coder.code rawA).1 = some a ∧ (coder.code rawB).1 = some b ∧
    magnitude = (b - a).natAbs

namespace PairedSample

/-- The counts of a sample describe the same rows. -/
structure Balances (sample : PairedSample) (pushed : ℕ) : Prop where
  /-- The first side counts the rows of the tally. -/
  scoredA : sample.sideA.scored = sample.tally.total
  /-- The second side counts the rows of the tally. -/
  scoredB : sample.sideB.scored = sample.tally.total
  /-- Every row is in the tally or excluded. -/
  taken : sample.tally.total + sample.excluded = pushed
  /-- Neither side refuses a code that the coder gives. -/
  accepts : ∀ raw code, (sample.coder.code raw).1 = some code →
    sample.sideA.Accepts code ∧ sample.sideB.Accepts code
  histogram : sample.histogram.Agrees sample.tally
  /-- The magnitude of a bucket is the distance of two codes. -/
  distances : ∀ entry ∈ sample.histogram, IsDistance sample.coder entry.1

/-- The empty sample of an ordinal score balances. -/
theorem balances_empty {definition : Definition} (hordinal : definition.scoringType = .ordinal) :
    (empty definition).Balances 0 where
  scoredA := rfl
  scoredB := rfl
  taken := rfl
  accepts raw code hcode := by
    simp only [empty, ofDefinition_eq_ranked hordinal] at hcode ⊢
    exact ⟨Sample.accepts_empty hcode, Sample.accepts_empty hcode⟩
  histogram := Histogram.agrees_empty
  distances := by simp [empty]

/-- A row is excluded, or both of its values have a code. -/
theorem pushRow_cases (sample : PairedSample) (row : PairedRow) :
    sample.pushRow row = { sample with excluded := sample.excluded + 1 } ∨
    ∃ a b, (sample.coder.code row.rawA).1 = some a ∧ (sample.coder.code row.rawB).1 = some b ∧
      sample.pushRow row = { sample with
        sideA := sample.sideA.push a
        sideB := sample.sideB.push b
        tally := sample.tally.record (compare b a)
        histogram := if b = a then sample.histogram else sample.histogram.record (b - a) } := by
  cases hA : (sample.coder.code row.rawA).1 with
  | none => exact .inl (by simp [pushRow, hA])
  | some a =>
    cases hB : (sample.coder.code row.rawB).1 with
    | none => exact .inl (by simp [pushRow, hA, hB])
    | some b => exact .inr ⟨a, b, rfl, rfl, by simp [pushRow, hA, hB]⟩

/-- One more row keeps a sample balanced. -/
theorem Balances.pushRow {sample : PairedSample} {pushed : ℕ} (h : sample.Balances pushed)
    (row : PairedRow) : (sample.pushRow row).Balances (pushed + 1) := by
  obtain hpush | ⟨a, b, hA, hB, hpush⟩ := sample.pushRow_cases row
  · rw [hpush]
    exact { h with taken := congrArg (· + 1) h.taken }
  · obtain ⟨hacceptsA, -⟩ := h.accepts row.rawA a hA
    obtain ⟨-, hacceptsB⟩ := h.accepts row.rawB b hB
    rw [hpush]
    exact {
      scoredA := by rw [hacceptsA.scored_push, Tally.total_record, h.scoredA]
      scoredB := by rw [hacceptsB.scored_push, Tally.total_record, h.scoredB]
      taken := by
        rw [Tally.total_record, ← h.taken]
        exact Nat.add_right_comm _ _ _
      accepts := fun raw code hcode =>
        ⟨(h.accepts raw code hcode).1.push a, (h.accepts raw code hcode).2.push b⟩
      histogram := by
        split_ifs with heq
        · rw [heq, compare_eq_iff_eq.mpr rfl]
          exact h.histogram.record_eq
        · exact h.histogram.record_ne heq
      distances := by
        split_ifs with heq
        · exact h.distances
        · have hnew : IsDistance sample.coder (b - a).natAbs :=
            ⟨row.rawA, a, row.rawB, b, hA, hB, rfl⟩
          exact Histogram.forall_magnitude_record (IsDistance sample.coder) h.distances hnew }

/-- The sample of any rows of an ordinal score balances. -/
theorem balances_ofRows {definition : Definition} (hordinal : definition.scoringType = .ordinal)
    (rows : List PairedRow) : (ofRows definition rows).Balances rows.length := by
  induction rows using List.reverseRecOn with
  | nil => exact balances_empty hordinal
  | append_singleton rows row ih =>
    rw [ofRows_concat, List.length_append]
    exact ih.pushRow row

/-- After any rows of an ordinal score, the counts of the sample are consistent: every row is won,
lost, tied or excluded, and the signed-rank test ranks the wins and the losses. As soon as a row is
paired there are effect sizes, which in exact arithmetic are those of the counts. -/
theorem outcomes_partition_rows {K : Type} [ExactArithmetic K] [TailTable K]
    {definition : Definition} (hordinal : definition.scoringType = .ordinal) (settings : Settings)
    (rows : List PairedRow) :
    let sample := ofRows definition rows
    let comparison : Comparison K := sample.comparison settings
    let tally := comparison.outcomes.tally
    sample.Balances rows.length ∧
    comparison.paired = tally.wins + tally.losses + tally.ties ∧
    comparison.paired + comparison.excluded = rows.length ∧
    comparison.signedRank.nonzero = tally.wins + tally.losses ∧
    (0 < comparison.paired → ∃ delta superiority : K,
      comparison.cliffsDelta = some delta ∧ comparison.superiority = some superiority ∧
      delta = (tally.wins - tally.losses) / comparison.paired ∧ delta = 2 * superiority - 1 ∧
      -1 ≤ delta ∧ delta ≤ 1) := by
  intro sample comparison tally
  have hbalances : sample.Balances rows.length := balances_ofRows hordinal rows
  have hpaired : comparison.paired = sample.tally.total := hbalances.scoredA
  refine ⟨hbalances, hpaired, ?_, ?_, fun hsome => ?_⟩
  · rw [hpaired]
    exact hbalances.taken
  · exact (RankSums.count_ofHistogram sample.histogram).trans hbalances.histogram.decided
  · rw [hpaired] at hsome ⊢
    exact Tally.cliffsDelta?_eq hsome

/-- On a scale from the least to the greatest rank two rows are won, one is lost, one is tied and
one is excluded. -/
theorem outcomes_partition_rows_extreme_ranks :
    let definition := Definition.ordinal "extreme"
      [⟨"low", -0x8000000000000000⟩, ⟨"middle", 0⟩, ⟨"high", 0x7FFFFFFFFFFFFFFF⟩] .empty
    let rows : List PairedRow := [⟨1, .label "low", .label "high"⟩,
      ⟨2, .label "low", .label "high"⟩, ⟨3, .label "high", .label "middle"⟩,
      ⟨4, .label "middle", .label "middle"⟩, ⟨5, .label "low", .label "unheard of"⟩]
    let _ : TailTable ℚ := ⟨some, fun statistic _ => some statistic, fun t _ => some t⟩
    let sample := ofRows definition rows
    let comparison : Comparison ℚ := sample.comparison .standard
    definition.scoringType = .ordinal ∧ definition.validate = .ok () ∧ sample.Balances 5 ∧
    sample.histogram = [(0x7FFFFFFFFFFFFFFF, ⟨1, 0⟩), (0xFFFFFFFFFFFFFFFF, ⟨2, 2⟩)] ∧
    comparison.outcomes.tally = ⟨2, 1, 1⟩ ∧ comparison.paired = 4 ∧ comparison.excluded = 1 ∧
    comparison.signedRank.nonzero = 3 ∧
    ∃ delta superiority : ℚ,
      comparison.cliffsDelta = some delta ∧ comparison.superiority = some superiority ∧
      delta = (2 - 1) / 4 ∧ delta = 2 * superiority - 1 ∧ -1 ≤ delta ∧ delta ≤ 1 := by
  intro definition rows tails sample comparison
  have hordinal : definition.scoringType = .ordinal := rfl
  have htally : comparison.outcomes.tally = ⟨2, 1, 1⟩ := by decide +kernel
  obtain ⟨hbalances, hpaired, htaken, hnonzero, heffects⟩ :=
    outcomes_partition_rows (K := ℚ) hordinal .standard rows
  rw [htally] at hpaired hnonzero heffects
  have hfour : comparison.paired = 4 := hpaired
  have hexcluded : comparison.excluded = 1 := by
    have hrows : comparison.paired + comparison.excluded = 5 := htaken
    omega
  rw [hfour] at heffects
  exact ⟨hordinal, rfl, hbalances, by decide +kernel, htally, hfour, hexcluded, hnonzero,
    by simpa only [Nat.cast_ofNat, Nat.cast_one] using heffects (by decide)⟩

end PairedSample

end Ordinal

end Scorebook
