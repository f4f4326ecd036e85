import Scorebook.Proofs.Ordinal.Columns
import Scorebook.Proofs.Ordinal.RankSums

/-!
# The differences in a histogram

The signed-rank test never sees the differences of the rows. It sees a histogram of them, which
holds for each magnitude how many differences there are and how many of these are positive. That is
enough to tell what the differences were, up to their order: recording a difference adds it to those
that the histogram stands for, and the histogram of a sample stands for the differences in its rows.
-/

namespace Scorebook

namespace Ordinal

/-- The differences of one magnitude: the positive ones, and then the negative ones. -/
def Bucket.differences (bucket : Bucket) (magnitude : ℕ) : List ℤ :=
  List.replicate bucket.positive (magnitude : ℤ) ++
    List.replicate (bucket.count - bucket.positive) (-magnitude : ℤ)

namespace Bucket

variable {bucket : Bucket} {magnitude : ℕ}

/-- All differences of a bucket have its magnitude. -/
theorem natAbs_of_mem_differences {difference : ℤ}
    (h : difference ∈ bucket.differences magnitude) : difference.natAbs = magnitude := by
  rcases List.mem_append.mp h with h | h
  · rw [List.eq_of_mem_replicate h]
    exact Int.natAbs_natCast magnitude
  · rw [List.eq_of_mem_replicate h, Int.natAbs_neg]
    exact Int.natAbs_natCast magnitude

/-- A bucket holds as many differences as it counts. -/
theorem length_differences (h : bucket.positive ≤ bucket.count) :
    (bucket.differences magnitude).length = bucket.count := by
  simp only [differences, List.length_append, List.length_replicate]
  omega

/-- The positive differences of a bucket are those that it counts as positive. -/
theorem countP_pos_differences (hmagnitude : magnitude ≠ 0) :
    (bucket.differences magnitude).countP (0 < ·) = bucket.positive := by
  have hpos : (0 : ℤ) < magnitude := by omega
  rw [differences, List.countP_append, List.countP_replicate, List.countP_replicate,
    if_pos (decide_eq_true hpos), if_neg (by simp), Nat.add_zero]

/-- The negative differences of a bucket are the others. -/
theorem countP_neg_differences (hmagnitude : magnitude ≠ 0) :
    (bucket.differences magnitude).countP (· < 0) = bucket.count - bucket.positive := by
  have hneg : (-magnitude : ℤ) < 0 := by omega
  rw [differences, List.countP_append, List.countP_replicate, List.countP_replicate,
    if_neg (by simp), if_pos (decide_eq_true hneg), Nat.zero_add]

/-- Counting a difference of its magnitude adds the difference to a bucket. -/
theorem differences_succ_perm (bucket : Bucket) (h : bucket.positive ≤ bucket.count)
    (difference : ℤ) :
    (Bucket.differences ⟨bucket.count + 1,
        if 0 < difference then bucket.positive + 1 else bucket.positive⟩ difference.natAbs).Perm
      (difference :: bucket.differences difference.natAbs) := by
  by_cases hpos : 0 < difference
  · have hvalue : (difference.natAbs : ℤ) = difference := by omega
    have hcount : bucket.count + 1 - (bucket.positive + 1) = bucket.count - bucket.positive := by
      omega
    simp only [differences, if_pos hpos, hvalue, hcount, List.replicate_succ, List.cons_append]
    exact .refl _
  · have hvalue : (-difference.natAbs : ℤ) = difference := by omega
    have hcount : bucket.count + 1 - bucket.positive = bucket.count - bucket.positive + 1 := by
      omega
    simp only [differences, if_neg hpos, hvalue, hcount, List.replicate_succ]
    exact List.perm_middle

end Bucket

namespace Histogram

/-- The differences that a histogram stands for, one magnitude after another. -/
def differences (histogram : Histogram) : List ℤ :=
  histogram.flatMap fun entry => entry.2.differences entry.1

/-- A histogram counts the differences of a list, in any order. -/
structure Counts (histogram : Histogram) (differences : List ℤ) : Prop where
  /-- The magnitudes are in ascending order. -/
  ascending : Keyed.Ascending histogram
  sound : histogram.Sound
  /-- No difference is zero. -/
  nonzero : ∀ entry ∈ histogram, entry.1 ≠ 0
  perm : histogram.differences.Perm differences

/-- The empty histogram counts nothing. -/
theorem counts_nil : Counts [] [] := ⟨.nil, by simp [Sound], by simp, .refl _⟩

variable {histogram : Histogram}

/-- Recording a difference keeps a histogram sound. -/
theorem Sound.record (h : histogram.Sound) (difference : ℤ) :
    (histogram.record difference).Sound := by
  have hstep : ∀ bucket : Bucket, bucket.positive ≤ bucket.count →
      (if 0 < difference then bucket.positive + 1 else bucket.positive) ≤ bucket.count + 1 := by
    intro bucket hbucket
    split_ifs <;> omega
  refine Keyed.forall_mem_alter (fun _ (bucket : Bucket) => bucket.positive ≤ bucket.count) h ?_ ?_
  · exact hstep ⟨0, 0⟩ le_rfl
  · exact fun bucket hbucket => hstep bucket (h _ hbucket)

/-- What holds of all magnitudes of a histogram holds after a difference is recorded, if it holds of
the magnitude of the difference. -/
theorem forall_magnitude_record (P : ℕ → Prop) (h : ∀ entry ∈ histogram, P entry.1)
    {difference : ℤ} (hnew : P difference.natAbs) :
    ∀ entry ∈ histogram.record difference, P entry.1 :=
  Keyed.forall_mem_alter (fun magnitude _ => P magnitude) h hnew fun _ _ => hnew

/-- Recording a difference adds it to those that the histogram stands for. -/
theorem differences_record_perm (h : histogram.Sound) (difference : ℤ) :
    (histogram.record difference).differences.Perm (difference :: histogram.differences) := by
  refine Keyed.flatMap_alter_perm
    (fun magnitude (bucket : Bucket) => bucket.differences magnitude) ?_ ?_
  · exact Bucket.differences_succ_perm ⟨0, 0⟩ le_rfl difference
  · exact fun bucket hbucket => bucket.differences_succ_perm (h _ hbucket) difference

/-- A histogram that counts some differences counts one more when it is recorded. -/
theorem Counts.record {differences : List ℤ} (h : histogram.Counts differences) {difference : ℤ}
    (hne : difference ≠ 0) :
    (histogram.record difference).Counts (differences ++ [difference]) where
  ascending := h.ascending.alter _ _
  sound := h.sound.record difference
  nonzero := forall_magnitude_record (· ≠ 0) h.nonzero (Int.natAbs_ne_zero.mpr hne)
  perm := by
    have hrecorded := differences_record_perm h.sound difference
    exact hrecorded.trans ((h.perm.cons difference).trans (List.perm_append_singleton _ _).symm)

end Histogram

/-- The differences of the codes in the rows that have a code on both sides, without the zeros. -/
def differencesOf (coder : Coder) (rows : List PairedRow) : List ℤ :=
  ((PairedRow.readPairs (readCode? coder) rows).map fun pair => pair.2 - pair.1).filter (· ≠ 0)

namespace PairedSample

/-- A row does not change the coder of the sample. -/
theorem coder_pushRow (sample : PairedSample) (row : PairedRow) :
    (sample.pushRow row).coder = sample.coder := by
  unfold pushRow
  split <;> rfl

/-- All rows are coded by the coder of the definition. -/
theorem coder_ofRows (definition : Definition) (rows : List PairedRow) :
    (ofRows definition rows).coder = Coder.ofDefinition definition := by
  induction rows using List.reverseRecOn with
  | nil => rfl
  | append_singleton rows row ih => rw [ofRows_concat, coder_pushRow, ih]

/-- A row adds its difference to those that the histogram counts, unless it is zero or a value has
no code. -/
theorem counts_pushRow {sample : PairedSample} {rows : List PairedRow}
    (h : sample.histogram.Counts (differencesOf sample.coder rows)) (row : PairedRow) :
    (sample.pushRow row).histogram.Counts (differencesOf sample.coder (rows ++ [row])) := by
  unfold pushRow differencesOf PairedRow.readPairs
  unfold differencesOf PairedRow.readPairs at h
  cases hA : (sample.coder.code row.rawA).1 with
  | none => simpa [PairedRow.read?, readCode?, hA] using h
  | some a =>
    cases hB : (sample.coder.code row.rawB).1 with
    | none => simpa [PairedRow.read?, readCode?, hA, hB] using h
    | some b =>
      by_cases heq : b = a
      · simpa [PairedRow.read?, readCode?, hA, hB, heq] using h
      · have hne : b - a ≠ 0 := sub_ne_zero.mpr heq
        simpa [PairedRow.read?, readCode?, hA, hB, heq, hne] using h.record hne

/-- The histogram of a sample counts the differences in its rows. -/
theorem counts_ofRows (definition : Definition) (rows : List PairedRow) :
    (ofRows definition rows).histogram.Counts
      (differencesOf (Coder.ofDefinition definition) rows) := by
  induction rows using List.reverseRecOn with
  | nil => exact Histogram.counts_nil
  | append_singleton rows row ih =>
    rw [← coder_ofRows definition rows] at ih ⊢
    rw [ofRows_concat]
    exact counts_pushRow ih row

end PairedSample

end Ordinal

end Scorebook
