import Scorebook.Arithmetic.Double
import Scorebook.Proofs.Results
import Scorebook.Tail.Double

/-!
# The sides of a comparison

A comparison leaves out the rows that cannot be read on both sides. On the rows that are left,
each of its sides is a population, and what the comparison reports of the side is what the
summary of that population reports. The numbers agree exactly and not only up to rounding,
because both are computed from the same values in the same order.
-/

namespace Scorebook

variable {α : Type}

namespace Numeric

/-- A numeric comparison reports the mean and the deviation that the summaries of its sides
report. -/
structure Comparison.AgreesWith (comparison : Comparison α) (a b : Summary α) : Prop where
  meanA : comparison.meanA = a.mean
  meanB : comparison.meanB = b.mean
  deviationA : comparison.deviationA = a.deviation
  deviationB : comparison.deviationB = b.deviation

variable [Arithmetic α] [TailTable α]

/-- A comparison of pairs of numbers pairs all of them. -/
theorem PairedSample.paired_comparison {settings : Settings} (pairs : List (α × α))
    (excluded : ℕ) : ((ofPairs pairs excluded).comparison settings).paired = pairs.length := by
  rw [← List.length_map fun pair : α × α => pair.2 - pair.1]
  exact Moments.count_ofList _

/-- A comparison of pairs of numbers agrees with the summaries of two columns that hold the first
and the second numbers of the pairs. -/
theorem PairedSample.comparison_agreesWith {settings : Settings} {pairs : List (α × α)}
    {excluded : ℕ} {columnA columnB : List RawValue}
    (hA : columnA.filterMap readNumber? = pairs.map (·.1))
    (hB : columnB.filterMap readNumber? = pairs.map (·.2)) :
    ((ofPairs pairs excluded).comparison settings).AgreesWith
      ((Sample.ofColumn columnA).summary settings)
      ((Sample.ofColumn columnB).summary settings) where
  meanA := by simp [comparison, ofPairs, Sample.summary, Sample.ofColumn, hA]
  meanB := by simp [comparison, ofPairs, Sample.summary, Sample.ofColumn, hB]
  deviationA := by
    simp [comparison, ofPairs, Sample.summary, Sample.ofColumn, hA, Moments.deviation?]
  deviationB := by
    simp [comparison, ofPairs, Sample.summary, Sample.ofColumn, hB, Moments.deviation?]

end Numeric

namespace Ordinal

/-- An ordinal comparison reports the pass rates that the summaries of its sides report. It has
one entry for each declared label, under the declared rank and with the cumulative shares that
the summaries report for that rank. -/
structure Comparison.AgreesWith (comparison : Comparison α) (entries : List ScaleEntry)
    (a b : Summary α) : Prop where
  rateA : comparison.passRates.rateA = a.passRate.proportion
  rateB : comparison.passRates.rateB = b.passRate.proportion
  labels : (comparison.cdf.map fun entry => (entry.1, entry.2.code)).Perm
    (entries.map fun entry => (entry.label, entry.rank))
  sharesA : ∀ entry ∈ comparison.cdf, Keyed.find? entry.2.code a.cdf = some entry.2.cdfA
  sharesB : ∀ entry ∈ comparison.cdf, Keyed.find? entry.2.code b.cdf = some entry.2.cdfB

variable [Arithmetic α]

/-- Running totals have the keys of the counts. -/
theorem keys_cumulative (total : ℕ) (counts : List (ℤ × ℕ)) :
    (cumulative total counts).map (·.1) = counts.map (·.1) := by
  induction counts generalizing total with
  | nil => rfl
  | cons entry rest ih =>
    obtain ⟨code, count⟩ := entry
    simp [cumulative, ih]

section Ranked

variable {rule : Option PassRule} {scale : List ScaleEntry} {codes : List ℤ} {excluded : ℕ}
  {percents : List ℕ}

/-- The cumulative shares of a sample have the codes of its scale as keys. -/
theorem Sample.keys_cdf :
    ((ofCodes rule (.ranked scale) codes excluded).summary (.ranked scale) percents :
      Summary α).cdf.map (·.1) = (Coder.ranked scale).labels.map (·.1) := by
  simp only [summary, List.map_map]
  rw [← keys_counts_ofCodes, ← keys_cumulative 0]
  rfl

/-- Every code of the scale has a cumulative share, so the lookup of it never falls back on its
default. -/
theorem Sample.find?_cdf {code : ℤ} (hcode : code ∈ (Coder.ranked scale).labels.map (·.1))
    (default : α) :
    let summary : Summary α :=
      (ofCodes rule (.ranked scale) codes excluded).summary (.ranked scale) percents
    Keyed.find? code summary.cdf = some ((Keyed.find? code summary.cdf).getD default) := by
  intro summary
  have hascending : Keyed.Ascending summary.cdf :=
    Coder.labels_ranked_ascending.of_keys_eq keys_cdf
  have hkey : code ∈ summary.cdf.map (·.1) := by rwa [keys_cdf]
  obtain ⟨share, hshare⟩ := hascending.exists_find?_iff.mpr hkey
  rw [hshare, Option.getD_some]

end Ranked

/-- The table of cumulative shares by label has one entry for each known code, if no two codes
have the same label. -/
theorem PairedSample.pairCdf_perm {a b : Summary α} (hlabels : (a.labels.map (·.2)).Nodup) :
    (pairCdf a b).Perm (a.labels.map fun entry =>
      (entry.2, ⟨entry.1, (Keyed.find? entry.1 a.cdf).getD (Arithmetic.ofNat 0),
        (Keyed.find? entry.1 b.cdf).getD (Arithmetic.ofNat 0)⟩)) := by
  refine Keyed.ofList_perm ?_
  simpa [List.map_map, Function.comp_def] using hlabels

variable [TailTable α]

/-- A comparison of pairs of codes agrees with the summaries of the first and of the second codes,
whatever rows those exclude. -/
theorem PairedSample.comparison_agreesWith {settings : Settings} {rule : Option PassRule}
    {entries : List ScaleEntry} (hlabels : (entries.map (·.label)).Nodup)
    (hranks : (entries.map (·.rank)).Nodup) {pairs : List (ℤ × ℤ)} (excluded : ℕ)
    (excludedA excludedB : ℕ) :
    let coder := Coder.ranked entries
    let side (codes : List ℤ) (excluded : ℕ) : Summary α :=
      (Sample.ofCodes rule coder codes excluded).summary coder settings.percentiles
    ((ofPairs rule coder pairs excluded).comparison settings : Comparison α).AgreesWith entries
      (side (pairs.map (·.1)) excludedA) (side (pairs.map (·.2)) excludedB) := by
  intro coder side
  have hperm := Coder.labels_ranked_perm hranks
  have hnodup := Coder.nodup_labels_ranked hlabels hranks
  have hcdf := pairCdf_perm (a := side (pairs.map (·.1)) 0) (b := side (pairs.map (·.2)) 0) hnodup
  refine ⟨rfl, rfl, ?_, ?_, ?_⟩
  · refine (hcdf.map _).trans ?_
    have hswapped := hperm.map fun entry => (entry.2, entry.1)
    simpa [side, Sample.summary, List.map_map, Function.comp_def] using hswapped
  · intro entry hentry
    obtain ⟨known, hknown, rfl⟩ := List.mem_map.mp (hcdf.mem_iff.mp hentry)
    exact Sample.find?_cdf (List.mem_map_of_mem hknown) _
  · intro entry hentry
    obtain ⟨known, hknown, rfl⟩ := List.mem_map.mp (hcdf.mem_iff.mp hentry)
    exact Sample.find?_cdf (List.mem_map_of_mem hknown) _

end Ordinal

/-- Whether a raw value can be read for a score: as a number, or as a category with a code. -/
def Definition.reads (definition : Definition) (raw : RawValue) : Bool :=
  match definition.scoringType with
  | .numeric | .ragas => raw.number?.isSome
  | .nominal | .ordinal => ((Coder.ofDefinition definition).code raw).1.isSome

/-- The rows that a comparison on the score keeps. -/
def Definition.keptRows (definition : Definition) (rows : List PairedRow) : List PairedRow :=
  rows.filter fun row => definition.reads row.rawA && definition.reads row.rawB

/-- A comparison of numbers keeps the rows with a number on both sides. -/
theorem Definition.keptRows_numeric [Arithmetic α] {definition : Definition}
    (hnumeric : definition.scoringType.isCategorical = false) (rows : List PairedRow) :
    definition.keptRows rows = PairedRow.readable (Numeric.readNumber? (α := α)) rows := by
  cases htype : definition.scoringType <;>
    simp_all [keptRows, reads, PairedRow.readable, Numeric.readNumber?, ScoringType.isCategorical]

/-- An ordinal comparison keeps the rows with a rank of the scale on both sides. -/
theorem Definition.keptRows_ordinal {definition : Definition}
    (hordinal : definition.scoringType = .ordinal) (rows : List PairedRow) :
    definition.keptRows rows =
      PairedRow.readable (Ordinal.readCode? (.ranked definition.entries)) rows := by
  simp [keptRows, reads, PairedRow.readable, hordinal, Ordinal.readCode?,
    Ordinal.ofDefinition_eq_ranked hordinal]

/-- The number of shared rows that were left out. A nominal comparison leaves out none. -/
def Comparison.excluded (comparison : Comparison α) : ℕ :=
  match comparison.body with
  | .numeric body => body.excluded
  | .nominal _ => 0
  | .ordinal body => body.excluded

/-- A comparison and the summaries of two populations are of one kind, numeric or ordinal, and
the comparison reports of its sides what the summaries report. -/
def ComparisonBody.AgreesWith (entries : List ScaleEntry) :
    ComparisonBody α → Summary α → Summary α → Prop
  | .numeric comparison, .numeric a, .numeric b => comparison.AgreesWith a b
  | .ordinal comparison, .ordinal a, .ordinal b => comparison.AgreesWith entries a b
  | _, _, _ => False

variable [Arithmetic α] [TailTable α]

/-- A comparison on a usable definition that is not nominal succeeds. It pairs the rows that can
be read on both sides and counts all others as excluded, and its sides are those of the summaries
of the two columns of the paired rows. -/
theorem compareExperiments_agreesWith_summaries {definition : Definition}
    (hvalid : definition.validate = .ok ()) (htype : definition.scoringType ≠ .nominal)
    (settings : Settings) (experimentA experimentB : String) (rows : List PairedRow) :
    let kept := definition.keptRows rows
    ∃ (comparison : Comparison α) (a b : Summary α),
      compareExperiments definition experimentA experimentB settings false (rows.map .row) =
        (.ok comparison, false) ∧
      summarize definition settings false ((kept.map PairedRow.sideA).map .row) = (.ok a, false) ∧
      summarize definition settings false ((kept.map PairedRow.sideB).map .row) = (.ok b, false) ∧
      comparison.paired = kept.length ∧
      comparison.excluded = rows.length - kept.length ∧
      comparison.body.AgreesWith definition.entries a b := by
  intro kept
  by_cases hordinal : definition.scoringType = .ordinal
  · let read := Ordinal.readCode? (.ranked definition.entries)
    obtain ⟨hlabels, hranks⟩ := Definition.nodup_of_validate_ordinal hvalid hordinal
    have hkept : kept = PairedRow.readable read rows := Definition.keptRows_ordinal hordinal rows
    refine ⟨_, _, _, compareExperiments_eq_ok (Ordinal.compareRows_rows hordinal settings rows) _ _,
      Ordinal.summarize_rows hordinal settings _, Ordinal.summarize_rows hordinal settings _, ?_⟩
    rw [PairedRow.map_raw_sideA, PairedRow.map_raw_sideB, hkept,
      PairedRow.filterMap_rawA_readable, PairedRow.filterMap_rawB_readable]
    refine ⟨?_, PairedRow.unreadable_eq read rows, ?_⟩
    · exact (List.length_map _).trans (PairedRow.length_readPairs read rows)
    · exact Ordinal.PairedSample.comparison_agreesWith hlabels hranks _ _ _
  · let read := Numeric.readNumber? (α := α)
    have hnumeric : definition.scoringType.isCategorical = false := by
      cases h : definition.scoringType <;> simp_all [ScoringType.isCategorical]
    have hkept : kept = PairedRow.readable read rows := Definition.keptRows_numeric hnumeric rows
    refine ⟨_, _, _, compareExperiments_eq_ok (Numeric.compareRows_rows hnumeric settings rows) _ _,
      Numeric.summarize_rows hnumeric settings _, Numeric.summarize_rows hnumeric settings _, ?_⟩
    rw [PairedRow.map_raw_sideA, PairedRow.map_raw_sideB, hkept]
    refine ⟨?_, PairedRow.unreadable_eq read rows, ?_⟩
    · exact (Numeric.PairedSample.paired_comparison _ _).trans
        (PairedRow.length_readPairs read rows)
    · exact Numeric.PairedSample.comparison_agreesWith
        (PairedRow.filterMap_rawA_readable read rows) (PairedRow.filterMap_rawB_readable read rows)

/-- Ranks at both ends of their range and a row whose second value is not on the scale. -/
theorem compareExperiments_agreesWith_summaries_extreme_ranks :
    let definition := Definition.ordinal "quality"
      [⟨"low", -0x8000000000000000⟩, ⟨"high", 0x7FFFFFFFFFFFFFFF⟩] ⟨some ["high"], none⟩
    let rows : List PairedRow := [⟨1, .label "low", .label "high"⟩, ⟨2, .label "low", .label "top"⟩]
    let kept := definition.keptRows rows
    definition.validate = .ok () ∧ definition.scoringType ≠ .nominal ∧
    ∃ (comparison : Comparison Float) (a b : Summary Float),
      compareExperiments definition "first" "second" .standard false (rows.map .row) =
        (.ok comparison, false) ∧
      summarize definition .standard false ((kept.map PairedRow.sideA).map .row) = (.ok a, false) ∧
      summarize definition .standard false ((kept.map PairedRow.sideB).map .row) = (.ok b, false) ∧
      comparison.paired = kept.length ∧
      comparison.excluded = rows.length - kept.length ∧
      comparison.body.AgreesWith definition.entries a b := by
  intro definition rows kept
  have hvalid : definition.validate = .ok () := rfl
  have htype : definition.scoringType ≠ .nominal := by decide
  exact ⟨hvalid, htype,
    compareExperiments_agreesWith_summaries hvalid htype .standard "first" "second" rows⟩

end Scorebook
