import Scorebook.Comparison
import Scorebook.Proofs.Nominal.Tallies
import Scorebook.Proofs.Numeric.Columns
import Scorebook.Proofs.Ordinal.Columns

/-!
# Summaries and comparisons of rows alone

On a stream that only brings rows, a summary and a comparison always succeed. What they report is
the report of a sample in closed form, or for a nominal score that of a sample which tallies the
categories of the rows.
-/

namespace Scorebook

variable {α : Type} [Arithmetic α] {definition : Definition}

/-- A comparison of experiments succeeds if that of their rows does. -/
theorem compareExperiments_eq_ok [TailTable α] {settings : Settings} {cancelled : Cancelled}
    {events : List (Event PairedRow)} {body : ComparisonBody α}
    (hbody : compareRows definition settings cancelled events = (.ok body, false))
    (experimentA experimentB : String) :
    compareExperiments definition experimentA experimentB settings cancelled events =
      (.ok ⟨experimentA, experimentB, definition.scoreId, definition.scoringType, body⟩,
        false) := by
  simp [compareExperiments, hbody, finish, Except.map]

namespace Numeric

/-- The summary of a numeric column. -/
theorem summarize_rows (hnumeric : definition.scoringType.isCategorical = false)
    (settings : Settings) (rows : List ScoredRow) :
    summarize definition settings false (rows.map .row) =
      (.ok (.numeric ((Sample.ofColumn (rows.map (·.raw)) : Sample α).summary settings)),
        false) := by
  have hsample : rows.foldl (fun sample row => sample.pushRaw row.raw) (Sample.empty (α := α)) =
      .ofColumn (rows.map (·.raw)) := by
    rw [← Sample.foldl_pushRaw, List.foldl_map]
  cases htype : definition.scoringType <;>
    simp_all [summarize, pass_rows, finish, Except.map, ScoringType.isCategorical]

/-- The comparison of two numeric columns. -/
theorem compareRows_rows [TailTable α] (hnumeric : definition.scoringType.isCategorical = false)
    (settings : Settings) (rows : List PairedRow) :
    compareRows definition settings false (rows.map .row) =
      (.ok (.numeric ((PairedSample.ofPairs (PairedRow.readPairs readNumber? rows)
        (PairedRow.unreadable (readNumber? (α := α)) rows) : PairedSample α).comparison settings)),
          false) := by
  cases htype : definition.scoringType <;>
    simp_all [compareRows, pass_rows, finish, Except.map, ScoringType.isCategorical,
      PairedSample.foldl_pushRow]

end Numeric

namespace Ordinal

/-- An ordinal score is coded on its scale. -/
theorem ofDefinition_eq_ranked (hordinal : definition.scoringType = .ordinal) :
    Coder.ofDefinition definition = .ranked definition.entries := by
  simp [Coder.ofDefinition, hordinal, Coder.ordinal]

/-- The summary of an ordinal column. -/
theorem summarize_rows (hordinal : definition.scoringType = .ordinal) (settings : Settings)
    (rows : List ScoredRow) :
    let coder := Coder.ranked definition.entries
    let column := rows.map (·.raw)
    summarize definition settings false (rows.map .row) =
      (.ok (.ordinal ((Sample.ofCodes definition.passRule coder (column.filterMap (readCode? coder))
        (column.countP fun raw => (readCode? coder raw).isNone)).summary coder
          settings.percentiles : Summary α)), false) := by
  intro coder column
  have hsample : rows.foldl (fun sample row => (sample.pushRaw coder row.raw).2)
      (Sample.empty definition.passRule coder) =
      .ofCodes definition.passRule coder (column.filterMap (readCode? coder))
        (column.countP fun raw => (readCode? coder raw).isNone) := by
    rw [← Sample.foldl_pushRaw, List.foldl_map]
  simp [summarize, hordinal, ofDefinition_eq_ranked hordinal, pass_rows, finish, Except.map,
    ← hsample, coder]

/-- The comparison of two ordinal columns is that of the sample of the rows. -/
theorem compareRows_ofRows [TailTable α] (hordinal : definition.scoringType = .ordinal)
    (settings : Settings) (rows : List PairedRow) :
    compareRows definition settings false (rows.map .row) =
      (.ok (.ordinal ((PairedSample.ofRows definition rows).comparison settings : Comparison α)),
        false) := by
  simp [compareRows, hordinal, pass_rows, finish, Except.map, PairedSample.ofRows]

/-- The comparison of two ordinal columns is that of their pairs of codes. -/
theorem compareRows_rows [TailTable α] (hordinal : definition.scoringType = .ordinal)
    (settings : Settings) (rows : List PairedRow) :
    let coder := Coder.ranked definition.entries
    compareRows definition settings false (rows.map .row) =
      (.ok (.ordinal ((PairedSample.ofPairs definition.passRule coder
        (PairedRow.readPairs (readCode? coder) rows)
        (PairedRow.unreadable (readCode? coder) rows)).comparison settings : Comparison α)),
          false) := by
  intro coder
  rw [compareRows_ofRows hordinal,
    PairedSample.ofRows_eq_ofPairs (ofDefinition_eq_ranked hordinal)]

end Ordinal

namespace Nominal

/-- The summary of the codes of a column. -/
def summaryOf (labels column : List String) : Summary α :=
  (Sample.ofCodes (column.map (Coder.codeIn labels))).summary (.positional labels)

/-- The summary of a nominal column is that of the codes of its categories, under a coder whose
first labels are the declared ones. -/
theorem summarize_column (hnominal : definition.scoringType = .nominal) (settings : Settings)
    (rows : List ScoredRow) :
    ∃ labels,
      summarize definition settings false (rows.map .row) =
        (.ok (.nominal (summaryOf labels (rows.map (·.raw.category)) : Summary α)), false) ∧
      (definition.entries.map (·.label)).eraseDups <+: labels ∧ labels.Nodup ∧
      ∀ label ∈ rows.map (·.raw.category), label ∈ labels := by
  obtain ⟨hcoder, hdeclared⟩ := Coder.nominal_eq_positional definition.entries
  obtain ⟨labels, hfold, hgrown, hnodup, hknown⟩ := foldl_pushCoded hdeclared rows
  refine ⟨labels, ?_, hgrown, hnodup, hknown⟩
  simp [summarize, hnominal, Coder.ofDefinition, hcoder, pass_rows, hfold, finish, Except.map,
    summaryOf]

/-- The summary of a nominal column is that of a tally of its categories. -/
theorem summarize_rows (hnominal : definition.scoringType = .nominal) (settings : Settings)
    (rows : List ScoredRow) :
    ∃ labels sample,
      summarize definition settings false (rows.map .row) =
        (.ok (.nominal (sample.summary (.positional labels) : Summary α)), false) ∧
      Tallies labels sample (rows.map (·.raw.category)) := by
  obtain ⟨labels, hsummary, -, hnodup, hknown⟩ :=
    summarize_column (α := α) hnominal settings rows
  exact ⟨labels, _, hsummary, tallies_ofCodes hnodup hknown⟩

/-- The comparison of two nominal columns is that of the sample of the rows. -/
theorem compareRows_ofRows [TailTable α] (hnominal : definition.scoringType = .nominal)
    (settings : Settings) (rows : List PairedRow) :
    compareRows definition settings false (rows.map .row) =
      (.ok (.nominal ((PairedSample.ofRows definition rows).comparison settings : Comparison α)),
        false) := by
  simp [compareRows, hnominal, pass_rows, finish, Except.map, PairedSample.ofRows]

/-- The comparison of two nominal columns is that of a tally of the categories of both. -/
theorem compareRows_rows [TailTable α] (hnominal : definition.scoringType = .nominal)
    (settings : Settings) (rows : List PairedRow) :
    ∃ labels sample,
      compareRows definition settings false (rows.map .row) =
        (.ok (.nominal (sample.comparison settings : Comparison α)), false) ∧
      PairedTallies labels sample (rows.map (·.rawA.category)) (rows.map (·.rawB.category)) := by
  obtain ⟨labels, hholds⟩ := PairedSample.holds_ofRows hnominal rows
  have htallies := hholds.pairedTallies
  rw [List.map_map, List.map_map] at htallies
  exact ⟨labels, _, compareRows_ofRows hnominal settings rows, htallies⟩

end Nominal

end Scorebook
