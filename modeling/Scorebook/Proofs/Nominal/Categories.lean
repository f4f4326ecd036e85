import Scorebook.Proofs.Nominal.Shares

/-!
# Nominal summaries by label

The codes of labels that are not declared depend on the order of the rows. With the labels in place
of the codes, a summary is a list with one entry for each category that occurs. The codes of the
declared labels are their places among the declared ones, in whatever order the rows arrive.
-/

namespace Scorebook

namespace Nominal

variable {α : Type}

namespace Summary

/-- The label under which a summary reports a code. -/
def labelOf? (summary : Summary α) (code : ℤ) : Option String := Keyed.find? code summary.labels

/-- A table of a summary with labels in place of codes. -/
def byLabel {ν : Type} (summary : Summary α) (table : List (ℤ × ν)) : List (Option String × ν) :=
  table.map fun (code, value) => (summary.labelOf? code, value)

/-- A summary is that of a column of categories, up to the codes of those that are not declared. -/
structure Describes [Arithmetic α] (summary : Summary α) (declared column : List String) :
    Prop where
  scored : summary.scored = column.length
  distinct : summary.distinct = column.dedup.length
  counts : (summary.byLabel summary.counts).Perm
    (column.dedup.map fun label => (some label, column.count label))
  proportions : (summary.byLabel summary.proportions).Perm (column.dedup.map fun label =>
    (some label, Arithmetic.proportion (column.count label) column.length))
  /-- The code of a declared label is its place among the declared ones. -/
  labelOf?_iff : ∀ label ∈ declared, ∀ code, summary.labelOf? code = some label ↔
    label ∈ column ∧ code = Coder.codeIn declared.eraseDups label

end Summary

section Column

variable [Arithmetic α] {labels column : List String}

/-- The codes of a column are counted as often as its labels occur. -/
theorem counts_summaryOf_perm (hknown : ∀ label ∈ column, label ∈ labels) :
    (summaryOf labels column : Summary α).counts.Perm
      (column.dedup.map fun label => (Coder.codeIn labels label, column.count label)) :=
  Keyed.tally_map_perm (Coder.codeIn_injOn.mono hknown)

/-- Counted by label, the codes of a column are its categories. -/
theorem byLabel_summaryOf {ν : Type} (hnodup : labels.Nodup)
    (hknown : ∀ label ∈ column, label ∈ labels) (value : String → ν) :
    (summaryOf labels column : Summary α).byLabel
        (column.dedup.map fun label => (Coder.codeIn labels label, value label)) =
      column.dedup.map fun label => (some label, value label) := by
  rw [Summary.byLabel, List.map_map]
  refine List.map_congr_left fun label hlabel => ?_
  have hlabel := List.mem_dedup.mp hlabel
  have hfound : (summaryOf labels column : Summary α).labelOf? (Coder.codeIn labels label) =
      some label :=
    (tallies_ofCodes hnodup hknown).find?_labels_iff.mpr
      ⟨hlabel, Coder.labelOf?_codeIn (hknown label hlabel)⟩
  exact congrArg (·, value label) hfound

/-- The summary of the codes of a column describes the column. -/
theorem describes_summaryOf {declared : List String} (hnodup : labels.Nodup)
    (hknown : ∀ label ∈ column, label ∈ labels) (hdeclared : declared.eraseDups <+: labels) :
    (summaryOf labels column : Summary α).Describes declared column := by
  have hcounts := counts_summaryOf_perm (α := α) hknown
  constructor
  case scored => exact List.length_map _
  case distinct => exact hcounts.length_eq.trans (List.length_map _)
  case counts =>
    exact (hcounts.map _).trans (.of_eq (byLabel_summaryOf hnodup hknown _))
  case proportions =>
    have hproportions : (summaryOf labels column : Summary α).proportions.Perm
        (column.dedup.map fun label => (Coder.codeIn labels label,
          Arithmetic.proportion (column.count label) column.length)) := by
      refine (hcounts.map _).trans ?_
      rw [List.map_map, Sample.ofCodes, List.length_map]
      rfl
    exact (hproportions.map _).trans (.of_eq (byLabel_summaryOf hnodup hknown _))
  case labelOf?_iff =>
    intro label hlabel code
    have hmem : label ∈ declared.eraseDups := List.mem_eraseDups.mpr hlabel
    have hcode := Coder.labelOf?_codeIn (hdeclared.subset hmem)
    rw [Coder.codeIn_of_isPrefix hdeclared hmem] at hcode
    refine (tallies_ofCodes hnodup hknown).find?_labels_iff.trans (and_congr_right fun _ => ?_)
    constructor
    · exact fun hother => Coder.labelOf?_injective hnodup hother hcode
    · rintro rfl
      exact hcode

/-- The summary of a nominal population describes the categories of its rows. -/
theorem summarize_describes {definition : Definition} (hnominal : definition.scoringType = .nominal)
    (settings : Settings) (rows : List ScoredRow) :
    ∃ summary : Summary α,
      summarize definition settings false (rows.map .row) = (.ok (.nominal summary), false) ∧
      summary.Describes (definition.entries.map (·.label)) (rows.map (·.raw.category)) := by
  obtain ⟨labels, hsummary, hdeclared, hnodup, hknown⟩ :=
    summarize_column (α := α) hnominal settings rows
  exact ⟨_, hsummary, describes_summaryOf hnodup hknown hdeclared⟩

end Column

end Nominal

end Scorebook
