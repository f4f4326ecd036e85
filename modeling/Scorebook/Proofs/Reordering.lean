import Scorebook.Proofs.Nominal.Categories
import Scorebook.Proofs.Numeric.ExactMoments
import Scorebook.Proofs.Numeric.Sorting

/-!
# Rows in another order

A summary says little about the order in which its rows arrived. An ordinal summary says nothing of
it. A numeric one shows it in the rounding of its moments only, and a nominal one in the codes of
the labels that are not declared. Without rounding the moments show nothing either.
-/

namespace Scorebook

variable {α : Type}

namespace Numeric

/-- Two summaries are the same but for their moments. -/
structure Summary.SameOrderStatistics (a b : Summary α) : Prop where
  scored : a.scored = b.scored
  excluded : a.excluded = b.excluded
  least : a.least = b.least
  greatest : a.greatest = b.greatest
  p10 : a.p10 = b.p10
  p25 : a.p25 = b.p25
  p50 : a.p50 = b.p50
  p75 : a.p75 = b.p75
  p90 : a.p90 = b.p90

variable {column other : List RawValue}

/-- A column in another order has the same number of values, excludes as many rows, and its values
are sorted to the same list. -/
theorem Sample.ofColumn_perm [Arithmetic α] [LinearSorting α] (hperm : column.Perm other) :
    (ofColumn column : Sample α).scored = (ofColumn other : Sample α).scored ∧
    (ofColumn column : Sample α).excluded = (ofColumn other : Sample α).excluded ∧
    sortValues (ofColumn column : Sample α).values.reverse =
      sortValues (ofColumn other : Sample α).values.reverse := by
  have hvalues := hperm.filterMap (readNumber? (α := α))
  refine ⟨?_, hperm.countP_eq _, ?_⟩
  · simp only [scored, ofColumn, Moments.count_ofList, hvalues.length_eq]
  · simp only [ofColumn, List.reverse_reverse]
    exact sortValues_eq_of_perm hvalues

/-- A column in another order has the same order statistics. -/
theorem Sample.summary_sameOrderStatistics [Arithmetic α] [LinearSorting α] (settings : Settings)
    (hperm : column.Perm other) :
    ((ofColumn column : Sample α).summary settings).SameOrderStatistics
      ((ofColumn other : Sample α).summary settings) := by
  obtain ⟨hscored, hexcluded, hsorted⟩ := Sample.ofColumn_perm (α := α) hperm
  constructor <;> simp only [summary, hexcluded, hsorted]
  exact hscored

/-- In exact arithmetic a column in another order has the same summary. -/
theorem Sample.summary_eq_of_perm {K : Type} [ExactArithmetic K] (settings : Settings)
    (hperm : column.Perm other) : (ofColumn column : Sample K).summary settings =
      (ofColumn other : Sample K).summary settings := by
  obtain ⟨-, hexcluded, hsorted⟩ := Sample.ofColumn_perm (α := K) hperm
  have hmoments : (ofColumn column : Sample K).moments = (ofColumn other : Sample K).moments :=
    Moments.ofList_eq_of_perm (hperm.filterMap _)
  simp only [summary, hmoments, hexcluded, hsorted]

end Numeric

namespace Ordinal

/-- Codes in another order leave the same sample. -/
theorem Sample.ofCodes_eq_of_perm {rule : Option PassRule} {coder : Coder} {codes others : List ℤ}
    (hperm : codes.Perm others) (excluded : ℕ) :
    ofCodes rule coder codes excluded = ofCodes rule coder others excluded := by
  simp only [ofCodes, hperm.count_eq, hperm.length_eq, hperm.countP_eq]

end Ordinal

namespace Nominal

/-- Two summaries are the same but for the codes of labels that are not declared, and for what
depends on these codes. -/
structure Summary.SameByLabel (declared : List String) (a b : Summary α) : Prop where
  scored : a.scored = b.scored
  distinct : a.distinct = b.distinct
  counts : (a.byLabel a.counts).Perm (b.byLabel b.counts)
  proportions : (a.byLabel a.proportions).Perm (b.byLabel b.proportions)
  /-- Every code that is counted has a label. -/
  labelled : ∀ label? ∈ (a.byLabel a.counts).map (·.1), label?.isSome
  /-- No label has two codes. -/
  nodup : ((a.byLabel a.counts).map (·.1)).Nodup
  labelOf?_iff : ∀ label ∈ declared, ∀ code,
    a.labelOf? code = some label ↔ b.labelOf? code = some label

/-- Summaries of a column in two orders are the same by label. -/
theorem Summary.Describes.sameByLabel [Arithmetic α] {declared column other : List String}
    {a b : Summary α} (ha : a.Describes declared column) (hb : b.Describes declared other)
    (hperm : column.Perm other) : a.SameByLabel declared b := by
  have hkeys : ((a.byLabel a.counts).map (·.1)).Perm (column.dedup.map some) := by
    have hmap := ha.counts.map (·.1)
    rwa [List.map_map] at hmap
  constructor
  case scored => rw [ha.scored, hb.scored, hperm.length_eq]
  case distinct => rw [ha.distinct, hb.distinct, hperm.dedup.length_eq]
  case counts =>
    refine ha.counts.trans (List.Perm.trans ?_ hb.counts.symm)
    simp only [hperm.count_eq]
    exact hperm.dedup.map _
  case proportions =>
    refine ha.proportions.trans (List.Perm.trans ?_ hb.proportions.symm)
    simp only [hperm.count_eq, hperm.length_eq]
    exact hperm.dedup.map _
  case labelled =>
    intro label? hmem
    obtain ⟨label, -, rfl⟩ := List.mem_map.mp (hkeys.mem_iff.mp hmem)
    rfl
  case nodup =>
    exact hkeys.nodup_iff.mpr ((List.nodup_dedup column).map (Option.some_injective _))
  case labelOf?_iff =>
    intro label hlabel code
    rw [ha.labelOf?_iff label hlabel, hb.labelOf?_iff label hlabel, hperm.mem_iff]

end Nominal

/-- Two summaries for a definition differ in nothing but what the order of the rows decides. -/
inductive Summary.SameFor (definition : Definition) : Summary α → Summary α → Prop where
  | numeric {a b : Numeric.Summary α} (hnumeric : definition.scoringType.isCategorical = false)
      (hsame : a.SameOrderStatistics b) : SameFor definition (.numeric a) (.numeric b)
  | nominal {a b : Nominal.Summary α} (hnominal : definition.scoringType = .nominal)
      (hsame : a.SameByLabel (definition.entries.map (·.label)) b) :
      SameFor definition (.nominal a) (.nominal b)
  | ordinal {a : Ordinal.Summary α} (hordinal : definition.scoringType = .ordinal) :
      SameFor definition (.ordinal a) (.ordinal a)

section Rows

variable {definition : Definition} {rows other : List ScoredRow}

/-- An ordinal population in another order has the same summary. -/
theorem Ordinal.summarize_eq_of_perm [Arithmetic α] (hordinal : definition.scoringType = .ordinal)
    (settings : Settings) (hperm : rows.Perm other) :
    summarize (α := α) definition settings false (rows.map .row) =
      summarize definition settings false (other.map .row) := by
  have hcolumn := hperm.map (·.raw)
  rw [Ordinal.summarize_rows hordinal, Ordinal.summarize_rows hordinal, hcolumn.countP_eq,
    Ordinal.Sample.ofCodes_eq_of_perm (hcolumn.filterMap _)]

/-- In exact arithmetic a population in another order has the same summary, unless it is nominal. -/
theorem summarize_eq_of_perm {K : Type} [ExactArithmetic K]
    (hcategories : definition.scoringType ≠ .nominal) (settings : Settings)
    (hperm : rows.Perm other) : summarize (α := K) definition settings false (rows.map .row) =
      summarize definition settings false (other.map .row) := by
  by_cases hnumeric : definition.scoringType.isCategorical = false
  · rw [Numeric.summarize_rows hnumeric, Numeric.summarize_rows hnumeric,
      Numeric.Sample.summary_eq_of_perm settings (hperm.map _)]
  · have hordinal : definition.scoringType = .ordinal := by
      cases htype : definition.scoringType <;> simp_all [ScoringType.isCategorical]
    exact Ordinal.summarize_eq_of_perm hordinal settings hperm

/-- Both orders of a population are summarized, and the summaries are the same but for what the
order decides. -/
theorem summarize_sameFor [Arithmetic α] [LinearSorting α] (definition : Definition)
    (settings : Settings) (hperm : rows.Perm other) : ∃ a b : Summary α,
      summarize definition settings false (rows.map .row) = (.ok a, false) ∧
      summarize definition settings false (other.map .row) = (.ok b, false) ∧
      a.SameFor definition b := by
  by_cases hnumeric : definition.scoringType.isCategorical = false
  · have hrows := Numeric.summarize_rows (α := α) hnumeric settings rows
    have hother := Numeric.summarize_rows (α := α) hnumeric settings other
    have hsame := Numeric.Sample.summary_sameOrderStatistics (α := α) settings
      (hperm.map (·.raw))
    exact ⟨_, _, hrows, hother, .numeric hnumeric hsame⟩
  cases htype : definition.scoringType with
  | numeric | ragas => simp [htype, ScoringType.isCategorical] at hnumeric
  | nominal =>
    obtain ⟨a, ha, hdescribes⟩ := Nominal.summarize_describes (α := α) htype settings rows
    obtain ⟨b, hb, hdescribes'⟩ := Nominal.summarize_describes (α := α) htype settings other
    have hsame := hdescribes.sameByLabel hdescribes' (hperm.map _)
    exact ⟨_, _, ha, hb, .nominal htype hsame⟩
  | ordinal =>
    have heq := Ordinal.summarize_eq_of_perm (α := α) htype settings hperm
    have hrows := Ordinal.summarize_rows (α := α) htype settings rows
    exact ⟨_, _, hrows, heq.symm.trans hrows, .ordinal htype⟩

/-- The summary of a population depends on the order of its rows in the rounding of the moments and
in the codes of labels that are not declared, and in nothing else. Without rounding it depends on
the order in these codes alone. -/
theorem summarize_rows_perm (definition : Definition) (settings : Settings)
    (hperm : rows.Perm other) :
    (∃ a b : Summary Float,
      summarize definition settings false (rows.map .row) = (.ok a, false) ∧
      summarize definition settings false (other.map .row) = (.ok b, false) ∧
      a.SameFor definition b) ∧
    ∀ (K : Type) [ExactArithmetic K], ∃ a b : Summary K,
      summarize definition settings false (rows.map .row) = (.ok a, false) ∧
      summarize definition settings false (other.map .row) = (.ok b, false) ∧
      a.SameFor definition b ∧ (definition.scoringType ≠ .nominal → a = b) := by
  refine ⟨summarize_sameFor definition settings hperm, fun K _ => ?_⟩
  obtain ⟨a, b, ha, hb, hsame⟩ := summarize_sameFor (α := K) definition settings hperm
  refine ⟨a, b, ha, hb, hsame, fun hcategories => ?_⟩
  have heq := summarize_eq_of_perm (K := K) hcategories settings hperm
  rw [ha, hb] at heq
  exact Except.ok.inj (congrArg Prod.fst heq)

/-- Two new labels that change places change codes. -/
theorem summarize_rows_perm_swapped_labels :
    let definition : Definition := .nominal "topic" none
    let rows : List ScoredRow := [⟨1, .label "x"⟩, ⟨2, .label "y"⟩]
    rows.Perm rows.reverse ∧ ∃ a b : Nominal.Summary Float,
      summarize definition .standard false (rows.map .row) = (.ok (.nominal a), false) ∧
      summarize definition .standard false (rows.reverse.map .row) = (.ok (.nominal b), false) ∧
      a.labels = [(1, "x"), (2, "y")] ∧ b.labels = [(1, "y"), (2, "x")] ∧
      (a.byLabel a.counts).Perm (b.byLabel b.counts) := by
  intro definition rows
  have hperm : rows.Perm rows.reverse := rows.reverse_perm.symm
  obtain ⟨⟨a, b, ha, hb, hsame⟩, -⟩ := summarize_rows_perm definition .standard hperm
  cases hsame with
  | numeric hnumeric => cases hnumeric
  | ordinal hordinal => cases hordinal
  | nominal hnominal hsame =>
    refine ⟨hperm, _, _, ha, hb, ?_, ?_, hsame.counts⟩
    · cases ha
      rfl
    · cases hb
      rfl

end Rows

end Scorebook
