import Scorebook.Nominal.Comparison
import Scorebook.Proofs.Counts
import Scorebook.Proofs.Nominal.Codes
import Scorebook.Summary

/-!
# Nominal samples in closed form

A nominal sample is determined by the codes in its rows, and a paired one by the pairs of codes.
Since a label keeps its code when the coder grows, these are the categories of the rows, with the
codes that the coder has for them at the end.
-/

namespace Scorebook

/-- The categories of both values of a row. -/
def PairedRow.categories (row : PairedRow) : String × String :=
  (row.rawA.category, row.rawB.category)

namespace Nominal

/-- The sample that a list of codes leaves. -/
def Sample.ofCodes (codes : List ℤ) : Sample := ⟨Keyed.tally codes, codes.length⟩

/-- One more code is counted once more. -/
theorem Sample.push_ofCodes (codes : List ℤ) (code : ℤ) :
    (ofCodes codes).push code = ofCodes (codes ++ [code]) := by
  simp [push, ofCodes, Keyed.tally_concat]

/-- Counting a column one row at a time leaves the sample of the codes of its categories. The coder
grows by the categories that it did not know. -/
theorem foldl_pushCoded {labels : List String} (hnodup : labels.Nodup) (rows : List ScoredRow) :
    ∃ labels', rows.foldl pushCoded (.positional labels, .empty) =
        (.positional labels', .ofCodes ((rows.map (·.raw.category)).map (Coder.codeIn labels'))) ∧
      labels <+: labels' ∧ labels'.Nodup ∧
      ∀ label ∈ rows.map (·.raw.category), label ∈ labels' := by
  induction rows using List.reverseRecOn with
  | nil => exact ⟨labels, rfl, List.prefix_rfl, hnodup, by simp⟩
  | append_singleton rows row ih =>
    obtain ⟨known, hfold, hbefore, hnodup, hmem⟩ := ih
    obtain ⟨code, labels', hcoded, hgrown, hnodup', hcode⟩ := Coder.code_positional hnodup row.raw
    have hcodes : (rows.map (·.raw.category)).map (Coder.codeIn labels') =
        (rows.map (·.raw.category)).map (Coder.codeIn known) :=
      List.map_congr_left fun label hlabel => Coder.codeIn_of_isPrefix hgrown (hmem label hlabel)
    refine ⟨labels', ?_, hbefore.trans hgrown, hnodup', fun label hlabel => ?_⟩
    · rw [List.foldl_append, hfold, List.foldl_cons, List.foldl_nil, List.map_append,
        List.map_singleton, List.map_append, hcodes, List.map_singleton,
        Coder.codeIn_eq hnodup' hcode]
      simp [pushCoded, Sample.pushRaw, hcoded, Sample.push_ofCodes]
    · rw [List.map_append, List.map_singleton] at hlabel
      rcases List.mem_append.mp hlabel with hlabel | hlabel
      · exact hgrown.subset (hmem label hlabel)
      · obtain rfl := List.mem_singleton.mp hlabel
        exact Coder.exists_labelOf?_iff.mp ⟨code, hcode⟩

namespace PairedSample

section Codes

/-- A code of a comparison is counted on either side. -/
theorem mem_codes_iff {sample : PairedSample} {code : ℤ} : code ∈ sample.codes ↔
    code ∈ sample.sideA.counts.map (·.1) ∨ code ∈ sample.sideB.counts.map (·.1) := by
  unfold codes Keyed.ofList Keyed.put
  rw [Keyed.mem_keys_foldl_alter Prod.fst fun pair _ => pair.2]
  simp

/-- No code of a comparison is listed twice. -/
theorem nodup_codes (sample : PairedSample) : sample.codes.Nodup :=
  (Keyed.ascending_ofList _).nodup_keys

variable {α : Type} [Arithmetic α] [TailTable α] {sample : PairedSample} {settings : Settings}

/-- The entries of a comparison are under its codes. -/
theorem keys_distribution :
    (sample.comparison settings : Comparison α).distribution.map (·.1) = sample.codes := by
  simp only [comparison, List.map_map, Function.comp_def, List.map_id']

/-- The entries of a comparison are in the order of their codes. -/
theorem distribution_ascending :
    Keyed.Ascending (sample.comparison settings : Comparison α).distribution :=
  Keyed.Ascending.of_keys_eq (Keyed.ascending_ofList _) keys_distribution

end Codes

/-- The sample that a list of pairs of codes leaves. -/
def ofCodes (coder : Coder) (pairs : List (ℤ × ℤ)) : PairedSample where
  coder
  sideA := .ofCodes (pairs.map (·.1))
  sideB := .ofCodes (pairs.map (·.2))
  table := Keyed.tally (pairs.map fun pair => ⟨pair.1, pair.2⟩)

/-- The pairs of codes that a list of labels gives to pairs of them. -/
def codesIn (labels : List String) (pairs : List (String × String)) : List (ℤ × ℤ) :=
  pairs.map (Prod.map (Coder.codeIn labels) (Coder.codeIn labels))

/-- One more pair has the codes of its two labels. -/
theorem codesIn_concat (labels : List String) (pairs : List (String × String))
    (pair : String × String) : codesIn labels (pairs ++ [pair]) =
      codesIn labels pairs ++ [(Coder.codeIn labels pair.1, Coder.codeIn labels pair.2)] := by
  simp [codesIn, Prod.map]

/-- Pairs of known labels keep their codes when more labels become known. -/
theorem codesIn_of_isPrefix {labels labels' : List String} {pairs : List (String × String)}
    (hgrown : labels <+: labels') (hknown : ∀ pair ∈ pairs, pair.1 ∈ labels ∧ pair.2 ∈ labels) :
    codesIn labels' pairs = codesIn labels pairs :=
  List.map_congr_left fun pair hpair => by
    obtain ⟨hfirst, hsecond⟩ := hknown pair hpair
    rw [Prod.map, Prod.map, Coder.codeIn_of_isPrefix hgrown hfirst,
      Coder.codeIn_of_isPrefix hgrown hsecond]

/-- The cell of a pair of labels. -/
def cellIn (labels : List String) (pair : String × String) : Cell :=
  ⟨Coder.codeIn labels pair.1, Coder.codeIn labels pair.2⟩

/-- Different pairs of known labels have different cells. -/
theorem cellIn_injOn {labels : List String} :
    Set.InjOn (cellIn labels) {pair | pair.1 ∈ labels ∧ pair.2 ∈ labels} := by
  intro pair hpair other hother heq
  obtain ⟨hfirst, hsecond⟩ := Cell.mk.inj heq
  exact Prod.ext (Coder.codeIn_injOn hpair.1 hother.1 hfirst)
    (Coder.codeIn_injOn hpair.2 hother.2 hsecond)

/-- A sample holds pairs of categories under the codes of a positional coder. -/
structure Holds (labels : List String) (sample : PairedSample) (pairs : List (String × String)) :
    Prop where
  /-- The coder has no label twice. -/
  nodup : labels.Nodup
  /-- The coder knows both categories of each pair. -/
  known : ∀ pair ∈ pairs, pair.1 ∈ labels ∧ pair.2 ∈ labels
  /-- The sample counts the codes of the pairs. -/
  eq_ofCodes : sample = ofCodes (.positional labels) (codesIn labels pairs)

/-- The table counts the cells of the pairs. -/
theorem Holds.table_eq {labels : List String} {sample : PairedSample}
    {pairs : List (String × String)} (h : Holds labels sample pairs) :
    sample.table = Keyed.tally (pairs.map (cellIn labels)) := by
  have hcells : (codesIn labels pairs).map (fun pair => Cell.mk pair.1 pair.2) =
      pairs.map (cellIn labels) := by
    rw [codesIn, List.map_map]
    rfl
  rw [h.eq_ofCodes, ofCodes, hcells]

/-- The coder knows the categories on both sides. -/
theorem Holds.mem_labels {labels : List String} {sample : PairedSample}
    {pairs : List (String × String)} (h : Holds labels sample pairs) {label : String}
    (hlabel : label ∈ pairs.map (·.1) ++ pairs.map (·.2)) : label ∈ labels := by
  rcases List.mem_append.mp hlabel with hlabel | hlabel
  · obtain ⟨pair, hpair, rfl⟩ := List.mem_map.mp hlabel
    exact (h.known pair hpair).1
  · obtain ⟨pair, hpair, rfl⟩ := List.mem_map.mp hlabel
    exact (h.known pair hpair).2

/-- A row appends the pair of its categories. What was held before has the same codes in the coder
that has grown. -/
theorem Holds.pushRow {labels : List String} {sample : PairedSample}
    {pairs : List (String × String)} (h : Holds labels sample pairs) (row : PairedRow) :
    ∃ labels', Holds labels' (sample.pushRow row) (pairs ++ [row.categories]) := by
  obtain ⟨codeA, between, hcodedA, hgrownA, hbetween, hcodeA⟩ :=
    Coder.code_positional h.nodup row.rawA
  obtain ⟨codeB, labels', hcodedB, hgrownB, hnodup, hcodeB⟩ :=
    Coder.code_positional hbetween row.rawB
  have hgrown := hgrownA.trans hgrownB
  -- The second category may make the coder grow after the first one has its code.
  have hcodeA := Coder.labelOf?_of_isPrefix hgrownB hcodeA
  refine ⟨labels', hnodup, fun pair hpair => ?_, ?_⟩
  · rcases List.mem_append.mp hpair with hpair | hpair
    · obtain ⟨hfirst, hsecond⟩ := h.known pair hpair
      exact ⟨hgrown.subset hfirst, hgrown.subset hsecond⟩
    · obtain rfl := List.mem_singleton.mp hpair
      exact ⟨Coder.exists_labelOf?_iff.mp ⟨codeA, hcodeA⟩,
        Coder.exists_labelOf?_iff.mp ⟨codeB, hcodeB⟩⟩
  · have hcodes : codesIn labels' (pairs ++ [row.categories]) =
        codesIn labels pairs ++ [(codeA, codeB)] := by
      rw [codesIn_concat, codesIn_of_isPrefix hgrown h.known, PairedRow.categories,
        Coder.codeIn_eq hnodup hcodeA, Coder.codeIn_eq hnodup hcodeB]
    simp [hcodes, h.eq_ofCodes, PairedSample.pushRow, ofCodes, hcodedA, hcodedB,
      Sample.push_ofCodes, Keyed.tally_concat]

/-- The sample that some rows leave. -/
def ofRows (definition : Definition) (rows : List PairedRow) : PairedSample :=
  rows.foldl pushRow (empty definition)

/-- One more row is taken in last. -/
theorem ofRows_concat (definition : Definition) (rows : List PairedRow) (row : PairedRow) :
    ofRows definition (rows ++ [row]) = (ofRows definition rows).pushRow row := by
  simp [ofRows]

/-- Taking in rows one at a time leaves a sample of the pairs of their categories. -/
theorem holds_ofRows_of_ne {definition : Definition} (hopen : definition.scoringType ≠ .ordinal)
    (rows : List PairedRow) :
    ∃ labels, Holds labels (ofRows definition rows) (rows.map PairedRow.categories) := by
  induction rows using List.reverseRecOn with
  | nil =>
    obtain ⟨labels, hcoder, hnodup⟩ := Coder.ofDefinition_eq_positional_of_ne hopen
    refine ⟨labels, hnodup, by simp, ?_⟩
    rw [ofRows, List.foldl_nil, empty, hcoder]
    rfl
  | append_singleton rows row ih =>
    obtain ⟨known, hholds⟩ := ih
    rw [ofRows_concat, List.map_append]
    exact hholds.pushRow row

/-- The sample of a nominal score holds the pairs of the categories of its rows. -/
theorem holds_ofRows {definition : Definition} (hnominal : definition.scoringType = .nominal)
    (rows : List PairedRow) :
    ∃ labels, Holds labels (ofRows definition rows) (rows.map PairedRow.categories) :=
  holds_ofRows_of_ne (by simp [hnominal]) rows

end PairedSample

end Nominal

end Scorebook
