import Scorebook.Proofs.Nominal.CodedPairs

/-!
# Nominal samples as tallies of columns

A nominal sample counts codes. Read through the coder at the end of the pass, the counts are those
of the labels in the column. This holds for the sample of a single column and for both sides of a
paired sample, whose coder also knows the labels of the other column.
-/

namespace Scorebook.Nominal

/-- The number of times a label occurs in a column, if it does at all. -/
def occurrences? (column : List String) (label : String) : Option ℕ :=
  if label ∈ column then some (column.count label) else none

/-- A sample counts a column of labels under the codes of a positional coder. -/
structure Tallies (labels : List String) (sample : Sample) (column : List String) : Prop where
  /-- The coder has no label twice. -/
  nodup : labels.Nodup
  /-- The coder knows every label of the column. -/
  known : ∀ label ∈ column, label ∈ labels
  /-- The counts are in the order of the codes. -/
  ascending : Keyed.Ascending sample.counts
  /-- Every label of the column has been counted. -/
  scored : sample.scored = column.length
  /-- The count of a code is the number of times its label occurs. -/
  find? : ∀ code, Keyed.find? code sample.counts =
    ((Coder.positional labels).labelOf? code).bind (occurrences? column)

/-- The sample of the codes of a column counts the column. -/
theorem tallies_ofCodes {labels column : List String} (hnodup : labels.Nodup)
    (hknown : ∀ label ∈ column, label ∈ labels) :
    Tallies labels (.ofCodes (column.map (Coder.codeIn labels))) column where
  nodup := hnodup
  known := hknown
  ascending := Keyed.ascending_tally _
  scored := List.length_map _
  find? code := by
    rw [Sample.ofCodes, Keyed.find?_tally]
    cases hcode : (Coder.positional labels).labelOf? code with
    | none =>
      have habsent : code ∉ column.map (Coder.codeIn labels) := by
        intro hmem
        obtain ⟨label, hlabel, rfl⟩ := List.mem_map.mp hmem
        rw [Coder.labelOf?_codeIn (hknown label hlabel)] at hcode
        cases hcode
      rw [if_neg habsent, Option.bind_none]
    | some label =>
      obtain rfl := Coder.codeIn_eq hnodup hcode
      have hlabel : label ∈ labels := Coder.exists_labelOf?_iff.mp ⟨_, hcode⟩
      have hinjective : Set.InjOn (Coder.codeIn labels) {label | label ∈ labels} :=
        Coder.codeIn_injOn
      have hmem : Coder.codeIn labels label ∈ column.map (Coder.codeIn labels) ↔
          label ∈ column := by
        refine ⟨fun h => ?_, List.mem_map_of_mem⟩
        obtain ⟨other, hother, heq⟩ := List.mem_map.mp h
        rwa [← hinjective (hknown other hother) hlabel heq]
      simp only [hmem, Option.bind_some, occurrences?,
        count_map_of_injOn hinjective hknown hlabel]

/-- A paired sample counts one column on each side, both under the codes of its own coder. -/
structure PairedTallies (labels : List String) (sample : PairedSample)
    (columnA columnB : List String) : Prop where
  /-- Both sides share the coder. -/
  coder : sample.coder = .positional labels
  sideA : Tallies labels sample.sideA columnA
  sideB : Tallies labels sample.sideB columnB

/-- A sample that holds pairs of categories counts both of their columns. -/
theorem PairedSample.Holds.pairedTallies {labels : List String} {sample : PairedSample}
    {pairs : List (String × String)} (h : Holds labels sample pairs) :
    PairedTallies labels sample (pairs.map (·.1)) (pairs.map (·.2)) := by
  have hfirst : (codesIn labels pairs).map (·.1) = (pairs.map (·.1)).map (Coder.codeIn labels) := by
    simp [codesIn]
  have hsecond : (codesIn labels pairs).map (·.2) =
      (pairs.map (·.2)).map (Coder.codeIn labels) := by
    simp [codesIn]
  refine ⟨by rw [h.eq_ofCodes]; rfl, ?_, ?_⟩
  · rw [h.eq_ofCodes, ofCodes, hfirst]
    exact tallies_ofCodes h.nodup fun _ hlabel => h.mem_labels (List.mem_append_left _ hlabel)
  · rw [h.eq_ofCodes, ofCodes, hsecond]
    exact tallies_ofCodes h.nodup fun _ hlabel => h.mem_labels (List.mem_append_right _ hlabel)

end Scorebook.Nominal
