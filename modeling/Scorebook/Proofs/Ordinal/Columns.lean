import Mathlib.Data.Int.Notation
import Mathlib.Data.List.Induction
import Scorebook.Ordinal.Comparison
import Scorebook.Proofs.Columns
import Scorebook.Proofs.Scale

/-!
# Ordinal samples in closed form

An ordinal sample is determined by the codes that were accepted and the number of rows that were
not. Every code that a scale gives is one of its declared ranks, so a sample over that scale
never refuses it.
-/

namespace Scorebook.Ordinal

/-- The sample that a list of declared codes leaves, with some rows excluded. -/
def Sample.ofCodes (rule : Option PassRule) (coder : Coder) (codes : List ℤ) (excluded : ℕ) :
    Sample where
  counts := coder.labels.map fun entry => (entry.1, codes.count entry.1)
  scored := codes.length
  passed := codes.countP (PassCriteria.ofRule rule coder).passes
  excluded
  criteria := .ofRule rule coder

variable {rule : Option PassRule} {coder : Coder} {codes : List ℤ} {excluded : ℕ} {code : ℤ}

/-- The empty sample is the one of no codes. -/
theorem Sample.empty_eq_ofCodes : empty rule coder = ofCodes rule coder [] 0 := by
  simp [empty, ofCodes]

/-- The counts of a sample have the known codes as keys. -/
theorem Sample.keys_counts_ofCodes :
    (ofCodes rule coder codes excluded).counts.map (·.1) = coder.labels.map (·.1) := by
  simp [ofCodes]

/-- The counts of a sample are in the order of the codes. -/
theorem Sample.counts_ofCodes_ascending (hlabels : Keyed.Ascending coder.labels) :
    Keyed.Ascending (ofCodes rule coder codes excluded).counts :=
  List.pairwise_map.mpr hlabels

/-- A known code is accepted and counted. -/
theorem Sample.push?_ofCodes (hlabels : Keyed.Ascending coder.labels)
    (hcode : code ∈ coder.labels.map (·.1)) :
    (ofCodes rule coder codes excluded).push? code =
      some (ofCodes rule coder (codes ++ [code]) excluded) := by
  have hascending : Keyed.Ascending (ofCodes rule coder codes excluded).counts :=
    counts_ofCodes_ascending hlabels
  have hkey : code ∈ (ofCodes rule coder codes excluded).counts.map (·.1) := by
    rwa [keys_counts_ofCodes]
  obtain ⟨count, hfound⟩ := hascending.exists_find?_iff.mpr hkey
  have hcounts := hascending.alter_eq_map hkey fun count => count.getD 0 + 1
  simp only [push?, hfound, Keyed.bump, hcounts, Option.some.injEq]
  simp only [ofCodes, List.map_map, List.length_append, List.length_singleton,
    List.countP_append, List.countP_singleton, Sample.mk.injEq, and_true, true_and]
  refine ⟨List.map_congr_left fun entry _ => ?_, ?_⟩
  · by_cases heq : entry.1 = code
    · simp [heq]
    · simp [heq, Ne.symm heq]
  · by_cases hpasses : (PassCriteria.ofRule rule coder).passes code = true
    · simp [hpasses]
    · simp [hpasses]

/-- The paired sample that some rows leave. -/
def PairedSample.ofRows (definition : Definition) (rows : List PairedRow) : PairedSample :=
  rows.foldl pushRow (empty definition)

/-- One more row is taken in last. -/
theorem PairedSample.ofRows_concat (definition : Definition) (rows : List PairedRow)
    (row : PairedRow) :
    ofRows definition (rows ++ [row]) = (ofRows definition rows).pushRow row := by
  simp [ofRows]

/-- The code that a coder gives a raw value. -/
def readCode? (coder : Coder) (raw : RawValue) : Option ℤ := (coder.code raw).1

section Ranked

variable {scale : List ScaleEntry}

/-- A code that a scale gives is accepted and counted. -/
theorem Sample.push?_ofCodes_ranked {raw : RawValue}
    (hcode : ((Coder.ranked scale).code raw).1 = some code) :
    (ofCodes rule (.ranked scale) codes excluded).push? code =
      some (ofCodes rule (.ranked scale) (codes ++ [code]) excluded) :=
  push?_ofCodes Coder.labels_ranked_ascending
    (Coder.mem_keys_labels_ranked.mpr (Coder.mem_of_rankOf? hcode))

/-- Taking in a column one value at a time leaves the sample of its codes. -/
theorem Sample.foldl_pushRaw (column : List RawValue) :
    column.foldl (fun sample raw => (sample.pushRaw (.ranked scale) raw).2)
        (empty rule (.ranked scale)) =
      ofCodes rule (.ranked scale) (column.filterMap (readCode? (.ranked scale)))
        (column.countP fun raw => (readCode? (.ranked scale) raw).isNone) := by
  induction column using List.reverseRecOn with
  | nil => exact empty_eq_ofCodes
  | append_singleton column raw ih =>
    rw [List.foldl_append, ih, List.foldl_cons, List.foldl_nil]
    cases hcode : ((Coder.ranked scale).code raw).1 with
    | none => simp [pushRaw, exclude, hcode, readCode?, ofCodes]
    | some code => simp [pushRaw, hcode, readCode?, push?_ofCodes_ranked hcode]

/-- The paired sample that the pairs of codes of some rows leave. -/
def PairedSample.ofPairs (rule : Option PassRule) (coder : Coder) (pairs : List (ℤ × ℤ))
    (excluded : ℕ) : PairedSample where
  coder
  sideA := .ofCodes rule coder (pairs.map (·.1)) 0
  sideB := .ofCodes rule coder (pairs.map (·.2)) 0
  tally := pairs.foldl (fun tally pair => tally.record (compare pair.2 pair.1)) .empty
  histogram := pairs.foldl
    (fun histogram pair =>
      if pair.2 = pair.1 then histogram else histogram.record (pair.2 - pair.1)) []
  excluded

/-- The paired sample of some rows is that of their pairs of codes. -/
theorem PairedSample.ofRows_eq_ofPairs {definition : Definition}
    (hcoder : Coder.ofDefinition definition = .ranked scale) (rows : List PairedRow) :
    ofRows definition rows =
      ofPairs definition.passRule (.ranked scale)
        (PairedRow.readPairs (readCode? (.ranked scale)) rows)
        (PairedRow.unreadable (readCode? (.ranked scale)) rows) := by
  induction rows using List.reverseRecOn with
  | nil =>
    simp [ofRows, empty, hcoder, ofPairs, PairedRow.readPairs, PairedRow.unreadable,
      Sample.empty_eq_ofCodes]
  | append_singleton rows row ih =>
    rw [ofRows_concat, ih]
    unfold PairedRow.readPairs PairedRow.unreadable
    cases hA : ((Coder.ranked scale).code row.rawA).1 with
    | none => simp [pushRow, ofPairs, PairedRow.read?, readCode?, hA]
    | some a =>
      cases hB : ((Coder.ranked scale).code row.rawB).1 with
      | none => simp [pushRow, ofPairs, PairedRow.read?, readCode?, hA, hB]
      | some b =>
        simp [pushRow, ofPairs, PairedRow.read?, readCode?, hA, hB, Sample.push,
          Sample.push?_ofCodes_ranked hA, Sample.push?_ofCodes_ranked hB]

end Ranked

end Scorebook.Ordinal
