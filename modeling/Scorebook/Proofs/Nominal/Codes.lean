import Mathlib.Data.Int.Notation
import Mathlib.Data.List.Basic
import Mathlib.Data.List.Induction
import Mathlib.Data.List.Nodup
import Mathlib.Data.Set.Operations
import Scorebook.Score.Coder

/-!
# Positional codes

A positional coder holds its labels without repeats, and a code is a position among them. New
labels go to the end, so a coder that has grown still has the same label under each code that was
known before.
-/

namespace Scorebook.Coder

variable {labels labels' : List String} {code : ℤ} {label : String}

/-- The codes of a positional coder are the positions, counted from one. -/
theorem labelOf?_positional_iff :
    (positional labels).labelOf? code = some label ↔
      ∃ index : ℕ, code = index + 1 ∧ labels[index]? = some label := by
  simp only [labelOf?]
  by_cases hcode : 1 ≤ code
  · rw [if_pos hcode]
    constructor
    · exact fun h => ⟨(code - 1).toNat, by omega, h⟩
    · rintro ⟨index, rfl, h⟩
      rwa [show ((index : ℤ) + 1 - 1).toNat = index by omega]
  · rw [if_neg hcode]
    constructor
    · intro h
      cases h
    · rintro ⟨index, rfl, -⟩
      omega

/-- A positional coder lists its labels under the codes from one onwards. -/
theorem labels_positional (labels : List String) :
    (positional labels).labels.map (·.1) =
        (List.range labels.length).map (fun index : ℕ => (index : ℤ) + 1) ∧
      (positional labels).labels.map (·.2) = labels := by
  constructor
  · refine List.ext_getElem? fun index => ?_
    by_cases hindex : index < labels.length <;> simp [Coder.labels, hindex]
  · simp [Coder.labels, Function.comp_def]

/-- A positional coder lists each code with its label. -/
theorem mem_labels_positional_iff {labels : List String} {code : ℤ} {label : String} :
    (code, label) ∈ (positional labels).labels ↔
      (positional labels).labelOf? code = some label := by
  rw [labelOf?_positional_iff, Coder.labels, List.mem_map]
  constructor
  · rintro ⟨⟨known, index⟩, hmem, heq⟩
    obtain ⟨hcode, rfl⟩ := Prod.mk.inj heq
    exact ⟨index, hcode.symm, List.mem_zipIdx_iff_getElem?.mp hmem⟩
  · rintro ⟨index, rfl, hindex⟩
    exact ⟨(label, index), List.mem_zipIdx_iff_getElem?.mpr hindex, rfl⟩

/-- Exactly the labels of a positional coder have a code. -/
theorem exists_labelOf?_iff : (∃ code, (positional labels).labelOf? code = some label) ↔
    label ∈ labels := by
  simp only [labelOf?_positional_iff, List.mem_iff_getElem?]
  constructor
  · rintro ⟨_, index, -, h⟩
    exact ⟨index, h⟩
  · rintro ⟨index, h⟩
    exact ⟨index + 1, index, rfl, h⟩

/-- No label has two codes. -/
theorem labelOf?_injective (hnodup : labels.Nodup) {other : ℤ}
    (hcode : (positional labels).labelOf? code = some label)
    (hother : (positional labels).labelOf? other = some label) : code = other := by
  obtain ⟨index, rfl, hindex⟩ := labelOf?_positional_iff.mp hcode
  obtain ⟨index', rfl, hindex'⟩ := labelOf?_positional_iff.mp hother
  obtain ⟨hlt, hget⟩ := List.getElem?_eq_some_iff.mp hindex
  obtain ⟨hlt', hget'⟩ := List.getElem?_eq_some_iff.mp hindex'
  have heq : index = index' := (hnodup.getElem_inj_iff).mp (hget.trans hget'.symm)
  rw [heq]

/-- A coder that has grown keeps the codes it gave. -/
theorem labelOf?_of_isPrefix (hgrown : labels <+: labels')
    (hcode : (positional labels).labelOf? code = some label) :
    (positional labels').labelOf? code = some label := by
  obtain ⟨added, rfl⟩ := hgrown
  obtain ⟨index, rfl, hindex⟩ := labelOf?_positional_iff.mp hcode
  have hlt := (List.getElem?_eq_some_iff.mp hindex).1
  exact labelOf?_positional_iff.mpr ⟨index, rfl, by rwa [List.getElem?_append_left hlt]⟩

/-- The code that a positional coder has for a label. -/
def codeIn (labels : List String) (label : String) : ℤ := labels.idxOf label + 1

/-- A known label is found under its code. -/
theorem labelOf?_codeIn (hmem : label ∈ labels) :
    (positional labels).labelOf? (codeIn labels label) = some label :=
  labelOf?_positional_iff.mpr ⟨labels.idxOf label, rfl, List.getElem?_idxOf hmem⟩

/-- The code of a label is the one under which it is found. -/
theorem codeIn_eq (hnodup : labels.Nodup)
    (hcode : (positional labels).labelOf? code = some label) : codeIn labels label = code :=
  labelOf?_injective hnodup (labelOf?_codeIn (exists_labelOf?_iff.mp ⟨code, hcode⟩)) hcode

/-- Different known labels have different codes. -/
theorem codeIn_injOn : Set.InjOn (codeIn labels) {label | label ∈ labels} := by
  intro label hlabel other hother heq
  have hfound := labelOf?_codeIn hlabel
  rw [heq, labelOf?_codeIn hother] at hfound
  exact (Option.some.inj hfound).symm

/-- A coder that has grown has the same codes for the labels it knew. -/
theorem codeIn_of_isPrefix (hgrown : labels <+: labels') (hmem : label ∈ labels) :
    codeIn labels' label = codeIn labels label := by
  rw [codeIn, codeIn, hgrown.idxOf_eq_of_mem hmem]

/-- A label is found under the code that it is assigned. -/
theorem labelOf?_assign (labels : List String) (label : String) :
    (positional (assign labels label).2).labelOf? (assign labels label).1 = some label := by
  unfold assign position?
  cases hindex : labels.idxOf? label with
  | none => exact labelOf?_positional_iff.mpr ⟨labels.length, by simp, by simp⟩
  | some index =>
    obtain ⟨hlt, hget, -⟩ := List.idxOf?_eq_some_iff.mp hindex
    exact labelOf?_positional_iff.mpr ⟨index, by simp, by simp [← hget]⟩

/-- A new label has the position behind all others. -/
theorem assign_of_notMem (hnew : label ∉ labels) :
    assign labels label = (labels.length + 1, labels ++ [label]) := by
  rw [assign, position?, List.idxOf?_eq_none_iff.mpr hnew, Option.map_none]

/-- A known label is not added again, and a new one goes to the end. -/
theorem labels_assign :
    (assign labels label).2 = if label ∈ labels then labels else labels ++ [label] := by
  split_ifs with hmem
  · have hknown : labels.idxOf? label ≠ none := by
      rwa [ne_eq, List.idxOf?_eq_none_iff, not_not]
    obtain ⟨index, hindex⟩ := Option.ne_none_iff_exists'.mp hknown
    rw [assign, position?, hindex, Option.map_some]
  · rw [assign_of_notMem hmem]

/-- A label at the end has the code behind all others, which stay as they are. -/
theorem labelOf?_concat (labels : List String) (label : String) (code : ℤ) :
    (positional (labels ++ [label])).labelOf? code =
      if (labels.length : ℤ) + 1 = code then some label
      else (positional labels).labelOf? code := by
  by_cases hcode : 1 ≤ code
  · obtain ⟨index, rfl⟩ : ∃ index : ℕ, code = index + 1 := ⟨(code - 1).toNat, by omega⟩
    have hindex : ((index : ℤ) + 1 - 1).toNat = index := by omega
    simp only [labelOf?, if_pos hcode, hindex, List.getElem?_append, List.getElem?_singleton]
    grind
  · rw [labelOf?, labelOf?, if_neg hcode, if_neg hcode, if_neg (by omega)]

/-- Assigning a code to a label adds labels at the end only. -/
theorem isPrefix_assign (labels : List String) (label : String) :
    labels <+: (assign labels label).2 := by
  rw [labels_assign]
  split_ifs
  · exact List.prefix_rfl
  · exact List.prefix_append _ _

/-- Assigning a code to a label gives it a position, and changes no other. -/
theorem assign_spec (hnodup : labels.Nodup) (label : String) :
    labels <+: (assign labels label).2 ∧ (assign labels label).2.Nodup ∧
      (positional (assign labels label).2).labelOf? (assign labels label).1 = some label := by
  refine ⟨isPrefix_assign labels label, ?_, labelOf?_assign labels label⟩
  rw [labels_assign]
  split_ifs with hknown
  · exact hnodup
  · exact List.nodup_append.mpr ⟨hnodup, List.nodup_singleton _, by grind⟩

/-- Coding a raw value always gives a code, under which the coder then has the category of the
value. The coder keeps all codes it gave before. -/
theorem code_positional (hnodup : labels.Nodup) (raw : RawValue) :
    ∃ code labels', (positional labels).code raw = (some code, positional labels') ∧
      labels <+: labels' ∧ labels'.Nodup ∧
      (positional labels').labelOf? code = some raw.category :=
  ⟨_, _, rfl, assign_spec hnodup raw.category⟩

/-- The labels that some first labels have left stay the first ones when one more is assigned. -/
theorem labels_assign_eraseDups (seen : List String) :
    (assign seen.eraseDups label).2 = (seen ++ [label]).eraseDups := by
  rw [labels_assign, List.eraseDups_append]
  by_cases hmem : label ∈ seen <;> simp [hmem, List.removeAll, List.eraseDups_cons]

/-- The coder of a nominal score knows the declared labels, each once. -/
theorem nominal_eq_positional (scale : List ScaleEntry) :
    nominal scale = positional (scale.map (·.label)).eraseDups ∧
      (scale.map (·.label)).eraseDups.Nodup := by
  induction scale using List.reverseRecOn with
  | nil => exact ⟨rfl, by simp⟩
  | append_singleton scale entry ih =>
    obtain ⟨hcoder, hnodup⟩ := ih
    simp only [nominal, positional.injEq] at hcoder ⊢
    rw [List.foldl_append, hcoder, List.map_append, List.map_singleton, ← labels_assign_eraseDups]
    exact ⟨rfl, (assign_spec hnodup entry.label).2.1⟩

/-- A score without ranks is coded by position, with the declared labels known from the start. -/
theorem ofDefinition_eq_positional_of_ne {definition : Definition}
    (hopen : definition.scoringType ≠ .ordinal) :
    ∃ labels, ofDefinition definition = positional labels ∧ labels.Nodup := by
  obtain ⟨hcoder, hnodup⟩ := nominal_eq_positional definition.entries
  refine ⟨_, ?_, hnodup⟩
  rw [← hcoder, ofDefinition]
  split
  next hordinal => exact absurd hordinal hopen
  next => rfl

end Scorebook.Coder
