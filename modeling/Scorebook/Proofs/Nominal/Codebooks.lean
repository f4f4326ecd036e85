import Mathlib.Data.List.Sort
import Scorebook.Proofs.Nominal.Codes
import Scorebook.Score.Codebook

/-!
# Consistent codebooks

The two maps of a codebook must stay inverse to each other, and the codes in use must be the ones
below the next code. Whatever is assigned, they stay so: a new label gets a code that no label has.
The labels of a consistent codebook in the order of their codes are a list without repeats, to which
a new label is appended, so a codebook and the coder that lists its labels give the same codes.
-/

namespace Scorebook.Codebook

variable {book : Codebook} {labels : List String} {label : String} {code : ℤ}

section Entering

variable (book label code)

/-- A label that is entered has the code that was the next one. -/
theorem getElem?_codes_enter (other : String) : (book.enter label).codes[other]? =
    if label = other then some book.nextCode else book.codes[other]? := by
  simp only [enter, Std.TreeMap.getElem?_insert, Std.compare_eq_iff_eq]

/-- The code that was the next one has the label that is entered. -/
theorem labelOf?_enter : (book.enter label).labelOf? code =
    if book.nextCode = code then some label else book.labelOf? code := by
  simp only [enter, labelOf?, Std.TreeMap.getElem?_insert, Std.compare_eq_iff_eq]

end Entering

/-- A known label keeps its code, and the codebook stays as it is. -/
theorem assign_of_known (hcode : book.codes[label]? = some code) :
    book.assign label = (code, book) := by
  simp only [assign, hcode]

/-- A new label is entered under the next code. -/
theorem assign_of_new (hnew : book.codes[label]? = none) :
    book.assign label = (book.nextCode, book.enter label) := by
  simp only [assign, hnew]

/-- The maps and the counter of a codebook agree. -/
structure Consistent (book : Codebook) : Prop where
  /-- A label has a code exactly if the code has the label. -/
  inverse : ∀ label code, book.codes[label]? = some code ↔ book.labelOf? code = some label
  /-- The codes in use are those from one up to the next code. -/
  used : ∀ code, code ∈ book.labels ↔ 1 ≤ code ∧ code < book.nextCode
  /-- As many codes are in use as lie below the next code. -/
  counted : book.nextCode = book.size + 1

/-- The codebook without labels is consistent. -/
theorem consistent_empty : empty.Consistent where
  inverse label code := by simp [empty, labelOf?]
  used code := by
    simp only [empty, Std.TreeMap.not_mem_emptyc, false_iff]
    omega
  counted := rfl

namespace Consistent

/-- The next code is not in use. -/
theorem nextCode_notMem (h : book.Consistent) : book.nextCode ∉ book.labels := by
  rw [h.used]
  omega

/-- No label has the next code. -/
theorem labelOf?_nextCode (h : book.Consistent) : book.labelOf? book.nextCode = none :=
  Std.TreeMap.getElem?_eq_none h.nextCode_notMem

/-- Entering a new label keeps a codebook consistent. -/
theorem enter (h : book.Consistent) (hnew : book.codes[label]? = none) :
    (book.enter label).Consistent where
  inverse other code := by
    rw [getElem?_codes_enter, labelOf?_enter]
    -- The new label and the new code belong to each other, and to nothing that was there before.
    split_ifs with hlabel hcode hcode
    · simp [hlabel, hcode]
    · rw [← h.inverse, ← hlabel, hnew]
      simp [hcode]
    · rw [h.inverse, ← hcode, h.labelOf?_nextCode]
      simp [hlabel]
    · exact h.inverse other code
  used code := by
    have hcounted := h.counted
    simp only [Codebook.enter, Std.TreeMap.mem_insert, Std.compare_eq_iff_eq, h.used]
    omega
  counted := by
    have hsize : (book.enter label).size = book.size + 1 := by
      simp [Codebook.enter, size, Std.TreeMap.size_insert, h.nextCode_notMem]
    rw [hsize, Codebook.enter, h.counted]
    push_cast
    rfl

/-- Assigning a code to a label keeps a codebook consistent. -/
theorem assign (h : book.Consistent) (label : String) : (book.assign label).2.Consistent := by
  cases hcode : book.codes[label]? with
  | some code => rwa [assign_of_known hcode]
  | none =>
    rw [assign_of_new hcode]
    exact h.enter hcode

/-- A label is found under the code that it is assigned. -/
theorem labelOf?_assign (h : book.Consistent) (label : String) :
    (book.assign label).2.labelOf? (book.assign label).1 = some label := by
  cases hcode : book.codes[label]? with
  | some code =>
    rw [assign_of_known hcode]
    exact (h.inverse label code).mp hcode
  | none => rw [assign_of_new hcode, labelOf?_enter, if_pos rfl]

/-- A code keeps its label when another label is assigned a code. -/
theorem labelOf?_assign_of_eq (h : book.Consistent) (hlabel : book.labelOf? code = some label)
    (other : String) : (book.assign other).2.labelOf? code = some label := by
  cases hcode : book.codes[other]? with
  | some known => rwa [assign_of_known hcode]
  | none =>
    have hused : book.nextCode ≠ code := by
      rintro rfl
      rw [h.labelOf?_nextCode] at hlabel
      cases hlabel
    rw [assign_of_new hcode, labelOf?_enter, if_neg hused, hlabel]

/-- No label has two codes. -/
theorem labelOf?_inj (h : book.Consistent) {other : ℤ} (hcode : book.labelOf? code = some label)
    (hother : book.labelOf? other = some label) : code = other := by
  rw [← h.inverse] at hcode hother
  exact Option.some.inj (hcode.symm.trans hother)

end Consistent

/-- A codebook has some labels in the order of their codes. -/
structure Lists (book : Codebook) (labels : List String) : Prop where
  nodup : labels.Nodup
  /-- The codes are the positions of the labels. -/
  labelOf?_eq : ∀ code, book.labelOf? code = (Coder.positional labels).labelOf? code
  nextCode_eq : book.nextCode = labels.length + 1

/-- The codebook without labels lists none. -/
theorem lists_empty : empty.Lists [] where
  nodup := List.nodup_nil
  labelOf?_eq code := by simp [empty, labelOf?, Coder.labelOf?]
  nextCode_eq := rfl

namespace Lists

/-- Exactly the labels that are listed have a code. -/
theorem exists_code_iff (h : book.Lists labels) (hconsistent : book.Consistent) :
    (∃ code, book.codes[label]? = some code) ↔ label ∈ labels := by
  simp only [hconsistent.inverse, h.labelOf?_eq, Coder.exists_labelOf?_iff]

/-- A codebook and the list of its labels give a label the same code, and the list of the labels
goes on as the codebook does. -/
theorem assign (h : book.Lists labels) (hconsistent : book.Consistent) (label : String) :
    (book.assign label).1 = (Coder.assign labels label).1 ∧
      (book.assign label).2.Lists (Coder.assign labels label).2 := by
  by_cases hknown : label ∈ labels
  · have hlabels : (Coder.assign labels label).2 = labels := by
      rw [Coder.labels_assign, if_pos hknown]
    have hcode : book.codes[label]? = some ((Coder.assign labels label).1 : ℤ) := by
      rw [hconsistent.inverse, h.labelOf?_eq]
      have hassigned := Coder.labelOf?_assign labels label
      rwa [hlabels] at hassigned
    rw [assign_of_known hcode, hlabels]
    exact ⟨rfl, h⟩
  · have hnew : book.codes[label]? = none := by
      rw [Option.eq_none_iff_forall_ne_some]
      exact fun code hcode => hknown ((h.exists_code_iff hconsistent).mp ⟨code, hcode⟩)
    have hnodup := (Coder.assign_spec h.nodup label).2.1
    rw [Coder.assign_of_notMem hknown] at hnodup
    rw [assign_of_new hnew, Coder.assign_of_notMem hknown]
    refine ⟨h.nextCode_eq, hnodup, fun code => ?_, ?_⟩
    · rw [labelOf?_enter, h.nextCode_eq, h.labelOf?_eq, Coder.labelOf?_concat]
    · rw [enter, h.nextCode_eq, List.length_append, List.length_singleton]
      push_cast
      rfl

/-- The entries of a codebook are those of the coder that lists its labels. -/
theorem entries_eq (h : book.Lists labels) : book.entries = (Coder.positional labels).labels := by
  have hentries : book.entries.Pairwise (·.1 < ·.1) :=
    book.labels.ordered_keys_toList.imp fun hlt => Int.compare_eq_lt.mp hlt
  have hlabels : (Coder.positional labels).labels.Pairwise (·.1 < ·.1) := by
    rw [← List.pairwise_map, (Coder.labels_positional labels).1]
    exact List.pairwise_map.mpr (List.pairwise_lt_range.imp fun hlt => by omega)
  have hmem (entry : ℤ × String) :
      entry ∈ book.entries ↔ entry ∈ (Coder.positional labels).labels := by
    rw [Coder.mem_labels_positional_iff, ← h.labelOf?_eq]
    exact Std.TreeMap.mem_toList_iff_getElem?_eq_some
  have hasymm : Std.Asymm fun first second : ℤ × String => first.1 < second.1 :=
    ⟨fun _ _ => Int.lt_asymm⟩
  exact hentries.eq_of_mem_iff hlabels hmem

end Lists

/-- Entering a scale label by label leaves a consistent codebook of its labels, each once. -/
theorem nominal_spec (scale : Option (List ScaleEntry)) :
    (nominal scale).Consistent ∧
      (nominal scale).Lists ((scale.getD []).map (·.label)).eraseDups := by
  unfold nominal
  induction scale.getD [] using List.reverseRecOn with
  | nil => exact ⟨consistent_empty, lists_empty⟩
  | append_singleton entries entry ih =>
    obtain ⟨hconsistent, hlists⟩ := ih
    have hnext := (hlists.assign hconsistent entry.label).2
    rw [List.foldl_append, List.map_append, List.map_singleton, ← Coder.labels_assign_eraseDups]
    exact ⟨hconsistent.assign entry.label, hnext⟩

end Scorebook.Codebook
