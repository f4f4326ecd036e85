import Mathlib.Order.Bounds.Basic
import Scorebook.Proofs.Nominal.Categories

/-!
# What a nominal summary counts

A nominal sample counts codes, and a reader of its summary sees labels. Each label that occurs has
one code of its own, under which it is counted as often as it occurs, and a declared label that does
not occur is not there. The most frequent code is found in one walk along the counts, in which only
a greater count replaces the leader. Because the counts are in the order of the codes, the leader at
the end is the smallest code of those that are counted most often.
-/

namespace Scorebook.Nominal

/-- A code is the mode of some counts: the smallest code whose count is the greatest. -/
def IsMode (counts : List (ℤ × ℕ)) (code : ℤ) : Prop :=
  IsLeast {code | ∃ count, (code, count) ∈ counts ∧ ∀ entry ∈ counts, entry.2 ≤ count} code

/-- An entry leads some counts: none is greater, and no entry with a smaller code is as great. -/
structure Leads (counts : List (ℤ × ℕ)) (leader : ℤ × ℕ) : Prop where
  mem : leader ∈ counts
  greatest : ∀ entry ∈ counts, entry.2 ≤ leader.2
  smallest : ∀ entry ∈ counts, entry.2 = leader.2 → leader.1 ≤ entry.1

/-- One more entry, behind all others, takes the lead if its count is greater than that of the
leader. -/
theorem Leads.concat {counts : List (ℤ × ℕ)} {leader entry : ℤ × ℕ} (h : Leads counts leader)
    (hlast : ∀ other ∈ counts, other.1 < entry.1) :
    Leads (counts ++ [entry]) (if leader.2 < entry.2 then entry else leader) := by
  have hcode := hlast leader h.mem
  split_ifs with hlt
  · refine ⟨by simp, ?_, ?_⟩ <;> simp only [List.mem_append, List.mem_singleton]
    · rintro other (hother | rfl)
      · exact (h.greatest other hother).trans hlt.le
      · exact le_rfl
    · rintro other (hother | rfl) heq
      · have hle := h.greatest other hother
        omega
      · exact le_rfl
  · refine ⟨by simp [h.mem], ?_, ?_⟩ <;> simp only [List.mem_append, List.mem_singleton]
    · rintro other (hother | rfl)
      · exact h.greatest other hother
      · omega
    · rintro other (hother | rfl) heq
      · exact h.smallest other hother heq
      · exact hcode.le

/-- The code of the leader is the mode. -/
theorem Leads.isMode {counts : List (ℤ × ℕ)} {leader : ℤ × ℕ} (h : Leads counts leader) :
    IsMode counts leader.1 := by
  refine ⟨⟨leader.2, h.mem, h.greatest⟩, ?_⟩
  rintro code ⟨count, hmem, hgreatest⟩
  exact h.smallest (code, count) hmem (le_antisymm (h.greatest _ hmem) (hgreatest _ h.mem))

namespace Sample

/-- The walk along the counts goes one entry further. -/
theorem mode?_concat (counts : List (ℤ × ℕ)) (entry : ℤ × ℕ) :
    mode? (counts ++ [entry]) =
      some ((mode? counts).elim entry fun leader =>
        if leader.2 < entry.2 then entry else leader) := by
  rw [mode?, List.foldl_append, ← mode?, List.foldl_cons, List.foldl_nil]
  cases mode? counts with
  | none => rfl
  | some leader => by_cases hlt : leader.2 < entry.2 <;> simp [hlt]

/-- The walk along ascending counts ends with their leader, unless there are none. -/
theorem leads_mode? {counts : List (ℤ × ℕ)} (hascending : Keyed.Ascending counts) :
    (mode? counts = none ∧ counts = []) ∨
      ∃ leader, mode? counts = some leader ∧ Leads counts leader := by
  -- From the end, since the walk carries the leader of the entries before.
  induction counts using List.reverseRecOn with
  | nil => exact .inl ⟨rfl, rfl⟩
  | append_singleton counts entry ih =>
    obtain ⟨hbefore, -, hlast⟩ := List.pairwise_append.mp hascending
    refine .inr ⟨_, mode?_concat counts entry, ?_⟩
    rcases ih hbefore with ⟨hmode, rfl⟩ | ⟨leader, hmode, hleads⟩
    · rw [hmode, Option.elim_none]
      constructor <;> simp
    · rw [hmode, Option.elim_some]
      exact hleads.concat fun other hother =>
        Int.compare_eq_lt.mp (hlast other hother entry (List.mem_singleton_self entry))

/-- Of ascending counts, the walk finds the mode. -/
theorem mode?_eq_some_iff {counts : List (ℤ × ℕ)} (hascending : Keyed.Ascending counts) {code : ℤ} :
    (mode? counts).map (·.1) = some code ↔ IsMode counts code := by
  rcases leads_mode? hascending with ⟨hmode, rfl⟩ | ⟨leader, hmode, hleads⟩
  · simp [hmode, IsMode, IsLeast]
  · rw [hmode, Option.map_some, Option.some.injEq]
    constructor
    · rintro rfl
      exact hleads.isMode
    · exact hleads.isMode.unique

/-- There is no mode only if nothing is counted. -/
theorem mode?_eq_none_iff {counts : List (ℤ × ℕ)} (hascending : Keyed.Ascending counts) :
    (mode? counts).map (·.1) = none ↔ counts = [] := by
  rcases leads_mode? hascending with ⟨hmode, rfl⟩ | ⟨leader, hmode, hleads⟩
  · simp [hmode]
  · simp [hmode, List.ne_nil_of_mem hleads.mem]

end Sample

namespace Summary

variable {α : Type}

/-- A summary counts a column of labels: each label that occurs as often as it does, under a code of
its own, and no other label. -/
structure CountsColumn (summary : Summary α) (column : List String) : Prop where
  scored : summary.scored = column.length
  /-- No code is counted twice. -/
  ascending : Keyed.Ascending summary.counts
  /-- Every code that is counted has a label, and no other code has one. -/
  keys : summary.labels.map (·.1) = summary.counts.map (·.1)
  /-- No label has two codes. -/
  nodup : (summary.labels.map (·.2)).Nodup
  mem_labels : ∀ label, label ∈ summary.labels.map (·.2) ↔ label ∈ column
  find?_counts : ∀ code label, (code, label) ∈ summary.labels →
    Keyed.find? code summary.counts = some (column.count label)
  sum_counts : (summary.counts.map (·.2)).sum = summary.scored
  distinct : summary.distinct = column.toFinset.card
  modeCode_eq_none_iff : summary.modeCode = none ↔ column = []
  modeCode_eq_some_iff : ∀ code, summary.modeCode = some code ↔ IsMode summary.counts code
  /-- The label of the mode is the one that the summary has for its code. -/
  modeLabel : ∀ label, summary.modeLabel = some label ↔
    ∃ code, summary.modeCode = some code ∧ (code, label) ∈ summary.labels

end Summary

section Tallies

variable {α : Type} [Arithmetic α] {labels column : List String} {sample : Sample} {label : String}

/-- A code of a tally has a label that occurs. -/
theorem Tallies.exists_label (h : Tallies labels sample column) {entry : ℤ × ℕ}
    (hentry : entry ∈ sample.counts) :
    ∃ label ∈ column, (Coder.positional labels).labelOf? entry.1 = some label :=
  h.mem_keys_iff.mp (List.mem_map_of_mem hentry)

/-- The labels of a summary are under the codes that it counts. -/
theorem Tallies.keys_labels (h : Tallies labels sample column) :
    (sample.summary (.positional labels) : Summary α).labels.map (·.1) =
      sample.counts.map (·.1) := by
  rw [← List.filterMap_eq_map, ← List.filterMap_eq_map]
  refine List.filterMap_filterMap.trans (List.filterMap_congr fun entry hentry => ?_)
  obtain ⟨label, -, hlabel⟩ := h.exists_label hentry
  simp [hlabel]

/-- A summary has no label twice. -/
theorem Tallies.nodup_labels (h : Tallies labels sample column) :
    ((sample.summary (.positional labels) : Summary α).labels.map (·.2)).Nodup := by
  have hcodes := (h.labels_ascending (α := α)).nodup_keys
  refine List.Nodup.map_on (fun x hx y hy heq => ?_) (.of_map _ hcodes)
  have hx := (h.mem_labels_iff.mp hx).2
  have hy := (h.mem_labels_iff.mp hy).2
  rw [← heq] at hy
  exact Prod.ext (Coder.labelOf?_injective h.nodup hx hy) heq

/-- The labels of a summary are those that occur. -/
theorem Tallies.mem_map_labels_iff (h : Tallies labels sample column) :
    label ∈ (sample.summary (.positional labels) : Summary α).labels.map (·.2) ↔
      label ∈ column := by
  constructor
  · intro hmem
    obtain ⟨entry, hentry, rfl⟩ := List.mem_map.mp hmem
    exact (h.mem_labels_iff.mp hentry).1
  · intro hmem
    obtain ⟨code, hcode⟩ := Coder.exists_labelOf?_iff.mpr (h.known label hmem)
    exact List.mem_map.mpr ⟨(code, label), h.mem_labels_iff.mpr ⟨hmem, hcode⟩, rfl⟩

/-- The label of the mode is the one that the summary has for its code. -/
theorem Tallies.modeLabel_eq_some_iff (h : Tallies labels sample column) :
    (sample.summary (.positional labels) : Summary α).modeLabel = some label ↔
      ∃ code, (sample.summary (.positional labels) : Summary α).modeCode = some code ∧
        (code, label) ∈ (sample.summary (.positional labels) : Summary α).labels := by
  refine Option.bind_eq_some_iff.trans (exists_congr fun code => and_congr_right fun hmode => ?_)
  obtain ⟨⟨count, hcounted, -⟩, -⟩ := (Sample.mode?_eq_some_iff h.ascending).mp hmode
  obtain ⟨known, hknown, hcode⟩ := h.exists_label hcounted
  rw [h.mem_labels_iff, hcode, Option.some.injEq]
  refine ⟨?_, And.right⟩
  rintro rfl
  exact ⟨hknown, rfl⟩

end Tallies

section Column

variable {α : Type} [Arithmetic α] {labels column : List String}

/-- The codes of a column are as many as its labels. -/
theorem length_counts_summaryOf (hknown : ∀ label ∈ column, label ∈ labels) :
    (summaryOf labels column : Summary α).counts.length = column.toFinset.card := by
  rw [List.card_toFinset]
  exact (counts_summaryOf_perm hknown).length_eq.trans (List.length_map _)

/-- The summary of the codes of a column counts the column. -/
theorem countsColumn_summaryOf (hnodup : labels.Nodup) (hknown : ∀ label ∈ column, label ∈ labels) :
    (summaryOf labels column : Summary α).CountsColumn column := by
  have htallies := tallies_ofCodes hnodup hknown
  have hdistinct := length_counts_summaryOf (α := α) hknown
  constructor
  case scored => exact htallies.scored
  case ascending => exact htallies.ascending
  case keys => exact htallies.keys_labels
  case nodup => exact htallies.nodup_labels
  case mem_labels => exact fun label => htallies.mem_map_labels_iff
  case find?_counts =>
    intro code label hmem
    obtain ⟨hlabel, hcode⟩ := htallies.mem_labels_iff.mp hmem
    exact htallies.find?_counts hlabel hcode
  case sum_counts => exact Keyed.sum_counts_tally _
  case distinct => exact hdistinct
  case modeCode_eq_none_iff =>
    rw [← List.toFinset_eq_empty_iff, ← Finset.card_eq_zero, ← hdistinct, List.length_eq_zero_iff]
    exact Sample.mode?_eq_none_iff htallies.ascending
  case modeCode_eq_some_iff => exact fun code => Sample.mode?_eq_some_iff htallies.ascending
  case modeLabel => exact fun label => htallies.modeLabel_eq_some_iff

/-- The summary of a nominal population counts the categories of all its rows, whatever scale is
declared. -/
theorem summarize_countsColumn {definition : Definition}
    (hnominal : definition.scoringType = .nominal) (settings : Settings) (rows : List ScoredRow) :
    ∃ summary : Summary α,
      summarize definition settings false (rows.map .row) = (.ok (.nominal summary), false) ∧
      summary.scored = rows.length ∧ summary.CountsColumn (rows.map (·.raw.category)) := by
  obtain ⟨labels, hsummary, -, hnodup, hknown⟩ :=
    summarize_column (α := α) hnominal settings rows
  have hcounts := countsColumn_summaryOf (α := α) hnodup hknown
  exact ⟨_, hsummary, hcounts.scored.trans (List.length_map _), hcounts⟩

/-- Two labels are counted as often, and the one that is declared leads although the other is seen
first. The other declared label does not occur and is left out. -/
theorem summarize_countsColumn_tie :
    let definition := Definition.nominal "topic" (some [⟨"rare", 5⟩, ⟨"art", 5⟩])
    let rows : List ScoredRow := [⟨1, .label "law"⟩, ⟨2, .label "art"⟩, ⟨3, .label "tax"⟩,
      ⟨4, .label "law"⟩, ⟨5, .label "art"⟩]
    definition.scoringType = .nominal ∧
    ∃ summary : Summary Float,
      summarize definition .standard false (rows.map .row) = (.ok (.nominal summary), false) ∧
      summary.scored = 5 ∧ summary.CountsColumn ["law", "art", "tax", "law", "art"] ∧
      summary.counts = [(2, 2), (3, 2), (4, 1)] ∧ summary.modeCode = some 2 ∧
      summary.modeLabel = some "art" := by
  intro definition rows
  have hnominal : definition.scoringType = .nominal := rfl
  obtain ⟨summary, hsummary, hscored, hcounts⟩ :=
    summarize_countsColumn (α := Float) hnominal .standard rows
  refine ⟨hnominal, summary, hsummary, hscored, hcounts, ?_, ?_, ?_⟩
  all_goals
    cases hsummary
    rfl

end Column

end Scorebook.Nominal
