import Scorebook.Arithmetic.Double
import Scorebook.Proofs.Nominal.CodedPairs
import Scorebook.Proofs.Results
import Scorebook.Tail.Double

/-!
# Shares by label

The codes of a nominal comparison are not those of a summary of one of its columns, since in the
comparison both columns give out codes. Labels are what they have in common: a comparison reports
for each label the shares that the summaries of the two columns report for it, each under a code
of its own.
-/

namespace Scorebook

namespace Nominal

variable {α : Type} {labels column columnA columnB : List String} {label : String}

/-- A summary has a label under exactly one code, and reports a share for this code. -/
def Summary.Reports (summary : Summary α) (label : String) (share : α) : Prop :=
  ∃ code, (∀ other, Keyed.find? other summary.labels = some label ↔ other = code) ∧
    Keyed.find? code summary.proportions = some share

variable [Arithmetic α]

/-- The share of a label in the column of a summary: the reported one if the label occurs, and
zero otherwise. -/
def Summary.Gives (summary : Summary α) (column : List String) (label : String) (share : α) :
    Prop :=
  (label ∈ column ∧ summary.Reports label share) ∨
    (label ∉ column ∧ share = Arithmetic.ofNat 0)

/-- A comparison of two columns has one entry for each label that occurs in either, under a code
of its own and with the shares that the summaries of the columns give. -/
structure Comparison.AgreesByLabel (comparison : Comparison α) (columnA columnB : List String)
    (a b : Summary α) : Prop where
  /-- No code has two entries. -/
  ascending : Keyed.Ascending comparison.distribution
  /-- No label has two entries. -/
  nodup : (comparison.distribution.map (·.2.label)).Nodup
  /-- The labels of the entries are those that occur. -/
  mem_labels : ∀ label, label ∈ comparison.distribution.map (·.2.label) ↔
    label ∈ columnA ∨ label ∈ columnB
  /-- The first shares are those of the first summary. -/
  sharesA : ∀ entry ∈ comparison.distribution, a.Gives columnA entry.2.label entry.2.proportionA
  /-- The second shares are those of the second summary. -/
  sharesB : ∀ entry ∈ comparison.distribution, b.Gives columnB entry.2.label entry.2.proportionB

/-- The share of a label in a column, zero where it does not occur. -/
def shareOf (column : List String) (label : String) : α :=
  match occurrences? column label with
  | some count => Arithmetic.proportion count column.length
  | none => Arithmetic.ofNat 0

section Tallies

variable {sample : Sample} {code : ℤ}

/-- A code is counted exactly if its label occurs. -/
theorem Tallies.mem_keys_iff (h : Tallies labels sample column) :
    code ∈ sample.counts.map (·.1) ↔
      ∃ label ∈ column, (Coder.positional labels).labelOf? code = some label := by
  rw [← h.ascending.exists_find?_iff, h.find?]
  constructor
  · rintro ⟨count, hcount⟩
    obtain ⟨label, hlabel, hcount⟩ := Option.bind_eq_some_iff.mp hcount
    refine ⟨label, ?_, hlabel⟩
    by_contra habsent
    simp [occurrences?, habsent] at hcount
  · rintro ⟨label, hmem, hlabel⟩
    exact ⟨column.count label, by simp [hlabel, occurrences?, hmem]⟩

/-- A label that occurs is counted under its code as often as it does. -/
theorem Tallies.find?_counts (h : Tallies labels sample column) (hmem : label ∈ column)
    (hcode : (Coder.positional labels).labelOf? code = some label) :
    Keyed.find? code sample.counts = some (column.count label) := by
  rw [h.find?, hcode, Option.bind_some, occurrences?, if_pos hmem]

/-- The share that a comparison computes for a code is that of its label. -/
theorem Tallies.share_eq (h : Tallies labels sample column)
    (hcode : (Coder.positional labels).labelOf? code = some label) :
    (match Keyed.find? code sample.counts with
      | some count => Arithmetic.proportion count sample.scored
      | none => Arithmetic.ofNat 0 : α) = shareOf column label := by
  rw [h.find?, hcode, h.scored]
  rfl

/-- The labels of a summary are in the order of their codes. -/
theorem Tallies.labels_ascending (h : Tallies labels sample column) :
    Keyed.Ascending (sample.summary (.positional labels) : Summary α).labels := by
  refine h.ascending.filterMap _ fun entry other hlt x hx y hy => ?_
  obtain ⟨_, -, rfl⟩ := Option.map_eq_some_iff.mp hx
  obtain ⟨_, -, rfl⟩ := Option.map_eq_some_iff.mp hy
  exact hlt

/-- The summary of a tally has a label under a code exactly if the label occurs and the code is
that of the coder. -/
theorem Tallies.mem_labels_iff (h : Tallies labels sample column) :
    (code, label) ∈ (sample.summary (.positional labels) : Summary α).labels ↔
      label ∈ column ∧ (Coder.positional labels).labelOf? code = some label := by
  constructor
  · intro hmem
    obtain ⟨entry, hentry, hsome⟩ := List.mem_filterMap.mp hmem
    obtain ⟨known, hknown, heq⟩ := Option.map_eq_some_iff.mp hsome
    cases heq
    obtain ⟨other, hother, hcode⟩ := h.mem_keys_iff.mp (List.mem_map_of_mem hentry)
    obtain rfl := Option.some.inj (hknown.symm.trans hcode)
    exact ⟨hother, hknown⟩
  · rintro ⟨hmem, hcode⟩
    obtain ⟨entry, hentry, rfl⟩ := List.mem_map.mp (h.mem_keys_iff.mpr ⟨label, hmem, hcode⟩)
    exact List.mem_filterMap.mpr ⟨entry, hentry, by simp [hcode]⟩

/-- Looking up a code finds its label exactly if the summary has the label under this code. -/
theorem Tallies.find?_labels_iff (h : Tallies labels sample column) :
    Keyed.find? code (sample.summary (.positional labels) : Summary α).labels = some label ↔
      label ∈ column ∧ (Coder.positional labels).labelOf? code = some label :=
  h.labels_ascending.find?_eq_some_iff.trans h.mem_labels_iff

/-- The summary of a tally gives every label its share in the column. -/
theorem Tallies.summary_gives (h : Tallies labels sample column) (label : String) :
    (sample.summary (.positional labels) : Summary α).Gives column label
      (shareOf column label) := by
  by_cases hmem : label ∈ column
  · refine .inl ⟨hmem, ?_⟩
    obtain ⟨code, hcode⟩ := Coder.exists_labelOf?_iff.mpr (h.known label hmem)
    refine ⟨code, fun other => ?_, ?_⟩
    · rw [h.find?_labels_iff]
      constructor
      · exact fun hother => Coder.labelOf?_injective h.nodup hother.2 hcode
      · rintro rfl
        exact ⟨hmem, hcode⟩
    · have hascending :
          Keyed.Ascending (sample.summary (.positional labels) : Summary α).proportions :=
        h.ascending.of_keys_eq (by simp [Sample.summary])
      rw [hascending.find?_eq_some_iff]
      refine List.mem_map.mpr ⟨_, Keyed.mem_of_find? (h.find?_counts hmem hcode), ?_⟩
      simp [shareOf, occurrences?, hmem, h.scored]
  · exact .inr ⟨hmem, by simp [shareOf, occurrences?, hmem]⟩

end Tallies

section PairedTallies

variable [TailTable α] {sample : PairedSample} {settings : Settings}

/-- Each code of a comparison is that of a label which occurs in either column. -/
theorem PairedTallies.mem_codes_iff (h : PairedTallies labels sample columnA columnB) {code : ℤ} :
    code ∈ sample.codes ↔ ∃ label, (label ∈ columnA ∨ label ∈ columnB) ∧
      (Coder.positional labels).labelOf? code = some label := by
  rw [PairedSample.mem_codes_iff, h.sideA.mem_keys_iff, h.sideB.mem_keys_iff]
  grind

/-- The entries of a comparison give each of the labels that occur its shares in both columns. -/
theorem PairedTallies.mem_distribution (h : PairedTallies labels sample columnA columnB)
    {entry : ℤ × CategoryShares α}
    (hentry : entry ∈ (sample.comparison settings : Comparison α).distribution) :
    (Coder.positional labels).labelOf? entry.1 = some entry.2.label ∧
      entry.2.proportionA = shareOf columnA entry.2.label ∧
      entry.2.proportionB = shareOf columnB entry.2.label := by
  obtain ⟨code, hcode, rfl⟩ := List.mem_map.mp hentry
  obtain ⟨label, -, hlabel⟩ := h.mem_codes_iff.mp hcode
  have hentry : (sample.coder.labelOf? code).getD "" = label := by simp [h.coder, hlabel]
  simp only [hentry]
  exact ⟨hlabel, h.sideA.share_eq hlabel, h.sideB.share_eq hlabel⟩

/-- A comparison of two tallies agrees with any summaries that give every label its share. -/
theorem PairedTallies.comparison_agreesByLabel
    (h : PairedTallies labels sample columnA columnB) {a b : Summary α}
    (hA : ∀ label, a.Gives columnA label (shareOf columnA label))
    (hB : ∀ label, b.Gives columnB label (shareOf columnB label)) :
    (sample.comparison settings : Comparison α).AgreesByLabel columnA columnB a b where
  ascending := PairedSample.distribution_ascending
  nodup := by
    have hnodup : ((sample.comparison settings : Comparison α).distribution.map (·.1)).Nodup :=
      PairedSample.distribution_ascending.nodup_keys
    refine List.Nodup.map_on (fun x hx y hy heq => ?_) (List.Nodup.of_map _ hnodup)
    have hx' := (h.mem_distribution hx).1
    have hy' := (h.mem_distribution hy).1
    rw [← heq] at hy'
    exact List.inj_on_of_nodup_map hnodup hx hy (Coder.labelOf?_injective h.sideA.nodup hx' hy')
  mem_labels label := by
    constructor
    · intro hmem
      obtain ⟨entry, hentry, rfl⟩ := List.mem_map.mp hmem
      have hkey := List.mem_map_of_mem (f := (·.1)) hentry
      rw [PairedSample.keys_distribution] at hkey
      obtain ⟨known, hknown, hcode⟩ := h.mem_codes_iff.mp hkey
      obtain rfl := Option.some.inj ((h.mem_distribution hentry).1.symm.trans hcode)
      exact hknown
    · intro hmem
      have hknown := hmem.elim (h.sideA.known label) (h.sideB.known label)
      obtain ⟨code, hcode⟩ := Coder.exists_labelOf?_iff.mpr hknown
      have hkey : code ∈ (sample.comparison settings : Comparison α).distribution.map (·.1) := by
        rw [PairedSample.keys_distribution]
        exact h.mem_codes_iff.mpr ⟨label, hmem, hcode⟩
      obtain ⟨entry, hentry, rfl⟩ := List.mem_map.mp hkey
      have hlabel := (h.mem_distribution hentry).1
      exact List.mem_map.mpr ⟨entry, hentry, Option.some.inj (hlabel.symm.trans hcode)⟩
  sharesA entry hentry := by
    rw [(h.mem_distribution hentry).2.1]
    exact hA _
  sharesB entry hentry := by
    rw [(h.mem_distribution hentry).2.2]
    exact hB _

end PairedTallies

end Nominal

variable {α : Type} [Arithmetic α] [TailTable α]

/-- A comparison on a nominal score succeeds and pairs all rows. It agrees label by label with the
summaries of its two columns, whatever codes those have given out. -/
theorem compareExperiments_agreesByLabel {definition : Definition}
    (hnominal : definition.scoringType = .nominal) (settings : Settings)
    (experimentA experimentB : String) (rows : List PairedRow) :
    ∃ (comparison : Nominal.Comparison α) (a b : Nominal.Summary α),
      compareExperiments definition experimentA experimentB settings false (rows.map .row) =
        (.ok ⟨experimentA, experimentB, definition.scoreId, definition.scoringType,
          .nominal comparison⟩, false) ∧
      summarize definition settings false ((rows.map PairedRow.sideA).map .row) =
        (.ok (.nominal a), false) ∧
      summarize definition settings false ((rows.map PairedRow.sideB).map .row) =
        (.ok (.nominal b), false) ∧
      comparison.paired = rows.length ∧
      comparison.AgreesByLabel (rows.map (·.rawA.category)) (rows.map (·.rawB.category)) a b := by
  obtain ⟨labels, sample, hbody, hpaired⟩ :=
    Nominal.compareRows_rows (α := α) hnominal settings rows
  obtain ⟨labelsA, sideA, hsideA, hA⟩ :=
    Nominal.summarize_rows (α := α) hnominal settings (rows.map PairedRow.sideA)
  obtain ⟨labelsB, sideB, hsideB, hB⟩ :=
    Nominal.summarize_rows (α := α) hnominal settings (rows.map PairedRow.sideB)
  rw [List.map_map] at hA hB
  refine ⟨_, _, _, compareExperiments_eq_ok hbody _ _, hsideA, hsideB, ?_, ?_⟩
  · exact hpaired.sideA.scored.trans (List.length_map _)
  · exact hpaired.comparison_agreesByLabel hA.summary_gives hB.summary_gives

/-- The comparison numbers the label `bad` before `good`, while the second column alone has `good`
first. -/
theorem compareExperiments_agreesByLabel_renumbered :
    let definition := Definition.nominal "verdict" (some [⟨"unclear", 7⟩])
    let rows : List PairedRow :=
      [⟨1, .label "bad", .label "good"⟩, ⟨2, .label "unclear", .label "bad"⟩]
    definition.scoringType = .nominal ∧
    ∃ (comparison : Nominal.Comparison Float) (a b : Nominal.Summary Float),
      compareExperiments definition "first" "second" .standard false (rows.map .row) =
        (.ok ⟨"first", "second", "verdict", .nominal, .nominal comparison⟩, false) ∧
      summarize definition .standard false ((rows.map PairedRow.sideA).map .row) =
        (.ok (.nominal a), false) ∧
      summarize definition .standard false ((rows.map PairedRow.sideB).map .row) =
        (.ok (.nominal b), false) ∧
      comparison.paired = 2 ∧
      comparison.AgreesByLabel ["bad", "unclear"] ["good", "bad"] a b := by
  intro definition rows
  exact ⟨rfl, compareExperiments_agreesByLabel rfl .standard "first" "second" rows⟩

end Scorebook
