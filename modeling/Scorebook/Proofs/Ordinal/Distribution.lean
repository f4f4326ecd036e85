import Scorebook.Arithmetic.Double
import Scorebook.Proofs.Results

/-!
# What an ordinal summary counts

An ordinal summary is determined by the codes that were accepted. Each of its tables has one entry
for each declared category, also for those that never occur, whatever the signs of the ranks and the
order in which they are declared. The shares up to a rank come from running totals over the counts,
and since the counts are in the order of the ranks, such a total is the number of the codes up to
the rank.
-/

namespace Scorebook

/-- A code passes under a rule if its label on the scale is acceptable or it reaches the
threshold. -/
def PassRule.Admits (rule : PassRule) (scale : List ScaleEntry) (code : ℤ) : Prop :=
  (∃ label ∈ rule.acceptable.getD [], ⟨label, code⟩ ∈ scale) ∨
    ∃ rank ∈ rule.threshold, rank ≤ code

instance (rule : PassRule) (scale : List ScaleEntry) : DecidablePred (rule.Admits scale) :=
  fun _ => inferInstanceAs (Decidable (_ ∨ _))

/-- Items of two kinds that exclude each other are counted apart. -/
theorem countP_or_of_disjoint {β : Type} {p q : β → Bool} {items : List β}
    (h : ∀ x ∈ items, p x = true → q x = false) :
    (items.countP fun x => p x || q x) = items.countP p + items.countP q := by
  induction items with
  | nil => rfl
  | cons x rest ih =>
    obtain ⟨hx, hrest⟩ := List.forall_mem_cons.mp h
    rw [List.countP_cons, List.countP_cons, List.countP_cons, ih hrest]
    cases hp : p x with
    | true =>
      simp [hx hp]
      omega
    | false => simp [Nat.add_assoc]

namespace Ordinal

/-- A table has one entry for each category of a scale and no others: the rank of the category with
a value that belongs to it. -/
structure Tabulates {ν : Type} (table : List (ℤ × ν)) (scale : List ScaleEntry)
    (value : ScaleEntry → ν) : Prop where
  ascending : Keyed.Ascending table
  perm : table.Perm (scale.map fun entry => (entry.rank, value entry))

/-- A summary on a scale counts some codes, and judges them by a rule. -/
structure Summary.Describes {α : Type} [Arithmetic α] (summary : Summary α)
    (scale : List ScaleEntry) (rule : PassRule) (codes : List ℤ) : Prop where
  scored : summary.scored = codes.length
  counts : Tabulates summary.counts scale fun entry => codes.count entry.rank
  proportions : Tabulates summary.proportions scale fun entry =>
    Arithmetic.proportion (codes.count entry.rank) codes.length
  /-- The share at or below a rank is that of the codes at or below it. -/
  cdf : Tabulates summary.cdf scale fun entry =>
    Arithmetic.proportion (codes.countP (· ≤ entry.rank)) codes.length
  labels : Tabulates summary.labels scale (·.label)
  /-- A code that passes by its label and by its rank is counted once. -/
  passed : summary.passRate.passed = codes.countP (rule.Admits scale)
  rate : summary.passRate.proportion = Arithmetic.proportion summary.passRate.passed codes.length

section Tabulates

variable {ν : Type} {scale : List ScaleEntry} {value : ScaleEntry → ν} {table : List (ℤ × ν)}

/-- Changing all values of a table changes the values of the categories. -/
theorem Tabulates.map {μ : Type} (h : Tabulates table scale value) (f : ℤ → ν → μ) :
    Tabulates (table.map fun entry => (entry.1, f entry.1 entry.2)) scale
      fun entry => f entry.rank (value entry) where
  ascending := List.pairwise_map.mpr h.ascending
  perm := by
    have hperm := h.perm.map fun entry => (entry.1, f entry.1 entry.2)
    rwa [List.map_map] at hperm

/-- A table has exactly the declared ranks as keys. -/
theorem Tabulates.mem_keys_iff (h : Tabulates table scale value) {rank : ℤ} :
    rank ∈ table.map (·.1) ↔ rank ∈ scale.map (·.rank) := by
  have hkeys := h.perm.map (·.1)
  rw [List.map_map] at hkeys
  exact hkeys.mem_iff

/-- Looking up the rank of a category finds its value. -/
theorem Tabulates.find?_rank (h : Tabulates table scale value) {entry : ScaleEntry}
    (hentry : entry ∈ scale) : Keyed.find? entry.rank table = some (value entry) :=
  h.ascending.find?_eq_some_iff.mpr
    (h.perm.mem_iff.mpr (List.mem_map_of_mem (f := fun entry => (entry.rank, value entry)) hentry))

end Tabulates

/-- The running total at a key is the number of the codes up to it, as far as they are keys. -/
theorem cumulative_map_count {keys : List ℤ} (hkeys : keys.Pairwise (· < ·)) (total : ℕ)
    (codes : List ℤ) :
    cumulative total (keys.map fun key => (key, codes.count key)) =
      keys.map fun key => (key, total + codes.countP fun code => code ∈ keys ∧ code ≤ key) := by
  induction keys generalizing total with
  | nil => rfl
  | cons first rest ih =>
    obtain ⟨hfirst, hrest⟩ := List.pairwise_cons.mp hkeys
    have hhead : (codes.countP fun code => code ∈ first :: rest ∧ code ≤ first) =
        codes.count first := by
      refine List.countP_congr fun code _ => ?_
      simp only [List.mem_cons, decide_eq_true_eq, beq_iff_eq]
      constructor
      · rintro ⟨rfl | hmem, hle⟩
        · rfl
        · have hlt := hfirst code hmem
          omega
      · rintro rfl
        exact ⟨.inl rfl, le_rfl⟩
    rw [List.map_cons, cumulative, ih hrest, List.map_cons, hhead]
    refine congrArg (_ :: ·) (List.map_congr_left fun key hkey => ?_)
    have hlt := hfirst key hkey
    -- Behind the first key, its own codes are part of the total that is passed on.
    have hsplit : (codes.countP fun code => code ∈ first :: rest ∧ code ≤ key) =
        codes.count first + codes.countP fun code => code ∈ rest ∧ code ≤ key := by
      refine Eq.trans (List.countP_congr fun code _ => ?_) (countP_or_of_disjoint fun code _ => ?_)
      · by_cases hcode : code = first
        · subst hcode
          simp [hlt.le]
        · simp [hcode]
      · intro hcode
        obtain rfl : code = first := by simpa using hcode
        have hnot : code ∉ rest := fun hmem => lt_irrefl _ (hfirst code hmem)
        simp [hnot]
    rw [hsplit, Nat.add_assoc]

section Ranked

variable {scale : List ScaleEntry} {rule : Option PassRule} {codes : List ℤ} {excluded : ℕ}

/-- On a scale without repeats, a code passes by the criteria of a rule exactly if the rule admits
it. -/
theorem passes_ofRule_iff (hlabels : (scale.map (·.label)).Nodup)
    (hranks : (scale.map (·.rank)).Nodup) (code : ℤ) :
    (PassCriteria.ofRule rule (.ranked scale)).passes code = true ↔
      (rule.getD .empty).Admits scale code := by
  have hnodup := Coder.nodup_labels_ranked hlabels hranks
  have hfound (label : String) : ((Coder.ranked scale).labels.find? (·.2 = label)).map (·.1) =
      some code ↔ ⟨label, code⟩ ∈ scale := by
    simp only [Option.map_eq_some_iff, find?_eq_some_iff_of_nodup hnodup,
      ← Coder.mem_labels_ranked_iff hranks]
    grind
  rw [PassCriteria.passes, Bool.or_eq_true, PassRule.Admits]
  refine or_congr ?_ ?_
  · simp [PassCriteria.ofRule, hfound]
  · cases hthreshold : (rule.getD .empty).threshold <;>
      simp [PassCriteria.ofRule, hthreshold]

/-- The labels of a scale without repeats are those of its categories. -/
theorem tabulates_labels (hranks : (scale.map (·.rank)).Nodup) :
    Tabulates (Coder.ranked scale).labels scale (·.label) :=
  ⟨Coder.labels_ranked_ascending, Coder.labels_ranked_perm hranks⟩

/-- The running totals over the counts of declared codes are the numbers of codes up to each
rank. -/
theorem tabulates_totals (hranks : (scale.map (·.rank)).Nodup)
    (hcodes : ∀ code ∈ codes, code ∈ scale.map (·.rank)) :
    Tabulates (cumulative 0 (Sample.ofCodes rule (.ranked scale) codes excluded).counts) scale
      fun entry => codes.countP (· ≤ entry.rank) := by
  have hlabels := tabulates_labels hranks
  have hkeys : ((Coder.ranked scale).labels.map (·.1)).Pairwise (· < ·) :=
    List.pairwise_map.mpr (hlabels.ascending.imp Int.compare_eq_lt.mp)
  have htotals := cumulative_map_count hkeys 0 codes
  simp only [List.map_map, Function.comp_def, Nat.zero_add] at htotals
  have hcount (rank : ℤ) : (codes.countP fun code =>
      code ∈ (Coder.ranked scale).labels.map (·.1) ∧ code ≤ rank) = codes.countP (· ≤ rank) :=
    List.countP_congr fun code hcode => by simp [hlabels.mem_keys_iff.mpr (hcodes code hcode)]
  simp only [hcount] at htotals
  rw [Sample.ofCodes, htotals]
  exact hlabels.map fun rank _ => codes.countP (· ≤ rank)

/-- The summary of declared codes describes them. -/
theorem describes_ofCodes {α : Type} [Arithmetic α] (hlabels : (scale.map (·.label)).Nodup)
    (hranks : (scale.map (·.rank)).Nodup) (hcodes : ∀ code ∈ codes, code ∈ scale.map (·.rank))
    (rule : Option PassRule) (excluded : ℕ) (percents : List ℕ) :
    ((Sample.ofCodes rule (.ranked scale) codes excluded).summary (.ranked scale) percents :
      Summary α).Describes scale (rule.getD .empty) codes := by
  have htable := tabulates_labels hranks
  have hcounts : Tabulates (Sample.ofCodes rule (.ranked scale) codes excluded).counts scale
      fun entry => codes.count entry.rank :=
    htable.map fun rank _ => codes.count rank
  constructor
  case scored => rfl
  case counts => exact hcounts
  case proportions => exact hcounts.map fun _ count => Arithmetic.proportion count codes.length
  case cdf =>
    exact (tabulates_totals hranks hcodes).map fun _ total =>
      Arithmetic.proportion total codes.length
  case labels => exact htable
  case passed =>
    exact List.countP_congr fun code _ => by simp [passes_ofRule_iff hlabels hranks]
  case rate => rfl

end Ranked

section Rows

variable {α : Type} [Arithmetic α] {definition : Definition}

/-- The codes of the rows that are on the scale of a definition. -/
def codesOf (definition : Definition) (rows : List ScoredRow) : List ℤ :=
  rows.filterMap fun row => ((Coder.ofDefinition definition).code row.raw).1

/-- The codes of rows are declared ranks. -/
theorem mem_ranks_of_mem_codesOf (hordinal : definition.scoringType = .ordinal)
    {rows : List ScoredRow} {code : ℤ} (hcode : code ∈ codesOf definition rows) :
    code ∈ definition.entries.map (·.rank) := by
  obtain ⟨row, -, hrow⟩ := List.mem_filterMap.mp hcode
  rw [ofDefinition_eq_ranked hordinal] at hrow
  exact Coder.mem_of_rankOf? hrow

/-- The summary of a population is that of the codes of its rows, with all other rows excluded. -/
theorem summarize_codesOf (hordinal : definition.scoringType = .ordinal) (settings : Settings)
    (rows : List ScoredRow) :
    let coder := Coder.ranked definition.entries
    ∃ excluded,
      summarize definition settings false (rows.map .row) =
        (.ok (.ordinal ((Sample.ofCodes definition.passRule coder (codesOf definition rows)
          excluded).summary coder settings.percentiles : Summary α)), false) ∧
      (codesOf definition rows).length + excluded = rows.length := by
  intro coder
  have hcodes : (rows.map (·.raw)).filterMap (readCode? coder) = codesOf definition rows := by
    rw [List.filterMap_map, codesOf, ofDefinition_eq_ranked hordinal]
    rfl
  have htotal := List.length_eq_countP_add_countP (fun raw => (readCode? coder raw).isSome)
    (l := rows.map (·.raw))
  have hexcluded : ((rows.map (·.raw)).countP fun raw => ¬(readCode? coder raw).isSome) =
      (rows.map (·.raw)).countP fun raw => (readCode? coder raw).isNone :=
    List.countP_congr fun raw _ => by simp
  rw [← hcodes]
  refine ⟨_, summarize_rows hordinal settings rows, ?_⟩
  rw [List.length_filterMap_eq_countP, ← hexcluded, ← htotal, List.length_map]

/-- The greatest declared rank has all codes at or below it. -/
theorem countP_le_greatest (hordinal : definition.scoringType = .ordinal) (rows : List ScoredRow)
    {greatest : ℤ} (hgreatest : ∀ entry ∈ definition.entries, entry.rank ≤ greatest) :
    (codesOf definition rows).countP (· ≤ greatest) = (codesOf definition rows).length := by
  refine List.countP_eq_length.mpr fun code hcode => ?_
  obtain ⟨entry, hentry, rfl⟩ := List.mem_map.mp (mem_ranks_of_mem_codesOf hordinal hcode)
  simpa using hgreatest entry hentry

/-- The summary of an ordinal population is what its rows come to. It counts the codes of the rows
on the scale and excludes the others. Each table has an entry for every declared rank and no others,
with the number of the codes at the rank and the shares at and up to it. The greatest rank has all
codes up to it, and a code passes if its label is acceptable or it reaches the threshold. -/
theorem summarize_describes_codes (hvalid : definition.validate = .ok ())
    (hordinal : definition.scoringType = .ordinal) (settings : Settings) (rows : List ScoredRow) :
    let codes := codesOf definition rows
    ∃ summary : Summary α,
      summarize definition settings false (rows.map .row) = (.ok (.ordinal summary), false) ∧
      summary.scored + summary.excluded = rows.length ∧
      summary.Describes definition.entries (definition.passRule.getD .empty) codes ∧
      ∀ greatest ∈ definition.entries,
        (∀ entry ∈ definition.entries, entry.rank ≤ greatest.rank) →
        codes.countP (· ≤ greatest.rank) = summary.scored ∧
        Keyed.find? greatest.rank summary.cdf =
          some (Arithmetic.proportion summary.scored summary.scored) := by
  intro codes
  obtain ⟨hlabels, hranks⟩ := Definition.nodup_of_validate_ordinal hvalid hordinal
  obtain ⟨excluded, hsummary, htotal⟩ := summarize_codesOf (α := α) hordinal settings rows
  have hcodes : ∀ code ∈ codes, code ∈ definition.entries.map (·.rank) :=
    fun _ => mem_ranks_of_mem_codesOf hordinal
  have hdescribes := describes_ofCodes (α := α) hlabels hranks hcodes definition.passRule
    excluded settings.percentiles
  refine ⟨_, hsummary, htotal, hdescribes, fun greatest hmem hgreatest => ?_⟩
  have hall : codes.countP (· ≤ greatest.rank) = codes.length :=
    countP_le_greatest hordinal rows hgreatest
  refine ⟨hall, ?_⟩
  rw [hdescribes.cdf.find?_rank hmem, hdescribes.scored, hall]

/-- A scale that is declared out of order, with an acceptable label that is repeated, one that is
not on the scale, and a row that is not on it either. -/
theorem summarize_describes_codes_unsorted_scale :
    let definition := Definition.ordinal "grade" [⟨"good", 3⟩, ⟨"bad", -2⟩, ⟨"fair", 0⟩]
      ⟨some ["good", "superb", "good"], some 0⟩
    let rows : List ScoredRow :=
      [⟨1, .label "good"⟩, ⟨2, .label "superb"⟩, ⟨3, .label "bad"⟩, ⟨4, .label "fair"⟩]
    definition.validate = .ok () ∧ definition.scoringType = .ordinal ∧
    ∃ summary : Summary Float,
      summarize definition .standard false (rows.map .row) = (.ok (.ordinal summary), false) ∧
      summary.scored + summary.excluded = 4 ∧
      summary.Describes definition.entries ⟨some ["good", "superb", "good"], some 0⟩ [3, -2, 0] ∧
      summary.passRate.passed = 2 ∧
      Keyed.find? 0 summary.cdf = some (Arithmetic.proportion 2 3) ∧
      Keyed.find? 3 summary.cdf = some (Arithmetic.proportion 3 3) := by
  intro definition rows
  have hvalid : definition.validate = .ok () := by decide
  have hcodes : codesOf definition rows = [3, -2, 0] := by decide +kernel
  obtain ⟨summary, hsummary, htotal, hdescribes, -⟩ :=
    summarize_describes_codes (α := Float) hvalid rfl .standard rows
  rw [hcodes] at hdescribes
  refine ⟨hvalid, rfl, summary, hsummary, htotal, hdescribes, ?_, ?_, ?_⟩
  · rw [hdescribes.passed]
    decide
  · exact hdescribes.cdf.find?_rank (show ⟨"fair", 0⟩ ∈ definition.entries by decide)
  · exact hdescribes.cdf.find?_rank (show ⟨"good", 3⟩ ∈ definition.entries by decide)

end Rows

end Ordinal

end Scorebook
