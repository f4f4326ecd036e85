import Mathlib.Data.Finset.Max
import Scorebook.Proofs.Ordinal.Distribution

/-!
# Percentile categories

The category at a percentage of a population is that of the smallest declared rank with so many of
the rows at or below it. It is found by a search along the running totals, which stops at the first
total that reaches the percentage. For a percentage between one and a hundred there is always such a
rank, some row has it, and a greater percentage has no smaller rank. The percentages that usable
settings list are all of this kind.
-/

namespace Scorebook

namespace Ordinal

/-- A rank is the one at a percentage of some codes: the smallest declared rank with so many of the
codes at or below it. -/
def IsRankAt (scale : List ScaleEntry) (codes : List ℤ) (percent : ℕ) (rank : ℤ) : Prop :=
  IsLeast {rank | rank ∈ scale.map (·.rank) ∧
    percent * codes.length ≤ 100 * codes.countP (· ≤ rank)} rank

/-- A label is the category at a percentage of some codes: the label of the rank there. -/
def IsCategoryAt (scale : List ScaleEntry) (codes : List ℤ) (percent : ℕ) (label : String) : Prop :=
  ∃ rank, IsRankAt scale codes percent rank ∧ ⟨label, rank⟩ ∈ scale

/-- Different percentages are reported under different names. -/
theorem percentileName_injective : Function.Injective percentileName := by
  intro percent other heq
  have htext : percent.repr = other.repr := (String.append_right_inj _).mp heq
  have hdigits : Nat.toDigits 10 percent = Nat.toDigits 10 other := by
    rw [← Nat.toList_repr, ← Nat.toList_repr, htext]
  rw [← Nat.ofDigitChars_ten_toDigits (n := percent), hdigits, Nat.ofDigitChars_ten_toDigits]

/-- The first entry of an ascending table that satisfies a condition has the smallest key of all
that do. -/
theorem find?_ascending_iff {ν : Type} {table : List (ℤ × ν)} (h : Keyed.Ascending table)
    (p : ℤ × ν → Bool) {key : ℤ} : (table.find? p).map (·.1) = some key ↔
      IsLeast {key | ∃ value, (key, value) ∈ table ∧ p (key, value) = true} key := by
  induction table with
  | nil => simp [IsLeast]
  | cons entry rest ih =>
    obtain ⟨hfirst, hrest⟩ := List.pairwise_cons.mp h
    by_cases hp : p entry = true
    · -- The first entry is found, and all others have greater keys.
      have hleast : IsLeast {key | ∃ value, (key, value) ∈ entry :: rest ∧ p (key, value) = true}
          entry.1 := by
        refine ⟨⟨entry.2, List.mem_cons_self, hp⟩, ?_⟩
        rintro other ⟨value, hmem, -⟩
        rcases List.mem_cons.mp hmem with heq | hmem
        · rw [← heq]
        · exact (Int.compare_eq_lt.mp (hfirst _ hmem)).le
      rw [List.find?_cons_of_pos hp, Option.map_some, Option.some.injEq]
      constructor
      · rintro rfl
        exact hleast
      · exact hleast.unique
    · -- An entry that is passed over is none of those whose keys are compared.
      have hsame : {key | ∃ value, (key, value) ∈ entry :: rest ∧ p (key, value) = true} =
          {key | ∃ value, (key, value) ∈ rest ∧ p (key, value) = true} := by
        ext other
        refine exists_congr fun value => and_congr_left fun hvalue => ?_
        refine List.mem_cons.trans (or_iff_right fun heq => hp ?_)
        rwa [← heq]
      rw [List.find?_cons_of_neg hp, ih hrest, hsame]

section Ranks

variable {scale : List ScaleEntry} {codes : List ℤ} {percent other : ℕ} {rank rank' : ℤ}

/-- A greater percentage has no smaller rank. -/
theorem IsRankAt.mono (h : IsRankAt scale codes percent rank)
    (hother : IsRankAt scale codes other rank') (hle : percent ≤ other) : rank ≤ rank' := by
  obtain ⟨hmem, hreaches⟩ := hother.1
  exact h.2 ⟨hmem, (Nat.mul_le_mul_right _ hle).trans hreaches⟩

/-- As many codes are at or below a rank as are at or below the greatest of these codes. -/
theorem exists_mem_countP_le_eq (hpos : 0 < codes.countP (· ≤ rank)) :
    ∃ greatest ∈ codes, greatest ≤ rank ∧
      codes.countP (· ≤ greatest) = codes.countP (· ≤ rank) := by
  obtain ⟨code, hcode, hle⟩ := List.countP_pos_iff.mp hpos
  have hbelow : (codes.toFinset.filter (· ≤ rank)).Nonempty :=
    ⟨code, Finset.mem_filter.mpr ⟨List.mem_toFinset.mpr hcode, by simpa using hle⟩⟩
  obtain ⟨greatest, hgreatest, hmax⟩ := Finset.exists_max_image _ id hbelow
  obtain ⟨hmem, hle⟩ := Finset.mem_filter.mp hgreatest
  refine ⟨greatest, List.mem_toFinset.mp hmem, hle, List.countP_congr fun other hother => ?_⟩
  simp only [decide_eq_true_eq]
  refine ⟨fun hother' => hother'.trans hle, fun hother' => ?_⟩
  exact hmax other (Finset.mem_filter.mpr ⟨List.mem_toFinset.mpr hother, hother'⟩)

/-- The rank at a percentage above zero is that of some code, since the greatest code at or below it
has as many codes at or below it. -/
theorem IsRankAt.mem_codes (h : IsRankAt scale codes percent rank)
    (hcodes : ∀ code ∈ codes, code ∈ scale.map (·.rank)) (hne : codes ≠ [])
    (hpercent : 0 < percent) : rank ∈ codes := by
  obtain ⟨-, hreaches⟩ := h.1
  have hcount : 0 < codes.countP (· ≤ rank) := by
    have hpos := Nat.mul_pos hpercent (List.length_pos_iff.mpr hne)
    omega
  obtain ⟨greatest, hmem, hle, hsame⟩ := exists_mem_countP_le_eq hcount
  have hleast : rank ≤ greatest := h.2 ⟨hcodes greatest hmem, by rwa [hsame]⟩
  rwa [le_antisymm hleast hle]

/-- There is a rank at every percentage up to a hundred. -/
theorem exists_isRankAt (hcodes : ∀ code ∈ codes, code ∈ scale.map (·.rank)) (hne : codes ≠ [])
    (hpercent : percent ≤ 100) : ∃ rank, IsRankAt scale codes percent rank := by
  obtain ⟨greatest, hgreatest, hmax⟩ :=
    codes.toFinset.exists_max_image id (List.toFinset_nonempty_iff _ |>.mpr hne)
  have hgreatest := List.mem_toFinset.mp hgreatest
  have hall : codes.countP (· ≤ greatest) = codes.length :=
    List.countP_eq_length.mpr fun code hcode => by
      simpa using hmax code (List.mem_toFinset.mpr hcode)
  let reaching := (scale.map (·.rank)).toFinset.filter fun rank =>
    percent * codes.length ≤ 100 * codes.countP (· ≤ rank)
  have hreaching : reaching.Nonempty := by
    refine ⟨greatest, Finset.mem_filter.mpr ⟨List.mem_toFinset.mpr (hcodes greatest hgreatest), ?_⟩⟩
    rw [hall]
    exact Nat.mul_le_mul_right _ hpercent
  have hleast := reaching.isLeast_min' hreaching
  refine ⟨reaching.min' hreaching, ?_⟩
  simpa [IsRankAt, reaching] using hleast

/-- The search along running totals finds the rank at a percentage. -/
theorem codeAt?_eq_some_iff {totals : List (ℤ × ℕ)}
    (h : Tabulates totals scale fun entry => codes.countP (· ≤ entry.rank)) :
    codeAt? totals codes.length percent = some rank ↔
      codes ≠ [] ∧ IsRankAt scale codes percent rank := by
  have hset : {rank | ∃ total, (rank, total) ∈ totals ∧
      decide (percent * codes.length ≤ total * 100) = true} =
      {rank | rank ∈ scale.map (·.rank) ∧
        percent * codes.length ≤ 100 * codes.countP (· ≤ rank)} := by
    ext rank
    constructor
    · rintro ⟨total, hmem, hle⟩
      obtain ⟨entry, hentry, heq⟩ := List.mem_map.mp (h.perm.mem_iff.mp hmem)
      cases heq
      exact ⟨List.mem_map_of_mem hentry, by simpa [Nat.mul_comm] using hle⟩
    · rintro ⟨hmem, hle⟩
      obtain ⟨entry, hentry, rfl⟩ := List.mem_map.mp hmem
      exact ⟨_, h.perm.mem_iff.mpr (List.mem_map_of_mem hentry), by simpa [Nat.mul_comm] using hle⟩
  unfold codeAt?
  by_cases hne : codes = []
  · simp [hne]
  · have hlength : codes.length ≠ 0 := fun hzero => hne (List.length_eq_zero_iff.mp hzero)
    rw [if_neg hlength, and_iff_right hne, IsRankAt, ← hset]
    exact find?_ascending_iff h.ascending _

end Ranks

/-- A summary reports the category at each of some percentages under the name of the percentage, and
the one at fifty as the median. -/
structure Summary.ReportsCategories {α : Type} (summary : Summary α) (scale : List ScaleEntry)
    (codes : List ℤ) (percents : List ℕ) : Prop where
  /-- No name has two categories. -/
  ascending : Keyed.Ascending summary.percentiles
  names : ∀ name, name ∈ summary.percentiles.map (·.1) ↔
    ∃ percent ∈ percents, percentileName percent = name
  category : ∀ percent ∈ percents, ∃ label, IsCategoryAt scale codes percent label ∧
    Keyed.find? (percentileName percent) summary.percentiles = some label
  median : ∃ label, IsCategoryAt scale codes 50 label ∧ summary.median = some label

section Ranked

variable {α : Type} [Arithmetic α] {scale : List ScaleEntry} {rule : Option PassRule}
  {codes : List ℤ} {excluded : ℕ} {percents : List ℕ} {label : String}

/-- A summary has one category at most under each name. -/
theorem percentiles_ascending (sample : Sample) (coder : Coder) (percents : List ℕ) :
    Keyed.Ascending (sample.summary coder percents : Summary α).percentiles :=
  Keyed.ascending_ofList _

/-- There is a category at every percentage up to a hundred. -/
theorem exists_isCategoryAt (hcodes : ∀ code ∈ codes, code ∈ scale.map (·.rank)) (hne : codes ≠ [])
    {percent : ℕ} (hpercent : percent ≤ 100) : ∃ label, IsCategoryAt scale codes percent label := by
  obtain ⟨rank, hrank⟩ := exists_isRankAt hcodes hne hpercent
  obtain ⟨entry, hentry, rfl⟩ := List.mem_map.mp hrank.1.1
  exact ⟨entry.label, entry.rank, hrank, hentry⟩

section Summary

variable (hranks : (scale.map (·.rank)).Nodup) (hcodes : ∀ code ∈ codes, code ∈ scale.map (·.rank))

include hranks hcodes

/-- The label of the rank that the search finds is the category at the percentage. -/
theorem codeAt?_bind_labelOf?_iff {percent : ℕ} :
    (codeAt? (cumulative 0 (Sample.ofCodes rule (.ranked scale) codes excluded).counts)
        codes.length percent).bind (Coder.ranked scale).labelOf? = some label ↔
      codes ≠ [] ∧ IsCategoryAt scale codes percent label := by
  simp only [Option.bind_eq_some_iff, codeAt?_eq_some_iff (tabulates_totals hranks hcodes),
    Coder.labelOf?_ranked_iff hranks, IsCategoryAt, and_assoc, exists_and_left]

/-- The median of a summary is the category at fifty, which is none if there are no codes. -/
theorem median_ofCodes_iff :
    ((Sample.ofCodes rule (.ranked scale) codes excluded).summary (.ranked scale) percents :
      Summary α).median = some label ↔ codes ≠ [] ∧ IsCategoryAt scale codes 50 label :=
  codeAt?_bind_labelOf?_iff hranks hcodes

/-- A summary has a category under a name exactly if it is that of a listed percentage of this
name. -/
theorem find?_percentiles_iff {name : String} :
    Keyed.find? name ((Sample.ofCodes rule (.ranked scale) codes excluded).summary
        (.ranked scale) percents : Summary α).percentiles = some label ↔
      ∃ percent ∈ percents, percentileName percent = name ∧
        codes ≠ [] ∧ IsCategoryAt scale codes percent label := by
  simp only [Sample.summary]
  rw [Keyed.find?_ofList_iff]
  · simp only [List.mem_filterMap, Option.map_eq_some_iff, Prod.mk.injEq]
    refine exists_congr fun percent => and_congr_right fun _ => ?_
    constructor
    · rintro ⟨found, hfound, hname, rfl⟩
      exact ⟨hname, (codeAt?_bind_labelOf?_iff hranks hcodes).mp hfound⟩
    · rintro ⟨hname, hcategory⟩
      exact ⟨label, (codeAt?_bind_labelOf?_iff hranks hcodes).mpr hcategory, hname, rfl⟩
  · -- A percentage may be listed twice, but its name stands for no other one.
    intro pair hpair other hother hname
    obtain ⟨percent, -, hpair⟩ := List.mem_filterMap.mp hpair
    obtain ⟨percent', -, hother⟩ := List.mem_filterMap.mp hother
    obtain ⟨first, hfirst, rfl⟩ := Option.map_eq_some_iff.mp hpair
    obtain ⟨second, hsecond, rfl⟩ := Option.map_eq_some_iff.mp hother
    obtain rfl := percentileName_injective hname
    exact Option.some.inj (hfirst.symm.trans hsecond)

/-- A summary without codes reports no categories. -/
theorem categories_ofCodes_nil (hempty : codes = []) :
    let summary : Summary α :=
      (Sample.ofCodes rule (.ranked scale) codes excluded).summary (.ranked scale) percents
    summary.percentiles = [] ∧ summary.median = none := by
  intro summary
  constructor
  · refine List.eq_nil_iff_forall_not_mem.mpr fun entry hentry => ?_
    have hfound := (percentiles_ascending _ _ _).find?_eq_some_iff.mpr hentry
    obtain ⟨percent, -, -, hne, -⟩ := (find?_percentiles_iff (α := α) hranks hcodes).mp hfound
    exact hne hempty
  · refine Option.eq_none_iff_forall_ne_some.mpr fun label hmedian => ?_
    exact ((median_ofCodes_iff (α := α) hranks hcodes).mp hmedian).1 hempty

/-- A summary of codes reports the categories at all listed percentages, if these are at most a
hundred. -/
theorem reportsCategories_ofCodes (hne : codes ≠ [])
    (hpercents : ∀ percent ∈ percents, percent ≤ 100) :
    ((Sample.ofCodes rule (.ranked scale) codes excluded).summary (.ranked scale) percents :
      Summary α).ReportsCategories scale codes percents := by
  have hcategory : ∀ percent ∈ percents, ∃ label, IsCategoryAt scale codes percent label ∧
      Keyed.find? (percentileName percent) ((Sample.ofCodes rule (.ranked scale) codes
        excluded).summary (.ranked scale) percents : Summary α).percentiles = some label := by
    intro percent hpercent
    obtain ⟨label, hlabel⟩ := exists_isCategoryAt hcodes hne (hpercents percent hpercent)
    exact ⟨label, hlabel,
      (find?_percentiles_iff hranks hcodes).mpr ⟨percent, hpercent, rfl, hne, hlabel⟩⟩
  constructor
  case ascending => exact percentiles_ascending _ _ _
  case names =>
    intro name
    rw [← (percentiles_ascending _ _ _).exists_find?_iff]
    constructor
    · rintro ⟨label, hfound⟩
      obtain ⟨percent, hpercent, hname, -⟩ :=
        (find?_percentiles_iff (α := α) hranks hcodes).mp hfound
      exact ⟨percent, hpercent, hname⟩
    · rintro ⟨percent, hpercent, rfl⟩
      obtain ⟨label, -, hfound⟩ := hcategory percent hpercent
      exact ⟨label, hfound⟩
  case category => exact hcategory
  case median =>
    obtain ⟨label, hlabel⟩ := exists_isCategoryAt hcodes hne (by decide : 50 ≤ 100)
    exact ⟨label, hlabel, (median_ofCodes_iff hranks hcodes).mpr ⟨hne, hlabel⟩⟩

end Summary

end Ranked

/-- An ordinal summary reports categories exactly if it has scored rows. Under usable settings it
then has one for each listed percentage, and a median whether or not fifty is listed. Each is the
category of the smallest declared rank with so many of the rows at or below it, some row has this
rank, and a greater percentage has no smaller rank. -/
theorem summarize_percentiles {α : Type} [Arithmetic α] {definition : Definition}
    (hvalid : definition.validate = .ok ()) (hordinal : definition.scoringType = .ordinal)
    {settings : Settings} (hsettings : settings.validate = .ok ()) (rows : List ScoredRow) :
    let scale := definition.entries
    let codes := codesOf definition rows
    ∃ summary : Summary α,
      summarize definition settings false (rows.map .row) = (.ok (.ordinal summary), false) ∧
      summary.scored = codes.length ∧
      (summary.scored = 0 → summary.percentiles = [] ∧ summary.median = none) ∧
      (summary.scored ≠ 0 →
        summary.ReportsCategories scale codes settings.percentiles ∧
        (∀ percent rank, percent ∈ settings.percentiles ∨ percent = 50 →
          IsRankAt scale codes percent rank → rank ∈ codes) ∧
        ∀ percent other rank rank', percent ≤ other → IsRankAt scale codes percent rank →
          IsRankAt scale codes other rank' → rank ≤ rank') := by
  intro scale codes
  obtain ⟨-, hranks⟩ := Definition.nodup_of_validate_ordinal hvalid hordinal
  obtain ⟨excluded, hsummary, -⟩ := summarize_codesOf (α := α) hordinal settings rows
  have hcodes : ∀ code ∈ codes, code ∈ scale.map (·.rank) :=
    fun _ => mem_ranks_of_mem_codesOf hordinal
  have hpercents : ∀ percent ∈ settings.percentiles, 0 < percent ∧ percent ≤ 100 :=
    (Settings.validate_eq_ok_iff.mp hsettings).2.2.1
  refine ⟨_, hsummary, rfl, fun hzero => ?_, fun hscored => ?_⟩
  · exact categories_ofCodes_nil hranks hcodes (List.length_eq_zero_iff.mp hzero)
  · have hne : codes ≠ [] := fun hempty => hscored (List.length_eq_zero_iff.mpr hempty)
    refine ⟨reportsCategories_ofCodes hranks hcodes hne fun percent hpercent =>
      (hpercents percent hpercent).2, ?_, ?_⟩
    · intro percent rank hpercent hrank
      refine hrank.mem_codes hcodes hne ?_
      rcases hpercent with hpercent | rfl
      · exact (hpercents percent hpercent).1
      · decide
    · exact fun percent other rank rank' hle hrank hrank' => hrank.mono hrank' hle

/-- Half of the rows are met exactly at the lower of two ranks, between two ranks without rows, and
fifty is listed twice. -/
theorem summarize_percentiles_exact_half :
    let definition := Definition.ordinal "grade"
      [⟨"best", 2⟩, ⟨"bad", -1⟩, ⟨"fair", 0⟩, ⟨"good", 1⟩] .empty
    let settings := { Settings.standard with percentiles := [50, 51, 100, 50] }
    let rows : List ScoredRow :=
      [⟨1, .label "fair"⟩, ⟨2, .label "good"⟩, ⟨3, .label "good"⟩, ⟨4, .label "fair"⟩]
    definition.validate = .ok () ∧ definition.scoringType = .ordinal ∧
    settings.validate = .ok () ∧
    ∃ summary : Summary Float,
      summarize definition settings false (rows.map .row) = (.ok (.ordinal summary), false) ∧
      summary.scored = 4 ∧
      summary.ReportsCategories definition.entries [0, 1, 1, 0] [50, 51, 100, 50] ∧
      summary.percentiles = [("p100", "good"), ("p50", "fair"), ("p51", "good")] ∧
      summary.median = some "fair" := by
  intro definition settings rows
  have hvalid : definition.validate = .ok () := by decide
  have hsettings : settings.validate = .ok () :=
    Settings.validate_eq_ok_iff.mpr (by decide +kernel)
  have hcodes : codesOf definition rows = [0, 1, 1, 0] := by decide +kernel
  obtain ⟨summary, hsummary, hscored, -, hreports⟩ :=
    summarize_percentiles (α := Float) hvalid rfl hsettings rows
  rw [hcodes] at hscored hreports
  have hcategories := (hreports (by rw [hscored]; decide)).1
  refine ⟨hvalid, rfl, hsettings, summary, hsummary, hscored, hcategories, ?_, ?_⟩
  · cases hsummary
    decide +kernel
  · cases hsummary
    decide +kernel

end Ordinal

end Scorebook
