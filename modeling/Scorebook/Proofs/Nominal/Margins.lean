import Scorebook.Arithmetic.Double
import Scorebook.Proofs.Nominal.ByLabel
import Scorebook.Tail.Double

/-!
# Margins of a contingency table

A paired sample counts the same rows three times: on each side and in the table. The counts are
kept separately and stay consistent: the rows and the columns of the table add up to the counts of
the two sides, and the whole table to the number of rows that were coded. This holds for a coder
of either kind. An open coder codes every row, and then a cell counts the rows with its two
labels.
-/

namespace Scorebook

namespace Coder

/-- A coder has a label for a code. -/
def Knows (coder : Coder) (code : ℤ) : Prop := ∃ label, coder.labelOf? code = some label

/-- The codes of both values of a row, the first value being coded first, and the coder with both
categories. -/
def codeRow (coder : Coder) (row : PairedRow) : Option (ℤ × ℤ) × Coder :=
  let (a?, between) := coder.code row.rawA
  let (b?, coder) := between.code row.rawB
  (match a?, b? with
    | some a, some b => some (a, b)
    | _, _ => none, coder)

variable {coder : Coder} {raw : RawValue} {row : PairedRow}

/-- A coder keeps the labels of its codes when it codes a raw value. -/
theorem Knows.code {code : ℤ} (h : coder.Knows code) (raw : RawValue) :
    (coder.code raw).2.Knows code := by
  cases coder with
  | ranked scale => exact h
  | positional labels =>
    obtain ⟨label, hlabel⟩ := h
    exact ⟨label, labelOf?_of_isPrefix (isPrefix_assign labels raw.category) hlabel⟩

/-- A coder has a label for each code that it gives. -/
theorem knows_code {code : ℤ} (hcode : (coder.code raw).1 = some code) :
    (coder.code raw).2.Knows code := by
  cases coder with
  | ranked scale =>
    obtain ⟨entry, hentry, hrank⟩ := List.mem_map.mp (mem_of_rankOf? hcode)
    have hdeclared : (scale.find? (·.rank = code)).isSome :=
      List.find?_isSome.mpr ⟨entry, hentry, by simpa using hrank⟩
    obtain ⟨first, hfirst⟩ := Option.isSome_iff_exists.mp hdeclared
    exact ⟨first.label, Option.map_eq_some_iff.mpr ⟨first, hfirst, rfl⟩⟩
  | positional labels =>
    obtain rfl := Option.some.inj hcode
    exact ⟨raw.category, labelOf?_assign labels raw.category⟩

/-- Coding a raw value does not change which values have a code. -/
theorem isSome_code_code (coder : Coder) (raw other : RawValue) :
    ((coder.code raw).2.code other).1.isSome = (coder.code other).1.isSome := by
  cases coder <;> rfl

/-- A row has codes if each of its values has one. -/
theorem codeRow_eq_some_iff {pair : ℤ × ℤ} : (coder.codeRow row).1 = some pair ↔
    (coder.code row.rawA).1 = some pair.1 ∧
      ((coder.code row.rawA).2.code row.rawB).1 = some pair.2 := by
  obtain ⟨a, b⟩ := pair
  cases hA : (coder.code row.rawA).1 <;>
    cases hB : ((coder.code row.rawA).2.code row.rawB).1 <;> simp [codeRow, hA, hB]

/-- A row has codes exactly if both of its values are on the scale, whichever is coded first. -/
theorem isSome_codeRow : (coder.codeRow row).1.isSome =
    ((coder.code row.rawA).1.isSome && (coder.code row.rawB).1.isSome) := by
  rw [← isSome_code_code coder row.rawA row.rawB]
  cases hA : (coder.code row.rawA).1 <;>
    cases hB : ((coder.code row.rawA).2.code row.rawB).1 <;> simp [codeRow, hA, hB]

/-- A coder keeps the labels of its codes when it codes a row. -/
theorem Knows.codeRow {code : ℤ} (h : coder.Knows code) (row : PairedRow) :
    (coder.codeRow row).2.Knows code :=
  (h.code row.rawA).code row.rawB

/-- A coder has a label for both codes that it gives a row. -/
theorem knows_codeRow {pair : ℤ × ℤ} (hrow : (coder.codeRow row).1 = some pair) :
    (coder.codeRow row).2.Knows pair.1 ∧ (coder.codeRow row).2.Knows pair.2 := by
  obtain ⟨hA, hB⟩ := codeRow_eq_some_iff.mp hrow
  exact ⟨(knows_code hA).code row.rawB, knows_code hB⟩

/-- Coding a row does not change which values have a code. -/
theorem isSome_code_codeRow (coder : Coder) (row : PairedRow) (raw : RawValue) :
    ((coder.codeRow row).2.code raw).1.isSome = (coder.code raw).1.isSome :=
  (isSome_code_code _ row.rawB raw).trans (isSome_code_code coder row.rawA raw)

end Coder

namespace Nominal

/-- Cells are in ascending order if the first code grows, or stays the same and the second one
grows. -/
theorem Cell.compare_eq_lt_iff {x y : Cell} :
    compare x y = .lt ↔ x.a < y.a ∨ x.a = y.a ∧ x.b < y.b := by
  change compareLex (compareOn Cell.a) (compareOn Cell.b) x y = .lt ↔ _
  simp [compareLex, compareOn, Ordering.then_eq_lt, compare_lt_iff_lt]

namespace Table

/-- The number of rows in the cells that satisfy a condition. -/
def mass (chosen : Cell → Prop) [DecidablePred chosen] (table : Table) : ℕ :=
  (table.map fun entry => if chosen entry.1 then entry.2 else 0).sum

/-- One more row in a cell counts if the cell satisfies the condition. -/
theorem mass_bump (chosen : Cell → Prop) [DecidablePred chosen] (cell : Cell) (table : Table) :
    mass chosen (Keyed.bump cell table) = mass chosen table + if chosen cell then 1 else 0 := by
  refine Keyed.sum_alter (fun cell count => if chosen cell then count else 0) rfl ?_ table
  intro count
  dsimp only [Option.getD_some]
  split_ifs <;> rfl

/-- In a table without empty cells, the entries are the cells that are not empty. -/
theorem mem_iff_cell {table : Table} (hascending : Keyed.Ascending table)
    (hpositive : ∀ entry ∈ table, 0 < entry.2) {a b : ℤ} {count : ℕ} :
    (⟨a, b⟩, count) ∈ table ↔ 0 < count ∧ table.cell a b = count := by
  unfold cell Keyed.countOf
  constructor
  · intro hentry
    have hfound := hascending.find?_eq_some_iff.mpr hentry
    exact ⟨hpositive _ hentry, by rw [hfound, Option.getD_some]⟩
  · rintro ⟨hcount, hcell⟩
    cases hfound : Keyed.find? ⟨a, b⟩ table with
    | none =>
      rw [hfound, Option.getD_none] at hcell
      omega
    | some found =>
      rw [hfound, Option.getD_some] at hcell
      exact hcell ▸ Keyed.mem_of_find? hfound

end Table

/-- One more value adds one to the count of its code. -/
theorem Sample.countOf_push (sample : Sample) (code other : ℤ) :
    Keyed.countOf other (sample.push code).counts =
      Keyed.countOf other sample.counts + if code = other then 1 else 0 := by
  refine (Keyed.countOf_bump code other sample.counts).trans ?_
  simp only [eq_comm]

namespace PairedSample

/-- A row with codes is counted on both sides and in the cell of its codes. Any other row changes
at most the coder. -/
theorem pushRow_eq (sample : PairedSample) (row : PairedRow) :
    sample.pushRow row =
      match (sample.coder.codeRow row).1 with
      | some (a, b) => ⟨(sample.coder.codeRow row).2, sample.sideA.push a, sample.sideB.push b,
          Keyed.bump ⟨a, b⟩ sample.table⟩
      | none => { sample with coder := (sample.coder.codeRow row).2 } := by
  cases hA : (sample.coder.code row.rawA).1 <;>
    cases hB : ((sample.coder.code row.rawA).2.code row.rawB).1 <;>
      simp [pushRow, Coder.codeRow, hA, hB]

/-- A row grows the coder by its categories. -/
theorem coder_pushRow (sample : PairedSample) (row : PairedRow) :
    (sample.pushRow row).coder = (sample.coder.codeRow row).2 := by
  rw [pushRow_eq]
  split <;> rfl

/-- A row with codes counts as scored. -/
theorem scored_pushRow (sample : PairedSample) (row : PairedRow) :
    (sample.pushRow row).sideA.scored =
      sample.sideA.scored + if (sample.coder.codeRow row).1.isSome then 1 else 0 := by
  rw [pushRow_eq]
  cases (sample.coder.codeRow row).1 <;> rfl

/-- The table of a sample and the counts of both sides describe the same rows, and the coder knows
the codes of the table. -/
structure Balances (sample : PairedSample) : Prop where
  /-- The cells are in the order of their codes. -/
  ascending : Keyed.Ascending sample.table
  /-- No cell is empty. -/
  positive : ∀ entry ∈ sample.table, 0 < entry.2
  /-- A row of the table adds up to the count of its code on the first side. -/
  rowSum : ∀ code, sample.table.mass (·.a = code) = Keyed.countOf code sample.sideA.counts
  /-- A column of the table adds up to the count of its code on the second side. -/
  columnSum : ∀ code, sample.table.mass (·.b = code) = Keyed.countOf code sample.sideB.counts
  /-- The whole table adds up to the values of the first side. -/
  whole : sample.table.mass (fun _ => True) = sample.sideA.scored
  /-- Both sides have the same number of values. -/
  sides : sample.sideB.scored = sample.sideA.scored
  /-- Both codes of a cell have a label. -/
  known : ∀ entry ∈ sample.table, sample.coder.Knows entry.1.a ∧ sample.coder.Knows entry.1.b

/-- The sample without rows balances. -/
theorem balances_empty (definition : Definition) : (empty definition).Balances where
  ascending := List.Pairwise.nil
  positive := by simp [empty]
  rowSum _ := rfl
  columnSum _ := rfl
  whole := rfl
  sides := rfl
  known := by simp [empty]

/-- One more row keeps a sample balanced. -/
theorem Balances.pushRow {sample : PairedSample} (h : sample.Balances) (row : PairedRow) :
    (sample.pushRow row).Balances := by
  have hknown : ∀ entry ∈ sample.table, (sample.coder.codeRow row).2.Knows entry.1.a ∧
      (sample.coder.codeRow row).2.Knows entry.1.b := fun entry hentry =>
    ⟨(h.known entry hentry).1.codeRow row, (h.known entry hentry).2.codeRow row⟩
  rw [pushRow_eq]
  cases hrow : (sample.coder.codeRow row).1 with
  | none => exact { h with known := hknown }
  | some pair =>
    have hpair := Coder.knows_codeRow hrow
    exact {
      ascending := h.ascending.alter _ _
      positive := Keyed.forall_mem_alter (fun _ count => 0 < count) h.positive Nat.one_pos
        fun _ _ => Nat.succ_pos _
      rowSum := fun code => by
        rw [Table.mass_bump, h.rowSum, Sample.countOf_push]
      columnSum := fun code => by
        rw [Table.mass_bump, h.columnSum, Sample.countOf_push]
      whole := by
        rw [Table.mass_bump, h.whole, if_pos trivial]
        rfl
      sides := congrArg (· + 1) h.sides
      known := Keyed.forall_mem_alter
        (fun (cell : Cell) _ => (sample.coder.codeRow row).2.Knows cell.a ∧
          (sample.coder.codeRow row).2.Knows cell.b) hknown hpair fun _ _ => hpair }

/-- The sample of any rows balances. -/
theorem balances_ofRows (definition : Definition) (rows : List PairedRow) :
    (ofRows definition rows).Balances := by
  induction rows using List.reverseRecOn with
  | nil => exact balances_empty definition
  | append_singleton rows row ih =>
    rw [ofRows_concat]
    exact ih.pushRow row

/-- The code of a raw value in the coder that a definition starts with. -/
def startCode? (definition : Definition) (raw : RawValue) : Option ℤ :=
  ((Coder.ofDefinition definition).code raw).1

/-- The coder of a pass has codes for the same values as the one that the pass started with. -/
theorem isSome_code_ofRows (definition : Definition) (rows : List PairedRow) (raw : RawValue) :
    ((ofRows definition rows).coder.code raw).1.isSome = (startCode? definition raw).isSome := by
  induction rows using List.reverseRecOn with
  | nil => rfl
  | append_singleton rows row ih =>
    rw [ofRows_concat, coder_pushRow, Coder.isSome_code_codeRow, ih]

/-- The rows that a sample counts are those whose two values have codes. -/
theorem scored_ofRows (definition : Definition) (rows : List PairedRow) :
    (ofRows definition rows).sideA.scored =
      (PairedRow.readable (startCode? definition) rows).length := by
  induction rows using List.reverseRecOn with
  | nil => rfl
  | append_singleton rows row ih =>
    rw [ofRows_concat, scored_pushRow, ih, Coder.isSome_codeRow, isSome_code_ofRows,
      isSome_code_ofRows, PairedRow.readable, PairedRow.readable, List.filter_append, List.length_append]
    cases hrow : (startCode? definition row.rawA).isSome && (startCode? definition row.rawB).isSome
    · simp [List.filter, hrow]
    · simp [List.filter, hrow]

section Open

variable {definition : Definition}

/-- An open coder codes every row. -/
theorem scored_ofRows_of_ne (hopen : definition.scoringType ≠ .ordinal) (rows : List PairedRow) :
    (ofRows definition rows).sideA.scored = rows.length := by
  obtain ⟨labels, hcoder, -⟩ := Coder.ofDefinition_eq_positional_of_ne hopen
  have hcoded : ∀ raw, (startCode? definition raw).isSome := by
    intro raw
    rw [startCode?, hcoder]
    rfl
  rw [scored_ofRows, PairedRow.readable]
  exact congrArg List.length (List.filter_eq_self.mpr fun row _ => by simp [hcoded])

/-- With an open coder a cell counts the rows that have its two labels. -/
theorem cell_ofRows (hopen : definition.scoringType ≠ .ordinal) (rows : List PairedRow)
    (a b : ℤ) : (ofRows definition rows).table.cell a b = rows.countP fun row =>
      (ofRows definition rows).coder.labelOf? a = some row.rawA.category ∧
      (ofRows definition rows).coder.labelOf? b = some row.rawB.category := by
  obtain ⟨labels, hholds⟩ := holds_ofRows_of_ne hopen rows
  have hcoder : (ofRows definition rows).coder = .positional labels :=
    congrArg PairedSample.coder hholds.eq_ofCodes
  -- A known label is found under its code, and under no other one.
  have hcode : ∀ {code : ℤ} {label : String}, label ∈ labels →
      (Coder.codeIn labels label = code ↔
        (Coder.positional labels).labelOf? code = some label) := by
    intro code label hlabel
    constructor
    · rintro rfl
      exact Coder.labelOf?_codeIn hlabel
    · exact Coder.codeIn_eq hholds.nodup
  rw [hcoder, hholds.table_eq, Table.cell, Keyed.countOf_tally, List.map_map, List.count,
    List.countP_map]
  refine List.countP_congr fun row hrow => ?_
  obtain ⟨hA, hB⟩ := hholds.known _ (List.mem_map_of_mem hrow)
  simpa [cellIn, PairedRow.categories] using and_congr (hcode hA) (hcode hB)

/-- With an open coder the diagonal counts the rows that have one label on both sides. -/
theorem diagonal_ofRows (hopen : definition.scoringType ≠ .ordinal) (rows : List PairedRow) :
    (ofRows definition rows).table.diagonal =
      rows.countP fun row => row.rawA.category = row.rawB.category := by
  obtain ⟨labels, hholds⟩ := holds_ofRows_of_ne hopen rows
  rw [hholds.diagonal_eq, List.countP_map]
  rfl

end Open

/-- After any rows the three counts of a sample are consistent, and its comparison reports them:
the table lists each cell that is not empty once, in the order of the first and then of the second
code. With an open coder all rows are paired, the cells count the rows by their two labels, and the
agreement is the share of the rows with one label on both sides. -/
theorem comparison_ofRows_balances {α : Type} [Arithmetic α] [TailTable α]
    (definition : Definition) (settings : Settings) (rows : List PairedRow) :
    let sample := ofRows definition rows
    let comparison : Comparison α := sample.comparison settings
    sample.Balances ∧
    sample.sideA.scored = comparison.paired ∧ sample.sideB.scored = comparison.paired ∧
    comparison.paired = (PairedRow.readable (startCode? definition) rows).length ∧
    comparison.table.Pairwise (fun x y => x.1.a < y.1.a ∨ x.1.a = y.1.a ∧ x.1.b < y.1.b) ∧
    (∀ a b count, (⟨a, b⟩, count) ∈ comparison.table ↔
      0 < count ∧ sample.table.cell a b = count) ∧
    (definition.scoringType ≠ .ordinal →
      comparison.paired = rows.length ∧
      (∀ a b, sample.table.cell a b = rows.countP fun row =>
        sample.coder.labelOf? a = some row.rawA.category ∧
        sample.coder.labelOf? b = some row.rawB.category) ∧
      comparison.agreement = Arithmetic.proportion
        (rows.countP fun row => row.rawA.category = row.rawB.category) comparison.paired) := by
  intro sample comparison
  have hbalances : sample.Balances := balances_ofRows definition rows
  have hordered : comparison.table.Pairwise
      fun x y => x.1.a < y.1.a ∨ x.1.a = y.1.a ∧ x.1.b < y.1.b :=
    hbalances.ascending.imp Cell.compare_eq_lt_iff.mp
  have hentries : ∀ a b count, (⟨a, b⟩, count) ∈ comparison.table ↔
      0 < count ∧ sample.table.cell a b = count := fun _ _ _ =>
    Table.mem_iff_cell hbalances.ascending hbalances.positive
  refine ⟨hbalances, rfl, hbalances.sides, scored_ofRows definition rows, hordered, hentries,
    fun hopen => ⟨scored_ofRows_of_ne hopen rows, cell_ofRows hopen rows, ?_⟩⟩
  exact congrArg (Arithmetic.proportion · sample.sideA.scored) (diagonal_ofRows hopen rows)

/-- A label that is declared has the first code, and two others are numbered as they come. -/
theorem comparison_ofRows_balances_renumbered :
    let definition := Definition.nominal "verdict" (some [⟨"unclear", 7⟩])
    let rows : List PairedRow := [⟨1, .label "bad", .label "good"⟩,
      ⟨2, .label "unclear", .label "bad"⟩, ⟨3, .label "bad", .label "bad"⟩]
    let sample := ofRows definition rows
    let comparison : Comparison Float := sample.comparison .standard
    definition.scoringType ≠ .ordinal ∧ sample.Balances ∧ comparison.paired = 3 ∧
    comparison.table = [(⟨1, 2⟩, 1), (⟨2, 2⟩, 1), (⟨2, 3⟩, 1)] ∧
    sample.table.cell 2 3 = (rows.countP fun row =>
      sample.coder.labelOf? 2 = some row.rawA.category ∧
      sample.coder.labelOf? 3 = some row.rawB.category) ∧
    comparison.agreement = Arithmetic.proportion 1 3 := by
  intro definition rows sample comparison
  have hopen : definition.scoringType ≠ .ordinal := by decide
  obtain ⟨hbalances, -, -, -, -, -, hlabels⟩ :=
    comparison_ofRows_balances (α := Float) definition .standard rows
  obtain ⟨hpaired, hcells, hagreement⟩ := hlabels hopen
  exact ⟨hopen, hbalances, hpaired, rfl, hcells 2 3, hagreement⟩

end PairedSample

end Nominal

end Scorebook
