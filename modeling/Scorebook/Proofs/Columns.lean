import Mathlib.Data.Nat.Notation
import Scorebook.Join

/-!
# Columns of paired rows

A stream that only brings rows has nothing to end its pass early, so the pass is the fold of the
rows. A paired row is read by reading both of its values in the same way. The rows that can be
read on both sides give two columns of values, and reading either column gives the values of
that side, in the same order.
-/

namespace Scorebook

/-- A pass over rows alone succeeds with the fold of the rows. -/
theorem pass_rows {σ α : Type} (step : σ → α → σ) (sample : σ) (rows : List α) :
    pass step sample false (rows.map .row) = (.ok (rows.foldl step sample), false) := by
  induction rows generalizing sample with
  | nil => rfl
  | cons row rest ih => simpa [pass] using ih (step sample row)

namespace PairedRow

/-- The row of the first side. -/
def sideA (row : PairedRow) : ScoredRow := ⟨row.key, row.rawA⟩

/-- The row of the second side. -/
def sideB (row : PairedRow) : ScoredRow := ⟨row.key, row.rawB⟩

/-- The stream of the first sides holds the first column. -/
theorem map_raw_sideA (rows : List PairedRow) :
    (rows.map sideA).map (·.raw) = rows.map (·.rawA) := by
  simp [sideA]

/-- The stream of the second sides holds the second column. -/
theorem map_raw_sideB (rows : List PairedRow) :
    (rows.map sideB).map (·.raw) = rows.map (·.rawB) := by
  simp [sideB]

variable {β : Type} (read : RawValue → Option β)

/-- Both values of a row, if both can be read. -/
def read? (row : PairedRow) : Option (β × β) :=
  match read row.rawA, read row.rawB with
  | some a, some b => some (a, b)
  | _, _ => none

/-- The pairs of values in the rows that can be read on both sides. -/
def readPairs (rows : List PairedRow) : List (β × β) := rows.filterMap (read? read)

/-- The rows that can be read on both sides. -/
def readable (rows : List PairedRow) : List PairedRow :=
  rows.filter fun row => (read row.rawA).isSome && (read row.rawB).isSome

/-- The number of rows that cannot be read on both sides. -/
def unreadable (rows : List PairedRow) : ℕ := rows.countP fun row => (read? read row).isNone

variable (rows : List PairedRow)

/-- A row is read by reading both of its values. -/
theorem read?_eq_some_iff {row : PairedRow} {pair : β × β} : read? read row = some pair ↔
    read row.rawA = some pair.1 ∧ read row.rawB = some pair.2 := by
  obtain ⟨a, b⟩ := pair
  cases hA : read row.rawA <;> cases hB : read row.rawB <;> simp [read?, hA, hB]

/-- A row can be read if both of its values can. -/
theorem isSome_read? (row : PairedRow) :
    (read? read row).isSome = ((read row.rawA).isSome && (read row.rawB).isSome) := by
  cases hA : read row.rawA <;> cases hB : read row.rawB <;> simp [read?, hA, hB]

/-- The values on one side of the readable rows are the values on that side of the pairs. -/
theorem filterMap_readable {raw : PairedRow → RawValue} {pick : β × β → β}
    (hraw : ∀ row pair, read? read row = some pair → read (raw row) = some (pick pair)) :
    ((readable read rows).map raw).filterMap read = (readPairs read rows).map pick := by
  rw [readable, readPairs, List.filterMap_map, List.filterMap_filter, List.map_filterMap]
  congr 1
  funext row
  rw [← isSome_read?]
  cases hread : read? read row with
  | none => rfl
  | some pair => simp [hraw row pair hread]

/-- The first column of the readable rows holds the first values of the pairs. -/
theorem filterMap_rawA_readable :
    ((readable read rows).map (·.rawA)).filterMap read = (readPairs read rows).map (·.1) :=
  filterMap_readable read rows fun _ _ h => ((read?_eq_some_iff read).mp h).1

/-- The second column of the readable rows holds the second values of the pairs. -/
theorem filterMap_rawB_readable :
    ((readable read rows).map (·.rawB)).filterMap read = (readPairs read rows).map (·.2) :=
  filterMap_readable read rows fun _ _ h => ((read?_eq_some_iff read).mp h).2

/-- Each readable row gives one pair. -/
theorem length_readPairs : (readPairs read rows).length = (readable read rows).length := by
  rw [readable, readPairs, List.length_filterMap_eq_countP, List.countP_eq_length_filter]
  simp only [isSome_read?]

/-- The rows that are not readable are the other rows. -/
theorem unreadable_eq : unreadable read rows = rows.length - (readable read rows).length := by
  have hcount : unreadable read rows = rows.countP fun row => ¬(read? read row).isSome :=
    List.countP_congr fun row _ => by simp
  have htotal := List.length_eq_countP_add_countP
    (fun row : PairedRow => (read? read row).isSome) (l := rows)
  rw [hcount, ← length_readPairs, readPairs, List.length_filterMap_eq_countP]
  omega

end PairedRow

end Scorebook
