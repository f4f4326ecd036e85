import Scorebook.Nominal.Symmetry

/-!
# Association of two nominal sides

Cramér's V relates the chi-square statistic of independence to the greatest value it can take,
so that it lies between zero and one whatever the size of the table.
-/

namespace Scorebook

namespace Nominal

open Arithmetic

variable {α : Type} [Arithmetic α]

/-- The count that independence would put into a cell. -/
def expectedCount (rowTotal columnTotal whole : Nat) : α :=
  ofNat rowTotal * ofNat columnTotal / ofNat whole

/-- The chi-square statistic of independence over all codes of both sides. -/
def independenceStatistic (table : Table) (rows columns : List (Int × Nat)) (whole : Nat) : α :=
  sum (rows.flatMap fun (row, rowTotal) => columns.map fun (column, columnTotal) =>
    let expected : α := expectedCount rowTotal columnTotal whole
    square (ofNat (table.cell row column) - expected) / expected)

/-- The share of the independence statistic in its greatest possible value. -/
def associationRatio (table : Table) (rows columns : List (Int × Nat)) (whole : Nat) : α :=
  independenceStatistic table rows columns whole
    / (ofNat whole * ofNat (min rows.length columns.length - 1))

/-- Cramér's V, defined when either side has at least two codes. -/
def cramersV? (table : Table) (rows columns : List (Int × Nat)) (whole : Nat) : Option α :=
  if whole = 0 ∨ min rows.length columns.length < 2 then none
  else some (smaller (ofNat 1) (sqrt (associationRatio table rows columns whole)))

end Nominal

end Scorebook
