import Scorebook.Keyed
import Scorebook.Settings
import Scorebook.Tail

/-!
# Contingency tables and the test of symmetry

A contingency table counts how often a code of one side meets a code of the other. The test of
symmetry compares each cell with the one across the diagonal, and generalizes the test of two
paired proportions to any number of categories.
-/

namespace Scorebook

namespace Nominal

open Arithmetic

/-- A cell of a contingency table: a code of either side. -/
structure Cell where
  a : Int
  b : Int
  deriving Repr, DecidableEq

/-- Cells are ordered by the code of the first side, then by that of the second. -/
def Cell.order : Cell → Cell → Ordering := compareLex (compareOn Cell.a) (compareOn Cell.b)

instance : Ord Cell := ⟨Cell.order⟩

instance : Std.TransOrd Cell :=
  inferInstanceAs (Std.TransCmp (compareLex (compareOn Cell.a) (compareOn Cell.b)))

instance : Std.LawfulEqOrd Cell where
  eq_of_compare {x y} h := by
    obtain ⟨hfirst, hsecond⟩ := Ordering.then_eq_eq.mp h
    cases x; cases y
    congr
    · exact Std.LawfulEqOrd.eq_of_compare hfirst
    · exact Std.LawfulEqOrd.eq_of_compare hsecond

/-- The counts of the cells that are not empty, in ascending order. -/
abbrev Table := List (Cell × Nat)

namespace Table

/-- The count of a cell. -/
def cell (table : Table) (a b : Int) : Nat := Keyed.countOf ⟨a, b⟩ table

/-- The number of rows in which both sides have the same code. -/
def diagonal (table : Table) : Nat :=
  table.foldl (fun total (cell, count) => if cell.a = cell.b then total + count else total) 0

end Table

/-- The test of symmetry of a contingency table. -/
structure SymmetryTest (α : Type) where
  statistic : α
  df : Nat
  pValue : Option α
  significant : Bool
  deriving Repr

/-- The unordered pairs of different positions of a list, the earlier item first. -/
def unorderedPairs : List Int → List (Int × Int)
  | [] => []
  | code :: rest => rest.map (fun other => (code, other)) ++ unorderedPairs rest

variable {α : Type} [Arithmetic α]

/-- What a pair of codes adds to the statistic: the squared difference of the two cells over
their sum. Empty cells add nothing. -/
def imbalance? (table : Table) (pair : Int × Int) : Option α :=
  let upper : α := ofNat (table.cell pair.1 pair.2)
  let lower : α := ofNat (table.cell pair.2 pair.1)
  if less (ofNat 0) (upper + lower) then some (square (upper - lower) / (upper + lower)) else none

/-- The statistic of the test of symmetry over the given codes. -/
def symmetryStatistic (table : Table) (codes : List Int) : α :=
  sum ((unorderedPairs codes).filterMap (imbalance? table))

/-- The test of symmetry over the given codes, one degree of freedom for each pair of them. -/
def symmetryTest [TailTable α] (settings : Settings) (table : Table) (codes : List Int) :
    SymmetryTest α :=
  let statistic := symmetryStatistic table codes
  let df := codes.length * (codes.length - 1) / 2
  let pValue := if 0 < df then Tail.chiSquare statistic (ofNat df) else none
  ⟨statistic, df, pValue, Tail.isSignificant (ofDouble settings.significanceLevel) pValue⟩

end Nominal

end Scorebook
