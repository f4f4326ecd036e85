import Scorebook.Join
import Scorebook.Nominal.Association
import Scorebook.Nominal.Summary

/-!
# Paired comparison of nominal scores

Both sides share one coder, the first side being coded before the second on each row, so that a
code means the same label on both sides of the table.
-/

namespace Scorebook

namespace Nominal

/-- The share of one category on each side. -/
structure CategoryShares (α : Type) where
  label : String
  proportionA : α
  proportionB : α
  deriving Repr

/-- The comparison of two nominal sides over their shared rows. -/
structure Comparison (α : Type) where
  paired : Nat
  distribution : List (Int × CategoryShares α)
  table : Table
  agreement : α
  symmetry : SymmetryTest α
  cramersV : Option α
  deriving Repr

/-- The shared rows of a pass so far. -/
structure PairedSample where
  coder : Coder
  sideA : Sample
  sideB : Sample
  table : Table

namespace PairedSample

/-- The sample without rows. -/
def empty (definition : Definition) : PairedSample := ⟨.ofDefinition definition, .empty, .empty, []⟩

/-- Takes in one more row, coding its first value before its second. -/
def pushRow (sample : PairedSample) (row : PairedRow) : PairedSample :=
  let (codeA?, coder) := sample.coder.code row.rawA
  let (codeB?, coder) := coder.code row.rawB
  match codeA?, codeB? with
  | some a, some b =>
    ⟨coder, sample.sideA.push a, sample.sideB.push b, Keyed.bump ⟨a, b⟩ sample.table⟩
  | _, _ => { sample with coder }

/-- The codes that occur on either side, in ascending order. -/
def codes (sample : PairedSample) : List Int :=
  (Keyed.ofList ((sample.sideA.counts ++ sample.sideB.counts).map fun (code, _) =>
    (code, ()))).map (·.1)

/-- The comparison of the rows so far. -/
def comparison {α : Type} [Arithmetic α] [TailTable α] (settings : Settings)
    (sample : PairedSample) : Comparison α :=
  let whole := sample.sideA.scored
  let share (side : Sample) (code : Int) : α :=
    match Keyed.find? code side.counts with
    | some count => Arithmetic.proportion count side.scored
    | none => Arithmetic.ofNat 0
  { paired := whole
    distribution := sample.codes.map fun code =>
      (code, ⟨(sample.coder.labelOf? code).getD "", share sample.sideA code,
        share sample.sideB code⟩)
    table := sample.table
    agreement := Arithmetic.proportion sample.table.diagonal whole
    symmetry := symmetryTest settings sample.table sample.codes
    cramersV := cramersV? sample.table sample.sideA.counts sample.sideB.counts whole }

end PairedSample

end Nominal

end Scorebook
