import Mathlib.Data.List.Induction
import Scorebook.Numeric.Comparison
import Scorebook.Numeric.Summary
import Scorebook.Proofs.Columns

/-!
# Numeric samples in closed form

A numeric sample is determined by the numbers in the column that was fed to it, and a paired
sample by the pairs of numbers in its rows. The moments of a side are those of its numbers, taken
in the order of the rows.
-/

namespace Scorebook

/-- Taking in one more value after a list of values. -/
theorem Moments.ofList_concat {α : Type} [Arithmetic α] (values : List α) (x : α) :
    ofList (values ++ [x]) = (ofList values).push x := by
  simp [ofList]

/-- The moments of a list count its values. -/
theorem Moments.count_ofList {α : Type} [Arithmetic α] (values : List α) :
    (ofList values).count = values.length := by
  induction values using List.reverseRecOn with
  | nil => rfl
  | append_singleton values x ih => simp [ofList_concat, push, ih]

namespace Numeric

variable {α : Type} [Arithmetic α]

/-- The number that a raw value is read as. -/
def readNumber? (raw : RawValue) : Option α := raw.number?.map Arithmetic.ofDouble

/-- The sample that a column leaves. -/
def Sample.ofColumn (column : List RawValue) : Sample α where
  moments := .ofList (column.filterMap readNumber?)
  values := (column.filterMap readNumber?).reverse
  excluded := column.countP fun raw => raw.number?.isNone

/-- Taking in a column one value at a time leaves the sample of the column. -/
theorem Sample.foldl_pushRaw (column : List RawValue) :
    column.foldl pushRaw empty = (ofColumn column : Sample α) := by
  induction column using List.reverseRecOn with
  | nil => rfl
  | append_singleton column raw ih =>
    rw [List.foldl_append, ih, List.foldl_cons, List.foldl_nil]
    cases hnumber : raw.number? with
    | none => simp [pushRaw, exclude, ofColumn, readNumber?, hnumber]
    | some x => simp [pushRaw, push, ofColumn, readNumber?, hnumber, Moments.ofList_concat]

/-- The paired sample that the pairs of numbers of some rows leave. -/
def PairedSample.ofPairs (pairs : List (α × α)) (excluded : ℕ) : PairedSample α where
  sideA := .ofList (pairs.map (·.1))
  sideB := .ofList (pairs.map (·.2))
  differences := .ofList (pairs.map fun pair => pair.2 - pair.1)
  tally := pairs.foldl (fun tally pair => tally.record (compareNumbers pair.2 pair.1)) .empty
  excluded

/-- Taking in rows one at a time leaves the paired sample of their pairs of numbers. -/
theorem PairedSample.foldl_pushRow (rows : List PairedRow) :
    rows.foldl pushRow empty = (ofPairs (PairedRow.readPairs readNumber? rows)
      (PairedRow.unreadable (readNumber? (α := α)) rows) : PairedSample α) := by
  induction rows using List.reverseRecOn with
  | nil => rfl
  | append_singleton rows row ih =>
    rw [List.foldl_append, ih, List.foldl_cons, List.foldl_nil]
    unfold PairedRow.readPairs PairedRow.unreadable
    cases hA : row.rawA.number? with
    | none => simp [pushRow, ofPairs, PairedRow.read?, readNumber?, hA]
    | some a =>
      cases hB : row.rawB.number? with
      | none => simp [pushRow, ofPairs, PairedRow.read?, readNumber?, hA, hB]
      | some b =>
        simp [pushRow, push, ofPairs, PairedRow.read?, readNumber?, hA, hB, Moments.ofList_concat]

end Numeric

end Scorebook
