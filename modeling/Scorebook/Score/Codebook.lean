import Std.Data.TreeMap
import Scorebook.Score.Definition
import Scorebook.Score.RawValue

/-!
# Codebooks

A codebook numbers the labels of a nominal score as they are met. It is kept in both directions, the
codes by label and the labels by code, beside the code that the next unknown label takes. A declared
scale is entered first, label by label and whatever its ranks. The coder of a nominal score lists
the labels of its codebook in the order of their codes.
-/

namespace Scorebook

/-- The labels that were met, with their codes. -/
structure Codebook where
  /-- The code of each label. -/
  codes : Std.TreeMap String Int
  /-- The label of each code. -/
  labels : Std.TreeMap Int String
  /-- The code of the next label that is not known. -/
  nextCode : Int

namespace Codebook

/-- The codebook without labels. The first code is one. -/
def empty : Codebook := ⟨∅, ∅, 1⟩

/-- Enters a label under the next code. -/
def enter (book : Codebook) (label : String) : Codebook where
  codes := book.codes.insert label book.nextCode
  labels := book.labels.insert book.nextCode label
  nextCode := book.nextCode + 1

/-- The code of a label, and the codebook with it: an unknown label takes the next code. -/
def assign (book : Codebook) (label : String) : Int × Codebook :=
  match book.codes[label]? with
  | some code => (code, book)
  | none => (book.nextCode, book.enter label)

/-- The codebook of a nominal score. A label that the scale repeats takes no new code. -/
def nominal (scale : Option (List ScaleEntry)) : Codebook :=
  (scale.getD []).foldl (fun book entry => (book.assign entry.label).2) empty

/-- The code of a raw value, and the codebook with its category. -/
def code (book : Codebook) (raw : RawValue) : Option Int × Codebook :=
  let (code, book) := book.assign raw.category
  (some code, book)

/-- The code of a plain label, and the codebook with it. -/
def codeOfLabel (book : Codebook) (label : String) : Option Int × Codebook :=
  let (code, book) := book.assign label
  (some code, book)

/-- The label of a code. -/
def labelOf? (book : Codebook) (code : Int) : Option String := book.labels[code]?

/-- Every known code with its label, in ascending order of the codes. -/
def entries (book : Codebook) : List (Int × String) := book.labels.toList

/-- The number of known codes. -/
def size (book : Codebook) : Nat := book.labels.size

end Codebook

end Scorebook
