import Scorebook.Binary64
import Scorebook.Keyed
import Scorebook.Score.Definition
import Scorebook.Score.RawValue
import Scorebook.Word

/-!
# Category codes

Categories are counted by integer codes. On a declared scale the code of a label is its rank,
and the scale is closed. Otherwise codes are positions: declared labels come first, and any
other label is numbered when it is first observed. Feeding the same values in the same order
always gives the same codes.
-/

namespace Scorebook

/-- The categories known to one pass, with their codes. -/
inductive Coder where
  /-- A closed scale; the code of a label is its declared rank. -/
  | ranked (scale : List ScaleEntry)
  /-- An open list of distinct labels; the code of a label is its position, counted from one. -/
  | positional (labels : List String)
  deriving Repr

namespace Coder

/-- The code that a number stands for: the whole number it is, or the nearest code when it lies
outside their range. -/
def codeOfNumber? (x : Float) : Option Int :=
  (Binary64.ofDouble x).toInt?.map Word.nearest

/-- The label of a rank on a scale, the first one if several are declared. -/
def labelOfRank? (scale : List ScaleEntry) (rank : Int) : Option String :=
  (scale.find? (·.rank = rank)).map (·.label)

/-- The rank of a label on a scale, the last one if several are declared. -/
def rankOfLabel? (scale : List ScaleEntry) (label : String) : Option Int :=
  (scale.reverse.find? (·.label = label)).map (·.rank)

/-- The rank that a number is on a scale. -/
def rankOfNumber? (scale : List ScaleEntry) (x : Float) : Option Int :=
  (codeOfNumber? x).filter fun code => scale.any (·.rank = code)

/-- The rank of a raw value on a scale. A label that is not declared may spell a rank. -/
def rankOf? (scale : List ScaleEntry) : RawValue → Option Int
  | .number x => rankOfNumber? scale x
  | .label text =>
    match rankOfLabel? scale text with
    | some rank => some rank
    | none => (RawValue.spelled? text).bind (rankOfNumber? scale)

/-- The position of a label, counted from one, if it is known. -/
def position? (labels : List String) (label : String) : Option Nat :=
  (labels.idxOf? label).map (· + 1)

/-- The position of a label, and the labels with it: an unknown label goes to the end. -/
def assign (labels : List String) (label : String) : Nat × List String :=
  match position? labels label with
  | some position => (position, labels)
  | none => (labels.length + 1, labels ++ [label])

/-- The coder of an ordinal score. -/
def ordinal (scale : List ScaleEntry) : Coder := ranked scale

/-- The coder of a nominal score. Declared labels take the first codes in the order of the
scale, whatever their ranks. -/
def nominal (scale : List ScaleEntry) : Coder :=
  positional (scale.foldl (fun labels entry => (assign labels entry.label).2) [])

/-- The coder that a definition asks for. A numeric score has no categories of its own. -/
def ofDefinition (definition : Definition) : Coder :=
  match definition.scoringType with
  | .ordinal => ordinal definition.entries
  | _ => nominal definition.entries

/-- The code of a raw value, and the coder with its category. Only a value that is not on a
closed scale has no code. -/
def code (coder : Coder) (raw : RawValue) : Option Int × Coder :=
  match coder with
  | ranked scale => (rankOf? scale raw, coder)
  | positional labels =>
    let (position, labels) := assign labels raw.category
    (some position, positional labels)

/-- The code of a plain label, and the coder with it. -/
def codeOfLabel (coder : Coder) (label : String) : Option Int × Coder :=
  match coder with
  | ranked scale => (rankOfLabel? scale label, coder)
  | positional labels =>
    let (position, labels) := assign labels label
    (some position, positional labels)

/-- The label of a code. -/
def labelOf? (coder : Coder) (code : Int) : Option String :=
  match coder with
  | ranked scale => labelOfRank? scale code
  | positional labels => if 1 ≤ code then labels[(code - 1).toNat]? else none

/-- Every known code with its label, in ascending order of the codes. -/
def labels : Coder → List (Int × String)
  | ranked scale =>
    scale.foldl (fun table entry => Keyed.putNew entry.rank entry.label table) []
  | positional labels => labels.zipIdx.map fun (label, index) => ((index : Int) + 1, label)

/-- The number of known codes. -/
def size (coder : Coder) : Nat := coder.labels.length

/-- Whether no code is known. -/
def isEmpty (coder : Coder) : Bool := coder.labels.isEmpty

end Coder

end Scorebook
