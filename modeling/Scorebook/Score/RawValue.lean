import Scorebook.Decimal.Layout
import Scorebook.Decimal.Numeral
import Scorebook.Text.Blank

/-!
# Raw score values

A stored score is a number or a label. Either can be read as the other kind: a label may spell
a number, and a number has a canonical label.
-/

namespace Scorebook

/-- A score as it is stored. -/
inductive RawValue where
  | number (x : Float)
  | label (text : String)
  deriving Repr

namespace RawValue

/-- The number that a label spells once the white space around it is dropped. -/
def spelled? (text : String) : Option Float := readDouble? (trimBlank text.toList)

/-- The value read as a number. Only finite numbers count. -/
def number? : RawValue → Option Float
  | number x => if x.isFinite then some x else none
  | label text => (spelled? text).filter Float.isFinite

/-- The value read as a category label. A number is written in the plain form. -/
def category : RawValue → String
  | label text => text
  | number x => plainNumber x

end RawValue

end Scorebook
