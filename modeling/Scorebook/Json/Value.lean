/-!
# Interchange values

The values that definitions, records and reports are exchanged as. Whole numbers and other
numbers are told apart, because a code or a row key must be written as a whole number. The
members of an object keep their order.
-/

namespace Scorebook

/-- A value of the interchange format. -/
inductive Json where
  | null
  | bool (value : Bool)
  /-- A whole number written without a fraction and without an exponent. -/
  | int (value : Int)
  /-- Any other number. -/
  | num (value : Float)
  | str (text : String)
  | arr (items : List Json)
  /-- Named members in the order in which they are written. -/
  | obj (members : List (String × Json))
  deriving Repr, Inhabited

namespace Json

/-- The value of the last member of that name, where a repeated name replaces the earlier one. -/
def member? (name : String) : List (String × Json) → Option Json
  | [] => none
  | (key, value) :: rest =>
    match member? name rest with
    | some later => some later
    | none => if key = name then some value else none

/-- The value of a member of an object, nothing for other values. -/
def field? (name : String) : Json → Option Json
  | obj members => member? name members
  | _ => none

/-- The text that a string value holds. -/
def text? : Json → Option String
  | str text => some text
  | _ => none

/-- A value that may be absent, written as null then. -/
def ofOption {α : Type} (encode : α → Json) : Option α → Json
  | none => null
  | some x => encode x

/-- A member that is left out when its value is absent. -/
def optionalMember {α : Type} (name : String) (encode : α → Json) :
    Option α → List (String × Json)
  | none => []
  | some x => [(name, encode x)]

/-- A count as a value. -/
def count (n : Nat) : Json := int n

end Json

end Scorebook
