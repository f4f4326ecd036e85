/-!
# Values of a settings file

The values that a settings file can hold. Dates and times are recognized but carry nothing here,
because no setting is one.
-/

namespace Scorebook

/-- A value of a settings file. -/
inductive Toml where
  | string (content : String)
  | int (value : Int)
  | float (value : Float)
  | bool (value : Bool)
  /-- A date, a time, or both. -/
  | moment
  | array (items : List Toml)
  /-- A table on one line. -/
  | inline (entries : List (String × Toml))
  deriving Repr, Inhabited

end Scorebook
