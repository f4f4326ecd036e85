/-!
# Columns of a text report

A column is at least so many characters wide. Widths count characters, and a longer text is
never cut.
-/

namespace Scorebook

/-- A text in a column, at its left edge. -/
def padRight (width : Nat) (text : String) : String :=
  text ++ String.ofList (List.replicate (width - text.length) ' ')

/-- A text in a column, at its right edge. -/
def padLeft (width : Nat) (text : String) : String :=
  String.ofList (List.replicate (width - text.length) ' ') ++ text

end Scorebook
