/-!
# Physical lines

A line ends at a line feed, and a carriage return just before that line feed belongs to the
line end. What follows the last line feed is a line unless it is empty. The same rule cuts a
text into lines of characters and a file into lines of bytes.
-/

namespace Scorebook

namespace Lines

variable {α : Type}

/-- Drops a carriage return at the end of a line that is held in reverse. -/
def dropReturn (isReturn : α → Bool) : List α → List α
  | [] => []
  | c :: rest => if isReturn c then rest else c :: rest

/-- Cuts what is left into lines; the line at hand is held in reverse. -/
def cut (isFeed isReturn : α → Bool) : List α → List α → List (List α)
  | [], [] => []
  | line, [] => [line.reverse]
  | line, c :: rest =>
    if isFeed c then (dropReturn isReturn line).reverse :: cut isFeed isReturn [] rest
    else cut isFeed isReturn (c :: line) rest

end Lines

/-- The lines of a text. -/
def linesOfText (text : List Char) : List (List Char) :=
  Lines.cut (· = '\n') (· = '\r') [] text

/-- The lines of a file, each a text unless its bytes are not well-formed UTF-8. -/
def linesOfBytes (bytes : ByteArray) : List (Option String) :=
  (Lines.cut (· = 10) (· = 13) [] bytes.toList).map fun line => String.fromUTF8? ⟨line.toArray⟩

end Scorebook
