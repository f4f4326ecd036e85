import Scorebook.Record.Format
import Scorebook.Store
import Scorebook.Text.Blank
import Scorebook.Text.Lines

/-!
# Loading a store from lines

A store is loaded from lines that hold one record each. Blank lines are skipped but counted, so
that a line which is no record is reported by its number in the file. Any fault ends the load.
-/

namespace Scorebook

namespace Store

/-- Stores the record on a line, which has the given number. A line whose bytes are no text ends
the load as a failure of reading. -/
def loadLine (store : Store) (number : Nat) : Option String → Except SourceFault Store
  | none => .error (.io "stream did not contain valid UTF-8")
  | some line =>
    if allBlank line.toList then .ok store
    else match Record.ofText? line with
      | some record => .ok (store.insertRecord record).2
      | none => .error (.malformed number "not a score record")

/-- Stores the records on the lines from a number onwards. -/
def loadFrom : Nat → Store → List (Option String) → Except SourceFault Store
  | _, store, [] => .ok store
  | number, store, line :: rest => do loadFrom (number + 1) (← store.loadLine number line) rest

/-- The store of the records on the lines of a text. -/
def ofText (text : String) : Except SourceFault Store :=
  loadFrom 1 empty ((linesOfText text.toList).map fun line => some (String.ofList line))

/-- The store of the records on the lines of a file. -/
def ofBytes (bytes : ByteArray) : Except SourceFault Store :=
  loadFrom 1 empty (linesOfBytes bytes)

end Store

end Scorebook
