import Std.Data.TreeMap
import Scorebook.Json.Syntax
import Scorebook.Score.Format
import Scorebook.Score.Validation

/-!
# The registry of definitions

A registry is filled from a document that lists definitions. One unreadable entry spoils no
other score: if it says which score it is about, lookups of that score fail, and otherwise it
is passed over. The last entry about a score decides what its lookup answers.
-/

namespace Scorebook

/-- Definitions by score, and beside them the scores that cannot be looked up because the last
entry about them could not be read. -/
structure Registry where
  definitions : Std.TreeMap String Definition
  /-- Why the last entry about a score could not be read. -/
  rejected : Std.TreeMap String String

namespace Registry

/-- The registry without definitions. -/
def empty : Registry := ⟨∅, ∅⟩

/-- Registers a definition, in place of whatever was held about its score. -/
def insert (registry : Registry) (definition : Definition) : Registry where
  definitions := registry.definitions.insert definition.scoreId definition
  rejected := registry.rejected.erase definition.scoreId

/-- Notes that the entry about a score could not be read, and drops its definition. -/
def reject (registry : Registry) (scoreId reason : String) : Registry where
  definitions := registry.definitions.erase scoreId
  rejected := registry.rejected.insert scoreId reason

/-- The score that an entry is about: the text in its field of that name. -/
def subject? (entry : Json) : Option String := (entry.field? "score_id").bind Json.text?

/-- Takes in one entry of a document. -/
def load (registry : Registry) (entry : Json) : Registry :=
  match Definition.ofJson entry, subject? entry with
  | .ok definition, _ => registry.insert definition
  | .error fault, some scoreId => registry.reject scoreId fault.message
  | .error _, none => registry

/-- Takes in all entries of a document, in their order. -/
def ofEntries (entries : List Json) : Registry := entries.foldl load empty

/-- How deeply arrays and objects of a document may be nested. -/
def depthLimit : Nat := 127

/-- The entries that a document lists. A document that is malformed or no array is refused. -/
def entriesOf? (text : String) : Option (List Json) := do
  let document ← JsonSyntax.ofText? text
  if depthLimit < document.depth then none
  else match ← document.value? with
    | .arr entries => some entries
    | _ => none

/-- Reads a document. Only a document without entries to list is refused. -/
def ofText? (text : String) : Option Registry := (entriesOf? text).map ofEntries

/-- The number of readable definitions. -/
def size (registry : Registry) : Nat := registry.definitions.size

/-- Whether no definition is readable. -/
def isEmpty (registry : Registry) : Bool := registry.size = 0

/-- Looks up the definition of a score. The answer is usable, or says why there is none. -/
def lookup (registry : Registry) (scoreId : String) : Except DefinitionFault Definition :=
  match registry.rejected[scoreId]? with
  | some reason => .error (.unreadable scoreId reason)
  | none =>
    match registry.definitions[scoreId]? with
    | none => .error (.notFound scoreId)
    | some definition => definition.validate.map fun _ => definition

end Registry

end Scorebook
