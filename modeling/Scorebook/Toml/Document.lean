import Scorebook.Toml.Number
import Scorebook.Toml.Text

/-!
# Settings files

A settings file is a list of tables with keys and values. A key may be given once, and a table
may be defined once. A table that was only passed through on the way to another one may still be
defined, and a table that arose from a dotted key may only be extended by dotted keys.
-/

namespace Scorebook

namespace Toml

/-- Reads the items of an array behind its opening bracket. Blanks, comments and line ends may
stand around them, and a comma may follow the last one. The fuel bounds the number of items. -/
def readItems (item : List Char → Option (Toml × List Char)) :
    Nat → List Char → Option (List Toml × List Char)
  | 0, _ => none
  | fuel + 1, text => do
    match ← skipTrivia false text with
    | ']' :: rest => return ([], rest)
    | text =>
      let (value, rest) ← item text
      match ← skipTrivia false rest with
      | ',' :: rest =>
        let (values, rest) ← readItems item fuel rest
        return (value :: values, rest)
      | ']' :: rest => return ([value], rest)
      | _ => none

/-- Reads the pairs of a table on one line behind its opening brace; there is at least one. The
fuel bounds the number of pairs. -/
def readPairs (item : List Char → Option (Toml × List Char)) :
    Nat → List Char → Option (List (List String × Toml) × List Char)
  | 0, _ => none
  | fuel + 1, text => do
    let (path, rest) ← readKey text
    let (value, rest) ← item (skipWhite (← readChar '=' rest))
    match skipWhite rest with
    | ',' :: rest =>
      let (pairs, rest) ← readPairs item fuel rest
      return ((path, value) :: pairs, rest)
    | '\x7d' :: rest => return ([(path, value)], rest)
    | _ => none

/-- How a table came about. -/
structure Origin where
  /-- Whether it was only passed through. -/
  implicit : Bool
  /-- Whether it arose from a dotted key. -/
  dotted : Bool

/-- A table under construction. -/
inductive Node where
  | value (content : Toml)
  | table (origin : Origin) (entries : List (String × Node))
  /-- A list of tables, the latest first. -/
  | tables (items : List (List (String × Node)))

/-- The entries of a table under construction. -/
abbrev Entries := List (String × Node)

namespace Entries

/-- The entry of a key. -/
def get? (key : String) (entries : Entries) : Option Node :=
  (entries.find? (·.1 = key)).map (·.2)

/-- Gives a key an entry, in place of any earlier one. -/
def put (key : String) (node : Node) (entries : Entries) : Entries :=
  (key, node) :: entries.filter (·.1 ≠ key)

end Entries

/-- Changes the table at the end of a path. Tables that are missing on the way are passed
through; a dotted key may not enter a table that was defined otherwise. -/
def descend (dotted : Bool) (change : Bool → Entries → Option Entries) :
    List String → Bool → Entries → Option Entries
  | [], isDotted, entries => change isDotted entries
  | key :: path, _, entries =>
    match Entries.get? key entries with
    | none => do
      let inner ← descend dotted change path dotted []
      return Entries.put key (.table ⟨true, dotted⟩ inner) entries
    | some (.table origin inner) =>
      if dotted ∧ ¬origin.implicit then none
      else do
        let inner ← descend dotted change path origin.dotted inner
        return Entries.put key (.table origin inner) entries
    | some (.tables (latest :: earlier)) => do
      let latest ← descend dotted change path false latest
      return Entries.put key (.tables (latest :: earlier)) entries
    | some _ => none

/-- Adds a pair to a table. The last part of a dotted key must be new in a table that arose from
dotted keys. -/
def addPair (entries : Entries) (pair : List String × Toml) : Option Entries :=
  let path := pair.1.dropLast
  descend true
    (fun isDotted entries => do
      let key ← pair.1.getLast?
      if isDotted = path.isEmpty ∨ (Entries.get? key entries).isSome then none
      else some (Entries.put key (.value pair.2) entries))
    path false entries

/-- Adds the pairs of a section to a table. -/
def addPairs (entries : Entries) (pairs : List (List String × Toml)) : Option Entries :=
  pairs.foldlM addPair entries

/-- Reads a value with tables and arrays nested up to a depth. -/
def readValue : Nat → List Char → Option (Toml × List Char)
  | depth, text =>
    match text with
    | '"' :: _ | '\'' :: _ =>
      (readText text).map fun (content, rest) => (.string (String.ofList content), rest)
    | 't' :: 'r' :: 'u' :: 'e' :: rest => some (.bool true, rest)
    | 'f' :: 'a' :: 'l' :: 's' :: 'e' :: rest => some (.bool false, rest)
    | '[' :: rest =>
      match depth with
      | 0 => none
      | depth + 1 =>
        (readItems (readValue depth) (rest.length + 1) rest).map fun (items, rest) =>
          (.array items, rest)
    | '\x7b' :: rest =>
      match depth with
      | 0 => none
      | depth + 1 =>
        match skipWhite rest with
        | '\x7d' :: rest => some (.inline [], rest)
        | _ => do
          let (pairs, rest) ← readPairs (readValue depth) (rest.length + 1) rest
          let _ ← addPairs [] pairs
          return (.inline (pairs.filterMap fun (path, value) => path.head?.map (·, value)), rest)
    | _ =>
      if startsMoment text then (readMoment text).map fun rest => (.moment, rest)
      else readNumber text

/-- What heads a section. -/
inductive Header where
  | root
  | table (path : List String)
  | tables (path : List String)

/-- A section: its header, and the pairs below it with the latest first. -/
structure Section where
  header : Header
  pairs : List (List String × Toml)

/-- Reads a header behind its opening bracket, up to the end of its line. -/
def readHeader (text : List Char) : Option (Header × List Char) :=
  match text with
  | '[' :: rest => do
    let (path, rest) ← readKey rest
    return (.tables path, ← endLine false (← readChar ']' (← readChar ']' rest)))
  | _ => do
    let (path, rest) ← readKey text
    return (.table path, ← endLine false (← readChar ']' rest))

/-- Reads sections, the one at hand coming first. The fuel bounds the number of lines. -/
def readSections : Nat → Section → List Char → Option (List Section)
  | 0, _, _ => none
  | fuel + 1, current, text => do
    match ← skipTrivia false text with
    | [] => return [current]
    | '[' :: rest =>
      let (header, rest) ← readHeader rest
      return current :: (← readSections fuel ⟨header, []⟩ rest)
    | text =>
      let (path, rest) ← readKey text
      let (value, rest) ← readValue nestingLimit (skipWhite (← readChar '=' rest))
      readSections fuel ⟨current.header, (path, value) :: current.pairs⟩ (← endLine false rest)

/-- Adds a section to a file. A table may be defined where none is, or where one was only passed
through by other headers. -/
def addSection (entries : Entries) (part : Section) : Option Entries :=
  let pairs := part.pairs.reverse
  match part.header with
  | .root => addPairs entries pairs
  | .table path => descend false
    (fun _ entries => do
      let key ← path.getLast?
      let inner : Entries ← match Entries.get? key entries with
        | none => some []
        | some (.table ⟨true, false⟩ inner) => some inner
        | some _ => none
      return Entries.put key (.table ⟨false, false⟩ (← addPairs inner pairs)) entries)
    path.dropLast false entries
  | .tables path => descend false
    (fun _ entries => do
      let key ← path.getLast?
      let earlier : List Entries ← match Entries.get? key entries with
        | none => some []
        | some (.tables items) => some items
        | some _ => none
      return Entries.put key (.tables ((← addPairs [] pairs) :: earlier)) entries)
    path.dropLast false entries

/-- Reads a settings file. A byte order mark in front of it is passed over. -/
def ofText? (text : String) : Option Entries := do
  let characters := match text.toList with
    | '\uFEFF' :: rest => rest
    | all => all
  let sections ← readSections (characters.length + 1) ⟨.root, []⟩ characters
  sections.foldlM addSection []

end Toml

end Scorebook
