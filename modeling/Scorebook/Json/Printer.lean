import Scorebook.Decimal.Layout
import Scorebook.Json.Value

/-!
# Writing interchange documents

A value is written on one line without spaces, or on several lines with two spaces for each
level. Both forms keep the order of members. A number that is not finite is written as null.
-/

namespace Scorebook

namespace Json

/-- A character inside a string: quotes, backslashes and control characters are escaped. -/
def encodeChar (c : Char) : List Char :=
  match c with
  | '"' => ['\\', '"']
  | '\\' => ['\\', '\\']
  | '\x08' => ['\\', 'b']
  | '\x0c' => ['\\', 'f']
  | '\n' => ['\\', 'n']
  | '\r' => ['\\', 'r']
  | '\t' => ['\\', 't']
  | _ =>
    if c.toNat < 0x10 then ['\\', 'u', '0', '0', '0'] ++ Nat.toDigits 16 c.toNat
    else if c.toNat < 0x20 then ['\\', 'u', '0', '0'] ++ Nat.toDigits 16 c.toNat
    else [c]

/-- A string as it is written. -/
def encodeText (text : String) : String :=
  String.ofList ('"' :: text.toList.flatMap encodeChar ++ ['"'])

/-- A value without parts as it is written. -/
def encodeLeaf : Json → String
  | bool true => "true"
  | bool false => "false"
  | int value => toString value
  | num value => (interchangeNumber? value).getD "null"
  | str text => encodeText text
  | _ => "null"

mutual

/-- A value on one line. -/
def compact : Json → String
  | arr items => "[" ++ compactItems items ++ "]"
  | obj members => "\x7b" ++ compactMembers members ++ "\x7d"
  | leaf => encodeLeaf leaf

/-- The items of an array on one line. -/
def compactItems : List Json → String
  | [] => ""
  | [item] => compact item
  | item :: rest => compact item ++ "," ++ compactItems rest

/-- The members of an object on one line. -/
def compactMembers : List (String × Json) → String
  | [] => ""
  | [(name, item)] => encodeText name ++ ":" ++ compact item
  | (name, item) :: rest =>
    encodeText name ++ ":" ++ compact item ++ "," ++ compactMembers rest

end

/-- A line break and the indentation of a level. -/
def breakTo (level : Nat) : String := "\n" ++ String.ofList (List.replicate (2 * level) ' ')

mutual

/-- A value on several lines, its closing bracket at the given level. -/
def prettyAt (level : Nat) : Json → String
  | arr [] => "[]"
  | arr items => "[" ++ prettyItems (level + 1) items ++ breakTo level ++ "]"
  | obj [] => "\x7b\x7d"
  | obj members => "\x7b" ++ prettyMembers (level + 1) members ++ breakTo level ++ "\x7d"
  | leaf => encodeLeaf leaf

/-- The items of an array, each on lines of its own. -/
def prettyItems (level : Nat) : List Json → String
  | [] => ""
  | [item] => breakTo level ++ prettyAt level item
  | item :: rest => breakTo level ++ prettyAt level item ++ "," ++ prettyItems level rest

/-- The members of an object, each on lines of its own. -/
def prettyMembers (level : Nat) : List (String × Json) → String
  | [] => ""
  | [(name, item)] => breakTo level ++ encodeText name ++ ": " ++ prettyAt level item
  | (name, item) :: rest =>
    breakTo level ++ encodeText name ++ ": " ++ prettyAt level item ++ ","
      ++ prettyMembers level rest

end

/-- A document on several lines. -/
def pretty (value : Json) : String := prettyAt 0 value

end Json

end Scorebook
