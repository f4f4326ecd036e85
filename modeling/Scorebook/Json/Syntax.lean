import Scorebook.Decimal.Numeral
import Scorebook.Json.Value
import Scorebook.Word

/-!
# The grammar of interchange documents

A document is first read by the grammar alone. Its strings are then sequences of characters and
16-bit units, and its numbers numerals of any size, so that a part nobody asks for need only be
grammatical. A value exists when in addition the units of every string pair up to characters
and every number lies in the range of doubles.
-/

namespace Scorebook

/-- A part of a string: a character that stands for itself, or a unit given by its number. -/
inductive JsonPiece where
  | char (c : Char)
  | unit (code : Nat)
  deriving Repr, DecidableEq

/-- A document as the grammar reads it. -/
inductive JsonSyntax where
  | null
  | bool (value : Bool)
  /-- A number, and whether it is written without a fraction and without an exponent. -/
  | number (numeral : Numeral) (whole : Bool)
  | string (pieces : List JsonPiece)
  | array (items : List JsonSyntax)
  | object (members : List (List JsonPiece × JsonSyntax))
  deriving Repr, Inhabited

namespace JsonSyntax

/-- The white space of the grammar. -/
def isSpace (c : Char) : Bool := c = ' ' || c = '\n' || c = '\t' || c = '\r'

/-- A text without the white space in front of it. -/
def skipSpace (text : List Char) : List Char := text.dropWhile isSpace

/-- The value of a hexadecimal digit. -/
def hexDigit? (c : Char) : Option Nat :=
  if '0' ≤ c && c ≤ '9' then some (c.toNat - '0'.toNat)
  else if 'a' ≤ c && c ≤ 'f' then some (c.toNat - 'a'.toNat + 10)
  else if 'A' ≤ c && c ≤ 'F' then some (c.toNat - 'A'.toNat + 10)
  else none

/-- The unit that four hexadecimal digits give. -/
def unitOf? (a b c d : Char) : Option Nat := do
  let a ← hexDigit? a
  let b ← hexDigit? b
  let c ← hexDigit? c
  let d ← hexDigit? d
  return ((a * 16 + b) * 16 + c) * 16 + d

/-- The character that a single letter stands for behind a backslash. -/
def escaped? : Char → Option Char
  | '"' => some '"'
  | '\\' => some '\\'
  | '/' => some '/'
  | 'b' => some '\x08'
  | 'f' => some '\x0c'
  | 'n' => some '\n'
  | 'r' => some '\r'
  | 't' => some '\t'
  | _ => none

/-- Reads a string behind its opening quote. A control character must be escaped. -/
def readString : List Char → Option (List JsonPiece × List Char)
  | '"' :: rest => some ([], rest)
  | '\\' :: 'u' :: a :: b :: c :: d :: rest => do
    let code ← unitOf? a b c d
    let (pieces, rest) ← readString rest
    return (.unit code :: pieces, rest)
  | '\\' :: letter :: rest => do
    let c ← escaped? letter
    let (pieces, rest) ← readString rest
    return (.char c :: pieces, rest)
  | c :: rest =>
    if c = '\\' ∨ c.toNat < 0x20 then none
    else do
      let (pieces, rest) ← readString rest
      return (.char c :: pieces, rest)
  | [] => none

/-- Reads a number: no sign but a minus, no leading zero before another digit, and digits on
both sides of a point. -/
def readNumber (text : List Char) : Option (JsonSyntax × List Char) :=
  let (negative, unsigned) := match text with
    | '-' :: rest => (true, rest)
    | rest => (false, rest)
  let (whole, afterWhole) := match unsigned with
    | '0' :: rest => (DigitRun.empty.push '0', rest)
    | rest => DigitRun.read rest
  if whole.length = 0 then none
  else
    let (run, afterFraction) := match afterWhole with
      | '.' :: fraction => whole.extend fraction
      | rest => (whole, rest)
    let hasPoint := afterWhole.head? = some '.'
    if hasPoint ∧ run.length = whole.length then none
    else do
      let (exponent, rest) ← readExponent? afterFraction
      let places : Int := run.length - whole.length
      let hasExponent := afterFraction.head? = some 'e' ∨ afterFraction.head? = some 'E'
      return (.number ⟨negative, run.value, exponent - places⟩ (¬hasPoint ∧ ¬hasExponent), rest)

mutual

/-- Reads a value, white space in front of it skipped. The fuel bounds the number of values
and separators still to come, so the length of the text suffices. -/
def readValue : Nat → List Char → Option (JsonSyntax × List Char)
  | 0, _ => none
  | fuel + 1, text =>
    match skipSpace text with
    | 'n' :: 'u' :: 'l' :: 'l' :: rest => some (.null, rest)
    | 't' :: 'r' :: 'u' :: 'e' :: rest => some (.bool true, rest)
    | 'f' :: 'a' :: 'l' :: 's' :: 'e' :: rest => some (.bool false, rest)
    | '"' :: rest => (readString rest).map fun (pieces, rest) => (.string pieces, rest)
    | '[' :: rest =>
      match skipSpace rest with
      | ']' :: rest => some (.array [], rest)
      | _ => (readItems fuel rest).map fun (items, rest) => (.array items, rest)
    | '{' :: rest =>
      match skipSpace rest with
      | '}' :: rest => some (.object [], rest)
      | _ => (readMembers fuel rest).map fun (members, rest) => (.object members, rest)
    | rest => readNumber rest

/-- Reads the items of an array up to its closing bracket; there is at least one. -/
def readItems : Nat → List Char → Option (List JsonSyntax × List Char)
  | 0, _ => none
  | fuel + 1, text => do
    let (item, rest) ← readValue fuel text
    match skipSpace rest with
    | ',' :: rest =>
      let (items, rest) ← readItems fuel rest
      return (item :: items, rest)
    | ']' :: rest => return ([item], rest)
    | _ => none

/-- Reads the members of an object up to its closing brace; there is at least one. -/
def readMembers : Nat → List Char → Option (List (List JsonPiece × JsonSyntax) × List Char)
  | 0, _ => none
  | fuel + 1, text => do
    match skipSpace text with
    | '"' :: rest =>
      let (name, rest) ← readString rest
      match skipSpace rest with
      | ':' :: rest =>
        let (value, rest) ← readValue fuel rest
        match skipSpace rest with
        | ',' :: rest =>
          let (members, rest) ← readMembers fuel rest
          return ((name, value) :: members, rest)
        | '}' :: rest => return ([(name, value)], rest)
        | _ => none
      | _ => none
    | _ => none

end

/-- Reads a document: one value, with nothing but white space around it. -/
def ofText? (text : String) : Option JsonSyntax := do
  let characters := text.toList
  let (value, rest) ← readValue (characters.length + 1) characters
  if (skipSpace rest).isEmpty then some value else none

/-- The text that the pieces of a string spell. A unit of the first surrogate range must be
followed by one of the second, and the two make one character. -/
def spell? : List JsonPiece → Option (List Char)
  | [] => some []
  | .char c :: rest => (spell? rest).map (c :: ·)
  | .unit high :: .unit low :: rest =>
    if 0xD800 ≤ high ∧ high < 0xDC00 then
      if 0xDC00 ≤ low ∧ low < 0xE000 then
        (spell? rest).map (Char.ofNat (0x10000 + (high - 0xD800) * 0x400 + (low - 0xDC00)) :: ·)
      else none
    else if 0xDC00 ≤ high ∧ high < 0xE000 then none
    else (spell? (.unit low :: rest)).map (Char.ofNat high :: ·)
  | .unit code :: rest =>
    if 0xD800 ≤ code ∧ code < 0xE000 then none else (spell? rest).map (Char.ofNat code :: ·)

/-- The text of a string, if it has one. -/
def spelling? (pieces : List JsonPiece) : Option String := (spell? pieces).map String.ofList

/-- The value of a number. A whole number stays one within 64 bits, except that minus zero is
a double; every other number is the nearest double, which must be finite. -/
def numberValue? (numeral : Numeral) (whole : Bool) : Option Json :=
  let signed : Int := if numeral.negative then -numeral.digits else numeral.digits
  if whole ∧ (Word.isSigned signed ∨ Word.isUnsigned signed) ∧ ¬(numeral.negative ∧ numeral.digits = 0) then some (.int signed)
  else
    let x := numeral.toDouble
    if x.isFinite then some (.num x) else none

mutual

/-- The value of a document, if it has one. -/
def value? : JsonSyntax → Option Json
  | null => some .null
  | bool value => some (.bool value)
  | number numeral whole => numberValue? numeral whole
  | string pieces => (spelling? pieces).map .str
  | array items => (values? items).map .arr
  | object members => (membersOf? members).map .obj

/-- The values of the items of an array. -/
def values? : List JsonSyntax → Option (List Json)
  | [] => some []
  | item :: rest => do return (← value? item) :: (← values? rest)

/-- The values of the members of an object, with their names. -/
def membersOf? : List (List JsonPiece × JsonSyntax) → Option (List (String × Json))
  | [] => some []
  | (name, item) :: rest => do
    return (← spelling? name, ← value? item) :: (← membersOf? rest)

end

mutual

/-- How deeply arrays and objects are nested in a document. -/
def depth : JsonSyntax → Nat
  | array items => depthOfItems items + 1
  | object members => depthOfMembers members + 1
  | _ => 0

/-- The depth of the deepest item. -/
def depthOfItems : List JsonSyntax → Nat
  | [] => 0
  | item :: rest => max (depth item) (depthOfItems rest)

/-- The depth of the deepest member. -/
def depthOfMembers : List (List JsonPiece × JsonSyntax) → Nat
  | [] => 0
  | (_, item) :: rest => max (depth item) (depthOfMembers rest)

end

end JsonSyntax

/-- The value that a text spells, if it is a document and has a value. -/
def Json.ofText? (text : String) : Option Json := do (← JsonSyntax.ofText? text).value?

end Scorebook
