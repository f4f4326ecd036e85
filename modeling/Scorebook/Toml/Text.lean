import Scorebook.Json.Syntax

/-!
# Blanks, strings and keys of a settings file

Control characters may stand nowhere but for tabs and line ends. A line ends at a line feed,
with or without a carriage return before it, and a carriage return may stand nowhere else.
-/

namespace Scorebook

namespace Toml

/-- Whether a character may stand in a comment or a literal string. -/
def isPlain (c : Char) : Bool := c = '\t' || (0x20 ≤ c.toNat && c ≠ '\x7f')

/-- Whether a character is a blank within a line. -/
def isWhite (c : Char) : Bool := c = ' ' || c = '\t'

/-- A text without the blanks in front of it. -/
def skipWhite (text : List Char) : List Char := text.dropWhile isWhite

/-- A text without the blanks, line ends and comments in front of it. The flag says whether the
text is inside a comment; a comment must be plain. -/
def skipTrivia (inComment : Bool) : List Char → Option (List Char)
  | [] => some []
  | '\n' :: rest => skipTrivia false rest
  | '\r' :: '\n' :: rest => skipTrivia false rest
  | c :: rest =>
    if inComment then if isPlain c then skipTrivia true rest else none
    else if c = '#' then skipTrivia true rest
    else if isWhite c then skipTrivia false rest
    else some (c :: rest)

/-- What is left after the end of a line, behind blanks and a comment. Nothing else may stand
there; the end of the text ends a line as well. -/
def endLine (inComment : Bool) : List Char → Option (List Char)
  | [] => some []
  | '\n' :: rest => some rest
  | '\r' :: '\n' :: rest => some rest
  | c :: rest =>
    if inComment then if isPlain c then endLine true rest else none
    else if c = '#' then endLine true rest
    else if isWhite c then endLine false rest
    else none

/-- The character with a code, if the code is one of a character. -/
def charOfCode? (code : Nat) : Option Char :=
  if code < 0xD800 ∨ (0xE000 ≤ code ∧ code < 0x110000) then some (Char.ofNat code) else none

/-- The character that hexadecimal digits number. -/
def charOfHex? (digits : List Char) : Option Char := do
  let values ← digits.mapM JsonSyntax.hexDigit?
  charOfCode? (values.foldl (fun code digit => code * 16 + digit) 0)

/-- The character that a single letter stands for behind a backslash. -/
def escaped? : Char → Option Char
  | 'b' => some '\x08'
  | 't' => some '\t'
  | 'n' => some '\n'
  | 'f' => some '\x0c'
  | 'r' => some '\r'
  | '"' => some '"'
  | '\\' => some '\\'
  | _ => none

/-- Puts a character in front of what was read. -/
def prepend (c : Char) (read : List Char × List Char) : List Char × List Char :=
  (c :: read.1, read.2)

/-- Reads a string behind its opening quote, up to the closing one on the same line. -/
def readBasic : List Char → Option (List Char × List Char)
  | '"' :: rest => some ([], rest)
  | '\\' :: 'u' :: a :: b :: c :: d :: rest => do
    return prepend (← charOfHex? [a, b, c, d]) (← readBasic rest)
  | '\\' :: 'U' :: a :: b :: c :: d :: e :: f :: g :: h :: rest => do
    return prepend (← charOfHex? [a, b, c, d, e, f, g, h]) (← readBasic rest)
  | '\\' :: letter :: rest => do return prepend (← escaped? letter) (← readBasic rest)
  | c :: rest => if c ≠ '\\' ∧ isPlain c then (readBasic rest).map (prepend c) else none
  | [] => none

/-- Reads a literal string behind its opening quote, up to the closing one on the same line. -/
def readLiteral : List Char → Option (List Char × List Char)
  | '\'' :: rest => some ([], rest)
  | c :: rest => if isPlain c then (readLiteral rest).map (prepend c) else none
  | [] => none

/-- Where a string of several lines stands. -/
inductive BlockMode where
  | content
  /-- Behind a backslash that ends a line: only blanks may follow on it. -/
  | lineEnd
  /-- Behind such a line: blanks and line ends are dropped. -/
  | dropping

/-- Reads a string of several lines behind its opening quotes. Up to two quotes may stand before
the closing three. -/
def readBasicBlock : BlockMode → List Char → Option (List Char × List Char)
  | .lineEnd, '\n' :: rest => readBasicBlock .dropping rest
  | .lineEnd, '\r' :: '\n' :: rest => readBasicBlock .dropping rest
  | .lineEnd, c :: rest => if isWhite c then readBasicBlock .lineEnd rest else none
  | .dropping, '\n' :: rest => readBasicBlock .dropping rest
  | .dropping, '\r' :: '\n' :: rest => readBasicBlock .dropping rest
  | .dropping, ' ' :: rest => readBasicBlock .dropping rest
  | .dropping, '\t' :: rest => readBasicBlock .dropping rest
  | _, '"' :: '"' :: '"' :: '"' :: '"' :: rest => some (['"', '"'], rest)
  | _, '"' :: '"' :: '"' :: '"' :: rest => some (['"'], rest)
  | _, '"' :: '"' :: '"' :: rest => some ([], rest)
  | _, '\\' :: 'u' :: a :: b :: c :: d :: rest => do
    return prepend (← charOfHex? [a, b, c, d]) (← readBasicBlock .content rest)
  | _, '\\' :: 'U' :: a :: b :: c :: d :: e :: f :: g :: h :: rest => do
    return prepend (← charOfHex? [a, b, c, d, e, f, g, h]) (← readBasicBlock .content rest)
  | _, '\\' :: '\n' :: rest => readBasicBlock .dropping rest
  | _, '\\' :: '\r' :: '\n' :: rest => readBasicBlock .dropping rest
  | _, '\\' :: letter :: rest =>
    if isWhite letter then readBasicBlock .lineEnd rest
    else do return prepend (← escaped? letter) (← readBasicBlock .content rest)
  | _, '\n' :: rest => (readBasicBlock .content rest).map (prepend '\n')
  | _, '\r' :: '\n' :: rest => (readBasicBlock .content rest).map (prepend '\n')
  | _, c :: rest =>
    if c ≠ '\\' ∧ isPlain c then (readBasicBlock .content rest).map (prepend c) else none
  | _, [] => none

/-- Reads a literal string of several lines behind its opening quotes. Up to two quotes may stand
before the closing three. -/
def readLiteralBlock : List Char → Option (List Char × List Char)
  | '\'' :: '\'' :: '\'' :: '\'' :: '\'' :: rest => some (['\'', '\''], rest)
  | '\'' :: '\'' :: '\'' :: '\'' :: rest => some (['\''], rest)
  | '\'' :: '\'' :: '\'' :: rest => some ([], rest)
  | '\n' :: rest => (readLiteralBlock rest).map (prepend '\n')
  | '\r' :: '\n' :: rest => (readLiteralBlock rest).map (prepend '\n')
  | c :: rest => if isPlain c then (readLiteralBlock rest).map (prepend c) else none
  | [] => none

/-- A text without the line end in front of it, if there is one. -/
def skipNewline : List Char → List Char
  | '\n' :: rest => rest
  | '\r' :: '\n' :: rest => rest
  | text => text

/-- Reads a string of any of the four forms. -/
def readText : List Char → Option (List Char × List Char)
  | '"' :: '"' :: '"' :: rest => readBasicBlock .content (skipNewline rest)
  | '"' :: rest => readBasic rest
  | '\'' :: '\'' :: '\'' :: rest => readLiteralBlock (skipNewline rest)
  | '\'' :: rest => readLiteral rest
  | _ => none

/-- Whether a character may stand in a key without quotes. -/
def isBareKey (c : Char) : Bool := c.isAlphanum || c = '-' || c = '_'

/-- Reads one part of a key. -/
def readKeyPart : List Char → Option (String × List Char)
  | '"' :: rest => (readBasic rest).map fun (content, rest) => (String.ofList content, rest)
  | '\'' :: rest => (readLiteral rest).map fun (content, rest) => (String.ofList content, rest)
  | text =>
    let bare := text.takeWhile isBareKey
    if bare.isEmpty then none else some (String.ofList bare, text.dropWhile isBareKey)

/-- How deeply values may be nested, and how many parts a key may have. -/
def nestingLimit : Nat := 79

/-- Reads a key of up to so many parts that are joined by points. Blanks around a part count for
nothing. -/
def readKeyParts : Nat → List Char → Option (List String × List Char)
  | 0, _ => none
  | parts + 1, text => do
    let (part, rest) ← readKeyPart (skipWhite text)
    match skipWhite rest with
    | '.' :: rest =>
      let (others, rest) ← readKeyParts parts rest
      return (part :: others, rest)
    | rest => return ([part], rest)

/-- Reads a key. -/
def readKey (text : List Char) : Option (List String × List Char) := readKeyParts nestingLimit text

end Toml

end Scorebook
