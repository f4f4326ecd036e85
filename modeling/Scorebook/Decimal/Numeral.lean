/-!
# Numerals

A numeral is a decimal value read from text: its digits taken as one natural number, and the
power of ten that scales them. The grammars that use numerals differ (a JSON number, a TOML
float, a label that may spell a number), and each of them reads its digits through the
functions of this module.
-/

namespace Scorebook

/-- The value `digits * 10 ^ exponent` with its sign. -/
structure Numeral where
  negative : Bool
  digits : Nat
  exponent : Int
  deriving Repr, DecidableEq

/-- A run of decimal digits: its value and its length. -/
structure DigitRun where
  value : Nat
  length : Nat
  deriving Repr, DecidableEq

namespace DigitRun

/-- The run without digits. -/
def empty : DigitRun := ⟨0, 0⟩

/-- A run followed by one more digit. -/
def push (run : DigitRun) (digit : Char) : DigitRun :=
  ⟨run.value * 10 + (digit.toNat - '0'.toNat), run.length + 1⟩

/-- Extends a run by the digits in front of a text, and returns the rest of the text. -/
def extend (run : DigitRun) (text : List Char) : DigitRun × List Char :=
  ((text.takeWhile Char.isDigit).foldl push run, text.dropWhile Char.isDigit)

/-- The run of digits in front of a text, and the rest of the text. -/
def read (text : List Char) : DigitRun × List Char := empty.extend text

end DigitRun

namespace Numeral

/-- The number of decimal digits of a natural number, zero having none. -/
def digitCount (n : Nat) : Nat := if n = 0 then 0 else (Nat.toDigits 10 n).length

/-- The double nearest to a numeral. Far outside the range of doubles the answer is known
without computing the power: an infinity above, a zero below. -/
def toDouble (numeral : Numeral) : Float :=
  let leading := numeral.exponent + digitCount numeral.digits
  let magnitude :=
    if numeral.digits = 0 ∨ leading < -330 then 0.0
    else if 320 < leading then 1.0 / 0.0
    else Float.ofScientific numeral.digits (numeral.exponent < 0) numeral.exponent.natAbs
  if numeral.negative then -magnitude else magnitude

end Numeral

/-- An optional sign in front of a text: whether it is a minus, and the rest. -/
def readSign : List Char → Bool × List Char
  | '-' :: rest => (true, rest)
  | '+' :: rest => (false, rest)
  | text => (false, text)

/-- The exponent part of a numeral: a letter `e`, an optional sign and at least one digit.
Without the letter the exponent is zero and nothing is read. -/
def readExponent? : List Char → Option (Int × List Char)
  | c :: text =>
    if c = 'e' ∨ c = 'E' then
      let (negative, unsigned) := readSign text
      let (run, rest) := DigitRun.read unsigned
      if run.length = 0 then none
      else some (if negative then -(run.value : Int) else run.value, rest)
    else some (0, c :: text)
  | [] => some (0, [])

/-- Letters compared without regard to case; the word is given in lower case. -/
def spells (word : String) (text : List Char) : Bool := text.map Char.toLower == word.toList

/-- A text that spells a number as a whole: an optional sign, then digits with an optional point
(at least one digit on either side of it) and an optional exponent, or one of the words for
infinity and not-a-number. -/
def readDouble? (text : List Char) : Option Float :=
  let (negative, unsigned) := readSign text
  if spells "inf" unsigned || spells "infinity" unsigned then
    some (if negative then -(1.0 / 0.0) else 1.0 / 0.0)
  else if spells "nan" unsigned then some (0.0 / 0.0)
  else
    let (whole, afterWhole) := DigitRun.read unsigned
    let (run, afterFraction) := match afterWhole with
      | '.' :: fraction => whole.extend fraction
      | rest => (whole, rest)
    if run.length = 0 then none
    else match readExponent? afterFraction with
      | some (exponent, []) =>
        some (Numeral.toDouble ⟨negative, run.value, exponent - (run.length - whole.length)⟩)
      | _ => none

end Scorebook
