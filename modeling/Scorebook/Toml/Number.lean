import Scorebook.Decimal.Numeral
import Scorebook.Toml.Value
import Scorebook.Word

/-!
# Numbers, dates and times of a settings file

Digits may be grouped by single underscores. A whole number has no leading zeros and fits 64
bits with a sign; other bases have a prefix and no sign. Dates and times must exist in the
calendar and on the clock.
-/

namespace Scorebook

namespace Toml

/-- Reads the digits behind a first one; an underscore must stand between two digits. -/
def readMoreDigits (isDigit : Char → Bool) : List Char → List Char × List Char
  | '_' :: c :: rest =>
    if isDigit c then
      let (digits, rest) := readMoreDigits isDigit rest
      (c :: digits, rest)
    else ([], '_' :: c :: rest)
  | c :: rest =>
    if isDigit c then
      let (digits, rest) := readMoreDigits isDigit rest
      (c :: digits, rest)
    else ([], c :: rest)
  | [] => ([], [])

/-- Reads at least one digit. -/
def readDigits? (isDigit : Char → Bool) : List Char → Option (List Char × List Char)
  | c :: rest =>
    if isDigit c then
      let (digits, rest) := readMoreDigits isDigit rest
      some (c :: digits, rest)
    else none
  | [] => none

/-- The value of a digit of any base up to sixteen. -/
def digitValue (c : Char) : Nat :=
  if c.isDigit then c.toNat - '0'.toNat else c.toLower.toNat - 'a'.toNat + 10

/-- Whether a character is a digit of a base. -/
def isDigitOf (base : Nat) (c : Char) : Bool :=
  (c.isDigit || ('a' ≤ c.toLower && c.toLower ≤ 'f')) && digitValue c < base

/-- The value of digits of a base. -/
def valueOf (base : Nat) (digits : List Char) : Nat :=
  digits.foldl (fun value digit => value * base + digitValue digit) 0

/-- A whole number of 64 bits with a sign. -/
def int64? (value : Int) : Option Toml :=
  if Word.isSigned value then some (.int value) else none

/-- Reads a whole number of a base behind its prefix. -/
def readBased (base : Nat) (text : List Char) : Option (Toml × List Char) := do
  let (digits, rest) ← readDigits? (isDigitOf base) text
  return (← int64? (valueOf base digits), rest)

/-- Reads the digits before the point: a zero alone, or digits that do not begin with one. -/
def readWhole : List Char → Option (List Char × List Char)
  | '0' :: rest => some (['0'], rest)
  | text => readDigits? Char.isDigit text

/-- Reads the digits behind a point, none without a point. -/
def readFraction : List Char → Option (List Char × List Char)
  | '.' :: rest => readDigits? Char.isDigit rest
  | text => some ([], text)

/-- Reads the power of ten of a number, none without its letter. -/
def readPower : List Char → Option (Option Int × List Char)
  | c :: rest =>
    if c = 'e' ∨ c = 'E' then do
      let (negative, unsigned) := readSign rest
      let (digits, rest) ← readDigits? Char.isDigit unsigned
      let value : Int := valueOf 10 digits
      return (some (if negative then -value else value), rest)
    else some (none, c :: rest)
  | [] => some (none, [])

/-- The nearest double of a number. One beyond the range is refused, unless it is negative. -/
def float? (numeral : Numeral) : Option Toml :=
  let x := numeral.toDouble
  if x.isInf ∧ ¬numeral.negative then none else some (.float x)

/-- Reads a decimal number behind its sign. -/
def readDecimal (negative : Bool) (text : List Char) : Option (Toml × List Char) := do
  let (whole, afterWhole) ← readWhole text
  let (fraction, afterFraction) ← readFraction afterWhole
  let (power, rest) ← readPower afterFraction
  let digits := valueOf 10 (whole ++ fraction)
  if fraction.isEmpty ∧ power.isNone then
    return (← int64? (if negative then -digits else digits), rest)
  else return (← float? ⟨negative, digits, power.getD 0 - fraction.length⟩, rest)

/-- Reads a number. -/
def readNumber (text : List Char) : Option (Toml × List Char) :=
  match text with
  | '0' :: 'x' :: rest => readBased 16 rest
  | '0' :: 'o' :: rest => readBased 8 rest
  | '0' :: 'b' :: rest => readBased 2 rest
  | _ =>
    match readSign text with
    | (negative, 'i' :: 'n' :: 'f' :: rest) =>
      some (.float (if negative then -(1.0 / 0.0) else 1.0 / 0.0), rest)
    | (_, 'n' :: 'a' :: 'n' :: rest) => some (.float (0.0 / 0.0), rest)
    | (negative, unsigned) => readDecimal negative unsigned

/-- Reads a decimal number of exactly so many digits. -/
def readFixed (count : Nat) (text : List Char) : Option (Nat × List Char) :=
  let digits := text.take count
  if digits.length = count ∧ digits.all Char.isDigit then
    some (valueOf 10 digits, text.drop count)
  else none

/-- Reads one given character. -/
def readChar (c : Char) : List Char → Option (List Char)
  | d :: rest => if d = c then some rest else none
  | [] => none

/-- The number of days of a month. -/
def daysOf (year month : Nat) : Nat :=
  if month = 2 then
    if year % 4 = 0 ∧ (year % 100 ≠ 0 ∨ year % 400 = 0) then 29 else 28
  else if month = 4 ∨ month = 6 ∨ month = 9 ∨ month = 11 then 30
  else 31

/-- Reads a date, and returns what follows it. -/
def readDate (text : List Char) : Option (List Char) := do
  let (year, rest) ← readFixed 4 text
  let (month, rest) ← readFixed 2 (← readChar '-' rest)
  let (day, rest) ← readFixed 2 (← readChar '-' rest)
  if 1 ≤ month ∧ month ≤ 12 ∧ 1 ≤ day ∧ day ≤ daysOf year month then some rest else none

/-- Reads hours and minutes. -/
def readHours (text : List Char) : Option (List Char) := do
  let (hour, rest) ← readFixed 2 text
  let (minute, rest) ← readFixed 2 (← readChar ':' rest)
  if hour ≤ 23 ∧ minute ≤ 59 then some rest else none

/-- Reads a time of day, with or without parts of a second. A leap second is one. -/
def readTime (text : List Char) : Option (List Char) := do
  let (second, rest) ← readFixed 2 (← readChar ':' (← readHours text))
  if 60 < second then none
  else match rest with
    | '.' :: fraction =>
      if (fraction.takeWhile Char.isDigit).isEmpty then some rest
      else some (fraction.dropWhile Char.isDigit)
    | _ => some rest

/-- Reads the offset of a time zone if there is one. -/
def readOffset : List Char → Option (List Char)
  | 'Z' :: rest | 'z' :: rest => some rest
  | '+' :: rest | '-' :: rest => readHours rest
  | rest => some rest

/-- Reads a date, a time, or a date with a time. -/
def readMoment (text : List Char) : Option (List Char) :=
  match readDate text with
  | some rest =>
    match rest with
    | 'T' :: time | 't' :: time => do readOffset (← readTime time)
    | ' ' :: time =>
      if (time.head?.map Char.isDigit).getD false then do readOffset (← readTime time)
      else some rest
    | _ => some rest
  | none => readTime text

/-- Whether a text begins like a date or a time. -/
def startsMoment (text : List Char) : Bool :=
  let digits := text.takeWhile Char.isDigit
  let next := (text.drop digits.length).head?
  (digits.length = 4 && next = some '-') || (digits.length = 2 && next = some ':')

end Toml

end Scorebook
