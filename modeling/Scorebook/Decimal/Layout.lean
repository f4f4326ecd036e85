import Scorebook.Decimal.Shortest

/-!
# How the digits of a number are laid out

Two forms of the shortest decimal of a double are written. The plain form is used where a
number stands for a label or inside a message: it never has an exponent and keeps the sign of
zero. The interchange form is used inside JSON: it always shows that the number is fractional,
by a point or by an exponent.
-/

namespace Scorebook

namespace Decimal

/-- The decimal digits of a natural number. -/
def digitsOf (n : Nat) : List Char := Nat.toDigits 10 n

/-- The digits with a decimal point where the exponent puts it, and no exponent. -/
def positional (digits : List Char) (exponent : Int) : List Char :=
  if 0 ≤ exponent then digits ++ List.replicate exponent.toNat '0'
  else
    let places := (-exponent).toNat
    if places < digits.length then
      digits.take (digits.length - places) ++ '.' :: digits.drop (digits.length - places)
    else '0' :: '.' :: List.replicate (places - digits.length) '0' ++ digits

/-- One digit before the point, the others behind it, and the exponent with its sign. -/
def scientific (digits : List Char) (exponent : Int) : List Char :=
  let fraction := digits.drop 1
  let mantissa := digits.take 1 ++ (if fraction.isEmpty then [] else '.' :: fraction)
  let sign := if exponent < 0 then '-' else '+'
  mantissa ++ 'e' :: sign :: digitsOf exponent.natAbs

/-- A sign in front of a text. -/
def signed (negative : Bool) (text : List Char) : List Char :=
  if negative then '-' :: text else text

end Decimal

open Decimal

/-- The plain form of a double: the fewest digits that identify it, of two equally near
choices the larger, never an exponent. -/
def plainNumber (x : Float) : String :=
  match Binary64.ofDouble x with
  | .nan => "NaN"
  | .infinite negative => String.ofList (signed negative ['i', 'n', 'f'])
  | .finite negative m q =>
    let d := shortest .up m q
    String.ofList (signed negative (positional (digitsOf d.digits) d.exponent))

/-- The interchange form of a finite double: the fewest digits that identify it, of two equally
near choices the even one. Between `10 ^ -5` and `10 ^ 16` there is no exponent and at least
one decimal, elsewhere one digit stands before the point. Other doubles have no such form. -/
def interchangeNumber? (x : Float) : Option String :=
  match Binary64.ofDouble x with
  | .finite negative m q =>
    let d := shortest .even m q
    let digits := digitsOf d.digits
    let leading := d.exponent + digits.length - 1
    let text :=
      if leading < -5 ∨ 15 < leading then scientific digits leading
      else if 0 ≤ d.exponent then positional digits d.exponent ++ ['.', '0']
      else positional digits d.exponent
    some (String.ofList (signed negative text))
  | _ => none

end Scorebook
