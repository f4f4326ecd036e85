import Scorebook.Decimal.Layout

/-!
# Rounding to a number of places or digits

A double is rounded on its exact value, and a tie goes to the even neighbour. Reports show
numbers with a fixed number of places. Probabilities are exchanged with nine significant
digits, which is what their computation guarantees.
-/

namespace Scorebook

namespace Decimal

/-- The nearest natural number of a quotient, a tie going to the even neighbour. -/
def roundQuotient (numerator denominator : Nat) : Nat :=
  let quotient := numerator / denominator
  match compare (2 * (numerator % denominator)) denominator with
  | .lt => quotient
  | .gt => quotient + 1
  | .eq => if quotient % 2 = 0 then quotient else quotient + 1

/-- The value `m * 2 ^ q` rounded to a multiple of `10 ^ p`, counted in that unit. -/
def roundTo (m : Nat) (q p : Int) : Nat :=
  let (numerator, denominator) := scaled m q p
  roundQuotient numerator denominator

/-- The digits of a number of hundredths, thousandths and so on, at least one digit standing
before the point. -/
def pointed (places n : Nat) : List Char :=
  let digits := digitsOf n
  let padded := List.replicate (places + 1 - digits.length) '0' ++ digits
  positional padded (-places)

end Decimal

open Decimal

/-- How a number is signed in a report. -/
inductive SignStyle where
  /-- Only a negative number shows its sign. -/
  | negativeOnly
  /-- Every number shows its sign. -/
  | always
  deriving Repr, DecidableEq

/-- The text of a number with its sign. -/
def SignStyle.apply (style : SignStyle) (negative : Bool) (text : List Char) : String :=
  String.ofList <| match negative, style with
    | true, _ => '-' :: text
    | false, always => '+' :: text
    | false, negativeOnly => text

/-- A double with a fixed number of places. The sign of a negative number stays when all its
digits are rounded away, and that of negative zero as well. -/
def fixedPlaces (style : SignStyle) (places : Nat) (x : Float) : String :=
  match Binary64.ofDouble x with
  | .nan => "NaN"
  | .infinite negative => style.apply negative ['i', 'n', 'f']
  | .finite negative m q => style.apply negative (pointed places (roundTo m q (-places)))

/-- The double nearest to a double rounded to a number of significant digits. -/
def significantDigits (count : Nat) (x : Float) : Float :=
  match Binary64.ofDouble x with
  | .finite negative m q =>
    if m = 0 then x
    else
      let p := magnitude m q - count
      let rounded := Float.ofScientific (roundTo m q p) (p < 0) p.natAbs
      if negative then -rounded else rounded
  | _ => x

end Scorebook
