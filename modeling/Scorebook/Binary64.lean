/-!
# The exact value of a double

A finite double is a whole number times a power of two. Everything that must be exact about
a double (its decimal text, whether it is a whole number, its place in the total order) is
decided on that pair and not by floating-point operations.
-/

namespace Scorebook

/-- A double taken apart. -/
inductive Binary64 where
  /-- Not a number. -/
  | nan
  /-- One of the two infinities. -/
  | infinite (negative : Bool)
  /-- The value `significand * 2 ^ exponent` with its sign; zero has a sign as well. -/
  | finite (negative : Bool) (significand : Nat) (exponent : Int)
  deriving Repr, DecidableEq

namespace Binary64

/-- Reads sign, exponent and fraction off the 64 bits of a double. -/
def ofBits (bits : UInt64) : Binary64 :=
  let negative := bits >>> 63 == 1
  let biased := ((bits >>> 52) &&& 0x7FF).toNat
  let fraction := (bits &&& 0xFFFFFFFFFFFFF).toNat
  if biased = 0x7FF then
    if fraction = 0 then infinite negative else nan
  else if biased = 0 then finite negative fraction (-1074)
  else finite negative (Nat.pow 2 52 + fraction) ((biased : Int) - 1075)

/-- A double taken apart. -/
def ofDouble (x : Float) : Binary64 := ofBits x.toBits

/-- The whole number that a double is, if it is one. -/
def toInt? : Binary64 → Option Int
  | finite negative significand exponent =>
    let signed (n : Nat) : Int := if negative then -n else n
    if 0 ≤ exponent then some (signed (significand * Nat.pow 2 exponent.toNat))
    else
      let unit := Nat.pow 2 (-exponent).toNat
      if significand % unit = 0 then some (signed (significand / unit)) else none
  | _ => none

/-- Whether a double is neither an infinity nor not a number. -/
def isFinite : Binary64 → Bool
  | finite .. => true
  | _ => false

/-- The place of a double in the total order: negative values by falling magnitude, negative
zero just below positive zero, the infinities at the ends, and not-a-number last. -/
def rank (bits : UInt64) : Int :=
  match ofBits bits with
  | nan => 0x7FF0000000000001
  | _ =>
    let magnitude : Int := (bits &&& 0x7FFFFFFFFFFFFFFF).toNat
    if bits >>> 63 == 1 then -magnitude - 1 else magnitude

end Binary64

end Scorebook
