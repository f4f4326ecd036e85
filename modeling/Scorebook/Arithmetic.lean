/-!
# The arithmetic of a statistic

Every statistic of this library is written once, in the order in which its operations
are carried out, over an arbitrary `Arithmetic`. The program runs it on doubles. Read over
an exact arithmetic, the same definition is the textbook quantity.
-/

namespace Scorebook

/-- The numbers a statistic is computed in: the four operations and negation, a strict
comparison, and the few functions that the statistics need beside them. -/
class Arithmetic (α : Type) extends Add α, Sub α, Mul α, Div α, Neg α where
  /-- A count as a number. -/
  ofNat : Nat → α
  /-- A stored double as a number. -/
  ofDouble : Float → α
  /-- Whether the first number is strictly smaller. -/
  less : α → α → Bool
  /-- The order by which values are sorted. It is total, also where `less` is not. -/
  atMost : α → α → Bool
  /-- The square root of a number that is not negative. -/
  sqrt : α → α
  /-- The absolute value. -/
  abs : α → α
  /-- The greatest natural number not above a number, and zero where there is none. -/
  floor : α → Nat
  /-- The least natural number not below a number. -/
  ceil : α → Nat

namespace Arithmetic

variable {α : Type} [Arithmetic α]

/-- The number itself when it is positive, and zero otherwise. -/
def positivePart (x : α) : α := if less (ofNat 0) x then x else ofNat 0

/-- The smaller of two numbers, the first one when neither is smaller. -/
def smaller (x y : α) : α := if less y x then y else x

/-- The nearest number of the unit interval. -/
def intoUnit (x : α) : α :=
  let raised := if less x (ofNat 0) then ofNat 0 else x
  if less (ofNat 1) raised then ofNat 1 else raised

/-- The square of a number. -/
def square (x : α) : α := x * x

/-- The sum of a list, added from its head onwards to zero. -/
def sum (xs : List α) : α := xs.foldl (· + ·) (ofNat 0)

/-- The share of a part in a whole, zero for an empty whole. -/
def proportion (part whole : Nat) : α :=
  if whole = 0 then ofNat 0 else ofNat part / ofNat whole

end Arithmetic

end Scorebook
