import Scorebook.Arithmetic
import Scorebook.Binary64

/-!
# Doubles as an arithmetic

Doubles are the arithmetic in which the program computes. Each operation is rounded once, in
the order in which the statistic is written.
-/

namespace Scorebook

/-- Doubles. Values are sorted by their place in the total order, so that negative zero
precedes positive zero. -/
instance : Arithmetic Float where
  ofNat := Float.ofNat
  ofDouble x := x
  less x y := x < y
  atMost x y := Binary64.rank x.toBits ≤ Binary64.rank y.toBits
  sqrt := Float.sqrt
  abs := Float.abs
  floor x := x.floor.toUInt64.toNat
  ceil x := x.ceil.toUInt64.toNat

end Scorebook
