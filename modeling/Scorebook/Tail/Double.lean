import Scorebook.Arithmetic.Double
import Scorebook.Tail
import Scorebook.Tail.Beta
import Scorebook.Tail.Normal

/-!
# Tail probabilities of doubles

A tail is defined for a finite statistic and positive degrees of freedom. Infinitely many
degrees of freedom make Student's distribution the normal one.
-/

namespace Scorebook

namespace Tail

/-- The half-width of the neighbourhood in which a beta argument counts as zero or as one. -/
def betaResolution : Float := 2.220446049250313e-16

/-- Whether a beta argument is one up to four steps of the doubles below it. -/
def isNearOne (h : Float) : Bool :=
  (h - 1.0).abs ≤ betaResolution || 0x3FF0000000000000 ≤ h.toBits + 4

/-- Both tails of a Student deviate at a finite magnitude. A beta argument that cannot be told
from zero or one leaves no tail or all of it. -/
def studentTails (t df : Float) : Float :=
  let h := df / (df + t * t)
  if t == 0.0 || isNearOne h then 1.0
  else if h.abs ≤ betaResolution then 0.0
  else Arithmetic.smaller 1.0 (betaHalf (df / 2.0) h)

/-- Both tails of a normal deviate at a finite magnitude. -/
def normalTails (z : Float) : Float :=
  Arithmetic.smaller 1.0 (errorComplement (z / 1.4142135623730951))

end Tail

open Tail in
/-- The tails as they are computed in doubles, to well over nine digits. -/
instance : TailTable Float where
  normal z := if z.isFinite then some (normalTails z) else none
  chiSquare statistic df :=
    if statistic.isFinite && 0.0 < df then
      some (gammaUpper (df / 2.0) (Arithmetic.positivePart statistic * 0.5))
    else none
  student t df :=
    if t.isFinite && 0.0 < df then
      some (if df.isFinite then studentTails t df else normalTails t)
    else none

end Scorebook
