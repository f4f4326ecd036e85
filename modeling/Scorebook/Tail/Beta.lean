import Scorebook.Tail.Gamma

/-!
# Tails of Student's distribution

Both tails of a deviate `t` together are the incomplete beta ratio of `df / 2` and one half at
`h = df / (df + t * t)`. The ratio is evaluated at the double `h`, by a continued fraction on
whichever side of the mean converges.
-/

namespace Scorebook

namespace Tail

/-- Moves an argument up to at least forty, and collects the factors that the quotient of
`halfStep` gains on the way. -/
def raiseHalf : Nat → Float → Float → Float × Float
  | 0, a, product => (a, product)
  | steps + 1, a, product =>
    if a < 40.0 then raiseHalf steps (a + 1.0) (product * (a / (a + 0.5))) else (a, product)

/-- The quotient of the gamma function at `a + 1 / 2` and at `a`. -/
def halfStep (a : Float) : Float :=
  let (raised, product) := raiseHalf 40 a 1.0
  let r := 1.0 / raised
  let series := 1.0 - r * (1.0 / 8.0 - r * (1.0 / 128.0 + r * (5.0 / 1024.0
    - r * (21.0 / 32768.0 + r * (399.0 / 262144.0 - r * 869.0 / 4194304.0)))))
  product * raised.sqrt * series

/-- The continued fraction of the incomplete beta ratio, two steps at a time, until a step
changes nothing. -/
def betaFraction : Nat → Float → Float → Float → Float → Float → Float → Float → Float
  | 0, _, _, _, _, _, _, value => value
  | steps + 1, a, b, x, m, c, d, value =>
    let even := m * (b - m) * x / ((a + 2.0 * m - 1.0) * (a + 2.0 * m))
    let d := 1.0 / guarded (1.0 + even * d)
    let c := guarded (1.0 + even / c)
    let value := value * (d * c)
    let odd := -(a + m) * (a + b + m) * x / ((a + 2.0 * m) * (a + 2.0 * m + 1.0))
    let d := 1.0 / guarded (1.0 + odd * d)
    let c := guarded (1.0 + odd / c)
    let factor := d * c
    let value := value * factor
    if (factor - 1.0).abs < 1e-16 then value
    else betaFraction steps a b x (m + 1.0) c d value

/-- The continued fraction from its first step on. -/
def betaSeries (a b x : Float) : Float :=
  let d := 1.0 / guarded (1.0 - (a + b) * x / (a + 1.0))
  betaFraction 100000 a b x 1.0 1.0 d d

/-- The incomplete beta ratio of `a` and one half at `x`, strictly between zero and one. -/
def betaHalf (a x : Float) : Float :=
  let y := 1.0 - x
  let coefficient := halfStep a / 1.7724538509055159 * y.sqrt
  let exponent := a * x.log
  if x < (a + 1.0) / (a + 2.5) then scaledExp exponent (coefficient * betaSeries a 0.5 x / a)
  else 1.0 - scaledExp exponent (coefficient * betaSeries 0.5 a y / 0.5)

end Tail

end Scorebook
