/-!
# Tails of the gamma distribution

The upper tail is one minus a power series to the left of the mean, and a continued fraction to
the right of it. Both are multiples of the same density term, whose exponent is formed without
cancellation: for large shapes it is the deviance of the argument from the shape.
-/

namespace Scorebook

namespace Tail

/-- Half the logarithm of the circumference of the unit circle. -/
def halfLogTau : Float := 0.9189385332046727

/-- What Stirling's formula for the logarithm of the gamma function leaves out, for arguments
of at least sixteen. -/
def stirlingRest (a : Float) : Float :=
  let r := 1.0 / (a * a)
  (1.0 / 12.0 - r * (1.0 / 360.0 - r * (1.0 / 1260.0 - r * (1.0 / 1680.0 - r / 1188.0)))) / a

/-- Moves an argument up to at least sixteen, and collects the product of the factors that
the gamma function gains on the way. -/
def raise : Nat → Float → Float → Float × Float
  | 0, a, product => (a, product)
  | steps + 1, a, product =>
    if a < 16.0 then raise steps (a + 1.0) (product * a) else (a, product)

/-- The logarithm of the gamma function of a positive argument. -/
def logGamma (a : Float) : Float :=
  let (raised, product) := raise 16 a 1.0
  (raised - 0.5) * raised.log - raised + halfLogTau + stirlingRest raised - product.log

/-- An exponential times a coefficient, the exponent halved so that only the last product can
leave the range of normal doubles. -/
def scaledExp (exponent coefficient : Float) : Float :=
  let root := (exponent / 2.0).exp
  root * coefficient * root

/-- The series `deviation * v + 2 * a * (v ^ 3 / 3 + v ^ 5 / 5 + ...)`, summed until a term no
longer counts. -/
def devianceSeries : Nat → Nat → Float → Float → Float → Float
  | 0, _, _, _, total => total
  | steps + 1, odd, term, ratio, total =>
    let term := term * ratio
    let next := total + term / Float.ofNat odd
    if next == total then total else devianceSeries steps (odd + 2) term ratio next

/-- The deviance `a * log (a / x) + x - a`, exact also where `a` and `x` are close. -/
def deviance (a x : Float) : Float :=
  if (a - x).abs < 0.1 * (a + x) then
    let v := (a - x) / (a + x)
    devianceSeries 200 3 (2.0 * a * v) (v * v) ((a - x) * v)
  else a * (a / x).log + x - a

/-- Exponent and coefficient of `x ^ a * exp (-x) / gamma (a + 1)`. -/
def gammaTerm (a x : Float) : Float × Float :=
  if a < 16.0 then (a * x.log - x - logGamma (a + 1.0), 1.0)
  else (-(deviance a x) - stirlingRest a, 1.0 / (6.283185307179586 * a).sqrt)

/-- The sum `1 + x / (a + 1) + x ^ 2 / ((a + 1) * (a + 2)) + ...`. -/
def gammaSeries : Nat → Float → Float → Float → Float → Float
  | 0, _, _, _, total => total
  | steps + 1, x, denominator, term, total =>
    let term := term * x / denominator
    let next := total + term
    if next == total then total else gammaSeries steps x (denominator + 1.0) term next

/-- The smallest magnitude that a partial denominator may have. -/
def tiny : Float := 1e-300

/-- A denominator kept away from zero. -/
def guarded (d : Float) : Float := if d.abs < tiny then tiny else d

/-- The continued fraction of the upper tail, evaluated from the front until a step changes
nothing. -/
def gammaFraction : Nat → Float → Float → Float → Float → Float → Float → Float
  | 0, _, _, _, _, _, value => value
  | steps + 1, a, index, b, c, d, value =>
    let numerator := index * (a - index)
    let b := b + 2.0
    let d := 1.0 / guarded (numerator * d + b)
    let c := guarded (b + numerator / c)
    let factor := d * c
    let value := value * factor
    if (factor - 1.0).abs < 1e-16 then value
    else gammaFraction steps a (index + 1.0) b c d value

/-- The upper tail of the gamma distribution of shape `a` at `x`. -/
def gammaUpper (a x : Float) : Float :=
  if x ≤ 0.0 then 1.0
  else
    let (exponent, coefficient) := gammaTerm a x
    if x < a + 1.0 then
      1.0 - scaledExp exponent (coefficient * gammaSeries 1000000 x (a + 1.0) 1.0 1.0)
    else
      let b := x + 1.0 - a
      let d := 1.0 / guarded b
      scaledExp exponent (coefficient * a * gammaFraction 1000000 a 1.0 b (1.0 / tiny) d d)

end Tail

end Scorebook
