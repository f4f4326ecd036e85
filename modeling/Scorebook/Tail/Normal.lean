import Scorebook.Tail.Gamma

/-!
# Tails of the normal distribution

Near the mean both tails are one minus a series of positive terms. Further out they are a
continued fraction times the density.
-/

namespace Scorebook

namespace Tail

/-- The sum `x + 2 * x ^ 3 / 3 + 4 * x ^ 5 / (3 * 5) + ...`. -/
def errorSeries : Nat → Float → Float → Float → Float → Float
  | 0, _, _, _, total => total
  | steps + 1, ratio, odd, term, total =>
    let term := term * ratio / odd
    let next := total + term
    if next == total then total else errorSeries steps ratio (odd + 2.0) term next

/-- The continued fraction `x + (1 / 2) / (x + 1 / (x + (3 / 2) / ...))`, evaluated from the
back. -/
def errorFraction (x : Float) : Nat → Float → Float
  | 0, value => value
  | steps + 1, value => errorFraction x steps (x + Float.ofNat (steps + 1) / 2.0 / value)

/-- Both tails of the normal distribution with variance one half, at a magnitude. -/
def errorComplement (x : Float) : Float :=
  let exponent := -(x * x)
  if x < 2.0 then
    1.0 - scaledExp exponent (errorSeries 200 (2.0 * x * x) 3.0 x x * 1.1283791670955126)
  else scaledExp exponent (1.0 / (1.7724538509055159 * errorFraction x 150 x))

end Tail

end Scorebook
