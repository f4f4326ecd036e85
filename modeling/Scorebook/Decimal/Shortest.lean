import Scorebook.Binary64

/-!
# The fewest digits that identify a double

A decimal reads back to a double when it lies among the reals that round to it. The text of
a double is the decimal with the fewest digits that reads back, the nearest such decimal if
several have that many. The search runs over decimal grids, from the coarsest one that can
hold a candidate to finer ones, and compares naturals only.
-/

namespace Scorebook

/-- The value `digits * 10 ^ exponent`. -/
structure Decimal where
  digits : Nat
  exponent : Int
  deriving Repr, DecidableEq

/-- Which of two equally near candidates is selected. -/
inductive Tie where
  /-- The candidate whose last digit is even. -/
  | even
  /-- The larger candidate. -/
  | up
  deriving Repr, DecidableEq

namespace Decimal

/-- Compares `a * 10 ^ i` with `n * 2 ^ j`. -/
def compareScaled (a : Nat) (i : Int) (n : Nat) (j : Int) : Ordering :=
  compare (a * Nat.pow 10 i.toNat * Nat.pow 2 (-j).toNat)
    (n * Nat.pow 2 j.toNat * Nat.pow 10 (-i).toNat)

/-- Whether a decimal lies among the reals that round to `m * 2 ^ q`: no further away than
half the gap to the neighbouring double, the ends included exactly when `m` is even. Below a
power of two the gap is half as wide, except at the bottom of the range. -/
def readsBack (m : Nat) (q : Int) (d : Decimal) : Bool :=
  let narrow := m = Nat.pow 2 52 ∧ -1074 < q
  let lower := if narrow then 4 * m - 1 else 4 * m - 2
  let fromBelow := compareScaled d.digits d.exponent lower (q - 2)
  let fromAbove := compareScaled d.digits d.exponent (4 * m + 2) (q - 2)
  let closed := m % 2 = 0
  (fromBelow = .gt ∨ closed ∧ fromBelow = .eq) ∧ (fromAbove = .lt ∨ closed ∧ fromAbove = .eq)

/-- The least `k` with `m * 2 ^ q < 10 ^ k`, for `m` not zero: the number of digits before
the decimal point. The estimate from the binary logarithm is off by at most a few steps. -/
def magnitude (m : Nat) (q : Int) : Int :=
  let estimate := ((m.log2 : Int) + q) * 30103 / 100000
  let above (k : Int) : Bool := compareScaled 1 k m q = .gt
  if above estimate then estimate
  else if above (estimate + 1) then estimate + 1
  else if above (estimate + 2) then estimate + 2
  else estimate + 3

/-- The quotient `m * 2 ^ q / 10 ^ p` as numerator and denominator. -/
def scaled (m : Nat) (q p : Int) : Nat × Nat :=
  (m * Nat.pow 2 q.toNat * Nat.pow 10 (-p).toNat, Nat.pow 2 (-q).toNat * Nat.pow 10 p.toNat)

/-- The candidate on the grid of step `10 ^ p`: the neighbour of the value on the grid that
reads back, the nearer one if both do. -/
def onGrid? (tie : Tie) (m : Nat) (q p : Int) : Option Decimal :=
  let (numerator, denominator) := scaled m q p
  let below : Decimal := ⟨numerator / denominator, p⟩
  let above : Decimal := ⟨numerator / denominator + 1, p⟩
  match readsBack m q below, readsBack m q above with
  | false, false => none
  | true, false => some below
  | false, true => some above
  | true, true =>
    match compare (2 * numerator) ((2 * below.digits + 1) * denominator), tie with
    | .lt, _ => some below
    | .gt, _ => some above
    | .eq, .up => some above
    | .eq, .even => some (if below.digits % 2 = 0 then below else above)

/-- Moves up to `steps` trailing zeros of the digits into the exponent. -/
def stripZeros : Nat → Decimal → Decimal
  | 0, d => d
  | steps + 1, d =>
    if d.digits ≠ 0 ∧ d.digits % 10 = 0 then stripZeros steps ⟨d.digits / 10, d.exponent + 1⟩
    else d

/-- The value `m * 2 ^ q` itself as a decimal. -/
def exact (m : Nat) (q : Int) : Decimal :=
  if 0 ≤ q then ⟨m * Nat.pow 2 q.toNat, 0⟩ else ⟨m * Nat.pow 5 (-q).toNat, q⟩

/-- The decimal with the fewest digits that reads back to `m * 2 ^ q`, without trailing zeros.
Seventeen digits identify every double, so a finer grid is never needed. -/
def shortest (tie : Tie) (m : Nat) (q : Int) : Decimal :=
  if m = 0 then ⟨0, 0⟩
  else
    let k := magnitude m q
    let found := (List.range 17).findSome? fun (n : Nat) => onGrid? tie m q (k - 1 - n)
    stripZeros 18 (found.getD (exact m q))

end Decimal

end Scorebook
