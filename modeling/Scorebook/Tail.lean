import Scorebook.Arithmetic

/-!
# Tail probabilities

A test reports how likely a statistic at least as extreme would be under its reference
distribution. Which arithmetic computes that likelihood is left open here: a `TailTable` answers
for the magnitude of a deviate, so two deviates of opposite sign always have the same tails.
-/

namespace Scorebook

/-- The tails of the three reference distributions, none where a tail is not defined. -/
class TailTable (α : Type) where
  /-- Both tails of a standard normal deviate of the given magnitude. -/
  normal : α → Option α
  /-- The upper tail of a chi-square statistic, with its degrees of freedom. -/
  chiSquare : α → α → Option α
  /-- Both tails of a Student deviate of the given magnitude, with its degrees of freedom. -/
  student : α → α → Option α

namespace Tail

variable {α : Type} [Arithmetic α] [TailTable α]

/-- The two-sided probability of a standard normal deviate. -/
def normal (z : α) : Option α := TailTable.normal (Arithmetic.abs z)

/-- The upper-tail probability of a chi-square statistic. -/
def chiSquare (statistic df : α) : Option α := TailTable.chiSquare statistic df

/-- The two-sided probability of a Student deviate. -/
def student (t df : α) : Option α := TailTable.student (Arithmetic.abs t) df

/-- Whether a probability is below the significance level. An undefined one never is. -/
def isSignificant (level : α) (p : Option α) : Bool :=
  match p with
  | some p => Arithmetic.less p level
  | none => false

end Tail

end Scorebook
