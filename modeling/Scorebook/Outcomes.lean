import Scorebook.Arithmetic

/-!
# Wins, losses and ties

Paired rows are tallied from the side of the second experiment, higher values being better. The
tally also gives the effect sizes that depend on nothing else.
-/

namespace Scorebook

/-- The running tally of paired rows. -/
structure Tally where
  wins : Nat
  losses : Nat
  ties : Nat
  deriving Repr, DecidableEq

/-- A tally with its rates. -/
structure Outcomes (α : Type) where
  tally : Tally
  winRate : α
  lossRate : α
  tieRate : α
  deriving Repr

namespace Tally

open Arithmetic

variable {α : Type} [Arithmetic α]

/-- The tally of no rows. -/
def empty : Tally := ⟨0, 0, 0⟩

/-- Tallies one row by how the second value compares with the first. -/
def record (tally : Tally) : Ordering → Tally
  | .gt => { tally with wins := tally.wins + 1 }
  | .lt => { tally with losses := tally.losses + 1 }
  | .eq => { tally with ties := tally.ties + 1 }

/-- The number of rows. -/
def total (tally : Tally) : Nat := tally.wins + tally.losses + tally.ties

/-- Each recorded row counts once. -/
@[simp]
theorem total_record (tally : Tally) (ordering : Ordering) :
    (tally.record ordering).total = tally.total + 1 := by
  cases ordering <;> simp [record, total] <;> omega

/-- The tally with its rates. -/
def outcomes (tally : Tally) : Outcomes α :=
  ⟨tally, proportion tally.wins tally.total, proportion tally.losses tally.total,
    proportion tally.ties tally.total⟩

/-- Cliff's delta: the excess of wins over losses, as a share of the rows. -/
def cliffsDelta? (tally : Tally) : Option α :=
  if 0 < tally.total then
    some ((ofNat tally.wins - ofNat tally.losses) / ofNat tally.total)
  else none

/-- The probability that the second value is higher, a tie counting half. -/
def superiority? (tally : Tally) : Option α :=
  if 0 < tally.total then
    some ((ofNat tally.wins + ofNat 1 / ofNat 2 * ofNat tally.ties) / ofNat tally.total)
  else none

end Tally

/-- How a number compares with another, numbers of which neither is smaller being tied. -/
def compareNumbers {α : Type} [Arithmetic α] (x y : α) : Ordering :=
  if Arithmetic.less y x then .gt else if Arithmetic.less x y then .lt else .eq

end Scorebook
