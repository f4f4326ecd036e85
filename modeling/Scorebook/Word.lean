/-!
# Whole numbers of 64 bits

Codes and ranks are whole numbers of 64 bits with a sign, and row keys are such numbers without
one. Every reader that meets a whole number decides by this module whether it fits.
-/

namespace Scorebook

namespace Word

/-- The least number with a sign. -/
def least : Int := -0x8000000000000000

/-- The greatest number with a sign. -/
def greatest : Int := 0x7FFFFFFFFFFFFFFF

/-- The greatest number without a sign. -/
def greatestUnsigned : Int := 0xFFFFFFFFFFFFFFFF

/-- Whether a whole number fits 64 bits with a sign. -/
def isSigned (n : Int) : Bool := least ≤ n && n ≤ greatest

/-- Whether a whole number fits 64 bits without a sign. -/
def isUnsigned (n : Int) : Bool := 0 ≤ n && n ≤ greatestUnsigned

/-- The number with a sign that is nearest to a whole number. -/
def nearest (n : Int) : Int := max least (min greatest n)

end Word

end Scorebook
