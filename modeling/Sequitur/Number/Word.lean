/-!
# Integers of 64 bits

The integers that a word of 64 bits holds, with sign and without.
-/

namespace Sequitur.Number

def isSigned64 (n : Int) : Bool := -0x8000000000000000 ≤ n && n < 0x8000000000000000

def isUnsigned64 (n : Nat) : Bool := n < 0x10000000000000000

/-- The integer of a sign and a magnitude, if a word with sign holds it. -/
def signed64? (isNegative : Bool) (magnitude : Nat) : Option Int :=
  let value : Int := if isNegative then -(magnitude : Int) else magnitude
  if isSigned64 value then some value else none

end Sequitur.Number
