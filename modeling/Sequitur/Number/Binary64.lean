/-!
# Finite binary64 numbers

A finite binary64 number is a whole multiple of the smallest positive one, `2 ^ -1074`, so
it is kept as a sign and the number of these units. Zero has a sign as well.

Every operation is exact arithmetic on units followed by one rounding: the result is a
nearest number of the format, and of two that are equally near the one whose significand
is even. A result beyond the largest finite number is no number here.
-/

namespace Sequitur.Number

/-- The quotient rounded to a nearest natural number, a tie to the even one. -/
def roundDiv (numerator denominator : Nat) : Nat :=
  let quotient := numerator / denominator
  let twice := 2 * (numerator % denominator)
  if twice < denominator then quotient
  else if denominator < twice then quotient + 1
  else if quotient % 2 = 0 then quotient
  else quotient + 1

/-- A finite binary64 number, as a sign and a multiple of the smallest positive one. -/
structure Binary64 where
  negative : Bool
  units : Nat
  deriving DecidableEq, Repr

namespace Binary64

def unitsPerOne : Nat := Nat.pow 2 1074

/-- The first magnitude, in units, that is out of range. -/
def overflow : Nat := Nat.pow 2 (1024 + 1074)

/-- The distance of the numbers of the format around a magnitude: a significand has 53
bits. -/
def spacing (units : Nat) : Nat := Nat.pow 2 (units.log2 - 52)

/-- The number nearest to a positive quotient of units, if it is in range. -/
def round (numerator denominator : Nat) : Option Nat :=
  let step := spacing (numerator / denominator)
  let units := roundDiv numerator (denominator * step) * step
  if units < overflow then some units else none

def ofNat (n : Nat) : Option Nat := round (n * unitsPerOne) 1

def mul (a b : Nat) : Option Nat := round (a * b) unitsPerOne

def div (a b : Nat) : Option Nat := round (a * unitsPerOne) b

def toInt? (x : Binary64) : Option Int :=
  if x.units % unitsPerOne = 0 then
    let magnitude : Int := (x.units / unitsPerOne : Nat)
    some (if x.negative then -magnitude else magnitude)
  else none

end Binary64

end Sequitur.Number
