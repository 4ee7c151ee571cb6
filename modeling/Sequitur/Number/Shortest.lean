import Sequitur.Number.Binary64

/-!
# Shortest decimals

The decimal with the fewest digits that rounds to a given binary64 number, and of several
with as few digits the one nearest to the number. For every count of digits only the two
neighbours of the number on that decimal grid have to be tried: when some decimal of the
grid rounds to the number, so does one of them.
-/

namespace Sequitur.Number

/-- A positive decimal number: a whole number of digits times a power of ten. -/
structure Decimal where
  digits : Nat
  exponent : Int
  deriving DecidableEq, Repr

namespace Decimal

def fraction (d : Decimal) : Nat × Nat :=
  (d.digits * Binary64.unitsPerOne * Nat.pow 10 d.exponent.toNat,
    Nat.pow 10 (-d.exponent).toNat)

/-- A decimal rounds to a magnitude when it lies between the midpoints to the neighbours of
the magnitude; the midpoints themselves round to it when its significand is even. Below a
power of two the neighbour is half as far away. -/
def roundsTo (units : Nat) (d : Decimal) : Bool :=
  let (numerator, denominator) := d.fraction
  let step := Binary64.spacing units
  let below := if units = Nat.pow 2 units.log2 ∧ 1 < step then step / 2 else step
  let lower := (4 * units - 2 * below) * denominator
  let upper := (4 * units + 2 * step) * denominator
  if units / step % 2 = 0 then lower ≤ 4 * numerator && 4 * numerator ≤ upper
  else lower < 4 * numerator && 4 * numerator < upper

/-- How far a decimal is from a magnitude, in units and times its denominator. -/
def distance (units : Nat) (d : Decimal) : Nat :=
  let (numerator, denominator) := d.fraction
  ((numerator : Int) - (units * denominator : Nat)).natAbs

/-- The greatest power of ten that is not above a positive magnitude. -/
def leadingExponent (units : Nat) : Int :=
  if Binary64.unitsPerOne ≤ units then
    ((Nat.toDigits 10 (units / Binary64.unitsPerOne)).length : Int) - 1
  else
    match (List.range 325).find? (fun n => Binary64.unitsPerOne ≤ units * Nat.pow 10 n) with
    | some n => -(n : Int)
    | none => -325

def below (units : Nat) (exponent : Int) : Decimal :=
  ⟨units * Nat.pow 10 (-exponent).toNat / (Binary64.unitsPerOne * Nat.pow 10 exponent.toNat),
    exponent⟩

/-- The decimal of the given exponent that rounds to a magnitude and is nearest to it; of
two equally near the one with an even last digit. -/
def onGrid (units : Nat) (exponent : Int) : Option Decimal :=
  let low := below units exponent
  let high : Decimal := ⟨low.digits + 1, exponent⟩
  match low.roundsTo units, high.roundsTo units with
  | false, false => none
  | true, false => some low
  | false, true => some high
  | true, true =>
      if low.distance units < high.distance units then some low
      else if high.distance units < low.distance units then some high
      else if low.digits % 2 = 0 then some low
      else some high

/-- The decimal without the zeros at its end, of which at most `n` are dropped. -/
def dropZeros : Nat → Decimal → Decimal
  | 0, d => d
  | n + 1, d => if d.digits % 10 = 0 then dropZeros n ⟨d.digits / 10, d.exponent + 1⟩ else d

/-- The shortest decimal of a positive magnitude; seventeen digits always suffice. -/
def shortest (units : Nat) : Decimal :=
  let top := leadingExponent units
  match (List.range 17).findSome? (fun n : Nat => onGrid units (top - n)) with
  | some d => dropZeros 17 d
  | none => below units (top - 16)

end Decimal

end Sequitur.Number
