import Sequitur.Json.Value
import Sequitur.Number.Word
import Sequitur.Text.Digits
import Sequitur.Text.Scanner

/-!
# Reading JSON numbers

A number without fraction and exponent is an integer when it fits 64 bits, signed or
unsigned. Every other number is read as binary64 in two roundings: the leading digits that
fit an unsigned 64-bit integer make up the significand, which is rounded first, and the
power of ten is multiplied to it or divided from it afterwards. Digits that do not fit are
only counted.

A number is out of range when its exponent or its value is too large, and zero when its
value is too small.
-/

namespace Sequitur.Json

open Sequitur.Text

/-! ### The text of a number -/

/-- The parts of the text of a number: its sign, the digits before and behind the point,
and the sign and the digits of its exponent. -/
structure NumberParts where
  negative : Bool
  whole : List Char
  fraction : List Char
  exponent : Option (Bool × List Char)
  deriving DecidableEq, Repr

def digits1 (fault : ε) : Scanner ε (List Char) := do
  let digits ← Scanner.takeWhile Char.isDigit
  if digits.isEmpty then throw fault
  return digits

def fractionDigits (fault : ε) : Scanner ε (List Char) := do
  if ← Scanner.accept '.' then digits1 fault else return []

/-- Takes an exponent, if there is one, and tells whether it is negative. -/
def exponentDigits (fault : ε) : Scanner ε (Option (Bool × List Char)) := do
  let found ← Scanner.accept 'e'
  let found ← if found then pure true else Scanner.accept 'E'
  if found then
    if ← Scanner.accept '-' then return some (true, ← digits1 fault)
    else
      let _ ← Scanner.accept '+'
      return some (false, ← digits1 fault)
  else return none

/-- Takes the text of a number. A zero is not followed by further digits. -/
def numberParts (fault : ε) : Scanner ε NumberParts := do
  let negative ← Scanner.accept '-'
  let whole ← digits1 fault
  if whole.length > 1 && whole.head? = some '0' then throw fault
  let fraction ← fractionDigits fault
  let exponent ← exponentDigits fault
  return ⟨negative, whole, fraction, exponent⟩

/-! ### The value of a number -/

/-- Appends digits to a significand for as long as it fits 64 bits, and gives the digits
that are left. -/
def absorb (significand : Nat) : List Char → Nat × List Char
  | [] => (significand, [])
  | c :: cs =>
      let next := significand * 10 + digitValue c
      if Number.isUnsigned64 next then absorb next cs else (significand, c :: cs)

/-- The greatest power of ten that one multiplication or division takes. -/
def maxPower : Nat := 308

/-- A magnitude divided by a power of ten, in steps that binary64 can take. -/
def scaleDown (units : Nat) (power : Nat) : Option Nat :=
  if _h : maxPower < power then
    if units = 0 then some 0
    else do
      let divisor ← Number.Binary64.ofNat (Nat.pow 10 maxPower)
      let units ← Number.Binary64.div units divisor
      scaleDown units (power - maxPower)
  else do
    let divisor ← Number.Binary64.ofNat (Nat.pow 10 power)
    Number.Binary64.div units divisor
termination_by power
decreasing_by
  have hpower : 0 < maxPower := by decide
  exact Nat.sub_lt (Nat.lt_trans hpower ‹maxPower < power›) hpower

def scaleUp (units : Nat) (power : Nat) : Option Nat :=
  if units = 0 then some 0
  else if maxPower < power then none
  else do
    let factor ← Number.Binary64.ofNat (Nat.pow 10 power)
    Number.Binary64.mul units factor

/-- The magnitude of a significand times a power of ten, if it is in range. -/
def scaled (significand : Nat) (exponent : Int) : Option Nat := do
  let units ← Number.Binary64.ofNat significand
  if 0 ≤ exponent then scaleUp units exponent.toNat else scaleDown units (-exponent).toNat

/-- An exponent beyond the signed 32-bit integers is not computed with. -/
def exponentBound : Nat := 0x80000000

/-- The magnitude of the parts of a number, if it is in range. -/
def NumberParts.magnitude (parts : NumberParts) : Option Nat :=
  let (significand, uncounted) := absorb 0 parts.whole
  let (significand, unused) := absorb significand parts.fraction
  let shift : Int := uncounted.length - (parts.fraction.length - unused.length : Nat)
  match parts.exponent with
  | none => scaled significand shift
  | some (isNegative, digits) =>
      let exponent := digitsValue digits
      if exponentBound ≤ exponent then
        if significand = 0 ∨ isNegative then some 0 else none
      else scaled significand (if isNegative then shift - exponent else shift + exponent)

/-- The integer that the parts of a number denote, if they are those of an integer of 64
bits; a negative zero is none. -/
def NumberParts.integer? (parts : NumberParts) : Option Int :=
  if parts.fraction.isEmpty && parts.exponent.isNone then
    let value := digitsValue parts.whole
    if parts.negative then if value = 0 then none else Number.signed64? true value
    else if Number.isUnsigned64 value then some value
    else none
  else none

/-- The number that the parts denote, if it is in range. -/
def NumberParts.value (parts : NumberParts) : Option JsonNumber :=
  match parts.integer? with
  | some value => some (.integer value)
  | none => parts.magnitude.map fun units => .double ⟨parts.negative, units⟩

end Sequitur.Json
