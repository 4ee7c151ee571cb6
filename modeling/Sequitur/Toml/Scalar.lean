import Sequitur.Number.Binary64
import Sequitur.Number.Word
import Sequitur.Text.Digits
import Sequitur.Text.Lines
import Sequitur.Toml.Value

/-!
# TOML numbers, dates and times

A value that is neither a string, an array nor a table is a run of letters, digits and the
signs `_ + - . :`, which as a whole is a truth value, an integer, a floating-point number,
or a date or time. Integers have 64 bits with sign. Digits may be grouped by low lines.
-/

namespace Sequitur.Toml

open Sequitur.Text

/-- Digits without the low lines between them; a low line stands between two digits. -/
def ungroup? (isDigit : Char → Bool) (cs : List Char) : Option (List Char) :=
  let groups := splitWhere (· == '_') cs
  if groups.all fun group => !group.isEmpty && group.all isDigit then some groups.flatten
  else none

def splitSign (cs : List Char) : Bool × List Char :=
  match cs with
  | '-' :: rest => (true, rest)
  | '+' :: rest => (false, rest)
  | _ => (false, cs)

/-! ### Integers -/

/-- The digits of a decimal integer without sign; a zero in front stands alone. -/
def decimalDigits? (cs : List Char) : Option (List Char) := do
  let digits ← ungroup? Char.isDigit cs
  if cs.head? = some '0' ∧ cs ≠ ['0'] then none else some digits

/-- The integer of a run in a base other than ten, behind the mark of the base. -/
def integerInBase? (base : Nat) (isDigit : Char → Bool) (cs : List Char) : Option Int := do
  Number.signed64? false (← numberInBase? base (← ungroup? isDigit cs))

def integer? (cs : List Char) : Option Int :=
  match cs with
  | '0' :: 'x' :: rest => integerInBase? 16 (fun c => (hexValue? c).isSome) rest
  | '0' :: 'o' :: rest => integerInBase? 8 (fun c => '0' ≤ c && c ≤ '7') rest
  | '0' :: 'b' :: rest => integerInBase? 2 (fun c => c == '0' || c == '1') rest
  | _ => do
      let (negative, rest) := splitSign cs
      Number.signed64? negative (digitsValue (← decimalDigits? rest))

/-! ### Floating-point numbers -/

/-- A run cut at the first character that satisfies a predicate, which is left out. -/
def cutAt (p : Char → Bool) (cs : List Char) : List Char × Option (List Char) :=
  match cs.dropWhile (!p ·) with
  | [] => (cs, none)
  | _ :: rest => (cs.takeWhile (!p ·), some rest)

/-- The digits of a decimal magnitude and its power of ten. -/
structure FloatParts where
  digits : List Char
  exponent : Int

/-- The parts of a floating-point number without sign: a fraction or an exponent has to be
there. -/
def floatParts? (cs : List Char) : Option FloatParts := do
  let (mantissa, power) := cutAt (fun c => c == 'e' || c == 'E') cs
  let (whole, fraction) := cutAt (· == '.') mantissa
  if fraction.isNone ∧ power.isNone then none
  let whole ← decimalDigits? whole
  let fraction ← match fraction with
    | none => some []
    | some digits => ungroup? Char.isDigit digits
  let exponent ← match power with
    | none => some (0 : Int)
    | some power => do
        let (negative, digits) := splitSign power
        let value := digitsValue (← ungroup? Char.isDigit digits)
        some (if negative then -(value : Int) else value)
  return ⟨whole ++ fraction, exponent - fraction.length⟩

/-- A decimal magnitude whose leading digit stands beyond this power of ten is out of range
for binary64. -/
def maxDecimalPower : Int := 400

/-- A decimal magnitude is in range when it rounds to a finite binary64 number. -/
def FloatParts.inRange (parts : FloatParts) : Bool :=
  let digits := parts.digits.dropWhile (· == '0')
  let value := digitsValue digits
  if value = 0 ∨ parts.exponent + digits.length < 0 then true
  else if maxDecimalPower < parts.exponent + digits.length then false
  else
    (Number.Binary64.round
      (value * Number.Binary64.unitsPerOne * Nat.pow 10 parts.exponent.toNat)
      (Nat.pow 10 (-parts.exponent).toNat)).isSome

/-- A run may be a floating-point number. A positive one has to be in range. -/
def isFloat (cs : List Char) : Bool :=
  let (negative, rest) := splitSign cs
  rest == "inf".toList || rest == "nan".toList ||
    match floatParts? rest with
    | none => false
    | some parts => negative || parts.inRange

/-! ### Dates and times -/

/-- The value of a two-digit field that is between two bounds. -/
def twoDigits? (low high : Nat) (a b : Char) : Option Nat := do
  if a.isDigit && b.isDigit then
    let value := digitsValue [a, b]
    if low ≤ value ∧ value ≤ high then some value else none
  else none

def isLeapYear (year : Nat) : Bool := (year % 4 == 0 && year % 100 != 0) || year % 400 == 0

def daysInMonth (year month : Nat) : Nat :=
  if month = 2 then if isLeapYear year then 29 else 28
  else if month = 4 ∨ month = 6 ∨ month = 9 ∨ month = 11 then 30
  else 31

def isDate (cs : List Char) : Bool :=
  match cs with
  | [y1, y2, y3, y4, '-', m1, m2, '-', d1, d2] =>
      [y1, y2, y3, y4].all Char.isDigit &&
        match twoDigits? 1 12 m1 m2, twoDigits? 1 31 d1 d2 with
        | some month, some day => day ≤ daysInMonth (digitsValue [y1, y2, y3, y4]) month
        | _, _ => false
  | _ => false

/-- Eight characters with a fraction of a second behind them may be a time; what is left
behind the time is given back. -/
def timeRest? (cs : List Char) : Option (List Char) :=
  match cs with
  | h1 :: h2 :: ':' :: m1 :: m2 :: ':' :: s1 :: s2 :: rest =>
      if (twoDigits? 0 23 h1 h2).isSome && (twoDigits? 0 59 m1 m2).isSome &&
          (twoDigits? 0 60 s1 s2).isSome then
        match rest with
        | '.' :: fraction =>
            if (fraction.takeWhile Char.isDigit).isEmpty then none
            else some (fraction.dropWhile Char.isDigit)
        | _ => some rest
      else none
  | _ => none

/-- What may stand behind the time of a date: nothing, or the offset from universal time. -/
def isOffset (cs : List Char) : Bool :=
  match cs with
  | [] | ['Z'] | ['z'] => true
  | [sign, h1, h2, ':', m1, m2] =>
      (sign == '+' || sign == '-') && (twoDigits? 0 23 h1 h2).isSome &&
        (twoDigits? 0 59 m1 m2).isSome
  | _ => false

/-- A run may be a time that follows a date. -/
def isTimeOfDate (cs : List Char) : Bool := (timeRest? cs).any isOffset

/-- A run may be a date, a date with a time, or a time. -/
def isDateTime (cs : List Char) : Bool :=
  if isDate (cs.take 10) then
    match cs.drop 10 with
    | [] => true
    | c :: time => (c == 'T' || c == 't' || c == ' ') && isTimeOfDate time
  else timeRest? cs == some []

def scalar? (cs : List Char) : Option Toml :=
  if cs = "true".toList then some (.boolean true)
  else if cs = "false".toList then some (.boolean false)
  else
    match integer? cs with
    | some value => some (.integer value)
    | none =>
        if isFloat cs then some (.float (String.ofList cs))
        else if isDateTime cs then some (.dateTime (String.ofList cs))
        else none

end Sequitur.Toml
