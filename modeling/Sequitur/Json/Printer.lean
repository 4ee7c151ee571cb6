import Sequitur.Json.Value
import Sequitur.Number.Shortest
import Sequitur.Text.Join

/-!
# Writing JSON

The compact form has no blanks. The pretty form has every item and every member on a line
of its own, two more spaces deep than what holds it, and writes empty arrays and objects
as in the compact form. In strings only quotes, backslashes and control characters are
escaped.
-/

namespace Sequitur.Json

open Sequitur.Text

/-! ### Strings -/

def escaped (c : Char) : List Char :=
  if c = '"' then ['\\', '"']
  else if c = '\\' then ['\\', '\\']
  else if c = '\n' then ['\\', 'n']
  else if c = '\r' then ['\\', 'r']
  else if c = '\t' then ['\\', 't']
  else if c.toNat = 0x8 then ['\\', 'b']
  else if c.toNat = 0xC then ['\\', 'f']
  else if c.toNat < 0x20 then
    ['\\', 'u', '0', '0', Nat.digitChar (c.toNat / 16), Nat.digitChar (c.toNat % 16)]
  else [c]

def stringText (value : List Char) : List Char := '"' :: value.flatMap escaped ++ ['"']

/-! ### Numbers -/

/-- The digits with a point after the first `n` of them. -/
def withPoint (n : Nat) (digits : List Char) : List Char :=
  digits.take n ++ '.' :: digits.drop n

/-- The text of a decimal: positional when the exponent of its first digit is at least -5
and at most 15, and otherwise the first digit, the others behind a point, and the signed
exponent. -/
def decimalText (d : Number.Decimal) : List Char :=
  let digits := Nat.toDigits 10 d.digits
  let top : Int := d.exponent + digits.length - 1
  if -5 ≤ top ∧ top ≤ 15 then
    if top < 0 then '0' :: '.' :: List.replicate (-top - 1).toNat '0' ++ digits
    else if 0 ≤ d.exponent then digits ++ List.replicate d.exponent.toNat '0' ++ ['.', '0']
    else withPoint (top.toNat + 1) digits
  else
    let significand := if digits.length = 1 then digits else withPoint 1 digits
    let sign := if top < 0 then '-' else '+'
    significand ++ 'e' :: sign :: Nat.toDigits 10 top.natAbs

/-- The text of a binary64 number: its shortest decimal, after the sign. -/
def doubleText (x : Number.Binary64) : List Char :=
  let magnitude :=
    if x.units = 0 then ['0', '.', '0'] else decimalText (Number.Decimal.shortest x.units)
  if x.negative then '-' :: magnitude else magnitude

def numberText : JsonNumber → List Char
  | .integer value => (toString value).toList
  | .double value => doubleText value

/-! ### Values -/

mutual

def compactText : Json → List Char
  | .null => "null".toList
  | .bool true => "true".toList
  | .bool false => "false".toList
  | .number value => numberText value
  | .string value => stringText value.toList
  | .array items => '[' :: joinWith [','] (compactItems items) ++ [']']
  | .object members => '\x7b' :: joinWith [','] (compactMembers members) ++ ['\x7d']

def compactItems : List Json → List (List Char)
  | [] => []
  | item :: items => compactText item :: compactItems items

def compactMembers : List (String × Json) → List (List Char)
  | [] => []
  | (key, value) :: members =>
      (stringText key.toList ++ ':' :: compactText value) :: compactMembers members

end

def newLine (depth : Nat) : List Char := '\n' :: List.replicate (2 * depth) ' '

/-- Texts on lines of their own between two marks, one step deeper than the marks. -/
def enclosed (opening closing : Char) (depth : Nat) (texts : List (List Char)) : List Char :=
  if texts.isEmpty then [opening, closing]
  else
    opening :: newLine (depth + 1) ++ joinWith (',' :: newLine (depth + 1)) texts ++
      newLine depth ++ [closing]

mutual

def prettyText (depth : Nat) : Json → List Char
  | .array items => enclosed '[' ']' depth (prettyItems depth items)
  | .object members => enclosed '\x7b' '\x7d' depth (prettyMembers depth members)
  | value => compactText value

def prettyItems (depth : Nat) : List Json → List (List Char)
  | [] => []
  | item :: items => prettyText (depth + 1) item :: prettyItems depth items

def prettyMembers (depth : Nat) : List (String × Json) → List (List Char)
  | [] => []
  | (key, value) :: members =>
      (stringText key.toList ++ ':' :: ' ' :: prettyText (depth + 1) value) ::
        prettyMembers depth members

end

def compact (value : Json) : String := String.ofList (compactText value)

def pretty (value : Json) : String := String.ofList (prettyText 0 value)

end Sequitur.Json
