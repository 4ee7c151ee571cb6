import Sequitur.Text.Digits

/-!
# Universally unique identifiers

An identifier is a row of 32 hexadecimal digits. It is written in lower case, in groups of
8, 4, 4, 4 and 12 digits with hyphens between them. It is read from this form, from the bare
digits, and from this form in braces or behind `urn:uuid:`; every letter, also one of that
mark, may be of either case.
-/

namespace Sequitur

/-- An identifier of 32 hexadecimal digits. -/
structure Uuid where
  digits : List (Fin 16)
  length_digits : digits.length = 32
  deriving DecidableEq, Repr

namespace Uuid

def zero : Uuid := ⟨List.replicate 32 0, by simp⟩

def digitChar (digit : Fin 16) : Char := Nat.digitChar digit

def digit? (c : Char) : Option (Fin 16) :=
  (Text.hexValue? c).bind fun n => if h : n < 16 then some ⟨n, h⟩ else none

theorem digit?_digitChar (digit : Fin 16) : digit? (digitChar digit) = some digit := by
  revert digit
  decide

def ofDigits? (digits : List (Fin 16)) : Option Uuid :=
  if h : digits.length = 32 then some ⟨digits, h⟩ else none

def groupLengths : List Nat := [8, 4, 4, 4]

def hyphenate : List Nat → List Char → List Char
  | [], cs => cs
  | n :: lengths, cs => cs.take n ++ '-' :: hyphenate lengths (cs.drop n)

def unhyphenate? : List Nat → List Char → Option (List Char)
  | [], cs => some cs
  | n :: lengths, cs =>
      match cs.drop n with
      | '-' :: rest => (unhyphenate? lengths rest).map (cs.take n ++ ·)
      | _ => none

def text (id : Uuid) : List Char := hyphenate groupLengths (id.digits.map digitChar)

def toString (id : Uuid) : String := String.ofList id.text

def ofPlain? (cs : List Char) : Option Uuid := (cs.mapM digit?).bind ofDigits?

def ofHyphenated? (cs : List Char) : Option Uuid :=
  if cs.length = 36 then (unhyphenate? groupLengths cs).bind ofPlain? else none

def urnMark : List Char := "urn:uuid:".toList

/-- The characters behind the mark, if they begin with it in letters of any case. -/
def behindMark? (cs : List Char) : Option (List Char) :=
  if (cs.take urnMark.length).map Char.toLower = urnMark then some (cs.drop urnMark.length)
  else none

def ofText? (cs : List Char) : Option Uuid :=
  if cs.length = 32 then ofPlain? cs
  else if cs.length = 36 then ofHyphenated? cs
  else if cs.head? = some '\x7b' ∧ cs.getLast? = some '\x7d' ∧ cs.length = 38 then
    ofHyphenated? (cs.drop 1).dropLast
  else (behindMark? cs).bind ofHyphenated?

def ofString? (s : String) : Option Uuid := ofText? s.toList

end Uuid

end Sequitur
