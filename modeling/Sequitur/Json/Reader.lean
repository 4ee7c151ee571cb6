import Sequitur.Json.Number
import Sequitur.Text.Digits

/-!
# Reading JSON

Values are read from the front of a text, and what follows them is left for the caller to
judge. A text may be at fault in two ways: it is no JSON, or it is JSON of another shape
than asked for. The fault that stands first in the text counts; a string, a number or a
word of the wrong kind is read to its end before its kind is refused.

Arrays and objects may be nested to a limited depth, except in values that are skipped:
those are not looked at beyond their form, so that also a number out of range or half of a
surrogate pair is let pass in them.
-/

namespace Sequitur.Json

open Sequitur.Text

/-- What is wrong with a text: it is no JSON, or JSON of another shape than asked for. -/
inductive Fault where
  | malformed
  | misshapen
  deriving DecidableEq, Repr

/-- Takes a value off the front of a JSON text. -/
abbrev Reader (α : Type) := Scanner Fault α

def maxDepth : Nat := 127

/-! ### Blanks, words and strings -/

/-- The characters that may stand between the parts of a JSON text. -/
def isBlank (c : Char) : Bool := c == ' ' || c == '\n' || c == '\t' || c == '\r'

def blanks : Reader Unit := Scanner.skipWhile isBlank

def word (text : String) : Reader Unit := do
  unless ← Scanner.acceptText text.toList do throw .malformed

def unescaped (c : Char) : Option Char :=
  if c = '"' ∨ c = '\\' ∨ c = '/' then some c
  else if c = 'b' then some (Char.ofNat 0x8)
  else if c = 'f' then some (Char.ofNat 0xC)
  else if c = 'n' then some '\n'
  else if c = 'r' then some '\r'
  else if c = 't' then some '\t'
  else none

def hexUnit? (a b c d : Char) : Option Nat := hexNumber? [a, b, c, d]

def isHighSurrogate (unit : Nat) : Bool := 0xD800 ≤ unit && unit < 0xDC00

def isLowSurrogate (unit : Nat) : Bool := 0xDC00 ≤ unit && unit < 0xE000

def ofSurrogates (high low : Nat) : Char :=
  Char.ofNat (0x10000 + (high - 0xD800) * 0x400 + (low - 0xDC00))

/-- The characters of a string up to its closing quote, and the text behind it. A control
character may not stand in a string, and halves of surrogate pairs only in pairs. -/
def stringBody : List Char → Option (List Char × List Char)
  | [] => none
  | '"' :: rest => some ([], rest)
  | '\\' :: 'u' :: a :: b :: c :: d :: rest =>
      match hexUnit? a b c d with
      | none => none
      | some unit =>
          if isLowSurrogate unit then none
          else if isHighSurrogate unit then
            match rest with
            | '\\' :: 'u' :: e :: f :: g :: h :: rest =>
                match hexUnit? e f g h with
                | none => none
                | some low =>
                    if isLowSurrogate low then
                      (stringBody rest).map fun (cs, after) => (ofSurrogates unit low :: cs, after)
                    else none
            | _ => none
          else (stringBody rest).map fun (cs, after) => (Char.ofNat unit :: cs, after)
  | '\\' :: c :: rest =>
      match unescaped c with
      | none => none
      | some c => (stringBody rest).map fun (cs, after) => (c :: cs, after)
  | c :: rest =>
      if c.toNat < 0x20 ∨ c = '\\' then none
      else (stringBody rest).map fun (cs, after) => (c :: cs, after)

/-- The text behind a string whose escapes are checked for their form alone. -/
def skippedString : List Char → Option (List Char)
  | [] => none
  | '"' :: rest => some rest
  | '\\' :: 'u' :: a :: b :: c :: d :: rest =>
      if (hexUnit? a b c d).isSome then skippedString rest else none
  | '\\' :: c :: rest => if (unescaped c).isSome then skippedString rest else none
  | c :: rest => if c.toNat < 0x20 ∨ c = '\\' then none else skippedString rest

def stringRest : Reader String := fun text =>
  match stringBody text with
  | none => .error .malformed
  | some (cs, rest) => .ok (String.ofList cs, rest)

def skipStringRest : Reader Unit := fun text =>
  match skippedString text with
  | none => .error .malformed
  | some rest => .ok ((), rest)

def anyNumber : Reader JsonNumber := do
  let parts ← numberParts Fault.malformed
  match parts.value with
  | none => throw .malformed
  | some value => return value

/-! ### Arrays and objects -/

def arrayStep (item : Reader α) (items : List α) : Reader (Turn (List α) (List α)) := do
  let value ← item
  blanks
  if ← Scanner.accept ',' then
    blanks
    if (← Scanner.peek) = some ']' then throw .malformed
    return .again (items ++ [value])
  else
    Scanner.expect .malformed ']'
    return .done (items ++ [value])

def arrayRest (item : Reader α) : Reader (List α) := do
  blanks
  if ← Scanner.accept ']' then return []
  else Scanner.loop .malformed (arrayStep item) []

def colon : Reader Unit := do
  blanks
  Scanner.expect .malformed ':'

/-- Reads one more member of an object, given what the members before it amount to. -/
def objectStep (key : Reader κ) (member : σ → κ → Reader σ) (state : σ) :
    Reader (Turn σ σ) := do
  blanks
  Scanner.expect .malformed '"'
  let name ← key
  let state ← member state name
  blanks
  if ← Scanner.accept ',' then return .again state
  else
    Scanner.expect .malformed '\x7d'
    return .done state

/-- Reads the members of an object behind its opening brace: `member` reads what follows a
key, which is read by `key` behind its opening quote. -/
def objectRest (key : Reader κ) (member : σ → κ → Reader σ) (initial : σ) : Reader σ := do
  blanks
  if ← Scanner.accept '\x7d' then return initial
  else Scanner.loop .malformed (objectStep key member) initial

/-! ### Values -/

/-- Reads the value that begins with a character that begins neither an array nor an
object. -/
def scalar (c : Char) : Reader Json :=
  if c = 'n' then do
    word "null"
    return .null
  else if c = 't' then do
    word "true"
    return .bool true
  else if c = 'f' then do
    word "false"
    return .bool false
  else if c = '"' then do
    Scanner.advance
    return .string (← stringRest)
  else if c = '-' ∨ c.isDigit then do
    return .number (← anyNumber)
  else throw .malformed

/-- Reads a value in which arrays and objects are nested at most `depth` deep. -/
def valueOfDepth : (depth : Nat) → Reader Json
  | 0 => do
      blanks
      match ← Scanner.peek with
      | none => throw .malformed
      | some c => scalar c
  | depth + 1 => do
      blanks
      match ← Scanner.peek with
      | none => throw .malformed
      | some c =>
          if c = '[' then
            Scanner.advance
            return .array (← arrayRest (valueOfDepth depth))
          else if c = '\x7b' then
            Scanner.advance
            let members ← objectRest stringRest (fun members key => do
              colon
              let value ← valueOfDepth depth
              return insertMember key value members) []
            return .object members
          else scalar c

def anyValue : Reader Json := valueOfDepth maxDepth

/-- Skips the value that begins with a character that begins neither an array nor an
object. -/
def skipScalar (c : Char) : Reader Unit :=
  if c = '"' then do
    Scanner.advance
    skipStringRest
  else if c = '-' ∨ c.isDigit then do
    let _ ← numberParts Fault.malformed
  else do
    let _ ← scalar c

/-- Skips a value in which arrays and objects are nested at most `depth` deep. -/
def skipOfDepth : (depth : Nat) → Reader Unit
  | 0 => throw .malformed
  | depth + 1 => do
      blanks
      match ← Scanner.peek with
      | none => throw .malformed
      | some c =>
          if c = '[' then
            Scanner.advance
            let _ ← arrayRest (skipOfDepth depth)
          else if c = '\x7b' then
            Scanner.advance
            objectRest skipStringRest (fun _ _ => do
              colon
              skipOfDepth depth) ()
          else skipScalar c

/-- Skips a value of any depth: a text cannot nest more values than it has characters. -/
def skipValue : Reader Unit := fun text => skipOfDepth (text.length + 1) text

/-- Reads a value from a text that holds nothing else but blanks. -/
def whole (reader : Reader α) (text : List Char) : Except Fault α := do
  let (result, rest) ← reader text
  if (rest.dropWhile isBlank).isEmpty then return result else throw .malformed

def ofText? (text : String) : Option Json := (whole anyValue text.toList).toOption

/-! ### Values of a given shape -/

/-- Refuses a value of another kind than asked for. -/
def wrongKind : Reader α := do
  match ← Scanner.peek with
  | none => throw .malformed
  | some c =>
      unless c = '[' ∨ c = '\x7b' do
        let _ ← scalar c
      throw .misshapen

def stringValue : Reader String := do
  blanks
  if ← Scanner.accept '"' then stringRest else wrongKind

def int64Value : Reader Int := do
  blanks
  match ← Scanner.peek with
  | none => throw .malformed
  | some c =>
      if c = '-' ∨ c.isDigit then
        match ← anyNumber with
        | .integer n => if Number.isSigned64 n then return n else throw .misshapen
        | .double _ => throw .misshapen
      else wrongKind

def arrayValue (item : Reader α) : Reader (List α) := do
  blanks
  if ← Scanner.accept '[' then arrayRest item else wrongKind

/-- Reads a record, written as an object with the fields as members or as an array of the
fields in their order, and refuses other values. -/
def recordValue (ofMembers ofItems : Reader α) : Reader α := do
  blanks
  if ← Scanner.accept '\x7b' then ofMembers
  else if ← Scanner.accept '[' then
    let result ← ofItems
    blanks
    Scanner.expect .malformed ']'
    return result
  else wrongKind

/-- Reads a field of a record that is written as an array; a field that is left out is
missed. -/
def itemField (isFirst : Bool) (field : Reader α) : Reader α := do
  blanks
  match ← Scanner.peek with
  | none => throw .malformed
  | some c =>
      if c = ']' then throw .misshapen
      else if isFirst then field
      else
        Scanner.expect .malformed ','
        blanks
        if (← Scanner.peek) = some ']' then throw .malformed
        field

/-- Reads a field of a record that is written as an object. A field is given only once. -/
def memberField (found : Option α) (field : Reader α) : Reader (Option α) := do
  if found.isSome then throw .misshapen
  colon
  return some (← field)

/-- The value of a field that may have been left out. -/
def required (found : Option α) : Reader α :=
  match found with
  | none => throw .misshapen
  | some value => return value

end Sequitur.Json
