import Sequitur.Text.Scanner
import Sequitur.Toml.Node
import Sequitur.Toml.Scalar

/-!
# Reading TOML

A document is a sequence of lines, each of which is empty, a comment, a header, or a key
with its value; arrays and strings in triple quotes may stretch over several lines. A text
that is no document has a single fault: it is refused as a whole.
-/

namespace Sequitur.Toml

open Sequitur.Text

/-- Takes a value off the front of a TOML text. -/
abbrev Reader (α : Type) := Scanner Unit α

def refuse : Reader α := throw ()

def give (found : Option α) : Reader α :=
  match found with
  | none => refuse
  | some value => return value

/-- How deeply arrays and inline tables may be nested. -/
def maxDepth : Nat := 79

def maxKeyParts : Nat := 79

/-! ### Blanks, comments and ends of lines -/

/-- The characters that may stand between the parts of a line. -/
def isBlank (c : Char) : Bool := c == ' ' || c == '\t'

/-- Control characters other than the tab stand nowhere in a document, save in ends of
lines. -/
def isPlain (c : Char) : Bool := c == '\t' || (0x20 ≤ c.toNat && c.toNat != 0x7F)

def blanks : Reader Unit := Scanner.skipWhile isBlank

def acceptNewline : Reader Bool := do
  if ← Scanner.accept '\n' then return true else Scanner.acceptText ['\r', '\n']

def skipComment : Reader Unit := do
  if ← Scanner.accept '#' then Scanner.skipWhile isPlain

/-- Takes what may stand behind the contents of a line, up to its end. -/
def lineEnd : Reader Unit := do
  blanks
  skipComment
  unless ← acceptNewline do
    if (← Scanner.peek).isSome then refuse

/-- One step over blanks, comments and ends of lines. -/
def spaceStep (_ : Unit) : Reader (Turn Unit Unit) := do
  blanks
  skipComment
  if ← acceptNewline then return .again () else return .done ()

/-- Leaves out blanks, comments and ends of lines. A comment has to end with a line. -/
def spaces : Reader Unit := Scanner.loop () spaceStep ()

/-! ### Strings -/

def unescaped (c : Char) : Option Char :=
  if c = '"' ∨ c = '\\' then some c
  else if c = 'b' then some (Char.ofNat 0x8)
  else if c = 'f' then some (Char.ofNat 0xC)
  else if c = 'n' then some '\n'
  else if c = 'r' then some '\r'
  else if c = 't' then some '\t'
  else none

def charOfHex? (digits : List Char) : Option Char := (hexNumber? digits).bind charOfNat?

/-- The characters of a string up to its closing quote, and the text behind it. -/
def stringBody : List Char → Option (List Char × List Char)
  | [] => none
  | '"' :: rest => some ([], rest)
  | '\\' :: 'u' :: a :: b :: c :: d :: rest => do
      let char ← charOfHex? [a, b, c, d]
      let (cs, after) ← stringBody rest
      return (char :: cs, after)
  | '\\' :: 'U' :: a :: b :: c :: d :: e :: f :: g :: h :: rest => do
      let char ← charOfHex? [a, b, c, d, e, f, g, h]
      let (cs, after) ← stringBody rest
      return (char :: cs, after)
  | '\\' :: c :: rest => do
      let char ← unescaped c
      let (cs, after) ← stringBody rest
      return (char :: cs, after)
  | c :: rest => do
      if c = '\\' ∨ !isPlain c then none
      let (cs, after) ← stringBody rest
      return (c :: cs, after)

/-- The characters of a literal string up to its closing apostrophe, and the text behind
it. -/
def literalBody : List Char → Option (List Char × List Char)
  | [] => none
  | '\'' :: rest => some ([], rest)
  | c :: rest => do
      if !isPlain c then none
      let (cs, after) ← literalBody rest
      return (c :: cs, after)

/-- Blanks and the end of the line may follow a backslash: what comes next is then continued
on a later line. -/
def continuesLine (rest : List Char) : Bool :=
  match rest.dropWhile isBlank with
  | '\n' :: _ => true
  | '\r' :: '\n' :: _ => true
  | _ => false

/-- The characters of a string in triple quotes up to the closing ones, and the text behind
it. While `trimming`, blanks and ends of lines are left out. Up to two quotes may stand
before the closing ones. -/
def longStringBody (trimming : Bool) : List Char → Option (List Char × List Char)
  | [] => none
  | '"' :: '"' :: '"' :: '"' :: '"' :: rest => some (['"', '"'], rest)
  | '"' :: '"' :: '"' :: '"' :: rest => some (['"'], rest)
  | '"' :: '"' :: '"' :: rest => some ([], rest)
  | '\\' :: 'u' :: a :: b :: c :: d :: rest => do
      let char ← charOfHex? [a, b, c, d]
      let (cs, after) ← longStringBody false rest
      return (char :: cs, after)
  | '\\' :: 'U' :: a :: b :: c :: d :: e :: f :: g :: h :: rest => do
      let char ← charOfHex? [a, b, c, d, e, f, g, h]
      let (cs, after) ← longStringBody false rest
      return (char :: cs, after)
  | '\r' :: '\n' :: rest => do
      let (cs, after) ← longStringBody trimming rest
      return (if trimming then cs else '\n' :: cs, after)
  | '\\' :: c :: rest =>
      if continuesLine (c :: rest) then
        if c = '\r' then longStringBody true (c :: rest) else longStringBody true rest
      else do
        let char ← unescaped c
        let (cs, after) ← longStringBody false rest
        return (char :: cs, after)
  | c :: rest =>
      if trimming && (isBlank c || c == '\n') then longStringBody true rest
      else do
        if c = '\\' ∨ !(isPlain c || c == '\n') then none
        let (cs, after) ← longStringBody false rest
        return (c :: cs, after)

/-- The characters of a literal string in triple apostrophes up to the closing ones, and the
text behind it. -/
def longLiteralBody : List Char → Option (List Char × List Char)
  | [] => none
  | '\'' :: '\'' :: '\'' :: '\'' :: '\'' :: rest => some (['\'', '\''], rest)
  | '\'' :: '\'' :: '\'' :: '\'' :: rest => some (['\''], rest)
  | '\'' :: '\'' :: '\'' :: rest => some ([], rest)
  | '\r' :: '\n' :: rest => do
      let (cs, after) ← longLiteralBody rest
      return ('\n' :: cs, after)
  | c :: rest => do
      if !(isPlain c || c == '\n') then none
      let (cs, after) ← longLiteralBody rest
      return (c :: cs, after)

/-- Reads the rest of a string by one of the functions above. -/
def bodyBy (body : List Char → Option (List Char × List Char)) : Reader String := fun text =>
  match body text with
  | none => .error ()
  | some (cs, rest) => .ok (String.ofList cs, rest)

def anyString : Reader String := do
  if ← Scanner.acceptText ['"', '"', '"'] then
    let _ ← acceptNewline
    bodyBy (longStringBody false)
  else
    Scanner.advance
    bodyBy stringBody

def anyLiteral : Reader String := do
  if ← Scanner.acceptText ['\'', '\'', '\''] then
    let _ ← acceptNewline
    bodyBy longLiteralBody
  else
    Scanner.advance
    bodyBy literalBody

/-! ### Keys -/

def isBareChar (c : Char) : Bool :=
  ('a' ≤ c && c ≤ 'z') || ('A' ≤ c && c ≤ 'Z') || c.isDigit || c == '_' || c == '-'

def keyPart : Reader String := do
  if ← Scanner.accept '"' then bodyBy stringBody
  else if ← Scanner.accept '\'' then bodyBy literalBody
  else
    let cs ← Scanner.takeWhile isBareChar
    if cs.isEmpty then refuse else return String.ofList cs

def keyStep (parts : List String) : Reader (Turn (List String) (List String)) := do
  blanks
  let part ← keyPart
  blanks
  if ← Scanner.accept '.' then return .again (parts ++ [part]) else return .done (parts ++ [part])

/-- Reads a key: the parts that lead to a table, and the last one. -/
def key : Reader (List String × String) := do
  let parts ← Scanner.loop () keyStep []
  if maxKeyParts < parts.length then refuse
  return (parts.dropLast, parts.getLastD "")

/-! ### Values -/

def isScalarChar (c : Char) : Bool := isBareChar c || c == '+' || c == '.' || c == ':'

/-- Reads a value without quotes or brackets. The time of a date may be parted from it by a
space. -/
def scalarValue : Reader Toml := do
  let run ← Scanner.takeWhile isScalarChar
  let text ← get
  if isDate run ∧ text.head? = some ' ' ∧ (text.drop 1).head?.any Char.isDigit then
    Scanner.advance
    let time ← Scanner.takeWhile isScalarChar
    give (scalar? (run ++ ' ' :: time))
  else give (scalar? run)

def arrayStep (value : Reader Toml) (items : List Toml) :
    Reader (Turn (List Toml) (List Toml)) := do
  spaces
  if ← Scanner.accept ']' then return .done items
  let item ← value
  spaces
  if ← Scanner.accept ',' then return .again (items ++ [item])
  else
    Scanner.expect () ']'
    return .done (items ++ [item])

def keyValue (value : Reader Toml) : Reader ((List String × String) × Toml) := do
  let name ← key
  Scanner.expect () '='
  blanks
  let found ← value
  blanks
  return (name, found)

/-- Reads one more member of an inline table, given the members before it. -/
def inlineStep (value : Reader Toml) (members : Members) : Reader (Turn Members Members) := do
  let ((path, name), found) ← keyValue value
  let members ← give (assign path name found members)
  if ← Scanner.accept ',' then return .again members
  else
    Scanner.expect () '\x7d'
    return .done members

/-- Reads a value in which arrays and inline tables are nested at most `depth` deep. -/
def valueOfDepth : (depth : Nat) → Reader Toml
  | 0 => do
      match ← Scanner.peek with
      | some '"' => return .string (← anyString)
      | some '\'' => return .string (← anyLiteral)
      | _ => scalarValue
  | depth + 1 => do
      match ← Scanner.peek with
      | some '"' => return .string (← anyString)
      | some '\'' => return .string (← anyLiteral)
      | some '[' =>
          Scanner.advance
          return .array (← Scanner.loop () (arrayStep (valueOfDepth depth)) [])
      | some '\x7b' =>
          Scanner.advance
          blanks
          if ← Scanner.accept '\x7d' then return .table []
          let members ← Scanner.loop () (inlineStep (valueOfDepth depth)) []
          return .table (Node.toMembers members)
      | _ => scalarValue

def value : Reader Toml := valueOfDepth maxDepth

/-! ### Documents -/

/-- A document that is being read: everything defined so far, and the path of the table that
keys are added to. -/
structure Draft where
  root : Members
  current : List String

def header (draft : Draft) : Reader Draft := do
  let isArray ← Scanner.accept '['
  let (path, name) ← key
  Scanner.expect () ']'
  if isArray then Scanner.expect () ']'
  let root ← give ((if isArray then appendTable else openTable) path name draft.root)
  return ⟨root, path ++ [name]⟩

def lineStep (draft : Draft) : Reader (Turn Draft Draft) := do
  blanks
  match ← Scanner.peek with
  | none => return .done draft
  | some c =>
      if c = '#' ∨ c = '\n' ∨ c = '\r' then
        lineEnd
        return .again draft
      else if c = '[' then
        Scanner.advance
        let draft ← header draft
        lineEnd
        return .again draft
      else
        let ((path, name), found) ← keyValue value
        let root ← give
          (changeAlongHeader (fun _ members => assign path name found members) draft.current
            draft.root)
        lineEnd
        return .again { draft with root }

/-- Reads a document. A byte order mark may stand before it. -/
def document : Reader Toml := do
  let _ ← Scanner.accept (Char.ofNat 0xFEFF)
  let draft ← Scanner.loop () lineStep ⟨[], []⟩
  return .table (Node.toMembers draft.root)

def ofText? (text : String) : Option Toml :=
  ((document text.toList).map Prod.fst).toOption

end Sequitur.Toml
