import Sequitur.Text.Join

/-!
# Content types

The header that says what a request body is. A body is JSON when its type is `application`
and its subtype is `json`, or has the suffix `json` behind its last plus sign. Case does not
count, and parameters may follow. A header that is not well formed says nothing.
-/

namespace Sequitur.Gateway

def isNameChar (c : Char) : Bool :=
  c.isAlphanum || "!#$%&'*+-.^_`|~".toList.contains c

def isQuotedChar (c : Char) : Bool := 0x20 ≤ c.toNat && c.toNat < 0x7F && c != '"'

/-- What follows the value of a parameter that stands in quotes, up to the next parameter. -/
def afterQuoted (cs : List Char) : Option (List Char) :=
  match cs.dropWhile (· == ' ') with
  | [] => some []
  | ';' :: rest => some rest
  | _ => none

/-- What follows the value of a parameter, if it is well formed. A value in quotes is not
empty: a quote right behind the opening one belongs to the value. -/
def afterValue (cs : List Char) : Option (List Char) :=
  match cs with
  | '"' :: c :: quoted =>
      if isQuotedChar c || c == '"' then
        match quoted.dropWhile isQuotedChar with
        | '"' :: rest => afterQuoted rest
        | _ => none
      else none
  | _ =>
      match cs.takeWhile isNameChar, cs.dropWhile isNameChar with
      | _, [] => some []
      | _ :: _, ';' :: rest => some rest
      | _, _ => none

/-- Parameters are well formed when each has a name, an equals sign and a value; blanks may
stand before a name. -/
def areParameters (cs : List Char) : Bool :=
  let parameter := cs.dropWhile (· == ' ')
  if parameter.isEmpty then true
  else
    match parameter.takeWhile isNameChar, parameter.dropWhile isNameChar with
    | _ :: _, '=' :: value =>
        match afterValue value with
        | some after => if after.length < cs.length then areParameters after else false
        | none => false
    | _, _ => false
termination_by cs.length

/-- The part of a subtype before its last plus sign, and the part behind it. A plus sign in
front does not count. -/
def splitSuffix (subtype : List Char) : List Char × Option (List Char) :=
  let suffix := (subtype.reverse.takeWhile (· != '+')).reverse
  if suffix.length + 1 < subtype.length then
    (subtype.take (subtype.length - suffix.length - 1), some suffix)
  else (subtype, none)

def isJsonType (header : String) : Bool :=
  let cs := header.toList.map Char.toLower
  match cs.takeWhile isNameChar, cs.dropWhile isNameChar with
  | type, '/' :: rest =>
      let subtype := rest.takeWhile isNameChar
      let parametersHold :=
        match rest.dropWhile isNameChar with
        | [] => true
        | ';' :: parameters => !subtype.isEmpty && areParameters parameters
        | _ => false
      let (name, suffix) := splitSuffix subtype
      parametersHold && type == "application".toList &&
        (name == "json".toList || suffix == some "json".toList)
  | _, _ => false

end Sequitur.Gateway
