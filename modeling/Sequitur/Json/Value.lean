import Sequitur.Number.Binary64

/-!
# JSON values

The data that requests, answers and snapshot files are made of. A number keeps whether it
was written as an integer of at most 64 bits. The members of an object are sorted by key
and have distinct keys.
-/

namespace Sequitur

/-- A JSON number: an integer, or a binary64 number for everything else. -/
inductive JsonNumber where
  | integer (value : Int)
  | double (value : Number.Binary64)
  deriving DecidableEq, Repr

/-- A JSON value. -/
inductive Json where
  | null
  | bool (value : Bool)
  | number (value : JsonNumber)
  | string (value : String)
  | array (items : List Json)
  | object (members : List (String × Json))
  deriving Repr, Inhabited

namespace Json

def int (value : Int) : Json := .number (.integer value)

def nat (value : Nat) : Json := int value

def strings (values : List String) : Json := .array (values.map .string)

/-- The members of an object with one more: it takes the place of a member of its key. -/
def insertMember (key : String) (value : α) : List (String × α) → List (String × α)
  | [] => [(key, value)]
  | (k, v) :: members =>
      if key < k then (key, value) :: (k, v) :: members
      else if key = k then (key, value) :: members
      else (k, v) :: insertMember key value members

/-- The object with the given members, of which the last one of a key counts. -/
def ofMembers (members : List (String × Json)) : Json :=
  .object (members.foldl (fun sorted member => insertMember member.1 member.2 sorted) [])

/-- The value of a member of an object; other values have no members. -/
def get? (key : String) : Json → Option Json
  | .object members => members.lookup key
  | _ => none

end Json

end Sequitur
