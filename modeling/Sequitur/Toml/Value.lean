/-!
# TOML values

The values that a TOML document gives to its keys. Of a floating-point number and of a
date or time only the text is kept.
-/

namespace Sequitur

/-- A TOML value. -/
inductive Toml where
  | string (value : String)
  | integer (value : Int)
  | float (text : String)
  | boolean (value : Bool)
  | dateTime (text : String)
  | array (items : List Toml)
  | table (members : List (String × Toml))
  deriving Repr, Inhabited

namespace Toml

/-- The value of a key of a table; other values have no keys. -/
def get? (key : String) : Toml → Option Toml
  | .table members => members.lookup key
  | _ => none

end Toml

end Sequitur
