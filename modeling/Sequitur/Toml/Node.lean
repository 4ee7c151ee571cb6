import Sequitur.Toml.Value

/-!
# Tables in the making

A document defines a table in several places: by a header, by headers of tables inside it,
and by dotted keys. Which of them may add to a table depends on how the table came to be,
and every key is given a value only once:

* a header defines a table that at most headers of inner tables have mentioned before;
* dotted keys add only to tables that dotted keys have made, and make inner tables;
* a table or an array that was written as a value is closed;
* a header in double brackets appends a table to an array that only such headers made.
-/

namespace Sequitur.Toml

/-- How a table came to be: by its own header, by the header of a table inside it, or by a
dotted key. -/
inductive Origin where
  | header
  | path
  | dotted
  deriving DecidableEq, Repr

/-- What a key stands for in a document that is being read. -/
inductive Node where
  | value (value : Toml)
  | table (origin : Origin) (members : List (String × Node))
  | tables (elements : List (List (String × Node)))

/-- The keys of a table and what they stand for. -/
abbrev Members := List (String × Node)

def setMember (key : String) (node : Node) (members : Members) : Members :=
  members.map fun (k, n) => if k = key then (k, node) else (k, n)

/-- Changes the members of the table at the end of a path. Tables that are missing on the
way are made; a value stands in the way, and so does a table that `mayEnter` refuses. Of an
array of tables the last one is entered. -/
def changeAt (made : Origin) (mayEnter : Origin → Bool)
    (change : Origin → Members → Option Members) :
    (path : List String) → Origin → Members → Option Members
  | [], origin, members => change origin members
  | key :: path, _, members =>
      match members.lookup key with
      | none => do
          let inner ← changeAt made mayEnter change path made []
          return members ++ [(key, .table made inner)]
      | some (.value _) => none
      | some (.table origin inner) =>
          if mayEnter origin then do
            let inner ← changeAt made mayEnter change path origin inner
            return setMember key (.table origin inner) members
          else none
      | some (.tables elements) => do
          let inner ← changeAt made mayEnter change path .header (← elements.getLast?)
          return setMember key (.tables (elements.dropLast ++ [inner])) members

/-- Changes the members of the table at the end of a path that headers lead along. -/
def changeAlongHeader (change : Origin → Members → Option Members) (path : List String)
    (root : Members) : Option Members :=
  changeAt .path (fun _ => true) change path .header root

def define (key : String) (value : Toml) (members : Members) : Option Members :=
  match members.lookup key with
  | some _ => none
  | none => some (members ++ [(key, .value value)])

/-- Gives a value to a key of a table that dotted keys lead to from a table. A key without
dots belongs to a table that is not made by dotted keys, and the other way round. -/
def assign (path : List String) (key : String) (value : Toml) (members : Members) :
    Option Members :=
  changeAt .dotted (· ≠ .header)
    (fun origin members =>
      if (origin = .dotted) = (path = []) then none else define key value members)
    path .header members

def openTable (path : List String) (key : String) (root : Members) : Option Members :=
  changeAlongHeader (fun _ members =>
    match members.lookup key with
    | none => some (members ++ [(key, .table .header [])])
    | some (.table .path inner) => some (setMember key (.table .header inner) members)
    | some _ => none) path root

/-- Appends a table to the array of a header in double brackets. -/
def appendTable (path : List String) (key : String) (root : Members) : Option Members :=
  changeAlongHeader (fun _ members =>
    match members.lookup key with
    | none => some (members ++ [(key, .tables [[]])])
    | some (.tables elements) =>
        some (setMember key (.tables (elements ++ [[]])) members)
    | some _ => none) path root

mutual

def Node.toValue : Node → Toml
  | .value found => found
  | .table _ members => .table (Node.toMembers members)
  | .tables elements => .array (Node.toItems elements)

def Node.toMembers : List (String × Node) → List (String × Toml)
  | [] => []
  | (key, node) :: members => (key, node.toValue) :: Node.toMembers members

def Node.toItems : List (List (String × Node)) → List Toml
  | [] => []
  | members :: elements => .table (Node.toMembers members) :: Node.toItems elements

end

end Sequitur.Toml
