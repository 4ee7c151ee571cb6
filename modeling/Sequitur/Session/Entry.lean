import Sequitur.Json.Reader
import Sequitur.Json.Printer
import Sequitur.Uuid

/-!
# Entries of snapshots

What a snapshot keeps of a session: its identifier, its limit and its lines. The engine is
not kept; it is filled again from the lines. The limit of an entry may be any integer, so
that an entry with a bad limit is refused by itself and not with the whole snapshot.

As JSON an entry is an object with the members `id`, `limit` and `lines`, and a snapshot is
an array of entries. An entry may also be read from an array of its three parts. Members of
other names are skipped, and no member may be given twice.
-/

namespace Sequitur

/-- What a snapshot keeps of a session. -/
structure SnapshotEntry where
  id : Uuid
  limit : Int
  lines : List String
  deriving DecidableEq, Repr

namespace SnapshotEntry

def toJson (entry : SnapshotEntry) : Json :=
  .object [("id", .string entry.id.toString), ("limit", .int entry.limit),
    ("lines", .strings entry.lines)]

/-! ### Reading -/

def idValue : Json.Reader Uuid := do
  match Uuid.ofString? (← Json.stringValue) with
  | none => throw .misshapen
  | some id => return id

def linesValue : Json.Reader (List String) := Json.arrayValue Json.stringValue

/-- The members of an entry that have been read. -/
structure Found where
  id : Option Uuid
  limit : Option Int
  lines : Option (List String)

def readMember (found : Found) (name : String) : Json.Reader Found :=
  if name = "id" then do
    return { found with id := ← Json.memberField found.id idValue }
  else if name = "limit" then do
    return { found with limit := ← Json.memberField found.limit Json.int64Value }
  else if name = "lines" then do
    return { found with lines := ← Json.memberField found.lines linesValue }
  else do
    Json.colon
    Json.skipValue
    return found

def ofMembers : Json.Reader SnapshotEntry := do
  let found ← Json.objectRest Json.stringRest readMember ⟨none, none, none⟩
  let id ← Json.required found.id
  let limit ← Json.required found.limit
  let lines ← Json.required found.lines
  return ⟨id, limit, lines⟩

def ofItems : Json.Reader SnapshotEntry := do
  let id ← Json.itemField true idValue
  let limit ← Json.itemField false Json.int64Value
  let lines ← Json.itemField false linesValue
  return ⟨id, limit, lines⟩

def read : Json.Reader SnapshotEntry := Json.recordValue ofMembers ofItems

def printAll (entries : List SnapshotEntry) : String :=
  (Json.array (entries.map toJson)).pretty

def readAll (text : String) : Except Json.Fault (List SnapshotEntry) :=
  Json.whole (Json.arrayValue read) text.toList

end SnapshotEntry

end Sequitur
