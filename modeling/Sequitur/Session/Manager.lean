import Sequitur.Session.Entry
import Sequitur.Session.Limit
import Sequitur.Session.Table

/-!
# Operations on the table of sessions

Each operation takes a table and gives its answer with the table after it. The identifier
of a new session is drawn by the caller.
-/

namespace Sequitur.SessionTable

variable (kind : EngineKind σ)

def create (table : SessionTable σ) (id : Uuid) (limit : Int) : Answer Uuid × SessionTable σ :=
  match checkedLimit limit with
  | .error failure => (.error failure, table)
  | .ok limit =>
      match table.insert (Session.create kind id limit) with
      | .error failure => (.error failure, table)
      | .ok table => (.ok id, table)

def delete (table : SessionTable σ) (id : Uuid) : Answer Unit × SessionTable σ :=
  match table.remove id with
  | .error failure => (.error failure, table)
  | .ok (_, table) => (.ok (), table)

def addLines (table : SessionTable σ) (id : Uuid) (lines : List String) :
    Answer (List String) × SessionTable σ :=
  table.modify id fun session => session.addLines kind lines

def lines (table : SessionTable σ) (id : Uuid) : Answer (List String) :=
  (table.get id).map Session.lines

def search (table : SessionTable σ) (id : Uuid) : Answer (List String) × SessionTable σ :=
  table.modify id fun session => session.search kind

/-- Runs passes of a session; see `Session.derive`. The session is looked up by its passes,
so that no pass asks for no session. -/
def derive (table : SessionTable σ) (id : Uuid) :
    (maxPasses : Nat) → Answer (List String) × SessionTable σ
  | 0 => (.ok [], table)
  | passes + 1 => table.modify id fun session => session.derive kind (passes + 1)

def snapshot (table : SessionTable σ) : List SnapshotEntry :=
  table.sessions.map fun session => ⟨session.id, session.limit, session.lines⟩

/-- Makes a session from an entry, by offering the lines of the entry to a fresh engine. The
table is only changed when everything succeeds. -/
def restore (table : SessionTable σ) (entry : SnapshotEntry) : Answer Uuid × SessionTable σ :=
  match checkedLimit entry.limit with
  | .error failure => (.error failure, table)
  | .ok limit =>
      match (Session.create kind entry.id limit).addLines kind entry.lines with
      | (.error failure, _) => (.error failure, table)
      | (.ok _, session) =>
          match table.insert session with
          | .error failure => (.error failure, table)
          | .ok table => (.ok entry.id, table)

/-- Makes the sessions of entries in their order. Entries that are refused are passed over;
the answer is the number of sessions that were made. -/
def restoreAll (table : SessionTable σ) : List SnapshotEntry → Nat × SessionTable σ
  | [] => (0, table)
  | entry :: entries =>
      match table.restore kind entry with
      | (.error _, table) => table.restoreAll entries
      | (.ok _, table) =>
          let (count, table) := table.restoreAll entries
          (count + 1, table)

end Sequitur.SessionTable
