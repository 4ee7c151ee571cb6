import Sequitur.Session.Basic

/-!
# The table of sessions

The live sessions in the order in which they came in. An identifier is that of at most one
of them.
-/

namespace Sequitur

/-- The live sessions, in the order in which they were inserted. -/
structure SessionTable (σ : Type) where
  sessions : List (Session σ)
  deriving DecidableEq, Repr

namespace SessionTable

def empty : SessionTable σ := ⟨[]⟩

def size (table : SessionTable σ) : Nat := table.sessions.length

def isEmpty (table : SessionTable σ) : Bool := table.sessions.isEmpty

def ids (table : SessionTable σ) : List Uuid := table.sessions.map Session.id

def find? (table : SessionTable σ) (id : Uuid) : Option (Session σ) :=
  table.sessions.find? (·.id = id)

def notFound (id : Uuid) : Failure := .sessionNotFound id.toString

def get (table : SessionTable σ) (id : Uuid) : Answer (Session σ) :=
  match table.find? id with
  | none => .error (notFound id)
  | some session => .ok session

/-- Puts a session at the end. Its identifier may not be taken. -/
def insert (table : SessionTable σ) (session : Session σ) : Answer (SessionTable σ) :=
  match table.find? session.id with
  | some _ => .error (.argument (.sessionExists session.id))
  | none => .ok ⟨table.sessions ++ [session]⟩

def remove (table : SessionTable σ) (id : Uuid) : Answer (Session σ × SessionTable σ) :=
  match table.find? id with
  | none => .error (notFound id)
  | some session => .ok (session, ⟨table.sessions.filter (·.id ≠ id)⟩)

/-- Puts a changed session in the place of the one with its identifier. -/
def replace (table : SessionTable σ) (session : Session σ) : SessionTable σ :=
  ⟨table.sessions.map fun other => if other.id = session.id then session else other⟩

/-- Works on the session of an identifier; the other sessions stay as they are. -/
def modify (table : SessionTable σ) (id : Uuid) (work : Session σ → Answer α × Session σ) :
    Answer α × SessionTable σ :=
  match table.find? id with
  | none => (.error (notFound id), table)
  | some session =>
      let (answer, session) := work session
      (answer, table.replace session)

def summaries (table : SessionTable σ) : List SessionSummary :=
  table.sessions.map Session.summary

end SessionTable

end Sequitur
