import Sequitur.Failure
import Sequitur.Notation.Conversion

/-!
# Sessions

A session is a search of its own: an identifier, a limit on the size of its rules, an
engine that nobody else uses, and the display lines of the rules that it knows, in the
order in which they came in and without repetition.

Operations on a session give their answer together with the session after them, also when
they fail: what was done before the failure stays done.
-/

namespace Sequitur

/-- A search with its own engine. -/
structure Session (σ : Type) where
  id : Uuid
  limit : Nat
  engine : σ
  lines : List String
  deriving DecidableEq, Repr

/-- What a list of sessions shows of one. -/
structure SessionSummary where
  id : Uuid
  limit : Nat
  size : Nat
  deriving DecidableEq, Repr

namespace Session

open Notation

/-- A session without lines and with a fresh engine, whose two limits are its own. -/
def create (kind : EngineKind σ) (id : Uuid) (limit : Nat) : Session σ :=
  ⟨id, limit, kind.create limit limit, []⟩

def size (session : Session σ) : Nat := session.lines.length

def knows (session : Session σ) (line : String) : Bool := session.lines.contains line

def summary (session : Session σ) : SessionSummary :=
  ⟨session.id, session.limit, session.size⟩

/-- The session with a line more, unless it knows the line. -/
def insertLine (session : Session σ) (line : String) : Session σ :=
  if session.knows line then session else { session with lines := session.lines ++ [line] }

/-- Offers the rule that a line holds to the engine. The answer is the display line when the
engine accepts the rule and the line is new. A line that is no rule is passed over. -/
def offer (kind : EngineKind σ) (session : Session σ) (line : String) :
    Answer (Option String) × Session σ :=
  match Display.readRule line with
  | .error _ => (.ok none, session)
  | .ok rule =>
      match kind.add session.engine rule with
      | (.error error, engine) => (.error (.engine error), { session with engine })
      | (.ok false, engine) => (.ok none, { session with engine })
      | (.ok true, engine) =>
          let session := { session with engine }
          match displayOfCanonical (Canonical.printRule rule) with
          | .error error => (.error (.rule error), session)
          | .ok display =>
              (.ok (if session.knows display then none else some display),
                session.insertLine display)

/-- Offers lines one after the other. The answer holds the new display lines in order; a
failure ends the batch. -/
def addLines (kind : EngineKind σ) (session : Session σ) :
    List String → Answer (List String) × Session σ
  | [] => (.ok [], session)
  | line :: lines =>
      match session.offer kind line with
      | (.error failure, session) => (.error failure, session)
      | (.ok found, session) =>
          match session.addLines kind lines with
          | (.error failure, session) => (.error failure, session)
          | (.ok more, session) => (.ok (found.toList ++ more), session)

/-- Takes over the candidates of a pass: those that are rules and new become lines. -/
def commit (session : Session σ) : List String → List String × Session σ
  | [] => ([], session)
  | candidate :: candidates =>
      match displayOfCanonical candidate with
      | .error _ => session.commit candidates
      | .ok display =>
          let isNew := !session.knows display
          let (more, session) := (session.insertLine display).commit candidates
          (if isNew then display :: more else more, session)

/-- Runs one pass of the engine. The answer holds the new lines; a pass that fails adds
none. -/
def search (kind : EngineKind σ) (session : Session σ) : Answer (List String) × Session σ :=
  let (report, engine) := kind.execute session.engine
  let session := { session with engine }
  match report.outcome with
  | .error error => (.error (.engine error), session)
  | .ok _ =>
      let (found, session) := session.commit report.candidates
      (.ok found, session)

/-- Runs passes until one finds nothing, but at most the given number. The answer holds
everything found. -/
def derive (kind : EngineKind σ) (session : Session σ) :
    (maxPasses : Nat) → Answer (List String) × Session σ
  | 0 => (.ok [], session)
  | passes + 1 =>
      match session.search kind with
      | (.error failure, session) => (.error failure, session)
      | (.ok [], session) => (.ok [], session)
      | (.ok found, session) =>
          match session.derive kind passes with
          | (.error failure, session) => (.error failure, session)
          | (.ok more, session) => (.ok (found ++ more), session)

end Session

end Sequitur
