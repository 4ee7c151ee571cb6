import Sequitur.Text.Digits
import Sequitur.Text.Lines

/-!
# Routes

A path is taken apart at its slashes as it is written; a query or a fragment behind it does
not count. Only then are the percent signs in the name of a session decoded, and a name that
is not valid text after that is no name.
-/

namespace Sequitur.Gateway

open Sequitur.Text

/-- What a path leads to; names of sessions are as they are written in the path. -/
inductive Route where
  | health
  | sessions
  | session (name : String)
  | lines (name : String)
  | search (name : String)
  deriving DecidableEq, Repr

def pathOnly (target : String) : List Char :=
  target.toList.takeWhile fun c => c != '?' && c != '#'

/-- What a path leads to, if anything. The name of a session may be empty between slashes but
not at the end of a path. -/
def Route.ofTarget? (target : String) : Option Route :=
  match (splitWhere (· == '/') (pathOnly target)).map String.ofList with
  | ["", "health"] => some .health
  | ["", "sessions"] => some .sessions
  | ["", "sessions", name] => if name = "" then none else some (.session name)
  | ["", "sessions", name, "lines"] => some (.lines name)
  | ["", "sessions", name, "search"] => some (.search name)
  | _ => none

/-- Bytes with every percent sign and two hexadecimal digits behind it decoded. -/
def percentDecoded : List UInt8 → List UInt8
  | [] => []
  | b :: c :: d :: rest =>
      if b = 0x25 then
        match hexValue? (Char.ofNat c.toNat), hexValue? (Char.ofNat d.toNat) with
        | some high, some low => UInt8.ofNat (high * 16 + low) :: percentDecoded rest
        | _, _ => b :: percentDecoded (c :: d :: rest)
      else b :: percentDecoded (c :: d :: rest)
  | b :: rest => b :: percentDecoded rest

def decodedName? (name : String) : Option String :=
  String.fromUTF8? ⟨(percentDecoded name.toUTF8.data.toList).toArray⟩

end Sequitur.Gateway
