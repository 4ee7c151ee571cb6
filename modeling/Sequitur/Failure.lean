import Sequitur.Engine.Basic
import Sequitur.Files
import Sequitur.Json.Printer
import Sequitur.Notation.ParseError
import Sequitur.Uuid

/-!
# Failures of the service

Why an operation of the service fails, by cause. Callers tell arguments that are refused
and sessions that are not there from everything else.
-/

namespace Sequitur

/-- Why an argument is refused. -/
inductive ArgumentFault where
  | limitNotPositive (limit : Int)
  | limitNotInteger (value : Json)
  | sessionExists (id : Uuid)
  | bodyNotJson
  | bodyMalformed
  | bodyMisshapen

def ArgumentFault.message : ArgumentFault → String
  | limitNotPositive limit => "limit must be positive, got " ++ toString limit
  | limitNotInteger value => "limit must be an integer, got " ++ value.compact
  | sessionExists id => "session " ++ id.toString ++ " already exists"
  | bodyNotJson => "Expected request with `Content-Type: application/json`"
  | bodyMalformed => "Failed to parse the request body as JSON"
  | bodyMisshapen => "Failed to deserialize the JSON body into the target type"

/-- Why a snapshot cannot be kept in a file or taken from it. -/
inductive SnapshotFault where
  | file (error : FileError)
  | malformed

def SnapshotFault.message : SnapshotFault → String
  | file error => error.message
  | malformed => "the file holds no list of sessions"

/-- Why a configuration is refused. -/
inductive ConfigFault where
  | file (name : String) (error : FileError)
  | malformed
  | zeroInterval

def ConfigFault.message : ConfigFault → String
  | file name error => name ++ ": " ++ error.message
  | malformed => "the text is no configuration"
  | zeroInterval => "snapshot.interval_secs must be at least 1"

/-- Why the service cannot listen. -/
inductive ServerFault where
  | invalidAddress (address : String)
  | invalidNumber (address : String)
  | noListener (address : String)

def ServerFault.message : ServerFault → String
  | invalidAddress address => "cannot bind " ++ address ++ ": invalid socket address"
  | invalidNumber address => "cannot bind " ++ address ++ ": invalid port value"
  | noListener address => "cannot bind " ++ address ++ ": no listener is available"

/-- Why an operation of the service fails. -/
inductive Failure where
  | argument (fault : ArgumentFault)
  | sessionNotFound (name : String)
  | rule (error : Notation.ParseError)
  | engine (error : EngineError)
  | snapshot (fault : SnapshotFault)
  | config (fault : ConfigFault)
  | server (fault : ServerFault)

def Failure.message : Failure → String
  | argument fault => "Invalid argument: " ++ fault.message
  | sessionNotFound name => "Session not found: " ++ name
  | rule error => "Parse error: " ++ error.describe
  | engine error => "Engine error: " ++ error.message
  | snapshot fault => "Snapshot error: " ++ fault.message
  | config fault => "Config error: " ++ fault.message
  | server fault => "Server error: " ++ fault.message

/-- The answer to an operation: a value, or the failure. -/
abbrev Answer (α : Type) := Except Failure α

end Sequitur
