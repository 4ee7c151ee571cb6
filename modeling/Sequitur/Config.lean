import Sequitur.Failure
import Sequitur.Toml.Reader

/-!
# Configuration of the service

The address to listen on, the snapshot file, and the seconds between two snapshots. A TOML
text may set each of them in the tables `server` and `snapshot`; what it does not set has a
default, and other keys are ignored. An array may stand for a table: its items are the
settings in their order. A date or time in the place of a table sets nothing.
-/

namespace Sequitur

/-- Where the service listens. -/
structure ServerConfig where
  bindAddress : String
  deriving DecidableEq, Repr

/-- Where snapshots are kept, and how many seconds lie between two of them. -/
structure SnapshotConfig where
  path : String
  intervalSeconds : Nat
  deriving DecidableEq, Repr

/-- The settings of the service. -/
structure Config where
  server : ServerConfig
  snapshot : SnapshotConfig
  deriving DecidableEq, Repr

namespace Config

def default : Config := ⟨⟨"127.0.0.1:8830"⟩, ⟨"deduce-sessions.json", 30⟩⟩

/-- The value of a setting: of the key in a table, or at the place in an array. -/
def setting? (name : String) (place : Nat) : Toml → Option Toml
  | .table members => members.lookup name
  | .array items => items[place]?
  | _ => none

def isSettings : Toml → Bool
  | .table _ | .array _ | .dateTime _ => true
  | _ => false

def textSetting (fallback : String) : Option Toml → Option String
  | none => some fallback
  | some (.string value) => some value
  | some _ => none

def secondsSetting (fallback : Nat) : Option Toml → Option Nat
  | none => some fallback
  | some (.integer value) => if 0 ≤ value then some value.toNat else none
  | some _ => none

def serverOf? : Option Toml → Option ServerConfig
  | none => some default.server
  | some settings =>
      if isSettings settings then
        (textSetting default.server.bindAddress (setting? "bind_addr" 0 settings)).map .mk
      else none

def snapshotOf? : Option Toml → Option SnapshotConfig
  | none => some default.snapshot
  | some settings =>
      if isSettings settings then do
        let path ← textSetting default.snapshot.path (setting? "path" 0 settings)
        let seconds ← secondsSetting default.snapshot.intervalSeconds
          (setting? "interval_secs" 1 settings)
        return ⟨path, seconds⟩
      else none

def ofToml? (document : Toml) : Option Config := do
  return ⟨← serverOf? (document.get? "server"), ← snapshotOf? (document.get? "snapshot")⟩

/-- Snapshots are at least a second apart. -/
def validate (config : Config) : Answer Unit :=
  if config.snapshot.intervalSeconds = 0 then .error (.config .zeroInterval) else .ok ()

def ofText (text : String) : Answer Config :=
  match (Toml.ofText? text).bind ofToml? with
  | none => .error (.config .malformed)
  | some config => config.validate.map fun _ => config

/-- The settings of a file, given what reading a file of a name yields. -/
def load (read : String → Except FileError String) (name : String) : Answer Config :=
  match read name with
  | .error error => .error (.config (.file name error))
  | .ok text => ofText text

end Config

end Sequitur
