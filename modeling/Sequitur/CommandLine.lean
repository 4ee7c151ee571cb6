import Sequitur.Config
import Sequitur.Engine.Forward
import Sequitur.Number.Word
import Sequitur.Session.Manager

/-!
# The command line

Three commands: `translate` writes the rules of a file in another notation, `derive` writes
every rule that follows from those of a file, and `serve` runs the service. Options have
long names and a value, which stands behind an equals sign or is the next argument; in the
latter case it does not begin with a hyphen. No option is given twice. Behind `--` every
argument is a file name. Left out are the texts of help, so that `help`, `--help` and `-h` have no
meaning of their own, and the environment variable `DEDUCE_CONFIG`, so that only the option
`--config` names a file of settings.

A command line that is not understood ends with code 2, a command that fails with code 1.
-/

namespace Sequitur.CommandLine

open Notation

/-! ### Arguments -/

/-- Why a command line is not understood. -/
inductive UsageFault where
  | noCommand
  | unknownCommand (name : String)
  | unexpectedArgument (argument : String)
  | missingValue (option : String)
  | repeatedOption (option : String)
  | invalidValue (option value : String)
  | missingFile
  deriving DecidableEq, Repr

def UsageFault.message : UsageFault → String
  | noCommand => "a command is required"
  | unknownCommand name => "unknown command " ++ name
  | unexpectedArgument argument => "unexpected argument " ++ argument
  | missingValue option => "a value is required for " ++ option
  | repeatedOption option => option ++ " is given more than once"
  | invalidValue option value => "invalid value " ++ value ++ " for " ++ option
  | missingFile => "a file is required"

/-- The arguments of a command: the options with their values, and the other arguments. -/
structure Arguments where
  options : List (String × String)
  others : List String

/-- An argument that begins with a hyphen is not taken for a value, save a lone hyphen. -/
def looksLikeOption (argument : String) : Bool := argument.startsWith "-" && argument ≠ "-"

/-- An option and the value behind its equals sign, if it has one. -/
def splitOption (argument : String) : String × Option String :=
  let cs := argument.toList
  match cs.dropWhile (· != '=') with
  | [] => (argument, none)
  | _ :: value => (String.ofList (cs.takeWhile (· != '=')), some (String.ofList value))

/-- Tells the options, of which the known ones are given, from the other arguments. -/
def collect (known : List String) : List String → Except UsageFault Arguments
  | [] => .ok ⟨[], []⟩
  | argument :: rest =>
      if argument = "--" then .ok ⟨[], rest⟩
      else if argument.startsWith "--" then
        let (name, value?) := splitOption argument
        if known.contains name then
          match value?, rest with
          | some value, rest => add name value (collect known rest)
          | none, [] => .error (.missingValue name)
          | none, value :: rest =>
              if looksLikeOption value then .error (.missingValue name)
              else add name value (collect known rest)
        else .error (.unexpectedArgument argument)
      else if looksLikeOption argument then .error (.unexpectedArgument argument)
      else do
        let found ← collect known rest
        return { found with others := argument :: found.others }
where
  /-- Puts an option before the arguments that follow it. -/
  add (name value : String) (found : Except UsageFault Arguments) :
      Except UsageFault Arguments := do
    let found ← found
    if found.options.any (·.1 = name) then throw (.repeatedOption name)
    return { found with options := (name, value) :: found.options }

/-- The value of an option, read by `parse`; without the option there is none. -/
def Arguments.option (arguments : Arguments) (name : String) (parse : String → Option α) :
    Except UsageFault (Option α) :=
  match arguments.options.lookup name with
  | none => .ok none
  | some value =>
      match parse value with
      | none => .error (.invalidValue name value)
      | some parsed => .ok (some parsed)

def digitsValue? (digits : List Char) : Option Nat :=
  if digits.isEmpty || !digits.all Char.isDigit then none
  else some (Text.digitsValue digits)

/-- A natural number of 64 bits; a plus sign may stand before it. -/
def natural? (text : String) : Option Nat := do
  let digits := match text.toList with
    | '+' :: digits => digits
    | digits => digits
  let value ← digitsValue? digits
  if Number.isUnsigned64 value then some value else none

/-- An integer of 64 bits; a sign may stand before it. -/
def integer? (text : String) : Option Int := do
  let (isNegative, digits) := match text.toList with
    | '-' :: digits => (true, digits)
    | '+' :: digits => (false, digits)
    | digits => (false, digits)
  Number.signed64? isNegative (← digitsValue? digits)

def fileName? (text : String) : Option String := if text = "" then none else some text

/-! ### Commands -/

/-- One of the two notations. -/
inductive NotationName where
  | display
  | canonical
  deriving DecidableEq, Repr

def NotationName.ofName? (name : String) : Option NotationName :=
  if name = "display" then some .display
  else if name = "canonical" then some .canonical
  else none

/-- Settings of the service that are given on the command line. -/
structure ServeOptions where
  config : Option String
  bindAddress : Option String
  snapshotPath : Option String
  intervalSeconds : Option Nat
  deriving DecidableEq, Repr

/-- What to do. -/
inductive Command where
  | version
  | translate (target : NotationName) (file : String)
  | derive (limit : Int) (maxPasses : Nat) (file : String)
  | serve (options : ServeOptions)
  deriving DecidableEq, Repr

def defaultLimit : Int := 16

def defaultMaxPasses : Nat := 1000

def Arguments.file (arguments : Arguments) : Except UsageFault String :=
  match arguments.others with
  | [] => .error .missingFile
  | [name] => if name = "" then .error .missingFile else .ok name
  | _ :: extra :: _ => .error (.unexpectedArgument extra)

def translateOf (arguments : List String) : Except UsageFault Command := do
  let arguments ← collect ["--to"] arguments
  let target ← arguments.option "--to" NotationName.ofName?
  return .translate (target.getD .canonical) (← arguments.file)

def deriveOf (arguments : List String) : Except UsageFault Command := do
  let arguments ← collect ["--limit", "--max-passes"] arguments
  let limit ← arguments.option "--limit" integer?
  let maxPasses ← arguments.option "--max-passes" natural?
  return .derive (limit.getD defaultLimit) (maxPasses.getD defaultMaxPasses) (← arguments.file)

def serveOf (arguments : List String) : Except UsageFault Command := do
  let arguments ← collect
    ["--config", "--bind-addr", "--snapshot-path", "--snapshot-interval-secs"] arguments
  let config ← arguments.option "--config" fileName?
  let bindAddress ← arguments.option "--bind-addr" some
  let snapshotPath ← arguments.option "--snapshot-path" fileName?
  let intervalSeconds ← arguments.option "--snapshot-interval-secs" natural?
  match arguments.others with
  | [] => return .serve ⟨config, bindAddress, snapshotPath, intervalSeconds⟩
  | extra :: _ => throw (.unexpectedArgument extra)

def parse : List String → Except UsageFault Command
  | [] => .error .noCommand
  | name :: arguments =>
      if name = "--version" ∨ name.startsWith "-V" then .ok .version
      else if name = "translate" then translateOf arguments
      else if name = "derive" then deriveOf arguments
      else if name = "serve" then serveOf arguments
      else .error (.unknownCommand name)

/-! ### Running -/

def versionText : String := "deduce-gateway 0.1.0"

def readRules (read : String → Except FileError String) (file : String) :
    Except String (List Rule) :=
  match read file with
  | .error error => .error (file ++ ": " ++ error.message)
  | .ok text => (Display.readPool text).mapError ParseError.describe

def translate (target : NotationName) (rules : List Rule) : String :=
  match target with
  | .display => Display.printPool rules
  | .canonical => Canonical.printPool rules

/-- The display lines of everything that a session of the given limit knows after it was
offered the rules and has run at most the given number of passes. -/
def derive (limit : Int) (maxPasses : Nat) (rules : List Rule) : Answer (List String) := do
  let limit ← checkedLimit limit
  let session := Session.create Forward.kind Uuid.zero limit
  let (added, session) := session.addLines Forward.kind (rules.map Display.printRule)
  let _ ← added
  let (derived, session) := session.derive Forward.kind maxPasses
  let _ ← derived
  return session.lines

/-- The settings of the service: those of the file, save where an option overrides them. -/
def settings (read : String → Except FileError String) (options : ServeOptions) :
    Answer Config := do
  let config ← match options.config with
    | none => .ok Config.default
    | some name => Config.load read name
  let config : Config :=
    ⟨⟨options.bindAddress.getD config.server.bindAddress⟩,
      ⟨options.snapshotPath.getD config.snapshot.path,
        options.intervalSeconds.getD config.snapshot.intervalSeconds⟩⟩
  config.validate
  return config

/-- Why the service cannot listen on an address: it has no colon, what stands behind the last
colon is no number of 16 bits, or there is nothing to listen with. -/
def listenFault (address : String) : ServerFault :=
  match (address.splitOn ":").reverse with
  | [] | [_] => .invalidAddress address
  | digits :: _ =>
      match natural? digits with
      | some number => if number < 0x10000 then .noListener address else .invalidNumber address
      | none => .invalidNumber address

def serve (read : String → Except FileError String) (options : ServeOptions) :
    Answer String := do
  let config ← settings read options
  throw (.server (listenFault config.server.bindAddress))

/-- What a command line leads to: the exit code, the text for the standard output, and what
is said about a failure of the command. -/
structure Outcome where
  code : Nat
  output : String
  error : Option String
  deriving DecidableEq, Repr

/-- The text that a command writes, given what reading a file of a name yields. -/
def Command.output (read : String → Except FileError String) : Command → Except String String
  | .version => .ok versionText
  | .translate target file => (readRules read file).map (CommandLine.translate target)
  | .derive limit maxPasses file => do
      let rules ← readRules read file
      let lines ← (CommandLine.derive limit maxPasses rules).mapError Failure.message
      return String.intercalate "\n\n" lines
  | .serve options => (CommandLine.serve read options).mapError Failure.message

/-- Runs a command line, given what reading a file of a name yields. -/
def run (read : String → Except FileError String) (arguments : List String) : Outcome :=
  match parse arguments with
  | .error _ => ⟨2, "", none⟩
  | .ok command =>
      match command.output read with
      | .error message => ⟨1, "", some message⟩
      | .ok text => ⟨0, text ++ "\n", none⟩

def Command.fileNames : Command → List String
  | .version => []
  | .translate _ file => [file]
  | .derive _ _ file => [file]
  | .serve options => options.config.toList

end Sequitur.CommandLine
