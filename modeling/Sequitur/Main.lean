import Sequitur.CommandLine

/-!
# The program

Reads the files that the command line names, runs the command, and writes its output.
-/

namespace Sequitur.Main

def fileError : IO.Error → FileError
  | .noFileOrDirectory .. => .notFound
  | .inappropriateType .. => .isADirectory
  | .alreadyExists .. => .alreadyExists
  | .resourceBusy .. => .busy
  | .permissionDenied .. => .permissionDenied
  | .hardwareFault .. => .deviceFailed
  | .resourceVanished .. | .noSuchThing .. => .notFound
  | _ => .notADirectory

def readText (name : String) : IO (Except FileError String) := do
  try
    let bytes ← IO.FS.readBinFile name
    return Files.decode bytes.data.toList
  catch error => return .error (fileError error)

end Sequitur.Main

def main (arguments : List String) : IO UInt32 := do
  let names := match Sequitur.CommandLine.parse arguments with
    | .ok command => command.fileNames
    | .error _ => []
  let contents ← names.mapM fun name => return (name, ← Sequitur.Main.readText name)
  let outcome := Sequitur.CommandLine.run
    (fun name => (contents.lookup name).getD (.error .notFound)) arguments
  IO.print outcome.output
  match Sequitur.CommandLine.parse arguments, outcome.error with
  | .error fault, _ => IO.eprintln ("error: " ++ fault.message)
  | .ok _, some message => IO.eprintln ("Error: " ++ message)
  | .ok _, none => pure ()
  return outcome.code.toUInt32
