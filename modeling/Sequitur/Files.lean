import Sequitur.Text.Lines

/-!
# Trees of files

The files below one directory: each place holds the bytes of a file or is a directory. A
written path is followed part by part, and every part but the last has to lead to a
directory, also where the next part goes up again. Operations fail for the reasons for which
an operating system refuses them.

Where the tree gives no reason, the device that holds the files may still refuse a step: it may
be full, be read-only, or break down. A file whose writing is refused keeps the bytes that the
device took.

Only the directory itself is known at first; the directories above it are taken to be there
and to hold nothing else.
-/

namespace Sequitur

/-! ### Failures -/

/-- Why an operation on files fails. -/
inductive FileError where
  | notFound
  | deviceFailed
  | permissionDenied
  | busy
  | alreadyExists
  | notADirectory
  | isADirectory
  | deviceFull
  | readOnly
  | nameTooLong
  | nulInName
  | notText
  deriving DecidableEq, Repr

def FileError.message : FileError → String
  | notFound => "No such file or directory (os error 2)"
  | deviceFailed => "Input/output error (os error 5)"
  | permissionDenied => "Permission denied (os error 13)"
  | busy => "Device or resource busy (os error 16)"
  | alreadyExists => "File exists (os error 17)"
  | notADirectory => "Not a directory (os error 20)"
  | isADirectory => "Is a directory (os error 21)"
  | deviceFull => "No space left on device (os error 28)"
  | readOnly => "Read-only file system (os error 30)"
  | nameTooLong => "File name too long (os error 36)"
  | nulInName => "file name contained an unexpected NUL byte"
  | notText => "stream did not contain valid UTF-8"

/-! ### Paths -/

/-- A written path: its parts between slashes, of which the empty ones do not count, and
whether a slash closes it. -/
structure FilePath where
  parts : List String
  isClosed : Bool
  deriving DecidableEq, Repr

namespace FilePath

def ofName (name : String) : FilePath :=
  ⟨((Text.splitWhere (· == '/') name.toList).filter (· ≠ [])).map String.ofList,
    name.toList.getLast? == some '/'⟩

/-- Parts without those at the end that stay where they are. -/
def trimParts (parts : List String) : List String :=
  (parts.reverse.dropWhile (· == ".")).reverse

theorem length_trimParts_le (parts : List String) : (trimParts parts).length ≤ parts.length := by
  simpa [trimParts] using (List.dropWhile_sublist (· == ".") (l := parts.reverse)).length_le

/-- The path without its last part, where parts that stay where they are do not count. -/
def parent (path : FilePath) : FilePath := ⟨trimParts (trimParts path.parts).dropLast, false⟩

theorem length_parent_lt (path : FilePath) (h : path.parts ≠ []) :
    path.parent.parts.length < path.parts.length := by
  have hparts := List.length_pos_iff.mpr h
  have htrimmed := length_trimParts_le path.parts
  have hparent := length_trimParts_le (trimParts path.parts).dropLast
  simp only [parent, List.length_dropLast] at *
  omega

def child (path : FilePath) (name : String) : FilePath := ⟨path.parts ++ [name], false⟩

def endsInDots (path : FilePath) : Bool :=
  match path.parts.getLast? with
  | some part => part == "." || part == ".."
  | none => false

end FilePath

/-! ### Places -/

/-- A place among the files: the names that lead to it. The places above the directory itself
are rows of `..`. -/
abbrev Place := List String

/-- The directory itself, or a directory above it. -/
def Place.isRoot (place : Place) : Bool := place.all (· == "..")

def Place.above (place : Place) : Place :=
  if Place.isRoot place then place ++ [".."] else place.dropLast

/-- What a place holds. -/
inductive FileEntry where
  | file (bytes : List UInt8)
  | directory
  deriving DecidableEq, Repr

/-! ### Devices -/

/-- A step that changes a place. -/
inductive FileStep where
  | makeDirectory
  | create
  | write
  | sync
  | rename
  | remove
  deriving DecidableEq, Repr

/-- A device: the steps that it refuses, and how many bytes it takes of a file whose writing it
refuses. -/
structure Device where
  refusal? : FileStep → Place → Option FileError
  taken : Nat

namespace Device

def sound : Device := ⟨fun _ _ => none, 0⟩

/-- What a step leads to, unless the device refuses it. -/
def allow (device : Device) (step : FileStep) (place : Place) (result : α) :
    Except FileError α :=
  match device.refusal? step place with
  | some error => .error error
  | none => .ok result

end Device

/-- The files below one directory, and the device that holds them. -/
structure Files where
  entries : List (Place × FileEntry)
  device : Device := .sound

namespace Files

def empty : Files := { entries := [] }

def entry? (files : Files) (place : Place) : Option FileEntry :=
  if Place.isRoot place then some .directory else files.entries.lookup place

def set (files : Files) (place : Place) (entry : FileEntry) : Files :=
  { files with entries := (place, entry) :: files.entries.filter (·.1 ≠ place) }

def unset (files : Files) (place : Place) : Files :=
  { files with entries := files.entries.filter (·.1 ≠ place) }

/-! ### Following paths -/

def maximumNameLength : Nat := 255

/-- The place that one part of a path leads to from a directory. -/
def follow (files : Files) (here : Place) (part : String) : Except FileError Place :=
  match files.entry? here with
  | none => .error .notFound
  | some (.file _) => .error .notADirectory
  | some .directory =>
      if part = "." then .ok here
      else if part = ".." then .ok (Place.above here)
      else if maximumNameLength < part.utf8ByteSize then .error .nameTooLong
      else .ok (here ++ [part])

/-- The place that a path leads to; it may hold nothing. The path without parts leads
nowhere. -/
def locate (files : Files) (path : FilePath) : Except FileError Place :=
  if path.parts.any (·.toList.contains '\x00') then .error .nulInName
  else if path.parts = [] then .error .notFound
  else path.parts.foldlM files.follow []

/-- What is found at the end of a path. What a slash closes is a directory. -/
def find (files : Files) (path : FilePath) : Except FileError FileEntry := do
  match files.entry? (← files.locate path) with
  | none => .error .notFound
  | some (.file bytes) => if path.isClosed then .error .notADirectory else .ok (.file bytes)
  | some .directory => .ok .directory

def isDirectory (files : Files) (path : FilePath) : Bool :=
  match files.find path with
  | .ok .directory => true
  | _ => false

def list (files : Files) (path : FilePath) : List String :=
  match files.locate path with
  | .error _ => []
  | .ok place =>
      ((files.entries.filter fun (found, _) => found ≠ [] ∧ found.dropLast = place).filterMap
        (·.1.getLast?)).mergeSort (· ≤ ·)

/-! ### Reading -/

def readBytes (files : Files) (path : FilePath) : Except FileError (List UInt8) :=
  match files.find path with
  | .error error => .error error
  | .ok .directory => .error .isADirectory
  | .ok (.file bytes) => .ok bytes

def decode (bytes : List UInt8) : Except FileError String :=
  match String.fromUTF8? ⟨bytes.toArray⟩ with
  | none => .error .notText
  | some text => .ok text

def encode (text : String) : List UInt8 := text.toUTF8.data.toList

def readText (files : Files) (path : FilePath) : Except FileError String :=
  (files.readBytes path).bind decode

/-! ### Changing -/

def makeDirectory (files : Files) (path : FilePath) : Except FileError Files := do
  let place ← files.locate path
  match files.entry? place with
  | some _ => .error .alreadyExists
  | none => files.device.allow .makeDirectory place (files.set place .directory)

def ensureDirectory (files : Files) (path : FilePath) : Except FileError Files :=
  match files.makeDirectory path with
  | .ok files => .ok files
  | .error error => if files.isDirectory path then .ok files else .error error

/-- Makes a directory and every directory on the way to it that is not there. The directories
made before a failure stay. -/
def makeDirectories (files : Files) (path : FilePath) : Except FileError Unit × Files :=
  if h : path.parts = [] then (.ok (), files)
  else
    have := path.length_parent_lt h
    match files.ensureDirectory path with
    | .ok files => (.ok (), files)
    | .error .notFound =>
        match files.makeDirectories path.parent with
        | (.error error, files) => (.error error, files)
        | (.ok (), files) =>
            match files.ensureDirectory path with
            | .ok files => (.ok (), files)
            | .error error => (.error error, files)
    | .error error => (.error error, files)
termination_by path.parts.length

/-- Makes an empty file in a directory that is there, or empties a file of that name. Gives the
place of the file as well. -/
def create (files : Files) (path : FilePath) : Except FileError (Place × Files) := do
  let place ← files.locate path
  match files.entry? place with
  | some .directory => .error .isADirectory
  | _ =>
      if path.isClosed then .error .isADirectory
      else files.device.allow .create place (place, files.set place (.file []))

/-- Writes the bytes of a file that was created. A failure tells the files that are left by it. -/
def write (files : Files) (place : Place) (bytes : List UInt8) :
    Except (FileError × Files) Files :=
  match files.device.refusal? .write place with
  | some error => .error (error, files.set place (.file (bytes.take files.device.taken)))
  | none => .ok (files.set place (.file bytes))

/-- Creates a file and writes it. A failure tells the files that are left by it. -/
def writeBytes (files : Files) (path : FilePath) (bytes : List UInt8) :
    Except (FileError × Files) Files :=
  match files.create path with
  | .error error => .error (error, files)
  | .ok (place, created) => created.write place bytes

/-- Makes sure that the bytes of a file are on the device. -/
def sync (files : Files) (path : FilePath) : Except FileError Unit := do
  let place ← files.locate path
  files.device.allow .sync place ()

/-- Moves a file to another path, in place of a file that is there. The last part of that path
is a name that no slash closes. -/
def rename (files : Files) (source target : FilePath) : Except FileError Files := do
  let bytes ← files.readBytes source
  let sourcePlace ← files.locate source
  let targetPlace ← files.locate target
  if target.endsInDots then .error .busy
  else if target.isClosed then .error .notADirectory
  else if files.entry? targetPlace = some .directory then .error .isADirectory
  else
    files.device.allow .rename targetPlace
      ((files.unset sourcePlace).set targetPlace (.file bytes))

def remove (files : Files) (path : FilePath) : Except FileError Files := do
  let _ ← files.readBytes path
  let place ← files.locate path
  files.device.allow .remove place (files.unset place)

end Files

end Sequitur
