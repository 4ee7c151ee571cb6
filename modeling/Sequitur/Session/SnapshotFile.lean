import Sequitur.Session.Manager

/-!
# Snapshot files

A snapshot is kept in a file. Saving writes a temporary file beside it and moves that into
its place, so that the file always holds a whole snapshot. A file that is not there is an
empty snapshot.

The temporary file is removed when it cannot be moved. It stays when it cannot be written to its
end or brought to the device. That the directory is brought to the device after the move is left
out: no file changes by it, and no answer depends on it.
-/

namespace Sequitur.SnapshotFile

/-- Writes a text into a file by way of a temporary file of the given name beside it: creates and
writes the temporary file, brings it to the device, and moves it. When it cannot be moved it is
removed, and no more is said when that fails too. Directories made on the way stay in any case. -/
def replace (files : Files) (path : FilePath) (temporary : String) (text : String) :
    Except FileError Unit × Files :=
  match files.makeDirectories path.parent with
  | (.error error, files) => (.error error, files)
  | (.ok (), files) =>
      let beside := path.parent.child temporary
      match files.writeBytes beside (Files.encode text) with
      | .error (error, left) => (.error error, left)
      | .ok files =>
          match files.sync beside with
          | .error error => (.error error, files)
          | .ok () =>
              match files.rename beside path with
              | .error error => (.error error, (files.remove beside).toOption.getD files)
              | .ok files => (.ok (), files)

def save (files : Files) (path : FilePath) (temporary : String) (entries : List SnapshotEntry) :
    Answer Unit × Files :=
  let (result, files) := replace files path temporary (SnapshotEntry.printAll entries)
  (result.mapError (.snapshot ∘ .file), files)

def load (files : Files) (path : FilePath) : Answer (List SnapshotEntry) :=
  match files.readText path with
  | .error .notFound => .ok []
  | .error error => .error (.snapshot (.file error))
  | .ok text => (SnapshotEntry.readAll text).mapError fun _ => .snapshot .malformed

/-- Makes the sessions of a file. A file that cannot be loaded is passed over. -/
def restore (kind : EngineKind σ) (table : SessionTable σ) (files : Files) (path : FilePath) :
    Nat × SessionTable σ :=
  match load files path with
  | .error _ => (0, table)
  | .ok entries => table.restoreAll kind entries

end Sequitur.SnapshotFile
