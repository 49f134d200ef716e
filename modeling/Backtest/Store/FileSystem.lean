import Backtest.Store.Tree
/-!
# Store.FileSystem — the file operations the program needs

The cache and the command line touch files only through `FileSystem`, a small interface of
operations in a monad, each answering with the system's failure or a result. Paths are given
as the program holds them, relative to a working directory or absolute.

`Disk` is the model the library itself provides: a directory tree with a working directory,
threaded through `StateM`. The empty path names nothing, as for the operating system.
-/

namespace Backtest
namespace Store

/-- File operations in a monad `m`. -/
class FileSystem (m : Type → Type) where
  /-- The bytes of a file. -/
  readBytes : String → m (Except OsError (List UInt8))
  /-- Writes a file, creating or replacing it. -/
  writeBytes : String → List UInt8 → m (Except OsError Unit)
  /-- Moves a file. -/
  rename : String → String → m (Except OsError Unit)
  /-- Creates a directory and every missing one on the way. -/
  createDirAll : String → m (Except OsError Unit)
  /-- Removes a file. -/
  removeFile : String → m (Except OsError Unit)
  /-- Removes a directory with everything below it. -/
  removeDirAll : String → m (Except OsError Unit)
  /-- The names of the entries of a directory, in no particular order. -/
  readDir : String → m (Except OsError (List String))
  /-- What a path holds, following the way to it; `none` when it cannot be reached. -/
  kind : String → m (Option EntryKind)
  /-- The absolute path of an existing location. -/
  canonicalize : String → m (Except OsError String)

/-- A directory tree seen from a working directory. -/
structure Disk where
  tree : Tree
  cwd : List String
  deriving Inhabited

namespace Disk

/-- The location a path names, or `notFound` for the empty path. -/
def locate (d : Disk) (p : String) : Except OsError (List String) :=
  if p.isEmpty then .error .notFound else .ok (Path.resolve d.cwd p)

/-- Runs a change of the tree at a path. -/
def change (p : String) (f : Tree → List String → Except OsError Tree) :
    StateM Disk (Except OsError Unit) :=
  modifyGet fun d =>
    match d.locate p >>= f d.tree with
    | .ok t => (.ok (), { d with tree := t })
    | .error e => (.error e, d)

/-- Runs a question about the tree at a path. -/
def ask {α : Type} (p : String) (f : Tree → List String → Except OsError α) :
    StateM Disk (Except OsError α) :=
  get >>= fun d => pure (d.locate p >>= f d.tree)

end Disk

instance : FileSystem (StateM Disk) where
  readBytes p := Disk.ask p Tree.read
  writeBytes p b := Disk.change p fun t n => t.write n b
  rename src dst := modifyGet fun d =>
    match (do d.tree.rename (← d.locate src) (← d.locate dst)) with
    | .ok t => (.ok (), { d with tree := t })
    | .error e => (.error e, d)
  createDirAll p := Disk.change p Tree.createDirAll
  removeFile p := Disk.change p Tree.removeFile
  removeDirAll p := Disk.change p Tree.removeDirAll
  readDir p := Disk.ask p Tree.readDir
  kind p := get >>= fun d => pure (match d.locate p with
    | .ok n => d.tree.kind? n
    | .error _ => none)
  canonicalize p := Disk.ask p fun t n => Path.ofNames <$> t.canonical n

end Store
end Backtest
