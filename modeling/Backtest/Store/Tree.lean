import Backtest.Data.Keyed
import Backtest.Store.Path
/-!
# Store.Tree — a directory tree held as a value

A tree maps absolute locations to entries, a file with its bytes or a directory; the root is
always a directory and is not listed. Every operation checks the directories on the way to
its target from the root down: the first one that is missing fails with `notFound`, and the
first one that is a file with `notADirectory`, as an operating system reports them. Then:

* reading needs a file, writing needs no directory in the way;
* `createDirAll` creates every missing directory on the way, and fails on the first file;
* `removeDirAll` removes a directory with everything below it;
* `rename` moves a file over a file or onto a free location, but not onto a directory.
-/

namespace Backtest
namespace Store

/-- Why an operation on files fails, as the operating system reports it. -/
inductive OsError where
  | notFound
  | notADirectory
  | isADirectory
  | alreadyExists
  | directoryNotEmpty
  | invalidText
  | other (code : Nat) (text : String)
  deriving DecidableEq, Repr

/-- The text of a failure, with the system's error number. -/
def OsError.message : OsError → String
  | .notFound => "No such file or directory (os error 2)"
  | .notADirectory => "Not a directory (os error 20)"
  | .isADirectory => "Is a directory (os error 21)"
  | .alreadyExists => "File exists (os error 17)"
  | .directoryNotEmpty => "Directory not empty (os error 39)"
  | .invalidText => "stream did not contain valid UTF-8"
  | .other c t => t ++ " (os error " ++ toString c ++ ")"

/-- What a location holds: a file, a directory, or something else the system keeps there. -/
inductive EntryKind where
  | file
  | directory
  | other
  deriving DecidableEq, Repr

/-- An entry of a tree. -/
inductive Entry where
  | file (bytes : List UInt8)
  | directory
  deriving DecidableEq, Repr

/-- The kind of an entry. -/
def Entry.kind : Entry → EntryKind
  | .file _ => .file
  | .directory => .directory

/-- A directory tree: entries keyed by the absolute text of their location. -/
structure Tree where
  entries : Keyed Entry
  deriving Inhabited

namespace Tree

/-- The tree with only the root. -/
def empty : Tree := ⟨Keyed.empty⟩

/-- The entry at a location; the root is a directory. -/
def entry? (t : Tree) (names : List String) : Option Entry :=
  if names.isEmpty then some .directory else t.entries.get? (Path.ofNames names)

/-- Checks the directories on the way to a location, from the root down. -/
def checkWay (t : Tree) (names : List String) : Except OsError Unit :=
  ((List.range (names.length - 1)).map fun i => names.take (i + 1)).forM fun pre =>
    match t.entry? pre with
    | some .directory => .ok ()
    | some (.file _) => .error .notADirectory
    | none => .error .notFound

/-- Sets the entry at a location. -/
def put (t : Tree) (names : List String) (e : Entry) : Tree :=
  ⟨t.entries.insert (Path.ofNames names) e⟩

/-- Whether a key lies at or below a location. -/
def isWithin (names : List String) (key : String) : Bool :=
  key == Path.ofNames names || key.startsWith (Path.ofNames names ++ "/")

/-- The tree without a location and everything below it. -/
def prune (t : Tree) (names : List String) : Tree :=
  ⟨t.entries.filter fun k _ => !isWithin names k⟩

/-- The kind of entry at a location that can be reached. -/
def kind? (t : Tree) (names : List String) : Option EntryKind :=
  match t.checkWay names with
  | .ok () => (t.entry? names).map Entry.kind
  | .error _ => none

/-- The bytes of a file. -/
def read (t : Tree) (names : List String) : Except OsError (List UInt8) := do
  t.checkWay names
  match t.entry? names with
  | some (.file b) => pure b
  | some .directory => throw .isADirectory
  | none => throw .notFound

/-- Writes a file, creating or replacing it. -/
def write (t : Tree) (names : List String) (bytes : List UInt8) : Except OsError Tree := do
  t.checkWay names
  match t.entry? names with
  | some .directory => throw .isADirectory
  | _ => pure (t.put names (.file bytes))

/-- Creates a directory and every missing one on the way. -/
def createDirAll (t : Tree) (names : List String) : Except OsError Tree :=
  ((List.range names.length).map fun i => names.take (i + 1)).foldlM (fun acc pre =>
    match acc.entry? pre with
    | some .directory => .ok acc
    | some (.file _) => .error (if pre.length = names.length then .alreadyExists else .notADirectory)
    | none => .ok (acc.put pre .directory)) t

/-- Removes a file. -/
def removeFile (t : Tree) (names : List String) : Except OsError Tree := do
  t.checkWay names
  match t.entry? names with
  | some (.file _) => pure ⟨t.entries.erase (Path.ofNames names)⟩
  | some .directory => throw .isADirectory
  | none => throw .notFound

/-- Removes a directory with everything below it. -/
def removeDirAll (t : Tree) (names : List String) : Except OsError Tree := do
  t.checkWay names
  match t.entry? names with
  | some .directory => pure (t.prune names)
  | some (.file _) => throw .notADirectory
  | none => throw .notFound

/-- Moves a file to a location that is free or holds a file. -/
def rename (t : Tree) (src dst : List String) : Except OsError Tree := do
  t.checkWay src
  let e ← match t.entry? src with
    | some e => pure e
    | none => throw .notFound
  t.checkWay dst
  if src = dst then return t
  match e, t.entry? dst with
  | .file _, some .directory => throw .isADirectory
  | .file b, _ => pure ((t.prune src).put dst (.file b))
  | .directory, some (.file _) => throw .notADirectory
  | .directory, some .directory => throw .directoryNotEmpty
  | .directory, none =>
    let moved := t.entries.entries.filterMap fun (k, v) =>
      if isWithin src k then some (Path.ofNames dst ++ k.drop (Path.ofNames src).length, v)
      else none
    pure (moved.foldl (fun acc (k, v) => ⟨acc.entries.insert k v⟩) (t.prune src))

/-- The names of the entries of a directory, in ascending order. -/
def readDir (t : Tree) (names : List String) : Except OsError (List String) := do
  t.checkWay names
  match t.entry? names with
  | some .directory =>
    let pre := if names.isEmpty then "/" else Path.ofNames names ++ "/"
    pure (t.entries.keys.filterMap fun k =>
      if k.startsWith pre && !(k.drop pre.length).contains '/' then some (k.drop pre.length).toString
      else none)
  | some (.file _) => throw .notADirectory
  | none => throw .notFound

/-- The location itself, when every part of it exists. -/
def canonical (t : Tree) (names : List String) : Except OsError (List String) := do
  t.checkWay names
  match t.entry? names with
  | some _ => pure names
  | none => throw .notFound

end Tree

end Store
end Backtest
