/-!
# Store.Path — file paths as the program writes them

A path is a text of components separated by `/`; a leading `/` makes it absolute. Read as a
list of components, repeated separators and `.` components vanish, except a `.` that opens a
relative path, while `..` is kept. The file name is the last component when it is a plain
name; its stem and extension split it at the last dot, unless that dot opens the name.

Paths are joined as text, with one separator between the parts, and an absolute second part
replaces the first. `Path.resolve` turns a path into the components of the absolute location
it names from a working directory, resolving `.` and `..` by their names.
-/

namespace Backtest
namespace Path

/-- A component of a path. -/
inductive Component where
  | root
  | current
  | parent
  | normal (name : String)
  deriving DecidableEq, Repr

/-- The components after the first, from the separated parts. -/
def restComponents : List String → List Component
  | [] => []
  | "" :: rest => restComponents rest
  | "." :: rest => restComponents rest
  | ".." :: rest => .parent :: restComponents rest
  | n :: rest => .normal n :: restComponents rest

/-- The components of a path. -/
def components (p : String) : List Component :=
  match p.splitOn "/" with
  | "" :: rest => if p.startsWith "/" then .root :: restComponents rest else restComponents rest
  | "." :: rest => .current :: restComponents rest
  | parts => restComponents parts

/-- The text of a component. -/
def Component.text : Component → String
  | .root => ""
  | .current => "."
  | .parent => ".."
  | .normal n => n

/-- The path of a list of components. -/
def render : List Component → String
  | [] => ""
  | .root :: rest => "/" ++ "/".intercalate (rest.map Component.text)
  | cs => "/".intercalate (cs.map Component.text)

/-- Whether a path is absolute. -/
def isAbsolute (p : String) : Bool := p.startsWith "/"

/-- The path `p` read from the directory `base`: `p` itself when absolute, otherwise the two
joined with a separator unless `base` is empty or already ends with one. -/
def join (base p : String) : String :=
  if isAbsolute p || base.isEmpty then p
  else if base.endsWith "/" then base ++ p
  else base ++ "/" ++ p

/-- The directory that holds a path: its components but the last, if the last is not the
root. -/
def parent (p : String) : Option String :=
  match (components p).getLast? with
  | none | some .root => none
  | some _ => some (render (components p).dropLast)

/-- The last component, when it is a plain name. -/
def fileName (p : String) : Option String :=
  match (components p).getLast? with
  | some (.normal n) => some n
  | _ => none

/-- A file name split at its last dot: the part before it and the extension after it, or the
whole name without extension when there is no dot or the only dot opens the name. -/
def splitName (name : String) : String × Option String :=
  let cs := name.toList
  match (cs.reverse.dropWhile (· != '.')) with
  | [] => (name, none)
  | _ :: before =>
    if before.isEmpty then (name, none)
    else (String.ofList before.reverse, some (String.ofList (cs.drop (before.length + 1))))

/-- The file name without its extension. -/
def fileStem (p : String) : Option String := (fileName p).map fun n => (splitName n).1

/-- The extension of the file name. -/
def extension (p : String) : Option String := (fileName p).bind fun n => (splitName n).2

/-- The reversed text without its trailing separators and `.` components. -/
def trimTailRev : List Char → List Char
  | '/' :: rest => trimTailRev rest
  | '.' :: '/' :: rest => trimTailRev rest
  | cs => cs

/-- The path with the extension of its file name replaced by `ext`; unchanged when there is
no file name. -/
def withExtension (p ext : String) : String :=
  match fileName p with
  | none => p
  | some n =>
    let body := (trimTailRev p.toList.reverse).reverse
    let kept := match (splitName n).2 with
      | some e => body.take (body.length - (e.length + 1))
      | none => body
    String.ofList kept ++ "." ++ ext

/-- The absolute location a path names from the working directory `cwd`, as the names of its
components. -/
def resolve (cwd : List String) (p : String) : List String :=
  let start := if isAbsolute p then [] else cwd
  (components p).foldl (fun acc c => match c with
    | .root | .current => acc
    | .parent => acc.dropLast
    | .normal n => acc ++ [n]) start

/-- The absolute text of a location. -/
def ofNames (names : List String) : String := "/" ++ "/".intercalate names

end Path
end Backtest
