import Backtest.Data.Keyed
import Backtest.Text.Blank
import Backtest.Text.Case
/-!
# Config.Ini — configuration documents of named parts

A configuration document is a text of lines. A line is read after cutting it at its first
`;` or `#` (a comment, also in the middle of a value) and trimming blanks:

* an empty line says nothing;
* a line that starts with `[` names the part that the following lines fill, up to its last
  `]`; with no `]` the document is refused;
* any other line is an entry: the key up to the first `=` or `:` and the trimmed value after
  it, or, with neither, a key without a value. An entry with an empty key is refused.

Part and key names are folded to lower case (`Text.toLower`), lines before the first header fill the part
`default`, and a later entry of a key replaces an earlier one. Values can also be set after
reading, as command-line flags do.
-/

namespace Backtest
namespace Config

open Text

/-- Why a configuration text is refused; lines are counted from one. -/
inductive IniError where
  | unclosedHeader (line : Nat)
  | emptyKey (line : Nat)
  deriving DecidableEq, Repr

/-- The text of a refusal. An empty key can only stand at the start of its trimmed line, so
its column is always zero. -/
def IniError.message : IniError → String
  | .unclosedHeader n =>
    "line " ++ toString n ++ ": Found opening bracket for section name but no closing bracket"
  | .emptyKey n => "line " ++ toString n ++ ":0: Key cannot be empty"

/-- A name as it is stored: folded to lower case by the full Unicode case mapping. -/
def foldName (s : String) : String := toLower s

/-- What one line of a configuration text says. -/
inductive IniLine where
  | blank
  | header (part : String)
  | entry (key : String) (value : Option String)
  deriving DecidableEq, Repr

/-- Whether a character starts a comment. -/
def isCommentMark (c : Char) : Bool := c == ';' || c == '#'

/-- Whether a character separates a key from its value. -/
def isDelimiter (c : Char) : Bool := c == '=' || c == ':'

/-- The characters before the last `]` of a list that holds one. -/
def beforeLastClose (cs : List Char) : List Char :=
  ((cs.reverse.dropWhile (· != ']')).drop 1).reverse

/-- Reads the line numbered `n`. -/
def IniLine.read (n : Nat) (raw : String) : Except IniError IniLine :=
  let t := trimBlanks (String.ofList (raw.toList.takeWhile (fun c => !isCommentMark c)))
  match t.toList with
  | [] => .ok .blank
  | '[' :: rest =>
    if rest.contains ']' then
      .ok (.header (foldName (trimBlanks (String.ofList (beforeLastClose rest)))))
    else .error (.unclosedHeader n)
  | cs =>
    match cs.span (fun c => !isDelimiter c) with
    | (_, []) => .ok (.entry (foldName t) none)
    | (before, _ :: after) =>
      let key := foldName (trimBlanks (String.ofList before))
      if key.isEmpty then .error (.emptyKey n)
      else .ok (.entry key (some (trimBlanks (String.ofList after))))

/-- A configuration: named parts, each a map from keys to a value that may be absent. -/
structure Ini where
  parts : Keyed (Keyed (Option String))
  deriving Inhabited, Repr

namespace Ini

/-- The configuration with no parts. -/
def empty : Ini := ⟨Keyed.empty⟩

/-- Stores an entry under already folded names. -/
def store (ini : Ini) (part key : String) (value : Option String) : Ini :=
  ⟨ini.parts.insert part (((ini.parts.get? part).getD Keyed.empty).insert key value)⟩

/-- Reads the lines from number `n` on, filling the part `part`. -/
def readLines (ini : Ini) (part : String) (n : Nat) : List String → Except IniError Ini
  | [] => .ok ini
  | raw :: rest => do
    match ← IniLine.read n raw with
    | .blank => readLines ini part (n + 1) rest
    | .header p => readLines ini p (n + 1) rest
    | .entry k v => readLines (ini.store part k v) part (n + 1) rest

/-- Reads a configuration text. -/
def read (text : String) : Except IniError Ini :=
  empty.readLines "default" 1 (text.splitOn "\n")

/-- The value of a key, if the key is present with a value. -/
def get (ini : Ini) (part key : String) : Option String :=
  ((ini.parts.get? (foldName part)).bind (·.get? (foldName key))).join

/-- Sets a key to a value, as a command-line flag does. -/
def set (ini : Ini) (part key value : String) : Ini :=
  ini.store (foldName part) (foldName key) (some value)

/-- The keys present in a part, with or without a value, in ascending order. -/
def keys (ini : Ini) (part : String) : List String :=
  ((ini.parts.get? (foldName part)).map Keyed.keys).getD []

/-- Whether a key holds a value that is not blank. -/
def hasValue (ini : Ini) (part key : String) : Bool :=
  match ini.get part key with
  | some v => !(trimBlanks v).isEmpty
  | none => false

end Ini

end Config
end Backtest
