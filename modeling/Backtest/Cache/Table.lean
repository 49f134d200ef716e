import Backtest.Data.Keyed
import Backtest.Text.Json.Read
/-!
# Cache.Table — the checksums of the sources a cache was built from

A checksum table maps the path of each source file, as the program named it, to the SHA-256
digest of the bytes its cached data was computed from. It is stored as a JSON object with
string values, written with two-space indentation in ascending key order; a stored object
that names a key twice keeps the last value.
-/

namespace Backtest
namespace Cache

/-- Source paths and the digests of their cached contents. -/
abbrev ChecksumTable := Keyed String

/-- The file name of the table inside a cache directory. -/
def tableFileName : String := "ChecksumTable.json"

/-- The stored text of a table. -/
def ChecksumTable.render (t : ChecksumTable) : String :=
  (Json.obj (t.entries.map fun (k, v) => (k, Json.str v))).pretty

/-- Why a stored table does not read. -/
inductive TableError where
  | notJson
  | notTable
  deriving DecidableEq, Repr

/-- The text of a failure. -/
def TableError.message : TableError → String
  | .notJson => "expected value at line 1 column 1"
  | .notTable => "invalid type: expected a map of strings"

/-- Reads a stored table. -/
def ChecksumTable.parse (text : String) : Except TableError ChecksumTable :=
  match Json.read? text with
  | some (.obj members) =>
    members.foldlM (fun acc (k, v) => match v with
      | .str s => .ok (acc.insert k s)
      | _ => .error .notTable) Keyed.empty
  | some _ => .error .notTable
  | none => .error .notJson

end Cache
end Backtest
