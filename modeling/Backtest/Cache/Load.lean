import Backtest.Cache.Blob
import Backtest.Cache.Table
import Backtest.Market.Source
import Backtest.Digest.Sha256
/-!
# Cache.Load — indicator data reused while its source is unchanged

A cache keeps, for each dataset directory, a directory under its root named after the
dataset directory and the first sixteen hexadecimal digits of the SHA-256 digest of its
absolute path, so two datasets of one name never share it. There it stores one blob per
instrument and the checksum table of the sources.

Loading a source reads its bytes once. When the table holds their digest, the blob is read
and reused if it was built with the same window; a blob that is missing or does not read is
an integrity failure, never rebuilt silently. Otherwise the data is computed from the bytes
and its blob written. Blobs and the table are written to a `.tmp` sibling and then renamed
over the target.

Loading a dataset lists its price files first, then works through all of them, and reports
the first failure in file order; the table is written only when every file loaded.
-/

namespace Backtest
namespace Cache

open Store Market

variable {m : Type → Type} [Monad m] [FileSystem m]

/-- A cache of indicator data under a root directory. -/
structure DatasetCache where
  root : String
  deriving Repr, DecidableEq

/-- The smallest window a cache computes with. -/
def minWindow : Nat := 2

/-- Lifts a file operation, turning its failure into the program's. -/
def lift {α : Type} (f : OsError → Error) (x : m (Except OsError α)) : ExceptT Error m α :=
  ExceptT.mk ((·.mapError f) <$> x)

/-- Refuses windows below `minWindow`. -/
def checkWindow (window : Nat) : Except Error Unit :=
  if window < minWindow then
    .error (.invalidParameter "window" ("must be at least " ++ toString minWindow ++ ", got " ++
      toString window))
  else .ok ()

namespace DatasetCache

/-- The cache directory of a dataset directory. -/
def dirFor (c : DatasetCache) (datasetDir : String) : m String := do
  let resolved := match ← FileSystem.canonicalize datasetDir with
    | .ok r => r
    | .error _ => datasetDir
  let name := (Path.fileName resolved).getD "dataset"
  pure (Path.join c.root (name ++ "-" ++ (Digest.sha256Text resolved).take 16))

/-- The cache directory of a dataset directory, created if missing. -/
def prepare (c : DatasetCache) (datasetDir : String) : ExceptT Error m String := do
  let dir ← (c.dirFor datasetDir : m String)
  lift (fun e => .cacheWrite dir e.message) (FileSystem.createDirAll dir)
  pure dir

end DatasetCache

/-- Writes a file through a `.tmp` sibling renamed over it. -/
def writeAtomic (p : String) (bytes : List UInt8) : ExceptT Error m Unit := do
  let tmp := Path.withExtension p "tmp"
  lift (fun e => .cacheWrite p e.message) (FileSystem.writeBytes tmp bytes)
  lift (fun e => .cacheWrite p e.message) (FileSystem.rename tmp p)

/-- The checksum table of a cache directory; empty when there is none. -/
def readTable (dir : String) : ExceptT Error m ChecksumTable := do
  let p := Path.join dir tableFileName
  if (← (FileSystem.kind p : m _)).isNone then return Keyed.empty
  let bytes ← lift (fun e => .cacheIntegrity p e.message) (FileSystem.readBytes p)
  let text ← match Text.decodeUtf8 bytes with
    | .ok s => pure s
    | .error _ => throw (.cacheIntegrity p OsError.invalidText.message)
  match ChecksumTable.parse text with
  | .ok t => pure t
  | .error e => throw (.cacheIntegrity p e.message)

/-- Stores the checksum table of a cache directory. -/
def writeTable (dir : String) (t : ChecksumTable) : ExceptT Error m Unit :=
  writeAtomic (Path.join dir tableFileName) (Text.encodeUtf8 t.render)

/-- The envelope of a blob. -/
def readBlob (p : String) : ExceptT Error m Envelope := do
  let bytes ← lift (fun e => .cacheIntegrity p e.message) (FileSystem.readBytes p)
  match Envelope.decode bytes with
  | .ok e => pure e
  | .error e => throw (.cacheIntegrity p e.message)

/-- The digest of a source file and its indicator data: reused from its blob when the table
holds the digest and the blob was built with `window`, computed and stored otherwise. -/
def resolveSource (dir : String) (table : ChecksumTable) (p : String) (window : Nat) :
    ExceptT Error m (String × StockData) := do
  let bytes ← lift (fun e => .sourceRead p e.message) (FileSystem.readBytes p)
  let checksum := Digest.sha256Hex bytes
  let blob := Path.join dir (instrumentName p ++ ".bin")
  if table.get? p == some checksum then
    let e ← readBlob blob
    if e.version = envelopeVersion ∧ e.window = window then return (checksum, e.data)
  let data := StockData.ofCandles (decodeCandles bytes) window
  writeAtomic blob (Envelope.encode ⟨envelopeVersion, window, data⟩)
  pure (checksum, data)

namespace DatasetCache

/-- The indicator data of one price file, through the cache of its directory. -/
def loadStockData (c : DatasetCache) (p : String) (window : Nat) : ExceptT Error m StockData := do
  checkWindow window
  let dir ← c.prepare ((Path.parent p).getD ".")
  let table ← readTable dir
  let (checksum, data) ← resolveSource dir table p window
  writeTable dir (table.insert p checksum)
  pure data

/-- Records the loaded files in order, stopping at the first failure. -/
def collect (table : ChecksumTable) (ds : Dataset) :
    List (String × Except Error (String × StockData)) → Except Error (ChecksumTable × Dataset)
  | [] => .ok (table, ds)
  | (p, .ok (checksum, data)) :: rest =>
    collect (table.insert p checksum) (ds.insert (instrumentName p) data) rest
  | (_, .error e) :: _ => .error e

/-- The indicator data of every price file of a dataset directory. -/
def loadDataset (c : DatasetCache) (dir : String) (window : Nat) : ExceptT Error m Dataset := do
  checkWindow window
  let files ← listInstrumentFiles dir
  let cdir ← c.prepare dir
  let table ← readTable cdir
  let results ← (files.mapM fun p => do
    pure (p, ← (resolveSource cdir table p window : ExceptT Error m _).run) : m _)
  let (table, ds) ← collect table Keyed.empty results
  writeTable cdir table
  pure ds

/-- Removes the cache directory of a dataset directory; whether there was one. -/
def clear (c : DatasetCache) (dir : String) : ExceptT Error m Bool := do
  let cdir ← (c.dirFor dir : m String)
  if (← (FileSystem.kind cdir : m _)).isNone then return false
  lift (fun e => .cacheWrite cdir e.message) (FileSystem.removeDirAll cdir)
  pure true

end DatasetCache

end Cache
end Backtest
