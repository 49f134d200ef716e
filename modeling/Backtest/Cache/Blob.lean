import Backtest.Market.StockData
import Backtest.Text.Utf8
/-!
# Cache.Blob — indicator data stored as bytes

A blob holds an envelope: a format version, the window the data was computed with, and the
data. Numbers are little-endian: the version in four bytes, counts and the window in eight,
doubles as their eight-byte IEEE encoding. A text is its byte count and its UTF-8 bytes; a
list is its length and its items; a map is its size and its pairs in ascending key order.

Reading accepts bytes after the envelope. It fails when a fixed-size number or a text runs
past the end, or a text is not UTF-8; a key given twice keeps its last value.
-/

namespace Backtest
namespace Cache

open Text

/-- Why bytes do not hold an envelope. -/
inductive BlobError where
  | truncated
  | truncatedText
  | invalidText (e : Utf8Error)
  deriving DecidableEq, Repr

/-- The text of a failure. -/
def BlobError.message : BlobError → String
  | .truncated => "io error: unexpected end of file"
  | .truncatedText => "io error: "
  | .invalidText e => "string is not valid utf8: " ++ e.message

/-- What a blob holds. -/
structure Envelope where
  version : Nat
  window : Nat
  data : StockData

/-- The version of the envelope format written now. -/
def envelopeVersion : Nat := 1

/-- The `width` little-endian bytes of a number. -/
def leBytes (width n : Nat) : List UInt8 :=
  (List.range width).map fun k => UInt8.ofNat (n / Nat.pow 256 k % 256)

/-- The number of little-endian bytes. -/
def ofLeBytes (bs : List UInt8) : Nat :=
  bs.foldr (fun b acc => b.toNat + 256 * acc) 0

/-- A count's bytes. -/
def encodeCount (n : Nat) : List UInt8 := leBytes 8 n

/-- A text's bytes. -/
def encodeText (s : String) : List UInt8 :=
  let bs := encodeUtf8 s
  encodeCount bs.length ++ bs

/-- A series' bytes. -/
def encodeSeries (xs : List Float) : List UInt8 :=
  encodeCount xs.length ++ xs.flatMap fun x => leBytes 8 x.toBits.toNat

/-- A map's bytes, given the bytes of its values. -/
def encodeKeyed {α : Type} (f : α → List UInt8) (m : Keyed α) : List UInt8 :=
  encodeCount m.size ++ m.entries.flatMap fun (k, v) => encodeText k ++ f v

/-- The bytes of indicator data. -/
def encodeStockData (d : StockData) : List UInt8 :=
  encodeCount d.dates.length ++ d.dates.flatMap encodeText ++
    encodeKeyed encodeSeries d.indicators ++ encodeKeyed (encodeKeyed encodeSeries) d.quantiles

/-- The bytes of an envelope. -/
def Envelope.encode (e : Envelope) : List UInt8 :=
  leBytes 4 e.version ++ leBytes 8 e.window ++ encodeStockData e.data

/-- A reader of stored bytes: the value and the bytes after it. -/
abbrev Reader (α : Type) := StateT (List UInt8) (Except BlobError) α

/-- The next `n` bytes of a fixed-size value. -/
def fixed (n : Nat) : Reader (List UInt8) := fun bs =>
  if n ≤ bs.length then .ok (bs.take n, bs.drop n) else .error .truncated

/-- A count. -/
def readCount : Reader Nat := ofLeBytes <$> fixed 8

/-- A text. -/
def readText : Reader String := do
  let n ← readCount
  let bs ← get
  if n ≤ bs.length then
    set (bs.drop n)
    match decodeUtf8 (bs.take n) with
    | .ok s => pure s
    | .error e => throw (.invalidText e)
  else throw .truncatedText

/-- A double. -/
def readFloat : Reader Float := do
  pure (Float.ofBits (UInt64.ofNat (ofLeBytes (← fixed 8))))

/-- `n` items read one after the other. -/
def readItems {α : Type} (r : Reader α) : Nat → Reader (List α)
  | 0 => pure []
  | n + 1 => do
    let x ← r
    let xs ← readItems r n
    pure (x :: xs)

/-- A list. -/
def readList {α : Type} (r : Reader α) : Reader (List α) := do readItems r (← readCount)

/-- A map, the last value of a key winning. -/
def readKeyed {α : Type} (r : Reader α) : Reader (Keyed α) := do
  let pairs ← readItems (do pure (← readText, ← r)) (← readCount)
  pure (pairs.foldl (fun m (k, v) => m.insert k v) Keyed.empty)

/-- Indicator data. -/
def readStockData : Reader StockData := do
  pure ⟨← readList readText, ← readKeyed (readList readFloat),
    ← readKeyed (readKeyed (readList readFloat))⟩

/-- Reads an envelope from the start of the bytes. -/
def Envelope.decode (bs : List UInt8) : Except BlobError Envelope :=
  (fun (e, _) => e) <$> (do
    let version := ofLeBytes (← fixed 4)
    let window ← readCount
    pure (⟨version, window, ← readStockData⟩ : Envelope)).run bs

end Cache
end Backtest
