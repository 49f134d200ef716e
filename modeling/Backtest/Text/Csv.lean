import Backtest.Text.Blank
import Backtest.Text.Utf8
/-!
# Text.Csv — records of comma-separated bytes

Fields are separated by commas and records end at a carriage return, a line feed or both; empty
lines hold no record. A field that starts with a quote runs to the next lone quote, may hold
commas and line ends, and writes a quote as two quotes; bytes after its closing quote belong to
the field. A quote elsewhere is an ordinary byte. An unclosed quote runs to the end of the
input. Records may differ in length.

The reader works on bytes, since every byte that shapes a record (comma, quote, carriage
return, line feed) is ASCII and so never part of a longer UTF-8 sequence. A record is read as
text afterwards: `Csv.textRecord` decodes each field, refusing the whole record when one field
is not UTF-8, and cuts every field of blanks.
-/

namespace Backtest
namespace Csv

/-- Where the reader stands within a record. -/
inductive Mode where
  | startRecord
  | startField
  | inField
  | inQuoted
  | quoteInQuoted
  deriving Repr, DecidableEq

/-- A field as read: its bytes. -/
abbrev Field := List UInt8

/-- The reader: its mode, the current field and record (both reversed), and the records read
(reversed). -/
structure Reader where
  mode : Mode
  field : Field
  fields : List Field
  records : List (List Field)

/-- The quote byte. -/
def quote : UInt8 := 34

/-- The comma byte. -/
def comma : UInt8 := 44

namespace Reader

/-- The reader before any input. -/
def initial : Reader := ⟨.startRecord, [], [], []⟩

/-- Ends the current field. -/
def endField (r : Reader) : Reader :=
  { r with field := [], fields := r.field.reverse :: r.fields }

/-- Ends the current field and record. -/
def endRecord (r : Reader) : Reader :=
  let r := r.endField
  { r with mode := .startRecord, fields := [], records := r.fields.reverse :: r.records }

/-- Whether a byte ends a record: a carriage return or a line feed. -/
def isTerminator (b : UInt8) : Bool := b = 13 || b = 10

/-- Reads one byte at the start of a field. -/
def startFieldStep (r : Reader) (b : UInt8) : Reader :=
  if b = quote then { r with mode := .inQuoted }
  else if b = comma then { r.endField with mode := .startField }
  else if isTerminator b then r.endRecord
  else { r with mode := .inField, field := [b] }

/-- Reads one byte. -/
def step (r : Reader) (b : UInt8) : Reader :=
  match r.mode with
  | .startRecord => if isTerminator b then r else startFieldStep r b
  | .startField => startFieldStep r b
  | .inField =>
    if b = comma then { r.endField with mode := .startField }
    else if isTerminator b then r.endRecord
    else { r with field := b :: r.field }
  | .inQuoted =>
    if b = quote then { r with mode := .quoteInQuoted } else { r with field := b :: r.field }
  | .quoteInQuoted =>
    if b = quote then { r with mode := .inQuoted, field := quote :: r.field }
    else if b = comma then { r.endField with mode := .startField }
    else if isTerminator b then r.endRecord
    else { r with mode := .inField, field := b :: r.field }

/-- Closes a record left open at the end of the input. -/
def finish (r : Reader) : Reader :=
  match r.mode with
  | .startRecord => r
  | _ => r.endRecord

end Reader

/-- The records of the input, each a list of fields as bytes. -/
def records (bytes : List UInt8) : List (List Field) :=
  (bytes.foldl Reader.step Reader.initial).finish.records.reverse

/-- A record as text, every field cut of blanks; nothing when a field is not UTF-8. -/
def textRecord (fields : List Field) : Option (List String) :=
  fields.mapM fun f =>
    match Text.decodeUtf8 f with
    | .ok s => some (Text.trimBlanks s)
    | .error _ => none

end Csv
end Backtest
