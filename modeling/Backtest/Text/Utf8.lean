/-!
# Text.Utf8 — text from bytes

Bytes are read as UTF-8 from the left. A character is one byte below `0x80`, or a lead byte
`0xC2`–`0xF4` followed by its continuation bytes `0x80`–`0xBF`, where the second byte of a
three- or four-byte character is narrowed so that no character is encoded twice, no
surrogate is encoded and nothing lies beyond `U+10FFFF`. The first fault is reported with the
number of bytes read correctly before it and the length of the bad sequence, or no length
when the bytes end inside a character.
-/

namespace Backtest
namespace Text

/-- Where bytes stop being UTF-8. -/
structure Utf8Error where
  validUpTo : Nat
  errorLength : Option Nat
  deriving DecidableEq, Repr

/-- The text of a fault. -/
def Utf8Error.message (e : Utf8Error) : String :=
  match e.errorLength with
  | some n => "invalid utf-8 sequence of " ++ toString n ++ " bytes from index " ++ toString e.validUpTo
  | none => "incomplete utf-8 byte sequence from index " ++ toString e.validUpTo

/-- Whether a byte continues a character. -/
def isContinuation (b : UInt8) : Bool := 0x80 ≤ b && b ≤ 0xBF

/-- The range the second byte of a character must lie in, given its lead byte. -/
def secondRange (lead : UInt8) : UInt8 × UInt8 :=
  if lead = 0xE0 then (0xA0, 0xBF)
  else if lead = 0xED then (0x80, 0x9F)
  else if lead = 0xF0 then (0x90, 0xBF)
  else if lead = 0xF4 then (0x80, 0x8F)
  else (0x80, 0xBF)

/-- Whether `b` may follow the lead byte `lead`. -/
def fitsSecond (lead b : UInt8) : Bool := (secondRange lead).1 ≤ b && b ≤ (secondRange lead).2

/-- The payload bits of a continuation byte. -/
def low6 (b : UInt8) : Nat := b.toNat % 64

/-- Decodes the bytes from offset `i`, after the characters `acc`. -/
def decodeFrom (i : Nat) (acc : List Char) : List UInt8 → Except Utf8Error String
  | [] => .ok (String.ofList acc.reverse)
  | b :: rest =>
    let fault (len : Option Nat) : Except Utf8Error String := .error ⟨i, len⟩
    if b < 0x80 then decodeFrom (i + 1) (Char.ofNat b.toNat :: acc) rest
    else if b < 0xC2 || b > 0xF4 then fault (some 1)
    else if b < 0xE0 then
      match rest with
      | [] => fault none
      | c :: rest =>
        if isContinuation c then
          decodeFrom (i + 2) (Char.ofNat ((b.toNat % 32) * 64 + low6 c) :: acc) rest
        else fault (some 1)
    else if b < 0xF0 then
      match rest with
      | [] => fault none
      | c :: rest =>
        if fitsSecond b c then
          match rest with
          | [] => fault none
          | d :: rest =>
            if isContinuation d then
              decodeFrom (i + 3)
                (Char.ofNat ((b.toNat % 16) * 4096 + low6 c * 64 + low6 d) :: acc) rest
            else fault (some 2)
        else fault (some 1)
    else
      match rest with
      | [] => fault none
      | c :: rest =>
        if fitsSecond b c then
          match rest with
          | [] => fault none
          | d :: rest =>
            if isContinuation d then
              match rest with
              | [] => fault none
              | e :: rest =>
                if isContinuation e then
                  decodeFrom (i + 4) (Char.ofNat ((b.toNat % 8) * 262144 + low6 c * 4096 +
                    low6 d * 64 + low6 e) :: acc) rest
                else fault (some 3)
            else fault (some 2)
        else fault (some 1)

/-- The text of UTF-8 bytes, or the first fault. -/
def decodeUtf8 (bytes : List UInt8) : Except Utf8Error String := decodeFrom 0 [] bytes

/-- The text of bytes with each fault replaced by U+FFFD: a bad sequence by one replacement
character, and a character cut short at the end by one as well. -/
def decodeLossy (bytes : List UInt8) : String :=
  go bytes.length bytes ""
where
  /-- Decodes with `fuel` bounding the faults still to replace. -/
  go : Nat → List UInt8 → String → String
    | 0, _, acc => acc
    | fuel + 1, bs, acc =>
      match decodeUtf8 bs with
      | .ok s => acc ++ s
      | .error e =>
        let good := match decodeUtf8 (bs.take e.validUpTo) with
          | .ok s => s
          | .error _ => ""
        match e.errorLength with
        | some n => go fuel (bs.drop (e.validUpTo + n)) (acc ++ good ++ "\uFFFD")
        | none => acc ++ good ++ "\uFFFD"

/-- The UTF-8 bytes of a text. -/
def encodeUtf8 (s : String) : List UInt8 := s.toUTF8.toList

end Text
end Backtest
