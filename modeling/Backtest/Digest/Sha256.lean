/-!
# Digest.Sha256 — the SHA-256 digest of a byte string

The cache recognises a price file by the SHA-256 digest of its bytes, written as 64 lowercase
hexadecimal digits. The digest pads the message with a one bit, zeros and its length in bits
to a multiple of 64 bytes, and folds the compression function over the 64-byte blocks from
the standard initial state. All arithmetic is on 32-bit words, modulo `2^32`.
-/

namespace Backtest
namespace Digest

/-- The round constants: the first 32 bits of the fractional parts of the cube roots of the
first 64 primes. -/
def roundConstants : Array UInt32 := #[
  0x428a2f98, 0x71374491, 0xb5c0fbcf, 0xe9b5dba5, 0x3956c25b, 0x59f111f1, 0x923f82a4, 0xab1c5ed5,
  0xd807aa98, 0x12835b01, 0x243185be, 0x550c7dc3, 0x72be5d74, 0x80deb1fe, 0x9bdc06a7, 0xc19bf174,
  0xe49b69c1, 0xefbe4786, 0x0fc19dc6, 0x240ca1cc, 0x2de92c6f, 0x4a7484aa, 0x5cb0a9dc, 0x76f988da,
  0x983e5152, 0xa831c66d, 0xb00327c8, 0xbf597fc7, 0xc6e00bf3, 0xd5a79147, 0x06ca6351, 0x14292967,
  0x27b70a85, 0x2e1b2138, 0x4d2c6dfc, 0x53380d13, 0x650a7354, 0x766a0abb, 0x81c2c92e, 0x92722c85,
  0xa2bfe8a1, 0xa81a664b, 0xc24b8b70, 0xc76c51a3, 0xd192e819, 0xd6990624, 0xf40e3585, 0x106aa070,
  0x19a4c116, 0x1e376c08, 0x2748774c, 0x34b0bcb5, 0x391c0cb3, 0x4ed8aa4a, 0x5b9cca4f, 0x682e6ff3,
  0x748f82ee, 0x78a5636f, 0x84c87814, 0x8cc70208, 0x90befffa, 0xa4506ceb, 0xbef9a3f7, 0xc67178f2]

/-- The eight words of the state between blocks. -/
structure Working where
  a : UInt32
  b : UInt32
  c : UInt32
  d : UInt32
  e : UInt32
  f : UInt32
  g : UInt32
  h : UInt32
  deriving Repr, DecidableEq

/-- The initial state: the first 32 bits of the fractional parts of the square roots of the
first eight primes. -/
def initial : Working :=
  ⟨0x6a09e667, 0xbb67ae85, 0x3c6ef372, 0xa54ff53a, 0x510e527f, 0x9b05688c, 0x1f83d9ab, 0x5be0cd19⟩

/-- Rotation of a word to the right by `n` bits, `0 < n < 32`. -/
def rotr (x : UInt32) (n : UInt32) : UInt32 := (x >>> n) ||| (x <<< (32 - n))

/-- The first mixing function of the message schedule. -/
def smallSigma0 (x : UInt32) : UInt32 := rotr x 7 ^^^ rotr x 18 ^^^ (x >>> 3)

/-- The second mixing function of the message schedule. -/
def smallSigma1 (x : UInt32) : UInt32 := rotr x 17 ^^^ rotr x 19 ^^^ (x >>> 10)

/-- The round's mixing function of the first word. -/
def bigSigma0 (x : UInt32) : UInt32 := rotr x 2 ^^^ rotr x 13 ^^^ rotr x 22

/-- The round's mixing function of the fifth word. -/
def bigSigma1 (x : UInt32) : UInt32 := rotr x 6 ^^^ rotr x 11 ^^^ rotr x 25

/-- Choice: the bits of `y` where `x` is set, else those of `z`. -/
def choose (x y z : UInt32) : UInt32 := (x &&& y) ^^^ (~~~x &&& z)

/-- Majority of three bits. -/
def majority (x y z : UInt32) : UInt32 := (x &&& y) ^^^ (x &&& z) ^^^ (y &&& z)

/-- The big-endian word of four bytes at `4 * i` of a block. -/
def wordAt (block : List UInt8) (i : Nat) : UInt32 :=
  let byte (k : Nat) : UInt32 := (block.getD (4 * i + k) 0).toUInt32
  (byte 0 <<< 24) ||| (byte 1 <<< 16) ||| (byte 2 <<< 8) ||| byte 3

/-- The 64 words a block is expanded to. -/
def schedule (block : List UInt8) : Array UInt32 :=
  let first := ((List.range 16).map (wordAt block)).toArray
  (List.range 48).foldl (fun w i =>
    let t := i + 16
    w.push (smallSigma1 (w.getD (t - 2) 0) + w.getD (t - 7) 0 + smallSigma0 (w.getD (t - 15) 0) +
      w.getD (t - 16) 0)) first

/-- One round of the compression function with the round's constant and word. -/
def round (s : Working) (k w : UInt32) : Working :=
  let t1 := s.h + bigSigma1 s.e + choose s.e s.f s.g + k + w
  let t2 := bigSigma0 s.a + majority s.a s.b s.c
  ⟨t1 + t2, s.a, s.b, s.c, s.d + t1, s.e, s.f, s.g⟩

/-- The state after one 64-byte block. -/
def compress (s : Working) (block : List UInt8) : Working :=
  let w := schedule block
  let r := (List.range 64).foldl (fun acc i => round acc (roundConstants.getD i 0) (w.getD i 0)) s
  ⟨s.a + r.a, s.b + r.b, s.c + r.c, s.d + r.d, s.e + r.e, s.f + r.f, s.g + r.g, s.h + r.h⟩

/-- The eight big-endian bytes of a count. -/
def lengthBytes (n : Nat) : List UInt8 :=
  (List.range 8).reverse.map fun k => UInt8.ofNat (n / Nat.pow 2 (8 * k) % 256)

/-- The message padded to a multiple of 64 bytes: a one bit, zeros, and the length in bits. -/
def padding (msg : List UInt8) : List UInt8 :=
  let zeros := (119 - msg.length % 64) % 64
  msg ++ [0x80] ++ List.replicate zeros 0 ++ lengthBytes (8 * msg.length)

/-- A list cut into pieces of 64 elements, the last possibly shorter. -/
def blocksOf : List UInt8 → List (List UInt8)
  | [] => []
  | x :: rest => (x :: rest).take 64 :: blocksOf ((x :: rest).drop 64)
termination_by xs => xs.length
decreasing_by simp only [List.length_drop, List.length_cons]; omega

/-- The state after the whole message. -/
def digestWords (msg : List UInt8) : Working :=
  (blocksOf (padding msg)).foldl compress initial

/-- A word as eight lowercase hexadecimal digits. -/
def wordHex (x : UInt32) : String :=
  let digit (k : Nat) : Char :=
    let v := x.toNat / Nat.pow 16 k % 16
    if v < 10 then Char.ofNat (48 + v) else Char.ofNat (87 + v)
  String.ofList ((List.range 8).reverse.map digit)

/-- The digest of a byte string as 64 lowercase hexadecimal digits. -/
def sha256Hex (msg : List UInt8) : String :=
  let s := digestWords msg
  String.join ([s.a, s.b, s.c, s.d, s.e, s.f, s.g, s.h].map wordHex)

/-- The digest of a text's UTF-8 bytes. -/
def sha256Text (text : String) : String := sha256Hex text.toUTF8.toList

end Digest
end Backtest
