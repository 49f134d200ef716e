/-!
# Random.ChaCha — the seeded generator behind minibatch sampling

The generator is the ChaCha stream cipher with 12 rounds, keyed by 32 bytes, with a 64-bit
block counter starting at zero and a zero stream number. Its keystream is read as 32-bit words,
four blocks (64 words) at a time; a 64-bit draw joins two consecutive words, the first as the
low half, and when one word is left in the buffer its partner is the first word of the next one.

A 64-bit seed becomes a key through PCG32: eight outputs of the permuted congruential
generator, each stored as four little-endian bytes.
-/

namespace Backtest
namespace Random

/-- Rotates a word left. -/
def rotl (x : UInt32) (n : UInt32) : UInt32 :=
  (x <<< n) ||| (x >>> (32 - n))

/-- The quarter round on four positions of the state. -/
def quarterRound (s : Array UInt32) (a b c d : Nat) : Array UInt32 :=
  let va := s.getD a 0 + s.getD b 0
  let vd := rotl (s.getD d 0 ^^^ va) 16
  let vc := s.getD c 0 + vd
  let vb := rotl (s.getD b 0 ^^^ vc) 12
  let va := va + vb
  let vd := rotl (vd ^^^ va) 8
  let vc := vc + vd
  let vb := rotl (vb ^^^ vc) 7
  ((s.set! a va).set! b vb |>.set! c vc).set! d vd

/-- A column round followed by a diagonal round. -/
def doubleRound (s : Array UInt32) : Array UInt32 :=
  let s := quarterRound s 0 4 8 12
  let s := quarterRound s 1 5 9 13
  let s := quarterRound s 2 6 10 14
  let s := quarterRound s 3 7 11 15
  let s := quarterRound s 0 5 10 15
  let s := quarterRound s 1 6 11 12
  let s := quarterRound s 2 7 8 13
  quarterRound s 3 4 9 14

/-- The words "expand 32-byte k". -/
def constants : List UInt32 := [0x61707865, 0x3320646e, 0x79622d32, 0x6b206574]

/-- The 16 keystream words of the block with a given counter. -/
def block (key : List UInt32) (counter : Nat) : List UInt32 :=
  let input : Array UInt32 := (constants ++ key ++
    [(counter % Nat.pow 2 32).toUInt32, (counter / Nat.pow 2 32 % Nat.pow 2 32).toUInt32, 0, 0]).toArray
  let mixed := (List.range 6).foldl (fun s _ => doubleRound s) input
  (mixed.toList.zip input.toList).map fun (x, y) => x + y

/-- The generator: key, the counter of the next block, the buffered words and how many of them
have been read. -/
structure ChaCha where
  key : List UInt32
  counter : Nat
  buffer : List UInt32
  index : Nat

namespace ChaCha

/-- Words per buffer: four blocks. -/
def bufferWords : Nat := 64

/-- The next four blocks, with the counter moved past them. -/
def refill (g : ChaCha) : ChaCha :=
  { g with
    buffer := (List.range 4).flatMap fun i => block g.key ((g.counter + i) % Nat.pow 2 64)
    counter := (g.counter + 4) % Nat.pow 2 64
    index := 0 }

/-- The buffered word at a position, as a natural number. -/
def word (g : ChaCha) (i : Nat) : Nat := (g.buffer.getD i 0).toNat

/-- A 64-bit draw and the generator after it. -/
def nextU64 (g : ChaCha) : Nat × ChaCha :=
  if g.index + 1 < bufferWords then
    (g.word g.index + g.word (g.index + 1) * Nat.pow 2 32, { g with index := g.index + 2 })
  else if g.index ≥ bufferWords then
    let h := g.refill
    (h.word 0 + h.word 1 * Nat.pow 2 32, { h with index := 2 })
  else
    let lo := g.word g.index
    let h := g.refill
    (lo + h.word 0 * Nat.pow 2 32, { h with index := 1 })

/-- One PCG32 step: the new state and the 32-bit output. -/
def pcgStep (state : UInt64) : UInt64 × UInt32 :=
  let s := state * 6364136223846793005 + 11634580027462260723
  let xorshifted := (((s >>> 18) ^^^ s) >>> 27).toUInt32
  let rot := (s >>> 59).toUInt32
  let out := if rot = 0 then xorshifted else (xorshifted >>> rot) ||| (xorshifted <<< (32 - rot))
  (s, out)

/-- The eight key words PCG32 derives from a seed. -/
def keyOfSeed (seed : Nat) : List UInt32 :=
  ((List.range 8).foldl (fun (acc : UInt64 × List UInt32) _ =>
    let (s, w) := pcgStep acc.1
    (s, w :: acc.2)) (seed.toUInt64, [])).2.reverse

/-- The generator seeded by a 64-bit number, with nothing buffered yet. -/
def ofSeed (seed : Nat) : ChaCha :=
  ⟨keyOfSeed seed, 0, [], bufferWords⟩

end ChaCha
end Random
end Backtest
