import ModelOperator.Bytes.Number

/-!
# The 64-bit xx hash with seed zero

    Stripes of 32 bytes feed four lanes, which are then merged; what is left over is
    mixed in by words of eight, of four and of one byte, and the result is scrambled. -/

namespace ModelOperator

namespace Xxh64

/-- The first multiplier. -/
def prime1 : UInt64 := 11400714785074694791

/-- The second multiplier. -/
def prime2 : UInt64 := 14029467366897019727

/-- The third multiplier. -/
def prime3 : UInt64 := 1609587929392839161

/-- The fourth multiplier. -/
def prime4 : UInt64 := 9650029242287828579

/-- The fifth multiplier. -/
def prime5 : UInt64 := 2870177450012600261

/-- Rotation to the left. -/
def rotate (x : UInt64) (n : UInt64) : UInt64 := (x <<< n) ||| (x >>> (64 - n))

/-- The word that the first `n` bytes write. -/
def word (n : Nat) (bytes : List UInt8) : UInt64 := UInt64.ofNat (littleEndian (bytes.take n))

/-- A lane after one more word. -/
def round (lane input : UInt64) : UInt64 := rotate (lane + input * prime2) 31 * prime1

/-- The four lanes. -/
structure Lanes where
  a : UInt64
  b : UInt64
  c : UInt64
  d : UInt64

/-- The lanes before any stripe. -/
def Lanes.start : Lanes := ⟨prime1 + prime2, prime2, 0, 0 - prime1⟩

/-- The lanes after one stripe. -/
def Lanes.stripe (l : Lanes) (bytes : List UInt8) : Lanes :=
  ⟨round l.a (word 8 bytes), round l.b (word 8 (bytes.drop 8)),
    round l.c (word 8 (bytes.drop 16)), round l.d (word 8 (bytes.drop 24))⟩

/-- A merged hash takes one lane in. -/
def mergeLane (hash lane : UInt64) : UInt64 := (hash ^^^ round 0 lane) * prime1 + prime4

/-- The lanes as one hash. -/
def Lanes.merged (l : Lanes) : UInt64 :=
  [l.a, l.b, l.c, l.d].foldl mergeLane
    (rotate l.a 1 + rotate l.b 7 + rotate l.c 12 + rotate l.d 18)

/-- The lanes after `n` stripes, and the bytes left over. -/
def stripes : Nat → Lanes → List UInt8 → Lanes × List UInt8
  | 0, l, bytes => (l, bytes)
  | n + 1, l, bytes => stripes n (l.stripe bytes) (bytes.drop 32)

/-- The words of eight bytes among those left over. -/
def mixWords : Nat → UInt64 → List UInt8 → UInt64 × List UInt8
  | 0, hash, bytes => (hash, bytes)
  | n + 1, hash, bytes =>
    mixWords n (rotate (hash ^^^ round 0 (word 8 bytes)) 27 * prime1 + prime4) (bytes.drop 8)

/-- A word of four bytes, if one is left. -/
def mixHalf (hash : UInt64) (bytes : List UInt8) : UInt64 × List UInt8 :=
  if 4 ≤ bytes.length then
    (rotate (hash ^^^ word 4 bytes * prime1) 23 * prime2 + prime3, bytes.drop 4)
  else (hash, bytes)

/-- The single bytes at the end. -/
def mixByte (hash : UInt64) (b : UInt8) : UInt64 :=
  rotate (hash ^^^ b.toUInt64 * prime5) 11 * prime1

/-- The last scramble. -/
def avalanche (hash : UInt64) : UInt64 :=
  let x := (hash ^^^ (hash >>> 33)) * prime2
  let y := (x ^^^ (x >>> 29)) * prime3
  y ^^^ (y >>> 32)

/-- The hash of a byte string. -/
def ofBytes (bytes : List UInt8) : Nat :=
  let (lanes, rest) := stripes (bytes.length / 32) Lanes.start bytes
  let seed := if 32 ≤ bytes.length then lanes.merged else prime5
  let (words, tail) := mixWords (rest.length / 8) (seed + UInt64.ofNat bytes.length) rest
  let (half, last) := mixHalf words tail
  (avalanche (last.foldl mixByte half)).toNat

end Xxh64

end ModelOperator
