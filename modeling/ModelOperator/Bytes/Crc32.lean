/-!
# The 32-bit cyclic redundancy check

    The remainder of a byte string, read lowest bit first, modulo the reversed polynomial
    `0xEDB88320`, started from and finished with all bits set. -/

namespace ModelOperator

namespace Crc32

/-- One bit of division. -/
def shift (r : UInt32) : UInt32 :=
  if r &&& 1 = 1 then (r >>> 1) ^^^ 0xEDB88320 else r >>> 1

/-- `n` bits of division. -/
def shifts : Nat → UInt32 → UInt32
  | 0, r => r
  | n + 1, r => shifts n (shift r)

/-- The remainder after one more byte. -/
def step (r : UInt32) (b : UInt8) : UInt32 := shifts 8 (r ^^^ b.toUInt32)

/-- The check value of a byte string. -/
def ofBytes (bytes : List UInt8) : Nat :=
  (bytes.foldl step 0xFFFFFFFF ^^^ 0xFFFFFFFF).toNat

end Crc32

end ModelOperator
