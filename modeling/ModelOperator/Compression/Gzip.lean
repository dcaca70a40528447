import ModelOperator.Bytes.Crc32
import ModelOperator.Compression.Deflate

/-!
# Gzip members

    A member is a header with optional fields, deflated data, and the check value and size
    of what it unpacks to.  `Gzip.decode` unpacks the first member of its input and does
    not look at what follows it. -/

namespace ModelOperator

namespace Compression

namespace Gzip

/-- The longest text that a header may hold. -/
def longestText : Nat := 65535

/-- What follows a text that ends with a zero byte. -/
def skipText (bytes : List UInt8) : Option (List UInt8) :=
  match bytes.span (· != 0) with
  | (text, 0 :: rest) => if text.length ≤ longestText then some rest else none
  | _ => none

/-- What follows the extra field. -/
def skipExtra (bytes : List UInt8) : Option (List UInt8) := do
  let (size, rest) ← takeExact 2 bytes
  let (_, rest) ← takeExact (littleEndian size) rest
  return rest

/-- What follows the check value of the header, given the whole member. -/
def skipHeaderCheck (member bytes : List UInt8) : Option (List UInt8) := do
  let header := member.take (member.length - bytes.length)
  let (check, rest) ← takeExact 2 bytes
  demand (littleEndian check = Crc32.ofBytes header % 65536)
  return rest

/-- What follows the header of a member. -/
def skipHeader (member : List UInt8) : Option (List UInt8) := do
  let (fixed, rest) ← takeExact 10 member
  demand (fixed.take 3 = [0x1f, 0x8b, 8])
  let flags := (fixed.getD 3 0).toNat
  demand (flags < 32)
  let rest ← if flags.testBit 2 then skipExtra rest else some rest
  let rest ← if flags.testBit 3 then skipText rest else some rest
  let rest ← if flags.testBit 4 then skipText rest else some rest
  if flags.testBit 1 then skipHeaderCheck member rest else some rest

/-- The bytes of the first member. -/
def decode (member : List UInt8) : Option (List UInt8) := do
  let data ← skipHeader member
  let (unpacked, left) ← Deflate.inflate (bitsOf data)
  let out := unpacked.toList
  let (trailer, _) ← takeExact 8 (bytesOf (left.drop (left.length % 8)))
  demand (littleEndian (trailer.take 4) = Crc32.ofBytes out)
  demand (littleEndian (trailer.drop 4) = out.length % Nat.pow 2 32)
  return out

end Gzip

end Compression

end ModelOperator
