import ModelOperator.Bytes.Number

/-!
# Bit streams

    A stream is a list of bits.  `bitsOf` unpacks bytes lowest bit first and `bytesOf`
    packs them again.  A reader takes bits from the front and fails when they run out:
    `readLow` reads a number lowest bit first, `readHigh` highest bit first. -/

namespace ModelOperator

namespace Compression

/-- Takes bits from the front of a stream; `none` if they do not fit. -/
abbrev BitReader := StateT (List Bool) Option

/-- The bits of a byte, lowest first. -/
def byteBits (b : UInt8) : List Bool := (List.range 8).map b.toNat.testBit

/-- The bits of bytes, lowest first. -/
def bitsOf (bytes : List UInt8) : List Bool := bytes.flatMap byteBits

/-- The number that bits write, lowest first. -/
def lowFirst : List Bool → Nat
  | [] => 0
  | b :: rest => b.toNat + 2 * lowFirst rest

/-- The number that bits write, highest first. -/
def highFirst (bits : List Bool) : Nat := bits.foldl (fun n b => 2 * n + b.toNat) 0

/-- The bytes that bits write, lowest first; bits short of a byte are dropped. -/
def bytesOf : List Bool → List UInt8
  | a :: b :: c :: d :: e :: f :: g :: h :: rest =>
    UInt8.ofNat (lowFirst [a, b, c, d, e, f, g, h]) :: bytesOf rest
  | _ => []

/-- The next `n` bits. -/
def readBits (n : Nat) : BitReader (List Bool) := fun bits =>
  let taken := bits.take n
  if taken.length = n then some (taken, bits.drop n) else none

/-- The number in the next `n` bits, lowest first. -/
def readLow (n : Nat) : BitReader Nat := lowFirst <$> readBits n

/-- The number in the next `n` bits, highest first. -/
def readHigh (n : Nat) : BitReader Nat := highFirst <$> readBits n

/-- Skips to the next whole byte. -/
def alignByte : BitReader Unit := fun bits => some ((), bits.drop (bits.length % 8))

/-- How many bits are left. -/
def bitsLeft : BitReader Nat := fun bits => some (bits.length, bits)

/-- Refuses unless a condition holds. -/
def demand (p : Prop) [Decidable p] : Option Unit := if p then some () else none

/-- A stream that is read from the last byte back: it starts below the highest bit set
    in its last byte, which marks its end. -/
def backward (bytes : List UInt8) : Option (List Bool) :=
  match bytes.getLast? with
  | none => none
  | some b =>
    if b = 0 then none
    else some (((bitsOf bytes).reverse.dropWhile (!·)).drop 1)

@[simp] theorem lowFirst_nil : lowFirst [] = 0 := rfl

@[simp] theorem lowFirst_cons (b : Bool) (rest : List Bool) :
    lowFirst (b :: rest) = b.toNat + 2 * lowFirst rest := rfl

@[simp] theorem bitsOf_cons (b : UInt8) (rest : List UInt8) :
    bitsOf (b :: rest) = byteBits b ++ bitsOf rest := rfl

end Compression

end ModelOperator
