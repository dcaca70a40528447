import ModelOperator.Bytes.Xxh64
import ModelOperator.Compression.Zstd.Sequences

/-!
# Zstd frames

    A frame is a header, blocks, and a check value if the header asks for one.
    `Zstd.decode` unpacks every frame of its input, passes over frames to be skipped, and
    refuses anything else, an empty input included.

    Two kinds of frames are refused here that a decoder may also take: those of the formats
    before this one, which have magic bytes of their own, and small frames whose window is beyond
    `largestWindow`, which can be unpacked without one. -/

namespace ModelOperator

namespace Compression

namespace Zstd

/-- The largest block of any frame. -/
def largestBlock : Nat := 128 * 1024

/-- The largest window that is unpacked. -/
def largestWindow : Nat := Nat.pow 2 27 + 1

/-- What the header of a frame says. -/
structure Header where
  window : Nat
  size : Option Nat
  checked : Bool

/-- The size that the window byte stands for. -/
def windowSize (b : UInt8) : Nat :=
  let base := Nat.pow 2 (b.toNat / 8 + 10)
  base + base / 8 * (b.toNat % 8)

/-- The size of the field that gives the unpacked size. -/
def sizeWidth (flag : Nat) (single : Bool) : Nat :=
  match flag with
  | 0 => if single then 1 else 0
  | 1 => 2
  | 2 => 4
  | _ => 8

/-- The unpacked size that a field writes; fields of two bytes count from 256. -/
def sizeOf? (field : List UInt8) : Option Nat :=
  match field.length with
  | 0 => none
  | 2 => some (littleEndian field + 256)
  | _ => some (littleEndian field)

/-- The header of a frame, behind its four magic bytes.  A frame that needs a dictionary is
    refused. -/
def parseHeader (bytes : List UInt8) : Option (Header × List UInt8) :=
  match bytes with
  | [] => none
  | descriptor :: rest => do
    let flags := descriptor.toNat
    demand (¬ flags.testBit 3)
    let single := flags.testBit 5
    let (window, rest) ← takeExact (if single then 0 else 1) rest
    let (dictionary, rest) ← takeExact ([0, 1, 2, 4].getD (flags % 4) 0) rest
    let (size, rest) ← takeExact (sizeWidth (flags / 64) single) rest
    demand (littleEndian dictionary = 0)
    let size := sizeOf? size
    let window := if single then size.getD 0 else windowSize (window.headD 0)
    demand (window ≤ largestWindow)
    return (⟨window, size, flags.testBit 2⟩, rest)

/-- The output and what is kept after a coded block. -/
def codedBlock (limit : Nat) (memory : Memory) (out : Array UInt8) (block : List UInt8) :
    Option (Array UInt8 × Memory) := do
  demand (2 ≤ block.length)
  let literals ← parseLiterals limit memory.literals block
  let (sequences, memory) ← parseSequences { memory with literals := literals.code } literals.rest
  let unpacked ← replay sequences literals.bytes out
  demand (unpacked.size ≤ out.size + limit)
  return (unpacked, memory)

/-- The output after all blocks of a frame, and what follows them. -/
def readFrameBlocks (limit : Nat) :
    Nat → Memory → Array UInt8 → List UInt8 → Option (Array UInt8 × List UInt8)
  | 0, _, _, _ => none
  | fuel + 1, memory, out, bytes => do
    let (header, rest) ← takeExact 3 bytes
    let header := littleEndian header
    let size := header / 8
    demand (size ≤ limit)
    let (out, memory, rest) ← match header / 2 % 4 with
      | 0 => do
        let (block, rest) ← takeExact size rest
        some (out ++ block, memory, rest)
      | 1 => do
        let (block, rest) ← takeExact 1 rest
        some (out ++ List.replicate size (block.headD 0), memory, rest)
      | 2 => do
        let (block, rest) ← takeExact size rest
        let (out, memory) ← codedBlock limit memory out block
        some (out, memory, rest)
      | _ => none
    if header % 2 = 1 then some (out, rest) else readFrameBlocks limit fuel memory out rest

/-- The bytes of a frame, behind its four magic bytes, and what follows it. -/
def readFrame (bytes : List UInt8) : Option (List UInt8 × List UInt8) := do
  let (header, rest) ← parseHeader bytes
  let limit := min header.window largestBlock
  let (out, rest) ← readFrameBlocks limit (rest.length + 1) Memory.empty #[] rest
  let out := out.toList
  demand (header.size.all (· == out.length))
  if header.checked then
    let (check, rest) ← takeExact 4 rest
    demand (littleEndian check = Xxh64.ofBytes out % Nat.pow 2 32)
    return (out, rest)
  else return (out, rest)

/-- What follows a frame to be skipped, behind its four magic bytes. -/
def skipFrame (bytes : List UInt8) : Option (List UInt8) := do
  let (size, rest) ← takeExact 4 bytes
  let (_, rest) ← takeExact (littleEndian size) rest
  return rest

/-- The bytes of one frame or more. -/
def readFrames : Nat → List UInt8 → Option (List UInt8)
  | 0, _ => none
  | fuel + 1, bytes => do
    let (magic, rest) ← takeExact 4 bytes
    let magic := littleEndian magic
    let (out, rest) ←
      if magic = 0xFD2FB528 then readFrame rest
      else if magic / 16 = 0x184D2A5 then (skipFrame rest).map ([], ·)
      else none
    if rest.isEmpty then return out else return out ++ (← readFrames fuel rest)

/-- The bytes of all frames. -/
def decode (bytes : List UInt8) : Option (List UInt8) := readFrames (bytes.length + 1) bytes

end Zstd

end Compression

end ModelOperator
