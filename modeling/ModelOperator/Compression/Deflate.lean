import ModelOperator.Compression.PrefixCode
import ModelOperator.Compression.Window

/-!
# Deflated data

    A deflated stream is a run of blocks: stored bytes, or symbols of two prefix codes,
    fixed or sent in front of the block.  A symbol is a byte, the end of the block, or the
    length of a copy whose distance back the second code gives.  `inflate` reads the whole
    run and leaves the stream behind the last block. -/

namespace ModelOperator

namespace Compression

namespace Deflate

/-- The two codes of a block. -/
structure Codes where
  symbols : PrefixCode
  distances : PrefixCode

/-- A code may leave words unused only if it has at most one symbol. -/
def code? (lengths : List Nat) : Option PrefixCode := do
  let code ← PrefixCode.ofLengths .leavesFirst lengths
  demand (code.complete ∨ (lengths.filter (· != 0)).length ≤ 1)
  return code

/-- The lengths of the fixed code for symbols. -/
def fixedLengths : List Nat :=
  List.replicate 144 8 ++ List.replicate 112 9 ++ List.replicate 24 7 ++ List.replicate 8 8

/-- The codes of a block that sends none. -/
def fixedCodes : Option Codes := do
  return ⟨← code? fixedLengths, ← code? (List.replicate 32 5)⟩

/-- The order in which the lengths of the code for code lengths are sent. -/
def lengthOrder : List Nat := [16, 17, 18, 0, 8, 7, 9, 6, 10, 5, 11, 4, 12, 3, 13, 2, 14, 1, 15]

/-- The lengths sent in that order, put back by symbol. -/
def bySymbol (sent : List Nat) : List Nat :=
  (List.range 19).map fun symbol =>
    ((lengthOrder.zip sent).lookup symbol).getD 0

/-- Reads code lengths until there are `size`, most recent first.  Symbols from 16 on
    repeat the last length, or zero. -/
def readLengths (code : PrefixCode) (size : Nat) : Nat → List Nat → BitReader (List Nat)
  | 0, _ => failure
  | fuel + 1, got => do
    if got.length = size then return got
    demand (got.length < size)
    match ← code.next with
    | 16 =>
      match got with
      | [] => failure
      | last :: _ =>
        let n ← readLow 2
        readLengths code size fuel (List.replicate (n + 3) last ++ got)
    | 17 =>
      let n ← readLow 3
      readLengths code size fuel (List.replicate (n + 3) 0 ++ got)
    | 18 =>
      let n ← readLow 7
      readLengths code size fuel (List.replicate (n + 11) 0 ++ got)
    | length => readLengths code size fuel (length :: got)

/-- Reads the codes in front of a block. -/
def readCodes : BitReader Codes := do
  let symbols := (← readLow 5) + 257
  let distances := (← readLow 5) + 1
  let sent := (← readLow 4) + 4
  demand (symbols ≤ 286 ∧ distances ≤ 30)
  let lengths := bySymbol (← (List.range sent).mapM fun _ => readLow 3)
  let code ← PrefixCode.ofLengths .leavesFirst lengths
  demand code.complete
  let size := symbols + distances
  let all := (← readLengths code size (size + 1) []).reverse
  return ⟨← code? (all.take symbols), ← code? (all.drop symbols)⟩

/-- The length of a copy for its symbol. -/
def readCopyLength (symbol : Nat) : BitReader Nat := do
  let i := symbol - 257
  demand (i < 29)
  if i < 8 then return i + 3
  else if i = 28 then return 258
  else
    let extra := i / 4 - 1
    return (i % 4 + 4) * Nat.pow 2 extra + 3 + (← readLow extra)

/-- The distance of a copy for its symbol. -/
def readDistance (symbol : Nat) : BitReader Nat := do
  demand (symbol < 30)
  if symbol < 4 then return symbol + 1
  else
    let extra := symbol / 2 - 1
    return (symbol % 2 + 2) * Nat.pow 2 extra + 1 + (← readLow extra)

/-- The bytes of a block of symbols, after those already written. -/
def readSymbols (codes : Codes) : Nat → Array UInt8 → BitReader (Array UInt8)
  | 0, _ => failure
  | fuel + 1, out => do
    let symbol ← codes.symbols.next
    if symbol < 256 then readSymbols codes fuel (out.push (UInt8.ofNat symbol))
    else if symbol = 256 then return out
    else
      let length ← readCopyLength symbol
      let distance ← readDistance (← codes.distances.next)
      readSymbols codes fuel (copyBack distance length out)

/-- The bytes of a stored block. -/
def readStored (out : Array UInt8) : BitReader (Array UInt8) := do
  alignByte
  let length ← readLow 16
  let check ← readLow 16
  demand (length + check = 65535)
  let bits ← readBits (8 * length)
  return out ++ bytesOf bits

/-- The bytes of one block. -/
def readBlock (out : Array UInt8) : BitReader (Array UInt8) := do
  let fuel := (← bitsLeft) + 1
  match ← readLow 2 with
  | 0 => readStored out
  | 1 =>
    let codes ← fixedCodes
    readSymbols codes fuel out
  | 2 =>
    let codes ← readCodes
    readSymbols codes fuel out
  | _ => failure

/-- The bytes of all blocks up to the last one. -/
def readBlocks : Nat → Array UInt8 → BitReader (Array UInt8)
  | 0, _ => failure
  | fuel + 1, out => do
    let last ← readLow 1
    let out ← readBlock out
    if last = 1 then return out else readBlocks fuel out

/-- The bytes of a deflated stream. -/
def inflate : BitReader (Array UInt8) := do
  readBlocks ((← bitsLeft) + 1) #[]

end Deflate

end Compression

end ModelOperator
