import ModelOperator.Compression.PrefixCode
import ModelOperator.Compression.StateTable

/-!
# The literals of a block

    A block of a zstd frame starts with the bytes that its copies do not give.  They are
    stored, or one byte repeated, or written with a prefix code in one stream or four.
    The code is sent as a weight for each symbol but the last, whose weight makes the code
    complete, or is that of the block before. -/

namespace ModelOperator

namespace Compression

namespace Zstd

/-- The greatest weight of a symbol, and the longest word of a code. -/
def maxWeight : Nat := 12

/-- The weights that two states in turn give, most recent first: when the bits do not
    suffice for the next state, the other one gives the last weight. -/
def alternate (table : StateTable) : Nat → Nat → Nat → List Nat → List Bool → Option (List Nat)
  | 0, _, _, _, _ => none
  | fuel + 1, state, other, got, bits =>
    let got := (table.cell state).symbol :: got
    match table.advance state bits with
    | none => some ((table.cell other).symbol :: got)
    | some (next, bits) => alternate table fuel other next got bits

/-- The weights that a state table writes. -/
def tableWeights (bytes : List UInt8) : Option (List Nat) := do
  let (table, rest) ← StateTable.parse 6 256 bytes
  let bits ← backward rest
  let (first, bits) ← table.start bits
  let (second, bits) ← table.start bits
  let weights ← alternate table 254 first second [] bits
  return weights.reverse

/-- The weights that half bytes write, high half first. -/
def plainWeights (bytes : List UInt8) : List Nat :=
  bytes.flatMap fun b => [b.toNat / 16, b.toNat % 16]

/-- The code in which all symbols but the last have the given weights. -/
def codeOfWeights (weights : List Nat) : Option PrefixCode := do
  demand (weights.all (· ≤ maxWeight) ∧ weights.length < 256)
  let total := weights.foldr (fun w sum => (if w = 0 then 0 else Nat.pow 2 (w - 1)) + sum) 0
  demand (total ≠ 0)
  let log := Nat.log2 total + 1
  demand (log ≤ maxWeight)
  let rest := Nat.pow 2 log - total
  demand (rest = Nat.pow 2 rest.log2)
  let weights := weights ++ [Nat.log2 rest + 1]
  let ones := (weights.filter (· == 1)).length
  demand (2 ≤ ones ∧ ones % 2 = 0)
  PrefixCode.ofLengths .forksFirst (weights.map fun w => if w = 0 then 0 else log + 1 - w)

/-- Reads a code from the start of bytes, and gives what follows it. -/
def parseCode (bytes : List UInt8) : Option (PrefixCode × List UInt8) :=
  match bytes with
  | [] => none
  | b :: rest =>
    let n := b.toNat
    if n < 128 then do
      let (field, rest) ← takeExact n rest
      return (← codeOfWeights (← tableWeights field), rest)
    else do
      let count := n - 127
      let (field, rest) ← takeExact ((count + 1) / 2) rest
      return (← codeOfWeights ((plainWeights field).take count), rest)

/-- Reads `n` bytes of a code. -/
def readBytes (code : PrefixCode) : Nat → Array UInt8 → BitReader (Array UInt8)
  | 0, out => return out
  | n + 1, out => do
    let symbol ← code.next
    readBytes code n (out.push (UInt8.ofNat symbol))

/-- The `n` bytes that fill a whole stream. -/
def streamBytes (code : PrefixCode) (n : Nat) (bytes : List UInt8) : Option (List UInt8) := do
  let bits ← backward bytes
  let (out, rest) ← readBytes code n #[] bits
  demand (rest.isEmpty)
  return out.toList

/-- The `n` bytes of four streams; the sizes of the first three stand in front. -/
def fourStreams (code : PrefixCode) (n : Nat) (bytes : List UInt8) : Option (List UInt8) := do
  demand (6 ≤ n ∧ 10 ≤ bytes.length)
  let (sizes, rest) ← takeExact 6 bytes
  let (first, rest) ← takeExact (littleEndian (sizes.take 2)) rest
  let (second, rest) ← takeExact (littleEndian ((sizes.drop 2).take 2)) rest
  let (third, fourth) ← takeExact (littleEndian (sizes.drop 4)) rest
  let share := (n + 3) / 4
  let a ← streamBytes code share first
  let b ← streamBytes code share second
  let c ← streamBytes code share third
  let d ← streamBytes code (n - 3 * share) fourth
  return a ++ b ++ c ++ d

/-- The sizes in front of coded literals: how many bytes they are, how many they take up,
    and how many bytes the sizes themselves take up. -/
def codedSizes (form : Nat) (bytes : List UInt8) : Nat × Nat × Nat :=
  let header := if form < 2 then 3 else form + 2
  let width := if form < 2 then 10 else 4 * form + 6
  let value := littleEndian (bytes.take header) / 16
  (value % Nat.pow 2 width, value / Nat.pow 2 width, header)

/-- The literals of a block, the code to go on with, and what follows them. -/
structure Literals where
  bytes : List UInt8
  code : Option PrefixCode
  rest : List UInt8

/-- Literals that are stored or one byte repeated. -/
def plainLiterals (limit : Nat) (code : Option PrefixCode) (repeated : Bool) (form : Nat)
    (bytes : List UInt8) : Option Literals := do
  let header := if form % 2 = 0 then 1 else if form = 1 then 2 else 3
  let (sizes, rest) ← takeExact header bytes
  let size := littleEndian sizes / (if form % 2 = 0 then 8 else 16)
  demand (size ≤ limit)
  let (field, rest) ← takeExact (if repeated then 1 else size) rest
  return ⟨if repeated then List.replicate size (field.headD 0) else field, code, rest⟩

/-- Literals written with a code, a new one or the last one. -/
def codedLiterals (limit : Nat) (code : Option PrefixCode) (form : Nat) (bytes : List UInt8) :
    Option Literals := do
  demand (5 ≤ bytes.length)
  let (size, taken, header) := codedSizes form bytes
  demand (0 < size ∧ size ≤ limit)
  let (field, rest) ← takeExact taken (bytes.drop header)
  let (code, streams) ← match code with
    | some code => some (code, field)
    | none => parseCode field
  let out ← if form = 0 then streamBytes code size streams else fourStreams code size streams
  return ⟨out, some code, rest⟩

/-- The literals at the start of a block of at most `limit` bytes. -/
def parseLiterals (limit : Nat) (last : Option PrefixCode) (bytes : List UInt8) :
    Option Literals :=
  match bytes with
  | [] => none
  | b :: _ =>
    let form := b.toNat / 4 % 4
    match b.toNat % 4 with
    | 0 => plainLiterals limit last false form bytes
    | 1 => plainLiterals limit last true form bytes
    | 2 => codedLiterals limit none form bytes
    | _ => do
      let code ← last
      codedLiterals limit (some code) form bytes

end Zstd

end Compression

end ModelOperator
