import ModelOperator.Compression.StateTable
import ModelOperator.Compression.Window
import ModelOperator.Compression.Zstd.Literals

/-!
# The sequences of a block

    A sequence says how many literals to take and which copy follows them.  Its three
    numbers are written by three state tables in turn, each of which is fixed, sent, kept
    from the block before, or stays on one symbol.  Distances may also name one of the
    last three. -/

namespace ModelOperator

namespace Compression

namespace Zstd

/-- The last three distances, most recent first. -/
structure Recent where
  first : Nat
  second : Nat
  third : Nat
  deriving DecidableEq, Repr

/-- What a block leaves to the next one of its frame. -/
structure Memory where
  literals : Option PrefixCode
  literalLengths : Option StateTable
  distances : Option StateTable
  copyLengths : Option StateTable
  recent : Recent

/-- What the first block of a frame finds. -/
def Memory.empty : Memory := ⟨none, none, none, none, ⟨1, 4, 8⟩⟩

/-- How many literals to take and what to copy after them. -/
structure Sequence where
  literals : Nat
  distance : Nat
  length : Nat
  deriving DecidableEq, Repr

/-- A kind of number: the width of the extra bits for each symbol, the fixed table, and
    the largest table that may be sent. -/
structure NumberKind where
  start : Nat
  widths : List Nat
  fixedLog : Nat
  fixedShares : List Share
  maxLog : Nat

/-- The number of states per symbol, with -1 for a share of the lowest kind. -/
def sharesOf (counts : List Int) : List Share :=
  counts.map fun n => if n < 0 then .lowest else .states n.toNat

/-- Numbers of literals. -/
def literalLengthKind : NumberKind where
  start := 0
  widths := List.replicate 16 0 ++ [1, 1, 1, 1, 2, 2, 3, 3, 4, 6, 7, 8, 9, 10, 11, 12, 13, 14,
    15, 16]
  fixedLog := 6
  fixedShares := sharesOf ([4, 3] ++ List.replicate 11 2 ++ [1, 1, 1] ++ List.replicate 9 2
    ++ [3, 2, 1, 1, 1, 1, 1, -1, -1, -1, -1])
  maxLog := 9

/-- Lengths of copies. -/
def copyLengthKind : NumberKind where
  start := 3
  widths := List.replicate 32 0 ++ [1, 1, 1, 1, 2, 2, 3, 3, 4, 4, 5, 7, 8, 9, 10, 11, 12, 13, 14,
    15, 16]
  fixedLog := 6
  fixedShares := sharesOf ([1, 4, 3] ++ List.replicate 6 2 ++ List.replicate 37 1
    ++ List.replicate 7 (-1))
  maxLog := 9

/-- Distances of copies, three above the distance so that smaller numbers name a recent
    one. -/
def distanceKind : NumberKind where
  start := 1
  widths := List.range 32
  fixedLog := 5
  fixedShares := sharesOf (List.replicate 6 1 ++ [2, 2, 2] ++ List.replicate 15 1
    ++ List.replicate 5 (-1))
  maxLog := 8

/-- The least number for a symbol. -/
def NumberKind.base (kind : NumberKind) (symbol : Nat) : Nat :=
  kind.start + (kind.widths.take symbol).foldr (fun width sum => Nat.pow 2 width + sum) 0

/-- Reads the number whose symbol is known. -/
def NumberKind.read (kind : NumberKind) (symbol : Nat) : BitReader Nat := do
  return kind.base symbol + (← readHigh (kind.widths.getD symbol 0))

/-- The table of a kind under the given mode, and what follows it. -/
def NumberKind.table (kind : NumberKind) (last : Option StateTable) (mode : Nat)
    (bytes : List UInt8) : Option (StateTable × List UInt8) :=
  match mode with
  | 0 => some (StateTable.build kind.fixedLog kind.fixedShares, bytes)
  | 1 =>
    match bytes with
    | [] => none
    | b :: rest =>
      if b.toNat < kind.widths.length then some (StateTable.single b.toNat, rest) else none
  | 2 => StateTable.parse kind.maxLog kind.widths.length bytes
  | _ => last.map (·, bytes)

/-- The distance that a number stands for, and the recent ones after it.  Without literals
    in front, the most recent distance is no choice and the others move up. -/
def Recent.resolve (recent : Recent) (number literals : Nat) : Option (Nat × Recent) :=
  if 3 < number then some (number - 3, ⟨number - 3, recent.first, recent.second⟩)
  else
    match number - 1 + (if literals = 0 then 1 else 0) with
    | 0 => some (recent.first, recent)
    | 1 => some (recent.second, ⟨recent.second, recent.first, recent.third⟩)
    | 2 => some (recent.third, ⟨recent.third, recent.first, recent.second⟩)
    | _ =>
      if recent.first = 1 then none
      else some (recent.first - 1, ⟨recent.first - 1, recent.first, recent.second⟩)

/-- The three tables of a block. -/
structure Tables where
  literalLengths : StateTable
  distances : StateTable
  copyLengths : StateTable

/-- The states of the three tables. -/
structure States where
  literalLengths : Nat
  distances : Nat
  copyLengths : Nat

/-- Reads the first states. -/
def Tables.start (tables : Tables) : BitReader States := do
  let l ← tables.literalLengths.start
  let d ← tables.distances.start
  let c ← tables.copyLengths.start
  return ⟨l, d, c⟩

/-- Reads the next states. -/
def Tables.advance (tables : Tables) (states : States) : BitReader States := do
  let l ← tables.literalLengths.advance states.literalLengths
  let c ← tables.copyLengths.advance states.copyLengths
  let d ← tables.distances.advance states.distances
  return ⟨l, d, c⟩

/-- Reads one sequence. -/
def Tables.sequence (tables : Tables) (states : States) (recent : Recent) :
    BitReader (Sequence × Recent) := do
  let number ← distanceKind.read (tables.distances.cell states.distances).symbol
  let length ← copyLengthKind.read (tables.copyLengths.cell states.copyLengths).symbol
  let literals ← literalLengthKind.read (tables.literalLengths.cell states.literalLengths).symbol
  let (distance, recent) ← recent.resolve number literals
  return (⟨literals, distance, length⟩, recent)

/-- Reads `n + 1` sequences; the states do not advance behind the last. -/
def Tables.sequences (tables : Tables) :
    Nat → States → Recent → Array Sequence → BitReader (Array Sequence × Recent)
  | 0, states, recent, got => do
    let (s, recent) ← tables.sequence states recent
    return (got.push s, recent)
  | n + 1, states, recent, got => do
    let (s, recent) ← tables.sequence states recent
    let states ← tables.advance states
    tables.sequences n states recent (got.push s)

/-- How many sequences a block has, and what follows that count. -/
def sequenceCount (bytes : List UInt8) : Option (Nat × List UInt8) :=
  match bytes with
  | [] => none
  | a :: rest =>
    if a < 128 then some (a.toNat, rest)
    else
      match rest with
      | [] => none
      | b :: rest =>
        if a < 255 then some ((a.toNat - 128) * 256 + b.toNat, rest)
        else
          match rest with
          | [] => none
          | c :: rest => some (b.toNat + 256 * c.toNat + 0x7f00, rest)

/-- The sequences that follow the literals of a block, and what is kept for the next one. -/
def parseSequences (memory : Memory) (bytes : List UInt8) :
    Option (List Sequence × Memory) := do
  let (count, rest) ← sequenceCount bytes
  match count with
  | 0 =>
    demand (rest.isEmpty)
    return ([], memory)
  | n + 1 =>
    match rest with
    | [] => none
    | modes :: rest => do
      let modes := modes.toNat
      demand (modes % 4 = 0)
      let (l, rest) ← literalLengthKind.table memory.literalLengths (modes / 64) rest
      let (d, rest) ← distanceKind.table memory.distances (modes / 16 % 4) rest
      let (c, rest) ← copyLengthKind.table memory.copyLengths (modes / 4 % 4) rest
      let tables : Tables := ⟨l, d, c⟩
      let bits ← backward rest
      let (states, bits) ← tables.start bits
      let ((sequences, recent), bits) ← tables.sequences n states memory.recent #[] bits
      demand (bits.isEmpty)
      return (sequences.toList, ⟨memory.literals, some l, some d, some c, recent⟩)

/-- The output after a run of sequences, and the literals left over.  A copy may not reach
    back beyond the start of its frame. -/
def replay : List Sequence → List UInt8 → Array UInt8 → Option (Array UInt8)
  | [], literals, out => some (out ++ literals)
  | s :: rest, literals, out =>
    if literals.length < s.literals then none
    else
      let out := out ++ literals.take s.literals
      if s.distance = 0 ∨ out.size < s.distance then none
      else replay rest (literals.drop s.literals) (copyBack s.distance s.length out)

end Zstd

end Compression

end ModelOperator
