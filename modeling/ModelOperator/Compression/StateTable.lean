import ModelOperator.Compression.Bits

/-!
# State tables

    A finite-state code has a table of `2 ^ log` states.  A state stands for a symbol and
    says how many bits give the next state, counted from a base.  The table is built from
    the share of states that each symbol gets; `readShares` reads those shares and `build`
    spreads the symbols over the table. -/

namespace ModelOperator

namespace Compression

/-- What a state stands for: its symbol, and the next state as a base plus `width` bits. -/
structure StateCell where
  symbol : Nat
  width : Nat
  base : Nat
  deriving Inhabited

/-- A table of `2 ^ log` states. -/
structure StateTable where
  log : Nat
  cells : Array StateCell

/-- How many states a symbol gets: none, or some, or one of its own at the end of the
    table. -/
inductive Share where
  | states (count : Nat)
  | lowest
  deriving DecidableEq

/-- How many states a share takes up. -/
def Share.size : Share → Nat
  | .states n => n
  | .lowest => 1

namespace StateTable

/-- The table that stays on one symbol. -/
def single (symbol : Nat) : StateTable := ⟨0, #[⟨symbol, 0, 0⟩]⟩

/-- The states in the order in which symbols are dealt to them. -/
def dealt (size : Nat) : List Nat :=
  (List.range size).map fun i => i * (size / 2 + size / 8 + 3) % size

/-- The symbols with a share of the lowest kind. -/
def lowestSymbols (shares : List Share) : List Nat :=
  (shares.zipIdx.filter (·.1 == .lowest)).map (·.2)

/-- The other symbols, each as often as it has states. -/
def commonSymbols (shares : List Share) : List Nat :=
  shares.zipIdx.flatMap fun (share, symbol) =>
    match share with
    | .states n => List.replicate n symbol
    | .lowest => []

/-- Which symbol each state stands for. -/
def spread (size : Nat) (shares : List Share) : Array Nat :=
  let lowest := lowestSymbols shares
  let top := (List.range lowest.length).map fun i => size - 1 - i
  let below := (dealt size).filter (· < size - lowest.length)
  (top.zip lowest ++ below.zip (commonSymbols shares)).foldl
    (fun table (state, symbol) => table.setIfInBounds state symbol) (Array.replicate size 0)

/-- The table for the given shares of `2 ^ log` states. -/
def build (log : Nat) (shares : List Share) : StateTable :=
  let size := Nat.pow 2 log
  let step := fun (acc : Array StateCell × Array Nat) (symbol : Nat) =>
    let next := acc.2.getD symbol 1
    let width := log - Nat.log2 next
    let cell := ⟨symbol, width, next * Nat.pow 2 width - size⟩
    (acc.1.push cell, acc.2.setIfInBounds symbol (next + 1))
  let start := (shares.map Share.size).toArray
  ⟨log, ((spread size shares).foldl step (#[], start)).1⟩

/-- How many symbols without a state follow one. -/
def readGap : Nat → BitReader Nat
  | 0 => failure
  | fuel + 1 => do
    let n ← readLow 2
    if n = 3 then return 3 + (← readGap fuel) else return n

/-- One share, as a number one above the count of states, when `left` is one above the
    number of states still to give out. -/
def readShareNumber (left : Nat) : BitReader Nat := do
  let width := Nat.log2 left
  let threshold := Nat.pow 2 width
  let spare := 2 * threshold - 1 - left
  let low ← readLow width
  if low < spare then return low
  else if (← readLow 1) = 0 then return low
  else return low + threshold - spare

/-- The shares that follow `got`, which is given most recent first. -/
def readSharesFrom (most : Nat) : Nat → Nat → List Share → BitReader (List Share)
  | 0, _, _ => failure
  | fuel + 1, left, got => do
    if left = 1 then return got
    let got ← if got.head? = some (.states 0) then do
        let gap ← readGap (most + 1)
        pure (List.replicate gap (.states 0) ++ got)
      else pure got
    demand (got.length < most)
    match ← readShareNumber left with
    | 0 => readSharesFrom most fuel (left - 1) (.lowest :: got)
    | n + 1 => readSharesFrom most fuel (left - n) (.states n :: got)

/-- Reads the size of a table, as its logarithm, and the shares of at most `most` symbols. -/
def readShares (maxLog most : Nat) : BitReader (Nat × List Share) := do
  let log := (← readLow 4) + 5
  demand (log ≤ maxLog)
  let shares ← readSharesFrom most (most + 1) (Nat.pow 2 log + 1) []
  return (log, shares.reverse)

/-- Reads a table from the start of bytes, and gives what follows it. -/
def parse (maxLog most : Nat) (bytes : List UInt8) : Option (StateTable × List UInt8) := do
  let ((log, shares), left) ← readShares maxLog most (bitsOf bytes)
  return (build log shares, bytesOf (left.drop (left.length % 8)))

/-- The first state. -/
def start (table : StateTable) : BitReader Nat := readHigh table.log

/-- What a state stands for. -/
def cell (table : StateTable) (state : Nat) : StateCell := table.cells.getD state default

/-- The state after one. -/
def advance (table : StateTable) (state : Nat) : BitReader Nat := do
  let cell := table.cell state
  return cell.base + (← readHigh cell.width)

end StateTable

end Compression

end ModelOperator
