import ModelOperator.Compression.Bits

/-!
# Prefix codes

    A code is the tree of its words: a symbol at each leaf, and a gap where no word leads.
    `ofLevels` builds a canonical code from the symbols of each length, one level of the
    tree at a time from the deepest up: two neighbours on a level meet in a fork on the
    level above, beside the symbols that end there.  Whether those come before the forks
    or after them is the one difference between the two formats that use it. -/

namespace ModelOperator

namespace Compression

/-- A prefix code. -/
inductive PrefixCode where
  | gap
  | leaf (symbol : Nat)
  | fork (zero one : PrefixCode)

namespace PrefixCode

/-- Whether every bit string leads to a symbol. -/
def complete : PrefixCode → Bool
  | .gap => false
  | .leaf _ => true
  | .fork zero one => zero.complete && one.complete

/-- Reads one symbol. -/
def next : PrefixCode → BitReader Nat
  | .gap, _ => none
  | .leaf symbol, bits => some (symbol, bits)
  | .fork _ _, [] => none
  | .fork zero _, false :: bits => zero.next bits
  | .fork _ one, true :: bits => one.next bits

/-- The forks over a level. -/
def pairs : List PrefixCode → List PrefixCode
  | [] => []
  | [a] => [.fork a .gap]
  | a :: b :: rest => .fork a b :: pairs rest

/-- On a level, whether the symbols that end there come before its forks. -/
inductive LevelOrder where
  | leavesFirst
  | forksFirst

/-- One level, from the symbols that end there and its forks. -/
def LevelOrder.join : LevelOrder → List PrefixCode → List PrefixCode → List PrefixCode
  | .leavesFirst, leaves, forks => leaves ++ forks
  | .forksFirst, leaves, forks => forks ++ leaves

/-- The trees that stand on a level, from the symbols of each length from this one on. -/
def trees (order : LevelOrder) : List (List Nat) → List PrefixCode
  | [] => []
  | symbols :: deeper => order.join (symbols.map .leaf) (pairs (trees order deeper))

/-- The canonical code with the given symbols of length 1, 2, …, unless they take up more
    words than there are. -/
def ofLevels (order : LevelOrder) (levels : List (List Nat)) : Option PrefixCode :=
  match pairs (trees order levels) with
  | [] => some .gap
  | [tree] => some tree
  | _ => none

/-- The symbols whose length is `n`, given the length of each. -/
def ofLength (lengths : List Nat) (n : Nat) : List Nat :=
  (lengths.zipIdx.filter (·.1 == n)).map (·.2)

/-- The canonical code in which each symbol has the given length, zero if it has no word. -/
def ofLengths (order : LevelOrder) (lengths : List Nat) : Option PrefixCode :=
  ofLevels order ((List.range (lengths.foldl max 0)).map fun n => ofLength lengths (n + 1))

@[simp] theorem next_gap (bits : List Bool) : next .gap bits = none := by
  simp [next]

@[simp] theorem next_leaf (symbol : Nat) (bits : List Bool) :
    next (.leaf symbol) bits = some (symbol, bits) := by
  simp [next]

/-- A fork reads one bit and goes on below it. -/
theorem next_fork_cons (zero one : PrefixCode) (b : Bool) (bits : List Bool) :
    next (.fork zero one) (b :: bits) = if b then one.next bits else zero.next bits := by
  cases b <;> simp [next]

end PrefixCode

end Compression

end ModelOperator
