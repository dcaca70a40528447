import ModelOperator.Bytes.Utf8

/-!
# Base64

    The standard alphabet with padding: `Base64.encode` writes three bytes as four
    symbols, `Base64.decode` accepts exactly what it writes.  A refusal names the first
    fault: a symbol outside the alphabet or padding in the wrong place, a last group of
    one symbol, padding of the wrong length, or bits that no byte accounts for. -/

namespace ModelOperator

namespace Base64

/-- Why a text is not base64. -/
inductive Fault where
  | symbol (byte : UInt8) (offset : Nat)
  | lastSymbol (byte : UInt8) (offset : Nat)
  | length (count : Nat)
  | padding
  deriving DecidableEq, Repr

/-- The message of a fault. -/
def Fault.message : Fault → String
  | .symbol byte offset => s!"Invalid symbol {byte.toNat}, offset {offset}."
  | .lastSymbol byte offset => s!"Invalid last symbol {byte.toNat}, offset {offset}."
  | .length count => s!"Invalid input length: {count}"
  | .padding => "Invalid padding"

/-- The padding symbol. -/
def pad : UInt8 := 61

/-- The symbol for six bits. -/
def symbol (n : Nat) : UInt8 :=
  if n < 26 then UInt8.ofNat (65 + n)
  else if n < 52 then UInt8.ofNat (71 + n)
  else if n < 62 then UInt8.ofNat (n - 4)
  else if n = 62 then 43
  else 47

/-- The six bits of a symbol. -/
def value? (b : UInt8) : Option Nat :=
  let n := b.toNat
  if 65 ≤ n ∧ n ≤ 90 then some (n - 65)
  else if 97 ≤ n ∧ n ≤ 122 then some (n - 71)
  else if 48 ≤ n ∧ n ≤ 57 then some (n + 4)
  else if n = 43 then some 62
  else if n = 47 then some 63
  else none

/-- The symbols of a list of bytes. -/
def encode : List UInt8 → List UInt8
  | [] => []
  | [a] =>
    let n := a.toNat * 16
    [symbol (n / 64), symbol (n % 64), pad, pad]
  | [a, b] =>
    let n := (a.toNat * 256 + b.toNat) * 4
    [symbol (n / 4096), symbol (n / 64 % 64), symbol (n % 64), pad]
  | a :: b :: c :: rest =>
    let n := (a.toNat * 256 + b.toNat) * 256 + c.toNat
    symbol (n / 262144) :: symbol (n / 4096 % 64) :: symbol (n / 64 % 64) ::
      symbol (n % 64) :: encode rest

/-- The six bits of the symbol at an offset. -/
def bitsAt (b : UInt8) (offset : Nat) : Except Fault Nat :=
  match value? b with
  | some v => .ok v
  | none => .error (.symbol b offset)

/-- The three bytes of a group of four symbols. -/
def group (offset : Nat) (a b c d : UInt8) : Except Fault (List UInt8) := do
  let a ← bitsAt a offset
  let b ← bitsAt b (offset + 1)
  let c ← bitsAt c (offset + 2)
  let d ← bitsAt d (offset + 3)
  let n := ((a * 64 + b) * 64 + c) * 64 + d
  .ok [UInt8.ofNat (n / 65536), UInt8.ofNat (n / 256 % 256), UInt8.ofNat (n % 256)]

/-- The symbols of the last group, and how many padding symbols follow them; `index` is
    the place within the group, and `first` that of the first padding seen. -/
def lastGroup (offset : Nat) : Nat → Option Nat → List UInt8 → Except Fault (List (UInt8 × Nat) × Nat)
  | _, _, [] => .ok ([], 0)
  | index, first, b :: rest =>
    if b = pad then
      if index < 2 then .error (.symbol b (offset + index))
      else do
        let (symbols, pads) ← lastGroup offset (index + 1) (first.orElse fun _ => some index) rest
        .ok (symbols, pads + 1)
    else
      match first with
      | some place => .error (.symbol pad (offset + place))
      | none => do
        let v ← bitsAt b (offset + index)
        let (symbols, pads) ← lastGroup offset (index + 1) none rest
        .ok ((b, v) :: symbols, pads)

/-- The bytes of the last group, which has at most four symbols. -/
def suffix (offset : Nat) (tail : List UInt8) : Except Fault (List UInt8) := do
  let (symbols, pads) ← lastGroup offset 0 none tail
  match symbols with
  | [] => if tail.isEmpty then .ok [] else .error (.length offset)
  | [_] => .error (.length (offset + 1))
  | [(_, a), (last, b)] =>
    if pads ≠ 2 then .error .padding
    else if b % 16 ≠ 0 then .error (.lastSymbol last (offset + 1))
    else .ok [UInt8.ofNat ((a * 64 + b) / 16)]
  | [(_, a), (_, b), (last, c)] =>
    if pads ≠ 1 then .error .padding
    else if c % 4 ≠ 0 then .error (.lastSymbol last (offset + 2))
    else
      let n := ((a * 64 + b) * 64 + c) / 4
      .ok [UInt8.ofNat (n / 256), UInt8.ofNat (n % 256)]
  | (_, a) :: (_, b) :: (_, c) :: (_, d) :: _ =>
    let n := ((a * 64 + b) * 64 + c) * 64 + d
    .ok [UInt8.ofNat (n / 65536), UInt8.ofNat (n / 256 % 256), UInt8.ofNat (n % 256)]

/-- The bytes of the groups from an offset on; the last group is the only one that may be
    padded. -/
def groups (offset : Nat) : List UInt8 → Except Fault (List UInt8)
  | a :: b :: c :: d :: e :: rest => do
    let bytes ← group offset a b c d
    let more ← groups (offset + 4) (e :: rest)
    .ok (bytes ++ more)
  | tail => suffix offset tail

/-- The bytes of a base64 text.  A symbol outside the alphabet that stands alone at the end
    is reported before any other. -/
def decode (symbols : List UInt8) : Except Fault (List UInt8) :=
  match symbols.getLast? with
  | some last =>
    if symbols.length % 4 = 1 ∧ last ≠ pad ∧ value? last = none then
      .error (.symbol last (symbols.length - 1))
    else groups 0 symbols
  | none => .ok []

/-- The base64 text of bytes. -/
def encodeText (bytes : List UInt8) : String :=
  String.ofList ((encode bytes).map fun b => Char.ofNat b.toNat)

/-- The bytes of a base64 text. -/
def decodeText (s : String) : Except Fault (List UInt8) := decode (utf8Bytes s)

end Base64

end ModelOperator
