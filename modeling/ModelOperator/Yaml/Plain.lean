import ModelOperator.Number.Binary64

/-!
# What plain scalars mean

    A plain scalar without a tag is null, a truth value, a whole number, a number with a
    fraction or exponent, or else a word.  Digits with a leading zero are a word. -/

namespace ModelOperator

namespace Yaml

/-- What a plain scalar means. -/
inductive PlainValue where
  | null
  | truth (b : Bool)
  | whole (n : Int)
  | number (x : Binary64)
  | notFinite
  | word
  deriving DecidableEq, Repr

/-- Whether a text is a spelling of null. -/
def isNull (s : String) : Bool := ["null", "Null", "NULL", "~"].contains s

/-- The truth value that a text spells. -/
def truth? (s : String) : Option Bool :=
  if ["true", "True", "TRUE"].contains s then some true
  else if ["false", "False", "FALSE"].contains s then some false
  else none

/-- The value of a digit. -/
def digit? (radix : Nat) (c : Char) : Option Nat :=
  let n := c.toNat
  let v := if 48 ≤ n ∧ n ≤ 57 then n - 48
    else if 97 ≤ n ∧ n ≤ 122 then n - 87
    else if 65 ≤ n ∧ n ≤ 90 then n - 55
    else radix
  if v < radix then some v else none

/-- The number that one digit or more write. -/
def digits? (radix : Nat) (cs : List Char) : Option Nat :=
  if cs.isEmpty then none
  else cs.foldl (fun n c => do return radix * (← n) + (← digit? radix c)) (some 0)

/-- The number that digits with a mark of their radix write. -/
def marked? : List Char → Option Nat
  | '0' :: 'x' :: rest => digits? 16 rest
  | '0' :: 'o' :: rest => digits? 8 rest
  | '0' :: 'b' :: rest => digits? 2 rest
  | _ => none

/-- A text without a sign in front. -/
def unsigned : List Char → List Char
  | '+' :: rest => rest
  | '-' :: rest => rest
  | cs => cs

/-- Whether a text is a run of digits that starts with a zero it does not need. -/
def hasLeadingZero (cs : List Char) : Bool :=
  match unsigned cs with
  | '0' :: c :: rest => (c :: rest).all Char.isDigit
  | _ => false

/-- The whole number that a text writes, if it fits into 128 bits. -/
def whole? (cs : List Char) : Option Int :=
  let number (rest : List Char) : Option Nat :=
    marked? rest <|> if hasLeadingZero cs then none else digits? 10 rest
  match cs with
  | '-' :: rest => do
    let n ← number rest
    if n ≤ Nat.pow 2 127 then some (-(n : Int)) else none
  | _ => do
    let n ← number (match cs with
      | '+' :: rest => rest
      | _ => cs)
    if n < Nat.pow 2 128 then some (n : Int) else none

/-- The nearest double of a decimal number, none if it is too large. -/
def decimal (negative : Bool) (digits : Nat) (power : Int) : Option Binary64 :=
  let size : Int := (Nat.log2 digits : Int) / 3 + power
  if digits = 0 ∨ size < -400 then some (Binary64.zero negative)
  else if 700 < power then none
  else if 0 ≤ power then Binary64.ofRatio negative (digits * Nat.pow 10 power.toNat) 1
  else Binary64.ofRatio negative digits (Nat.pow 10 (-power).toNat)

/-- The exponent at the end of a number. -/
def exponent? : List Char → Option Int
  | [] => some 0
  | c :: rest =>
    if c != 'e' && c != 'E' then none
    else match rest with
      | '-' :: ds => (digits? 10 ds).map fun n => -(n : Int)
      | '+' :: ds => (digits? 10 ds).map (↑·)
      | ds => (digits? 10 ds).map (↑·)

/-- The number that digits, a point and an exponent write. -/
def unsignedDecimal? (negative : Bool) (cs : List Char) : Option Binary64 := do
  let (whole, rest) := cs.span Char.isDigit
  let (part, rest) := match rest with
    | '.' :: rest => rest.span Char.isDigit
    | _ => ([], rest)
  let digits ← digits? 10 (whole ++ part)
  let power ← exponent? rest
  decimal negative digits (power - part.length)

/-- The number with a fraction or exponent that a text writes. -/
def decimal? : List Char → Option Binary64
  | '+' :: '-' :: _ => none
  | '+' :: rest => unsignedDecimal? false rest
  | '-' :: rest => unsignedDecimal? true rest
  | cs => unsignedDecimal? false cs

/-- Whether a text spells an infinity or that there is no number. -/
def isNotFinite (s : String) : Bool :=
  [".inf", ".Inf", ".INF", "+.inf", "+.Inf", "+.INF", "-.inf", "-.Inf", "-.INF", ".nan", ".NaN",
    ".NAN"].contains s

/-- What a plain scalar means. -/
def plainValue (s : String) : PlainValue :=
  let cs := s.toList
  if s.isEmpty || isNull s then .null
  else
    match truth? s with
    | some b => .truth b
    | none =>
      match whole? cs with
      | some n => .whole n
      | none =>
        if hasLeadingZero cs then .word
        else if isNotFinite s then .notFinite
        else
          match decimal? cs with
          | some x => .number x
          | none => .word

end Yaml

end ModelOperator
