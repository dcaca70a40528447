import ModelOperator.Json.Value

/-!
# Reading JSON

    `Json.parseOrdered` reads one value with blanks around it and keeps the members of
    each object as they are written, repeated names included; `Json.parse` is its
    canonical form, where the last of equal names wins.

    * Whole numbers without point or exponent that fit 64 bits stay whole, all others
      are doubles; a minus zero is a double.
    * A document that nests deeper than `maxDepth` containers is refused.
    * Each reader takes the characters and gives back what is left.  The recursion is on
      a count that the length of the text bounds. -/

namespace ModelOperator

namespace Json

/-- One more than the number of containers that may stand inside one another. -/
def maxDepth : Nat := 128

/-- Blank characters between tokens. -/
def isBlank (c : Char) : Bool := c == ' ' || c == '\n' || c == '\t' || c == '\r'

/-- The text without its leading blanks. -/
def skipBlanks : List Char → List Char
  | [] => []
  | c :: rest => if isBlank c then skipBlanks rest else c :: rest

/-- The value of a decimal digit. -/
def digitValue? (c : Char) : Option Nat :=
  if '0' ≤ c ∧ c ≤ '9' then some (c.toNat - 48) else none

/-- The value of a hexadecimal digit. -/
def hexValue? (c : Char) : Option Nat :=
  if '0' ≤ c ∧ c ≤ '9' then some (c.toNat - 48)
  else if 'a' ≤ c ∧ c ≤ 'f' then some (c.toNat - 87)
  else if 'A' ≤ c ∧ c ≤ 'F' then some (c.toNat - 55)
  else none

/-- The number that four hexadecimal digits name. -/
def hexUnit? (a b c d : Char) : Option Nat := do
  let a ← hexValue? a
  let b ← hexValue? b
  let c ← hexValue? c
  let d ← hexValue? d
  some (((a * 16 + b) * 16 + c) * 16 + d)

/-- The character of a short escape. -/
def shortEscape? : Char → Option Char
  | '"' => some '"'
  | '\\' => some '\\'
  | '/' => some '/'
  | 'b' => some '\x08'
  | 'f' => some '\x0c'
  | 'n' => some '\n'
  | 'r' => some '\r'
  | 't' => some '\t'
  | _ => none

/-- The characters of a text up to its closing quote, behind those already read in
    reverse, and what follows. -/
def readChars (acc : List Char) : List Char → Option (List Char × List Char)
  | [] => none
  | '"' :: rest => some (acc.reverse, rest)
  | '\\' :: 'u' :: a :: b :: c :: d :: rest =>
    match hexUnit? a b c d with
    | none => none
    | some unit =>
      if 0xD800 ≤ unit ∧ unit < 0xDC00 then
        match rest with
        | '\\' :: 'u' :: e :: f :: g :: h :: tail =>
          match hexUnit? e f g h with
          | some low =>
            if 0xDC00 ≤ low ∧ low < 0xE000 then
              readChars (Char.ofNat (0x10000 + (unit - 0xD800) * 0x400 + (low - 0xDC00)) :: acc)
                tail
            else none
          | none => none
        | _ => none
      else if 0xDC00 ≤ unit ∧ unit < 0xE000 then none
      else readChars (Char.ofNat unit :: acc) rest
  | '\\' :: e :: rest =>
    match shortEscape? e with
    | some c => readChars (c :: acc) rest
    | none => none
  | c :: rest => if c.toNat < 32 then none else readChars (c :: acc) rest

/-- A quoted text. -/
def readText : List Char → Option (String × List Char)
  | '"' :: rest => (readChars [] rest).map fun r => (String.ofList r.1, r.2)
  | _ => none

/-- The largest whole number of 64 bits. -/
def maxWord : Nat := 18446744073709551615

/-- Leading digits as long as their number fits 64 bits: the number, how many there
    were, and the rest. -/
def readDigits : Nat → List Char → Nat × Nat × List Char
  | acc, [] => (acc, 0, [])
  | acc, c :: rest =>
    match digitValue? c with
    | some d =>
      if acc * 10 + d ≤ maxWord then
        let (n, count, tail) := readDigits (acc * 10 + d) rest
        (n, count + 1, tail)
      else (acc, 0, c :: rest)
    | none => (acc, 0, c :: rest)

/-- The digits that stand first, and the rest. -/
def spanDigits (cs : List Char) : List Char × List Char :=
  cs.span fun c => (digitValue? c).isSome

/-- The number that decimal digits name. -/
def digitsValue (cs : List Char) : Nat :=
  cs.foldl (fun n c => n * 10 + (digitValue? c).getD 0) 0

/-- A double made of the digits read and a power of ten. -/
def finishFloat (negative : Bool) (digits : Nat) (power : Int) (rest : List Char) :
    Option (Json × List Char) :=
  (Binary64.ofDecimal negative digits power).map fun x => (.float x, rest)

/-- The largest exponent that is read as a number. -/
def maxExponentDigits : Nat := 2147483647

/-- The exponent behind an `e`, and the double it completes. -/
def readExponent (negative : Bool) (digits : Nat) (power : Int) (cs : List Char) :
    Option (Json × List Char) :=
  let (down, cs) := match cs with
    | '+' :: rest => (false, rest)
    | '-' :: rest => (true, rest)
    | _ => (false, cs)
  let (ds, rest) := spanDigits cs
  if ds.isEmpty then none
  else
    let n := digitsValue ds
    if maxExponentDigits < n then
      if digits ≠ 0 ∧ ¬ down then none
      else some (.float (Binary64.zero negative), rest)
    else finishFloat negative digits (if down then power - n else power + n) rest

/-- What may follow the digits of a double: an exponent or nothing. -/
def readFloatEnd (negative : Bool) (digits : Nat) (power : Int) :
    List Char → Option (Json × List Char)
  | 'e' :: rest => readExponent negative digits power rest
  | 'E' :: rest => readExponent negative digits power rest
  | rest => finishFloat negative digits power rest

/-- The digits behind a point; those past 64 bits are dropped. -/
def readFraction (negative : Bool) (digits : Nat) (power : Int) (cs : List Char) :
    Option (Json × List Char) :=
  let (n, count, rest) := readDigits digits cs
  let (extra, rest) := spanDigits rest
  if count = 0 ∧ extra.isEmpty then none
  else readFloatEnd negative n (power - count) rest

/-- A whole number that fits, or the double that it is otherwise. -/
def finishInt (negative : Bool) (n : Nat) (rest : List Char) : Option (Json × List Char) :=
  if negative then
    if n = 0 then some (.float (Binary64.zero true), rest)
    else if n ≤ 9223372036854775808 then some (.int (-(n : Int)), rest)
    else finishFloat true n 0 rest
  else some (.int n, rest)

/-- What follows the whole digits of a number. -/
def readAfterDigits (negative : Bool) (n : Nat) (cs : List Char) : Option (Json × List Char) :=
  let (extra, rest) := spanDigits cs
  match rest with
  | '.' :: tail => readFraction negative n extra.length tail
  | 'e' :: tail => readExponent negative n extra.length tail
  | 'E' :: tail => readExponent negative n extra.length tail
  | _ => if extra.isEmpty then finishInt negative n rest
         else finishFloat negative n extra.length rest

/-- A number without its sign. -/
def readNumber (negative : Bool) : List Char → Option (Json × List Char)
  | [] => none
  | '0' :: rest =>
    match rest with
    | c :: _ => if (digitValue? c).isSome then none else readAfterDigits negative 0 rest
    | [] => readAfterDigits negative 0 rest
  | c :: rest =>
    match digitValue? c with
    | none => none
    | some d =>
      let (n, _, tail) := readDigits d rest
      readAfterDigits negative n tail

mutual
/-- One value.  `depth` counts the containers that may still open. -/
def readValue : Nat → Nat → List Char → Option (Json × List Char)
  | 0, _, _ => none
  | fuel + 1, depth, cs =>
    match skipBlanks cs with
    | 'n' :: 'u' :: 'l' :: 'l' :: rest => some (.null, rest)
    | 't' :: 'r' :: 'u' :: 'e' :: rest => some (.bool true, rest)
    | 'f' :: 'a' :: 'l' :: 's' :: 'e' :: rest => some (.bool false, rest)
    | '"' :: rest => (readChars [] rest).map fun r => (.str (String.ofList r.1), r.2)
    | '-' :: rest => readNumber true rest
    | '[' :: rest =>
      match depth with
      | 0 | 1 => none
      | depth + 1 =>
        match skipBlanks rest with
        | ']' :: tail => some (.arr [], tail)
        | _ =>
          match readValue fuel depth rest with
          | some (v, tail) => (readItems fuel depth tail).map fun r => (.arr (v :: r.1), r.2)
          | none => none
    | '\x7b' :: rest =>
      match depth with
      | 0 | 1 => none
      | depth + 1 =>
        match skipBlanks rest with
        | '\x7d' :: tail => some (.obj [], tail)
        | start =>
          match readMember fuel depth start with
          | some (m, tail) => (readMembers fuel depth tail).map fun r => (.obj (m :: r.1), r.2)
          | none => none
    | rest => readNumber false rest

/-- The items after the first, up to the closing bracket. -/
def readItems : Nat → Nat → List Char → Option (List Json × List Char)
  | 0, _, _ => none
  | fuel + 1, depth, cs =>
    match skipBlanks cs with
    | ']' :: rest => some ([], rest)
    | ',' :: rest =>
      match readValue fuel depth rest with
      | some (v, tail) => (readItems fuel depth tail).map fun r => (v :: r.1, r.2)
      | none => none
    | _ => none

/-- One member: its name, a colon and its value. -/
def readMember : Nat → Nat → List Char → Option ((String × Json) × List Char)
  | 0, _, _ => none
  | fuel + 1, depth, cs =>
    match readText cs with
    | none => none
    | some (name, tail) =>
      match skipBlanks tail with
      | ':' :: rest => (readValue fuel depth rest).map fun r => ((name, r.1), r.2)
      | _ => none

/-- The members after the first, up to the closing brace. -/
def readMembers : Nat → Nat → List Char → Option (Members × List Char)
  | 0, _, _ => none
  | fuel + 1, depth, cs =>
    match skipBlanks cs with
    | '\x7d' :: rest => some ([], rest)
    | ',' :: rest =>
      match readMember fuel depth (skipBlanks rest) with
      | some (m, tail) => (readMembers fuel depth tail).map fun r => (m :: r.1, r.2)
      | none => none
    | _ => none
end

/-- One value with blanks around it, members as they are written. -/
def parseOrdered (text : String) : Option Json :=
  let cs := text.toList
  match readValue (2 * cs.length + 2) maxDepth cs with
  | some (v, rest) => if (skipBlanks rest).isEmpty then some v else none
  | none => none

/-- One value with blanks around it, in canonical form. -/
def parse (text : String) : Option Json := (parseOrdered text).map canonical

end Json

end ModelOperator
