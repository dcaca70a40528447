import ModelOperator.Bytes.Utf8
import ModelOperator.Json.Parser

/-!
# Documents before their values are read

    A reader of records passes over the members it does not know.  What it passes over
    has to be written as JSON, but need not have a value: a number may be out of range, a
    text may name half of a surrogate pair or be no UTF-8, and containers may stand in one
    another at any depth.  A raw document keeps the structure of what is written and, of
    each text and number, the value if it has one.

    * `Raw.ofText?` and `Raw.ofBytes?` read the structure of a text;
    * `Json.takeText` and `Json.skipNumber` find the end of a text or a number by its
      syntax alone. -/

namespace ModelOperator

/-- A document as it is written.  A leaf is a null, a truth value, a number or a text, with its
    value if it has one; the names of members are texts, too. -/
inductive Raw where
  | leaf (value : Option Json)
  | arr (items : List Raw)
  | obj (members : List (Option String × Raw))
  deriving Inhabited

namespace Json

/-! ## Texts -/

/-- The characters of a text up to its closing quote, as they are written, and what follows.
    Every escape has to be one, whatever it stands for. -/
def takeText : List Char → Option (List Char × List Char)
  | [] => none
  | '"' :: rest => some ([], rest)
  | '\\' :: 'u' :: a :: b :: c :: d :: rest =>
    match hexUnit? a b c d with
    | none => none
    | some _ => (takeText rest).map fun r => ('\\' :: 'u' :: a :: b :: c :: d :: r.1, r.2)
  | '\\' :: e :: rest =>
    match shortEscape? e with
    | none => none
    | some _ => (takeText rest).map fun r => ('\\' :: e :: r.1, r.2)
  | c :: rest =>
    if c.toNat < 32 then none else (takeText rest).map fun r => (c :: r.1, r.2)

/-- The text that written characters stand for. -/
def textOfChars (cs : List Char) : Option String :=
  (readChars [] (cs ++ ['"'])).map fun r => String.ofList r.1

/-- The text that written bytes stand for, each byte given as the character of its number. -/
def textOfBytes (cs : List Char) : Option String :=
  (utf8Text? (cs.map fun c => UInt8.ofNat c.toNat)).bind fun s => textOfChars s.toList

/-! ## Numbers -/

/-- What follows the digits that have to stand here. -/
def skipDigits (cs : List Char) : Option (List Char) :=
  let (digits, rest) := spanDigits cs
  if digits.isEmpty then none else some rest

/-- What follows an exponent, behind its `e`. -/
def skipExponent : List Char → Option (List Char)
  | '+' :: rest => skipDigits rest
  | '-' :: rest => skipDigits rest
  | rest => skipDigits rest

/-- What follows a number, behind its last digit in front of an exponent. -/
def skipPower : List Char → Option (List Char)
  | 'e' :: rest => skipExponent rest
  | 'E' :: rest => skipExponent rest
  | rest => some rest

/-- What follows a number, behind its whole digits. -/
def skipFraction : List Char → Option (List Char)
  | '.' :: rest => (skipDigits rest).bind skipPower
  | rest => skipPower rest

/-- What follows a number without its sign. -/
def skipNumber : List Char → Option (List Char)
  | [] => none
  | '0' :: rest =>
    match rest with
    | c :: _ => if (digitValue? c).isSome then none else skipFraction rest
    | [] => some []
  | c :: rest => if (digitValue? c).isSome then skipFraction (spanDigits rest).2 else none

end Json

namespace Raw

open Json

variable (meaning : List Char → Option String)

/-! ## Documents -/

mutual
/-- One value; `meaning` tells what the characters of a text stand for. -/
def readValue : Nat → List Char → Option (Raw × List Char)
  | 0, _ => none
  | fuel + 1, cs =>
    match skipBlanks cs with
    | 'n' :: 'u' :: 'l' :: 'l' :: rest => some (.leaf (some .null), rest)
    | 't' :: 'r' :: 'u' :: 'e' :: rest => some (.leaf (some (.bool true)), rest)
    | 'f' :: 'a' :: 'l' :: 's' :: 'e' :: rest => some (.leaf (some (.bool false)), rest)
    | '"' :: rest => (takeText rest).map fun r => (.leaf ((meaning r.1).map .str), r.2)
    | '-' :: rest =>
      (skipNumber rest).map fun tail => (.leaf ((readNumber true rest).map (·.1)), tail)
    | '[' :: rest =>
      match skipBlanks rest with
      | ']' :: tail => some (.arr [], tail)
      | _ =>
        match readValue fuel rest with
        | some (v, tail) => (readItems fuel tail).map fun r => (.arr (v :: r.1), r.2)
        | none => none
    | '\x7b' :: rest =>
      match skipBlanks rest with
      | '\x7d' :: tail => some (.obj [], tail)
      | start =>
        match readMember fuel start with
        | some (m, tail) => (readMembers fuel tail).map fun r => (.obj (m :: r.1), r.2)
        | none => none
    | rest => (skipNumber rest).map fun tail => (.leaf ((readNumber false rest).map (·.1)), tail)

/-- The items after the first, up to the closing bracket. -/
def readItems : Nat → List Char → Option (List Raw × List Char)
  | 0, _ => none
  | fuel + 1, cs =>
    match skipBlanks cs with
    | ']' :: rest => some ([], rest)
    | ',' :: rest =>
      match readValue fuel rest with
      | some (v, tail) => (readItems fuel tail).map fun r => (v :: r.1, r.2)
      | none => none
    | _ => none

/-- One member: its name, a colon and its value. -/
def readMember : Nat → List Char → Option ((Option String × Raw) × List Char)
  | 0, _ => none
  | fuel + 1, cs =>
    match cs with
    | '"' :: quoted =>
      match takeText quoted with
      | none => none
      | some (name, tail) =>
        match skipBlanks tail with
        | ':' :: rest => (readValue fuel rest).map fun r => ((meaning name, r.1), r.2)
        | _ => none
    | _ => none

/-- The members after the first, up to the closing brace. -/
def readMembers : Nat → List Char → Option (List (Option String × Raw) × List Char)
  | 0, _ => none
  | fuel + 1, cs =>
    match skipBlanks cs with
    | '\x7d' :: rest => some ([], rest)
    | ',' :: rest =>
      match readMember fuel (skipBlanks rest) with
      | some (m, tail) => (readMembers fuel tail).map fun r => (m :: r.1, r.2)
      | none => none
    | _ => none
end

/-- One document with blanks around it. -/
def readDocument (cs : List Char) : Option Raw :=
  match readValue meaning (2 * cs.length + 2) cs with
  | some (raw, rest) => if (skipBlanks rest).isEmpty then some raw else none
  | none => none

/-- The document that a text holds. -/
def ofText? (text : String) : Option Raw := readDocument textOfChars text.toList

/-- The document that bytes hold. -/
def ofBytes? (bytes : List UInt8) : Option Raw :=
  readDocument textOfBytes (bytes.map fun b => Char.ofNat b.toNat)

end Raw

end ModelOperator
