import ModelOperator.Json.Value

/-!
# Writing JSON

    `Json.write v rest` puts the compact text of `v` in front of `rest`: no blanks,
    members in the order of the object, a control character as its short escape or as
    four hexadecimal digits, and every other character as it is. -/

namespace ModelOperator

/-- A hexadecimal digit in lower case. -/
def hexDigit (n : Nat) : Char :=
  if n < 10 then Char.ofNat (48 + n) else Char.ofNat (87 + n)

/-- Whole numbers in decimal, with a minus sign where they are negative. -/
def intDigits (n : Int) : List Char :=
  if n < 0 then '-' :: decimalDigits n.natAbs else decimalDigits n.natAbs

namespace Json

/-- One character of a text, escaped. -/
def escapeChar (c : Char) : List Char :=
  if c = '"' then ['\\', '"']
  else if c = '\\' then ['\\', '\\']
  else if c = '\x08' then ['\\', 'b']
  else if c = '\x0c' then ['\\', 'f']
  else if c = '\n' then ['\\', 'n']
  else if c = '\r' then ['\\', 'r']
  else if c = '\t' then ['\\', 't']
  else if c.toNat < 32 then
    ['\\', 'u', '0', '0', hexDigit (c.toNat / 16), hexDigit (c.toNat % 16)]
  else [c]

/-- A quoted text in front of the rest. -/
def writeText (s : String) (rest : List Char) : List Char :=
  '"' :: (s.toList.flatMap escapeChar ++ '"' :: rest)

mutual
/-- The compact text of a value in front of the rest. -/
def write : Json → List Char → List Char
  | .null, rest => 'n' :: 'u' :: 'l' :: 'l' :: rest
  | .bool true, rest => 't' :: 'r' :: 'u' :: 'e' :: rest
  | .bool false, rest => 'f' :: 'a' :: 'l' :: 's' :: 'e' :: rest
  | .int n, rest => intDigits n ++ rest
  | .float x, rest => x.text ++ rest
  | .str s, rest => writeText s rest
  | .arr [], rest => '[' :: ']' :: rest
  | .arr (v :: more), rest => '[' :: write v (writeItems more rest)
  | .obj [], rest => '\x7b' :: '\x7d' :: rest
  | .obj ((k, v) :: more), rest =>
    '\x7b' :: writeText k (':' :: write v (writeMembers more rest))

/-- The items after the first, each behind a comma, and the closing bracket. -/
def writeItems : List Json → List Char → List Char
  | [], rest => ']' :: rest
  | v :: more, rest => ',' :: write v (writeItems more rest)

/-- The members after the first, each behind a comma, and the closing brace. -/
def writeMembers : Members → List Char → List Char
  | [], rest => '\x7d' :: rest
  | (k, v) :: more, rest => ',' :: writeText k (':' :: write v (writeMembers more rest))
end

/-- The compact text of a value. -/
def compact (v : Json) : String := String.ofList (write v [])

/-- The text of a number, none for other values. -/
def numberText? : Json → Option String
  | .int n => some (String.ofList (intDigits n))
  | .float x => some (String.ofList x.text)
  | _ => none

end Json

end ModelOperator
