import ModelOperator.Text.Unprintable

/-!
# Quoted texts in messages

    A name in a message stands in double quotes.  Quotes, backslashes and control
    characters are escaped, and a character without a glyph is written as its code
    point in braces, so that distinct names have distinct quotations. -/

namespace ModelOperator

/-- A number in lower-case hexadecimal. -/
def hexText (n : Nat) : List Char := Nat.toDigits 16 n

namespace Quoted

/-- One character of a quotation. -/
def escapeChar (c : Char) : List Char :=
  if c = '"' then ['\\', '"']
  else if c = '\\' then ['\\', '\\']
  else if c = '\t' then ['\\', 't']
  else if c = '\r' then ['\\', 'r']
  else if c = '\n' then ['\\', 'n']
  else if c = '\x00' then ['\\', '0']
  else if c.toNat < 32 ∨ (127 ≤ c.toNat ∧ isUnprintable c) then
    ['\\', 'u', '\x7b'] ++ hexText c.toNat ++ ['\x7d']
  else [c]

/-- The characters of a quotation, quotes included. -/
def chars (cs : List Char) : List Char := '"' :: (cs.flatMap escapeChar ++ ['"'])

end Quoted

/-- A text in quotes, escaped. -/
def quoted (s : String) : String := String.ofList (Quoted.chars s.toList)

end ModelOperator
