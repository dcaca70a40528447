/-!
# Places in a text of lines

    A cursor is what is left to read of a text, with the number of characters read, the
    line and the column.  Line feeds, carriage returns and their pair, next-line
    characters and the two separators all end a line; the first four count as one line
    feed. -/

namespace ModelOperator

namespace Yaml

/-- Whether a character ends a line. -/
def isBreak (c : Char) : Bool :=
  c == '\n' || c == '\r' || c == '\u0085' || c == '\u2028' || c == '\u2029'

/-- Whether a character is a blank within a line. -/
def isBlank (c : Char) : Bool := c == ' ' || c == '\t'

/-- Whether a character may stand in a document at all. -/
def admitted (c : Char) : Bool :=
  let n := c.toNat
  n == 9 || n == 10 || n == 13 || (32 ≤ n && n ≤ 126) || n == 133 ||
  (160 ≤ n && n ≤ 0xD7FF) || (0xE000 ≤ n && n ≤ 0xFFFD) || 0x10000 ≤ n

/-- What is left of a text, and where it starts. -/
structure Cursor where
  rest : List Char
  index : Nat := 0
  line : Nat := 0
  column : Nat := 0

namespace Cursor

/-- The next character satisfies a test; the end of the text does not. -/
def ahead (p : Char → Bool) (c : Cursor) : Bool := c.rest.head?.any p

/-- The next character is the given one. -/
def looking (x : Char) (c : Cursor) : Bool := c.ahead (· == x)

/-- Whether the text ends here. -/
def atEnd (c : Cursor) : Bool := c.rest.isEmpty

/-- Whether the character `n` places on is a blank or a break, or the text has ended. -/
def gapAt (n : Nat) (c : Cursor) : Bool := (c.rest.drop n).head?.all fun x => isBlank x || isBreak x

/-- Whether the line ends here. -/
def lineEnds (c : Cursor) : Bool := c.rest.head?.all isBreak

/-- One character further on the line. -/
def skip (c : Cursor) : Cursor :=
  { c with rest := c.rest.drop 1, index := c.index + 1, column := c.column + 1 }

/-- `n` characters further on the line. -/
def skips : Nat → Cursor → Cursor
  | 0, c => c
  | n + 1, c => skips n c.skip

/-- The break at the cursor, as one character, and the start of the next line. -/
def takeBreak (c : Cursor) : Char × Cursor :=
  let next (n : Nat) : Cursor := ⟨c.rest.drop n, c.index + n, c.line + 1, 0⟩
  match c.rest with
  | '\r' :: '\n' :: _ => ('\n', next 2)
  | x :: _ => (if x == '\u2028' || x == '\u2029' then x else '\n', next 1)
  | [] => ('\n', c)

/-- Behind the characters that satisfy a test, with those characters after `text`. -/
def takeWhile (p : Char → Bool) : List Char → Cursor → String → String × Cursor
  | [], c, text => (text, c)
  | x :: rest, c, text => if p x then takeWhile p rest c.skip (text.push x) else (text, c)

/-- The characters of the line that satisfy a test, and what follows them. -/
def span (p : Char → Bool) (c : Cursor) : String × Cursor := takeWhile p c.rest c ""

/-- Behind the blanks of the line. -/
def skipBlanks (c : Cursor) : Cursor := (c.span isBlank).2

/-- Behind a comment, if one starts here. -/
def skipComment (c : Cursor) : Cursor :=
  if c.looking '#' then (c.span fun x => !isBreak x).2 else c

/-- Whether a marker between documents starts here. -/
def atMarker (mark : Char) (c : Cursor) : Bool :=
  c.column == 0 && c.rest.take 3 == [mark, mark, mark] && c.gapAt 3

/-- Whether either marker between documents starts here. -/
def atAnyMarker (c : Cursor) : Bool := c.atMarker '-' || c.atMarker '.'

end Cursor

end Yaml

end ModelOperator
