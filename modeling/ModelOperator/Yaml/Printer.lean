import ModelOperator.Json.Printer
import ModelOperator.Yaml.Cursor
import ModelOperator.Yaml.Plain

/-!
# Printed documents

    A document is printed with one member or item a line, two columns deeper in each
    mapping; the items of a sequence stand at the column of their mapping.  A text is
    written plain where it reads back as itself, as a block if it has line feeds, and
    otherwise quoted: with single quotes, or with double ones if a character in it cannot
    be shown.

    * `ScalarForm.choose` picks the form of a text;
    * `Json.yaml` prints a document. -/

namespace ModelOperator

namespace Yaml

/-- Whether a character can be shown as it is. -/
def printable (c : Char) : Bool :=
  let n := c.toNat
  n == 10 || (32 ≤ n && n ≤ 126) || (160 ≤ n && n ≤ 0xD7FF) ||
  (0xE000 ≤ n && n ≤ 0xFFFD && n != 0xFEFF)

/-- The forms of a text. -/
inductive ScalarForm where
  | plain
  | single
  | double
  | literal
  deriving DecidableEq, Repr

/-- Whether one character that satisfies `p` is followed by one that satisfies `q`. -/
def followed (p q : Char → Bool) : List Char → Bool
  | a :: b :: rest => (p a && q b) || followed p q (b :: rest)
  | _ => false

/-- Whether a character ends a word: a blank, a break, or nothing at all. -/
def endsWord : Option Char → Bool
  | none => true
  | some c => isBlank c || isBreak c || c == '\x00'

/-- Whether a colon before a gap, or a hash behind one, stands in a text after its first
    character. -/
def hasInnerSign : List Char → Bool
  | a :: b :: rest =>
    (b == ':' && endsWord rest.head?) || (b == '#' && endsWord (some a)) || hasInnerSign (b :: rest)
  | _ => false

/-- Whether a text would read as something with signs of its own. -/
def hasSigns (cs : List Char) : Bool :=
  match cs with
  | [] => false
  | c :: rest =>
    cs.take 3 == ['-', '-', '-'] || cs.take 3 == ['.', '.', '.'] ||
    "#,[]\x7b\x7d&*!|>'\"%@".contains c || c.toNat == 96 ||
    ((c == '?' || c == ':' || c == '-') && endsWord rest.head?) || hasInnerSign cs

/-- The form of a text. -/
def ScalarForm.choose (s : String) : ScalarForm :=
  let cs := s.toList
  let isSpace : Char → Bool := (· == ' ')
  let edge (c : Option Char) : Bool := c.any fun c => isSpace c || isBreak c
  let hidden := cs.any fun c => !printable c
  let spaceBeforeBreak := followed isSpace isBreak cs
  let spaceBehindBreak := followed isBreak isSpace cs
  let quoted : ScalarForm :=
    if hidden || spaceBeforeBreak || spaceBehindBreak then .double else .single
  if cs.contains '\n' then
    if hidden || spaceBeforeBreak || cs.getLast?.any isSpace then .double else .literal
  else if plainValue s != .word || hasLeadingZero cs then quoted
  else if edge cs.head? || edge cs.getLast? || hidden || cs.any isBreak || hasSigns cs then quoted
  else .plain

/-- The signs of escapes that have one. -/
def escapeSigns : List (Char × Char) := [('\x00', '0'), ('\x07', 'a'), ('\x08', 'b'), ('\t', 't'),
  ('\n', 'n'), ('\x0b', 'v'), ('\x0c', 'f'), ('\r', 'r'), ('\x1b', 'e'), ('"', '"'), ('\\', '\\'),
  ('\u0085', 'N'), ('\u00a0', '_'), ('\u2028', 'L'), ('\u2029', 'P')]

/-- `n` as `width` hexadecimal digits in capitals. -/
def hexDigits (width n : Nat) : List Char :=
  let digits := (Nat.toDigits 16 n).map Char.toUpper
  List.replicate (width - digits.length) '0' ++ digits

/-- A character within double quotes. -/
def escapeChar (c : Char) : List Char :=
  if printable c && !isBreak c && c != '"' && c != '\\' then [c]
  else
    match escapeSigns.lookup c with
    | some sign => ['\\', sign]
    | none =>
      let n := c.toNat
      if n ≤ 0xFF then ['\\', 'x'] ++ hexDigits 2 n
      else if n ≤ 0xFFFF then ['\\', 'u'] ++ hexDigits 4 n
      else ['\\', 'U'] ++ hexDigits 8 n

/-- A text in double quotes. -/
def doubleQuoted (s : String) : String :=
  String.ofList ('"' :: s.toList.flatMap escapeChar ++ ['"'])

/-- `n` blanks. -/
def spaces (n : Nat) : List Char := List.replicate n ' '

/-- The characters behind the opening single quote, and the closing one.  Behind a break the
    text goes on at its indentation; quotes are doubled. -/
def singleBody (indent : Nat) : Bool → List Char → List Char
  | atStart, [] => (if atStart then spaces indent else []) ++ ['\'']
  | atStart, c :: rest =>
    if isBreak c then c :: singleBody indent true rest
    else
      (if atStart then spaces indent else []) ++ (if c == '\'' then ['\'', '\''] else [c]) ++
        singleBody indent false rest

/-- A text in single quotes. -/
def singleQuoted (indent : Nat) (s : String) : String :=
  String.ofList ('\'' :: singleBody indent false s.toList)

/-- The lines of a block, each that is not empty at its indentation. -/
def literalBody (indent : Nat) : Bool → List Char → List Char
  | _, [] => []
  | atStart, c :: rest =>
    if isBreak c then c :: literalBody indent true rest
    else (if atStart then spaces indent else []) ++ c :: literalBody indent false rest

/-- The sign for what becomes of the line breaks at the end of a block. -/
def chompingSign (cs : List Char) : List Char :=
  match cs.reverse with
  | [] => ['-']
  | [c] => if isBreak c then ['+'] else ['-']
  | c :: b :: _ => if !isBreak c then ['-'] else if isBreak b then ['+'] else []

/-- A text as a block, without its last line break if it ends in one. -/
def literalBlock (indent : Nat) (s : String) : String :=
  let cs := s.toList
  let hint := if cs.head?.any fun c => c == ' ' || isBreak c then ['2'] else []
  let body := literalBody indent true cs
  let body := if body.getLast? == some '\n' then body.dropLast else body
  String.ofList (['|'] ++ hint ++ chompingSign cs ++ ['\n'] ++ body)

/-- A text in its form; later lines of it stand at the given column. -/
def printText (indent : Nat) (s : String) : String :=
  match ScalarForm.choose s with
  | .plain => s
  | .single => singleQuoted indent s
  | .double => doubleQuoted s
  | .literal => literalBlock indent s

/-- The text of a value that has no parts. -/
def printScalar (indent : Nat) : Json → String
  | .null => "null"
  | .bool b => if b then "true" else "false"
  | .int n => toString n
  | .float x => String.ofList (x.text.filter (· != '+'))
  | .str s => printText indent s
  | .arr _ => "[]"
  | .obj _ => "\x7b\x7d"

/-- Whether a key fits in front of a colon on its line. -/
def isSimpleKey (key : String) : Bool := !key.toList.any isBreak && key.utf8ByteSize ≤ 128

/-- The start of a line at a column. -/
def newLine (indent : Nat) : String := String.ofList ('\n' :: spaces indent)

mutual
/-- What stands behind the dash of an item at a column. -/
def printItem (indent : Nat) : Json → String
  | .obj (m :: rest) =>
    " " ++ (newLine (indent + 2)).intercalate (printMembers (indent + 2) (m :: rest))
  | .arr (v :: rest) =>
    " " ++ (newLine (indent + 2)).intercalate (printItems (indent + 2) (v :: rest))
  | v => " " ++ printScalar (indent + 2) v

/-- The items of a sequence at a column. -/
def printItems (indent : Nat) : List Json → List String
  | [] => []
  | v :: rest => ("-" ++ printItem indent v) :: printItems indent rest

/-- What stands behind the colon of a member at a column. -/
def printValue (indent : Nat) : Json → String
  | .obj (m :: rest) =>
    newLine (indent + 2) ++
      (newLine (indent + 2)).intercalate (printMembers (indent + 2) (m :: rest))
  | .arr (v :: rest) =>
    newLine indent ++ (newLine indent).intercalate (printItems indent (v :: rest))
  | v => " " ++ printScalar (indent + 2) v

/-- The members of a mapping at a column; a key that does not fit on a line is marked. -/
def printMembers (indent : Nat) : List (String × Json) → List String
  | [] => []
  | (key, v) :: rest =>
    (if isSimpleKey key then printText (indent + 2) key ++ ":" ++ printValue indent v
      else "? " ++ printText (indent + 2) key ++ newLine indent ++ ":" ++ printItem indent v)
      :: printMembers indent rest
end

end Yaml

/-- A document as lines of text. -/
def Json.yaml : Json → String
  | .obj (m :: rest) => (Yaml.newLine 0).intercalate (Yaml.printMembers 0 (m :: rest)) ++ "\n"
  | .arr (v :: rest) => (Yaml.newLine 0).intercalate (Yaml.printItems 0 (v :: rest)) ++ "\n"
  | v => Yaml.printScalar 2 v ++ "\n"

end ModelOperator
