import ModelOperator.Yaml.Cursor

/-!
# The texts of scalars

    A scalar is plain, quoted with single or double quotes, or a block of lines.  Within
    the first three a gap of blanks is kept on one line; a gap with line breaks turns into
    one space, or into its breaks but the first.  Each function starts behind the sign
    that opens the scalar and answers its text and what follows, or nothing for a text
    that is not allowed. -/

namespace ModelOperator

namespace Yaml

/-- A gap within a scalar: blanks on the line, or a first break and more breaks.  An
    escaped break starts a gap whose first break counts for nothing. -/
inductive Gap where
  | blanks (text : String)
  | breaks (first : Option Char) (more : String)

namespace Gap

/-- No gap. -/
def none : Gap := .blanks ""

/-- Whether a gap goes over the end of a line. -/
def multiline : Gap → Bool
  | .blanks _ => false
  | .breaks _ _ => true

/-- What a gap leaves in the text. -/
def text : Gap → String
  | .blanks s => s
  | .breaks Option.none more => more
  | .breaks (some '\n') more => if more.isEmpty then " " else more
  | .breaks (some first) more => String.singleton first ++ more

/-- The gap with one more break. -/
def addBreak (x : Char) : Gap → Gap
  | .blanks _ => .breaks (some x) ""
  | .breaks first more => .breaks first (more.push x)

/-- The gap with one more blank; behind a break blanks are dropped. -/
def addBlank (x : Char) : Gap → Gap
  | .blanks s => .blanks (s.push x)
  | g => g

end Gap

/-- Reads on over blanks and breaks.  A tab left of `margin` on a later line is refused. -/
def readGap (margin : Nat) : Nat → Cursor → Gap → Option (Gap × Cursor)
  | 0, _, _ => none
  | fuel + 1, c, gap =>
    match c.rest with
    | [] => some (gap, c)
    | x :: _ =>
      if isBlank x then
        if x == '\t' && gap.multiline && c.column < margin then none
        else readGap margin fuel c.skip (gap.addBlank x)
      else if isBreak x then
        let (y, next) := c.takeBreak
        readGap margin fuel next (gap.addBreak y)
      else some (gap, c)

/-- The signs that end a plain scalar in a flow collection. -/
def isFlowSign (x : Char) : Bool := x == ',' || x == '[' || x == ']' || x == '{' || x == '}'

/-- Reads on to the end of a run of a plain scalar. -/
def plainRun (flow : Bool) : List Char → Cursor → String → Option (String × Cursor)
  | [], c, text => some (text, c)
  | x :: rest, c, text =>
    if isBlank x || isBreak x then some (text, c)
    else if flow && x == ':' && rest.head?.any (fun y => isFlowSign y || y == '?') then none
    else if x == ':' && c.gapAt 1 then some (text, c)
    else if flow && isFlowSign x then some (text, c)
    else plainRun flow rest c.skip (text.push x)

/-- Reads a plain scalar from `margin` on, after `text` and a gap.  The answer also says
    whether the scalar ended on a line of its own. -/
def plainText (flow : Bool) (margin : Nat) :
    Nat → Cursor → String → Gap → Option (String × Bool × Cursor)
  | 0, _, _, _ => none
  | fuel + 1, c, text, gap =>
    if c.atAnyMarker || c.looking '#' then some (text, gap.multiline, c)
    else
      match plainRun flow c.rest c "" with
      | none => none
      | some (run, next) =>
        let (text, gap) := if run.isEmpty then (text, gap) else (text ++ gap.text ++ run, Gap.none)
        if next.ahead fun x => isBlank x || isBreak x then
          match readGap margin (next.rest.length + 1) next gap with
          | none => none
          | some (gap, next) =>
            if !flow && next.column < margin then some (text, gap.multiline, next)
            else plainText flow margin fuel next text gap
        else some (text, gap.multiline, next)

/-- The characters of escapes of one sign. -/
def escapes : List (Char × Char) := [('0', '\x00'), ('a', '\x07'), ('b', '\x08'), ('t', '\t'),
  ('\t', '\t'), ('n', '\n'), ('v', '\x0b'), ('f', '\x0c'), ('r', '\r'), ('e', '\x1b'), (' ', ' '),
  ('"', '"'), ('/', '/'), ('\\', '\\'), ('N', '\u0085'), ('_', '\u00a0'), ('L', '\u2028'),
  ('P', '\u2029')]

/-- The value of a hexadecimal digit. -/
def hexValue? (x : Char) : Option Nat :=
  if '0' ≤ x ∧ x ≤ '9' then some (x.toNat - 48)
  else if 'a' ≤ x ∧ x ≤ 'f' then some (x.toNat - 87)
  else if 'A' ≤ x ∧ x ≤ 'F' then some (x.toNat - 55)
  else none

/-- The number that hexadecimal digits write. -/
def hexNumber? (digits : List Char) : Option Nat :=
  digits.foldl (fun n x => do return 16 * (← n) + (← hexValue? x)) (some 0)

/-- The character with a code, if it is one. -/
def charOf? (n : Nat) : Option Char :=
  if h : n.isValidChar then some (Char.ofNatAux n h) else none

/-- The character that an escape stands for, by the sign behind the backslash, and how many
    digits follow that sign. -/
def escaped? (sign : Char) (rest : List Char) : Option (Char × Nat) :=
  let coded (n : Nat) : Option (Char × Nat) := do
    let digits := rest.take n
    if digits.length < n then none
    else return (← charOf? (← hexNumber? digits), n)
  match sign with
  | 'x' => coded 2
  | 'u' => coded 4
  | 'U' => coded 8
  | _ => (escapes.lookup sign).map (·, 0)

/-- What ends a run of a quoted scalar: a gap, or the closing quote. -/
inductive RunEnd where
  | gap
  | escapedBreak
  | quote

/-- Reads on to the end of a run of a scalar in single quotes. -/
def singleRun : Nat → Cursor → String → String × RunEnd × Cursor
  | 0, c, text => (text, .gap, c)
  | fuel + 1, c, text =>
    match c.rest with
    | '\'' :: '\'' :: _ => singleRun fuel (c.skips 2) (text.push '\'')
    | '\'' :: _ => (text, .quote, c.skip)
    | x :: _ =>
      if isBlank x || isBreak x then (text, .gap, c) else singleRun fuel c.skip (text.push x)
    | [] => (text, .gap, c)

/-- Reads on to the end of a run of a scalar in double quotes. -/
def doubleRun : Nat → Cursor → String → Option (String × RunEnd × Cursor)
  | 0, _, _ => none
  | fuel + 1, c, text =>
    match c.rest with
    | '"' :: _ => some (text, .quote, c.skip)
    | '\\' :: x :: rest =>
      if isBreak x then some (text, .escapedBreak, c.skip.takeBreak.2)
      else
        match escaped? x rest with
        | none => none
        | some (y, n) => doubleRun fuel (c.skips (n + 2)) (text.push y)
    | x :: _ =>
      if isBlank x || isBreak x then some (text, .gap, c)
      else if x == '\\' then none
      else doubleRun fuel c.skip (text.push x)
    | [] => some (text, .gap, c)

/-- Reads on to the closing quote. -/
def quotedText (double : Bool) : Nat → Cursor → String → Option (String × Cursor)
  | 0, _, _ => none
  | fuel + 1, c, text =>
    if c.atAnyMarker || c.atEnd then none
    else
      let size := c.rest.length + 1
      let run := if double then doubleRun size c text else some (singleRun size c text)
      match run with
      | none => none
      | some (text, .quote, next) => some (text, next)
      | some (text, ended, next) =>
        let start := match ended with
          | .escapedBreak => Gap.breaks none ""
          | _ => Gap.none
        match readGap 0 (next.rest.length + 1) next start with
        | none => none
        | some (gap, next) => quotedText double fuel next (text ++ gap.text)

/-- What becomes of the line breaks at the end of a block: all are dropped, one is kept, or
    all are kept. -/
inductive Chomping where
  | strip
  | clip
  | keep
  deriving DecidableEq

/-- The signs behind the one that opens a block: chomping, and the number of columns that
    the block is indented by, in either order. -/
def blockSigns (c : Cursor) : Option (Chomping × Option Nat × Cursor) :=
  let chomping? (x : Char) : Option Chomping :=
    if x == '+' then some .keep else if x == '-' then some .strip else none
  let columns? (x : Char) : Option Nat := if x.isDigit then some (x.toNat - 48) else none
  match c.rest with
  | [] => some (.clip, none, c)
  | x :: rest =>
    match chomping? x, columns? x with
    | some chomping, _ =>
      match rest.head?.bind columns? with
      | some 0 => none
      | some n => some (chomping, some n, c.skips 2)
      | none => some (chomping, none, c.skip)
    | none, some 0 => none
    | none, some n =>
      match rest.head?.bind chomping? with
      | some chomping => some (chomping, some n, c.skips 2)
      | none => some (.clip, some n, c.skip)
    | none, none => some (.clip, none, c)

/-- Reads on over the empty lines of a block and the indentation of the line behind them,
    up to `indent` columns if that is known.  The answer also has the widest indentation. -/
def blockBreaks (indent : Option Nat) :
    Nat → Cursor → String → Nat → Option (String × Nat × Cursor)
  | 0, _, _, _ => none
  | fuel + 1, c, breaks, widest =>
    let inside := indent.all (c.column < ·)
    if inside && c.looking ' ' then blockBreaks indent fuel c.skip breaks widest
    else
      let widest := max widest c.column
      if inside && c.looking '\t' then none
      else if c.ahead isBreak then
        let (x, next) := c.takeBreak
        blockBreaks indent fuel next (breaks.push x) widest
      else some (breaks, widest, c)

/-- The end of the line before, within a block: the break and the empty lines behind it. -/
structure LineEnd where
  first : String := ""
  more : String := ""
  blank : Bool := false

/-- What stands between two lines of a block: in a folded one, a single line feed between
    lines that do not start with a blank is a space, and is dropped before empty lines. -/
def LineEnd.join (folded : Bool) (e : LineEnd) (blank : Bool) : String :=
  if folded && e.first == "\n" && !e.blank && !blank then
    if e.more.isEmpty then " " else e.more
  else e.first ++ e.more

/-- Reads the lines of a block at a known indentation. -/
def blockLines (folded : Bool) (indent : Nat) :
    Nat → Cursor → String → LineEnd → Option (String × LineEnd × Cursor)
  | 0, _, _, _ => none
  | fuel + 1, c, text, e =>
    if c.column == indent && !c.atEnd then
      let blank := c.ahead isBlank
      let (line, next) := c.span fun x => !isBreak x
      let text := text ++ e.join folded blank ++ line
      let (first, next) :=
        if next.atEnd then ("", next)
        else
          let (x, start) := next.takeBreak
          (String.singleton x, start)
      match blockBreaks (some indent) (next.rest.length + 1) next "" 0 with
      | none => none
      | some (more, _, next) => blockLines folded indent fuel next text ⟨first, more, blank⟩
    else some (text, e, c)

/-- Reads a block scalar inside a collection that stands at column `parent`. -/
def blockText (folded : Bool) (parent : Int) (c : Cursor) : Option (String × Cursor) := do
  let (chomping, columns, c) ← blockSigns c
  let c := c.skipBlanks.skipComment
  if !c.lineEnds then none
  else
    let c := if c.atEnd then c else c.takeBreak.2
    let base := (max parent 0).toNat
    let fixed := columns.map (base + ·)
    let (more, widest, c) ← blockBreaks fixed (c.rest.length + 1) c "" 0
    let indent := fixed.getD (max widest (max (parent + 1).toNat 1))
    let (text, e, c) ← blockLines folded indent (c.rest.length + 1) c "" ⟨"", more, false⟩
    let kept := match chomping with
      | .strip => ""
      | .clip => e.first
      | .keep => e.first ++ e.more
    return (text ++ kept, c)

end Yaml

end ModelOperator
