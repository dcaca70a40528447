import ModelOperator.Yaml.Scalar

/-!
# Tokens of a document text

    `Token.scan` splits a text into signs, scalars and properties, and marks where block
    collections begin and end by their indentation.  Whether something is a key is known
    only at the colon behind it, so every place where a key may begin leaves a slot in the
    list, which the colon fills in: with a key, or with a mapping that opens at that key.
    A slot is open while the key may still end, that is on the same line and within 1024
    characters; one that stands where only a key can stand must be filled. -/

namespace ModelOperator

namespace Yaml

/-- How a scalar is written. -/
inductive ScalarStyle where
  | plain
  | quoted
  | literal
  | folded
  deriving DecidableEq, Repr

/-- The tokens of a text. -/
inductive Token where
  | version (major minor : Nat)
  | shorthand (handle start : String)
  | documentStart
  | documentEnd
  | blockSequence
  | blockMapping
  | blockEnd
  | flowSequence
  | flowSequenceEnd
  | flowMapping
  | flowMappingEnd
  | blockEntry
  | flowEntry
  | key
  | value
  | alias (name : String)
  | anchor (name : String)
  | tag (handle rest : String)
  | scalar (style : ScalarStyle) (text : String)
  deriving DecidableEq, Repr

/-- An entry of the list that is being scanned: a token, or a place where a key may begin. -/
inductive Entry where
  | token (t : Token)
  | slot
  | key (opensMapping : Bool)

/-- The tokens of an entry. -/
def Entry.tokens : Entry → List Token
  | .token t => [t]
  | .slot => []
  | .key true => [.blockMapping, .key]
  | .key false => [.key]

/-- A place where a key may begin that is still open. -/
structure Slot where
  entry : Nat
  required : Bool
  index : Nat
  line : Nat
  column : Nat

/-- What a scan has read, and where it stands: the entries so far, the columns of the open
    block collections, innermost first, and the open slot of the text outside all flow
    collections and of each open flow collection, innermost first. -/
structure Scan where
  cursor : Cursor
  entries : Array Entry := #[]
  columns : List Nat := []
  outerSlot : Option Slot := none
  flowSlots : List (Option Slot) := []
  keyAllowed : Bool := true

namespace Scan

/-- Whether a flow collection is open. -/
def inFlow (s : Scan) : Bool := !s.flowSlots.isEmpty

/-- The column of the innermost block collection, or -1. -/
def indent (s : Scan) : Int :=
  match s.columns with
  | [] => -1
  | n :: _ => n

/-- The open slot of the innermost level. -/
def slot (s : Scan) : Option Slot :=
  match s.flowSlots with
  | [] => s.outerSlot
  | slot :: _ => slot

/-- Replaces the open slot of the innermost level. -/
def setSlot (s : Scan) (slot : Option Slot) : Scan :=
  match s.flowSlots with
  | [] => { s with outerSlot := slot }
  | _ :: rest => { s with flowSlots := slot :: rest }

/-- Adds a token. -/
def push (s : Scan) (t : Token) : Scan := { s with entries := s.entries.push (.token t) }

/-- Closes the open slot of the innermost level, which must not be a required one. -/
def closeSlot (s : Scan) : Option Scan :=
  if s.slot.any (·.required) then none else some (s.setSlot none)

/-- Opens a slot here if a key may begin here. -/
def openSlot (s : Scan) : Option Scan :=
  if s.keyAllowed then do
    let s ← s.closeSlot
    let required := !s.inFlow && s.indent == (s.cursor.column : Int)
    let slot : Slot :=
      ⟨s.entries.size, required, s.cursor.index, s.cursor.line, s.cursor.column⟩
    return { s.setSlot (some slot) with entries := s.entries.push .slot }
  else some s

/-- Whether a key that began at a slot can no longer end here. -/
def expired (s : Scan) (slot : Slot) : Bool :=
  slot.line < s.cursor.line || slot.index + 1024 < s.cursor.index

/-- A slot without those that have expired; a required one must not expire. -/
def freshSlot (s : Scan) : Option Slot → Option (Option Slot)
  | none => some none
  | some slot =>
    if s.expired slot then if slot.required then none else some none else some (some slot)

/-- Closes the slots that have expired. -/
def closeExpired (s : Scan) : Option Scan := do
  let outer ← s.freshSlot s.outerSlot
  let inner ← s.flowSlots.mapM s.freshSlot
  return { s with outerSlot := outer, flowSlots := inner }

/-- Opens a block collection at a column, unless one is open there. -/
def openBlock (s : Scan) (column : Nat) (t : Token) : Scan :=
  if !s.inFlow && s.indent < (column : Int) then
    { s.push t with columns := column :: s.columns }
  else s

/-- Closes the block collections that stand right of a column. -/
def closeBlocks (column : Int) : List Nat → Array Entry → List Nat × Array Entry
  | [], entries => ([], entries)
  | n :: rest, entries =>
    if column < (n : Int) then closeBlocks column rest (entries.push (.token .blockEnd))
    else (n :: rest, entries)

/-- Closes the block collections that end before a column. -/
def endBlocks (s : Scan) (column : Int) : Scan :=
  if s.inFlow then s
  else
    let (columns, entries) := closeBlocks column s.columns s.entries
    { s with columns := columns, entries := entries }

/-- `n` characters further. -/
def skip (s : Scan) (n : Nat) : Scan := { s with cursor := s.cursor.skips n }

/-- Allows or forbids a key at the next token. -/
def allowKey (s : Scan) (allowed : Bool) : Scan := { s with keyAllowed := allowed }

/-- Reads on to the next token: over blanks, comments and line breaks, and over a byte order
    mark at the start of a line. -/
def toNextToken : Nat → Scan → Scan
  | 0, s => s
  | fuel + 1, s =>
    let c := s.cursor
    let c := if c.column == 0 && c.looking '\ufeff' then c.skip else c
    let tabs := s.inFlow || !s.keyAllowed
    let c := (c.span fun x => x == ' ' || (tabs && x == '\t')).2
    let c := c.skipComment
    if c.ahead isBreak then
      let s := { s with cursor := c.takeBreak.2 }
      toNextToken fuel (if s.inFlow then s else s.allowKey true)
    else { s with cursor := c }

/-- Leaves all block collections before something that stands between documents. -/
def leaveDocument (s : Scan) : Option Scan := do
  return (← (s.endBlocks (-1)).closeSlot).allowKey false

/-- A letter, digit, hyphen or underscore. -/
def isWord (x : Char) : Bool := x.isAlphanum || x == '-' || x == '_'

/-- The name behind the sign of an anchor or an alias. -/
def readName (c : Cursor) : Option (String × Cursor) :=
  let (name, next) := c.span isWord
  let ends := next.gapAt 0 || next.ahead fun x => "?:,]\x7d%@".contains x || x.toNat == 96
  if name.isEmpty || !ends then none else some (name, next)

/-- The signs of a tag besides letters and digits; in angle brackets a few more. -/
def isTagSign (verbatim : Bool) (x : Char) : Bool :=
  isWord x || ";/?:@&=+$.!~*'()".contains x || (verbatim && ",[]".contains x)

/-- The number of bytes of a character by its first byte. -/
def utf8Width (n : Nat) : Option Nat :=
  if n < 0x80 then some 1
  else if 0xC0 ≤ n ∧ n < 0xE0 then some 2
  else if 0xE0 ≤ n ∧ n < 0xF0 then some 3
  else if 0xF0 ≤ n ∧ n < 0xF8 then some 4
  else none

/-- The bytes of a run of escapes, each a percent sign and two digits. -/
def escapeBytes : Nat → List Char → Option (List UInt8)
  | 0, _ => some []
  | n + 1, '%' :: a :: b :: rest => do
    let high ← hexValue? a
    let low ← hexValue? b
    return UInt8.ofNat (16 * high + low) :: (← escapeBytes n rest)
  | _, _ => none

/-- The character that escapes in a tag stand for, and how many escapes it takes. -/
def readEscape (rest : List Char) : Option (Char × Nat) := do
  let first ← escapeBytes 1 rest
  let width ← utf8Width (first.headD 0).toNat
  let bytes ← escapeBytes width rest
  let text ← String.fromUTF8? (ByteArray.mk bytes.toArray)
  return (← text.toList.head?, width)

/-- Reads the rest of a tag after `text`. -/
def tagRest (verbatim : Bool) : Nat → Cursor → String → Option (String × Cursor)
  | 0, _, _ => none
  | fuel + 1, c, text =>
    match c.rest with
    | [] => some (text, c)
    | x :: _ =>
      if x == '%' then do
        let (y, n) ← readEscape c.rest
        tagRest verbatim fuel (c.skips (3 * n)) (text.push y)
      else if isTagSign verbatim x then tagRest verbatim fuel c.skip (text.push x)
      else some (text, c)

/-- Reads a tag behind its exclamation mark. -/
def readTag (c : Cursor) : Option (String × String × Cursor) := do
  let fuel := c.rest.length + 1
  if c.looking '<' then
    let (rest, next) ← tagRest true fuel c.skip ""
    if rest.isEmpty || !next.looking '>' then none
    else some ("", rest, next.skip)
  else
    let (word, next) := c.span isWord
    if next.looking '!' then
      let (rest, next) ← tagRest false fuel next.skip ""
      if rest.isEmpty then none else some ("!" ++ word ++ "!", rest, next)
    else
      let (rest, next) ← tagRest false fuel next word
      if rest.isEmpty then some ("", "!", next) else some ("!", rest, next)

/-- What may follow a tag. -/
def endsTag (flow : Bool) (c : Cursor) : Bool := c.gapAt 0 || (flow && c.looking ',')

/-- A part of a version number, of at most nine digits. -/
def versionNumber (c : Cursor) : Option (Nat × Cursor) :=
  let (digits, next) := c.span Char.isDigit
  if digits.isEmpty || 9 < digits.length then none
  else some (digits.toList.foldl (fun n x => 10 * n + (x.toNat - 48)) 0, next)

/-- The handle of a tag directive. -/
def readHandle (c : Cursor) : Option (String × Cursor) :=
  if !c.looking '!' then none
  else
    let (word, next) := c.skip.span isWord
    if next.looking '!' then some ("!" ++ word ++ "!", next.skip)
    else if word.isEmpty then some ("!", next)
    else none

/-- Reads a directive behind its percent sign. -/
def readDirective (c : Cursor) : Option (Token × Cursor) := do
  let (name, next) := c.span isWord
  if !next.gapAt 0 then none
  else
    let next := next.skipBlanks
    let (t, next) ← (match name with
      | "YAML" => do
        let (major, next) ← versionNumber next
        if !next.looking '.' then none
        else
          let (minor, next) ← versionNumber next.skip
          some (Token.version major minor, next)
      | "TAG" => do
        let (handle, next) ← readHandle next
        if !next.ahead isBlank then none
        else
          let (start, next) ← tagRest true (next.rest.length + 1) next.skipBlanks ""
          if start.isEmpty || !next.gapAt 0 then none
          else some (Token.shorthand handle start, next)
      | _ => none : Option (Token × Cursor))
    let next := next.skipBlanks.skipComment
    if !next.lineEnds then none
    else some (t, if next.atEnd then next else next.takeBreak.2)

/-- A scalar read by a function, put behind an open slot. -/
def pushScalar (s : Scan) (style : ScalarStyle) (r : Option (String × Cursor)) : Option Scan := do
  let (text, c) ← r
  return { s.push (.scalar style text) with cursor := c }

/-- The start of a flow collection. -/
def openFlow (s : Scan) (t : Token) : Option Scan := do
  let s ← s.openSlot
  return (({ s with flowSlots := none :: s.flowSlots }.push t).allowKey true).skip 1

/-- The end of a flow collection. -/
def closeFlow (s : Scan) (t : Token) : Option Scan := do
  let s ← s.closeSlot
  return (({ s with flowSlots := s.flowSlots.drop 1 }.push t).allowKey false).skip 1

/-- The sign in front of an entry of a block sequence. -/
def blockEntry (s : Scan) : Option Scan :=
  if !s.inFlow && !s.keyAllowed then none
  else do
    let s ← (s.openBlock s.cursor.column .blockSequence).closeSlot
    return ((s.push .blockEntry).allowKey true).skip 1

/-- The sign in front of a key that is not a simple one. -/
def keySign (s : Scan) : Option Scan :=
  if !s.inFlow && !s.keyAllowed then none
  else do
    let s ← (s.openBlock s.cursor.column .blockMapping).closeSlot
    return ((s.push .key).allowKey (!s.inFlow)).skip 1

/-- The colon behind a key. -/
def valueSign (s : Scan) : Option Scan :=
  match s.slot with
  | some slot =>
    let opens := !s.inFlow && s.indent < (slot.column : Int)
    let s := { s.setSlot none with
      entries := s.entries.setIfInBounds slot.entry (.key opens)
      columns := if opens then slot.column :: s.columns else s.columns }
    some (((s.push .value).allowKey false).skip 1)
  | none =>
    if !s.inFlow && !s.keyAllowed then none
    else
      let s := s.openBlock s.cursor.column .blockMapping
      some (((s.push .value).allowKey (!s.inFlow)).skip 1)

/-- An anchor or an alias. -/
def reference (s : Scan) (make : String → Token) : Option Scan := do
  let s ← s.openSlot
  let (name, c) ← readName s.cursor.skip
  return { (s.push (make name)).allowKey false with cursor := c }

/-- A tag. -/
def tagged (s : Scan) : Option Scan := do
  let s ← s.openSlot
  let (handle, rest, c) ← readTag s.cursor.skip
  if !endsTag s.inFlow c then none
  else return { (s.push (.tag handle rest)).allowKey false with cursor := c }

/-- A quoted scalar. -/
def quoted (s : Scan) (double : Bool) : Option Scan := do
  let s := (← s.openSlot).allowKey false
  let c := s.cursor.skip
  s.pushScalar .quoted (quotedText double (c.rest.length + 1) c "")

/-- A block scalar. -/
def block (s : Scan) (folded : Bool) : Option Scan := do
  let s := (← s.closeSlot).allowKey true
  s.pushScalar (if folded then .folded else .literal) (blockText folded s.indent s.cursor.skip)

/-- A plain scalar. -/
def plain (s : Scan) : Option Scan := do
  let s := (← s.openSlot).allowKey false
  let c := s.cursor
  let (text, ownLine, next) ←
    plainText s.inFlow (s.indent + 1).toNat (c.rest.length + 1) c "" Gap.none
  let s := { s.push (.scalar .plain text) with cursor := next }
  return if ownLine then s.allowKey true else s

/-- Whether a plain scalar may begin here. -/
def startsPlain (s : Scan) (x : Char) : Bool :=
  if x == '-' then !(s.cursor.rest.drop 1).head?.any isBlank
  else if x == '?' || x == ':' then !s.inFlow && !s.cursor.gapAt 1
  else !(isBlank x || isBreak x || ",[]\x7b\x7d#&*!|>'\"%@".contains x || x.toNat == 96)

/-- Reads the next token, given its first character. -/
def token (s : Scan) (x : Char) : Option Scan :=
  let c := s.cursor
  let sign := s.inFlow || c.gapAt 1
  if c.column == 0 && x == '%' then do
    let s ← s.leaveDocument
    let (t, next) ← readDirective c.skip
    return { s.push t with cursor := next }
  else if c.atMarker '-' then do return ((← s.leaveDocument).push .documentStart).skip 3
  else if c.atMarker '.' then do return ((← s.leaveDocument).push .documentEnd).skip 3
  else if x == '[' then s.openFlow .flowSequence
  else if x == '{' then s.openFlow .flowMapping
  else if x == ']' then s.closeFlow .flowSequenceEnd
  else if x == '}' then s.closeFlow .flowMappingEnd
  else if x == ',' then do return (((← s.closeSlot).push .flowEntry).allowKey true).skip 1
  else if x == '-' && c.gapAt 1 then s.blockEntry
  else if x == '?' && sign then s.keySign
  else if x == ':' && sign then s.valueSign
  else if x == '*' then s.reference .alias
  else if x == '&' then s.reference .anchor
  else if x == '!' then s.tagged
  else if x == '|' && !s.inFlow then s.block false
  else if x == '>' && !s.inFlow then s.block true
  else if x == '\'' then s.quoted false
  else if x == '"' then s.quoted true
  else if s.startsPlain x then s.plain
  else none

/-- Closes what is open at the end of the text. -/
def finish (s : Scan) : Option Scan := (s.endBlocks (-1)).closeSlot

/-- Reads all tokens that are left. -/
def all : Nat → Scan → Option Scan
  | 0, _ => none
  | fuel + 1, s => do
    let s ← (toNextToken (s.cursor.rest.length + 1) s).closeExpired
    let s := s.endBlocks s.cursor.column
    match s.cursor.rest with
    | [] => s.finish
    | x :: _ => all fuel (← s.token x)

end Scan

/-- The tokens of a text; none if the text is not well formed. -/
def Token.scan (text : String) : Option (List Token) :=
  let chars := text.toList
  if chars.all admitted then do
    let s ← Scan.all (chars.length + 1) { cursor := { rest := chars } }
    return s.entries.toList.flatMap Entry.tokens
  else none

end Yaml

end ModelOperator
