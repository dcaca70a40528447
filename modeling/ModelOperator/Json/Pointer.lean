import ModelOperator.Json.Value

/-!
# Pointers into a document

    A pointer is a text of reference tokens, each behind a slash, in which a tilde is
    written `~0` and a slash `~1`.

    * `Pointer.join` writes tokens and `Pointer.split?` reads them, leniently: a tilde
      that starts no escape stands for itself;
    * `Pointer.parse?` reads them strictly;
    * `Json.at?` follows tokens through a document. -/

namespace ModelOperator

namespace Pointer

/-- A token with its tildes and slashes escaped. -/
def escape : List Char → List Char
  | [] => []
  | c :: rest =>
    if c = '~' then '~' :: '0' :: escape rest
    else if c = '/' then '~' :: '1' :: escape rest
    else c :: escape rest

/-- Replaces each two-character escape, from the left, by one character. -/
def replacePair (first second new : Char) : List Char → List Char
  | a :: b :: rest =>
    if a = first ∧ b = second then new :: replacePair first second new rest
    else a :: replacePair first second new (b :: rest)
  | cs => cs

/-- A token without escapes: first `~1`, then `~0`. -/
def unescape (cs : List Char) : List Char :=
  replacePair '~' '0' '~' (replacePair '~' '1' '/' cs)

/-- Tokens as a pointer. -/
def joinChars (tokens : List (List Char)) : List Char :=
  tokens.flatMap fun t => '/' :: escape t

/-- The pieces between slashes. -/
def pieces : List Char → List (List Char)
  | [] => [[]]
  | c :: rest =>
    if c = '/' then [] :: pieces rest
    else
      match pieces rest with
      | piece :: more => (c :: piece) :: more
      | [] => [[c]]

/-- The tokens of a pointer; none when it is not empty and starts with no slash. -/
def splitChars? : List Char → Option (List (List Char))
  | [] => some []
  | '/' :: rest => some ((pieces rest).map unescape)
  | _ => none

/-- Every tilde starts an escape. -/
def escapesValid : List Char → Bool
  | [] => true
  | '~' :: c :: rest => (c == '0' || c == '1') && escapesValid rest
  | ['~'] => false
  | _ :: rest => escapesValid rest

/-- Tokens as a pointer. -/
def join (tokens : List String) : String :=
  String.ofList (joinChars (tokens.map String.toList))

/-- The tokens of a pointer; none when it is not empty and starts with no slash. -/
def split? (pointer : String) : Option (List String) :=
  (splitChars? pointer.toList).map fun tokens => tokens.map String.ofList

/-- The tokens of a pointer in which every tilde starts an escape. -/
def parse? (pointer : String) : Option (List String) :=
  if escapesValid pointer.toList then split? pointer else none

/-- Decimal digits as a number below `2 ^ 64`. -/
def digitsNumber? (cs : List Char) : Option Nat :=
  if cs.isEmpty || !cs.all (fun c => '0' ≤ c && c ≤ '9') then none
  else
    let n := cs.foldl (fun acc c => acc * 10 + (c.toNat - 48)) 0
    if n < Nat.pow 2 64 then some n else none

/-- A list index read leniently: leading zeros and a plus sign are allowed. -/
def looseIndex? (token : String) : Option Nat :=
  match token.toList with
  | '+' :: rest => digitsNumber? rest
  | cs => digitsNumber? cs

/-- A list index: digits without sign, and no zero in front of others. -/
def index? (token : String) : Option Nat :=
  match token.toList with
  | '0' :: _ :: _ => none
  | cs => digitsNumber? cs

end Pointer

namespace Json

/-- One step into a value. -/
def child? (token : String) : Json → Option Json
  | .obj members => Members.get? token members
  | .arr items => (Pointer.index? token).bind fun i => items[i]?
  | _ => none

/-- The value that the tokens lead to. -/
def at? : List String → Json → Option Json
  | [], v => some v
  | token :: rest, v => (child? token v).bind (at? rest)

/-- The value with a different child under a token that leads somewhere. -/
def setChild (token : String) (new : Json) : Json → Json
  | .obj members => .obj (Members.insert token new members)
  | .arr items =>
    match Pointer.index? token with
    | some i => .arr (items.set i new)
    | none => .arr items
  | v => v

/-- Changes the value that the tokens lead to; none when they lead nowhere or the change
    is refused. -/
def change? (f : Json → Option Json) : List String → Json → Option Json
  | [], v => f v
  | token :: rest, v =>
    match child? token v with
    | none => none
    | some w => (change? f rest w).map fun new => setChild token new v

end Json

end ModelOperator
