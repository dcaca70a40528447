import ModelOperator.Json.Printer
import ModelOperator.Text.Quoted

/-!
# Why a document does not fit

    A reader that refuses a document says what it found and what it expected there, or
    which member is missing, given twice or one too many. -/

namespace ModelOperator

/-- Why a document is refused. -/
inductive Mismatch where
  | kind (found expected : String)
  | value (found expected : String)
  | missing (member : String)
  | repeated (member : String)
  | length (found : Nat) (expected : String)
  | word (found : String) (expected : List String)
  | content (reason : String)
  deriving DecidableEq, Repr

/-- What a reader gives. -/
abbrev Reading (α : Type) := Except Mismatch α

namespace Mismatch

/-- A value as a refusal names it. -/
def describe : Json → String
  | .null => "null"
  | .bool b => if b then "boolean `true`" else "boolean `false`"
  | .int n => s!"integer `" ++ toString n ++ "`"
  | .float x => "floating point `" ++ String.ofList x.text ++ "`"
  | .str s => "string " ++ quoted s
  | .arr _ => "sequence"
  | .obj _ => "map"

/-- The words that are expected, as a phrase. -/
def choices : List String → String
  | [] => "there are no variants"
  | [a] => "expected `" ++ a ++ "`"
  | [a, b] => "expected `" ++ a ++ "` or `" ++ b ++ "`"
  | more => "expected one of " ++ ", ".intercalate (more.map fun w => "`" ++ w ++ "`")

/-- The message of a refusal. -/
def message : Mismatch → String
  | kind found expected => s!"invalid type: {found}, expected {expected}"
  | value found expected => s!"invalid value: {found}, expected {expected}"
  | missing member => "missing field `" ++ member ++ "`"
  | repeated member => "duplicate field `" ++ member ++ "`"
  | length found expected => s!"invalid length {found}, expected {expected}"
  | word found expected => "unknown variant `" ++ found ++ "`, " ++ choices expected
  | content reason => reason

/-- A value of the wrong kind. -/
def notA {α : Type} (expected : String) (v : Json) : Reading α :=
  .error (.kind (describe v) expected)

end Mismatch

end ModelOperator
