import ModelOperator.Json.Edit
import ModelOperator.Patch.Body

/-!
# The stage of operations

    Operations run in order, each on the document the one before it left.  Beyond the
    plain evaluation of `Edit.run`:

    * an operation that lacks its source or value, or a pointer with an index below
      zero, is refused before anything runs;
    * an `add` creates the containers that are missing on the way to its target, a list
      where the next token is an index and an object otherwise. -/

namespace ModelOperator

namespace Patch

/-- A token that spells an index below zero. -/
def isNegativeIndex (token : String) : Bool :=
  match token.toList with
  | '-' :: rest => (Pointer.looseIndex? (String.ofList rest)).isSome
  | _ => false

/-- Refuses a pointer that starts with no slash or names an index below zero. -/
def checkPointer (pointer : String) : Except Error Unit :=
  match Pointer.split? pointer with
  | none => .error (.pointerStart pointer)
  | some tokens =>
    match tokens.find? isNegativeIndex with
    | some token => .error (.negativeIndex token pointer)
    | none => .ok ()

/-- An empty container: a list if an index is to go into it, else an object. -/
def freshFor (next : String) : Json :=
  if next = "-" ∨ (Pointer.looseIndex? next).isSome then .arr [] else .obj []

/-- The document with the missing containers on a path created, the last token excepted.
    A value that can hold nothing is left for the operation itself to report. -/
def ensureParents (path : String) : List String → Json → Except Error Json
  | token :: next :: rest, .obj members =>
    match ensureParents path (next :: rest) ((Members.get? token members).getD (freshFor next)) with
    | .ok child => .ok (.obj (Members.insert token child members))
    | .error e => .error e
  | token :: next :: rest, .arr items =>
    if token = "-" then
      match ensureParents path (next :: rest) (freshFor next) with
      | .ok child => .ok (.arr (items ++ [child]))
      | .error e => .error e
    else
      match Pointer.looseIndex? token with
      | none => .error (.invalidIndex token path)
      | some i =>
        match items[i]? with
        | none => .error (.indexOutOfBounds i path)
        | some item =>
          match ensureParents path (next :: rest) item with
          | .ok child => .ok (.arr (items.set i child))
          | .error e => .error e
  | _, doc => .ok doc

/-- The edit that an operation stands for, if its pointers are valid. -/
def Operation.edit? (op : Operation) : Option Edit := do
  let path ← Pointer.parse? op.path
  match op.kind with
  | .add => some (.add path (op.value.getD .null))
  | .remove => some (.remove path)
  | .replace => some (.replace path (op.value.getD .null))
  | .test => some (.test path (op.value.getD .null))
  | .move => (op.source.bind Pointer.parse?).map fun source => .move source path
  | .copy => (op.source.bind Pointer.parse?).map fun source => .copy source path

/-- The document after one operation. -/
def applyOperation (op : Operation) (doc : Json) : Except Error Json := do
  op.check
  checkPointer op.path
  match op.source with
  | some source => checkPointer source
  | none => .ok ()
  let doc ←
    if op.kind = .add then ensureParents op.path ((Pointer.split? op.path).getD []) doc
    else .ok doc
  match op.edit? with
  | none => .error (.invalidOperation op.kind.text op.path)
  | some edit =>
    match edit.run doc with
    | .ok next => .ok next
    | .error fault => .error (.failedOperation op.path fault.message)

/-- The document after several operations. -/
def applyOperations : List Operation → Json → Except Error Json
  | [], doc => .ok doc
  | op :: rest, doc =>
    match applyOperation op doc with
    | .ok next => applyOperations rest next
    | .error e => .error e

end Patch

end ModelOperator
