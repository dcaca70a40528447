import ModelOperator.Json.Extent
import ModelOperator.Patch.Error

/-!
# Patch bodies

    A resource may carry a merge patch, a list of operations and a strategic merge patch,
    each of which may be absent.  An operation that is given a null value differs from
    one that is given none.

    * `Patches.read` and `Patches.toJson` are the wire form;
    * `Operation.check` says which of source and value an operation must have. -/

namespace ModelOperator

namespace Patch

/-- The kinds of operation. -/
inductive OperationKind where
  | add
  | remove
  | replace
  | move
  | copy
  | test
  deriving DecidableEq, Repr

namespace OperationKind

/-- The word of an operation. -/
def text : OperationKind → String
  | add => "add"
  | remove => "remove"
  | replace => "replace"
  | move => "move"
  | copy => "copy"
  | test => "test"

/-- The words and what they mean. -/
def words : List (String × OperationKind) := [("add", add), ("remove", remove),
  ("replace", replace), ("move", move), ("copy", copy), ("test", test)]

/-- Whether the operation reads from a second place. -/
def needsSource : OperationKind → Bool
  | move => true
  | copy => true
  | _ => false

/-- Whether the operation takes a value. -/
def needsValue : OperationKind → Bool
  | add => true
  | replace => true
  | test => true
  | _ => false

end OperationKind

/-- One operation as it is written. -/
structure Operation where
  kind : OperationKind
  path : String
  source : Option String := none
  value : Option Json := none

namespace Operation

/-- Reads an operation. -/
def read : Reader Operation := fun v => do
  let r ← Record.of "JsonPatchOperation" 4 v
  let kind ← r.required 0 "op" (Reader.word OperationKind.words)
  let path ← r.required 1 "path" Reader.text
  let source ← r.nullable 2 "from" Reader.text
  let value ← r.find? 3 "value"
  .ok ⟨kind, path, source, value⟩

/-- What is looked at of an operation. -/
def extent : Extent := .plain ["op", "path", "from", "value"]

/-- The wire form of an operation. -/
def toJson (op : Operation) : Json :=
  .ofPresent [("op", some (.str op.kind.text)), ("path", some (.str op.path)),
    ("from", op.source.map .str), ("value", op.value)]

/-- Whether source and value are given where the operation needs them. -/
def check (op : Operation) : Except Error Unit :=
  if op.kind.needsSource && op.source.isNone then .error (.missingSource op.kind.text op.path)
  else if op.kind.needsValue && op.value.isNone then .error (.missingValue op.kind.text op.path)
  else .ok ()

end Operation

end Patch

/-- The patches of one generated object. -/
structure Patches where
  operations : List Patch.Operation := []
  merge : Option Json := none
  strategic : Option Json := none

namespace Patches

/-- Reads patches. -/
def read : Reader Patches := fun v => do
  let r ← Record.of "Patches" 3 v
  let operations ← r.defaulted 0 "jsonPatch" (Reader.list Patch.Operation.read) []
  let merge ← r.nullable 1 "mergePatch" Reader.any
  let strategic ← r.nullable 2 "strategicMergePatch" Reader.any
  .ok ⟨operations, merge, strategic⟩

/-- What is looked at of patches. -/
def extent : Extent :=
  .record [("jsonPatch", .items Patch.Operation.extent), ("mergePatch", .whole),
    ("strategicMergePatch", .whole)]

/-- The wire form: members that are set. -/
def toJson (p : Patches) : Json :=
  .ofPresent [
    ("jsonPatch", if p.operations.isEmpty then none
      else some (.arr (p.operations.map Patch.Operation.toJson))),
    ("mergePatch", p.merge), ("strategicMergePatch", p.strategic)]

/-- Whether nothing is set. -/
def isEmpty (p : Patches) : Bool := p.operations.isEmpty && p.merge.isNone && p.strategic.isNone

end Patches

end ModelOperator
