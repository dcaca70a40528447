import ModelOperator.Patch.Merge
import ModelOperator.Patch.Operations
import ModelOperator.Patch.Strategic

/-!
# Applying patches

    The three bodies run in a fixed order: merge patch, operations, strategic merge
    patch.  After the operations and at the end the document is read back into its
    target, so that what is returned is a document of the target. -/

namespace ModelOperator

namespace Patches

/-- A document of a target with patches applied. -/
def apply (t : Patch.Target) (doc : Json) (patches : Option Patches) : Except Patch.Error Json :=
  match patches with
  | none => .ok doc
  | some p =>
    if p.isEmpty then .ok doc
    else do
      let mut doc := doc
      let mut stage := Patch.Stage.merge
      if let some body := p.merge then
        doc ← Patch.applyMerge t body doc
      if !p.operations.isEmpty then
        stage := .json
        doc ← Patch.applyOperations p.operations doc
        doc ← t.read .json doc
      if let some body := p.strategic then
        stage := .strategic
        doc ← Patch.applyStrategic t body doc
      t.read stage doc

end Patches

end ModelOperator
