import ModelOperator.Resource.Image
import ModelOperator.Resource.Model
import ModelOperator.Yaml.Expected

/-!
# Hand-written resources

    A model or an image document may be written by hand as a document of lines.  What is
    expected where follows the records that read it, so that `model: 5` asks for the model
    named 5; `Model.ofText?` and `ImageData.ofText?` read such texts. -/

namespace ModelOperator

open Yaml (Expected)

namespace Shape

mutual
/-- What is expected of a document of a shape. -/
def expected : Shape → Expected
  | .any => .any
  | .text => .text
  | .boolean => .primitive
  | .int32 => .primitive
  | .int64 => .primitive
  | .intOrText => .any
  | .time => .text
  | .microTime => .text
  | .bytes => .text
  | .constant _ => .text
  | .list item => .list (expected item)
  | .map value => .map (expected value)
  | .record _ fields => .record false (expectedFields fields)

/-- What is expected of the members of a shape, each of which may be null. -/
def expectedFields : List (String × Bool × Shape) → List (String × Bool × Expected)
  | [] => []
  | (name, _, shape) :: rest => Expected.may name (expected shape) :: expectedFields rest
end

end Shape

/-- What is expected of an image document. -/
def ImageData.expected : Expected :=
  .record true [Expected.must "format" .word, Expected.must "data" .text]

/-- What is expected of an operation of a patch. -/
def Patch.Operation.expected : Expected :=
  .record true [Expected.must "op" .word, Expected.must "path" .text, Expected.may "from" .text,
    Expected.must "value" .any]

/-- What is expected of patches. -/
def Patches.expected : Expected :=
  .record true [Expected.must "jsonPatch" (.list Patch.Operation.expected),
    Expected.may "mergePatch" .any, Expected.may "strategicMergePatch" .any]

/-- What is expected of a condition. -/
def Condition.expected : Expected :=
  .record true [Expected.must "type" .text, Expected.must "status" .word,
    Expected.must "reason" .text, Expected.must "message" .text,
    Expected.must "lastTransitionTime" .text, Expected.must "observedGeneration" .primitive]

/-- What is expected of recorded details. -/
def RecordedDetails.expected : Expected :=
  .record true [Expected.must "parameterSize" .text, Expected.must "quantizationLevel" .text,
    Expected.must "parentModel" .text, Expected.must "format" .text, Expected.must "family" .text,
    Expected.must "families" (.list .text)]

/-- What is expected of the status of a model. -/
def ModelStatus.expected : Expected :=
  .record true [Expected.must "conditions" (.list Condition.expected),
    Expected.must "observedGeneration" .primitive, Expected.may "ollamaImage" .text,
    Expected.may "modelDetails" RecordedDetails.expected]

/-- What is expected of the specification of a model. -/
def ModelSpec.expected : Expected :=
  .record true [Expected.may "ollamaImage" .text, Expected.must "model" .text,
    Expected.may "statefulSetPatches" Patches.expected,
    Expected.may "servicePatches" Patches.expected]

/-- What is expected of a model. -/
def Model.expected : Expected :=
  .record true [Expected.must "metadata" Shape.objectMeta.expected,
    Expected.must "spec" ModelSpec.expected, Expected.may "status" ModelStatus.expected]

/-- The model that a text describes. -/
def Model.ofText? (text : String) : Option Model := do
  (Model.read (← Yaml.read? Model.expected text)).toOption

/-- The image document that a text is. -/
def ImageData.ofText? (text : String) : Option ImageData := do
  (ImageData.read (← Yaml.read? ImageData.expected text)).toOption

end ModelOperator
