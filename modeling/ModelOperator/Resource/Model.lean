import ModelOperator.Patch.Body
import ModelOperator.Resource.Conditioned

/-!
# Models

    A model asks for a server that has one language model loaded.  Its status tells
    whether that is so, which image the server runs and what the server reports about
    the language model. -/

namespace ModelOperator

/-- An optional text that is left out when it is empty. -/
def unlessEmpty (s : String) : Option Json := if s = "" then none else some (.str s)

/-- What a model asks for. -/
structure ModelSpec where
  image : Option String := none
  model : String
  statefulSetPatches : Option Patches := none
  servicePatches : Option Patches := none

namespace ModelSpec

/-- The image of the server: the one asked for, or the default when there is none. -/
def effectiveImage (s : ModelSpec) : String :=
  match s.image with
  | some image => if image = "" then Naming.defaultImage else image
  | none => Naming.defaultImage

/-- Reads a specification. -/
def read : Reader ModelSpec := fun v => do
  let r ← Record.of "ModelSpec" 4 v
  let image ← r.nullable 0 "ollamaImage" Reader.text
  let model ← r.required 1 "model" Reader.text
  let statefulSetPatches ← r.nullable 2 "statefulSetPatches" Patches.read
  let servicePatches ← r.nullable 3 "servicePatches" Patches.read
  .ok ⟨image, model, statefulSetPatches, servicePatches⟩

/-- What is looked at of a specification. -/
def extent : Extent :=
  .record [("ollamaImage", .whole), ("model", .whole), ("statefulSetPatches", Patches.extent),
    ("servicePatches", Patches.extent)]

/-- The wire form. -/
def toJson (s : ModelSpec) : Json :=
  .ofPresent [("ollamaImage", s.image.map .str), ("model", some (.str s.model)),
    ("statefulSetPatches", s.statefulSetPatches.map Patches.toJson),
    ("servicePatches", s.servicePatches.map Patches.toJson)]

end ModelSpec

/-- What a server reports about its language model. -/
structure RecordedDetails where
  parameterSize : String := ""
  quantizationLevel : String := ""
  parentModel : String := ""
  format : String := ""
  family : String := ""
  families : List String := []
  deriving DecidableEq, Repr

namespace RecordedDetails

/-- Reads recorded details. -/
def read : Reader RecordedDetails := fun v => do
  let r ← Record.of "OllamaModelDetails" 6 v
  let parameterSize ← r.defaulted 0 "parameterSize" Reader.text ""
  let quantizationLevel ← r.defaulted 1 "quantizationLevel" Reader.text ""
  let parentModel ← r.defaulted 2 "parentModel" Reader.text ""
  let format ← r.defaulted 3 "format" Reader.text ""
  let family ← r.defaulted 4 "family" Reader.text ""
  let families ← r.defaulted 5 "families" (Reader.list Reader.text) []
  .ok ⟨parameterSize, quantizationLevel, parentModel, format, family, families⟩

/-- What is looked at of recorded details. -/
def extent : Extent :=
  .plain ["parameterSize", "quantizationLevel", "parentModel", "format", "family", "families"]

/-- The wire form: what is empty is left out. -/
def toJson (d : RecordedDetails) : Json :=
  .ofPresent [("parameterSize", unlessEmpty d.parameterSize),
    ("quantizationLevel", unlessEmpty d.quantizationLevel),
    ("parentModel", unlessEmpty d.parentModel), ("format", unlessEmpty d.format),
    ("family", unlessEmpty d.family),
    ("families", if d.families.isEmpty then none else some (.arr (d.families.map .str)))]

end RecordedDetails

/-- What is known about a model. -/
structure ModelStatus where
  conditions : ConditionSet := {}
  observedGeneration : Int := 0
  image : Option String := none
  details : Option RecordedDetails := none
  deriving DecidableEq, Repr

namespace ModelStatus

/-- Reads a status. -/
def read : Reader ModelStatus := fun v => do
  let r ← Record.of "ModelStatus" 4 v
  let conditions ← r.defaulted 0 "conditions" ConditionSet.read {}
  let observedGeneration ← r.defaulted 1 "observedGeneration" Reader.int64 0
  let image ← r.nullable 2 "ollamaImage" Reader.text
  let details ← r.nullable 3 "modelDetails" RecordedDetails.read
  .ok ⟨conditions, observedGeneration, image, details⟩

/-- What is looked at of a status. -/
def extent : Extent :=
  .record [("conditions", .items Condition.extent), ("observedGeneration", .whole),
    ("ollamaImage", .whole), ("modelDetails", RecordedDetails.extent)]

/-- The wire form. -/
def toJson (s : ModelStatus) : Json :=
  .ofPresent [
    ("conditions", if s.conditions.items.isEmpty then none else some s.conditions.toJson),
    ("observedGeneration", some (.int s.observedGeneration)),
    ("ollamaImage", s.image.map .str), ("modelDetails", s.details.map RecordedDetails.toJson)]

end ModelStatus

/-- A model. -/
structure Model where
  metadata : Metadata
  spec : ModelSpec
  status : Option ModelStatus := none

namespace Model

/-- Reads a model; its version and kind are not looked at. -/
def read : Reader Model := readResource "Model" ModelSpec.read ModelStatus.read Model.mk

/-- How a model is read from a text. -/
def decoder : Decoder Model := ⟨resourceExtent ModelSpec.extent ModelStatus.extent, read⟩

/-- The wire form. -/
def toJson (m : Model) : Json :=
  resourceJson "Model" m.metadata m.spec.toJson (m.status.map ModelStatus.toJson)

/-- The conditions of a model are in its status. -/
def conditioned : Conditioned Model ModelStatus where
  metadata := Model.metadata
  status := Model.status
  withStatus m s := { m with status := some s }
  empty := {}
  generation := ModelStatus.observedGeneration
  conditions := ModelStatus.conditions
  withConditions s conditions := { s with conditions := conditions }

/-- The status, empty when there is none yet. -/
def statusOrEmpty (m : Model) : ModelStatus := conditioned.statusOrEmpty m

/-- The conditions, if there is a status. -/
def conditions? (m : Model) : Option ConditionSet := conditioned.conditions? m

/-- The condition of a type. -/
def condition? (m : Model) (type : String) : Option Condition := conditioned.condition? m type

/-- Whether a condition is the stored one of its type, but for time and generation. -/
def hasCondition (m : Model) (c : Condition) : Bool := conditioned.hasCondition m c

/-- The model with conditions set for its generation. -/
def setConditions (m : Model) (conditions : List Condition) : Model :=
  conditioned.setConditions m conditions

/-- Whether the model says exactly that its last pass ended well and that it can be used. -/
def isSyncedAndReady (m : Model) : Bool := conditioned.isSyncedAndReady m

end Model

end ModelOperator
