import ModelOperator.Resource.Image
import ModelOperator.Resource.Model

/-!
# Prompts

    A prompt asks a model one question.  Its status holds the answer once there is one,
    with the conversation state to go on from and the measurements of the server. -/

namespace ModelOperator

/-- A name that may carry a namespace: the namespace if it is there and not empty, else
    the one in which it is used. -/
def namespaceOr (own : Option String) (ns : String) : String :=
  match own with
  | some n => if n = "" then ns else n
  | none => ns

/-- The model that a prompt asks. -/
structure ModelRef where
  name : String
  ns : Option String := none
  deriving DecidableEq, Repr

namespace ModelRef

/-- The namespace of the model, seen from a prompt's namespace. -/
def namespaceFrom (r : ModelRef) (ns : String) : String := namespaceOr r.ns ns

/-- Reads a reference. -/
def read : Reader ModelRef := fun v => do
  let r ← Record.of "ModelRef" 2 v
  let name ← r.required 0 "name" Reader.text
  let ns ← r.nullable 1 "namespace" Reader.text
  .ok ⟨name, ns⟩

/-- What is looked at of a reference. -/
def extent : Extent := .plain ["name", "namespace"]

/-- The wire form. -/
def toJson (r : ModelRef) : Json :=
  .ofPresent [("name", some (.str r.name)), ("namespace", r.ns.map .str)]

end ModelRef

/-- What a prompt asks. -/
structure PromptSpec where
  modelRef : ModelRef
  prompt : String
  context : Option String := none
  suffix : Option String := none
  system : Option String := none
  template : Option String := none
  options : Option Json := none
  images : List ImageSource := []

namespace PromptSpec

/-- Reads a specification. -/
def read : Reader PromptSpec := fun v => do
  let r ← Record.of "PromptSpec" 8 v
  let modelRef ← r.required 0 "modelRef" ModelRef.read
  let prompt ← r.required 1 "prompt" Reader.text
  let context ← r.nullable 2 "context" Reader.text
  let suffix ← r.nullable 3 "suffix" Reader.text
  let system ← r.nullable 4 "system" Reader.text
  let template ← r.nullable 5 "template" Reader.text
  let options ← r.nullable 6 "options" Reader.any
  let images ← r.defaulted 7 "images" (Reader.list ImageSource.read) []
  .ok ⟨modelRef, prompt, context, suffix, system, template, options, images⟩

/-- What is looked at of a specification. -/
def extent : Extent :=
  .record [("modelRef", ModelRef.extent), ("prompt", .whole), ("context", .whole),
    ("suffix", .whole), ("system", .whole), ("template", .whole), ("options", .whole),
    ("images", .items ImageSource.extent)]

/-- The wire form. -/
def toJson (s : PromptSpec) : Json :=
  .ofPresent [("modelRef", some s.modelRef.toJson), ("prompt", some (.str s.prompt)),
    ("context", s.context.map .str), ("suffix", s.suffix.map .str),
    ("system", s.system.map .str), ("template", s.template.map .str), ("options", s.options),
    ("images", if s.images.isEmpty then none else some (.arr (s.images.map ImageSource.toJson)))]

end PromptSpec

/-- When the answer was made. -/
structure ResponseMeta where
  createdAt : Option Instant := none
  deriving DecidableEq, Repr

namespace ResponseMeta

/-- Reads the metadata of an answer. -/
def read : Reader ResponseMeta := fun v => do
  let r ← Record.of "PromptResponseMeta" 1 v
  let createdAt ← r.nullable 0 "createdAt" Condition.readInstant
  .ok ⟨createdAt⟩

/-- What is looked at of the metadata of an answer. -/
def extent : Extent := .plain ["createdAt"]

/-- The wire form. -/
def toJson (m : ResponseMeta) : Json :=
  .ofPresent [("createdAt", m.createdAt.map fun t => .str (t.text .shortest))]

end ResponseMeta

/-- Times and counts of an answer. -/
structure ResponseMetrics where
  totalDuration : String
  loadDuration : String
  promptEvalCount : Int
  promptEvalDuration : String
  promptEvalRate : String
  evalCount : Int
  evalDuration : String
  evalRate : String
  deriving DecidableEq, Repr

namespace ResponseMetrics

/-- Reads metrics. -/
def read : Reader ResponseMetrics := fun v => do
  let r ← Record.of "PromptResponseMetrics" 8 v
  let totalDuration ← r.required 0 "totalDuration" Reader.text
  let loadDuration ← r.required 1 "loadDuration" Reader.text
  let promptEvalCount ← r.required 2 "promptEvalCount" Reader.int64
  let promptEvalDuration ← r.required 3 "promptEvalDuration" Reader.text
  let promptEvalRate ← r.required 4 "promptEvalRate" Reader.text
  let evalCount ← r.required 5 "evalCount" Reader.int64
  let evalDuration ← r.required 6 "evalDuration" Reader.text
  let evalRate ← r.required 7 "evalRate" Reader.text
  .ok ⟨totalDuration, loadDuration, promptEvalCount, promptEvalDuration, promptEvalRate,
    evalCount, evalDuration, evalRate⟩

/-- What is looked at of metrics. -/
def extent : Extent :=
  .plain ["totalDuration", "loadDuration", "promptEvalCount", "promptEvalDuration",
    "promptEvalRate", "evalCount", "evalDuration", "evalRate"]

/-- The wire form. -/
def toJson (m : ResponseMetrics) : Json :=
  .ofMembers [("totalDuration", .str m.totalDuration), ("loadDuration", .str m.loadDuration),
    ("promptEvalCount", .int m.promptEvalCount),
    ("promptEvalDuration", .str m.promptEvalDuration),
    ("promptEvalRate", .str m.promptEvalRate), ("evalCount", .int m.evalCount),
    ("evalDuration", .str m.evalDuration), ("evalRate", .str m.evalRate)]

end ResponseMetrics

/-- What is known about a prompt. -/
structure PromptStatus where
  conditions : ConditionSet := {}
  observedGeneration : Int := 0
  response : String := ""
  context : String := ""
  responseMeta : Option ResponseMeta := none
  metrics : Option ResponseMetrics := none
  deriving DecidableEq, Repr

namespace PromptStatus

/-- Reads a status. -/
def read : Reader PromptStatus := fun v => do
  let r ← Record.of "PromptStatus" 6 v
  let conditions ← r.defaulted 0 "conditions" ConditionSet.read {}
  let observedGeneration ← r.defaulted 1 "observedGeneration" Reader.int64 0
  let response ← r.defaulted 2 "response" Reader.text ""
  let context ← r.defaulted 3 "context" Reader.text ""
  let responseMeta ← r.nullable 4 "meta" ResponseMeta.read
  let metrics ← r.nullable 5 "metrics" ResponseMetrics.read
  .ok ⟨conditions, observedGeneration, response, context, responseMeta, metrics⟩

/-- What is looked at of a status. -/
def extent : Extent :=
  .record [("conditions", .items Condition.extent), ("observedGeneration", .whole),
    ("response", .whole), ("context", .whole), ("meta", ResponseMeta.extent),
    ("metrics", ResponseMetrics.extent)]

/-- The wire form. -/
def toJson (s : PromptStatus) : Json :=
  .ofPresent [
    ("conditions", if s.conditions.items.isEmpty then none else some s.conditions.toJson),
    ("observedGeneration", some (.int s.observedGeneration)),
    ("response", unlessEmpty s.response), ("context", unlessEmpty s.context),
    ("meta", s.responseMeta.map ResponseMeta.toJson),
    ("metrics", s.metrics.map ResponseMetrics.toJson)]

end PromptStatus

/-- A prompt. -/
structure Prompt where
  metadata : Metadata
  spec : PromptSpec
  status : Option PromptStatus := none

namespace Prompt

/-- Reads a prompt; its version and kind are not looked at. -/
def read : Reader Prompt := readResource "Prompt" PromptSpec.read PromptStatus.read Prompt.mk

/-- How a prompt is read from a text. -/
def decoder : Decoder Prompt := ⟨resourceExtent PromptSpec.extent PromptStatus.extent, read⟩

/-- The wire form. -/
def toJson (p : Prompt) : Json :=
  resourceJson "Prompt" p.metadata p.spec.toJson (p.status.map PromptStatus.toJson)

/-- The conditions of a prompt are in its status. -/
def conditioned : Conditioned Prompt PromptStatus where
  metadata := Prompt.metadata
  status := Prompt.status
  withStatus p s := { p with status := some s }
  empty := {}
  generation := PromptStatus.observedGeneration
  conditions := PromptStatus.conditions
  withConditions s conditions := { s with conditions := conditions }

/-- The status, empty when there is none yet. -/
def statusOrEmpty (p : Prompt) : PromptStatus := conditioned.statusOrEmpty p

/-- The conditions, if there is a status. -/
def conditions? (p : Prompt) : Option ConditionSet := conditioned.conditions? p

/-- The condition of a type. -/
def condition? (p : Prompt) (type : String) : Option Condition := conditioned.condition? p type

/-- Whether a condition is the stored one of its type, but for time and generation. -/
def hasCondition (p : Prompt) (c : Condition) : Bool := conditioned.hasCondition p c

/-- The prompt with conditions set for its generation. -/
def setConditions (p : Prompt) (conditions : List Condition) : Prompt :=
  conditioned.setConditions p conditions

/-- Whether the prompt says exactly that its last pass ended well and that it is answered. -/
def isSyncedAndReady (p : Prompt) : Bool := conditioned.isSyncedAndReady p

/-- The answer, if one is recorded. -/
def response? (p : Prompt) : Option String :=
  match p.status with
  | some status => if status.response = "" then none else some status.response
  | none => none

end Prompt

end ModelOperator
