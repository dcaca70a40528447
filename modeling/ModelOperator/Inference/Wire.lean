import ModelOperator.Json.Extent
import ModelOperator.Resource.Condition

/-!
# Bodies of the inference interface

    What is sent to a server and what it answers, each with its reader and its wire
    form: the models it has, the details of one, the progress of a pull, and the answer
    to a question.  What is answered also has a decoder, which tells the members that are
    looked at from those that are passed over. -/

namespace ModelOperator

namespace Inference

/-- Details of a language model. -/
structure ModelDetails where
  parentModel : String := ""
  format : String := ""
  family : String := ""
  families : Option (List String) := none
  parameterSize : String := ""
  quantizationLevel : String := ""
  deriving DecidableEq, Repr

namespace ModelDetails

/-- Reads details. -/
def read : Reader ModelDetails := fun v => do
  let r ← Record.of "ModelDetails" 6 v
  let parentModel ← r.defaulted 0 "parent_model" Reader.text ""
  let format ← r.defaulted 1 "format" Reader.text ""
  let family ← r.defaulted 2 "family" Reader.text ""
  let families ← r.nullable 3 "families" (Reader.list Reader.text)
  let parameterSize ← r.defaulted 4 "parameter_size" Reader.text ""
  let quantizationLevel ← r.defaulted 5 "quantization_level" Reader.text ""
  .ok ⟨parentModel, format, family, families, parameterSize, quantizationLevel⟩

/-- What is looked at of details. -/
def extent : Extent :=
  .plain ["parent_model", "format", "family", "families", "parameter_size", "quantization_level"]

/-- The wire form; unknown families are null. -/
def toJson (d : ModelDetails) : Json :=
  .ofMembers [("parent_model", .str d.parentModel), ("format", .str d.format),
    ("family", .str d.family),
    ("families", .orNull (d.families.map fun fs => .arr (fs.map .str))),
    ("parameter_size", .str d.parameterSize), ("quantization_level", .str d.quantizationLevel)]

end ModelDetails

/-- A model that a server has. -/
structure ListedModel where
  name : String := ""
  model : String := ""
  size : Nat := 0
  digest : String := ""
  details : ModelDetails := {}
  deriving DecidableEq, Repr

namespace ListedModel

/-- Reads an entry. -/
def read : Reader ListedModel := fun v => do
  let r ← Record.of "ListModel" 5 v
  let name ← r.defaulted 0 "name" Reader.text ""
  let model ← r.defaulted 1 "model" Reader.text ""
  let size ← r.defaulted 2 "size" Reader.word64 0
  let digest ← r.defaulted 3 "digest" Reader.text ""
  let details ← r.defaulted 4 "details" ModelDetails.read {}
  .ok ⟨name, model, size, digest, details⟩

/-- What is looked at of an entry. -/
def extent : Extent :=
  .record [("name", .whole), ("model", .whole), ("size", .whole), ("digest", .whole),
    ("details", ModelDetails.extent)]

/-- The wire form. -/
def toJson (m : ListedModel) : Json :=
  .ofMembers [("name", .str m.name), ("model", .str m.model), ("size", .int m.size),
    ("digest", .str m.digest), ("details", m.details.toJson)]

end ListedModel

/-- The models that a server has. -/
structure ModelList where
  models : List ListedModel := []
  deriving DecidableEq, Repr

namespace ModelList

/-- Reads a list of models. -/
def read : Reader ModelList := fun v => do
  let r ← Record.of "ListResponse" 1 v
  let models ← r.defaulted 0 "models" (Reader.list ListedModel.read) []
  .ok ⟨models⟩

/-- How a list of models is read from a text. -/
def decoder : Decoder ModelList := ⟨.record [("models", .items ListedModel.extent)], read⟩

/-- The wire form. -/
def toJson (l : ModelList) : Json := .ofMembers [("models", .arr (l.models.map ListedModel.toJson))]

/-- Whether the server has a model under exactly this name. -/
def contains (l : ModelList) (model : String) : Bool := l.models.any fun m => m.model == model

end ModelList

/-- Asks for the details of a model. -/
structure ShowRequest where
  model : String
  deriving DecidableEq, Repr

namespace ShowRequest

/-- Reads a request. -/
def read : Reader ShowRequest := fun v => do
  let r ← Record.of "ShowRequest" 1 v
  let model ← r.required 0 "model" Reader.text
  .ok ⟨model⟩

/-- The wire form. -/
def toJson (s : ShowRequest) : Json := .ofMembers [("model", .str s.model)]

end ShowRequest

/-- The details of a model. -/
structure ShowReply where
  modelfile : String := ""
  parameters : String := ""
  template : String := ""
  details : ModelDetails := {}
  deriving DecidableEq, Repr

namespace ShowReply

/-- Reads a reply. -/
def read : Reader ShowReply := fun v => do
  let r ← Record.of "ShowResponse" 4 v
  let modelfile ← r.defaulted 0 "modelfile" Reader.text ""
  let parameters ← r.defaulted 1 "parameters" Reader.text ""
  let template ← r.defaulted 2 "template" Reader.text ""
  let details ← r.defaulted 3 "details" ModelDetails.read {}
  .ok ⟨modelfile, parameters, template, details⟩

/-- How a reply is read from a text. -/
def decoder : Decoder ShowReply :=
  ⟨.record [("modelfile", .whole), ("parameters", .whole), ("template", .whole),
    ("details", ModelDetails.extent)], read⟩

/-- The wire form. -/
def toJson (s : ShowReply) : Json :=
  .ofMembers [("modelfile", .str s.modelfile), ("parameters", .str s.parameters),
    ("template", .str s.template), ("details", s.details.toJson)]

end ShowReply

/-- Asks the server to fetch a model. -/
structure PullRequest where
  model : String
  insecure : Bool := false
  stream : Bool
  deriving DecidableEq, Repr

namespace PullRequest

/-- Reads a request. -/
def read : Reader PullRequest := fun v => do
  let r ← Record.of "PullRequest" 3 v
  let model ← r.required 0 "model" Reader.text
  let insecure ← r.defaulted 1 "insecure" Reader.boolean false
  let stream ← r.required 2 "stream" Reader.boolean
  .ok ⟨model, insecure, stream⟩

/-- The wire form. -/
def toJson (p : PullRequest) : Json :=
  .ofMembers [("model", .str p.model), ("insecure", .bool p.insecure), ("stream", .bool p.stream)]

end PullRequest

/-- How far a pull has come. -/
structure PullProgress where
  status : String := ""
  digest : Option String := none
  total : Option Nat := none
  completed : Option Nat := none
  deriving DecidableEq, Repr

namespace PullProgress

/-- Reads a progress line. -/
def read : Reader PullProgress := fun v => do
  let r ← Record.of "ProgressResponse" 4 v
  let status ← r.defaulted 0 "status" Reader.text ""
  let digest ← r.nullable 1 "digest" Reader.text
  let total ← r.nullable 2 "total" Reader.word64
  let completed ← r.nullable 3 "completed" Reader.word64
  .ok ⟨status, digest, total, completed⟩

/-- How a progress line is read. -/
def decoder : Decoder PullProgress := ⟨.plain ["status", "digest", "total", "completed"], read⟩

/-- The wire form. -/
def toJson (p : PullProgress) : Json :=
  .ofPresent [("status", some (.str p.status)), ("digest", p.digest.map .str),
    ("total", p.total.map fun n => .int n), ("completed", p.completed.map fun n => .int n)]

/-- Whether the pull is complete. -/
def isSuccess (p : PullProgress) : Bool := p.status == "success"

end PullProgress

/-- A question. -/
structure GenerateRequest where
  model : String
  prompt : String
  suffix : Option String := none
  system : Option String := none
  template : Option String := none
  context : Option (List Int) := none
  stream : Bool := false
  raw : Bool := false
  images : List String := []
  options : Option Members := none

namespace GenerateRequest

/-- Reads a question; the list of images must be there. -/
def read : Reader GenerateRequest := fun v => do
  let r ← Record.of "GenerateRequest" 10 v
  let model ← r.required 0 "model" Reader.text
  let prompt ← r.required 1 "prompt" Reader.text
  let suffix ← r.positional 2 "suffix" Reader.text
  let system ← r.positional 3 "system" Reader.text
  let template ← r.positional 4 "template" Reader.text
  let context ← r.positional 5 "context" (Reader.list Reader.int64)
  let stream ← r.required 6 "stream" Reader.boolean
  let raw ← r.required 7 "raw" Reader.boolean
  let images ← r.required 8 "images" (Reader.list Reader.text)
  let options ← r.positional 9 "options" Reader.members
  .ok ⟨model, prompt, suffix, system, template, context, stream, raw, images, options⟩

/-- The wire form; an empty list of images is left out. -/
def toJson (g : GenerateRequest) : Json :=
  .ofPresent [("model", some (.str g.model)), ("prompt", some (.str g.prompt)),
    ("suffix", g.suffix.map .str), ("system", g.system.map .str),
    ("template", g.template.map .str),
    ("context", g.context.map fun ns => .arr (ns.map .int)),
    ("stream", some (.bool g.stream)), ("raw", some (.bool g.raw)),
    ("images", if g.images.isEmpty then none else some (.arr (g.images.map .str))),
    ("options", g.options.map .obj)]

end GenerateRequest

/-- An answer with its measurements; durations are in nanoseconds. -/
structure GenerateReply where
  model : String := ""
  createdAt : Option Instant := none
  response : String := ""
  done : Bool := false
  doneReason : Option String := none
  context : List Int := []
  totalDuration : Nat := 0
  loadDuration : Nat := 0
  promptEvalCount : Nat := 0
  promptEvalDuration : Nat := 0
  evalCount : Nat := 0
  evalDuration : Nat := 0
  deriving DecidableEq, Repr

namespace GenerateReply

/-- Reads an answer. -/
def read : Reader GenerateReply := fun v => do
  let r ← Record.of "GenerateResponse" 12 v
  let model ← r.defaulted 0 "model" Reader.text ""
  let createdAt ← r.nullable 1 "created_at" Condition.readInstant
  let response ← r.defaulted 2 "response" Reader.text ""
  let done ← r.defaulted 3 "done" Reader.boolean false
  let doneReason ← r.nullable 4 "done_reason" Reader.text
  let context ← r.defaulted 5 "context" (Reader.list Reader.int64) []
  let totalDuration ← r.defaulted 6 "total_duration" Reader.word64 0
  let loadDuration ← r.defaulted 7 "load_duration" Reader.word64 0
  let promptEvalCount ← r.defaulted 8 "prompt_eval_count" Reader.word64 0
  let promptEvalDuration ← r.defaulted 9 "prompt_eval_duration" Reader.word64 0
  let evalCount ← r.defaulted 10 "eval_count" Reader.word64 0
  let evalDuration ← r.defaulted 11 "eval_duration" Reader.word64 0
  .ok ⟨model, createdAt, response, done, doneReason, context, totalDuration, loadDuration,
    promptEvalCount, promptEvalDuration, evalCount, evalDuration⟩

/-- How an answer is read from a text. -/
def decoder : Decoder GenerateReply :=
  ⟨.plain ["model", "created_at", "response", "done", "done_reason", "context",
    "total_duration", "load_duration", "prompt_eval_count", "prompt_eval_duration",
    "eval_count", "eval_duration"], read⟩

/-- The wire form; an unknown time is null. -/
def toJson (g : GenerateReply) : Json :=
  .ofPresent [("model", some (.str g.model)),
    ("created_at", some (.orNull (g.createdAt.map fun t => .str (t.text .shortest)))),
    ("response", some (.str g.response)), ("done", some (.bool g.done)),
    ("done_reason", g.doneReason.map .str), ("context", some (.arr (g.context.map .int))),
    ("total_duration", some (.int g.totalDuration)), ("load_duration", some (.int g.loadDuration)),
    ("prompt_eval_count", some (.int g.promptEvalCount)),
    ("prompt_eval_duration", some (.int g.promptEvalDuration)),
    ("eval_count", some (.int g.evalCount)), ("eval_duration", some (.int g.evalDuration))]

end GenerateReply

/-- The body of a refusal. -/
structure Refusal where
  error : String
  deriving DecidableEq, Repr

namespace Refusal

/-- Reads a refusal. -/
def read : Reader Refusal := fun v => do
  let r ← Record.of "ErrorBody" 1 v
  let error ← r.required 0 "error" Reader.text
  .ok ⟨error⟩

/-- How a refusal is read from a text. -/
def decoder : Decoder Refusal := ⟨.plain ["error"], read⟩

end Refusal

end Inference

end ModelOperator
