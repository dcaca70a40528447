import ModelOperator.Resource.Naming
import ModelOperator.Resource.Schema
import ModelOperator.Yaml.Printer

/-!
# Definitions of the operator's resources

    The cluster learns of a kind of resource by its definition: the names under which it
    is found, the columns in which it is listed and the schema of its documents.

    * `definitions` are the definitions of models and prompts, in the order in which they
      are installed;
    * `definitionsText` is their text. -/

namespace ModelOperator

/-- A column of a listing. -/
structure ListColumn where
  name : String
  path : String
  type : String := "string"

/-- The written form of a column. -/
def ListColumn.toJson (c : ListColumn) : Json :=
  .ofMembers [("name", .str c.name), ("jsonPath", .str c.path), ("type", .str c.type)]

/-- The column of a condition's status. -/
def ListColumn.ofCondition (type : String) : ListColumn :=
  ⟨type, ".status.conditions[?(@.type=='" ++ type ++ "')].status", "string"⟩

/-- The column of a resource's age. -/
def ListColumn.age : ListColumn := ⟨"Age", ".metadata.creationTimestamp", "date"⟩

/-- The definition of a kind of resource. -/
structure Definition where
  kind : String
  plural : String
  singular : String
  shortName : String
  columns : List ListColumn
  spec : Schema
  status : Schema

namespace Definition

/-- The group of the resources. -/
def group : String := "ollama.dev"

/-- The version of the resources. -/
def version : String := "v1alpha1"

/-- The name of a definition. -/
def name (d : Definition) : String := d.plural ++ "." ++ group

/-- The schema of whole documents. -/
def schema (d : Definition) : Schema :=
  (Schema.record ("Auto-generated derived type for " ++ d.kind ++ "Spec via `CustomResource`")
    [Schema.must "spec" d.spec, Schema.may "status" d.status.nullable]).plus "title" (.str d.kind)

/-- The written form of a definition. -/
def toJson (d : Definition) : Json :=
  let names : Json := .ofMembers [
    ("categories", .arr []), ("kind", .str d.kind), ("plural", .str d.plural),
    ("shortNames", .arr [.str d.shortName]), ("singular", .str d.singular)]
  let served : Json := .ofMembers [
    ("additionalPrinterColumns", .arr (d.columns.map ListColumn.toJson)),
    ("name", .str version),
    ("schema", .ofMembers [("openAPIV3Schema", d.schema.toJson)]),
    ("served", .bool true), ("storage", .bool true),
    ("subresources", .ofMembers [("status", .obj [])])]
  .ofMembers [
    ("apiVersion", .str "apiextensions.k8s.io/v1"), ("kind", .str "CustomResourceDefinition"),
    ("metadata", .ofMembers [("name", .str d.name)]),
    ("spec", .ofMembers [("group", .str group), ("names", names), ("scope", .str "Namespaced"),
      ("versions", .arr [served])])]

end Definition

namespace Schema

/-- The conditions in a status. -/
def conditions : SchemaField :=
  may "conditions" (list "Synced and Ready conditions" (record "Kubernetes-style condition" [
    must "lastTransitionTime" (time "Last time the condition changed value"),
    may "message" (text "Human-readable detail"),
    may "observedGeneration"
      (int64 "Generation of the resource this condition was computed from"),
    must "reason" (text "Machine-readable reason"),
    must "status" (word "True, False or Unknown" ["True", "False", "Unknown"]),
    must "type" (text "Condition type (`Synced` or `Ready`)")]))

/-- The generation in a status. -/
def observedGeneration : SchemaField :=
  may "observedGeneration" ((int64 "Generation last reconciled").defaultsTo (.int 0))

/-- Patches of an object that is made for a model. -/
def patches (note : String) : Schema := nullable (record note [
  may "jsonPatch" (list "RFC 6902 operations" (record "A single RFC 6902 operation" [
    may "from" (nullable (text "Source pointer, required for `move` and `copy`")),
    must "op" (word "Operation kind" ["add", "remove", "replace", "move", "copy", "test"]),
    must "path" (text "RFC 6901 pointer to the target location"),
    may "value" (anything
      "Operand, required for `add`, `replace` and `test`")])),
  may "mergePatch" (anything "RFC 7386 merge patch body"),
  may "strategicMergePatch" (anything
    "Strategic merge patch body (lists merged by their declared merge keys)")])

/-- The specification of a model. -/
def modelSpec : Schema := record "Desired state of a Model" [
  must "model" (text
    "Model identifier as understood by Ollama (e.g. `llama3.1`, `gemma2:2b`)"),
  may "ollamaImage" (nullable (text "Ollama server image, defaults to the pinned release")),
  may "servicePatches" (patches "Patches applied to the generated Service"),
  may "statefulSetPatches" (patches "Patches applied to the generated StatefulSet")]

/-- The status of a model. -/
def modelStatus : Schema := record "Observed state of a Model" [
  conditions,
  may "modelDetails" (nullable
    (record "Metadata reported by the server once the model is pulled" [
      may "families" (list "All families the model belongs to" bareText),
      may "family" (text "e.g. `gemma2`"),
      may "format" (text "e.g. `gguf`"),
      may "parameterSize" (text "e.g. `2.6B`"),
      may "parentModel" (text "Model this one was derived from"),
      may "quantizationLevel" (text "e.g. `Q4_0`")])),
  observedGeneration,
  may "ollamaImage" (nullable (text "Image in use"))]

/-- A key of an object that holds an image. -/
def storeKey (note : String) : Schema := nullable (record note [
  must "key" (text "Key within the object's data"),
  must "name" (text "Object name"),
  may "namespace" (nullable (text "Object namespace, defaults to the Prompt's namespace"))])

/-- An image in a prompt. -/
def image : Schema :=
  record "Where an image's bytes come from. Exactly one source must be set." [
    may "configMapKeyRef" (storeKey "ConfigMap key holding an [`ImageData`] document"),
    may "inline" (nullable (record "Image embedded in the Prompt" [
      must "data" (text "Base64-encoded payload"),
      may "format" ((word "Compression applied to the bytes before base64 encoding"
        ["", "none", "gzip", "zstd"]).defaultsTo (.str "none"))])),
    may "secretKeyRef" (storeKey "Secret key holding an [`ImageData`] document")]

/-- The specification of a prompt. -/
def promptSpec : Schema := record "Desired state of a Prompt" [
  may "context" (nullable (text "Continuation token from a previous Prompt's status")),
  may "images" (list "Images for multimodal models" image),
  must "modelRef" (record "Model to run the prompt against" [
    must "name" (text "Model name"), may "namespace" (nullable (text "Model namespace"))]),
  may "options" (anyObject
    "Model options passed through to the server (e.g. `temperature`)"),
  must "prompt" (text "Prompt text"),
  may "suffix" (nullable (text "Text appended after the model response")),
  may "system" (nullable (text "System prompt override")),
  may "template" (nullable (text "Prompt template override"))]

/-- The measurements in the status of a prompt. -/
def responseMetrics : Schema := record "Response performance metrics" [
  must "evalCount" (int64 "Tokens in the response"),
  must "evalDuration" (text "Time spent generating the response"),
  must "evalRate" (text "Response tokens per second"),
  must "loadDuration" (text "Time spent loading the model"),
  must "promptEvalCount" (int64 "Tokens in the prompt"),
  must "promptEvalDuration" (text "Time spent evaluating the prompt"),
  must "promptEvalRate" (text "Prompt tokens per second"),
  must "totalDuration" (text "Total time spent generating the response")]

/-- The status of a prompt. -/
def promptStatus : Schema := record "Observed state of a Prompt" [
  conditions,
  may "context" (text "Continuation token: base64 of the JSON-encoded context sequence"),
  may "meta" (nullable (record "Response metadata" [
    may "createdAt" (nullable (time "When the server produced the response"))])),
  may "metrics" (nullable responseMetrics),
  observedGeneration,
  may "response" (text "Model response, trimmed of trailing whitespace")]

end Schema

/-- The definition of models. -/
def Definition.model : Definition where
  kind := "Model"
  plural := "models"
  singular := "model"
  shortName := "om"
  columns := [⟨"Model", ".spec.model", "string"⟩, ⟨"Image", ".status.ollamaImage", "string"⟩,
    .ofCondition "Synced", .ofCondition "Ready", .age]
  spec := .modelSpec
  status := .modelStatus

/-- The definition of prompts. -/
def Definition.prompt : Definition where
  kind := "Prompt"
  plural := "prompts"
  singular := "prompt"
  shortName := "op"
  columns := [⟨"Model", ".spec.modelRef.name", "string"⟩,
    .ofCondition "Synced", .ofCondition "Ready", .age]
  spec := .promptSpec
  status := .promptStatus

/-- The definitions of all resources. -/
def definitions : List Definition := [.model, .prompt]

/-- The separator of documents in a text. -/
def documentSeparator : String := "---\n"

/-- The definitions as one text of several documents. -/
def definitionsText : String :=
  documentSeparator.intercalate (definitions.map fun d => d.toJson.yaml)

end ModelOperator
