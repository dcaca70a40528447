import ModelOperator.Json.Value

/-!
# Names that the operator uses

    The image, port and labels of the servers it runs, and the names under which it
    writes to the cluster. -/

namespace ModelOperator

namespace Naming

/-- The server image when a model names none. -/
def defaultImage : String := "ollama/ollama:0.3.3"

/-- The port of the server's interface. -/
def port : Int := 11434

/-- The name of that port on pods and services. -/
def portName : String := "http-api"

/-- Under this name models and their objects are written. -/
def fieldManager : String := "ollama-operator"

/-- Under this name the status of prompts is written. -/
def promptFieldManager : String := "ollama-operator.prompt-controller"

/-- The group and version of the operator's own resources. -/
def apiVersion : String := "ollama.dev/v1alpha1"

/-- The labels of every object made for a model. -/
def modelLabels (model : String) : Members :=
  [("app.kubernetes.io/managed-by", .str "ollama-operator"),
    ("app.kubernetes.io/name", .str model), ("ollama.dev/model", .str model)]

end Naming

end ModelOperator
