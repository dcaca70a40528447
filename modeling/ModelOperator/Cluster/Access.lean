import ModelOperator.Cluster.Exchange
import ModelOperator.Cluster.Shapes.Coordination
import ModelOperator.Cluster.Shapes.Definition
import ModelOperator.Cluster.Shapes.Service
import ModelOperator.Cluster.Shapes.Workload
import ModelOperator.Resource.Definition
import ModelOperator.Resource.Model
import ModelOperator.Resource.Prompt

/-!
# What the operator asks of the cluster

    The objects made for a model are applied: the operator owns the fields that it sends.
    A status is written as a merge that carries the version that was read, so that the
    write fails if another writer came first.

    * `Access.applyStatefulSet`, `applyService` and `installDefinitions` apply objects;
    * `Access.patchModelStatus` and `patchPromptStatus` write a status;
    * `Access.find` looks an object up, and finds none if the server says `NotFound`. -/

namespace ModelOperator

namespace Access

/-- Only whether a call succeeded. -/
def outcome {α : Type} (x : Exchange (Except CallError α)) :
    Exchange (Except ClusterError Unit) := do
  match ← x with
  | .ok _ => return .ok ()
  | .error e => return .error (.call e)

/-- The metadata of a written object. -/
def metadataOf (object : Json) : Metadata :=
  ⟨((object.get? "metadata").bind Json.asMembers?).getD []⟩

/-- Applies an object in its namespace. -/
def apply (kind : ObjectKind) (shape : Shape) (object : Json) :
    Exchange (Except ClusterError Unit) :=
  let metadata := metadataOf object
  match metadata.namespace? with
  | none => return .error (.invalid metadata.nameAny "rendered object has no namespace")
  | some ns =>
    outcome (Exchange.call
      ((kind.within ns).patchRequest metadata.nameAny "" .apply
        ⟨some Naming.fieldManager, true⟩ object)
      shape.decoder)

/-- Applies a stateful set. -/
def applyStatefulSet (object : Json) : Exchange (Except ClusterError Unit) :=
  apply .statefulSets Shape.statefulSet object

/-- Applies a service. -/
def applyService (object : Json) : Exchange (Except ClusterError Unit) :=
  apply .services Shape.service object

/-- The body that writes a status over the version that was read. -/
def statusPatch (metadata : Metadata) (status : Option Json) : Json :=
  .ofMembers [
    ("metadata", .ofMembers [("resourceVersion", Json.ofText? metadata.resourceVersion?)]),
    ("status", Json.orNull status)]

/-- Writes the status of an object. -/
def patchStatus {α : Type} (kind : ObjectKind) (noun manager : String) (decoder : Decoder α)
    (metadata : Metadata) (status : Option Json) : Exchange (Except ClusterError Unit) :=
  match metadata.namespace? with
  | none => return .error (.invalid metadata.nameAny (noun ++ " must be namespaced"))
  | some ns =>
    outcome (Exchange.call
      ((kind.within ns).patchRequest metadata.nameAny "/status" .merge ⟨some manager, false⟩
        (statusPatch metadata status))
      decoder)

/-- Writes the status of a model. -/
def patchModelStatus (m : Model) : Exchange (Except ClusterError Unit) :=
  patchStatus .models "Model" Naming.fieldManager Model.decoder m.metadata
    (m.status.map ModelStatus.toJson)

/-- Writes the status of a prompt. -/
def patchPromptStatus (p : Prompt) : Exchange (Except ClusterError Unit) :=
  patchStatus .prompts "Prompt" Naming.promptFieldManager Prompt.decoder p.metadata
    (p.status.map PromptStatus.toJson)

/-- Whether a failure says that the object does not exist. -/
def saysNotFound : CallError → Bool
  | .api s => s.reason == "NotFound"
  | _ => false

/-- Looks an object up. -/
def find {α : Type} (kind : ObjectKind) (decoder : Decoder α) (ns name : String) :
    Exchange (Except ClusterError (Option α)) := do
  match ← Exchange.call ((kind.within ns).getRequest name) decoder with
  | .ok a => return .ok (some a)
  | .error e => return if saysNotFound e then .ok none else .error (.call e)

/-- Looks a stateful set up. -/
def getStatefulSet : String → String → Exchange (Except ClusterError (Option Json)) :=
  find .statefulSets Shape.statefulSet.decoder

/-- Looks a config map up. -/
def getConfigMap : String → String → Exchange (Except ClusterError (Option Json)) :=
  find .configMaps Shape.configMap.decoder

/-- Looks a secret up. -/
def getSecret : String → String → Exchange (Except ClusterError (Option Json)) :=
  find .secrets Shape.secret.decoder

/-- Looks a model up. -/
def getModel : String → String → Exchange (Except ClusterError (Option Model)) :=
  find .models Model.decoder

/-- A definition that could not be installed. -/
structure InstallFailure where
  name : String
  cause : CallError

/-- The message of a failure to install. -/
def InstallFailure.message (f : InstallFailure) : String :=
  "Failed to install " ++ f.name ++ " CRD: " ++ f.cause.message

/-- Installs definitions one by one; the first failure ends it. -/
def install : List Definition → Exchange (Except InstallFailure Unit)
  | [] => return .ok ()
  | d :: rest => do
    match ← Exchange.call
        (Collection.patchRequest ⟨.definitions, none⟩ d.name "" .apply
          ⟨some Naming.fieldManager, true⟩ d.toJson)
        Shape.definition.decoder with
    | .ok _ => install rest
    | .error e => return .error ⟨d.name, e⟩

/-- Installs the definitions of all resources. -/
def installDefinitions : Exchange (Except InstallFailure Unit) := install definitions

end Access

end ModelOperator
