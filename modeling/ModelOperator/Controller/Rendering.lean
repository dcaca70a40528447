import ModelOperator.Patch.Apply
import ModelOperator.Resource.Model

/-!
# Objects made for a model

    For each model the operator keeps one stateful set with a single server and one
    service in front of it.  Both are made from the model and then patched as the model
    says.

    * `Rendering.statefulSet` and `Rendering.service` are the objects before patches;
    * `Model.render` is both with their patches, or the first patch that fails. -/

namespace ModelOperator

namespace Rendering

/-- The name of the server's container. -/
def containerName : String := "ollama"

/-- Where the server keeps its models. -/
def dataPath : String := "/root/.ollama"

/-- The size of the volume for them. -/
def volumeSize : String := "20Gi"

/-- A member with a text, if there is one. -/
def textMember (name : String) (value : Option String) : String × Option Json :=
  (name, value.map .str)

/-- The reference by which an object names its model as its owner; a model without name
    or identity owns nothing. -/
def ownerReference? (m : Model) : Option Json := do
  let name ← m.metadata.name?
  let uid ← m.metadata.uid?
  some (.ofMembers [("apiVersion", .str Naming.apiVersion), ("kind", .str "Model"),
    ("name", .str name), ("uid", .str uid), ("controller", .bool true),
    ("blockOwnerDeletion", .bool true)])

/-- The metadata of an object made for a model. -/
def metadata (m : Model) : Json :=
  .ofPresent [("name", some (.str m.metadata.nameAny)),
    textMember "namespace" m.metadata.namespace?,
    ("labels", some (.obj (Naming.modelLabels m.metadata.nameAny))),
    ("ownerReferences", (ownerReference? m).map fun r => .arr [r])]

/-- A probe of the server's root page. -/
def probe (port : Json) : Json :=
  .ofMembers [("initialDelaySeconds", .int 10), ("periodSeconds", .int 5),
    ("failureThreshold", .int 3),
    ("httpGet", .ofMembers [("path", .str "/"), ("port", port)])]

/-- A variable of the container. -/
def envVariable (name value : String) : Json :=
  .ofMembers [("name", .str name), ("value", .str value)]

/-- The name of the volume for a model's data. -/
def volumeName (m : Model) : String := m.metadata.nameAny ++ "-ollama-root"

/-- The server's container. -/
def container (m : Model) : Json :=
  .ofMembers [("name", .str containerName), ("image", .str m.spec.effectiveImage),
    ("imagePullPolicy", .str "IfNotPresent"),
    ("ports", .arr [.ofMembers [("name", .str Naming.portName),
      ("containerPort", .int Naming.port), ("protocol", .str "TCP")]]),
    ("env", .arr [envVariable "OLLAMA_KEEP_ALIVE" "-1", envVariable "OLLAMA_MAX_LOADED_MODELS" "1",
      envVariable "OLLAMA_DEBUG" "false"]),
    ("livenessProbe", probe (.str Naming.portName)),
    ("readinessProbe", probe (.int Naming.port)),
    ("volumeMounts", .arr [.ofMembers [("name", .str (volumeName m)),
      ("mountPath", .str dataPath)]])]

/-- The claim on storage for a model's data. -/
def volumeClaim (m : Model) : Json :=
  .ofMembers [("apiVersion", .str "v1"), ("kind", .str "PersistentVolumeClaim"),
    ("metadata", .ofPresent [("name", some (.str (volumeName m))),
      textMember "namespace" m.metadata.namespace?]),
    ("spec", .ofMembers [("accessModes", .arr [.str "ReadWriteOnce"]),
      ("resources", .ofMembers [("requests", .ofMembers [("storage", .str volumeSize)])])])]

/-- The pods of the stateful set. -/
def podTemplate (m : Model) : Json :=
  .ofMembers [
    ("metadata", .ofMembers [("labels", .obj (Naming.modelLabels m.metadata.nameAny)),
      ("annotations", .ofMembers
        [("kubectl.kubernetes.io/default-container", .str containerName)])]),
    ("spec", .ofMembers [("containers", .arr [container m])])]

/-- The stateful set of a model before patches. -/
def statefulSet (m : Model) : Json :=
  .ofMembers [("apiVersion", .str "apps/v1"), ("kind", .str "StatefulSet"),
    ("metadata", metadata m),
    ("spec", .ofMembers [("replicas", .int 1), ("minReadySeconds", .int 10),
      ("serviceName", .str m.metadata.nameAny),
      ("selector", .ofMembers [("matchLabels", .obj (Naming.modelLabels m.metadata.nameAny))]),
      ("volumeClaimTemplates", .arr [volumeClaim m]),
      ("template", podTemplate m)])]

/-- The service of a model before patches. -/
def service (m : Model) : Json :=
  .ofMembers [("apiVersion", .str "v1"), ("kind", .str "Service"), ("metadata", metadata m),
    ("spec", .ofMembers [("type", .str "ClusterIP"),
      ("selector", .obj (Naming.modelLabels m.metadata.nameAny)),
      ("ports", .arr [.ofMembers [("name", .str Naming.portName), ("port", .int Naming.port),
        ("targetPort", .str Naming.portName), ("protocol", .str "TCP")]])])]

end Rendering

/-- The objects of a model, patched. -/
structure Rendered where
  statefulSet : Json
  service : Json

/-- A patch that fails, the object it was for, and what the library says that reads the pointers
    of operations, if it is the one to refuse. -/
structure RenderFault where
  object : String
  source : Patch.Error
  detail : String := "invalid pointer"
  deriving DecidableEq, Repr

/-- The message of a failed patch. -/
def RenderFault.message (f : RenderFault) : String :=
  s!"while rendering {f.object}: {f.source.message f.detail}"

/-- Both objects of a model with their patches. -/
def Model.render (m : Model) : Except RenderFault Rendered :=
  match Patches.apply .statefulSet (Rendering.statefulSet m) m.spec.statefulSetPatches with
  | .error e => .error { object := "statefulset", source := e }
  | .ok statefulSet =>
    match Patches.apply .service (Rendering.service m) m.spec.servicePatches with
    | .error e => .error { object := "service", source := e }
    | .ok service => .ok ⟨statefulSet, service⟩

end ModelOperator
