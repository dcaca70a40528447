import ModelOperator.Cluster.Shapes.Workload
import ModelOperator.Cluster.Shapes.Service
import ModelOperator.Cluster.Shapes.Data
import ModelOperator.Cluster.Quantity
import ModelOperator.Patch.Error

/-!
# Patch targets

    What a patch may be applied to: one of five typed objects, whose documents are read
    by their shape, an object of any kind with metadata, or any document at all.

    * `Target.read` reads a document of a target and writes it again;
    * a typed target first turns numbers among resource amounts into texts, as in
      `Quantity.toTexts`, since amounts may be written either way. -/

namespace ModelOperator

namespace Patch

/-- The version and kind of a typed object. -/
structure TypeTag where
  apiVersion : String
  kind : String
  deriving DecidableEq, Repr

/-- The text of a tag. -/
def TypeTag.text (t : TypeTag) : String := t.apiVersion ++ "/" ++ t.kind

/-- What a patch applies to. -/
inductive Target where
  | statefulSet
  | deployment
  | service
  | pod
  | configMap
  | dynamicObject
  | value
  deriving DecidableEq, Repr

namespace Target

/-- The full type name in messages. -/
def typeName : Target → String
  | statefulSet => "k8s_openapi::v1_33::api::apps::v1::stateful_set::StatefulSet"
  | deployment => "k8s_openapi::v1_33::api::apps::v1::deployment::Deployment"
  | service => "k8s_openapi::v1_33::api::core::v1::service::Service"
  | pod => "k8s_openapi::v1_33::api::core::v1::pod::Pod"
  | configMap => "k8s_openapi::v1_33::api::core::v1::config_map::ConfigMap"
  | dynamicObject => "kube_core::dynamic::DynamicObject"
  | value => "serde_json::value::Value"

/-- The tag of a typed target. -/
def tag? : Target → Option TypeTag
  | statefulSet => some ⟨"apps/v1", "StatefulSet"⟩
  | deployment => some ⟨"apps/v1", "Deployment"⟩
  | service => some ⟨"v1", "Service"⟩
  | pod => some ⟨"v1", "Pod"⟩
  | configMap => some ⟨"v1", "ConfigMap"⟩
  | dynamicObject => none
  | value => none

/-- The shape of a typed target. -/
def shape? : Target → Option Shape
  | statefulSet => some Shape.statefulSet
  | deployment => some Shape.deployment
  | service => some Shape.service
  | pod => some Shape.pod
  | configMap => some Shape.configMap
  | dynamicObject => none
  | value => none

/-- Whether documents are read by a shape that knows their members. -/
def isTyped (t : Target) : Bool := t.tag?.isSome

/-- An object of any kind, read and written again: version and kind stay only if both are
    texts, and metadata is always there. -/
def normalizeDynamic : Reader Json
  | .obj members =>
    let metadata := (Members.get? "metadata" members).getD (.obj [])
    match Shape.normalize Shape.objectMeta metadata with
    | .error e => .error e
    | .ok metadata =>
      let others := Members.insert "metadata" metadata members
      .ok (.obj (match Members.get? "apiVersion" members, Members.get? "kind" members with
        | some (.str _), some (.str _) => others
        | some (.str _), _ => Members.erase "kind" (Members.erase "apiVersion" others)
        | some _, _ => Members.erase "apiVersion" others
        | none, _ => Members.erase "kind" others))
  | v => Mismatch.notA "struct DynamicObject" v

/-- A document of the target, read as it stands and written again. -/
def normalize (t : Target) (doc : Json) : Reading Json :=
  match t.shape? with
  | some shape => Shape.normalize shape doc
  | none =>
    match t with
    | dynamicObject => normalizeDynamic doc
    | _ => .ok doc

/-- A patched document, read back into the target; amounts may be numbers. -/
def read (t : Target) (stage : Stage) (doc : Json) : Except Error Json :=
  match t.normalize (if t.isTyped then Quantity.toTexts doc else doc) with
  | .ok v => .ok v
  | .error fault => .error (.undecodable stage t.typeName fault.message)

end Target

end Patch

end ModelOperator
