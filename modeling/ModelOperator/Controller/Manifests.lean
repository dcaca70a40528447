import ModelOperator.Controller.ModelPass
import ModelOperator.Resource.Manifest
import ModelOperator.Yaml.Printer

/-!
# Manifests without a cluster

    `renderManifests` turns the text of a model into the text of the two objects that the
    operator would apply for it.  A model without a namespace is put into `default`. -/

namespace ModelOperator

/-- Why a text gives no manifests. -/
inductive ManifestError where
  | unreadable
  | model (error : ModelError)

/-- The message of an error. -/
def ManifestError.message : ManifestError → String
  | .unreadable => "failed to parse Model"
  | .model error => error.message

/-- The namespace of a model that names none. -/
def defaultNamespace : String := "default"

/-- The model in a namespace: its own, unless that is missing or empty. -/
def Model.withNamespace (m : Model) : Model :=
  if m.metadata.namespace?.getD "" = "" then
    { m with metadata :=
      ⟨Members.insert "namespace" (.str defaultNamespace) m.metadata.members⟩ }
  else m

/-- The manifests of the objects of the model that a text describes. -/
def renderManifests (text : String) : Except ManifestError String :=
  match Model.ofText? text with
  | none => .error .unreadable
  | some model =>
    match model.withNamespace.render with
    | .error fault => .error (.model (.render fault))
    | .ok rendered => .ok (rendered.statefulSet.yaml ++ "---\n" ++ rendered.service.yaml)

end ModelOperator
