import ModelOperator.Cluster.Shape

/-!
# Metadata and references

    The metadata every object carries, references between objects and label selectors. -/

namespace ModelOperator

namespace Shape

/-- Members of `ManagedFieldsEntry`. -/
def managedFieldsEntry : Shape := .record "ManagedFieldsEntry" [
  may "apiVersion" .text, may "fieldsType" .text, may "fieldsV1" .any, may "manager" .text,
  may "operation" .text, may "subresource" .text, may "time" .time]

/-- Members of `OwnerReference`. -/
def ownerReference : Shape := .record "OwnerReference" [
  must "apiVersion" .text, may "blockOwnerDeletion" .boolean, may "controller" .boolean,
  must "kind" .text, must "name" .text, must "uid" .text]

/-- Members of `ObjectMeta`. -/
def objectMeta : Shape := .record "ObjectMeta" [
  may "annotations" (.map .text), may "creationTimestamp" .time,
  may "deletionGracePeriodSeconds" .int64, may "deletionTimestamp" .time,
  may "finalizers" (.list .text), may "generateName" .text, may "generation" .int64,
  may "labels" (.map .text), may "managedFields" (.list managedFieldsEntry), may "name" .text,
  may "namespace" .text, may "ownerReferences" (.list ownerReference),
  may "resourceVersion" .text, may "selfLink" .text, may "uid" .text]

/-- Members of `ObjectReference`. -/
def objectReference : Shape := .record "ObjectReference" [
  may "apiVersion" .text, may "fieldPath" .text, may "kind" .text, may "name" .text,
  may "namespace" .text, may "resourceVersion" .text, may "uid" .text]

/-- Members of `LabelSelectorRequirement`. -/
def labelSelectorRequirement : Shape := .record "LabelSelectorRequirement" [
  must "key" .text, must "operator" .text, may "values" (.list .text)]

/-- Members of `LabelSelector`. -/
def labelSelector : Shape := .record "LabelSelector" [
  may "matchExpressions" (.list labelSelectorRequirement), may "matchLabels" (.map .text)]

/-- Members of `LocalObjectReference`. -/
def localObjectReference : Shape := .record "LocalObjectReference" [
  must "name" .text]

/-- Members of `Condition`. -/
def condition : Shape := .record "Condition" [
  must "lastTransitionTime" .time, must "message" .text, may "observedGeneration" .int64,
  must "reason" .text, must "status" .text, must "type" .text]

/-- Members of `TypedLocalObjectReference`. -/
def typedLocalObjectReference : Shape := .record "TypedLocalObjectReference" [
  may "apiGroup" .text, must "kind" .text, must "name" .text]

/-- Members of `TypedObjectReference`. -/
def typedObjectReference : Shape := .record "TypedObjectReference" [
  may "apiGroup" .text, must "kind" .text, must "name" .text, may "namespace" .text]

end Shape

end ModelOperator
