import ModelOperator.Cluster.Shapes.Meta

/-!
# Definitions of further kinds

    A definition tells the cluster of a kind of object that it does not know by itself. -/

namespace ModelOperator

namespace Shape

/-- Members of `CustomResourceDefinitionNames`. -/
def definitionNames : Shape := .record "CustomResourceDefinitionNames" [
  may "categories" (.list .text), must "kind" .text, may "listKind" .text,
  must "plural" .text, may "shortNames" (.list .text), may "singular" .text]

/-- Members of `WebhookConversion`. -/
def webhookConversion : Shape := .record "WebhookConversion" [
  may "clientConfig" (.record "WebhookClientConfig" [
    may "caBundle" .bytes,
    may "service" (.record "ServiceReference" [
      must "name" .text, must "namespace" .text, may "path" .text, may "port" .int32]),
    may "url" .text]),
  must "conversionReviewVersions" (.list .text)]

/-- Members of `CustomResourceDefinitionVersion`. -/
def definitionVersion : Shape := .record "CustomResourceDefinitionVersion" [
  may "additionalPrinterColumns" (.list (.record "CustomResourceColumnDefinition" [
    may "description" .text, may "format" .text, must "jsonPath" .text, must "name" .text,
    may "priority" .int32, must "type" .text])),
  may "deprecated" .boolean, may "deprecationWarning" .text, must "name" .text,
  may "schema" (.record "CustomResourceValidation" [may "openAPIV3Schema" .any]),
  may "selectableFields" (.list (.record "SelectableField" [must "jsonPath" .text])),
  must "served" .boolean, must "storage" .boolean,
  may "subresources" (.record "CustomResourceSubresources" [
    may "scale" (.record "CustomResourceSubresourceScale" [
      may "labelSelectorPath" .text, must "specReplicasPath" .text,
      must "statusReplicasPath" .text]),
    may "status" .any])]

/-- Members of `CustomResourceDefinitionStatus`. -/
def definitionStatus : Shape := .record "CustomResourceDefinitionStatus" [
  may "acceptedNames" definitionNames,
  may "conditions" (.list (.record "CustomResourceDefinitionCondition" [
    may "lastTransitionTime" .time, may "message" .text, may "reason" .text,
    must "status" .text, must "type" .text])),
  may "storedVersions" (.list .text)]

/-- Members of `CustomResourceDefinition`. -/
def definition : Shape := .record "CustomResourceDefinition" [
  must "apiVersion" (.constant "apiextensions.k8s.io/v1"),
  must "kind" (.constant "CustomResourceDefinition"), must "metadata" objectMeta,
  must "spec" (.record "CustomResourceDefinitionSpec" [
    may "conversion" (.record "CustomResourceConversion" [
      must "strategy" .text, may "webhook" webhookConversion]),
    must "group" .text, must "names" definitionNames, may "preserveUnknownFields" .boolean,
    must "scope" .text, must "versions" (.list definitionVersion)]),
  may "status" definitionStatus]

end Shape

end ModelOperator
