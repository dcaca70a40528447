import ModelOperator.Cluster.Shapes.Service

/-!
# Configuration maps and secrets

    Objects that hold data by key. -/

namespace ModelOperator

namespace Shape

/-- Members of `ConfigMap`. -/
def configMap : Shape := .record "ConfigMap" [
  must "apiVersion" (.constant "v1"), may "binaryData" (.map .bytes), may "data" (.map .text),
  may "immutable" .boolean, must "kind" (.constant "ConfigMap"), must "metadata" objectMeta]

/-- Members of `Secret`. -/
def secret : Shape := .record "Secret" [
  must "apiVersion" (.constant "v1"), may "data" (.map .bytes), may "immutable" .boolean,
  must "kind" (.constant "Secret"), must "metadata" objectMeta, may "stringData" (.map .text),
  may "type" .text]

end Shape

end ModelOperator
