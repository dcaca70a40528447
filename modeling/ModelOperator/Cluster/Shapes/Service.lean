import ModelOperator.Cluster.Shapes.Workload

/-!
# Services

    Stable addresses in front of pods. -/

namespace ModelOperator

namespace Shape

/-- Members of `ServicePort`. -/
def servicePort : Shape := .record "ServicePort" [
  may "appProtocol" .text, may "name" .text, may "nodePort" .int32, must "port" .int32,
  may "protocol" .text, may "targetPort" .intOrText]

/-- Members of `ClientIPConfig`. -/
def clientIPConfig : Shape := .record "ClientIPConfig" [
  may "timeoutSeconds" .int32]

/-- Members of `SessionAffinityConfig`. -/
def sessionAffinityConfig : Shape := .record "SessionAffinityConfig" [
  may "clientIP" clientIPConfig]

/-- Members of `ServiceSpec`. -/
def serviceSpec : Shape := .record "ServiceSpec" [
  may "allocateLoadBalancerNodePorts" .boolean, may "clusterIP" .text,
  may "clusterIPs" (.list .text), may "externalIPs" (.list .text), may "externalName" .text,
  may "externalTrafficPolicy" .text, may "healthCheckNodePort" .int32,
  may "internalTrafficPolicy" .text, may "ipFamilies" (.list .text),
  may "ipFamilyPolicy" .text, may "loadBalancerClass" .text, may "loadBalancerIP" .text,
  may "loadBalancerSourceRanges" (.list .text), may "ports" (.list servicePort),
  may "publishNotReadyAddresses" .boolean, may "selector" (.map .text),
  may "sessionAffinity" .text, may "sessionAffinityConfig" sessionAffinityConfig,
  may "trafficDistribution" .text, may "type" .text]

/-- Members of `PortStatus`. -/
def portStatus : Shape := .record "PortStatus" [
  may "error" .text, must "port" .int32, must "protocol" .text]

/-- Members of `LoadBalancerIngress`. -/
def loadBalancerIngress : Shape := .record "LoadBalancerIngress" [
  may "hostname" .text, may "ip" .text, may "ipMode" .text, may "ports" (.list portStatus)]

/-- Members of `LoadBalancerStatus`. -/
def loadBalancerStatus : Shape := .record "LoadBalancerStatus" [
  may "ingress" (.list loadBalancerIngress)]

/-- Members of `ServiceStatus`. -/
def serviceStatus : Shape := .record "ServiceStatus" [
  may "conditions" (.list condition), may "loadBalancer" loadBalancerStatus]

/-- Members of `Service`. -/
def service : Shape := .record "Service" [
  must "apiVersion" (.constant "v1"), must "kind" (.constant "Service"),
  must "metadata" objectMeta, may "spec" serviceSpec, may "status" serviceStatus]

end Shape

end ModelOperator
