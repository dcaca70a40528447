import ModelOperator.Cluster.Shapes.Pod

/-!
# Stateful sets and deployments

    Objects that keep a number of pods running. -/

namespace ModelOperator

namespace Shape

/-- Members of `StatefulSetOrdinals`. -/
def statefulSetOrdinals : Shape := .record "StatefulSetOrdinals" [
  may "start" .int32]

/-- Members of `StatefulSetPersistentVolumeClaimRetentionPolicy`. -/
def statefulSetPersistentVolumeClaimRetentionPolicy : Shape := .record "StatefulSetPersistentVolumeClaimRetentionPolicy" [
  may "whenDeleted" .text, may "whenScaled" .text]

/-- Members of `RollingUpdateStatefulSetStrategy`. -/
def rollingUpdateStatefulSetStrategy : Shape := .record "RollingUpdateStatefulSetStrategy" [
  may "maxUnavailable" .intOrText, may "partition" .int32]

/-- Members of `StatefulSetUpdateStrategy`. -/
def statefulSetUpdateStrategy : Shape := .record "StatefulSetUpdateStrategy" [
  may "rollingUpdate" rollingUpdateStatefulSetStrategy, may "type" .text]

/-- Members of `StatefulSetSpec`. -/
def statefulSetSpec : Shape := .record "StatefulSetSpec" [
  may "minReadySeconds" .int32, may "ordinals" statefulSetOrdinals,
  may "persistentVolumeClaimRetentionPolicy" statefulSetPersistentVolumeClaimRetentionPolicy,
  may "podManagementPolicy" .text, may "replicas" .int32, may "revisionHistoryLimit" .int32,
  must "selector" labelSelector, may "serviceName" .text, must "template" podTemplateSpec,
  may "updateStrategy" statefulSetUpdateStrategy,
  may "volumeClaimTemplates" (.list persistentVolumeClaim)]

/-- Members of `StatefulSetCondition`. -/
def statefulSetCondition : Shape := .record "StatefulSetCondition" [
  may "lastTransitionTime" .time, may "message" .text, may "reason" .text, must "status" .text,
  must "type" .text]

/-- Members of `StatefulSetStatus`. -/
def statefulSetStatus : Shape := .record "StatefulSetStatus" [
  may "availableReplicas" .int32, may "collisionCount" .int32,
  may "conditions" (.list statefulSetCondition), may "currentReplicas" .int32,
  may "currentRevision" .text, may "observedGeneration" .int64, may "readyReplicas" .int32,
  must "replicas" .int32, may "updateRevision" .text, may "updatedReplicas" .int32]

/-- Members of `StatefulSet`. -/
def statefulSet : Shape := .record "StatefulSet" [
  must "apiVersion" (.constant "apps/v1"), must "kind" (.constant "StatefulSet"),
  must "metadata" objectMeta, may "spec" statefulSetSpec, may "status" statefulSetStatus]

/-- Members of `RollingUpdateDeployment`. -/
def rollingUpdateDeployment : Shape := .record "RollingUpdateDeployment" [
  may "maxSurge" .intOrText, may "maxUnavailable" .intOrText]

/-- Members of `DeploymentStrategy`. -/
def deploymentStrategy : Shape := .record "DeploymentStrategy" [
  may "rollingUpdate" rollingUpdateDeployment, may "type" .text]

/-- Members of `DeploymentSpec`. -/
def deploymentSpec : Shape := .record "DeploymentSpec" [
  may "minReadySeconds" .int32, may "paused" .boolean, may "progressDeadlineSeconds" .int32,
  may "replicas" .int32, may "revisionHistoryLimit" .int32, must "selector" labelSelector,
  may "strategy" deploymentStrategy, must "template" podTemplateSpec]

/-- Members of `DeploymentCondition`. -/
def deploymentCondition : Shape := .record "DeploymentCondition" [
  may "lastTransitionTime" .time, may "lastUpdateTime" .time, may "message" .text,
  may "reason" .text, must "status" .text, must "type" .text]

/-- Members of `DeploymentStatus`. -/
def deploymentStatus : Shape := .record "DeploymentStatus" [
  may "availableReplicas" .int32, may "collisionCount" .int32,
  may "conditions" (.list deploymentCondition), may "observedGeneration" .int64,
  may "readyReplicas" .int32, may "replicas" .int32, may "terminatingReplicas" .int32,
  may "unavailableReplicas" .int32, may "updatedReplicas" .int32]

/-- Members of `Deployment`. -/
def deployment : Shape := .record "Deployment" [
  must "apiVersion" (.constant "apps/v1"), must "kind" (.constant "Deployment"),
  must "metadata" objectMeta, may "spec" deploymentSpec, may "status" deploymentStatus]

end Shape

end ModelOperator
