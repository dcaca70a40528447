import ModelOperator.Cluster.Shapes.Container

/-!
# Pods

    Pods, their scheduling and their status. -/

namespace ModelOperator

namespace Shape

/-- Members of `NodeSelectorRequirement`. -/
def nodeSelectorRequirement : Shape := .record "NodeSelectorRequirement" [
  must "key" .text, must "operator" .text, may "values" (.list .text)]

/-- Members of `NodeSelectorTerm`. -/
def nodeSelectorTerm : Shape := .record "NodeSelectorTerm" [
  may "matchExpressions" (.list nodeSelectorRequirement),
  may "matchFields" (.list nodeSelectorRequirement)]

/-- Members of `PreferredSchedulingTerm`. -/
def preferredSchedulingTerm : Shape := .record "PreferredSchedulingTerm" [
  must "preference" nodeSelectorTerm, must "weight" .int32]

/-- Members of `NodeSelector`. -/
def nodeSelector : Shape := .record "NodeSelector" [
  must "nodeSelectorTerms" (.list nodeSelectorTerm)]

/-- Members of `NodeAffinity`. -/
def nodeAffinity : Shape := .record "NodeAffinity" [
  may "preferredDuringSchedulingIgnoredDuringExecution" (.list preferredSchedulingTerm),
  may "requiredDuringSchedulingIgnoredDuringExecution" nodeSelector]

/-- Members of `PodAffinityTerm`. -/
def podAffinityTerm : Shape := .record "PodAffinityTerm" [
  may "labelSelector" labelSelector, may "matchLabelKeys" (.list .text),
  may "mismatchLabelKeys" (.list .text), may "namespaceSelector" labelSelector,
  may "namespaces" (.list .text), must "topologyKey" .text]

/-- Members of `WeightedPodAffinityTerm`. -/
def weightedPodAffinityTerm : Shape := .record "WeightedPodAffinityTerm" [
  must "podAffinityTerm" podAffinityTerm, must "weight" .int32]

/-- Members of `PodAffinity`. -/
def podAffinity : Shape := .record "PodAffinity" [
  may "preferredDuringSchedulingIgnoredDuringExecution" (.list weightedPodAffinityTerm),
  may "requiredDuringSchedulingIgnoredDuringExecution" (.list podAffinityTerm)]

/-- Members of `PodAntiAffinity`. -/
def podAntiAffinity : Shape := .record "PodAntiAffinity" [
  may "preferredDuringSchedulingIgnoredDuringExecution" (.list weightedPodAffinityTerm),
  may "requiredDuringSchedulingIgnoredDuringExecution" (.list podAffinityTerm)]

/-- Members of `Affinity`. -/
def affinity : Shape := .record "Affinity" [
  may "nodeAffinity" nodeAffinity, may "podAffinity" podAffinity,
  may "podAntiAffinity" podAntiAffinity]

/-- Members of `PodDNSConfigOption`. -/
def podDNSConfigOption : Shape := .record "PodDNSConfigOption" [
  may "name" .text, may "value" .text]

/-- Members of `PodDNSConfig`. -/
def podDNSConfig : Shape := .record "PodDNSConfig" [
  may "nameservers" (.list .text), may "options" (.list podDNSConfigOption),
  may "searches" (.list .text)]

/-- Members of `HostAlias`. -/
def hostAlias : Shape := .record "HostAlias" [
  may "hostnames" (.list .text), must "ip" .text]

/-- Members of `PodOS`. -/
def podOS : Shape := .record "PodOS" [
  must "name" .text]

/-- Members of `PodReadinessGate`. -/
def podReadinessGate : Shape := .record "PodReadinessGate" [
  must "conditionType" .text]

/-- Members of `PodResourceClaim`. -/
def podResourceClaim : Shape := .record "PodResourceClaim" [
  must "name" .text, may "resourceClaimName" .text, may "resourceClaimTemplateName" .text]

/-- Members of `PodSchedulingGate`. -/
def podSchedulingGate : Shape := .record "PodSchedulingGate" [
  must "name" .text]

/-- Members of `Sysctl`. -/
def sysctl : Shape := .record "Sysctl" [
  must "name" .text, must "value" .text]

/-- Members of `PodSecurityContext`. -/
def podSecurityContext : Shape := .record "PodSecurityContext" [
  may "appArmorProfile" appArmorProfile, may "fsGroup" .int64, may "fsGroupChangePolicy" .text,
  may "runAsGroup" .int64, may "runAsNonRoot" .boolean, may "runAsUser" .int64,
  may "seLinuxChangePolicy" .text, may "seLinuxOptions" seLinuxOptions,
  may "seccompProfile" seccompProfile, may "supplementalGroups" (.list .int64),
  may "supplementalGroupsPolicy" .text, may "sysctls" (.list sysctl),
  may "windowsOptions" windowsSecurityContextOptions]

/-- Members of `Toleration`. -/
def toleration : Shape := .record "Toleration" [
  may "effect" .text, may "key" .text, may "operator" .text, may "tolerationSeconds" .int64,
  may "value" .text]

/-- Members of `TopologySpreadConstraint`. -/
def topologySpreadConstraint : Shape := .record "TopologySpreadConstraint" [
  may "labelSelector" labelSelector, may "matchLabelKeys" (.list .text), must "maxSkew" .int32,
  may "minDomains" .int32, may "nodeAffinityPolicy" .text, may "nodeTaintsPolicy" .text,
  must "topologyKey" .text, must "whenUnsatisfiable" .text]

/-- Members of `PodSpec`. -/
def podSpec : Shape := .record "PodSpec" [
  may "activeDeadlineSeconds" .int64, may "affinity" affinity,
  may "automountServiceAccountToken" .boolean, must "containers" (.list container),
  may "dnsConfig" podDNSConfig, may "dnsPolicy" .text, may "enableServiceLinks" .boolean,
  may "ephemeralContainers" (.list ephemeralContainer), may "hostAliases" (.list hostAlias),
  may "hostIPC" .boolean, may "hostNetwork" .boolean, may "hostPID" .boolean,
  may "hostUsers" .boolean, may "hostname" .text,
  may "imagePullSecrets" (.list localObjectReference), may "initContainers" (.list container),
  may "nodeName" .text, may "nodeSelector" (.map .text), may "os" podOS,
  may "overhead" (.map .text), may "preemptionPolicy" .text, may "priority" .int32,
  may "priorityClassName" .text, may "readinessGates" (.list podReadinessGate),
  may "resourceClaims" (.list podResourceClaim), may "resources" resourceRequirements,
  may "restartPolicy" .text, may "runtimeClassName" .text, may "schedulerName" .text,
  may "schedulingGates" (.list podSchedulingGate), may "securityContext" podSecurityContext,
  may "serviceAccount" .text, may "serviceAccountName" .text, may "setHostnameAsFQDN" .boolean,
  may "shareProcessNamespace" .boolean, may "subdomain" .text,
  may "terminationGracePeriodSeconds" .int64, may "tolerations" (.list toleration),
  may "topologySpreadConstraints" (.list topologySpreadConstraint),
  may "volumes" (.list volume)]

/-- Members of `PodCondition`. -/
def podCondition : Shape := .record "PodCondition" [
  may "lastProbeTime" .time, may "lastTransitionTime" .time, may "message" .text,
  may "observedGeneration" .int64, may "reason" .text, must "status" .text, must "type" .text]

/-- Members of `ResourceHealth`. -/
def resourceHealth : Shape := .record "ResourceHealth" [
  may "health" .text, must "resourceID" .text]

/-- Members of `ResourceStatus`. -/
def resourceStatus : Shape := .record "ResourceStatus" [
  must "name" .text, may "resources" (.list resourceHealth)]

/-- Members of `ContainerStateRunning`. -/
def containerStateRunning : Shape := .record "ContainerStateRunning" [
  may "startedAt" .time]

/-- Members of `ContainerStateTerminated`. -/
def containerStateTerminated : Shape := .record "ContainerStateTerminated" [
  may "containerID" .text, must "exitCode" .int32, may "finishedAt" .time, may "message" .text,
  may "reason" .text, may "signal" .int32, may "startedAt" .time]

/-- Members of `ContainerStateWaiting`. -/
def containerStateWaiting : Shape := .record "ContainerStateWaiting" [
  may "message" .text, may "reason" .text]

/-- Members of `ContainerState`. -/
def containerState : Shape := .record "ContainerState" [
  may "running" containerStateRunning, may "terminated" containerStateTerminated,
  may "waiting" containerStateWaiting]

/-- Members of `LinuxContainerUser`. -/
def linuxContainerUser : Shape := .record "LinuxContainerUser" [
  must "gid" .int64, may "supplementalGroups" (.list .int64), must "uid" .int64]

/-- Members of `ContainerUser`. -/
def containerUser : Shape := .record "ContainerUser" [
  may "linux" linuxContainerUser]

/-- Members of `VolumeMountStatus`. -/
def volumeMountStatus : Shape := .record "VolumeMountStatus" [
  must "mountPath" .text, must "name" .text, may "readOnly" .boolean,
  may "recursiveReadOnly" .text]

/-- Members of `ContainerStatus`. -/
def containerStatus : Shape := .record "ContainerStatus" [
  may "allocatedResources" (.map .text), may "allocatedResourcesStatus" (.list resourceStatus),
  may "containerID" .text, must "image" .text, must "imageID" .text,
  may "lastState" containerState, must "name" .text, must "ready" .boolean,
  may "resources" resourceRequirements, must "restartCount" .int32, may "started" .boolean,
  may "state" containerState, may "stopSignal" .text, may "user" containerUser,
  may "volumeMounts" (.list volumeMountStatus)]

/-- Members of `HostIP`. -/
def hostIP : Shape := .record "HostIP" [
  must "ip" .text]

/-- Members of `PodIP`. -/
def podIP : Shape := .record "PodIP" [
  must "ip" .text]

/-- Members of `PodResourceClaimStatus`. -/
def podResourceClaimStatus : Shape := .record "PodResourceClaimStatus" [
  must "name" .text, may "resourceClaimName" .text]

/-- Members of `PodStatus`. -/
def podStatus : Shape := .record "PodStatus" [
  may "conditions" (.list podCondition), may "containerStatuses" (.list containerStatus),
  may "ephemeralContainerStatuses" (.list containerStatus), may "hostIP" .text,
  may "hostIPs" (.list hostIP), may "initContainerStatuses" (.list containerStatus),
  may "message" .text, may "nominatedNodeName" .text, may "observedGeneration" .int64,
  may "phase" .text, may "podIP" .text, may "podIPs" (.list podIP), may "qosClass" .text,
  may "reason" .text, may "resize" .text,
  may "resourceClaimStatuses" (.list podResourceClaimStatus), may "startTime" .time]

/-- Members of `Pod`. -/
def pod : Shape := .record "Pod" [
  must "apiVersion" (.constant "v1"), must "kind" (.constant "Pod"),
  must "metadata" objectMeta, may "spec" podSpec, may "status" podStatus]

/-- Members of `PodTemplateSpec`. -/
def podTemplateSpec : Shape := .record "PodTemplateSpec" [
  may "metadata" objectMeta, may "spec" podSpec]

end Shape

end ModelOperator
