import ModelOperator.Cluster.Shapes.Volume

/-!
# Containers

    Containers, their probes, ports, variables and resources. -/

namespace ModelOperator

namespace Shape

/-- Members of `ConfigMapKeySelector`. -/
def configMapKeySelector : Shape := .record "ConfigMapKeySelector" [
  must "key" .text, must "name" .text, may "optional" .boolean]

/-- Members of `SecretKeySelector`. -/
def secretKeySelector : Shape := .record "SecretKeySelector" [
  must "key" .text, must "name" .text, may "optional" .boolean]

/-- Members of `EnvVarSource`. -/
def envVarSource : Shape := .record "EnvVarSource" [
  may "configMapKeyRef" configMapKeySelector, may "fieldRef" objectFieldSelector,
  may "resourceFieldRef" resourceFieldSelector, may "secretKeyRef" secretKeySelector]

/-- Members of `EnvVar`. -/
def envVar : Shape := .record "EnvVar" [
  must "name" .text, may "value" .text, may "valueFrom" envVarSource]

/-- Members of `ConfigMapEnvSource`. -/
def configMapEnvSource : Shape := .record "ConfigMapEnvSource" [
  must "name" .text, may "optional" .boolean]

/-- Members of `SecretEnvSource`. -/
def secretEnvSource : Shape := .record "SecretEnvSource" [
  must "name" .text, may "optional" .boolean]

/-- Members of `EnvFromSource`. -/
def envFromSource : Shape := .record "EnvFromSource" [
  may "configMapRef" configMapEnvSource, may "prefix" .text, may "secretRef" secretEnvSource]

/-- Members of `ExecAction`. -/
def execAction : Shape := .record "ExecAction" [
  may "command" (.list .text)]

/-- Members of `HTTPHeader`. -/
def httpHeader : Shape := .record "HTTPHeader" [
  must "name" .text, must "value" .text]

/-- Members of `HTTPGetAction`. -/
def httpGetAction : Shape := .record "HTTPGetAction" [
  may "host" .text, may "httpHeaders" (.list httpHeader), may "path" .text,
  must "port" .intOrText, may "scheme" .text]

/-- Members of `SleepAction`. -/
def sleepAction : Shape := .record "SleepAction" [
  must "seconds" .int64]

/-- Members of `TCPSocketAction`. -/
def tcpSocketAction : Shape := .record "TCPSocketAction" [
  may "host" .text, must "port" .intOrText]

/-- Members of `LifecycleHandler`. -/
def lifecycleHandler : Shape := .record "LifecycleHandler" [
  may "exec" execAction, may "httpGet" httpGetAction, may "sleep" sleepAction,
  may "tcpSocket" tcpSocketAction]

/-- Members of `Lifecycle`. -/
def lifecycle : Shape := .record "Lifecycle" [
  may "postStart" lifecycleHandler, may "preStop" lifecycleHandler, may "stopSignal" .text]

/-- Members of `GRPCAction`. -/
def grpcAction : Shape := .record "GRPCAction" [
  must "port" .int32, may "service" .text]

/-- Members of `Probe`. -/
def probe : Shape := .record "Probe" [
  may "exec" execAction, may "failureThreshold" .int32, may "grpc" grpcAction,
  may "httpGet" httpGetAction, may "initialDelaySeconds" .int32, may "periodSeconds" .int32,
  may "successThreshold" .int32, may "tcpSocket" tcpSocketAction,
  may "terminationGracePeriodSeconds" .int64, may "timeoutSeconds" .int32]

/-- Members of `ContainerPort`. -/
def containerPort : Shape := .record "ContainerPort" [
  must "containerPort" .int32, may "hostIP" .text, may "hostPort" .int32, may "name" .text,
  may "protocol" .text]

/-- Members of `ContainerResizePolicy`. -/
def containerResizePolicy : Shape := .record "ContainerResizePolicy" [
  must "resourceName" .text, must "restartPolicy" .text]

/-- Members of `ResourceClaim`. -/
def resourceClaim : Shape := .record "ResourceClaim" [
  must "name" .text, may "request" .text]

/-- Members of `ResourceRequirements`. -/
def resourceRequirements : Shape := .record "ResourceRequirements" [
  may "claims" (.list resourceClaim), may "limits" (.map .text), may "requests" (.map .text)]

/-- Members of `AppArmorProfile`. -/
def appArmorProfile : Shape := .record "AppArmorProfile" [
  may "localhostProfile" .text, must "type" .text]

/-- Members of `Capabilities`. -/
def capabilities : Shape := .record "Capabilities" [
  may "add" (.list .text), may "drop" (.list .text)]

/-- Members of `SELinuxOptions`. -/
def seLinuxOptions : Shape := .record "SELinuxOptions" [
  may "level" .text, may "role" .text, may "type" .text, may "user" .text]

/-- Members of `SeccompProfile`. -/
def seccompProfile : Shape := .record "SeccompProfile" [
  may "localhostProfile" .text, must "type" .text]

/-- Members of `WindowsSecurityContextOptions`. -/
def windowsSecurityContextOptions : Shape := .record "WindowsSecurityContextOptions" [
  may "gmsaCredentialSpec" .text, may "gmsaCredentialSpecName" .text,
  may "hostProcess" .boolean, may "runAsUserName" .text]

/-- Members of `SecurityContext`. -/
def securityContext : Shape := .record "SecurityContext" [
  may "allowPrivilegeEscalation" .boolean, may "appArmorProfile" appArmorProfile,
  may "capabilities" capabilities, may "privileged" .boolean, may "procMount" .text,
  may "readOnlyRootFilesystem" .boolean, may "runAsGroup" .int64, may "runAsNonRoot" .boolean,
  may "runAsUser" .int64, may "seLinuxOptions" seLinuxOptions,
  may "seccompProfile" seccompProfile, may "windowsOptions" windowsSecurityContextOptions]

/-- Members of `VolumeDevice`. -/
def volumeDevice : Shape := .record "VolumeDevice" [
  must "devicePath" .text, must "name" .text]

/-- Members of `VolumeMount`. -/
def volumeMount : Shape := .record "VolumeMount" [
  must "mountPath" .text, may "mountPropagation" .text, must "name" .text,
  may "readOnly" .boolean, may "recursiveReadOnly" .text, may "subPath" .text,
  may "subPathExpr" .text]

/-- Members of `Container`. -/
def container : Shape := .record "Container" [
  may "args" (.list .text), may "command" (.list .text), may "env" (.list envVar),
  may "envFrom" (.list envFromSource), may "image" .text, may "imagePullPolicy" .text,
  may "lifecycle" lifecycle, may "livenessProbe" probe, must "name" .text,
  may "ports" (.list containerPort), may "readinessProbe" probe,
  may "resizePolicy" (.list containerResizePolicy), may "resources" resourceRequirements,
  may "restartPolicy" .text, may "securityContext" securityContext, may "startupProbe" probe,
  may "stdin" .boolean, may "stdinOnce" .boolean, may "terminationMessagePath" .text,
  may "terminationMessagePolicy" .text, may "tty" .boolean,
  may "volumeDevices" (.list volumeDevice), may "volumeMounts" (.list volumeMount),
  may "workingDir" .text]

/-- Members of `EphemeralContainer`. -/
def ephemeralContainer : Shape := .record "EphemeralContainer" [
  may "args" (.list .text), may "command" (.list .text), may "env" (.list envVar),
  may "envFrom" (.list envFromSource), may "image" .text, may "imagePullPolicy" .text,
  may "lifecycle" lifecycle, may "livenessProbe" probe, must "name" .text,
  may "ports" (.list containerPort), may "readinessProbe" probe,
  may "resizePolicy" (.list containerResizePolicy), may "resources" resourceRequirements,
  may "restartPolicy" .text, may "securityContext" securityContext, may "startupProbe" probe,
  may "stdin" .boolean, may "stdinOnce" .boolean, may "targetContainerName" .text,
  may "terminationMessagePath" .text, may "terminationMessagePolicy" .text, may "tty" .boolean,
  may "volumeDevices" (.list volumeDevice), may "volumeMounts" (.list volumeMount),
  may "workingDir" .text]

end Shape

end ModelOperator
