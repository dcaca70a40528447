import ModelOperator.Cluster.Shapes.Meta

/-!
# Volumes and claims

    Where the files of a pod come from, and claims on storage. -/

namespace ModelOperator

namespace Shape

/-- Members of `AWSElasticBlockStoreVolumeSource`. -/
def awsElasticBlockStoreVolumeSource : Shape := .record "AWSElasticBlockStoreVolumeSource" [
  may "fsType" .text, may "partition" .int32, may "readOnly" .boolean, must "volumeID" .text]

/-- Members of `AzureDiskVolumeSource`. -/
def azureDiskVolumeSource : Shape := .record "AzureDiskVolumeSource" [
  may "cachingMode" .text, must "diskName" .text, must "diskURI" .text, may "fsType" .text,
  may "kind" .text, may "readOnly" .boolean]

/-- Members of `AzureFileVolumeSource`. -/
def azureFileVolumeSource : Shape := .record "AzureFileVolumeSource" [
  may "readOnly" .boolean, must "secretName" .text, must "shareName" .text]

/-- Members of `CephFSVolumeSource`. -/
def cephFSVolumeSource : Shape := .record "CephFSVolumeSource" [
  must "monitors" (.list .text), may "path" .text, may "readOnly" .boolean,
  may "secretFile" .text, may "secretRef" localObjectReference, may "user" .text]

/-- Members of `CinderVolumeSource`. -/
def cinderVolumeSource : Shape := .record "CinderVolumeSource" [
  may "fsType" .text, may "readOnly" .boolean, may "secretRef" localObjectReference,
  must "volumeID" .text]

/-- Members of `KeyToPath`. -/
def keyToPath : Shape := .record "KeyToPath" [
  must "key" .text, may "mode" .int32, must "path" .text]

/-- Members of `ConfigMapVolumeSource`. -/
def configMapVolumeSource : Shape := .record "ConfigMapVolumeSource" [
  may "defaultMode" .int32, may "items" (.list keyToPath), must "name" .text,
  may "optional" .boolean]

/-- Members of `CSIVolumeSource`. -/
def csiVolumeSource : Shape := .record "CSIVolumeSource" [
  must "driver" .text, may "fsType" .text, may "nodePublishSecretRef" localObjectReference,
  may "readOnly" .boolean, may "volumeAttributes" (.map .text)]

/-- Members of `ObjectFieldSelector`. -/
def objectFieldSelector : Shape := .record "ObjectFieldSelector" [
  may "apiVersion" .text, must "fieldPath" .text]

/-- Members of `ResourceFieldSelector`. -/
def resourceFieldSelector : Shape := .record "ResourceFieldSelector" [
  may "containerName" .text, may "divisor" .text, must "resource" .text]

/-- Members of `DownwardAPIVolumeFile`. -/
def downwardAPIVolumeFile : Shape := .record "DownwardAPIVolumeFile" [
  may "fieldRef" objectFieldSelector, may "mode" .int32, must "path" .text,
  may "resourceFieldRef" resourceFieldSelector]

/-- Members of `DownwardAPIVolumeSource`. -/
def downwardAPIVolumeSource : Shape := .record "DownwardAPIVolumeSource" [
  may "defaultMode" .int32, may "items" (.list downwardAPIVolumeFile)]

/-- Members of `EmptyDirVolumeSource`. -/
def emptyDirVolumeSource : Shape := .record "EmptyDirVolumeSource" [
  may "medium" .text, may "sizeLimit" .text]

/-- Members of `VolumeResourceRequirements`. -/
def volumeResourceRequirements : Shape := .record "VolumeResourceRequirements" [
  may "limits" (.map .text), may "requests" (.map .text)]

/-- Members of `PersistentVolumeClaimSpec`. -/
def persistentVolumeClaimSpec : Shape := .record "PersistentVolumeClaimSpec" [
  may "accessModes" (.list .text), may "dataSource" typedLocalObjectReference,
  may "dataSourceRef" typedObjectReference, may "resources" volumeResourceRequirements,
  may "selector" labelSelector, may "storageClassName" .text,
  may "volumeAttributesClassName" .text, may "volumeMode" .text, may "volumeName" .text]

/-- Members of `PersistentVolumeClaimTemplate`. -/
def persistentVolumeClaimTemplate : Shape := .record "PersistentVolumeClaimTemplate" [
  may "metadata" objectMeta, must "spec" persistentVolumeClaimSpec]

/-- Members of `EphemeralVolumeSource`. -/
def ephemeralVolumeSource : Shape := .record "EphemeralVolumeSource" [
  may "volumeClaimTemplate" persistentVolumeClaimTemplate]

/-- Members of `FCVolumeSource`. -/
def fcVolumeSource : Shape := .record "FCVolumeSource" [
  may "fsType" .text, may "lun" .int32, may "readOnly" .boolean,
  may "targetWWNs" (.list .text), may "wwids" (.list .text)]

/-- Members of `FlexVolumeSource`. -/
def flexVolumeSource : Shape := .record "FlexVolumeSource" [
  must "driver" .text, may "fsType" .text, may "options" (.map .text), may "readOnly" .boolean,
  may "secretRef" localObjectReference]

/-- Members of `FlockerVolumeSource`. -/
def flockerVolumeSource : Shape := .record "FlockerVolumeSource" [
  may "datasetName" .text, may "datasetUUID" .text]

/-- Members of `GCEPersistentDiskVolumeSource`. -/
def gcePersistentDiskVolumeSource : Shape := .record "GCEPersistentDiskVolumeSource" [
  may "fsType" .text, may "partition" .int32, must "pdName" .text, may "readOnly" .boolean]

/-- Members of `GitRepoVolumeSource`. -/
def gitRepoVolumeSource : Shape := .record "GitRepoVolumeSource" [
  may "directory" .text, must "repository" .text, may "revision" .text]

/-- Members of `GlusterfsVolumeSource`. -/
def glusterfsVolumeSource : Shape := .record "GlusterfsVolumeSource" [
  must "endpoints" .text, must "path" .text, may "readOnly" .boolean]

/-- Members of `HostPathVolumeSource`. -/
def hostPathVolumeSource : Shape := .record "HostPathVolumeSource" [
  must "path" .text, may "type" .text]

/-- Members of `ImageVolumeSource`. -/
def imageVolumeSource : Shape := .record "ImageVolumeSource" [
  may "pullPolicy" .text, may "reference" .text]

/-- Members of `ISCSIVolumeSource`. -/
def iscsiVolumeSource : Shape := .record "ISCSIVolumeSource" [
  may "chapAuthDiscovery" .boolean, may "chapAuthSession" .boolean, may "fsType" .text,
  may "initiatorName" .text, must "iqn" .text, may "iscsiInterface" .text, must "lun" .int32,
  may "portals" (.list .text), may "readOnly" .boolean, may "secretRef" localObjectReference,
  must "targetPortal" .text]

/-- Members of `NFSVolumeSource`. -/
def nfsVolumeSource : Shape := .record "NFSVolumeSource" [
  must "path" .text, may "readOnly" .boolean, must "server" .text]

/-- Members of `PersistentVolumeClaimVolumeSource`. -/
def persistentVolumeClaimVolumeSource : Shape := .record "PersistentVolumeClaimVolumeSource" [
  must "claimName" .text, may "readOnly" .boolean]

/-- Members of `PhotonPersistentDiskVolumeSource`. -/
def photonPersistentDiskVolumeSource : Shape := .record "PhotonPersistentDiskVolumeSource" [
  may "fsType" .text, must "pdID" .text]

/-- Members of `PortworxVolumeSource`. -/
def portworxVolumeSource : Shape := .record "PortworxVolumeSource" [
  may "fsType" .text, may "readOnly" .boolean, must "volumeID" .text]

/-- Members of `ClusterTrustBundleProjection`. -/
def clusterTrustBundleProjection : Shape := .record "ClusterTrustBundleProjection" [
  may "labelSelector" labelSelector, may "name" .text, may "optional" .boolean,
  must "path" .text, may "signerName" .text]

/-- Members of `ConfigMapProjection`. -/
def configMapProjection : Shape := .record "ConfigMapProjection" [
  may "items" (.list keyToPath), must "name" .text, may "optional" .boolean]

/-- Members of `DownwardAPIProjection`. -/
def downwardAPIProjection : Shape := .record "DownwardAPIProjection" [
  may "items" (.list downwardAPIVolumeFile)]

/-- Members of `SecretProjection`. -/
def secretProjection : Shape := .record "SecretProjection" [
  may "items" (.list keyToPath), must "name" .text, may "optional" .boolean]

/-- Members of `ServiceAccountTokenProjection`. -/
def serviceAccountTokenProjection : Shape := .record "ServiceAccountTokenProjection" [
  may "audience" .text, may "expirationSeconds" .int64, must "path" .text]

/-- Members of `VolumeProjection`. -/
def volumeProjection : Shape := .record "VolumeProjection" [
  may "clusterTrustBundle" clusterTrustBundleProjection, may "configMap" configMapProjection,
  may "downwardAPI" downwardAPIProjection, may "secret" secretProjection,
  may "serviceAccountToken" serviceAccountTokenProjection]

/-- Members of `ProjectedVolumeSource`. -/
def projectedVolumeSource : Shape := .record "ProjectedVolumeSource" [
  may "defaultMode" .int32, may "sources" (.list volumeProjection)]

/-- Members of `QuobyteVolumeSource`. -/
def quobyteVolumeSource : Shape := .record "QuobyteVolumeSource" [
  may "group" .text, may "readOnly" .boolean, must "registry" .text, may "tenant" .text,
  may "user" .text, must "volume" .text]

/-- Members of `RBDVolumeSource`. -/
def rbdVolumeSource : Shape := .record "RBDVolumeSource" [
  may "fsType" .text, must "image" .text, may "keyring" .text, must "monitors" (.list .text),
  may "pool" .text, may "readOnly" .boolean, may "secretRef" localObjectReference,
  may "user" .text]

/-- Members of `ScaleIOVolumeSource`. -/
def scaleIOVolumeSource : Shape := .record "ScaleIOVolumeSource" [
  may "fsType" .text, must "gateway" .text, may "protectionDomain" .text,
  may "readOnly" .boolean, must "secretRef" localObjectReference, may "sslEnabled" .boolean,
  may "storageMode" .text, may "storagePool" .text, must "system" .text,
  may "volumeName" .text]

/-- Members of `SecretVolumeSource`. -/
def secretVolumeSource : Shape := .record "SecretVolumeSource" [
  may "defaultMode" .int32, may "items" (.list keyToPath), may "optional" .boolean,
  may "secretName" .text]

/-- Members of `StorageOSVolumeSource`. -/
def storageOSVolumeSource : Shape := .record "StorageOSVolumeSource" [
  may "fsType" .text, may "readOnly" .boolean, may "secretRef" localObjectReference,
  may "volumeName" .text, may "volumeNamespace" .text]

/-- Members of `VsphereVirtualDiskVolumeSource`. -/
def vsphereVirtualDiskVolumeSource : Shape := .record "VsphereVirtualDiskVolumeSource" [
  may "fsType" .text, may "storagePolicyID" .text, may "storagePolicyName" .text,
  must "volumePath" .text]

/-- Members of `Volume`. -/
def volume : Shape := .record "Volume" [
  may "awsElasticBlockStore" awsElasticBlockStoreVolumeSource,
  may "azureDisk" azureDiskVolumeSource, may "azureFile" azureFileVolumeSource,
  may "cephfs" cephFSVolumeSource, may "cinder" cinderVolumeSource,
  may "configMap" configMapVolumeSource, may "csi" csiVolumeSource,
  may "downwardAPI" downwardAPIVolumeSource, may "emptyDir" emptyDirVolumeSource,
  may "ephemeral" ephemeralVolumeSource, may "fc" fcVolumeSource,
  may "flexVolume" flexVolumeSource, may "flocker" flockerVolumeSource,
  may "gcePersistentDisk" gcePersistentDiskVolumeSource, may "gitRepo" gitRepoVolumeSource,
  may "glusterfs" glusterfsVolumeSource, may "hostPath" hostPathVolumeSource,
  may "image" imageVolumeSource, may "iscsi" iscsiVolumeSource, must "name" .text,
  may "nfs" nfsVolumeSource, may "persistentVolumeClaim" persistentVolumeClaimVolumeSource,
  may "photonPersistentDisk" photonPersistentDiskVolumeSource,
  may "portworxVolume" portworxVolumeSource, may "projected" projectedVolumeSource,
  may "quobyte" quobyteVolumeSource, may "rbd" rbdVolumeSource,
  may "scaleIO" scaleIOVolumeSource, may "secret" secretVolumeSource,
  may "storageos" storageOSVolumeSource, may "vsphereVolume" vsphereVirtualDiskVolumeSource]

/-- Members of `PersistentVolumeClaimCondition`. -/
def persistentVolumeClaimCondition : Shape := .record "PersistentVolumeClaimCondition" [
  may "lastProbeTime" .time, may "lastTransitionTime" .time, may "message" .text,
  may "reason" .text, must "status" .text, must "type" .text]

/-- Members of `ModifyVolumeStatus`. -/
def modifyVolumeStatus : Shape := .record "ModifyVolumeStatus" [
  must "status" .text, may "targetVolumeAttributesClassName" .text]

/-- Members of `PersistentVolumeClaimStatus`. -/
def persistentVolumeClaimStatus : Shape := .record "PersistentVolumeClaimStatus" [
  may "accessModes" (.list .text), may "allocatedResourceStatuses" (.map .text),
  may "allocatedResources" (.map .text), may "capacity" (.map .text),
  may "conditions" (.list persistentVolumeClaimCondition),
  may "currentVolumeAttributesClassName" .text, may "modifyVolumeStatus" modifyVolumeStatus,
  may "phase" .text]

/-- Members of `PersistentVolumeClaim`. -/
def persistentVolumeClaim : Shape := .record "PersistentVolumeClaim" [
  must "apiVersion" (.constant "v1"), must "kind" (.constant "PersistentVolumeClaim"),
  must "metadata" objectMeta, may "spec" persistentVolumeClaimSpec,
  may "status" persistentVolumeClaimStatus]

end Shape

end ModelOperator
