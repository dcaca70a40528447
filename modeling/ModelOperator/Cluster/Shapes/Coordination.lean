import ModelOperator.Cluster.Shapes.Data

/-!
# Leases and events

    A lease names the holder of a lock and until when; an event reports what happened. -/

namespace ModelOperator

namespace Shape

/-- Members of `LeaseSpec`. -/
def leaseSpec : Shape := .record "LeaseSpec" [
  may "acquireTime" .microTime, may "holderIdentity" .text, may "leaseDurationSeconds" .int32,
  may "leaseTransitions" .int32, may "preferredHolder" .text, may "renewTime" .microTime,
  may "strategy" .text]

/-- Members of `Lease`. -/
def lease : Shape := .record "Lease" [
  must "apiVersion" (.constant "coordination.k8s.io/v1"), must "kind" (.constant "Lease"),
  must "metadata" objectMeta, may "spec" leaseSpec]

/-- Members of `EventSource`. -/
def eventSource : Shape := .record "EventSource" [
  may "component" .text, may "host" .text]

/-- Members of `EventSeries`. -/
def eventSeries : Shape := .record "EventSeries" [
  must "count" .int32, must "lastObservedTime" .microTime]

/-- Members of `Event`. -/
def event : Shape := .record "Event" [
  may "action" .text, must "apiVersion" (.constant "events.k8s.io/v1"),
  may "deprecatedCount" .int32, may "deprecatedFirstTimestamp" .time,
  may "deprecatedLastTimestamp" .time, may "deprecatedSource" eventSource,
  may "eventTime" .microTime, must "kind" (.constant "Event"), must "metadata" objectMeta,
  may "note" .text, may "reason" .text, may "regarding" objectReference,
  may "related" objectReference, may "reportingController" .text,
  may "reportingInstance" .text, may "series" eventSeries, may "type" .text]

end Shape

end ModelOperator
