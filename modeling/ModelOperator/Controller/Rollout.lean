import ModelOperator.Json.Value

/-!
# Rollout of a stateful set

    A stateful set is rolled out when the cluster has seen its latest specification,
    enough pods are ready, and no pod that is to be updated is still old.

    * `Workload.of` takes from a stateful set what the question depends on;
    * `Workload.rollout` answers it with a message for people. -/

namespace ModelOperator

/-- What the rollout of a stateful set depends on.  `rollingUpdate` is there when the
    strategy has a block of that name, and holds the partition if one is set. -/
structure Workload where
  generation : Int := 0
  strategy : Option String := none
  rollingUpdate : Option (Option Int) := none
  replicas : Option Int := none
  observedGeneration : Int := 0
  readyReplicas : Int := 0
  updatedReplicas : Int := 0
  currentReplicas : Int := 0
  updateRevision : String := ""
  currentRevision : String := ""
  deriving DecidableEq, Repr

/-- How far a rollout has come. -/
structure Rollout where
  ready : Bool
  message : String
  deriving DecidableEq, Repr

namespace Workload

/-- A member of a member. -/
def under (doc : Json) (path : List String) : Option Json :=
  path.foldl (fun v name => v.bind (Json.get? name)) (some doc)

/-- What the rollout of a written stateful set depends on. -/
def of (doc : Json) : Workload :=
  let whole (path : List String) : Option Int := (under doc path).bind Json.asInt?
  let text (path : List String) : Option String := (under doc path).bind Json.asText?
  { generation := (whole ["metadata", "generation"]).getD 0
    strategy := text ["spec", "updateStrategy", "type"]
    rollingUpdate := (under doc ["spec", "updateStrategy", "rollingUpdate"]).map fun block =>
      (block.get? "partition").bind Json.asInt?
    replicas := whole ["spec", "replicas"]
    observedGeneration := (whole ["status", "observedGeneration"]).getD 0
    readyReplicas := (whole ["status", "readyReplicas"]).getD 0
    updatedReplicas := (whole ["status", "updatedReplicas"]).getD 0
    currentReplicas := (whole ["status", "currentReplicas"]).getD 0
    updateRevision := (text ["status", "updateRevision"]).getD ""
    currentRevision := (text ["status", "currentRevision"]).getD "" }

/-- The strategy whose rollout can be followed. -/
def rollingUpdateName : String := "RollingUpdate"

/-- Why a rollout cannot be followed. -/
def unsupportedStrategy : String :=
  s!"rollout status is only available for {rollingUpdateName} strategy type"

/-- By how much one count exceeds another, in 32 bits. -/
def excess (n m : Int) : Int := (n - m).bmod 4294967296

/-- The rollout once enough pods are ready. -/
def updateProgress (w : Workload) : Rollout :=
  match w.rollingUpdate with
  | some partition =>
    let behind : Option Int :=
      match w.replicas, partition with
      | some desired, some partition =>
        if w.updatedReplicas < excess desired partition then some (excess desired partition)
        else none
      | _, _ => none
    match behind with
    | some goal => ⟨false, s!"Waiting for partitioned roll out to finish: {w.updatedReplicas} out of {goal} new pods have been updated"⟩
    | none => ⟨true, s!"partitioned roll out complete: {w.updatedReplicas} new pods have been updated"⟩
  | none =>
    if w.updateRevision ≠ w.currentRevision then
      ⟨false, s!"waiting for statefulset rolling update to complete {w.updatedReplicas} pods at revision {w.updateRevision}"⟩
    else
      ⟨true, s!"statefulset rolling update complete {w.currentReplicas} pods at revision {w.currentRevision}"⟩

/-- How far the rollout has come, or why it cannot be told. -/
def rollout (w : Workload) : Except String Rollout :=
  if w.strategy.getD rollingUpdateName ≠ rollingUpdateName then .error unsupportedStrategy
  else if w.observedGeneration = 0 ∨ w.observedGeneration < w.generation then
    .ok ⟨false, "Waiting for statefulset spec update to be observed"⟩
  else
    match w.replicas with
    | some desired =>
      if w.readyReplicas < desired then
        .ok ⟨false, s!"Waiting for {excess desired w.readyReplicas} pods to be ready"⟩
      else .ok w.updateProgress
    | none => .ok w.updateProgress

end Workload

end ModelOperator
