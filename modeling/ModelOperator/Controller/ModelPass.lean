import ModelOperator.Controller.Rendering
import ModelOperator.Controller.Report
import ModelOperator.Controller.Rollout
import ModelOperator.Inference.Client

/-!
# The pass over a model

    A pass applies the objects of a model, waits for its server, has the server fetch
    the language model if it lacks it, and records what the server reports about it.
    Before it asks for the model to be fetched it announces that in the `Ready`
    condition and ends, so that the announcement is stored first.

    Whatever happens, the pass ends by writing the status once, with the `Synced`
    condition telling how it went.

    * `ModelWorld` is the outcome of every call a pass may make;
    * `Model.reconcile` is a whole pass. -/

namespace ModelOperator

/-- Why a pass over a model fails. -/
inductive ModelError where
  | cluster (e : ClusterError)
  | render (fault : RenderFault)
  | readiness (reason : String)
  | inference (context : String) (e : Inference.Error)
  | persist (reconcile : Option ModelError) (source : ClusterError)

namespace ModelError

/-- The message of a failed pass. -/
def message : ModelError → String
  | cluster e => e.message
  | render fault => fault.message
  | readiness reason => s!"failed to check statefulset readiness: {reason}"
  | inference context e => s!"{context}: {e.message}"
  | persist none source => s!"failed to persist status: {source.message}"
  | persist (some e) source => s!"{e.message}; failed to persist status: {source.message}"

/-- Whether another writer came first, in the pass or in the write of the status. -/
def isConflict : ModelError → Bool
  | cluster e => e.isConflict
  | persist none source => source.isConflict
  | persist (some e) source => source.isConflict || e.isConflict
  | _ => false

end ModelError

/-- A call that a pass over a model makes. -/
inductive ModelCall where
  | applyStatefulSet (doc : Json)
  | applyService (doc : Json)
  | getStatefulSet (ns name : String)
  | forModel (name : String)
  | list
  | pull (request : Inference.PullRequest)
  | inspect (request : Inference.ShowRequest)
  | patchStatus (status : ModelStatus)

/-- The outcome of every call that a pass over a model may make, and what the library says that
    reads the pointers of operations if it refuses one. -/
structure ModelWorld where
  applyStatefulSet : Except ClusterError Unit
  applyService : Except ClusterError Unit
  statefulSet : Except ClusterError (Option Json)
  list : Except Inference.Error Inference.ModelList
  pull : Except Inference.Error Inference.PullProgress
  inspect : Except Inference.Error Inference.ShowReply
  patchStatus : Except ClusterError Unit
  detail : String := "invalid pointer"

/-- What one pass over a model did. -/
abbrev ModelReport := Report ModelCall ModelStatus ModelError

namespace Model

/-- A pass over a model. -/
abbrev Step (α : Type) := Pass Model ModelCall ModelError α

/-- While the pods of the server are not there yet, they are looked for again after this. -/
def workloadPoll : Action := .requeue 3000

/-- After a pull that did not succeed, the next pass is after this. -/
def pullRetry : Action := .requeue 5000

/-- A cluster call's outcome, or the end of the pass. -/
def orClusterError {α : Type} : Except ClusterError α → Step α
  | .ok a => return a
  | .error e => throw (.cluster e)

/-- Sets one condition. -/
def setCondition (c : Condition) : Step Unit := Pass.update fun m => m.setConditions [c]

/-- The words for fetching a model. -/
def pullingNote (id : String) : String := s!"Pulling {quoted id} model"

/-- The condition that announces a pull. -/
def pullingCondition (now : Instant) (id : String) : Condition :=
  .creating now (pullingNote id)

/-- An event about a pull. -/
def pullEvent (type : EventType) (note : String) : Event :=
  ⟨type, "PullingModel", "Pull", some note⟩

/-- What is recorded of the details that a server reports. -/
def recordDetails (d : Inference.ModelDetails) : RecordedDetails :=
  ⟨d.parameterSize, d.quantizationLevel, d.parentModel, d.format, d.family, d.families.getD []⟩

/-- Records the details of the language model and that it can be used. -/
def recordAvailable (now : Instant) (w : ModelWorld) (id : String) : Step Action := do
  match ← Pass.call (.inspect ⟨id⟩) w.inspect with
  | .error e =>
    setCondition (.unavailable now "")
    throw (.inference "while fetching ollama model details" e)
  | .ok reply =>
    Pass.update fun m =>
      { m with status := some { m.statusOrEmpty with details := some (recordDetails reply.details) } }
    setCondition (.available now)
    return .awaitChange

/-- Has the server fetch the language model, once that is announced. -/
def fetch (now : Instant) (w : ModelWorld) (id : String) : Step Action := do
  let m ← Pass.resource
  if !m.hasCondition (pullingCondition now id) then
    setCondition (pullingCondition now id)
    return .immediately
  else
    Pass.publish (pullEvent .normal (pullingNote id))
    match ← Pass.call (.pull ⟨id, false, true⟩) w.pull with
    | .error e =>
      let failure := s!"failed to pull {quoted id} model"
      Pass.publish (pullEvent .warning failure)
      throw (.inference failure e)
    | .ok last =>
      if last.isSuccess then recordAvailable now w id
      else
        Pass.publish (pullEvent .warning
          s!"pull of {quoted id} ended with status {quoted last.status}")
        setCondition (.unavailable now "Model hasn't been pulled successfully, retrying")
        return pullRetry

/-- What follows once the server is rolled out. -/
def serve (now : Instant) (w : ModelWorld) (m : Model) : Step Action := do
  let id := m.spec.model
  Pass.call (.forModel m.metadata.nameAny) ()
  match ← Pass.call .list w.list with
  | .error e => throw (.inference "failed to list local models" e)
  | .ok present => if present.contains id then recordAvailable now w id else fetch now w id

/-- What follows once the stateful set is read. -/
def await (now : Instant) (w : ModelWorld) (m : Model) : Option Json → Step Action
  | none => do
    setCondition (.creating now "")
    return workloadPoll
  | some doc =>
    match (Workload.of doc).rollout with
    | .error reason => do
      setCondition (.unavailable now "")
      throw (.readiness reason)
    | .ok rollout =>
      if rollout.ready then serve now w m
      else do
        setCondition (.unavailable now rollout.message)
        return .awaitChange

/-- The body of a pass, without the write of the status. -/
def body (now : Instant) (w : ModelWorld) (m : Model) : Step Action := do
  match m.metadata.namespace? with
  | none => throw (.cluster (.invalid m.metadata.nameAny "Model must be namespaced"))
  | some ns =>
    match m.render with
    | .error fault => throw (.render { fault with detail := w.detail })
    | .ok rendered =>
      orClusterError (← Pass.call (.applyStatefulSet rendered.statefulSet) w.applyStatefulSet)
      orClusterError (← Pass.call (.applyService rendered.service) w.applyService)
      let found ← orClusterError
        (← Pass.call (.getStatefulSet ns m.metadata.nameAny) w.statefulSet)
      await now w m found

/-- What is a model's own in how its passes end. -/
def controller : Controller Model ModelStatus ModelCall ModelError where
  toConditioned := conditioned
  observed m :=
    { m.statusOrEmpty with
      observedGeneration := m.metadata.generation, image := some m.spec.effectiveImage }
  patch := .patchStatus
  message := ModelError.message
  isConflict := ModelError.isConflict
  persist := .persist

/-- The model with the status that the pass writes. -/
def stamped (now : Instant) (m : Model) (outcome : Except ModelError Action) : Model :=
  controller.stamped now m outcome

/-- The result of a pass from that of its body and of the write of the status. -/
def conclude (outcome : Except ModelError Action) (write : Except ClusterError Unit) :
    Except ModelError Action :=
  controller.conclude outcome write

/-- A whole pass over a model. -/
def reconcile (now : Instant) (w : ModelWorld) (m : Model) : ModelReport :=
  controller.finish now w.patchStatus ((body now w m).runOn m)

end Model

end ModelOperator
