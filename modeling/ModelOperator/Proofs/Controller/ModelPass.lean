import ModelOperator.Controller.ModelPass
import ModelOperator.Proofs.Controller.Report

/-!
# What one pass over a model does

    One equation for each part of a pass says what it adds to the progress made before:
    recording the details (`Model.resume_recordAvailable`), having the model fetched
    (`Model.resume_fetch`), what follows a rolled out server (`Model.resume_serve`), and
    the way there (`Model.resume_body_rolledOut`).  A whole pass makes the calls of its body
    and then writes the stamped status (`Model.reconcile_calls`). -/

namespace ModelOperator

/-- Whether a call has the server fetch a model. -/
def ModelCall.isPull : ModelCall → Bool
  | .pull _ => true
  | _ => false

namespace Model

open Pass

variable (now : Instant) (w : ModelWorld) (m : Model) (id : String)
variable (s : Progress Model ModelCall)

@[simp] theorem resume_orClusterError_ok {α : Type} (a : α) :
    (orClusterError (.ok a)).resume s = (.ok a, s) := rfl

@[simp] theorem resume_orClusterError_error {α : Type} (e : ClusterError) :
    (orClusterError (.error e) : Step α).resume s = (.error (.cluster e), s) := rfl

/-! ## The parts of a pass -/

/-- The model with the details of its server, and available. -/
def withDetails (reply : Inference.ShowReply) (m : Model) : Model :=
  { m with status := some { m.statusOrEmpty with details := some (recordDetails reply.details) }
    }.setConditions [.available now]

theorem resume_recordAvailable :
    (recordAvailable now w id).resume s =
      match w.inspect with
      | .error e =>
        (.error (.inference "while fetching ollama model details" e),
          { s.calling [.inspect ⟨id⟩] with
            resource := s.resource.setConditions [.unavailable now ""] })
      | .ok reply =>
        (.ok .awaitChange,
          { s.calling [.inspect ⟨id⟩] with resource := withDetails now reply s.resource }) := by
  simp only [recordAvailable, resume_bind, resume_call]
  cases w.inspect with
  | error e => rfl
  | ok reply => rfl

/-- The calls and events with which a pull begins. -/
def pulling (s : Progress Model ModelCall) : Progress Model ModelCall :=
  { s.calling [.pull ⟨id, false, true⟩] with
    events := s.events ++ [pullEvent .normal (pullingNote id)] }

theorem resume_fetch :
    (fetch now w id).resume s =
      if s.resource.hasCondition (pullingCondition now id) then
        match w.pull with
        | .error e =>
          (.error (.inference s!"failed to pull {quoted id} model" e),
            { pulling id s with
              events := (pulling id s).events ++
                [pullEvent .warning s!"failed to pull {quoted id} model"] })
        | .ok last =>
          if last.isSuccess then (recordAvailable now w id).resume (pulling id s)
          else
            (.ok pullRetry,
              { pulling id s with
                resource := s.resource.setConditions
                  [.unavailable now "Model hasn't been pulled successfully, retrying"]
                events := (pulling id s).events ++ [pullEvent .warning
                  s!"pull of {quoted id} ended with status {quoted last.status}"] })
      else
        (.ok .immediately,
          { s with resource := s.resource.setConditions [pullingCondition now id] }) := by
  simp only [fetch, resume_bind, resume_resource]
  cases hannounced : s.resource.hasCondition (pullingCondition now id) with
  | false => rfl
  | true =>
      simp only [Bool.not_true, Bool.false_eq_true, if_false, if_true, resume_bind,
        resume_publish, resume_call]
      cases w.pull with
      | error e => rfl
      | ok last =>
          cases hsuccess : last.isSuccess with
          | true =>
              simp only [hsuccess, if_true]
              rfl
          | false =>
              simp only [hsuccess, Bool.false_eq_true, if_false]
              rfl

theorem resume_serve :
    (serve now w m).resume s =
      match w.list with
      | .error e =>
        (.error (.inference "failed to list local models" e),
          s.calling [.forModel m.metadata.nameAny, .list])
      | .ok present =>
        (if present.contains m.spec.model then recordAvailable now w m.spec.model
          else fetch now w m.spec.model).resume
          (s.calling [.forModel m.metadata.nameAny, .list]) := by
  simp only [serve, resume_bind, resume_call, Progress.calling_calling]
  cases w.list with
  | error e => rfl
  | ok present => rfl

/-- The calls of a pass up to the stateful set that it reads. -/
def opening (rendered : Rendered) (ns : String) : List ModelCall :=
  [.applyStatefulSet rendered.statefulSet, .applyService rendered.service,
    .getStatefulSet ns m.metadata.nameAny]

/-- With the objects applied and the server rolled out, a pass goes on to the server. -/
theorem resume_body_rolledOut {ns : String} {rendered : Rendered} {doc : Json}
    {rollout : Rollout} (hns : m.metadata.namespace? = some ns) (hrender : m.render = .ok rendered)
    (hset : w.applyStatefulSet = .ok ()) (hservice : w.applyService = .ok ())
    (hfound : w.statefulSet = .ok (some doc)) (hrollout : (Workload.of doc).rollout = .ok rollout)
    (hready : rollout.ready = true) :
    (body now w m).resume s = (serve now w m).resume (s.calling (opening m rendered ns)) := by
  simp only [body, hns, hrender, resume_bind, resume_call, hset, hservice, hfound,
    resume_orClusterError_ok, await, hrollout, hready, if_true, Progress.calling_calling]
  rfl

/-! ## The whole pass -/

/-- The model as a pass over it leaves it, before the write. -/
def finalOf (now : Instant) (w : ModelWorld) (m : Model) : Model :=
  ((body now w m).resume { resource := m }).2.resource.stamped now
    ((body now w m).resume { resource := m }).1

/-- A pass makes the calls of its body and then writes the status. -/
theorem reconcile_calls :
    (reconcile now w m).calls =
      ((body now w m).resume { resource := m }).2.calls ++
        [.patchStatus (finalOf now w m).statusOrEmpty] :=
  controller.finish_calls now ((body now w m).resume { resource := m })

end Model

end ModelOperator
