import ModelOperator.Attachment.Source
import ModelOperator.Controller.Report
import ModelOperator.Inference.Client
import ModelOperator.Json.Printer
import ModelOperator.Resource.Answer

/-!
# The pass over a prompt

    A pass over a prompt waits until its model can be used, announces in the `Ready`
    condition that it waits for an answer, and in a later pass asks the model's server and
    records the answer.  A prompt that has an answer is left alone.

    Whatever happens in it, a pass over a prompt without an answer ends by writing the
    status once, with the `Synced` condition telling how it went.

    * `PromptWorld` is the outcome of every call a pass may make;
    * `Prompt.reconcile` is a whole pass;
    * `promptsForModel` finds the prompts to look at again when a model changes. -/

namespace ModelOperator

/-- Why a pass over a prompt fails.  Where a library may be the one to refuse, `detail` is what it
    says. -/
inductive PromptError where
  | cluster (e : ClusterError)
  | model (e : ClusterError)
  | options (reason : String)
  | extractImage {detail : String} (index : Nat) (e : AttachmentError)
  | decodeImage {detail : String} (index : Nat) (e : AttachmentError)
  | context {detail : String} (fault : Conversation.Fault)
  | generate (e : Inference.Error)
  | persist (reconcile : Option PromptError) (source : ClusterError)

namespace PromptError

/-- The message of a failed pass. -/
def message : PromptError → String
  | cluster e => e.message
  | model e => s!"failed to fetch model: {e.message}"
  | options reason => s!"failed to unmarshal options into json struct: {reason}"
  | @extractImage detail index e => s!"failed to extract image {index}: {e.message detail}"
  | @decodeImage detail index e => s!"failed to decode images: image {index}: {e.message detail}"
  | context (.encoding fault) => s!"failed to decode context: {fault.message}"
  | @context detail .shape =>
    s!"failed to unmarshal context into integer sequence: {detail}"
  | generate e => s!"failed to generate prompt: {e.message}"
  | persist none source => s!"failed to persist status: {source.message}"
  | persist (some e) source => s!"{e.message}; failed to persist status: {source.message}"

/-- Whether another writer came first, in reading the model or in a write. -/
def isConflict : PromptError → Bool
  | cluster e => e.isConflict
  | model e => e.isConflict
  | persist none source => source.isConflict
  | persist (some e) source => source.isConflict || e.isConflict
  | _ => false

end PromptError

/-- A call that a pass over a prompt makes. -/
inductive PromptCall where
  | getModel (ns name : String)
  | getStore (store : StoreName)
  | forModel (name : String)
  | generate (request : Inference.GenerateRequest)
  | patchStatus (status : PromptStatus)

/-- The outcomes of looking up one object, by the index of the image that it is looked up for. -/
structure Lookups where
  forImage : Nat → Except ClusterError (Option Json)

/-- An object that is found the same by every lookup. -/
instance : Coe (Except ClusterError (Option Json)) Lookups := ⟨fun outcome => ⟨fun _ => outcome⟩⟩

/-- The outcome of every call that a pass over a prompt may make, and what a library says if it
    refuses data; a pass ends at the first refusal. -/
structure PromptWorld where
  model : String → String → Except ClusterError (Option Model)
  store : StoreName → Lookups
  generate : Except Inference.Error Inference.GenerateReply
  patchStatus : Except ClusterError Unit
  detail : String := "unexpected content"

/-- What one pass over a prompt did. -/
abbrev PromptReport := Report PromptCall PromptStatus PromptError

namespace Prompt

/-- A pass over a prompt. -/
abbrev Step (α : Type) := Pass Prompt PromptCall PromptError α

/-- An outcome, or the end of the pass. -/
def orError {ε α : Type} (wrap : ε → PromptError) : Except ε α → Step α
  | .ok a => return a
  | .error e => throw (wrap e)

/-- Sets one condition. -/
def setCondition (c : Condition) : Step Unit := Pass.update fun p => p.setConditions [c]

/-- The condition that announces that the answer is awaited. -/
def waitingCondition (now : Instant) : Condition := .creating now "Waiting for model response"

/-- The options of a question, which are an object or absent. -/
def requestOptions : Option Json → Except PromptError (Option Members)
  | none => .ok none
  | some .null => .ok none
  | some (.obj members) => .ok (some members)
  | some other => .error (.options s!"expected an object, got {other.compact}")

/-- The conversation that a question goes on from; an empty token is none. -/
def requestContext (detail : String) : Option String → Except PromptError (Option (List Int))
  | none => .ok none
  | some token =>
    if token = "" then .ok none
    else
      match Conversation.decode token with
      | .ok context => .ok (some context)
      | .error fault => .error (@PromptError.context detail fault)

/-- The image document of a source. -/
def resolveImage (w : PromptWorld) (ns : String) (index : Nat) (s : ImageSource) :
    Step ImageData := do
  let failed := @PromptError.extractImage w.detail index
  match ← orError failed (s.place ns) with
  | .inline image => return image
  | .key store key =>
    match ← Pass.call (.getStore store) ((w.store store).forImage index) with
    | .error e => throw (failed (.lookup store e))
    | .ok doc => orError failed (store.imageAt key doc)

/-- The images of a question in base64, from the one at an index on. -/
def requestImages (w : PromptWorld) (ns : String) : Nat → List ImageSource → Step (List String)
  | _, [] => return []
  | index, s :: rest => do
    let image ← resolveImage w ns index s
    let failed := fun fault => @PromptError.decodeImage w.detail index (.payload fault)
    let bytes ← orError failed image.bytes
    let more ← requestImages w ns (index + 1) rest
    return Base64.encodeText bytes :: more

/-- The question that a prompt asks a model. -/
def request (p : Prompt) (m : Model) (options : Option Members) (images : List String)
    (context : Option (List Int)) : Inference.GenerateRequest :=
  { model := m.spec.model, prompt := p.spec.prompt, suffix := p.spec.suffix,
    system := p.spec.system, template := p.spec.template, context := context,
    images := images, options := options }

/-- Records a reply and that the prompt is answered. -/
def recordReply (now : Instant) (reply : Inference.GenerateReply) : Step Unit := do
  Pass.update fun p => { p with status := some (p.statusOrEmpty.record reply) }
  setCondition (.available now)

/-- Asks the model's server and records its answer. -/
def ask (now : Instant) (w : PromptWorld) (p : Prompt) (ns : String) (m : Model) :
    Step Action := do
  let options ← orError id (requestOptions p.spec.options)
  let images ← requestImages w ns 0 p.spec.images
  let context ← orError id (requestContext w.detail p.spec.context)
  let question := p.request m options images context
  Pass.call (.forModel m.metadata.nameAny) ()
  let reply ← orError .generate (← Pass.call (.generate question) w.generate)
  recordReply now reply
  Pass.publish ⟨.normal, "ResponseRecorded", "Generate",
    some s!"Recorded response of {reply.evalCount} tokens from {quoted question.model}"⟩
  return .awaitChange

/-- What follows once the model can be used: the announcement first, and then the
    question. -/
def askAnnounced (now : Instant) (w : PromptWorld) (p : Prompt) (ns : String) (m : Model) :
    Step Action := do
  if p.hasCondition (waitingCondition now) then ask now w p ns m
  else
    setCondition (waitingCondition now)
    return .immediately

/-- The body of a pass, without the write of the status. -/
def body (now : Instant) (w : PromptWorld) (p : Prompt) : Step Action := do
  match p.metadata.namespace? with
  | none => throw (.cluster (.invalid p.metadata.nameAny "Prompt must be namespaced"))
  | some ns =>
    let modelNs := p.spec.modelRef.namespaceFrom ns
    let name := p.spec.modelRef.name
    match ← orError .model (← Pass.call (.getModel modelNs name) (w.model modelNs name)) with
    | none =>
      setCondition (.unavailable now "Referenced model does not exist")
      return .awaitChange
    | some m =>
      if m.isSyncedAndReady then askAnnounced now w p ns m
      else
        setCondition (.unavailable now "Model is not ready and synced")
        return .awaitChange

/-- What is a prompt's own in how its passes end. -/
def controller : Controller Prompt PromptStatus PromptCall PromptError where
  toConditioned := conditioned
  observed p := { p.statusOrEmpty with observedGeneration := p.metadata.generation }
  patch := .patchStatus
  message := PromptError.message
  isConflict := PromptError.isConflict
  persist := .persist

/-- The prompt with the status that the pass writes. -/
def stamped (now : Instant) (p : Prompt) (outcome : Except PromptError Action) : Prompt :=
  controller.stamped now p outcome

/-- The result of a pass from that of its body and of the write of the status. -/
def conclude (outcome : Except PromptError Action) (write : Except ClusterError Unit) :
    Except PromptError Action :=
  controller.conclude outcome write

/-- A whole pass over a prompt; one that has an answer is left alone. -/
def reconcile (now : Instant) (w : PromptWorld) (p : Prompt) : PromptReport :=
  if p.response?.isSome then
    { calls := [], events := [], written := none, result := .ok .awaitChange }
  else controller.finish now w.patchStatus ((body now w p).runOn p)

end Prompt

/-- Whether a change of a model concerns a prompt: both are in one namespace and the prompt
    asks that model. -/
def Prompt.concerns (p : Prompt) (modelNs modelName : String) : Bool :=
  match p.metadata.namespace? with
  | none => false
  | some ns =>
    ns == modelNs && p.spec.modelRef.name == modelName &&
      p.spec.modelRef.namespaceFrom ns == modelNs

/-- The prompts to look at again when a model changes. -/
def promptsForModel (prompts : List Prompt) (m : Model) : List Prompt :=
  match m.metadata.namespace? with
  | none => []
  | some ns => prompts.filter fun p => p.concerns ns m.metadata.nameAny

end ModelOperator
