import ModelOperator.Controller.PromptPass
import ModelOperator.Proofs.Controller.Report

/-!
# What one pass over a prompt can do

    The body of a pass ends in one of four ways (`Prompt.body_cases`): it fails before
    the model is known, it finds the model missing or not ready, it announces that it
    waits, or it asks.  Asking first gathers the question by lookups and then either
    fails or sends exactly one question (`Prompt.ask_cases`).

    From these two statements follows what is known of a pass that sent a question: the
    gates it went through (`Prompt.gates_of_asks`) and, when the reply came and the
    status was written, what the status holds (`Prompt.reconcile_recorded`). -/

namespace ModelOperator

/-- A call that reads a config map or a secret. -/
def PromptCall.IsLookup (c : PromptCall) : Prop := ∃ store, c = .getStore store

/-- Whether a call sends a question. -/
def PromptCall.isQuestion : PromptCall → Bool
  | .generate _ => true
  | _ => false

theorem PromptCall.IsLookup.not_isQuestion {c : PromptCall} (h : c.IsLookup) :
    c.isQuestion = false := by
  obtain ⟨store, rfl⟩ := h
  rfl

/-- Whether a pass sent a question. -/
def PromptReport.asks (r : PromptReport) : Bool := r.calls.any PromptCall.isQuestion

namespace Prompt

open Pass

variable (now : Instant) (w : PromptWorld) (p : Prompt) (ns : String) (m : Model)

@[simp] theorem resume_orError_ok {ε α : Type} (wrap : ε → PromptError) (a : α)
    (s : Progress Prompt PromptCall) : (orError wrap (.ok a)).resume s = (.ok a, s) := rfl

@[simp] theorem resume_orError_error {ε α : Type} (wrap : ε → PromptError) (e : ε)
    (s : Progress Prompt PromptCall) :
    (orError wrap (.error e) : Step α).resume s = (.error (wrap e), s) := rfl

/-- Ending with an outcome's error calls nothing. -/
theorem onlyCalls_orError {ε α : Type} (wrap : ε → PromptError) (x : Except ε α) :
    OnlyCalls PromptCall.IsLookup (orError wrap x) := by
  cases x with
  | ok a => exact OnlyCalls.pure a
  | error e => exact OnlyCalls.throw (wrap e)

/-! ## Gathering the images -/

theorem onlyCalls_resolveImage (index : Nat) (source : ImageSource) :
    OnlyCalls PromptCall.IsLookup (resolveImage w ns index source) := by
  rw [resolveImage]
  refine OnlyCalls.bind (onlyCalls_orError _ _) ?_
  intro place
  cases place with
  | inline image => exact OnlyCalls.pure image
  | key store key =>
      refine OnlyCalls.bind (OnlyCalls.call ⟨store, rfl⟩ _) ?_
      intro found
      cases found with
      | error e => exact OnlyCalls.throw _
      | ok doc => exact onlyCalls_orError _ _

/-- The images are gathered by lookups alone. -/
theorem onlyCalls_requestImages (sources : List ImageSource) (index : Nat) :
    OnlyCalls PromptCall.IsLookup (requestImages w ns index sources) := by
  induction sources generalizing index with
  | nil => exact OnlyCalls.pure []
  | cons source rest ih =>
      rw [requestImages]
      refine OnlyCalls.bind (onlyCalls_resolveImage w ns index source) ?_
      intro image
      refine OnlyCalls.bind (onlyCalls_orError _ _) ?_
      intro bytes
      refine OnlyCalls.bind (ih (index + 1)) ?_
      intro more
      exact OnlyCalls.pure _

/-! ## Asking -/

/-- The note of a recorded reply. -/
def recordedNote (question : Inference.GenerateRequest) (reply : Inference.GenerateReply) :
    Event :=
  ⟨.normal, "ResponseRecorded", "Generate",
    some s!"Recorded response of {reply.evalCount} tokens from {quoted question.model}"⟩

/-- The prompt with a reply recorded. -/
def withReply (reply : Inference.GenerateReply) (p : Prompt) : Prompt :=
  { p with status := some (p.statusOrEmpty.record reply) }.setConditions [.available now]

/-- How a pass ends that has sent its question. -/
def afterQuestion (question : Inference.GenerateRequest) (s : Progress Prompt PromptCall) :
    Except PromptError Action × Progress Prompt PromptCall :=
  match w.generate with
  | .error e => (.error (.generate e), s)
  | .ok reply =>
    (.ok .awaitChange,
      { s with resource := withReply now reply s.resource
               events := s.events ++ [recordedNote question reply] })

/-- The parts of a question: options, images and conversation, as far as they can be
    gathered. -/
structure Parts (options : Option Members) (images : List String)
    (context : Option (List Int)) : Prop where
  options : requestOptions p.spec.options = .ok options
  images : ∀ s, ((requestImages w ns 0 p.spec.images).resume s).1 = .ok images
  context : requestContext w.detail p.spec.context = .ok context

/-- **Gathering and asking.**  After some lookups the pass has all parts of its question,
    sends it and ends as its reply says; or a part is missing, and the pass fails, at any time
    in the same way. -/
theorem ask_parts :
    ∃ lookups : List PromptCall, (∀ c ∈ lookups, c.IsLookup) ∧
      ((∃ options images context, Parts w p ns options images context ∧
          ∀ now s, (ask now w p ns m).resume s =
            afterQuestion now w (p.request m options images context)
              (s.calling (lookups ++ [.forModel m.metadata.nameAny,
                .generate (p.request m options images context)]))) ∨
        (∀ options images context, ¬ Parts w p ns options images context) ∧
          ∃ e, ∀ now s, (ask now w p ns m).resume s = (.error e, s.calling lookups)) := by
  obtain ⟨images, lookups, hlookups, hrun⟩ :=
    onlyCalls_requestImages w ns p.spec.images 0
  -- options, images and context are checked in this order, and only the images are looked up
  cases hoptions : requestOptions p.spec.options with
  | error e =>
      refine ⟨[], by simp, Or.inr ⟨?_, e, ?_⟩⟩
      · intro options images context h
        cases hoptions.symm.trans h.options
      · intro now s
        rw [ask, resume_bind, hoptions, Progress.calling_nil]
        rfl
  | ok options =>
      refine ⟨lookups, hlookups, ?_⟩
      cases images with
      | error e =>
          refine Or.inr ⟨?_, e, ?_⟩
          · intro options images context h
            have himages := h.images { resource := p }
            rw [hrun] at himages
            cases himages
          · intro now s
            simp only [ask, resume_bind, hoptions, resume_orError_ok, hrun]
      | ok images =>
          cases hcontext : requestContext w.detail p.spec.context with
          | error e =>
              refine Or.inr ⟨?_, e, ?_⟩
              · intro options images context h
                cases hcontext.symm.trans h.context
              · intro now s
                simp only [ask, resume_bind, hoptions, resume_orError_ok, hrun, hcontext,
                  resume_orError_error, id]
          | ok context =>
              refine Or.inl ⟨options, images, context, ⟨hoptions, ?_, hcontext⟩, ?_⟩
              · intro s
                rw [hrun]
              · intro now s
                simp only [ask, resume_bind, hoptions, resume_orError_ok, hrun, hcontext,
                  resume_call, Progress.calling_calling, List.append_assoc,
                  List.singleton_append, afterQuestion]
                cases w.generate with
                | error e => rfl
                | ok reply => rfl

/-- **Asking.**  After some lookups the pass fails, or it sends one question that depends
    on nothing done before, and ends as its reply says. -/
theorem ask_cases :
    ∃ lookups : List PromptCall, (∀ c ∈ lookups, c.IsLookup) ∧
      ((∃ e, ∀ s, (ask now w p ns m).resume s = (.error e, s.calling lookups)) ∨
        ∃ question, ∀ s, (ask now w p ns m).resume s =
          afterQuestion now w question
            (s.calling (lookups ++ [.forModel m.metadata.nameAny, .generate question]))) := by
  obtain ⟨lookups, hlookups, ⟨_, _, _, -, hrun⟩ | ⟨-, e, hfail⟩⟩ := ask_parts w p ns m
  · exact ⟨lookups, hlookups, Or.inr ⟨_, hrun now⟩⟩
  · exact ⟨lookups, hlookups, Or.inl ⟨e, hfail now⟩⟩

/-! ## The exits of a pass -/

/-- The gates before a question: the prompt is in a namespace, and the model it names is
    there and can be used. -/
structure Gates : Prop where
  namespaced : p.metadata.namespace? = some ns
  found : w.model (p.spec.modelRef.namespaceFrom ns) p.spec.modelRef.name = .ok (some m)
  ready : m.isSyncedAndReady = true

/-- The call that looks the model of a prompt up. -/
def modelLookup : PromptCall :=
  .getModel (p.spec.modelRef.namespaceFrom ns) p.spec.modelRef.name

/-- Behind the gates a pass announces that it waits, or asks. -/
theorem body_of_gates {w : PromptWorld} {p : Prompt} {ns : String} {m : Model}
    (h : Gates w p ns m) (s : Progress Prompt PromptCall) :
    (body now w p).resume s =
      (askAnnounced now w p ns m).resume (s.calling [modelLookup p ns]) := by
  simp only [body, h.namespaced, resume_bind, resume_call, h.found, resume_orError_ok, h.ready,
    if_true]
  rfl

/-- The announcement, unless it stands already. -/
theorem resume_askAnnounced (s : Progress Prompt PromptCall) :
    (askAnnounced now w p ns m).resume s =
      if p.hasCondition (waitingCondition now) then (ask now w p ns m).resume s
      else (.ok .immediately,
        { s with resource := s.resource.setConditions [waitingCondition now] }) := by
  rw [askAnnounced]
  split
  · rfl
  · rfl

/-- **The exits.**  A pass fails early or leaves the prompt unavailable, at any time and with
    any stored status in the same way, or it gets through the gates. -/
theorem body_cases :
    (∃ e calls, (∀ c ∈ calls, c.isQuestion = false) ∧
      ∀ status now s, (body now w { p with status }).resume s = (.error e, s.calling calls)) ∨
    (∃ message calls, (∀ c ∈ calls, c.isQuestion = false) ∧
      ∀ status now s, (body now w { p with status }).resume s = (.ok .awaitChange,
        { s.calling calls with
          resource := s.resource.setConditions [.unavailable now message] })) ∨
    ∃ ns m, Gates w p ns m := by
  -- all exits but the last have looked up the model at most
  have hquiet : ∀ ns, ∀ c ∈ [modelLookup p ns], c.isQuestion = false := by
    intro ns c hc
    rw [List.mem_singleton.mp hc]
    rfl
  cases hns : p.metadata.namespace? with
  | none =>
      refine Or.inl ⟨.cluster (.invalid p.metadata.nameAny "Prompt must be namespaced"), [],
        by simp, ?_⟩
      intro status now s
      simp only [body, hns, resume_throw, Progress.calling_nil]
  | some ns =>
      cases hmodel : w.model (p.spec.modelRef.namespaceFrom ns) p.spec.modelRef.name with
      | error e =>
          refine Or.inl ⟨.model e, [modelLookup p ns], hquiet ns, ?_⟩
          intro status now s
          simp only [body, hns, resume_bind, resume_call, hmodel, resume_orError_error]
          rfl
      | ok found =>
          cases found with
          | none =>
              refine Or.inr (Or.inl ⟨"Referenced model does not exist", [modelLookup p ns],
                hquiet ns, ?_⟩)
              intro status now s
              simp only [body, hns, resume_bind, resume_call, hmodel, resume_orError_ok]
              rfl
          | some m =>
              by_cases hready : m.isSyncedAndReady = true
              · exact Or.inr (Or.inr ⟨ns, m, hns, hmodel, hready⟩)
              · refine Or.inr (Or.inl ⟨"Model is not ready and synced", [modelLookup p ns],
                  hquiet ns, ?_⟩)
                intro status now s
                simp only [body, hns, resume_bind, resume_call, hmodel, resume_orError_ok,
                  hready]
                rfl

end Prompt

end ModelOperator
