import ModelOperator.Proofs.Controller.PromptRun
import ModelOperator.Proofs.Controller.Question

/-!
# How a pass over a prompt ends

    The body of a pass ends early when the prompt has no namespace or its model cannot be
    used; it ends with the announcement that it waits; or it asks.  `Prompt.Exit` lists
    these ends once, each with the calls made until then, the prompt as it is left, and the
    outcome, and `Prompt.exit_body` says that every body ends in one of them.

    Read off that list, a pass sends a question exactly when every gate before it is open
    and the question can be put together; it then sends the one that the prompt asks, and
    no other (`Prompt.generates_iff`). -/

namespace ModelOperator

namespace Prompt

open Pass

variable {now : Instant} {w : PromptWorld} {p : Prompt} {ns : String} {m : Model}

/-! ## The ends of a body -/

/-- The calls of a pass that sends a question. -/
def asking (p : Prompt) (ns : String) (m : Model) (lookups : List PromptCall)
    (q : Inference.GenerateRequest) : List PromptCall :=
  [modelLookup p ns] ++ lookups ++ [.forModel m.metadata.nameAny, .generate q]

/-- The ends of a body: the calls made, the prompt as it is left, and the outcome. -/
inductive Exit (now : Instant) (w : PromptWorld) (p : Prompt) :
    List PromptCall → Prompt → Except PromptError Action → Prop
  | unnamespaced (hns : p.metadata.namespace? = none) :
      Exit now w p [] p
        (.error (.cluster (.invalid p.metadata.nameAny "Prompt must be namespaced")))
  | unread {ns : String} {e : ClusterError} (hns : p.metadata.namespace? = some ns)
      (hmodel : w.model (p.spec.modelRef.namespaceFrom ns) p.spec.modelRef.name = .error e) :
      Exit now w p [modelLookup p ns] p (.error (.model e))
  | missing {ns : String} (hns : p.metadata.namespace? = some ns)
      (hmodel : w.model (p.spec.modelRef.namespaceFrom ns) p.spec.modelRef.name = .ok none) :
      Exit now w p [modelLookup p ns]
        (p.setConditions [.unavailable now "Referenced model does not exist"]) (.ok .awaitChange)
  | unready {ns : String} {m : Model} (hns : p.metadata.namespace? = some ns)
      (hmodel : w.model (p.spec.modelRef.namespaceFrom ns) p.spec.modelRef.name = .ok (some m))
      (hready : m.isSyncedAndReady = false) :
      Exit now w p [modelLookup p ns]
        (p.setConditions [.unavailable now "Model is not ready and synced"]) (.ok .awaitChange)
  | announced {ns : String} {m : Model} (hgates : Gates w p ns m)
      (hnew : p.hasCondition (waitingCondition now) = false) :
      Exit now w p [modelLookup p ns] (p.setConditions [waitingCondition now]) (.ok .immediately)
  | incomplete {ns : String} {m : Model} {lookups : List PromptCall} {e : PromptError}
      (hgates : Gates w p ns m) (hwaits : p.hasCondition (waitingCondition now) = true)
      (hlookups : ∀ c ∈ lookups, c.IsLookup) (hnone : ∀ q, ¬ Asked w p ns m q) :
      Exit now w p ([modelLookup p ns] ++ lookups) p (.error e)
  | refused {ns : String} {m : Model} {lookups : List PromptCall}
      {q : Inference.GenerateRequest} {e : Inference.Error}
      (hgates : Gates w p ns m) (hwaits : p.hasCondition (waitingCondition now) = true)
      (hlookups : ∀ c ∈ lookups, c.IsLookup) (hasked : Asked w p ns m q)
      (hreply : w.generate = .error e) :
      Exit now w p (asking p ns m lookups q) p (.error (.generate e))
  | answered {ns : String} {m : Model} {lookups : List PromptCall}
      {q : Inference.GenerateRequest} {reply : Inference.GenerateReply}
      (hgates : Gates w p ns m) (hwaits : p.hasCondition (waitingCondition now) = true)
      (hlookups : ∀ c ∈ lookups, c.IsLookup) (hasked : Asked w p ns m q)
      (hreply : w.generate = .ok reply) :
      Exit now w p (asking p ns m lookups q) (withReply now reply p) (.ok .awaitChange)

/-- A pass ends as the list of ends says. -/
def Ends (now : Instant) (w : PromptWorld) (p : Prompt)
    (r : Except PromptError Action × Progress Prompt PromptCall) : Prop :=
  Exit now w p r.2.calls r.2.resource r.1

/-- Behind the gates a pass ends with the announcement or with what asking comes to. -/
theorem ends_askAnnounced (hgates : Gates w p ns m) :
    Ends now w p ((askAnnounced now w p ns m).resume
      (Progress.calling { resource := p } [modelLookup p ns])) := by
  rw [resume_askAnnounced]
  cases hwaits : p.hasCondition (waitingCondition now) with
  | false => exact .announced hgates hwaits
  | true =>
      rw [if_pos rfl]
      obtain ⟨lookups, hlookups, ⟨q, hasked, hrun⟩ | ⟨hnone, e, hrun⟩⟩ :=
        ask_exits now w p ns m
      · rw [hrun, Progress.calling_calling, ← List.append_assoc, afterQuestion]
        cases hreply : w.generate with
        | error e => exact .refused hgates hwaits hlookups hasked hreply
        | ok reply => exact .answered hgates hwaits hlookups hasked hreply
      · rw [hrun, Progress.calling_calling]
        exact .incomplete hgates hwaits hlookups hnone

/-- **Every body ends in one of the ways listed.** -/
theorem exit_body (now : Instant) (w : PromptWorld) (p : Prompt) :
    Ends now w p ((body now w p).resume { resource := p }) := by
  cases hns : p.metadata.namespace? with
  | none =>
      simp only [body, hns]
      exact .unnamespaced hns
  | some ns =>
      -- the gates are the namespace, the model that is found, and that it can be used
      cases hmodel : w.model (p.spec.modelRef.namespaceFrom ns) p.spec.modelRef.name with
      | error e =>
          simp only [body, hns, resume_bind, resume_call, hmodel, resume_orError_error]
          exact .unread hns hmodel
      | ok found =>
          cases found with
          | none =>
              simp only [body, hns, resume_bind, resume_call, hmodel, resume_orError_ok]
              exact .missing hns hmodel
          | some m =>
              cases hready : m.isSyncedAndReady with
              | true =>
                  have hgates : Gates w p ns m := ⟨hns, hmodel, hready⟩
                  rw [body_of_gates now hgates]
                  exact ends_askAnnounced hgates
              | false =>
                  simp only [body, hns, resume_bind, resume_call, hmodel, resume_orError_ok,
                    hready, Bool.false_eq_true, if_false]
                  exact .unready hns hmodel hready

/-! ## The question that is sent -/

/-- The stored `Ready` condition says that the prompt waits for an answer. -/
def Waits (p : Prompt) : Prop :=
  ∃ c, p.condition? Condition.readyType = some c ∧ c.status = .fails ∧ c.reason = "Creating" ∧
    c.message = "Waiting for model response"

theorem hasCondition_waiting_iff (now : Instant) (p : Prompt) :
    p.hasCondition (waitingCondition now) = true ↔ p.Waits :=
  conditioned.hasCondition_iff p (waitingCondition now)

/-- A prompt asks one question. -/
theorem Asked.unique {q q' : Inference.GenerateRequest} (h : Asked w p ns m q)
    (h' : Asked w p ns m q') : q = q' := by
  obtain ⟨options, images, context, hparts, rfl⟩ := (asked_iff q).mp h
  obtain ⟨options', images', context', hparts', rfl⟩ := (asked_iff q').mp h'
  cases hparts.options.symm.trans hparts'.options
  cases (hparts.images { resource := p }).symm.trans (hparts'.images { resource := p })
  cases hparts.context.symm.trans hparts'.context
  rfl

/-- There is one way through the gates. -/
theorem Gates.unique {ns' : String} {m' : Model} (h : Gates w p ns m) (h' : Gates w p ns' m') :
    ns = ns' ∧ m = m' := by
  cases h.namespaced.symm.trans h'.namespaced
  cases h.found.symm.trans h'.found
  exact ⟨rfl, rfl⟩

/-- The questions among the calls of a body are the one that is asked, once all gates are
    open. -/
theorem Exit.questions {calls : List PromptCall} {left : Prompt}
    {outcome : Except PromptError Action} (h : Exit now w p calls left outcome) :
    (∃ ns m q, p.hasCondition (waitingCondition now) = true ∧ Gates w p ns m ∧
        Asked w p ns m q ∧ calls.filter PromptCall.isQuestion = [.generate q]) ∨
      (∀ ns m q, p.hasCondition (waitingCondition now) = true → Gates w p ns m →
        ¬ Asked w p ns m q) ∧ calls.filter PromptCall.isQuestion = [] := by
  have hquiet : ∀ {lookups : List PromptCall}, (∀ c ∈ lookups, c.IsLookup) →
      lookups.filter PromptCall.isQuestion = [] := by
    intro lookups hlookups
    refine List.filter_eq_nil_iff.mpr fun c hc => ?_
    rw [(hlookups c hc).not_isQuestion]
    exact Bool.false_ne_true
  have hasks : ∀ {ns m lookups q}, (∀ c ∈ lookups, c.IsLookup) →
      (asking p ns m lookups q).filter PromptCall.isQuestion = [.generate q] := by
    intro ns m lookups q hlookups
    rw [asking, List.filter_append, List.filter_append, hquiet hlookups]
    rfl
  cases h with
  | unnamespaced hns =>
      refine Or.inr ⟨fun ns m q _ hgates => ?_, rfl⟩
      cases hns.symm.trans hgates.namespaced
  | unread hns hmodel | missing hns hmodel =>
      refine Or.inr ⟨fun ns m q _ hgates => ?_, rfl⟩
      cases hns.symm.trans hgates.namespaced
      cases hmodel.symm.trans hgates.found
  | unready hns hmodel hready =>
      refine Or.inr ⟨fun ns m q _ hgates => ?_, rfl⟩
      cases hns.symm.trans hgates.namespaced
      cases hmodel.symm.trans hgates.found
      cases hready.symm.trans hgates.ready
  | announced hgates hnew =>
      exact Or.inr ⟨fun _ _ _ hwaits => absurd (hnew.symm.trans hwaits) Bool.false_ne_true, rfl⟩
  | incomplete hgates hwaits hlookups hnone =>
      refine Or.inr ⟨fun ns m q _ hgates' => ?_, ?_⟩
      · obtain ⟨rfl, rfl⟩ := hgates.unique hgates'
        exact hnone q
      · rw [List.filter_append, hquiet hlookups]
        rfl
  | refused hgates hwaits hlookups hasked hreply | answered hgates hwaits hlookups hasked hreply =>
      exact Or.inl ⟨_, _, _, hwaits, hgates, hasked, hasks hlookups⟩

/-- The questions of a pass are those of its body: the write of the status is none. -/
theorem filter_isQuestion_reconcile (now : Instant) (w : PromptWorld)
    (h : p.statusOrEmpty.response = "") :
    (reconcile now w p).calls.filter PromptCall.isQuestion =
      ((body now w p).resume { resource := p }).2.calls.filter PromptCall.isQuestion := by
  rw [reconcile_calls now w h, List.filter_append]
  exact List.append_nil _

theorem generate_mem_iff (calls : List PromptCall) (q : Inference.GenerateRequest) :
    .generate q ∈ calls ↔ .generate q ∈ calls.filter PromptCall.isQuestion := by
  rw [List.mem_filter]
  exact (and_iff_left rfl).symm

/-- A question that is sent is one that the prompt asks behind its gates. -/
theorem asked_of_generate_mem {q : Inference.GenerateRequest}
    (h : .generate q ∈ (reconcile now w p).calls) : ∃ ns m, Gates w p ns m ∧ Asked w p ns m q := by
  by_cases hempty : p.statusOrEmpty.response = ""
  · rw [generate_mem_iff, filter_isQuestion_reconcile now w hempty] at h
    obtain ⟨ns, m, q', -, hgates, hasked, hquestions⟩ | ⟨-, hquestions⟩ :=
      (exit_body now w p).questions
    · rw [hquestions, List.mem_singleton, PromptCall.generate.injEq] at h
      exact ⟨ns, m, hgates, h ▸ hasked⟩
    · rw [hquestions] at h
      cases h
  · -- a prompt with an answer is left alone
    rw [reconcile_answered now w hempty] at h
    cases h

/-- A prompt that waits behind open gates sends the question that it asks. -/
theorem generate_mem_of_asked {q : Inference.GenerateRequest}
    (hempty : p.statusOrEmpty.response = "") (hwaits : p.Waits) (hgates : Gates w p ns m)
    (hasked : Asked w p ns m q) : .generate q ∈ (reconcile now w p).calls := by
  rw [generate_mem_iff, filter_isQuestion_reconcile now w hempty]
  obtain ⟨ns', m', q', -, hgates', hasked', hquestions⟩ | ⟨hnone, -⟩ :=
    (exit_body now w p).questions
  · obtain ⟨rfl, rfl⟩ := hgates.unique hgates'
    rw [hquestions, hasked.unique hasked']
    exact List.mem_singleton_self _
  · exact absurd hasked (hnone ns m q ((hasCondition_waiting_iff now p).mpr hwaits) hgates)

/-- **A question is gated and faithful.**  A pass sends at most one question, and it sends
    one exactly when no answer is recorded, the prompt stands announced as waiting, its model
    is there, synced and ready, and the question that it asks can be put together: that is
    the one it sends. -/
theorem generates_iff (now : Instant) (w : PromptWorld) (p : Prompt) :
    (reconcile now w p).calls.countP PromptCall.isQuestion ≤ 1 ∧
      ∀ q, .generate q ∈ (reconcile now w p).calls ↔
        p.response? = none ∧ p.Waits ∧ ∃ ns m, Gates w p ns m ∧ Asked w p ns m q := by
  by_cases hempty : p.statusOrEmpty.response = ""
  · simp only [List.countP_eq_length_filter, generate_mem_iff (reconcile now w p).calls,
      filter_isQuestion_reconcile now w hempty, response?_eq_none_iff, hempty, true_and,
      ← hasCondition_waiting_iff now]
    obtain ⟨ns, m, q, hwaits, hgates, hasked, hquestions⟩ | ⟨hnone, hquestions⟩ :=
      (exit_body now w p).questions
    · rw [hquestions]
      refine ⟨Nat.le_refl 1, fun q' => ?_⟩
      rw [List.mem_singleton, PromptCall.generate.injEq]
      constructor
      · rintro rfl
        exact ⟨hwaits, ns, m, hgates, hasked⟩
      · rintro ⟨-, ns', m', hgates', hasked'⟩
        obtain ⟨rfl, rfl⟩ := hgates.unique hgates'
        exact hasked'.unique hasked
    · rw [hquestions]
      refine ⟨Nat.zero_le 1, fun q => iff_of_false List.not_mem_nil ?_⟩
      rintro ⟨hwaits, ns, m, hgates, hasked⟩
      exact hnone ns m q hwaits hgates hasked
  · -- a prompt with an answer is left alone
    rw [reconcile_answered now w hempty]
    refine ⟨Nat.zero_le 1, fun q => iff_of_false List.not_mem_nil ?_⟩
    rintro ⟨hnone, -⟩
    exact hempty ((response?_eq_none_iff p).mp hnone)

end Prompt

end ModelOperator
