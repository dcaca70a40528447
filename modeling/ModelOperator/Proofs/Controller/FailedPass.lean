import ModelOperator.Proofs.Controller.SteadyStatus

/-!
# What a failed pass leaves of a prompt

    The body of a pass over a prompt may fail at many places: before the model is known, at
    the options, at any of the images, at the conversation, or at the reply.  At none of them
    has it touched the prompt (`Prompt.Exit.left_of_error`).  So the status that the pass writes
    then is the stored one, stamped (`Prompt.reconcile_failed`): the answer stays what it is,
    and with it the announcement that the prompt waits for one
    (`Prompt.failed_pass_keeps_answer`). -/

namespace ModelOperator

/-- **The answer state is kept.**  The new status holds the answer of the old one and says the
    same of readiness.  It differs at most in the generation seen and in the condition that
    tells how the last pass went. -/
structure PromptStatus.KeepsAnswer (old new : PromptStatus) : Prop where
  response : new.response = old.response
  context : new.context = old.context
  responseMeta : new.responseMeta = old.responseMeta
  metrics : new.metrics = old.metrics
  ready : new.conditions.get? Condition.readyType = old.conditions.get? Condition.readyType
  conditions : new.conditions.items.filter (fun c => c.type != Condition.syncedType) =
    old.conditions.items.filter fun c => c.type != Condition.syncedType

/-- Whatever else is said of the last pass and of the generation seen, the answer is kept. -/
theorem PromptStatus.keepsAnswer_of_synced (s : PromptStatus) {c : Condition}
    (hc : c.type = Condition.syncedType) (generation : Int) :
    s.KeepsAnswer
      { s with conditions := s.conditions.set [c], observedGeneration := generation } := by
  have hready : Condition.readyType ≠ c.type := by rw [hc]; decide
  have hother : ∀ d : Condition, d.type = c.type → (d.type != Condition.syncedType) = false := by
    intro d hd
    rw [hd, hc]
    exact bne_self_eq_false _
  exact ⟨rfl, rfl, rfl, rfl, ConditionSet.get?_set_of_ne _ hready,
    ConditionSet.filter_put_of_false hother _⟩

namespace Prompt

open Pass

variable {now : Instant} {w : PromptWorld} {p : Prompt} {e : PromptError}

/-- A body that fails has not touched the prompt. -/
theorem Exit.left_of_error {calls : List PromptCall} {left : Prompt}
    (h : Exit now w p calls left (.error e)) : left = p := by
  cases h with
  | unnamespaced | unread | incomplete | refused => rfl

/-- The stamp of a failure goes over the stored status. -/
theorem finalOf_failed (h : ((body now w p).runOn p).1 = .error e) :
    (finalOf now w p).statusOrEmpty = p.statusTold now .nothing (.error e) := by
  have hexit := exit_body now w p
  rw [runOn_eq_resume] at h
  rw [Ends, h] at hexit
  rw [finalOf, h, hexit.left_of_error]
  exact status_stamped_tell .nothing (.error e)

/-- **A failed pass.**  Over a prompt without an answer it writes the stored status, stamped with
    the failure, and nothing else; over a prompt with an answer it writes nothing. -/
theorem reconcile_failed (h : ((body now w p).runOn p).1 = .error e) :
    (reconcile now w p).calls.filter PromptCall.isWrite =
        (if p.response? = none then [.patchStatus (p.statusTold now .nothing (.error e))]
          else []) ∧
      ∀ s, (reconcile now w p).written = some s →
        s = p.statusTold now .nothing (.error e) := by
  by_cases hempty : p.statusOrEmpty.response = ""
  · rw [if_pos ((response?_eq_none_iff p).mpr hempty), reconcile_calls now w hempty,
      finalOf_failed h, List.filter_append]
    constructor
    · -- no call of the body is a write
      have hquiet : ((body now w p).resume { resource := p }).2.calls.filter
          PromptCall.isWrite = [] := by
        refine List.filter_eq_nil_iff.mpr fun c hc => ?_
        rw [(exit_body now w p).unwritten c hc]
        exact Bool.false_ne_true
      rw [hquiet]
      rfl
    · intro s hwritten
      rw [reconcile_unanswered now w hempty] at hwritten
      exact (controller.of_finish_written now _ hwritten).2.trans (finalOf_failed h)
  · rw [if_neg (mt (response?_eq_none_iff p).mp hempty), reconcile_answered now w hempty]
    exact ⟨rfl, nofun⟩

/-- **A failure leaves the answer state intact.**  When the body of a pass fails, wherever it
    does, every status that the pass sends or stores keeps the answer state of the stored one;
    and a pass over a prompt without an answer sends one. -/
theorem failed_pass_keeps_answer (h : ((body now w p).runOn p).1 = .error e) :
    (∀ s, .patchStatus s ∈ (reconcile now w p).calls ∨ (reconcile now w p).written = some s →
        p.statusOrEmpty.KeepsAnswer s) ∧
      (p.response? = none → ∃ s, .patchStatus s ∈ (reconcile now w p).calls) := by
  obtain ⟨hcalls, hwritten⟩ := reconcile_failed h
  have hsent : ∀ s, .patchStatus s ∈ (reconcile now w p).calls ↔
      p.response? = none ∧ s = p.statusTold now .nothing (.error e) := by
    intro s
    have hmem : .patchStatus s ∈ (reconcile now w p).calls ↔
        .patchStatus s ∈ (reconcile now w p).calls.filter PromptCall.isWrite := by
      rw [List.mem_filter]
      exact (and_iff_left rfl).symm
    rw [hmem, hcalls]
    split
    · next hnone => simp [hnone]
    · next hsome => simp [hsome]
  refine ⟨fun s hs => ?_, fun hnone => ⟨_, (hsent _).mpr ⟨hnone, rfl⟩⟩⟩
  have hstatus : s = p.statusTold now .nothing (.error e) :=
    hs.elim (fun hs => ((hsent s).mp hs).2) (hwritten s)
  rw [hstatus]
  exact p.statusOrEmpty.keepsAnswer_of_synced rfl p.metadata.generation

/-- A prompt that waits for its answer goes on waiting when the server refuses the question: the
    announcement that it made at its generation stands, and so does a condition of another
    writer. -/
theorem refused_question_keeps_answer :
    let refusal := Inference.Error.status .generate 500 "model runner has stopped"
    let t := turnWithReply "Blue.\n"
    let w := { t.world with generate := .error refusal }
    let waiting := { waitingCondition default with generation := 3 }
    let audited : Condition := ⟨"Audited", .unknown, "Pending", "", default, 1⟩
    let p := t.prompt (some { conditions := ⟨[audited, waiting]⟩, observedGeneration := 3 })
    ((body ⟨1, 0, 0⟩ w p).runOn p).1 = .error (.generate refusal) ∧
      ∃ s, .patchStatus s ∈ (reconcile ⟨1, 0, 0⟩ w p).calls ∧ p.statusOrEmpty.KeepsAnswer s ∧
        s.conditions.get? Condition.readyType = some waiting := by
  intro refusal t w waiting audited p
  have hfails : ((body ⟨1, 0, 0⟩ w p).runOn p).1 = .error (.generate refusal) := rfl
  obtain ⟨hkeeps, hsends⟩ := failed_pass_keeps_answer hfails
  obtain ⟨s, hs⟩ := hsends rfl
  have hkept := hkeeps s (Or.inl hs)
  exact ⟨hfails, s, hs, hkept, hkept.ready⟩

end Prompt

end ModelOperator
