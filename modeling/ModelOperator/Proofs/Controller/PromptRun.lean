import ModelOperator.Proofs.Controller.PromptPass

/-!
# A prompt over a run of passes

    Between two passes nothing is kept of a prompt but its stored status.  A run is a
    list of turns, each with its own clock, outcomes, metadata and specification; the
    status that one pass writes is what the next one reads, and a status that could not
    be written is lost.

    Once a reply is recorded and stored, the prompt is settled exactly when the recorded
    text is not empty: then no later pass asks or changes the answer
    (`answer_settled_iff`).  A reply of blanks alone is recorded as an empty text, which
    is how a prompt without an answer looks, and the prompt is asked again
    (`blank_reply_asks_twice`). -/

namespace ModelOperator

/-- One pass of a run: when it happens, what its calls come to, and what the prompt says
    apart from its status. -/
structure PromptTurn where
  now : Instant
  world : PromptWorld
  metadata : Metadata
  spec : PromptSpec

/-- The answer in a status: the text, the conversation, when it was made, and the
    measurements. -/
structure Answer where
  response : String
  context : String
  responseMeta : Option ResponseMeta
  metrics : Option ResponseMetrics
  deriving DecidableEq, Repr

/-- The answer that a status holds. -/
def PromptStatus.answer (s : PromptStatus) : Answer :=
  ⟨s.response, s.context, s.responseMeta, s.metrics⟩

/-- The answer that a reply makes. -/
def Answer.ofReply (r : Inference.GenerateReply) : Answer :=
  ⟨trimTextEnd r.response, Conversation.encode r.context, some ⟨r.createdAt⟩, some r.metrics⟩

namespace PromptTurn

/-- The prompt as the pass reads it. -/
def prompt (t : PromptTurn) (stored : Option PromptStatus) : Prompt :=
  ⟨t.metadata, t.spec, stored⟩

/-- What the pass does. -/
def report (t : PromptTurn) (stored : Option PromptStatus) : PromptReport :=
  (t.prompt stored).reconcile t.now t.world

/-- The status that is stored after the pass. -/
def after (t : PromptTurn) (stored : Option PromptStatus) : Option PromptStatus :=
  (t.report stored).written.or stored

end PromptTurn

/-- The status that is stored after a run of passes. -/
def storedAfter (stored : Option PromptStatus) (turns : List PromptTurn) : Option PromptStatus :=
  turns.foldl (fun s t => t.after s) stored

/-- **Settled.**  Whatever passes follow, none of them asks, and the stored answer stays
    what it is. -/
def Settled (stored : Option PromptStatus) : Prop :=
  ∀ (turns : List PromptTurn) (t : PromptTurn),
    (t.report (storedAfter stored turns)).asks = false ∧
    (t.after (storedAfter stored turns)).map PromptStatus.answer = stored.map PromptStatus.answer

namespace Prompt

open Pass

/-! ## One pass, from its body -/

theorem response?_eq_none_iff (p : Prompt) :
    p.response? = none ↔ p.statusOrEmpty.response = "" := by
  rcases p with ⟨metadata, spec, status⟩
  cases status with
  | none => exact ⟨fun _ => rfl, fun _ => rfl⟩
  | some s =>
      show (if s.response = "" then none else some s.response) = none ↔ s.response = ""
      by_cases h : s.response = "" <;> simp [h]

/-- The prompt as a pass over it leaves it, before the write. -/
def finalOf (now : Instant) (w : PromptWorld) (p : Prompt) : Prompt :=
  ((body now w p).resume { resource := p }).2.resource.stamped now
    ((body now w p).resume { resource := p }).1

/-- A prompt with an answer is left alone. -/
theorem reconcile_answered (now : Instant) (w : PromptWorld) {p : Prompt}
    (h : p.statusOrEmpty.response ≠ "") :
    reconcile now w p =
      { calls := [], events := [], written := none, result := .ok .awaitChange } := by
  have hsome : p.response?.isSome = true := by
    rw [Option.isSome_iff_ne_none]
    exact fun e => h ((response?_eq_none_iff p).mp e)
  rw [reconcile, if_pos hsome]

section Unanswered

variable (now : Instant) (w : PromptWorld) {p : Prompt} (h : p.statusOrEmpty.response = "")

include h

/-- A prompt without an answer gets a whole pass. -/
theorem reconcile_unanswered : reconcile now w p =
    controller.finish now w.patchStatus ((body now w p).resume { resource := p }) := by
  rw [reconcile, (response?_eq_none_iff p).mpr h]
  rfl

/-- Such a pass makes the calls of its body and then writes the status. -/
theorem reconcile_calls :
    (reconcile now w p).calls =
      ((body now w p).resume { resource := p }).2.calls ++
        [.patchStatus (finalOf now w p).statusOrEmpty] := by
  rw [reconcile_unanswered now w h]
  exact controller.finish_calls now _

/-- A pass asks when its body does: the write of the status is no question. -/
theorem reconcile_asks :
    (reconcile now w p).asks =
      ((body now w p).resume { resource := p }).2.calls.any PromptCall.isQuestion := by
  rw [PromptReport.asks]
  rw [reconcile_calls now w h, List.any_append]
  exact Bool.or_false _

end Unanswered

/-- Stamping a status keeps its answer. -/
theorem answer_stamped (now : Instant) (p : Prompt) (outcome : Except PromptError Action) :
    (p.stamped now outcome).statusOrEmpty.answer = p.statusOrEmpty.answer := by
  cases outcome <;> rfl

/-! ## A pass that asks -/

/-- A pass that asks went through the gates, found the announcement, and came to its
    question by lookups. -/
theorem gates_of_asks {now : Instant} {w : PromptWorld} {p : Prompt}
    (h : (reconcile now w p).asks = true) :
    p.statusOrEmpty.response = "" ∧ p.hasCondition (waitingCondition now) = true ∧
    ∃ ns m, Gates w p ns m ∧ ∃ calls question, ∀ s, (ask now w p ns m).resume s =
      afterQuestion now w question (s.calling (calls ++ [.generate question])) := by
  have hempty : p.statusOrEmpty.response = "" := by
    refine Decidable.byContradiction fun hne => ?_
    rw [reconcile_answered now w hne] at h
    cases h
  refine ⟨hempty, ?_⟩
  -- of all the ways through the body, only the one behind the gates holds a question
  rw [reconcile_asks now w hempty] at h
  obtain ⟨c, hc, hq⟩ := List.any_eq_true.mp h
  rcases body_cases w p with ⟨e, calls, hquiet, hrun⟩ | ⟨message, calls, hquiet, hrun⟩ |
    ⟨ns, m, hgates⟩
  · rw [hrun p.status] at hc
    exact absurd hq (by simp [hquiet c hc])
  · rw [hrun p.status] at hc
    exact absurd hq (by simp [hquiet c hc])
  · -- behind the gates the announcement decides
    rw [body_of_gates now hgates, resume_askAnnounced] at hc
    by_cases hannounced : p.hasCondition (waitingCondition now) = true
    · refine ⟨hannounced, ns, m, hgates, ?_⟩
      rw [if_pos hannounced] at hc
      obtain ⟨lookups, hlookups, hfail | hask⟩ := ask_cases now w p ns m
      · -- a question that cannot be put together is not sent
        obtain ⟨e, hrun⟩ := hfail
        rw [hrun] at hc
        rcases List.mem_append.mp hc with hlookup | hmore
        · rw [List.mem_singleton.mp hlookup] at hq
          cases hq
        · exact absurd hq (by simp [(hlookups c hmore).not_isQuestion])
      · obtain ⟨question, hrun⟩ := hask
        refine ⟨lookups ++ [.forModel m.metadata.nameAny], question, ?_⟩
        intro s
        rw [hrun, List.append_assoc]
        rfl
    · rw [if_neg hannounced] at hc
      rw [List.mem_singleton.mp hc] at hq
      cases hq

/-- Once it is announced, a prompt whose question can be put together asks. -/
theorem asks_of_gates {now : Instant} {w : PromptWorld} {p : Prompt} {ns : String} {m : Model}
    {calls : List PromptCall} {question : Inference.GenerateRequest}
    (hempty : p.statusOrEmpty.response = "")
    (hannounced : p.hasCondition (waitingCondition now) = true) (hgates : Gates w p ns m)
    (hask : ∀ s, (ask now w p ns m).resume s =
      afterQuestion now w question (s.calling (calls ++ [.generate question]))) :
    (reconcile now w p).asks = true := by
  rw [reconcile_asks now w hempty, body_of_gates now hgates, resume_askAnnounced,
    if_pos hannounced, hask]
  rw [afterQuestion]
  cases w.generate <;> simp [PromptCall.isQuestion]

/-- **Recording.**  A pass that asks, hears a reply and stores its status leaves the
    answer of that reply, announced as available. -/
theorem reconcile_recorded {now : Instant} {w : PromptWorld} {p : Prompt}
    {reply : Inference.GenerateReply} (h : (reconcile now w p).asks = true)
    (hreply : w.generate = .ok reply) (hw : w.patchStatus = .ok ()) :
    ∃ s, (reconcile now w p).written = some s ∧ s.answer = Answer.ofReply reply ∧
      ∀ c : Condition, c.type = Condition.readyType →
        s.conditions.has c = (Condition.available now).equivalent c := by
  obtain ⟨hempty, hannounced, ns, m, hgates, calls, question, hask⟩ := gates_of_asks h
  rw [reconcile_unanswered now w hempty]
  refine ⟨(finalOf now w p).statusOrEmpty, controller.finish_written now _ hw, ?_, ?_⟩
  -- both facts read off the status that the pass stamps after its question
  all_goals
    rw [finalOf]
    rw [body_of_gates now hgates, resume_askAnnounced, if_pos hannounced, hask]
    simp only [afterQuestion, hreply, Progress.calling_resource]
  · rw [answer_stamped]
    rfl
  · intro c hc
    refine (controller.has_stamped now _ _ hc).trans ?_
    exact (conditioned.has_setConditions _ _ c).trans (if_pos hc.symm)

/-- A pass that gets through the gates unannounced stores the announcement, and no
    answer. -/
theorem reconcile_announced {now : Instant} {w : PromptWorld} {p : Prompt} {ns : String}
    {m : Model} (hempty : p.statusOrEmpty.response = "")
    (hannounced : p.hasCondition (waitingCondition now) = false) (hgates : Gates w p ns m)
    (hw : w.patchStatus = .ok ()) :
    ∃ s, (reconcile now w p).written = some s ∧ s.response = "" ∧
      s.conditions.has (waitingCondition now) = true := by
  rw [reconcile_unanswered now w hempty]
  refine ⟨(finalOf now w p).statusOrEmpty, controller.finish_written now _ hw, ?_⟩
  rw [finalOf]
  rw [body_of_gates now hgates, resume_askAnnounced, if_neg (by simp [hannounced])]
  constructor
  · have hsame := answer_stamped now (p.setConditions [waitingCondition now]) (.ok .immediately)
    exact (congrArg Answer.response hsame).trans hempty
  · refine (controller.has_stamped now _ _ rfl).trans ?_
    refine (conditioned.has_setConditions p (waitingCondition now) (waitingCondition now)).trans ?_
    simp

end Prompt

/-! ## Runs -/

theorem PromptTurn.after_of_written {t : PromptTurn} {stored : Option PromptStatus}
    {s : PromptStatus} (h : (t.report stored).written = some s) : t.after stored = some s := by
  rw [after, h]
  rfl

/-- A pass over a stored answer that is not empty does nothing. -/
theorem PromptTurn.report_answered {s : PromptStatus} (h : s.response ≠ "") (t : PromptTurn) :
    t.report (some s) =
      { calls := [], events := [], written := none, result := .ok .awaitChange } :=
  Prompt.reconcile_answered t.now t.world h

/-- A stored answer that is not empty is left alone by a pass. -/
theorem PromptTurn.after_answered {s : PromptStatus} (h : s.response ≠ "") (t : PromptTurn) :
    (t.report (some s)).asks = false ∧ t.after (some s) = some s := by
  refine ⟨by rw [t.report_answered h]; rfl, ?_⟩
  rw [after, t.report_answered h]
  rfl

theorem storedAfter_answered {s : PromptStatus} (h : s.response ≠ "")
    (turns : List PromptTurn) : storedAfter (some s) turns = some s := by
  induction turns with
  | nil => rfl
  | cons t rest ih =>
      show storedAfter (t.after (some s)) rest = some s
      rw [(t.after_answered h).2]
      exact ih

/-- A status with an answer is settled. -/
theorem settled_of_response_ne_empty {s : PromptStatus} (h : s.response ≠ "") :
    Settled (some s) := by
  intro turns t
  rw [storedAfter_answered h turns]
  exact ⟨(t.after_answered h).1, congrArg _ (t.after_answered h).2⟩

/-- **Asked again.**  When a pass recorded an empty text, the same pass once more
    announces that it waits, and once more after that asks. -/
theorem asks_again {t : PromptTurn} {stored : Option PromptStatus} {s : PromptStatus}
    (hasks : (t.report stored).asks = true) (hempty : s.response = "")
    (hready : s.conditions.has (Prompt.waitingCondition t.now) = false)
    (hwrite : t.world.patchStatus = .ok ()) :
    (t.report (t.after (some s))).asks = true := by
  obtain ⟨-, -, ns, m, hgates, calls, question, hask⟩ := Prompt.gates_of_asks hasks
  -- gates and question depend on the turn alone, so they are the same for every status
  have hgates' : ∀ s', Prompt.Gates t.world (t.prompt s') ns m := fun _ =>
    ⟨hgates.namespaced, hgates.found, hgates.ready⟩
  obtain ⟨waiting, hwritten, hresponse, hannounced⟩ :=
    Prompt.reconcile_announced (p := t.prompt (some s)) hempty
      ((Prompt.conditioned.hasCondition_eq _ _).trans hready) (hgates' (some s)) hwrite
  rw [t.after_of_written hwritten]
  exact Prompt.asks_of_gates (p := t.prompt (some waiting)) hresponse
    ((Prompt.conditioned.hasCondition_eq _ _).trans hannounced) (hgates' (some waiting)) hask

/-- **Answered once, unless the answer is blank.**  After a pass that asked, heard a reply
    and stored its status, the answer of that reply is stored; and it is settled exactly
    when the reply's text is more than blanks. -/
theorem answer_settled_iff {t : PromptTurn} {stored : Option PromptStatus}
    {reply : Inference.GenerateReply} (hasks : (t.report stored).asks = true)
    (hreply : t.world.generate = .ok reply) (hwrite : t.world.patchStatus = .ok ()) :
    (t.after stored).map PromptStatus.answer = some (Answer.ofReply reply) ∧
      (Settled (t.after stored) ↔ trimTextEnd reply.response ≠ "") := by
  obtain ⟨s, hwritten, hanswer, hready⟩ := Prompt.reconcile_recorded hasks hreply hwrite
  have hafter : t.after stored = some s := by
    show (t.report stored).written.or stored = _
    rw [show (t.report stored).written = some s from hwritten]
    rfl
  have hresponse : s.response = trimTextEnd reply.response := congrArg Answer.response hanswer
  rw [hafter]
  refine ⟨congrArg some hanswer, ?_, ?_⟩
  · intro hsettled hblank
    -- an empty answer is no answer: the same turn, twice more, asks again
    have hwaits : s.conditions.has (Prompt.waitingCondition t.now) = false := by
      rw [hready _ rfl]
      rfl
    have hagain := asks_again hasks (hresponse.trans hblank) hwaits hwrite
    have hquiet := (hsettled [t] t).1
    exact absurd (hquiet.symm.trans hagain) Bool.false_ne_true
  · intro hne
    exact settled_of_response_ne_empty (hresponse ▸ hne)

/-! ## A prompt and its replies -/

/-- A model that can be used. -/
def readyModel : Model where
  metadata := ⟨[("name", .str "gemma"), ("namespace", .str "default")]⟩
  spec := { model := "gemma2:2b" }
  status := some { conditions := .ofList [.reconcileSuccess default, .available default] }

/-- A pass over a prompt whose model can be used and replies with a text. -/
def turnWithReply (text : String) : PromptTurn where
  now := default
  world :=
    { model := fun _ _ => .ok (some readyModel)
      store := fun _ => ⟨fun _ => .ok none⟩
      generate := .ok { response := text }
      patchStatus := .ok () }
  metadata := ⟨[("name", .str "haiku"), ("namespace", .str "default")]⟩
  spec := { modelRef := { name := "gemma" }, prompt := "Write a haiku" }

/-- The second pass records the reply, and nothing asks any more. -/
theorem answer_settled_two_passes :
    ((turnWithReply "Blue.\n").report (storedAfter none [turnWithReply "Blue.\n"])).asks = true ∧
      Settled (storedAfter none [turnWithReply "Blue.\n", turnWithReply "Blue.\n"]) := by
  have hasks : ((turnWithReply "Blue.\n").report
      (storedAfter none [turnWithReply "Blue.\n"])).asks = true := by decide +kernel
  exact ⟨hasks, (answer_settled_iff hasks rfl rfl).2.mpr (by decide +kernel)⟩

/-- A reply of blanks is asked for a second time, and never settled. -/
theorem blank_reply_asks_twice :
    let t := turnWithReply " \n"
    (t.report (storedAfter none [t])).asks = true ∧
      (t.report (storedAfter none [t, t, t])).asks = true ∧
      ¬ Settled (storedAfter none [t, t]) := by
  have hagain : ((turnWithReply " \n").report (storedAfter none
      [turnWithReply " \n", turnWithReply " \n", turnWithReply " \n"])).asks = true := by
    decide +kernel
  refine ⟨by decide +kernel, hagain, ?_⟩
  intro hsettled
  have hquiet := (hsettled [turnWithReply " \n"] (turnWithReply " \n")).1
  exact absurd (hquiet.symm.trans hagain) Bool.false_ne_true

end ModelOperator
