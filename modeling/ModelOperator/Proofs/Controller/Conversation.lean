import ModelOperator.Proofs.Controller.PromptExit
import ModelOperator.Proofs.Resource.Conversation

/-!
# Conversations go on

    A reply brings the state of its conversation along.  The pass that asked records it as a
    token in the status, and a later prompt that has this token in its specification goes on
    from there: the question that it sends carries the numbers of the reply, also when there
    are none (`conversation_survives`).

    `PromptTurn.Unhindered` says that nothing but the conversation could stand in the way of a
    question. -/

namespace ModelOperator

namespace Prompt

/-- A token that can be read is a conversation to go on from. -/
theorem Continues.of_decode {token : String} {context : List Int}
    (h : Conversation.decode token = .ok context) : Continues (some token) (some context) :=
  .token (Conversation.ne_empty_of_decode h) h

end Prompt

/-- The conversation stands in the body of a question, if there is one. -/
theorem Inference.GenerateRequest.get?_context (q : GenerateRequest) :
    q.toJson.get? "context" = q.context.map fun ns => .arr (ns.map .int) := by
  rw [toJson]
  refine (Members.get?_ofPresent ?_ "context").trans ?_
  · simp
  · simp [List.lookup_cons]

/-- **The way is free.**  The prompt has no answer and stands announced as waiting, its model
    can be used, and its options and images can be sent. -/
structure PromptTurn.Unhindered (t : PromptTurn) (stored : Option PromptStatus) : Prop where
  unanswered : (t.prompt stored).response? = none
  waits : (t.prompt stored).Waits
  gates : ∃ ns m, Prompt.Gates t.world (t.prompt stored) ns m ∧
    ∃ images, List.Forall₂ (ImageSource.Encodes t.world ns) t.spec.images.zipIdx images
  options : ∃ options, Prompt.Offers t.spec.options options

namespace PromptTurn

variable {t : PromptTurn} {stored : Option PromptStatus} {context : List Int} {token : String}

/-- A prompt with a token sends questions that carry what the token holds, and no others. -/
theorem context_of_generate_mem (htoken : t.spec.context = some token)
    (hdecode : Conversation.decode token = .ok context) {q : Inference.GenerateRequest}
    (h : .generate q ∈ (t.report stored).calls) : q.context = some context := by
  obtain ⟨ns, m, -, hasked⟩ := Prompt.asked_of_generate_mem h
  have hcontinues : Prompt.Continues (some token) q.context := htoken ▸ hasked.context
  have hsame := (Prompt.requestContext_ok_iff t.world.detail _ _).mpr hcontinues
  rw [(Prompt.requestContext_ok_iff _ _ _).mpr (.of_decode hdecode)] at hsame
  exact (Except.ok.inj hsame).symm

/-- And it sends one when the way is free. -/
theorem exists_generate_mem (htoken : t.spec.context = some token)
    (hdecode : Conversation.decode token = .ok context) (h : t.Unhindered stored) :
    ∃ q, .generate q ∈ (t.report stored).calls := by
  obtain ⟨ns, m, hgates, images, himages⟩ := h.gates
  obtain ⟨options, hoptions⟩ := h.options
  have hcontinues : Prompt.Continues t.spec.context (some context) := htoken ▸ .of_decode hdecode
  have hasked : Prompt.Asked t.world (t.prompt stored) ns m
      ((t.prompt stored).request m options images (some context)) :=
    ⟨rfl, rfl, rfl, rfl, rfl, hoptions, hcontinues, ⟨rfl, rfl⟩, himages⟩
  exact ⟨_, Prompt.generate_mem_of_asked ((Prompt.response?_eq_none_iff _).mp h.unanswered)
    h.waits hgates hasked⟩

end PromptTurn

/-- **Conversations survive.**  When a pass asks, hears a reply whose conversation is of numbers
    of 64 bits, and stores its status, the token in that status holds the conversation.  Every
    question that is sent for a prompt with this token carries it, in its body too, and one is
    sent when the way is free.  What any token holds is held by its own token, and two
    conversations never share one. -/
theorem conversation_survives :
    (∀ (t : PromptTurn) (stored : Option PromptStatus) (reply : Inference.GenerateReply),
      (t.report stored).asks = true → t.world.generate = .ok reply →
      t.world.patchStatus = .ok () → (∀ n ∈ reply.context, Fits64 n) →
      ∃ s, (t.report stored).written = some s ∧
        Conversation.decode s.context = .ok reply.context ∧
        ∀ (later : PromptTurn) (before : Option PromptStatus),
          later.spec.context = some s.context →
          (∀ q, .generate q ∈ (later.report before).calls →
            q.context = some reply.context ∧
            q.toJson.get? "context" = some (.arr (reply.context.map .int))) ∧
          (later.Unhindered before → ∃ q, .generate q ∈ (later.report before).calls)) ∧
    (∀ token context, Conversation.decode token = .ok context →
      Conversation.decode (Conversation.encode context) = .ok context) ∧
    ∀ a b : List Int, (∀ n ∈ a, Fits64 n) → (∀ n ∈ b, Fits64 n) →
      Conversation.encode a = Conversation.encode b → a = b := by
  refine ⟨?_, fun _ _ => Conversation.decode_encode_of_decode, fun _ _ => Conversation.encode_inj⟩
  intro t stored reply hasks hreply hwrite hnumbers
  obtain ⟨s, hwritten, hanswer, -⟩ := Prompt.reconcile_recorded hasks hreply hwrite
  have htoken : s.context = Conversation.encode reply.context := congrArg Answer.context hanswer
  have hdecode : Conversation.decode s.context = .ok reply.context :=
    htoken ▸ Conversation.decode_encode hnumbers
  refine ⟨s, hwritten, hdecode, fun later before hlater => ⟨fun q hq => ?_,
    PromptTurn.exists_generate_mem hlater hdecode⟩⟩
  have hcontext := PromptTurn.context_of_generate_mem hlater hdecode hq
  refine ⟨hcontext, ?_⟩
  rw [q.get?_context, hcontext]
  rfl

/-- A pass over a prompt that goes on from a token, if there is one, and whose reply brings a
    conversation along. -/
def turnGoingOn (token : Option String) (context : List Int) : PromptTurn :=
  let t := turnWithReply "Blue.\n"
  { t with
    world := { t.world with generate := .ok { response := "Blue.\n", context } }
    spec := { t.spec with context := token } }

/-- A status that announces that the prompt waits. -/
def waitingStatus : PromptStatus := { conditions := .ofList [Prompt.waitingCondition default] }

theorem unhindered_turnGoingOn (token : Option String) (context : List Int) :
    (turnGoingOn token context).Unhindered (some waitingStatus) where
  unanswered := rfl
  waits := (Prompt.hasCondition_waiting_iff default _).mp (by rfl)
  gates := ⟨"default", readyModel, ⟨rfl, rfl, by decide +kernel⟩, [], .nil⟩
  options := ⟨none, .unset⟩

/-- The conversation of a reply is recorded, and a prompt with its token goes on from it. -/
def GoesOn (context : List Int) : Prop :=
  ∃ s, ((turnGoingOn none context).report (some waitingStatus)).written = some s ∧
    ∃ q, .generate q ∈ ((turnGoingOn (some s.context) []).report (some waitingStatus)).calls ∧
      q.context = some context

/-- A conversation of the least and the greatest number goes on, and so does one without
    numbers. -/
theorem conversation_survives_extremes :
    GoesOn [-9223372036854775808, 9223372036854775807] ∧ GoesOn [] := by
  have hsurvives : ∀ context, (∀ n ∈ context, Fits64 n) →
      ((turnGoingOn none context).report (some waitingStatus)).asks = true → GoesOn context := by
    intro context hnumbers hasks
    obtain ⟨s, hwritten, -, hlater⟩ := conversation_survives.1 _ _ _ hasks rfl rfl hnumbers
    obtain ⟨hcarried, hsent⟩ := hlater (turnGoingOn (some s.context) []) (some waitingStatus) rfl
    obtain ⟨q, hq⟩ := hsent (unhindered_turnGoingOn _ _)
    exact ⟨s, hwritten, q, hq, (hcarried q hq).1⟩
  exact ⟨hsurvives _ (by decide) (by decide +kernel), hsurvives _ (by decide) (by decide +kernel)⟩

end ModelOperator
