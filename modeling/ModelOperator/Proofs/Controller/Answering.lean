import ModelOperator.Proofs.Controller.PromptExit
import ModelOperator.Proofs.Resource.Conversation
import ModelOperator.Proofs.Text.Blank

/-!
# A prompt comes to be answered

    Take a prompt without an answer, and a world in which nothing stands in the way of one
    (`PromptTurn.Answerable`): the model can be used, the question can be put together, the
    server replies with more than blanks, and the status can be written.  Whatever conditions
    earlier passes have left, the first or the second pass writes the answer, and the run asks
    a single question, however long it is (`prompt_converges`).

    Two passes suffice because one of two things holds of the stored status.  It announces
    that the prompt waits, and then the pass asks and writes the answer
    (`PromptTurn.Answerable.answers`); or the pass announces it and asks nothing, and what it
    stores announces that the prompt waits (`PromptTurn.Answerable.announces`).  Once a status
    has an answer that is not empty, no pass makes a call (`calls_answered`). -/

namespace ModelOperator

/-- What can be sent for each source can be sent for all of them. -/
theorem ImageSource.forall₂_encodes {w : PromptWorld} {ns : String}
    {sources : List (ImageSource × Nat)} (h : ∀ source ∈ sources, ∃ text, Encodes w ns source text) :
    ∃ texts, List.Forall₂ (ImageSource.Encodes w ns) sources texts := by
  induction sources with
  | nil => exact ⟨[], .nil⟩
  | cons source rest ih =>
      obtain ⟨hsource, hrest⟩ := List.forall_mem_cons.mp h
      obtain ⟨text, htext⟩ := hsource
      obtain ⟨texts, htexts⟩ := ih hrest
      exact ⟨text :: texts, .cons htext htexts⟩

/-- **The answer is there.**  The status holds the text of a reply without the blanks at its
    end, a token of its conversation, and that the prompt is ready. -/
structure PromptStatus.Answers (s : PromptStatus) (reply : Inference.GenerateReply) : Prop where
  response : TrimsEnd reply.response s.response
  context : Conversation.decode s.context = .ok reply.context
  ready : ∃ c, s.conditions.get? Condition.readyType = some c ∧ c.status = .holds

namespace PromptTurn

/-- **Nothing stands in the way of an answer.**  The prompt is in a namespace, its model is
    there, synced and ready, its options, images and conversation can be read, and the server
    replies with a text that is not all blanks and a conversation of 64-bit numbers. -/
structure Answerable (t : PromptTurn) (ns : String) (m : Model)
    (reply : Inference.GenerateReply) : Prop where
  namespaced : t.metadata.namespace? = some ns
  found : t.world.model (t.spec.modelRef.namespaceFrom ns) t.spec.modelRef.name = .ok (some m)
  ready : m.isSyncedAndReady = true
  options : ∃ options, Prompt.Offers t.spec.options options
  images : ∀ source ∈ t.spec.images.zipIdx, ∃ text, ImageSource.Encodes t.world ns source text
  context : ∃ context, Prompt.Continues t.spec.context context
  replies : t.world.generate = .ok reply
  spoken : ∃ c ∈ reply.response.toList, isBlankChar c = false
  numbers : ∀ n ∈ reply.context, Fits64 n
  writes : t.world.patchStatus = .ok ()

namespace Answerable

open Prompt

variable {t : PromptTurn} {ns : String} {m : Model} {reply : Inference.GenerateReply}
  (h : t.Answerable ns m reply) {stored : Option PromptStatus}

include h

/-- The time of a pass is no obstacle. -/
theorem retimed (now : Instant) : Answerable { t with now } ns m reply := { h with }

theorem gates (stored : Option PromptStatus) : Gates t.world (t.prompt stored) ns m :=
  ⟨h.namespaced, h.found, h.ready⟩

/-- There is a question to ask. -/
theorem exists_asked (stored : Option PromptStatus) :
    ∃ q, Asked t.world (t.prompt stored) ns m q := by
  obtain ⟨options, hoptions⟩ := h.options
  obtain ⟨images, himages⟩ := ImageSource.forall₂_encodes h.images
  obtain ⟨context, hcontext⟩ := h.context
  exact ⟨(t.prompt stored).request m options images context,
    rfl, rfl, rfl, rfl, rfl, hoptions, hcontext, ⟨rfl, rfl⟩, himages⟩

/-- A pass asks the question of the prompt once if the prompt waits, and no question if it
    does not. -/
theorem questions {q : Inference.GenerateRequest} (hasked : Asked t.world (t.prompt stored) ns m q)
    (hempty : (t.prompt stored).statusOrEmpty.response = "") :
    (t.report stored).calls.filter PromptCall.isQuestion =
      if (t.prompt stored).hasCondition (waitingCondition t.now) then [.generate q] else [] := by
  rw [report, filter_isQuestion_reconcile t.now t.world hempty]
  obtain ⟨ns', m', q', hwaits, hgates, hasked', hquestions⟩ | ⟨hnone, hquestions⟩ :=
    (exit_body t.now t.world (t.prompt stored)).questions
  · obtain ⟨rfl, rfl⟩ := hgates.unique (h.gates stored)
    obtain rfl := hasked'.unique hasked
    rw [hquestions, if_pos hwaits]
  · rw [hquestions, if_neg fun hwaits => hnone ns m q hwaits (h.gates stored) hasked]

/-- **Announcing.**  A pass over a prompt that is not announced as waiting asks nothing, and it
    stores the announcement. -/
theorem announces (hempty : (t.prompt stored).statusOrEmpty.response = "")
    (hnew : (t.prompt stored).hasCondition (waitingCondition t.now) = false) :
    (t.report stored).calls.filter PromptCall.isQuestion = [] ∧
      ∃ s, (t.report stored).written = some s ∧ s.response = "" ∧
        (t.prompt (some s)).Waits := by
  obtain ⟨q, hasked⟩ := h.exists_asked stored
  have hquestions := h.questions hasked hempty
  rw [hnew] at hquestions
  obtain ⟨s, hwritten, hresponse, hwaits⟩ :=
    reconcile_announced hempty hnew (h.gates stored) h.writes
  refine ⟨hquestions, s, hwritten, hresponse, (hasCondition_waiting_iff t.now _).mp ?_⟩
  exact (conditioned.hasCondition_eq _ _).trans hwaits

/-- **Answering.**  A pass over a prompt that is announced as waiting asks its question, and it
    stores the answer. -/
theorem answers {q : Inference.GenerateRequest} (hasked : Asked t.world (t.prompt stored) ns m q)
    (hempty : (t.prompt stored).statusOrEmpty.response = "") (hwaits : (t.prompt stored).Waits) :
    (t.report stored).calls.filter PromptCall.isQuestion = [.generate q] ∧
      ∃ s, (t.report stored).written = some s ∧ s.Answers reply := by
  have hquestions := h.questions hasked hempty
  rw [if_pos ((hasCondition_waiting_iff t.now _).mpr hwaits)] at hquestions
  refine ⟨hquestions, ?_⟩
  have hasks : (reconcile t.now t.world (t.prompt stored)).asks = true := by
    have hsent : .generate q ∈ (t.report stored).calls := by
      rw [generate_mem_iff, hquestions]
      exact List.mem_singleton_self _
    exact List.any_eq_true.mpr ⟨_, hsent, rfl⟩
  obtain ⟨s, hwritten, hanswer, hready⟩ := reconcile_recorded hasks h.replies h.writes
  have hresponse : s.response = trimTextEnd reply.response := congrArg Answer.response hanswer
  have hcontext : s.context = Conversation.encode reply.context := congrArg Answer.context hanswer
  refine ⟨s, hwritten, ?_, ?_, ?_⟩
  · rw [hresponse]
    exact trimsEnd_trimTextEnd _
  · rw [hcontext]
    exact Conversation.decode_encode h.numbers
  · have hhas := (hready (.available t.now) rfl).trans (Condition.equivalent_refl _)
    obtain ⟨c, hc, hstatus, -⟩ := (s.conditions.has_iff _).mp hhas
    exact ⟨c, hc, hstatus⟩

/-- The answer is not empty. -/
theorem response_ne_empty {s : PromptStatus} (hs : s.Answers reply) : s.response ≠ "" := by
  obtain ⟨c, hmem, hc⟩ := h.spoken
  exact hs.response.ne_empty hmem hc

end Answerable

end PromptTurn

/-! ## Runs -/

/-- What the passes of a run do, one after the other. -/
def promptReports (stored : Option PromptStatus) : List PromptTurn → List PromptReport
  | [] => []
  | t :: rest => t.report stored :: promptReports (t.after stored) rest

/-- **Answered after so many passes.**  The pass that follows them writes a status with the
    answer, and that is the one that stands in the end; the run asks one question, and behind
    the answer no pass makes a call. -/
structure AnsweredAfter (before : Nat) (q : Inference.GenerateRequest)
    (reply : Inference.GenerateReply) (stored : Option PromptStatus) (turns : List PromptTurn) :
    Prop where
  answer : ∃ r s, (promptReports stored turns)[before]? = some r ∧ r.written = some s ∧
    s.Answers reply ∧ storedAfter stored turns = some s
  once : ((promptReports stored turns).flatMap (·.calls)).filter PromptCall.isQuestion =
    [.generate q]
  quiet : ∀ r ∈ (promptReports stored turns).drop (before + 1), r.calls = []

/-- No pass makes a call once there is an answer that is not empty. -/
theorem calls_answered {s : PromptStatus} (h : s.response ≠ "") (turns : List PromptTurn) :
    ∀ r ∈ promptReports (some s) turns, r.calls = [] := by
  induction turns with
  | nil => exact nofun
  | cons t rest ih =>
      rw [promptReports, (t.after_answered h).2, t.report_answered h]
      exact List.forall_mem_cons.mpr ⟨rfl, ih⟩

section Answered

variable {t : PromptTurn} {stored : Option PromptStatus} {s : PromptStatus}
  {q : Inference.GenerateRequest} {reply : Inference.GenerateReply}

/-- A pass that asks and stores an answer that is not empty ends the run, whatever follows. -/
theorem answeredAfter_zero
    (hasks : (t.report stored).calls.filter PromptCall.isQuestion = [.generate q])
    (hwritten : (t.report stored).written = some s) (hs : s.Answers reply)
    (hne : s.response ≠ "") (rest : List PromptTurn) :
    AnsweredAfter 0 q reply stored (t :: rest) := by
  have hafter := t.after_of_written hwritten
  have hquiet := calls_answered hne rest
  refine ⟨⟨_, s, rfl, hwritten, hs, ?_⟩, ?_, ?_⟩
  · show storedAfter (t.after stored) rest = some s
    rw [hafter]
    exact storedAfter_answered hne rest
  · have hrest : (promptReports (some s) rest).flatMap (·.calls) = [] :=
      List.flatMap_eq_nil_iff.mpr hquiet
    rw [promptReports, hafter, List.flatMap_cons, hrest, List.append_nil]
    exact hasks
  · rw [promptReports, hafter]
    exact hquiet

/-- A pass that asks nothing puts the answer off by one pass. -/
theorem AnsweredAfter.cons {before : Nat} {rest : List PromptTurn}
    (hquiet : (t.report stored).calls.filter PromptCall.isQuestion = [])
    (h : AnsweredAfter before q reply (t.after stored) rest) :
    AnsweredAfter (before + 1) q reply stored (t :: rest) := by
  obtain ⟨⟨r, s, hr, hanswer⟩, honce, hlater⟩ := h
  refine ⟨⟨r, s, ?_, hanswer⟩, ?_, hlater⟩
  · rw [promptReports, List.getElem?_cons_succ]
    exact hr
  · rw [promptReports, List.flatMap_cons, List.filter_append, hquiet]
    exact honce

end Answered

/-- **A prompt converges.**  Take a prompt without an answer, with any stored conditions, in a
    world in which nothing stands in the way of one.  There is one question to ask; if the
    prompt stands announced as waiting, the first pass answers it, and else the second one
    does, at whatever times the passes are. -/
theorem prompt_converges {t : PromptTurn} {ns : String} {m : Model}
    {reply : Inference.GenerateReply} (h : t.Answerable ns m reply)
    {stored : Option PromptStatus} (hnone : (t.prompt stored).response? = none) :
    ∃ q before, Prompt.Asked t.world (t.prompt stored) ns m q ∧
      (before = 0 ∧ (t.prompt stored).Waits ∨ before = 1 ∧ ¬ (t.prompt stored).Waits) ∧
      ∀ times : List Instant, before < times.length →
        AnsweredAfter before q reply stored (times.map fun now => { t with now }) := by
  have hempty := (Prompt.response?_eq_none_iff _).mp hnone
  obtain ⟨q, hasked⟩ := h.exists_asked stored
  -- the question does not depend on what is stored, so it is the same in every pass
  have hasked' : ∀ now stored', Prompt.Asked t.world (PromptTurn.prompt { t with now } stored')
      ns m q := fun _ _ => { hasked with }
  -- a pass at any time over a waiting prompt answers it
  have hlast : ∀ now stored', (t.prompt stored').statusOrEmpty.response = "" →
      (t.prompt stored').Waits → ∀ rest,
        AnsweredAfter 0 q reply stored' ({ t with now } :: rest) := by
    intro now stored' hempty hwaits rest
    obtain ⟨hasks, s, hwritten, hs⟩ := (h.retimed now).answers (hasked' now stored') hempty hwaits
    exact answeredAfter_zero hasks hwritten hs (h.response_ne_empty hs) rest
  by_cases hwaits : (t.prompt stored).Waits
  · refine ⟨q, 0, hasked, Or.inl ⟨rfl, hwaits⟩, fun times hlength => ?_⟩
    obtain ⟨now, rest, rfl⟩ := List.exists_cons_of_length_pos hlength
    exact hlast now stored hempty hwaits _
  · refine ⟨q, 1, hasked, Or.inr ⟨rfl, hwaits⟩, fun times hlength => ?_⟩
    obtain ⟨first, now, rest, rfl⟩ : ∃ first now rest, times = first :: now :: rest := by
      match times, hlength with
      | first :: now :: rest, _ => exact ⟨first, now, rest, rfl⟩
    have hnew : (t.prompt stored).hasCondition (Prompt.waitingCondition first) = false :=
      eq_false_of_ne_true (mt (Prompt.hasCondition_waiting_iff first _).mp hwaits)
    obtain ⟨hquiet, s, hwritten, hresponse, hwaits⟩ := (h.retimed first).announces hempty hnew
    refine AnsweredAfter.cons hquiet ?_
    rw [PromptTurn.after_of_written hwritten]
    exact hlast now (some s) hresponse hwaits _

/-- A pass over a prompt that brings an image, options and a conversation along, and a reply
    with a conversation. -/
def turnWithParts : PromptTurn :=
  let t := turnWithReply "Blue.\n"
  { t with
    world := { t.world with generate := .ok { response := "Blue.\n", context := [1, -2] } }
    spec :=
      { t.spec with
        context := some (Conversation.encode [7])
        options := some (.ofMembers [("seed", .int 7)])
        images := [{ inline := some { data := " Qmx1ZQ==\n" } }] } }

theorem answerable_turnWithParts :
    turnWithParts.Answerable "default" readyModel
      { response := "Blue.\n", context := [1, -2] } where
  namespaced := rfl
  found := rfl
  ready := by decide +kernel
  options := ⟨_, .object _⟩
  images := by
    intro source hsource
    obtain rfl := List.mem_singleton.mp hsource
    exact ⟨_, _, _, .inline _, rfl, rfl⟩
  context := ⟨_, .token (by decide +kernel) (Conversation.decode_encode (by decide))⟩
  replies := rfl
  spoken := ⟨'B', by decide⟩
  numbers := by decide
  writes := rfl

/-- From a status that tells of an answer it does not hold and of a failed pass, the second
    pass writes the answer, and the third one makes no call. -/
theorem prompt_converges_from_stale :
    let t := turnWithParts
    let reply : Inference.GenerateReply := { response := "Blue.\n", context := [1, -2] }
    let stale : PromptStatus :=
      { conditions := ⟨[.available default, .reconcileError default "connection refused"]⟩ }
    t.Answerable "default" readyModel reply ∧ (t.prompt (some stale)).response? = none ∧
      ∃ q, Prompt.Asked t.world (t.prompt (some stale)) "default" readyModel q ∧
        AnsweredAfter 1 q reply (some stale)
          [t, { t with now := ⟨1, 0, 0⟩ }, { t with now := ⟨2, 0, 0⟩ }] := by
  intro t reply stale
  have hnone : (t.prompt (some stale)).response? = none := by decide +kernel
  have hnew : ¬ (t.prompt (some stale)).Waits := by
    rw [← Prompt.hasCondition_waiting_iff default]
    decide +kernel
  obtain ⟨q, before, hasked, hbefore, hruns⟩ := prompt_converges answerable_turnWithParts hnone
  obtain ⟨-, hwaits⟩ | ⟨rfl, -⟩ := hbefore
  · exact absurd hwaits hnew
  · exact ⟨answerable_turnWithParts, hnone, q, hasked,
      hruns [default, ⟨1, 0, 0⟩, ⟨2, 0, 0⟩] (by decide)⟩

end ModelOperator
