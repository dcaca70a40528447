import ModelOperator.Proofs.Controller.ModelRun
import ModelOperator.Proofs.Controller.SelfReport

/-!
# A settled status is written again as it is

    A controller is woken by every change of the objects that it watches, and it writes a
    status into them.  So a pass that finds nothing new has to write exactly the status that
    it read, times and generations included, or it would wake itself for ever.

    Some passes do find something new: one announces a pull or that it waits for an answer,
    one pulls, one records an answer.  Every other pass comes to a verdict about readiness
    (`Verdict`) that it comes to at any time and from any stored status, and it says it again
    in the same words.  A set of conditions that was told something is not changed by being
    told it again (`ConditionSet.set_told_again`), and so the second status is the first
    (`status_settles`), and so is every later one (`Model.settled_run`, `Prompt.settled_run`). -/

namespace ModelOperator

/-! ## Saying the same again -/

/-- A condition, said at another time. -/
def Condition.saidAt (time : Instant) (c : Condition) : Condition := { c with since := time }

/-- Conditions of different types that are set again at another time change nothing. -/
theorem ConditionSet.set_set_saidAt (s : ConditionSet) {cs : List Condition}
    (htypes : (cs.map (·.type)).Nodup) (time : Instant) :
    (s.set cs).set (cs.map (Condition.saidAt time)) = s.set cs := by
  refine set_of_covers fun d hd => ?_
  obtain ⟨c, hc, rfl⟩ := List.mem_map.mp hd
  have hcovers : (s.set cs).Covers c := s.covers_set htypes hc
  exact hcovers

/-- What a body says of readiness: nothing, that the resource cannot be used, and why, or
    that it can. -/
inductive Verdict where
  | nothing
  | unready (reason message : String)
  | ready

/-- The conditions of a verdict. -/
def Verdict.conditions (now : Instant) : Verdict → List Condition
  | nothing => []
  | unready reason message => [⟨Condition.readyType, .fails, reason, message, now, 0⟩]
  | ready => [.available now]

section Told

variable {ε : Type} (message : ε → String) (generation : Int) (outcome : Except ε Action)

/-- The conditions that tell a verdict and the outcome of its body. -/
def Verdict.told (now : Instant) (verdict : Verdict) : List Condition :=
  ConditionSet.stamped generation (verdict.conditions now) ++
    [outcomeCondition now message generation outcome]

/-- A verdict says nothing twice about one type. -/
theorem Verdict.types_told (now : Instant) (verdict : Verdict) :
    ((verdict.told message generation outcome now).map (·.type)).Nodup := by
  have hone : [Condition.syncedType].Nodup := by decide
  have htwo : [Condition.readyType, Condition.syncedType].Nodup := by decide
  cases verdict with
  | nothing => cases outcome <;> exact hone
  | unready | ready => cases outcome <;> exact htwo

/-- A later pass says the same with the later time. -/
theorem Verdict.told_later (now later : Instant) (verdict : Verdict) :
    verdict.told message generation outcome later =
      (verdict.told message generation outcome now).map (Condition.saidAt later) := by
  cases verdict <;> cases outcome <;> rfl

/-- Conditions that were told something are not changed by being told it again. -/
theorem ConditionSet.set_told_again (s : ConditionSet) (verdict : Verdict)
    (now later : Instant) :
    (s.set (verdict.told message generation outcome now)).set
        (verdict.told message generation outcome later) =
      s.set (verdict.told message generation outcome now) := by
  rw [verdict.told_later message generation outcome now later]
  exact s.set_set_saidAt (verdict.types_told message generation outcome now) later

end Told

/-- The resource after a verdict. -/
def Conditioned.tell {ρ σ : Type} (k : Conditioned ρ σ) (now : Instant) (r : ρ) : Verdict → ρ
  | .nothing => r
  | verdict => k.setConditions r (verdict.conditions now)

/-! ## A pass over a model -/

namespace Model

open Pass

variable {now : Instant} {w : ModelWorld} {m : Model}

/-- The model after a verdict. -/
def tell (now : Instant) (m : Model) (verdict : Verdict) : Model :=
  conditioned.tell now m verdict

/-- The model with these details, if there are any. -/
def noting (m : Model) : Option RecordedDetails → Model
  | none => m
  | some details => { m with status := some { m.statusOrEmpty with details := some details } }

/-- The status after a verdict, details and the outcome of the body. -/
def statusTold (now : Instant) (m : Model) (verdict : Verdict)
    (details : Option RecordedDetails) (outcome : Except ModelError Action) : ModelStatus where
  conditions := m.statusOrEmpty.conditions.set
    (verdict.told ModelError.message m.metadata.generation outcome now)
  observedGeneration := m.metadata.generation
  image := some m.spec.effectiveImage
  details := details.or m.statusOrEmpty.details

/-- The status a pass leaves with its verdict is the one it tells. -/
theorem status_stamped_tell (verdict : Verdict) (details : Option RecordedDetails)
    (outcome : Except ModelError Action) :
    (((m.noting details).tell now verdict).stamped now outcome).statusOrEmpty =
      m.statusTold now verdict details outcome := by
  cases verdict <;> cases details <;> cases outcome <;> rfl

/-- Told again of the status it has told, a verdict changes nothing. -/
theorem statusTold_again (later : Instant) (verdict : Verdict)
    (details : Option RecordedDetails) (outcome : Except ModelError Action) :
    statusTold later { m with status := some (m.statusTold now verdict details outcome) } verdict
        details outcome =
      m.statusTold now verdict details outcome := by
  -- generation and image come from the model, so only conditions and details are in question
  show (⟨_, _, _, details.or (details.or _)⟩ : ModelStatus) = ⟨_, _, _, details.or _⟩
  congr 1
  · exact ConditionSet.set_told_again ..
  · cases details <;> rfl

/-- **Steady.**  At any time and after whatever was done before, a part of a pass makes the same
    calls and comes to the same verdict, details and outcome. -/
def Steady (p : Instant → Step Action) : Prop :=
  ∃ calls verdict details outcome, ∀ now s, (p now).resume s =
    (outcome, { s.calling calls with resource := (s.resource.noting details).tell now verdict })

/-- A part of a pass is steady, or goes on to have a model fetched. -/
def SteadyOrFetches (w : ModelWorld) (id : String) (p : Instant → Step Action) : Prop :=
  Steady p ∨ ∃ calls, ∀ now s, (p now).resume s = (fetch now w id).resume (s.calling calls)

variable {id : String} {p q : Instant → Step Action}

/-- Requests made before do not matter to whether a pass is steady. -/
theorem SteadyOrFetches.of_calls (h : SteadyOrFetches w id q) (calls : List ModelCall)
    (hcalls : ∀ now s, (p now).resume s = (q now).resume (s.calling calls)) :
    SteadyOrFetches w id p := by
  rcases h with ⟨more, verdict, details, outcome, hrun⟩ | ⟨more, hrun⟩
  · refine Or.inl ⟨calls ++ more, verdict, details, outcome, ?_⟩
    intro now s
    rw [hcalls, hrun, Progress.calling_calling, Progress.calling_resource]
  · refine Or.inr ⟨calls ++ more, ?_⟩
    intro now s
    rw [hcalls, hrun, Progress.calling_calling]

/-- A pass that ends in an error without touching the model is steady. -/
theorem steady_of_error (calls : List ModelCall) (e : ModelError)
    (h : ∀ now s, (p now).resume s = (.error e, s.calling calls)) : SteadyOrFetches w id p :=
  Or.inl ⟨calls, .nothing, none, .error e, h⟩

/-- A pass that marks the model not ready and ends is steady. -/
theorem steady_of_unready (calls : List ModelCall) (reason message : String)
    (outcome : Except ModelError Action)
    (h : ∀ now s, (p now).resume s = (outcome, { s.calling calls with
      resource := s.resource.setConditions
        [⟨Condition.readyType, .fails, reason, message, now, 0⟩] })) :
    SteadyOrFetches w id p :=
  Or.inl ⟨calls, .unready reason message, none, outcome, h⟩

/-- Recording the details of a model is steady, or the model is fetched. -/
theorem steady_recordAvailable (w : ModelWorld) (id : String) :
    SteadyOrFetches w id fun now => recordAvailable now w id := by
  cases hshow : w.inspect with
  | error e =>
      refine steady_of_unready [.inspect ⟨id⟩] "Unavailable" ""
        (.error (.inference "while fetching ollama model details" e)) ?_
      intro now s
      rw [resume_recordAvailable, hshow]
      rfl
  | ok reply =>
      refine Or.inl ⟨[.inspect ⟨id⟩], .ready, some (recordDetails reply.details),
        .ok .awaitChange, ?_⟩
      intro now s
      rw [resume_recordAvailable, hshow]
      rfl

/-- Serving is steady, or the model is fetched. -/
theorem steady_serve (w : ModelWorld) (m : Model) :
    SteadyOrFetches w m.spec.model fun now => serve now w m := by
  cases hlist : w.list with
  | error e =>
      refine steady_of_error [.forModel m.metadata.nameAny, .list]
        (.inference "failed to list local models" e) ?_
      intro now s
      rw [resume_serve, hlist]
  | ok present =>
      cases hlisted : present.contains m.spec.model with
      | true =>
          refine (steady_recordAvailable w m.spec.model).of_calls
            [.forModel m.metadata.nameAny, .list] ?_
          intro now s
          simp only [resume_serve, hlist, hlisted, if_true]
      | false =>
          refine Or.inr ⟨[.forModel m.metadata.nameAny, .list], ?_⟩
          intro now s
          simp only [resume_serve, hlist, hlisted, Bool.false_eq_true, if_false]

/-- Waiting for the stateful set is steady, or the model is fetched. -/
theorem steady_await (w : ModelWorld) (m : Model) (found : Option Json) :
    SteadyOrFetches w m.spec.model fun now => await now w m found := by
  cases found with
  | none =>
      refine steady_of_unready [] "Creating" "" (.ok workloadPoll) ?_
      intro now s
      rw [Progress.calling_nil]
      rfl
  | some doc =>
      cases hrollout : (Workload.of doc).rollout with
      | error reason =>
          refine steady_of_unready [] "Unavailable" "" (.error (.readiness reason)) ?_
          intro now s
          simp only [await, hrollout, Progress.calling_nil]
          rfl
      | ok rollout =>
          cases hready : rollout.ready with
          | true =>
              simp only [await, hrollout, hready, if_true]
              exact steady_serve w m
          | false =>
              refine steady_of_unready [] "Unavailable" rollout.message (.ok .awaitChange) ?_
              intro now s
              simp only [await, hrollout, hready, Bool.false_eq_true, if_false,
                Progress.calling_nil]
              rfl

/-- **What a body comes to.**  It is steady, or it goes on to have the model fetched. -/
theorem steady_body (w : ModelWorld) (m : Model) :
    SteadyOrFetches w m.spec.model fun now => body now w m := by
  cases hns : m.metadata.namespace? with
  | none =>
      refine steady_of_error []
        (.cluster (.invalid m.metadata.nameAny "Model must be namespaced")) ?_
      intro now s
      simp only [body, hns, resume_throw, Progress.calling_nil]
  | some ns =>
    cases hrender : m.render with
    | error fault =>
        refine steady_of_error [] (.render { fault with detail := w.detail }) ?_
        intro now s
        simp only [body, hns, hrender, resume_throw, Progress.calling_nil]
    | ok rendered =>
      -- from here on each call has to succeed for the next one to be made
      cases hset : w.applyStatefulSet with
      | error e =>
          refine steady_of_error [.applyStatefulSet rendered.statefulSet] (.cluster e) ?_
          intro now s
          simp only [body, hns, hrender, resume_bind, resume_call, hset,
            resume_orClusterError_error]
      | ok _ =>
        cases hservice : w.applyService with
        | error e =>
            refine steady_of_error
              [.applyStatefulSet rendered.statefulSet, .applyService rendered.service]
              (.cluster e) ?_
            intro now s
            simp only [body, hns, hrender, resume_bind, resume_call, hset, hservice,
              resume_orClusterError_ok, resume_orClusterError_error, Progress.calling_calling]
            rfl
        | ok _ =>
          cases hget : w.statefulSet with
          | error e =>
              refine steady_of_error (opening m rendered ns) (.cluster e) ?_
              intro now s
              simp only [body, hns, hrender, resume_bind, resume_call, hset, hservice, hget,
                resume_orClusterError_ok, resume_orClusterError_error, Progress.calling_calling]
              rfl
          | ok found =>
              refine (steady_await w m found).of_calls (opening m rendered ns) ?_
              intro now s
              simp only [body, hns, hrender, resume_bind, resume_call, hset, hservice, hget,
                resume_orClusterError_ok, Progress.calling_calling]
              rfl

/-- **Quiet.**  A pass pulls nothing and announces nothing: if the status announces the pull
    after it, it did so before. -/
structure Quiet (now : Instant) (w : ModelWorld) (m : Model) : Prop where
  pulls : (reconcile now w m).pulls = false
  announces : (reconcile now w m).announces m.spec.model = true →
    m.hasCondition (pullingCondition now m.spec.model) = true

/-- Once it is announced, fetching a model begins with its pull. -/
theorem fetch_pulls {s : Progress Model ModelCall}
    (h : s.resource.hasCondition (pullingCondition now id) = true) :
    ((fetch now w id).resume s).2.calls.any ModelCall.isPull = true := by
  rw [resume_fetch, if_pos h]
  cases w.pull with
  | error e => simp [pulling, ModelCall.isPull]
  | ok last =>
      cases hsuccess : last.isSuccess with
      | true =>
          simp only [hsuccess, if_true, resume_recordAvailable]
          cases w.inspect <;> simp [pulling, ModelCall.isPull]
      | false => simp [hsuccess, pulling, ModelCall.isPull]

/-- A pass that goes on to have the model fetched is not quiet. -/
theorem not_quiet_of_fetches {calls : List ModelCall} (hw : w.patchStatus = .ok ())
    (hrun : ∀ s, (body now w m).resume s =
      (fetch now w m.spec.model).resume (s.calling calls)) :
    ¬ Quiet now w m := by
  intro hquiet
  cases hannounced : m.hasCondition (pullingCondition now m.spec.model) with
  | true =>
      -- what is announced is pulled, whatever the pull comes to
      have hpulls : (reconcile now w m).pulls = true := by
        rw [ModelReport.pulls, reconcile_calls, hrun, List.any_append]
        rw [fetch_pulls hannounced]
        rfl
      exact Bool.false_ne_true (hquiet.pulls.symm.trans hpulls)
  | false =>
      -- what is not announced yet is announced now
      have hleft : ((body now w m).resume { resource := m }).2.resource =
          m.setConditions [pullingCondition now m.spec.model] := by
        rw [hrun, resume_fetch, if_neg]
        · rfl
        · rw [Progress.calling_resource, hannounced]
          exact Bool.false_ne_true
      have hstated := reconcile_states (x := pullingCondition now m.spec.model) rfl hw hleft
      have hnew := hquiet.announces
        ((hstated.announces m.spec.model).trans (Condition.equivalent_refl _))
      exact Bool.false_ne_true (hannounced.symm.trans hnew)

/-- What a pass does whose body comes to a verdict. -/
theorem reconcile_of_steady {calls : List ModelCall} {verdict : Verdict}
    {details : Option RecordedDetails} {outcome : Except ModelError Action}
    (hw : w.patchStatus = .ok ())
    (hrun : (body now w m).resume { resource := m } =
      (outcome, { calls, resource := (m.noting details).tell now verdict })) :
    reconcile now w m =
      { calls := calls ++ [.patchStatus (m.statusTold now verdict details outcome)]
        events := []
        written := some (m.statusTold now verdict details outcome)
        result := conclude outcome w.patchStatus } := by
  rw [reconcile, runOn_eq_resume, hrun, hw, ← status_stamped_tell]
  rfl

/-- **A model's settled status.**  After a quiet pass that wrote a status, a pass at any time
    over that status does just the same, and so writes it again. -/
theorem reconcile_settled {s : ModelStatus} (hquiet : Quiet now w m)
    (hwritten : (reconcile now w m).written = some s) (later : Instant) :
    reconcile later w { m with status := some s } = reconcile now w m := by
  obtain ⟨hw, -⟩ := controller.of_finish_written now _ hwritten
  rcases steady_body w m with ⟨calls, verdict, details, outcome, hrun⟩ | ⟨calls, hrun⟩
  · have hfirst := reconcile_of_steady hw (hrun now { resource := m })
    rw [hfirst] at hwritten ⊢
    cases hwritten
    -- the body does not look at the status, so it comes to the same once more
    let again : Model := { m with status := some (m.statusTold now verdict details outcome) }
    have hsecond := reconcile_of_steady (m := again) hw (hrun later { resource := again })
    rw [statusTold_again] at hsecond
    exact hsecond
  · exact absurd hquiet (not_quiet_of_fetches hw (hrun now))

/-- From then on, every pass of a run in this world does the same. -/
theorem settled_run {s : ModelStatus} (hquiet : Quiet now w m)
    (hwritten : (reconcile now w m).written = some s) (times : List Instant) :
    ∀ e ∈ modelHistory (some s) (times.map fun time => ⟨time, w, m.metadata, m.spec⟩),
      e.2 = reconcile now w m := by
  induction times with
  | nil => exact List.forall_mem_nil _
  | cons time rest ih =>
      have hreport : ModelTurn.report ⟨time, w, m.metadata, m.spec⟩ (some s) =
          reconcile now w m := reconcile_settled hquiet hwritten time
      refine List.forall_mem_cons.mpr ⟨hreport, ?_⟩
      rw [ModelTurn.after]
      rw [hreport, hwritten]
      exact ih

end Model

/-! ## A pass over a prompt -/

namespace PromptReport

/-- Whether the pass wrote the announcement that an answer is awaited. -/
def announces (r : PromptReport) : Bool :=
  match r.written with
  | some s => s.conditions.has (Prompt.waitingCondition default)
  | none => false

/-- Whether the pass recorded a response, as its events say. -/
def records (r : PromptReport) : Bool := r.events.any fun e => e.reason == "ResponseRecorded"

end PromptReport

namespace Prompt

open Pass

variable {now : Instant} {w : PromptWorld} {p : Prompt}

/-- The prompt after a verdict. -/
def tell (now : Instant) (p : Prompt) (verdict : Verdict) : Prompt :=
  conditioned.tell now p verdict

/-- The status after a verdict and the outcome of the body. -/
def statusTold (now : Instant) (p : Prompt) (verdict : Verdict)
    (outcome : Except PromptError Action) : PromptStatus :=
  { p.statusOrEmpty with
    conditions := p.statusOrEmpty.conditions.set
      (verdict.told PromptError.message p.metadata.generation outcome now)
    observedGeneration := p.metadata.generation }

/-- The status a pass leaves with its verdict is the one it tells. -/
theorem status_stamped_tell (verdict : Verdict) (outcome : Except PromptError Action) :
    ((p.tell now verdict).stamped now outcome).statusOrEmpty =
      p.statusTold now verdict outcome := by
  cases verdict <;> cases outcome <;> rfl

/-- Told again of the status it has told, a verdict changes nothing. -/
theorem statusTold_again (later : Instant) (verdict : Verdict)
    (outcome : Except PromptError Action) :
    statusTold later { p with status := some (p.statusTold now verdict outcome) } verdict outcome =
      p.statusTold now verdict outcome := by
  show (⟨_, _, _, _, _, _⟩ : PromptStatus) = ⟨_, _, _, _, _, _⟩
  congr 1
  exact ConditionSet.set_told_again ..

/-- At any time and after whatever was done before, the body makes these calls and comes to
    this verdict and this outcome. -/
def ComesTo (w : PromptWorld) (p : Prompt) (calls : List PromptCall) (verdict : Verdict)
    (outcome : Except PromptError Action) : Prop :=
  ∀ now s, (body now w p).resume s =
    (outcome, { s.calling calls with resource := s.resource.tell now verdict })

/-- What a pass does whose body comes to a verdict. -/
theorem ComesTo.reconcile {calls : List PromptCall} {verdict : Verdict}
    {outcome : Except PromptError Action} (h : ComesTo w p calls verdict outcome)
    (hnone : p.response? = none) (hw : w.patchStatus = .ok ()) (now : Instant) :
    reconcile now w p =
      { calls := calls ++ [.patchStatus (p.statusTold now verdict outcome)]
        events := []
        written := some (p.statusTold now verdict outcome)
        result := conclude outcome w.patchStatus } := by
  rw [reconcile_unanswered now w ((response?_eq_none_iff p).mp hnone), h, hw,
    ← status_stamped_tell]
  rfl

/-- Where the question cannot be put together, or is refused, a body that is announced comes
    to that error. -/
theorem comesTo_of_ask {ns : String} {m : Model} {calls : List PromptCall} {e : PromptError}
    (hgates : Gates w p ns m) (hwaits : p.hasCondition (waitingCondition default) = true)
    (hask : ∀ now s, (ask now w p ns m).resume s = (.error e, s.calling calls)) :
    ComesTo w p ([modelLookup p ns] ++ calls) .nothing (.error e) := by
  intro now s
  rw [body_of_gates now hgates, resume_askAnnounced]
  rw [show p.hasCondition (waitingCondition now) = true from hwaits, if_pos rfl, hask,
    Progress.calling_calling]
  rfl

/-- **Quiet.**  A pass records no response and announces nothing: if the status announces that
    an answer is awaited after it, it did so before. -/
structure Quiet (now : Instant) (w : PromptWorld) (p : Prompt) : Prop where
  records : (reconcile now w p).records = false
  announces : (reconcile now w p).announces = true →
    p.hasCondition (waitingCondition now) = true

/-- A pass that gets through to a reply records it. -/
theorem records_of_reply {ns : String} {m : Model} {calls : List PromptCall}
    {question : Inference.GenerateRequest} {reply : Inference.GenerateReply}
    (hempty : p.statusOrEmpty.response = "")
    (hwaits : p.hasCondition (waitingCondition now) = true) (hgates : Gates w p ns m)
    (hask : ∀ s, (ask now w p ns m).resume s = afterQuestion now w question (s.calling calls))
    (hreply : w.generate = .ok reply) : (reconcile now w p).records = true := by
  have hevents : (reconcile now w p).events =
      ((body now w p).resume { resource := p }).2.events := by
    rw [reconcile, (response?_eq_none_iff p).mpr hempty]
    rfl
  rw [PromptReport.records, hevents, body_of_gates now hgates, resume_askAnnounced,
    if_pos hwaits, hask, afterQuestion, hreply]
  rfl

/-- A quiet pass behind the gates finds its announcement, and asking fails, at any time in the
    same way. -/
theorem Quiet.ask_fails {ns : String} {m : Model} (h : Quiet now w p)
    (hempty : p.statusOrEmpty.response = "") (hw : w.patchStatus = .ok ())
    (hgates : Gates w p ns m) :
    p.hasCondition (waitingCondition now) = true ∧
      ∃ e calls, ∀ later s, (ask later w p ns m).resume s = (.error e, s.calling calls) := by
  have hwaits : p.hasCondition (waitingCondition now) = true := by
    cases hwaits : p.hasCondition (waitingCondition now) with
    | true => rfl
    | false =>
        -- behind the gates the pass would announce that it waits
        obtain ⟨s, hwritten, -, hhas⟩ := reconcile_announced hempty hwaits hgates hw
        refine hwaits.symm.trans (h.announces ?_)
        rw [PromptReport.announces]
        rw [hwritten]
        exact hhas
  refine ⟨hwaits, ?_⟩
  obtain ⟨lookups, -, ⟨options, images, context, -, hrun⟩ | ⟨-, e, hrun⟩⟩ := ask_parts w p ns m
  · cases hreply : w.generate with
    | error e =>
        refine ⟨.generate e, lookups ++ [.forModel m.metadata.nameAny,
          .generate (p.request m options images context)], ?_⟩
        intro later s
        rw [hrun, afterQuestion, hreply]
    | ok reply =>
        have hrecords := records_of_reply hempty hwaits hgates (hrun now) hreply
        exact absurd (h.records.symm.trans hrecords) Bool.false_ne_true
  · exact ⟨e, lookups, hrun⟩

/-- **What a quiet pass comes to.**  It comes to a verdict, and over the status that it writes
    then to the same one. -/
theorem Quiet.comesTo (h : Quiet now w p) (hempty : p.statusOrEmpty.response = "")
    (hw : w.patchStatus = .ok ()) :
    ∃ calls verdict outcome, ComesTo w p calls verdict outcome ∧
      ComesTo w { p with status := some (p.statusTold now verdict outcome) } calls verdict
        outcome := by
  rcases body_cases w p with ⟨e, calls, -, hrun⟩ | ⟨message, calls, -, hrun⟩ | ⟨ns, m, hgates⟩
  · exact ⟨calls, .nothing, .error e, hrun p.status, hrun _⟩
  · exact ⟨calls, .unready "Unavailable" message, .ok .awaitChange, hrun p.status, hrun _⟩
  · obtain ⟨hwaits, e, calls, hask⟩ := h.ask_fails hempty hw hgates
    refine ⟨_, .nothing, .error e, comesTo_of_ask hgates hwaits hask, ?_⟩
    refine comesTo_of_ask ⟨hgates.namespaced, hgates.found, hgates.ready⟩ ?_ hask
    -- telling the outcome leaves the announcement standing
    refine (conditioned.hasCondition_eq _ _).trans ?_
    show (p.statusTold now .nothing (.error e)).conditions.has (waitingCondition now) = true
    rw [← status_stamped_tell]
    refine (controller.has_stamped _ _ _ rfl).trans ?_
    exact (conditioned.hasCondition_eq p _).symm.trans hwaits

/-- **A prompt's settled status.**  After a quiet pass that wrote a status, a pass at any time
    over that status does just the same, and so writes it again. -/
theorem reconcile_settled {s : PromptStatus} (hnone : p.response? = none) (hquiet : Quiet now w p)
    (hwritten : (reconcile now w p).written = some s) (later : Instant) :
    reconcile later w { p with status := some s } = reconcile now w p := by
  have hempty := (response?_eq_none_iff p).mp hnone
  obtain ⟨hw, -⟩ :=
    controller.of_finish_written now _ ((reconcile_unanswered now w hempty) ▸ hwritten)
  obtain ⟨calls, verdict, outcome, hfirst, hagain⟩ := hquiet.comesTo hempty hw
  rw [hfirst.reconcile hnone hw now] at hwritten ⊢
  cases hwritten
  have hstill : Prompt.response? { p with status := some (p.statusTold now verdict outcome) } =
      none := (response?_eq_none_iff _).mpr hempty
  rw [hagain.reconcile hstill hw later, statusTold_again]

/-- From then on, no pass of a run in this world changes what is stored. -/
theorem settled_run {s : PromptStatus} (hnone : p.response? = none) (hquiet : Quiet now w p)
    (hwritten : (reconcile now w p).written = some s) (times : List Instant) :
    storedAfter (some s) (times.map fun time => ⟨time, w, p.metadata, p.spec⟩) = some s := by
  induction times with
  | nil => rfl
  | cons time rest ih =>
      have hafter : PromptTurn.after ⟨time, w, p.metadata, p.spec⟩ (some s) = some s := by
        have hreport : PromptTurn.report ⟨time, w, p.metadata, p.spec⟩ (some s) =
            reconcile now w p := reconcile_settled hnone hquiet hwritten time
        rw [PromptTurn.after]
        rw [hreport, hwritten]
        rfl
      rw [List.map_cons, storedAfter, List.foldl_cons, hafter]
      exact ih

end Prompt

/-- **A settled status is written again as it is.**  Let a pass over a model neither announce a
    pull nor pull, or a pass over a prompt without an answer neither announce that it waits nor
    record a response, and let it write a status.  Then a second pass over that status against
    the same world, at whatever time, writes the same status, and makes the same calls to the
    same end. -/
theorem status_settles (now later : Instant) :
    (∀ (w : ModelWorld) (m : Model) (s : ModelStatus), m.Quiet now w →
      (m.reconcile now w).written = some s →
      (Model.reconcile later w { m with status := some s }).written = some s ∧
        Model.reconcile later w { m with status := some s } = m.reconcile now w) ∧
    ∀ (w : PromptWorld) (p : Prompt) (s : PromptStatus), p.response? = none → p.Quiet now w →
      (p.reconcile now w).written = some s →
      (Prompt.reconcile later w { p with status := some s }).written = some s ∧
        Prompt.reconcile later w { p with status := some s } = p.reconcile now w := by
  constructor
  · intro w m s hquiet hwritten
    have hsame := Model.reconcile_settled hquiet hwritten later
    exact ⟨hsame ▸ hwritten, hsame⟩
  · intro w p s hnone hquiet hwritten
    have hsame := Prompt.reconcile_settled hnone hquiet hwritten later
    exact ⟨hsame ▸ hwritten, hsame⟩

/-- A model whose pull is announced meets a server that does not answer, and a prompt asks a
    model that is missing.  What the first passes write of that, those of the next day write
    again, with the times of the first. -/
theorem status_settles_next_day :
    let t := turnListing (modelAsking "gemma2:2b") []
    let w := { t.world with list := .error (.transport .list "connection refused") }
    let m := t.model (t.after none)
    let asking := turnWithReply "Blue."
    let w' := { asking.world with model := fun _ _ => .ok none }
    let p := asking.prompt none
    (∃ s, m.Quiet ⟨1, 0, 0⟩ w ∧ (m.reconcile ⟨1, 0, 0⟩ w).written = some s ∧
      s.conditions.items.map (fun c => (c.type, c.since.day)) = [("Ready", 0), ("Synced", 1)] ∧
      (Model.reconcile ⟨2, 0, 0⟩ w { m with status := some s }).written = some s) ∧
    ∃ s, p.Quiet ⟨1, 0, 0⟩ w' ∧ (p.reconcile ⟨1, 0, 0⟩ w').written = some s ∧
      s.conditions.items.map (fun c => (c.type, c.since.day)) = [("Ready", 1), ("Synced", 1)] ∧
      (Prompt.reconcile ⟨2, 0, 0⟩ w' { p with status := some s }).written = some s := by
  intro t w m asking w' p
  have hmodel : m.Quiet ⟨1, 0, 0⟩ w := ⟨by decide +kernel, fun _ => by decide +kernel⟩
  have hprompt : p.Quiet ⟨1, 0, 0⟩ w' := by
    refine ⟨by decide +kernel, fun hannounces => ?_⟩
    have hquiet : (p.reconcile ⟨1, 0, 0⟩ w').announces = false := by decide +kernel
    cases hquiet.symm.trans hannounces
  constructor
  · exact ⟨_, hmodel, rfl, by decide +kernel,
      ((status_settles ⟨1, 0, 0⟩ ⟨2, 0, 0⟩).1 w m _ hmodel rfl).1⟩
  · exact ⟨_, hprompt, rfl, by decide +kernel,
      ((status_settles ⟨1, 0, 0⟩ ⟨2, 0, 0⟩).2 w' p _ rfl hprompt rfl).1⟩

end ModelOperator
