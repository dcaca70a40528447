import ModelOperator.Proofs.Controller.ModelPass

/-!
# How a pass over a model ends

    The body of a pass has many ends: a patch that fails, an object that is refused, a
    server that is not rolled out yet, a model that has to be announced, pulled or shown.
    `Model.Exit` lists them once, each with the calls made until then, the model as it is
    left, and the outcome; `Model.exit_body` says that every body ends in one of them.

    Everything said of a whole pass is read off the list of ends.

    * `Model.Exit.ordered`: the calls come in a fixed order, each at most once, and each
      only after all before it have succeeded;
    * `Model.Exit.complete`: no call before the last one is left out, except the pull of a model
      that the server lists;
    * `Model.Exit.reports`: the status says that the model is ready exactly if the server
      has it and shows it, and then it records what was shown;
    * `Model.reconcile_sound` is both for a whole pass. -/

namespace ModelOperator

/-- The place of a call in the order of a pass. -/
def ModelCall.rank : ModelCall → Nat
  | .applyStatefulSet _ => 0
  | .applyService _ => 1
  | .getStatefulSet _ _ => 2
  | .forModel _ => 3
  | .list => 4
  | .pull _ => 5
  | .inspect _ => 6
  | .patchStatus _ => 7

/-- Whether a call writes the status. -/
def ModelCall.isWrite : ModelCall → Bool
  | .patchStatus _ => true
  | _ => false

/-- Whether a call applies an object made for the model. -/
def ModelCall.appliesObject : ModelCall → Bool
  | .applyStatefulSet _ | .applyService _ => true
  | _ => false

/-- Whether a call goes to the server of the model. -/
def ModelCall.asksServer : ModelCall → Bool
  | .list | .pull _ | .inspect _ => true
  | _ => false

namespace ModelWorld

/-- Whether a call succeeds; a pull does so only if its last word is success. -/
def Succeeds (w : ModelWorld) : ModelCall → Prop
  | .applyStatefulSet _ => w.applyStatefulSet = .ok ()
  | .applyService _ => w.applyService = .ok ()
  | .getStatefulSet _ _ => ∃ found, w.statefulSet = .ok found
  | .forModel _ => True
  | .list => ∃ present, w.list = .ok present
  | .pull _ => ∃ last, w.pull = .ok last ∧ last.isSuccess = true
  | .inspect _ => ∃ reply, w.inspect = .ok reply
  | .patchStatus _ => w.patchStatus = .ok ()

/-- The stateful set that is read is there and rolled out. -/
def RolledOut (w : ModelWorld) : Prop :=
  ∃ doc rollout, w.statefulSet = .ok (some doc) ∧ (Workload.of doc).rollout = .ok rollout ∧
    rollout.ready = true

/-- The server lists a model. -/
def Lists (w : ModelWorld) (id : String) : Prop :=
  ∃ present, w.list = .ok present ∧ present.contains id = true

/-- What the server lists is in the list it gives. -/
theorem Lists.contains {w : ModelWorld} {id : String} {present : Inference.ModelList}
    (h : w.Lists id) (hlist : w.list = .ok present) : present.contains id = true := by
  obtain ⟨other, hother, hcontains⟩ := h
  cases hlist.symm.trans hother
  exact hcontains

end ModelWorld

namespace Model

open Pass

variable {now : Instant} {w : ModelWorld} {m : Model}

/-! ## The ends of a body -/

/-- Both objects of a model are rendered and applied. -/
structure Opens (w : ModelWorld) (m : Model) (ns : String) (rendered : Rendered) : Prop where
  namespaced : m.metadata.namespace? = some ns
  renders : m.render = .ok rendered
  appliesStatefulSet : w.applyStatefulSet = .ok ()
  appliesService : w.applyService = .ok ()

/-- The calls of a pass that gets as far as the list of the server. -/
def listing (m : Model) (rendered : Rendered) (ns : String) : List ModelCall :=
  opening m rendered ns ++ [.forModel m.metadata.nameAny, .list]

/-- The calls of a pass that pulls the model. -/
def fetching (m : Model) (rendered : Rendered) (ns : String) : List ModelCall :=
  listing m rendered ns ++ [.pull ⟨m.spec.model, false, true⟩]

/-- The calls of a pass by which the server has the model: it lists it, or it was announced
    and is pulled with success. -/
inductive Has (now : Instant) (w : ModelWorld) (m : Model) (rendered : Rendered) (ns : String) :
    List ModelCall → Prop
  | listed (hlisted : w.Lists m.spec.model) : Has now w m rendered ns (listing m rendered ns)
  | pulled {present : Inference.ModelList} {last : Inference.PullProgress}
      (hlist : w.list = .ok present) (habsent : present.contains m.spec.model = false)
      (hannounced : m.hasCondition (pullingCondition now m.spec.model) = true)
      (hpull : w.pull = .ok last) (hsuccess : last.isSuccess = true) :
      Has now w m rendered ns (fetching m rendered ns)

/-- The ends of a body: the calls made, the model as it is left, and the outcome. -/
inductive Exit (now : Instant) (w : ModelWorld) (m : Model) :
    List ModelCall → Model → Except ModelError Action → Prop
  | unnamespaced (hns : m.metadata.namespace? = none) :
      Exit now w m [] m (.error (.cluster (.invalid m.metadata.nameAny "Model must be namespaced")))
  | unrendered {fault : RenderFault} (hrender : m.render = .error fault) :
      Exit now w m [] m (.error (.render { fault with detail := w.detail }))
  | statefulSetRefused {rendered : Rendered} {e : ClusterError}
      (hrender : m.render = .ok rendered) (hset : w.applyStatefulSet = .error e) :
      Exit now w m [.applyStatefulSet rendered.statefulSet] m (.error (.cluster e))
  | serviceRefused {rendered : Rendered} {e : ClusterError} (hrender : m.render = .ok rendered)
      (hset : w.applyStatefulSet = .ok ()) (hservice : w.applyService = .error e) :
      Exit now w m [.applyStatefulSet rendered.statefulSet, .applyService rendered.service] m
        (.error (.cluster e))
  | unread {ns : String} {rendered : Rendered} {e : ClusterError} (hopens : Opens w m ns rendered)
      (hget : w.statefulSet = .error e) :
      Exit now w m (opening m rendered ns) m (.error (.cluster e))
  | absent {ns : String} {rendered : Rendered} (hopens : Opens w m ns rendered)
      (hget : w.statefulSet = .ok none) :
      Exit now w m (opening m rendered ns) (m.setConditions [.creating now ""]) (.ok workloadPoll)
  | unfollowed {ns : String} {rendered : Rendered} {doc : Json} {reason : String}
      (hopens : Opens w m ns rendered) (hget : w.statefulSet = .ok (some doc))
      (hrollout : (Workload.of doc).rollout = .error reason) :
      Exit now w m (opening m rendered ns) (m.setConditions [.unavailable now ""])
        (.error (.readiness reason))
  | rolling {ns : String} {rendered : Rendered} {doc : Json} {rollout : Rollout}
      (hopens : Opens w m ns rendered) (hget : w.statefulSet = .ok (some doc))
      (hrollout : (Workload.of doc).rollout = .ok rollout) (hwaits : rollout.ready = false) :
      Exit now w m (opening m rendered ns) (m.setConditions [.unavailable now rollout.message])
        (.ok .awaitChange)
  | unlisted {ns : String} {rendered : Rendered} {e : Inference.Error}
      (hopens : Opens w m ns rendered) (hrolled : w.RolledOut) (hlist : w.list = .error e) :
      Exit now w m (listing m rendered ns) m (.error (.inference "failed to list local models" e))
  | announced {ns : String} {rendered : Rendered} {present : Inference.ModelList}
      (hopens : Opens w m ns rendered) (hrolled : w.RolledOut) (hlist : w.list = .ok present)
      (habsent : present.contains m.spec.model = false)
      (hnew : m.hasCondition (pullingCondition now m.spec.model) = false) :
      Exit now w m (listing m rendered ns) (m.setConditions [pullingCondition now m.spec.model])
        (.ok .immediately)
  | pullFailed {ns : String} {rendered : Rendered} {present : Inference.ModelList}
      {e : Inference.Error} (hopens : Opens w m ns rendered) (hrolled : w.RolledOut)
      (hlist : w.list = .ok present) (habsent : present.contains m.spec.model = false)
      (hannounced : m.hasCondition (pullingCondition now m.spec.model) = true)
      (hpull : w.pull = .error e) :
      Exit now w m (fetching m rendered ns) m
        (.error (.inference s!"failed to pull {quoted m.spec.model} model" e))
  | pullUnfinished {ns : String} {rendered : Rendered} {present : Inference.ModelList}
      {last : Inference.PullProgress} (hopens : Opens w m ns rendered) (hrolled : w.RolledOut)
      (hlist : w.list = .ok present) (habsent : present.contains m.spec.model = false)
      (hannounced : m.hasCondition (pullingCondition now m.spec.model) = true)
      (hpull : w.pull = .ok last) (hunfinished : last.isSuccess = false) :
      Exit now w m (fetching m rendered ns)
        (m.setConditions [.unavailable now "Model hasn't been pulled successfully, retrying"])
        (.ok pullRetry)
  | notShown {ns : String} {rendered : Rendered} {before : List ModelCall} {e : Inference.Error}
      (hopens : Opens w m ns rendered) (hrolled : w.RolledOut) (hhas : Has now w m rendered ns before)
      (hshow : w.inspect = .error e) :
      Exit now w m (before ++ [.inspect ⟨m.spec.model⟩]) (m.setConditions [.unavailable now ""])
        (.error (.inference "while fetching ollama model details" e))
  | shown {ns : String} {rendered : Rendered} {before : List ModelCall}
      {reply : Inference.ShowReply} (hopens : Opens w m ns rendered) (hrolled : w.RolledOut)
      (hhas : Has now w m rendered ns before) (hshow : w.inspect = .ok reply) :
      Exit now w m (before ++ [.inspect ⟨m.spec.model⟩]) (withDetails now reply m)
        (.ok .awaitChange)

/-- A pass ends as the list of ends says. -/
def Ends (now : Instant) (w : ModelWorld) (m : Model)
    (r : Except ModelError Action × Progress Model ModelCall) : Prop :=
  Exit now w m r.2.calls r.2.resource r.1

section Parts

variable {ns : String} {rendered : Rendered} {s : Progress Model ModelCall}
  (hopens : Opens w m ns rendered)

include hopens

/-- Where the server has the model, the pass ends with what the server shows of it. -/
theorem ends_recordAvailable (hrolled : w.RolledOut) (hhas : Has now w m rendered ns s.calls)
    (hmodel : s.resource = m) : Ends now w m ((recordAvailable now w m.spec.model).resume s) := by
  subst hmodel
  rw [resume_recordAvailable]
  cases hshow : w.inspect with
  | error e => exact .notShown hopens hrolled hhas hshow
  | ok reply => exact .shown hopens hrolled hhas hshow

/-- Where the server does not list the model, the pass ends with the announcement of a pull
    or with what the pull comes to. -/
theorem ends_fetch (hrolled : w.RolledOut) {present : Inference.ModelList}
    (hlist : w.list = .ok present) (habsent : present.contains m.spec.model = false)
    (hcalls : s.calls = listing m rendered ns) (hmodel : s.resource = m) :
    Ends now w m ((fetch now w m.spec.model).resume s) := by
  have hfetching : (pulling m.spec.model s).calls = fetching m rendered ns := by
    rw [fetching, ← hcalls]
    rfl
  subst hmodel
  rw [resume_fetch]
  cases hannounced : s.resource.hasCondition (pullingCondition now s.resource.spec.model) with
  | false =>
      rw [if_neg Bool.false_ne_true, Ends]
      dsimp only
      rw [hcalls]
      exact .announced hopens hrolled hlist habsent hannounced
  | true =>
      rw [if_pos rfl]
      cases hpull : w.pull with
      | error e =>
          dsimp only [Ends]
          rw [hfetching]
          exact .pullFailed hopens hrolled hlist habsent hannounced hpull
      | ok last =>
          cases hsuccess : last.isSuccess with
          | true =>
              simp only [hsuccess, if_true]
              refine ends_recordAvailable hopens hrolled ?_ rfl
              rw [hfetching]
              exact .pulled hlist habsent hannounced hpull hsuccess
          | false =>
              simp only [hsuccess, Bool.false_eq_true, if_false, Ends]
              rw [hfetching]
              exact .pullUnfinished hopens hrolled hlist habsent hannounced hpull hsuccess

/-- Past the rollout, each way through the pass is an exit. -/
theorem ends_serve (hrolled : w.RolledOut) (hcalls : s.calls = opening m rendered ns)
    (hmodel : s.resource = m) : Ends now w m ((serve now w m).resume s) := by
  have hlisting : (s.calling [.forModel m.metadata.nameAny, .list]).calls =
      listing m rendered ns := by
    rw [listing, ← hcalls]
    rfl
  rw [resume_serve]
  cases hlist : w.list with
  | error e =>
      dsimp only [Ends]
      rw [hlisting, Progress.calling_resource, hmodel]
      exact .unlisted hopens hrolled hlist
  | ok present =>
      dsimp only
      cases hlisted : present.contains m.spec.model with
      | true =>
          rw [if_pos rfl]
          refine ends_recordAvailable hopens hrolled ?_ hmodel
          rw [hlisting]
          exact .listed ⟨present, hlist, hlisted⟩
      | false =>
          rw [if_neg Bool.false_ne_true]
          exact ends_fetch hopens hrolled hlist hlisted hlisting hmodel

/-- So is each way from the stateful set on. -/
theorem ends_await {found : Option Json} (hget : w.statefulSet = .ok found)
    (hcalls : s.calls = opening m rendered ns) (hmodel : s.resource = m) :
    Ends now w m ((await now w m found).resume s) := by
  cases found with
  | none =>
      subst hmodel
      rw [Ends]
      show Exit now w s.resource s.calls _ _
      rw [hcalls]
      exact .absent hopens hget
  | some doc =>
      rw [await]
      cases hrollout : (Workload.of doc).rollout with
      | error reason =>
          subst hmodel
          rw [Ends]
          show Exit now w s.resource s.calls _ _
          rw [hcalls]
          exact .unfollowed hopens hget hrollout
      | ok rollout =>
          dsimp only
          cases hready : rollout.ready with
          | false =>
              subst hmodel
              rw [if_neg Bool.false_ne_true, Ends]
              show Exit now w s.resource s.calls _ _
              rw [hcalls]
              exact .rolling hopens hget hrollout hready
          | true =>
              rw [if_pos rfl]
              exact ends_serve hopens ⟨doc, rollout, hget, hrollout, hready⟩ hcalls hmodel

end Parts

/-- **Every body ends in one of the ways listed.** -/
theorem exit_body (now : Instant) (w : ModelWorld) (m : Model) :
    Ends now w m ((body now w m).resume { resource := m }) := by
  cases hns : m.metadata.namespace? with
  | none =>
      simp only [body, hns]
      exact .unnamespaced hns
  | some ns =>
    cases hrender : m.render with
    | error fault =>
        simp only [body, hns, hrender]
        exact .unrendered hrender
    | ok rendered =>
      simp only [body, hns, hrender, resume_bind, resume_call]
      -- from here on each call has to succeed for the next one to be made
      cases hset : w.applyStatefulSet with
      | error e => exact .statefulSetRefused hrender hset
      | ok _ =>
        cases hservice : w.applyService with
        | error e => exact .serviceRefused hrender hset hservice
        | ok _ =>
          have hopens : Opens w m ns rendered := ⟨hns, hrender, hset, hservice⟩
          cases hget : w.statefulSet with
          | error e => exact .unread hopens hget
          | ok found => exact ends_await hopens hget rfl rfl

/-! ## The order of the calls -/

/-- The calls that a pass makes before it writes the status. -/
structure Ordered (w : ModelWorld) (m : Model) (calls : List ModelCall) : Prop where
  /-- They come in the order of their ranks, each at most once, and each only after all
      before it have succeeded. -/
  order : calls.Pairwise fun a b => a.rank < b.rank ∧ w.Succeeds a
  /-- None of them writes the status. -/
  unwritten : ∀ c ∈ calls, c.isWrite = false
  /-- An object is applied as it is rendered, and only when both are. -/
  children : ∀ c ∈ calls, c.appliesObject = true → ∃ rendered, m.render = .ok rendered ∧
    (c = .applyStatefulSet rendered.statefulSet ∨ c = .applyService rendered.service)
  /-- The server is asked only once it is rolled out. -/
  server : ∀ c ∈ calls, c.asksServer = true → w.RolledOut

/-- One more call, after calls that have all succeeded. -/
theorem Ordered.snoc {calls : List ModelCall} {c : ModelCall} (h : Ordered w m calls)
    (hbefore : ∀ a ∈ calls, a.rank < c.rank ∧ w.Succeeds a) (hwrite : c.isWrite = false)
    (hchild : c.appliesObject = false) (hserver : c.asksServer = true → w.RolledOut) :
    Ordered w m (calls ++ [c]) := by
  have hone : ∀ {P : ModelCall → Prop}, (∀ a ∈ calls, P a) → P c → ∀ a ∈ calls ++ [c], P a := by
    intro P hcalls hc a ha
    rcases List.mem_append.mp ha with ha | ha
    · exact hcalls a ha
    · cases List.mem_singleton.mp ha
      exact hc
  constructor
  · refine List.pairwise_append.mpr ⟨h.order, List.pairwise_singleton _ _, ?_⟩
    intro a ha b hb
    cases List.mem_singleton.mp hb
    exact hbefore a ha
  · exact hone h.unwritten hwrite
  · exact hone h.children fun happlies => absurd (hchild.symm.trans happlies) Bool.false_ne_true
  · exact hone h.server hserver

section Opened

variable {ns : String} {rendered : Rendered}

/-- The opening calls come in order. -/
theorem Opens.ordered (h : Opens w m ns rendered) : Ordered w m (opening m rendered ns) := by
  constructor
  · simp [opening, ModelCall.rank, ModelWorld.Succeeds, h.appliesStatefulSet, h.appliesService]
  · simp [opening, ModelCall.isWrite]
  · simp [opening, ModelCall.appliesObject, h.renders]
  · simp [opening, ModelCall.asksServer]

theorem Opens.succeeds_listing (h : Opens w m ns rendered) (hrolled : w.RolledOut)
    (hlist : ∃ present, w.list = .ok present) :
    ∀ c ∈ listing m rendered ns, c.rank < 5 ∧ w.Succeeds c := by
  obtain ⟨doc, -, hget, -⟩ := hrolled
  obtain ⟨present, hlist⟩ := hlist
  simp [listing, opening, ModelCall.rank, ModelWorld.Succeeds, h.appliesStatefulSet,
    h.appliesService, hget, hlist]

/-- So do the calls up to the listing. -/
theorem Opens.ordered_listing (h : Opens w m ns rendered) (hrolled : w.RolledOut) :
    Ordered w m (listing m rendered ns) := by
  obtain ⟨doc, -, hget, -⟩ := id hrolled
  have hnamed : Ordered w m (opening m rendered ns ++ [.forModel m.metadata.nameAny]) := by
    refine h.ordered.snoc ?_ rfl rfl (by rintro ⟨⟩)
    simp [opening, ModelCall.rank, ModelWorld.Succeeds, h.appliesStatefulSet, h.appliesService,
      hget]
  have hlisted := hnamed.snoc (c := .list) (by
    simp [opening, ModelCall.rank, ModelWorld.Succeeds, h.appliesStatefulSet, h.appliesService,
      hget]) rfl rfl fun _ => hrolled
  rwa [List.append_assoc] at hlisted

/-- So do the calls up to the pull. -/
theorem Opens.ordered_fetching (h : Opens w m ns rendered) (hrolled : w.RolledOut)
    (hlist : ∃ present, w.list = .ok present) : Ordered w m (fetching m rendered ns) :=
  (h.ordered_listing hrolled).snoc (h.succeeds_listing hrolled hlist) rfl rfl
    fun _ => hrolled

/-- What the server has it may be asked to show. -/
theorem Has.ordered {before : List ModelCall} (hhas : Has now w m rendered ns before)
    (h : Opens w m ns rendered) (hrolled : w.RolledOut) :
    Ordered w m (before ++ [.inspect ⟨m.spec.model⟩]) := by
  cases hhas with
  | listed hlisted =>
      obtain ⟨present, hlist, -⟩ := hlisted
      refine (h.ordered_listing hrolled).snoc ?_ rfl rfl fun _ => hrolled
      intro a ha
      obtain ⟨hrank, hsucceeds⟩ := h.succeeds_listing hrolled ⟨present, hlist⟩ a ha
      exact ⟨Nat.lt_succ_of_lt hrank, hsucceeds⟩
  | pulled hlist _ _ hpull hsuccess =>
      refine (h.ordered_fetching hrolled ⟨_, hlist⟩).snoc ?_ rfl rfl fun _ => hrolled
      intro a ha
      rcases List.mem_append.mp ha with ha | ha
      · obtain ⟨hrank, hsucceeds⟩ := h.succeeds_listing hrolled ⟨_, hlist⟩ a ha
        exact ⟨Nat.lt_succ_of_lt hrank, hsucceeds⟩
      · cases List.mem_singleton.mp ha
        exact ⟨Nat.lt_succ_self 5, _, hpull, hsuccess⟩

end Opened

/-- Wherever a body ends, its calls are in order. -/
theorem Exit.ordered {calls : List ModelCall} {left : Model}
    {outcome : Except ModelError Action} (h : Exit now w m calls left outcome) :
    Ordered w m calls := by
  cases h with
  | unnamespaced | unrendered => constructor <;> simp
  | statefulSetRefused hrender hset =>
      constructor <;> simp [ModelCall.isWrite, ModelCall.appliesObject,
        ModelCall.asksServer, hrender]
  | serviceRefused hrender hset hservice =>
      constructor <;> simp [ModelCall.isWrite, ModelCall.rank, ModelCall.appliesObject,
        ModelCall.asksServer, ModelWorld.Succeeds, hrender, hset]
  | unread hopens | absent hopens | unfollowed hopens | rolling hopens => exact hopens.ordered
  | unlisted hopens hrolled | announced hopens hrolled => exact hopens.ordered_listing hrolled
  | pullFailed hopens hrolled hlist | pullUnfinished hopens hrolled hlist =>
      exact hopens.ordered_fetching hrolled ⟨_, hlist⟩
  | notShown hopens hrolled hhas | shown hopens hrolled hhas => exact hhas.ordered hopens hrolled

/-- **No call is left out.**  With a call all those before it in the order are made, except the
    pull of a model that the server lists. -/
def Complete (w : ModelWorld) (m : Model) (calls : List ModelCall) : Prop :=
  ∀ c ∈ calls, ∀ rank < c.rank, (rank = 5 → ¬ w.Lists m.spec.model) → ∃ a ∈ calls, a.rank = rank

/-- Calls one for each place of the order up to some place leave none out. -/
theorem complete_of_ranks {calls : List ModelCall} {n : Nat}
    (h : calls.map ModelCall.rank = List.range n) : Complete w m calls := by
  intro c hc rank hrank _
  have hlast : c.rank < n := List.mem_range.mp (h ▸ List.mem_map_of_mem hc)
  exact List.mem_map.mp (h ▸ List.mem_range.mpr (Nat.lt_trans hrank hlast))

/-- What the server lists it is asked to show without a pull. -/
theorem complete_of_listed {ns : String} {rendered : Rendered} (h : w.Lists m.spec.model) :
    Complete w m (listing m rendered ns ++ [.inspect ⟨m.spec.model⟩]) := by
  have hranks : (listing m rendered ns).map ModelCall.rank = List.range 5 := rfl
  have hbefore : ∀ rank < 5, ∃ a ∈ listing m rendered ns ++ [.inspect ⟨m.spec.model⟩],
      a.rank = rank := by
    intro rank hrank
    obtain ⟨a, ha, harank⟩ := List.mem_map.mp (hranks ▸ List.mem_range.mpr hrank)
    exact ⟨a, List.mem_append_left _ ha, harank⟩
  intro c hc rank hrank hpull
  refine hbefore rank ?_
  rcases List.mem_append.mp hc with hc | hc
  · exact Nat.lt_trans hrank (List.mem_range.mp (hranks ▸ List.mem_map_of_mem hc))
  · cases List.mem_singleton.mp hc
    exact Nat.lt_of_le_of_ne (Nat.lt_succ_iff.mp hrank) fun hfive => hpull hfive h

/-- Wherever a body ends, no call before its last one is left out. -/
theorem Exit.complete {calls : List ModelCall} {left : Model}
    {outcome : Except ModelError Action} (h : Exit now w m calls left outcome) :
    Complete w m calls := by
  cases h with
  | unnamespaced | unrendered => exact complete_of_ranks (n := 0) rfl
  | statefulSetRefused => exact complete_of_ranks (n := 1) rfl
  | serviceRefused => exact complete_of_ranks (n := 2) rfl
  | unread | absent | unfollowed | rolling => exact complete_of_ranks (n := 3) rfl
  | unlisted | announced => exact complete_of_ranks (n := 5) rfl
  | pullFailed | pullUnfinished => exact complete_of_ranks (n := 6) rfl
  | notShown _ _ hhas | shown _ _ hhas =>
      cases hhas with
      | listed hlisted => exact complete_of_listed hlisted
      | pulled => exact complete_of_ranks (n := 7) rfl

/-! ## What the status says -/

/-- The server shows the model, and it has it: this pass has asked for the list and the model is
    in it, or this pass has pulled the model with success. -/
def Shows (w : ModelWorld) (m : Model) (calls : List ModelCall) (reply : Inference.ShowReply) :
    Prop :=
  .inspect ⟨m.spec.model⟩ ∈ calls ∧ w.inspect = .ok reply ∧
    (.list ∈ calls ∧ w.Lists m.spec.model ∨
      .pull ⟨m.spec.model, false, true⟩ ∈ calls ∧ w.Succeeds (.pull ⟨m.spec.model, false, true⟩))

/-- What the status that a pass writes says, by the calls made before. -/
structure Reports (w : ModelWorld) (m : Model) (calls : List ModelCall)
    (outcome : Except ModelError Action) (status : ModelStatus) : Prop where
  /-- When the body ends without an error, the model is said to be ready exactly if the
      server shows it. -/
  ready : ∀ action, outcome = .ok action →
    ∃ stored, status.conditions.get? Condition.readyType = some stored ∧
      (stored.isTrue = true ↔ ∃ reply, Shows w m calls reply)
  /-- What the server shows is recorded, and the body ends without an error. -/
  recorded : ∀ reply, Shows w m calls reply →
    outcome = .ok .awaitChange ∧ status.details = some (recordDetails reply.details)
  /-- In every other case the details stay. -/
  kept : (∀ reply, ¬ Shows w m calls reply) → status.details = m.statusOrEmpty.details
  /-- No type comes twice that did not before. -/
  unique : m.statusOrEmpty.conditions.Unique → status.conditions.Unique

/-- A pass that does not ask for the model is not shown it. -/
theorem not_shows {calls : List ModelCall} (h : ∀ c ∈ calls, c.rank < 6)
    (reply : Inference.ShowReply) : ¬ Shows w m calls reply := by
  rintro ⟨hmem, -⟩
  exact Nat.lt_irrefl 6 (h _ hmem)

/-- Stamping a model leaves its details alone. -/
theorem details_stamped (left : Model) (outcome : Except ModelError Action) :
    (left.stamped now outcome).statusOrEmpty.details = left.statusOrEmpty.details := by
  cases outcome <;> rfl

/-- What was last set about readiness is what the written status says. -/
theorem ready_stamped (now : Instant) (left : Model) (outcome : Except ModelError Action)
    {x : Condition} (hx : x.type = Condition.readyType) :
    ∃ stored, ((left.setConditions [x]).stamped now outcome).statusOrEmpty.conditions.get?
        Condition.readyType = some stored ∧ stored.isTrue = x.isTrue := by
  have hhas : ((left.setConditions [x]).stamped now outcome).statusOrEmpty.conditions.has x =
      true := by
    refine (controller.has_stamped now _ outcome hx).trans ?_
    refine (conditioned.has_setConditions left x x).trans ?_
    simp
  rw [← hx]
  exact ConditionSet.get?_of_has hhas

section Ends

variable {calls : List ModelCall} (hnot : ∀ reply, ¬ Shows w m calls reply)

include hnot

/-- An end with an error, where the server has shown nothing. -/
theorem reports_error {left : Model} {e : ModelError}
    (hdetails : left.statusOrEmpty.details = m.statusOrEmpty.details)
    (hunique : m.statusOrEmpty.conditions.Unique → left.statusOrEmpty.conditions.Unique) :
    Reports w m calls (.error e) (left.stamped now (.error e)).statusOrEmpty := by
  constructor
  · intro action hok
    cases hok
  · intro reply hshows
    exact absurd hshows (hnot reply)
  · intro _
    rw [details_stamped, hdetails]
  · exact fun h => controller.unique_stamped now left _ (hunique h)

/-- An end without an error at which the model is not ready. -/
theorem reports_waiting {x : Condition} (hx : x.type = Condition.readyType)
    (hfalse : x.isTrue = false) (action : Action) :
    Reports w m calls (.ok action)
      ((m.setConditions [x]).stamped now (.ok action)).statusOrEmpty := by
  constructor
  · intro _ _
    obtain ⟨stored, hstored, htrue⟩ := ready_stamped now m (.ok action) hx
    refine ⟨stored, hstored, ?_⟩
    rw [htrue, hfalse]
    exact iff_of_false Bool.false_ne_true fun ⟨reply, hshows⟩ => hnot reply hshows
  · intro reply hshows
    exact absurd hshows (hnot reply)
  · intro _
    exact details_stamped _ _
  · exact fun h => controller.unique_stamped now _ _ (conditioned.unique_setConditions m h [x])

end Ends

section Opened

variable {ns : String} {rendered : Rendered}

/-- Where the server has the model and shows it, that is what the pass was shown. -/
theorem Has.shows {before : List ModelCall} (hhas : Has now w m rendered ns before)
    {reply : Inference.ShowReply} (hshow : w.inspect = .ok reply) :
    Shows w m (before ++ [.inspect ⟨m.spec.model⟩]) reply := by
  refine ⟨List.mem_append_right _ (List.mem_singleton.mpr rfl), hshow, ?_⟩
  cases hhas with
  | listed hlisted => exact Or.inl ⟨by simp [listing], hlisted⟩
  | pulled _ _ _ hpull hsuccess => exact Or.inr ⟨by simp [fetching], _, hpull, hsuccess⟩

/-- A pass that gets the details of a model reports it as ready. -/
theorem Has.reports {before : List ModelCall} (hhas : Has now w m rendered ns before)
    {reply : Inference.ShowReply} (hshow : w.inspect = .ok reply) :
    Reports w m (before ++ [.inspect ⟨m.spec.model⟩]) (.ok .awaitChange)
      ((withDetails now reply m).stamped now (.ok .awaitChange)).statusOrEmpty := by
  have hshows := hhas.shows hshow
  let recorded : Model :=
    { m with status := some { m.statusOrEmpty with details := some (recordDetails reply.details) } }
  constructor
  · intro _ _
    obtain ⟨stored, hstored, htrue⟩ :=
      ready_stamped now recorded (.ok .awaitChange) (x := .available now) rfl
    exact ⟨stored, hstored, iff_of_true htrue ⟨reply, hshows⟩⟩
  · intro reply' hshows'
    -- there is one reply to the question
    cases hshow.symm.trans hshows'.2.1
    exact ⟨rfl, details_stamped _ _⟩
  · exact fun hnot => absurd hshows (hnot reply)
  · exact fun h => controller.unique_stamped now _ _
      (conditioned.unique_setConditions recorded h [.available now])

end Opened

/-- Wherever a body ends, the status says no more than the pass has seen. -/
theorem Exit.reports {calls : List ModelCall} {left : Model}
    {outcome : Except ModelError Action} (h : Exit now w m calls left outcome) :
    Reports w m calls outcome (left.stamped now outcome).statusOrEmpty := by
  have hset : ∀ {x : Condition}, m.statusOrEmpty.conditions.Unique →
      (m.setConditions [x]).statusOrEmpty.conditions.Unique :=
      fun h => conditioned.unique_setConditions m h _
  cases h with
  | unnamespaced | unrendered => exact reports_error (not_shows (by simp)) rfl id
  | statefulSetRefused | serviceRefused =>
      exact reports_error (not_shows (by simp [ModelCall.rank])) rfl id
  | unread hopens =>
      exact reports_error (not_shows (by simp [opening, ModelCall.rank])) rfl id
  | unfollowed hopens =>
      exact reports_error (not_shows (by simp [opening, ModelCall.rank])) rfl hset
  | absent hopens | rolling hopens =>
      exact reports_waiting (not_shows (by simp [opening, ModelCall.rank])) rfl rfl _
  | unlisted hopens =>
      exact reports_error (not_shows (by simp [listing, opening, ModelCall.rank])) rfl id
  | announced hopens =>
      exact reports_waiting (not_shows (by simp [listing, opening, ModelCall.rank])) rfl rfl _
  | pullFailed hopens =>
      exact reports_error (not_shows (by simp [fetching, listing, opening, ModelCall.rank])) rfl id
  | pullUnfinished hopens =>
      exact reports_waiting (not_shows (by simp [fetching, listing, opening, ModelCall.rank])) rfl
        rfl _
  | notShown hopens hrolled hhas hshow =>
      refine reports_error ?_ rfl hset
      rintro reply ⟨-, hshown, -⟩
      cases hshow.symm.trans hshown
  | shown hopens hrolled hhas hshow => exact hhas.reports hshow

/-- **One pass over a model.**  Its body ends in one of the ways listed, which says what calls
    it makes.  They come in order, each only after all before it have succeeded and none of
    those left out, except the pull of a model that the server lists.  Then, whatever happened,
    the pass writes the status.  The status says that the model is ready exactly if the server
    has it and shows it, and records what the server shows; in every other case the details
    stay. -/
theorem reconcile_sound (now : Instant) (w : ModelWorld) (m : Model) :
    ∃ calls left status, (reconcile now w m).calls = calls ++ [.patchStatus status] ∧
      Exit now w m calls left ((body now w m).runOn m).1 ∧
      status = (left.stamped now ((body now w m).runOn m).1).statusOrEmpty ∧
      Ordered w m calls ∧ Complete w m calls ∧
      Reports w m calls ((body now w m).runOn m).1 status :=
  have hexit := exit_body now w m
  ⟨_, _, _, reconcile_calls now w m, hexit, rfl, hexit.ordered, hexit.complete, hexit.reports⟩

end Model

end ModelOperator
