import ModelOperator.Proofs.Controller.ModelPass

/-!
# A model over a run of passes

    Between two passes nothing is kept of a model but its stored status.  A run is a list
    of turns, each with its own clock, outcomes, metadata and specification, and its
    history pairs every turn with what its pass did.

    A turn is smooth when nothing stands in the way of the server: the objects of the
    model are rendered and applied, the server is rolled out, and every call succeeds.
    Against a server that keeps what it has (`Keeps`), a model that was once reported as
    ready stays so through every smooth run exactly when its id carries a tag
    (`ready_stable_iff_hasTag`).  Without a tag the server may list the model under the
    name with `:latest` behind it, which the pass does not recognise, and the model goes
    back and forth between ready and pulling (`ready_lost_without_tag`). -/

namespace ModelOperator

/-- One pass of a run: when it happens, what its calls come to, and what the model says
    apart from its status. -/
structure ModelTurn where
  now : Instant
  world : ModelWorld
  metadata : Metadata
  spec : ModelSpec

namespace ModelTurn

/-- The model as the pass reads it. -/
def model (t : ModelTurn) (stored : Option ModelStatus) : Model := ⟨t.metadata, t.spec, stored⟩

/-- What the pass does. -/
def report (t : ModelTurn) (stored : Option ModelStatus) : ModelReport :=
  (t.model stored).reconcile t.now t.world

/-- The status that is stored after the pass. -/
def after (t : ModelTurn) (stored : Option ModelStatus) : Option ModelStatus :=
  (t.report stored).written.or stored

/-- The names under which the server lists its models. -/
def listed (t : ModelTurn) : List String :=
  match t.world.list with
  | .ok present => present.models.map (·.model)
  | .error _ => []

/-- Nothing stands in the way: the model is in a namespace, its objects are rendered and
    applied, the server is rolled out, and every other call succeeds. -/
structure Smooth (t : ModelTurn) : Prop where
  namespaced : ∃ ns, t.metadata.namespace? = some ns
  rendered : ∃ rendered, (t.model none).render = .ok rendered
  appliesStatefulSet : t.world.applyStatefulSet = .ok ()
  appliesService : t.world.applyService = .ok ()
  rolledOut : ∃ doc rollout, t.world.statefulSet = .ok (some doc) ∧
    (Workload.of doc).rollout = .ok rollout ∧ rollout.ready = true
  lists : ∃ present, t.world.list = .ok present
  pulls : ∃ last, t.world.pull = .ok last
  shows : ∃ reply, t.world.inspect = .ok reply
  writes : t.world.patchStatus = .ok ()

/-- What a turn lists is what its server lists. -/
theorem mem_listed_iff {t : ModelTurn} {present : Inference.ModelList}
    (hlist : t.world.list = .ok present) (id : String) :
    id ∈ t.listed ↔ present.contains id = true := by
  rw [listed, Inference.ModelList.contains]
  rw [hlist, List.any_eq_true]
  constructor
  · intro hid
    obtain ⟨e, he, rfl⟩ := List.mem_map.mp hid
    exact ⟨e, he, beq_self_eq_true _⟩
  · rintro ⟨e, he, hname⟩
    exact List.mem_map.mpr ⟨e, he, eq_of_beq hname⟩

end ModelTurn

namespace ModelReport

/-- Whether the pass had the server fetch a model. -/
def pulls (r : ModelReport) : Bool := r.calls.any ModelCall.isPull

/-- Whether the pass wrote that the model can be used. -/
def writesReady (r : ModelReport) : Bool :=
  match r.written with
  | some s => (s.conditions.get? Condition.readyType).any Condition.isTrue
  | none => false

/-- Whether the pass wrote the announcement that a model will be pulled. -/
def announces (r : ModelReport) (id : String) : Bool :=
  match r.written with
  | some s => s.conditions.has (Model.pullingCondition default id)
  | none => false

end ModelReport

/-- A run: each turn with what its pass did. -/
def modelHistory : Option ModelStatus → List ModelTurn → List (ModelTurn × ModelReport)
  | _, [] => []
  | stored, t :: rest => (t, t.report stored) :: modelHistory (t.after stored) rest

/-- Whether the id of a model carries a tag: a colon behind its last slash. -/
def hasTag (id : String) : Bool := (id.toList.reverse.takeWhile (· != '/')).contains ':'

/-- The name under which a server lists an id without a tag. -/
def latestName (id : String) : String := id ++ ":latest"

/-- With `:latest` behind it an id is another name. -/
theorem ne_latestName (id : String) : id ≠ latestName id := by
  intro h
  have hlength := congrArg String.length h
  have htag : ":latest".length = 7 := rfl
  rw [latestName] at hlength
  rw [String.length_append, htag] at hlength
  omega

/-- **A server that keeps what it has.**  What one turn saw listed is listed at a later
    one; and once a pull has succeeded, later turns see the model listed under its id,
    or with `:latest` behind it when the id carries no tag. -/
def Keeps (a b : ModelTurn × ModelReport) : Prop :=
  (∀ name ∈ a.1.listed, name ∈ b.1.listed) ∧
  ∀ last, a.2.pulls = true → a.1.world.pull = .ok last → last.isSuccess = true →
    a.1.spec.model ∈ b.1.listed ∨
      hasTag a.1.spec.model = false ∧ latestName a.1.spec.model ∈ b.1.listed

/-- After a pass that reported the model as ready, a later one does so too, and neither
    announces a pull nor pulls. -/
def StaysReady (a b : ModelTurn × ModelReport) : Prop :=
  a.2.writesReady = true →
    b.2.writesReady = true ∧ b.2.announces b.1.spec.model = false ∧ b.2.pulls = false

/-! ## What a report says about readiness -/

/-- The written status says this about readiness, and nothing else. -/
def ModelReport.Says (r : ModelReport) (x : Condition) : Prop :=
  ∃ s, r.written = some s ∧
    ∀ c : Condition, c.type = Condition.readyType → s.conditions.has c = x.equivalent c

namespace ModelReport.Says

variable {r : ModelReport} {x : Condition}

/-- A report writes what it says about readiness. -/
theorem writesReady (h : r.Says x) (hx : x.type = Condition.readyType) :
    r.writesReady = x.isTrue := by
  obtain ⟨s, hwritten, hstated⟩ := h
  -- the set has `x` itself, so what it stores for that type is as true
  have hhas : s.conditions.has x = true := (hstated x hx).trans (Condition.equivalent_refl x)
  obtain ⟨stored, hstored, htrue⟩ := ConditionSet.get?_of_has hhas
  rw [hx] at hstored
  rw [ModelReport.writesReady]
  rw [hwritten]
  show (s.conditions.get? Condition.readyType).any Condition.isTrue = _
  rw [hstored]
  exact htrue

/-- A report announces a pull exactly if what it says is the announcement. -/
theorem announces (h : r.Says x) (id : String) :
    r.announces id = x.equivalent (Model.pullingCondition default id) := by
  obtain ⟨s, hwritten, hstated⟩ := h
  rw [ModelReport.announces]
  rw [hwritten]
  exact hstated _ rfl

end ModelReport.Says

namespace Model

open Pass

/-- A pass that last set a condition about readiness and stores its status says it. -/
theorem reconcile_states {now : Instant} {w : ModelWorld} {m m' : Model} {x : Condition}
    (hx : x.type = Condition.readyType) (hw : w.patchStatus = .ok ())
    (hlast : ((body now w m).resume { resource := m }).2.resource = m'.setConditions [x]) :
    (reconcile now w m).Says x := by
  refine ⟨(finalOf now w m).statusOrEmpty, controller.finish_written now _ hw, ?_⟩
  intro c hc
  refine (controller.has_stamped now _ _ hc).trans ?_
  rw [hlast]
  exact (conditioned.has_setConditions m' x c).trans (if_pos (hx.trans hc.symm))

end Model

/-! ## Smooth turns -/

namespace ModelTurn.Smooth

open Pass Model

variable {t : ModelTurn} (h : t.Smooth) (stored : Option ModelStatus)

include h

/-- A smooth turn gets as far as the list of the server, without a pull. -/
theorem reaches_list {present : Inference.ModelList} (hlist : t.world.list = .ok present) :
    ∃ calls : List ModelCall, calls.any ModelCall.isPull = false ∧
      (body t.now t.world (t.model stored)).resume { resource := t.model stored } =
        (if present.contains t.spec.model then recordAvailable t.now t.world t.spec.model
          else fetch t.now t.world t.spec.model).resume
          (Progress.calling { resource := t.model stored } calls) := by
  obtain ⟨ns, hns⟩ := h.namespaced
  obtain ⟨rendered, hrender⟩ := h.rendered
  obtain ⟨doc, rollout, hfound, hrollout, hready⟩ := h.rolledOut
  refine ⟨opening (t.model stored) rendered ns ++ [.forModel t.metadata.nameAny, .list], rfl, ?_⟩
  rw [resume_body_rolledOut t.now t.world (t.model stored) _ hns hrender h.appliesStatefulSet
    h.appliesService hfound hrollout hready, resume_serve, hlist]
  simp only [Progress.calling_calling]
  rfl

/-- Where the server lists the model, the turn reports it as ready and does not pull. -/
theorem ready_of_listed (hlisted : t.spec.model ∈ t.listed) :
    (t.report stored).Says (.available t.now) ∧ (t.report stored).pulls = false := by
  obtain ⟨present, hlist⟩ := h.lists
  obtain ⟨reply, hshow⟩ := h.shows
  obtain ⟨calls, hquiet, hbody⟩ := h.reaches_list stored hlist
  rw [if_pos ((mem_listed_iff hlist _).mp hlisted), resume_recordAvailable, hshow] at hbody
  refine ⟨reconcile_states rfl h.writes (congrArg (·.2.resource) hbody), ?_⟩
  show ((t.model stored).reconcile t.now t.world).calls.any ModelCall.isPull = false
  rw [reconcile_calls, hbody, List.any_append]
  simp [hquiet, ModelCall.isPull]

/-- Where the server does not list the model, the turn first announces a pull. -/
theorem announces_of_not_listed (hlisted : t.spec.model ∉ t.listed)
    (hquiet : (t.model stored).hasCondition (pullingCondition t.now t.spec.model) = false) :
    (t.report stored).Says (pullingCondition t.now t.spec.model) ∧
      (t.report stored).pulls = false := by
  obtain ⟨present, hlist⟩ := h.lists
  obtain ⟨calls, hcalls, hbody⟩ := h.reaches_list stored hlist
  have hnot : ¬ (Progress.calling { resource := t.model stored } calls).resource.hasCondition
      (pullingCondition t.now t.spec.model) = true := by
    intro hannounced
    cases hquiet.symm.trans hannounced
  rw [if_neg (mt (mem_listed_iff hlist _).mpr hlisted), resume_fetch, if_neg hnot] at hbody
  refine ⟨reconcile_states rfl h.writes (congrArg (·.2.resource) hbody), ?_⟩
  show ((t.model stored).reconcile t.now t.world).calls.any ModelCall.isPull = false
  rw [reconcile_calls, hbody, List.any_append]
  simp [hcalls, ModelCall.isPull]

/-- Where the pull is announced, the turn pulls; it then reports the model as ready if the
    pull succeeded, and as unavailable if it did not. -/
theorem pulls_of_announced {last : Inference.PullProgress} (hlisted : t.spec.model ∉ t.listed)
    (hannounced : (t.model stored).hasCondition (pullingCondition t.now t.spec.model) = true)
    (hpull : t.world.pull = .ok last) :
    (t.report stored).pulls = true ∧
      (t.report stored).Says (if last.isSuccess then .available t.now
        else .unavailable t.now "Model hasn't been pulled successfully, retrying") := by
  obtain ⟨present, hlist⟩ := h.lists
  obtain ⟨reply, hshow⟩ := h.shows
  obtain ⟨calls, -, hbody⟩ := h.reaches_list stored hlist
  have hyes : (Progress.calling { resource := t.model stored } calls).resource.hasCondition
      (pullingCondition t.now t.spec.model) = true := hannounced
  rw [if_neg (mt (mem_listed_iff hlist _).mpr hlisted), resume_fetch, if_pos hyes, hpull] at hbody
  cases hsuccess : last.isSuccess with
  | true =>
      -- a model that was pulled is shown and reported in the same pass
      simp only [hsuccess, if_true, resume_recordAvailable, hshow] at hbody
      rw [if_pos rfl]
      refine ⟨?_, reconcile_states rfl h.writes (congrArg (·.2.resource) hbody)⟩
      show ((t.model stored).reconcile t.now t.world).calls.any ModelCall.isPull = true
      rw [reconcile_calls, hbody]
      simp [pulling, ModelCall.isPull]
  | false =>
      simp only [hsuccess, Bool.false_eq_true, if_false] at hbody
      rw [if_neg Bool.false_ne_true]
      refine ⟨?_, reconcile_states rfl h.writes (congrArg (·.2.resource) hbody)⟩
      show ((t.model stored).reconcile t.now t.world).calls.any ModelCall.isPull = true
      rw [reconcile_calls, hbody]
      simp [pulling, ModelCall.isPull]

/-- **Why a model is ready.**  A smooth turn that reports the model as ready saw it listed,
    or pulled it with success. -/
theorem listed_or_pulled (hready : (t.report stored).writesReady = true) :
    t.spec.model ∈ t.listed ∨ (t.report stored).pulls = true ∧
      ∃ last, t.world.pull = .ok last ∧ last.isSuccess = true := by
  by_cases hlisted : t.spec.model ∈ t.listed
  · exact Or.inl hlisted
  · -- of the two ways on from a model that is not listed, the announcement is not ready
    refine Or.inr ?_
    obtain ⟨last, hpull⟩ := h.pulls
    cases hannounced : (t.model stored).hasCondition (pullingCondition t.now t.spec.model) with
    | false =>
        have hstated := (h.announces_of_not_listed stored hlisted hannounced).1
        rw [hstated.writesReady rfl] at hready
        cases hready
    | true =>
        obtain ⟨hpulls, hstated⟩ := h.pulls_of_announced stored hlisted hannounced hpull
        refine ⟨hpulls, last, hpull, ?_⟩
        cases hsuccess : last.isSuccess with
        | true => rfl
        | false =>
            simp only [hsuccess, Bool.false_eq_true, if_false] at hstated
            rw [hstated.writesReady rfl] at hready
            cases hready

end ModelTurn.Smooth

/-! ## Runs -/

section Runs

open ModelTurn

/-- Every entry of a history is a turn of the run with the report of its pass. -/
theorem mem_modelHistory {stored : Option ModelStatus} {turns : List ModelTurn}
    {p : ModelTurn × ModelReport} (hp : p ∈ modelHistory stored turns) :
    ∃ t ∈ turns, ∃ before, p = (t, t.report before) := by
  induction turns generalizing stored with
  | nil => cases hp
  | cons t rest ih =>
      rcases List.mem_cons.mp hp with rfl | hp
      · exact ⟨t, List.mem_cons_self, stored, rfl⟩
      · obtain ⟨t', hmem, hreport⟩ := ih hp
        exact ⟨t', List.mem_cons_of_mem t hmem, hreport⟩

/-- With a tag in the id, a server that keeps what it has goes on listing a model that was
    reported as ready, so the later turn does so too. -/
theorem staysReady_of_keeps {a b : ModelTurn} {before between : Option ModelStatus}
    (ha : a.Smooth) (hb : b.Smooth) (hspec : b.spec = a.spec)
    (htag : hasTag a.spec.model = true)
    (hkeeps : Keeps (a, a.report before) (b, b.report between)) :
    StaysReady (a, a.report before) (b, b.report between) := by
  intro hready
  -- a tagged id is kept under its own name, whichever way the earlier turn became ready
  have hlisted : b.spec.model ∈ b.listed := by
    rw [hspec]
    rcases ha.listed_or_pulled before hready with hlisted | ⟨hpulls, last, hpull, hsuccess⟩
    · exact hkeeps.1 _ hlisted
    · rcases hkeeps.2 last hpulls hpull hsuccess with hlisted | ⟨huntagged, -⟩
      · exact hlisted
      · cases htag.symm.trans huntagged
  obtain ⟨hstated, hquiet⟩ := hb.ready_of_listed between hlisted
  exact ⟨hstated.writesReady rfl, hstated.announces _, hquiet⟩

/-- A stateful set that is rolled out. -/
def rolledOutSet : Json := .ofMembers [("status", .ofMembers [("observedGeneration", .int 1)])]

/-- A smooth turn over a model against a server that lists these names. -/
def turnListing (m : Model) (names : List String) : ModelTurn where
  now := default
  world :=
    { applyStatefulSet := .ok ()
      applyService := .ok ()
      statefulSet := .ok (some rolledOutSet)
      list := .ok ⟨names.map fun name => { name, model := name }⟩
      pull := .ok { status := "success" }
      inspect := .ok {}
      patchStatus := .ok () }
  metadata := m.metadata
  spec := m.spec

/-- A run that announces a pull, pulls, and then sees the model listed under a name. -/
def runListing (m : Model) (name : String) : List ModelTurn :=
  [turnListing m [], turnListing m [], turnListing m [name]]

theorem listed_turnListing (m : Model) (names : List String) :
    (turnListing m names).listed = names := by
  show List.map (·.model) (names.map fun name => ({ name, model := name } :
    Inference.ListedModel)) = names
  rw [List.map_map]
  exact List.map_id names

variable {m : Model} {name : String}

theorem smooth_turnListing (hns : ∃ ns, m.metadata.namespace? = some ns)
    (hrender : ∃ rendered, m.render = .ok rendered) (names : List String) :
    (turnListing m names).Smooth where
  namespaced := hns
  rendered := hrender
  appliesStatefulSet := rfl
  appliesService := rfl
  rolledOut := ⟨rolledOutSet, _, rfl, rfl, rfl⟩
  lists := ⟨_, rfl⟩
  pulls := ⟨_, rfl⟩
  shows := ⟨_, rfl⟩
  writes := rfl

theorem smooth_runListing (hns : ∃ ns, m.metadata.namespace? = some ns)
    (hrender : ∃ rendered, m.render = .ok rendered) :
    ∀ t ∈ runListing m name, t.spec = m.spec ∧ t.Smooth := by
  intro t ht
  simp only [runListing, List.mem_cons, List.not_mem_nil, or_false] at ht
  rcases ht with rfl | rfl | rfl <;> exact ⟨rfl, smooth_turnListing hns hrender _⟩

/-- What a turn said about readiness is what the next pass over the model finds. -/
theorem hasCondition_after {t next : ModelTurn} {stored : Option ModelStatus} {x c : Condition}
    (hstated : (t.report stored).Says x) (hc : c.type = Condition.readyType) :
    (next.model (t.after stored)).hasCondition c = x.equivalent c := by
  obtain ⟨s, hwritten, hstates⟩ := hstated
  rw [after]
  rw [hwritten]
  exact (Model.conditioned.hasCondition_eq _ c).trans (hstates c hc)

variable (hns : ∃ ns, m.metadata.namespace? = some ns)
variable (hrender : ∃ rendered, m.render = .ok rendered)

include hns hrender

/-- The first turn of such a run announces the pull, the second pulls and reports the
    model as ready. -/
theorem opening_runListing :
    ((turnListing m []).report none).Says (Model.pullingCondition default m.spec.model) ∧
      ((turnListing m []).report none).pulls = false ∧
      ((turnListing m []).report ((turnListing m []).after none)).Says
        (.available default) := by
  have hsmooth := smooth_turnListing hns hrender []
  have hlisted : (turnListing m []).spec.model ∉ (turnListing m []).listed := by
    rw [listed_turnListing]
    exact List.not_mem_nil
  obtain ⟨hstated, hquiet⟩ := hsmooth.announces_of_not_listed none hlisted rfl
  have hannounced : ((turnListing m []).model ((turnListing m []).after none)).hasCondition
      (Model.pullingCondition default m.spec.model) = true :=
    (hasCondition_after hstated rfl).trans (Condition.equivalent_refl _)
  exact ⟨hstated, hquiet, (hsmooth.pulls_of_announced _ hlisted hannounced rfl).2⟩

/-- The server of such a run keeps what it has if the name is the id, or the one with
    `:latest` for an id without a tag. -/
theorem keeps_runListing (hname : name = m.spec.model ∨
    hasTag m.spec.model = false ∧ name = latestName m.spec.model) :
    (modelHistory none (runListing m name)).Pairwise Keeps := by
  have hkeeps : ∀ (names : List String) (r r' : ModelReport),
      r.pulls = false ∨ name ∈ names → Keeps (turnListing m [], r) (turnListing m names, r') := by
    intro names r r' hquiet
    constructor
    · -- nothing is listed that could get lost
      intro other hother
      rw [listed_turnListing] at hother
      cases hother
    · intro last hpulls _ _
      rcases hquiet with hquiet | hmem
      · cases hquiet.symm.trans hpulls
      · show m.spec.model ∈ (turnListing m names).listed ∨ hasTag m.spec.model = false ∧
          latestName m.spec.model ∈ (turnListing m names).listed
        rw [listed_turnListing]
        rcases hname with rfl | ⟨huntagged, rfl⟩
        · exact Or.inl hmem
        · exact Or.inr ⟨huntagged, hmem⟩
  have hquiet := (opening_runListing hns hrender).2.1
  -- the first turn does not pull, and the last one lists what the second pulled
  simp only [runListing, modelHistory, List.pairwise_cons, List.mem_cons, List.not_mem_nil,
    or_false, forall_eq_or_imp, forall_eq, List.Pairwise.nil, and_true]
  exact ⟨⟨hkeeps _ _ _ (Or.inl hquiet), hkeeps _ _ _ (Or.inl hquiet)⟩,
    hkeeps _ _ _ (Or.inr List.mem_cons_self), fun _ => False.elim⟩

/-- A run that ends with the model listed under another name does not stay ready. -/
theorem not_staysReady_runListing (hname : m.spec.model ≠ name) :
    ¬ (modelHistory none (runListing m name)).Pairwise StaysReady := by
  intro hstays
  obtain ⟨-, -, hready⟩ := opening_runListing hns hrender
  have hlast := (List.pairwise_cons.mp (List.pairwise_cons.mp hstays).2).1 _ List.mem_cons_self
    (hready.writesReady rfl)
  -- the last turn does not find the id among the names, and announces the pull again
  have hlisted : (turnListing m [name]).spec.model ∉ (turnListing m [name]).listed := by
    rw [listed_turnListing]
    exact fun hmem => hname (List.mem_singleton.mp hmem)
  have hagain := ((smooth_turnListing hns hrender [name]).announces_of_not_listed _ hlisted
    (hasCondition_after hready rfl)).1
  exact Bool.false_ne_true (hlast.2.1.symm.trans
    ((hagain.announces _).trans (Condition.equivalent_refl _)))

end Runs

/-- **Readiness is stable exactly with a tag.**  Take a model in a namespace whose objects
    are rendered.  Over every smooth run against a server that keeps what it has, whatever
    was stored before, each pass after one that reported the model as ready does so again
    and neither announces a pull nor pulls, if the id carries a tag; and without a tag
    some such run breaks this. -/
theorem ready_stable_iff_hasTag {m : Model} (hns : ∃ ns, m.metadata.namespace? = some ns)
    (hrender : ∃ rendered, m.render = .ok rendered) :
    (∀ stored turns, (∀ t ∈ turns, t.spec = m.spec ∧ t.Smooth) →
      (modelHistory stored turns).Pairwise Keeps →
      (modelHistory stored turns).Pairwise StaysReady) ↔ hasTag m.spec.model = true := by
  constructor
  · intro hstable
    cases htag : hasTag m.spec.model with
    | true => rfl
    | false =>
        -- without a tag the server may list the model under the name with `:latest`
        refine absurd ?_ (not_staysReady_runListing hns hrender (ne_latestName m.spec.model))
        exact hstable none _ (smooth_runListing hns hrender)
          (keeps_runListing hns hrender (Or.inr ⟨htag, rfl⟩))
  · intro htag stored turns hturns hkeeps
    -- what the server keeps relates any two turns, so no induction on the run is left
    refine hkeeps.imp_of_mem ?_
    intro p q hp hq hpq
    obtain ⟨a, ha, before, rfl⟩ := mem_modelHistory hp
    obtain ⟨b, hb, between, rfl⟩ := mem_modelHistory hq
    obtain ⟨hspeca, hsmootha⟩ := hturns a ha
    obtain ⟨hspecb, hsmoothb⟩ := hturns b hb
    exact staysReady_of_keeps hsmootha hsmoothb (hspecb.trans hspeca.symm) (hspeca ▸ htag) hpq

/-- A model in the default namespace that asks for this id. -/
def modelAsking (id : String) : Model where
  metadata := ⟨[("name", .str "llama"), ("namespace", .str "default")]⟩
  spec := { model := id }
  status := none

/-- A model with a tag in its id, once pulled, stays ready. -/
theorem ready_stable_tagged :
    let run := modelHistory none (runListing (modelAsking "gemma2:2b") "gemma2:2b")
    run.map (·.2.writesReady) = [false, true, true] ∧ run.Pairwise StaysReady := by
  have hns : ∃ ns, (modelAsking "gemma2:2b").metadata.namespace? = some ns := ⟨_, rfl⟩
  have hrender : ∃ rendered, (modelAsking "gemma2:2b").render = .ok rendered := ⟨_, rfl⟩
  refine ⟨by decide +kernel, (ready_stable_iff_hasTag hns hrender).mpr (by decide +kernel) _ _
    (smooth_runListing hns hrender) ?_⟩
  exact keeps_runListing hns hrender (Or.inl rfl)

/-- Without a tag, the server lists the model under the name with `:latest`, and the pass
    after the one that reported it as ready announces another pull. -/
theorem ready_lost_without_tag :
    let run := modelHistory none (runListing (modelAsking "llama3.1") "llama3.1:latest")
    run.Pairwise Keeps ∧ run.map (·.2.writesReady) = [false, true, false] ∧
      run.map (·.2.announces "llama3.1") = [true, false, true] ∧ ¬ run.Pairwise StaysReady := by
  have hns : ∃ ns, (modelAsking "llama3.1").metadata.namespace? = some ns := ⟨_, rfl⟩
  have hrender : ∃ rendered, (modelAsking "llama3.1").render = .ok rendered := ⟨_, rfl⟩
  have hname : "llama3.1:latest" = latestName (modelAsking "llama3.1").spec.model := rfl
  refine ⟨keeps_runListing hns hrender (Or.inr ⟨by decide +kernel, hname⟩),
    by decide +kernel, by decide +kernel, ?_⟩
  exact not_staysReady_runListing hns hrender (hname ▸ ne_latestName _)

end ModelOperator
