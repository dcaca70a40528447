import ModelOperator.Proofs.Controller.PromptExit

/-!
# Which prompts a change of a model wakes

    Two parts of the controller decide which model a prompt depends on: a pass looks one up,
    and a change of a model picks the prompts to look at again.  A prompt that waits for its
    model is not looked at again by itself, so the two have to agree.

    They agree within one namespace (`promptsForModel_exact`): of the prompts in the model's
    namespace exactly those are picked whose passes look that model up.  A prompt may name a
    model of another namespace, too, and its passes look that model up; but a change of that
    model does not wake it (`other_namespace_not_woken`). -/

namespace ModelOperator

namespace Prompt

variable {now : Instant} {w : PromptWorld} {p : Prompt}

/-- Where a prompt looks for its model: a namespace and a name. -/
def modelPlace? (p : Prompt) : Option (String × String) :=
  p.metadata.namespace?.map fun own => (p.spec.modelRef.namespaceFrom own, p.spec.modelRef.name)

theorem modelPlace?_of_namespace {own : String} (h : p.metadata.namespace? = some own) :
    p.modelPlace? = some (p.spec.modelRef.namespaceFrom own, p.spec.modelRef.name) := by
  rw [modelPlace?, h]
  rfl

/-- A body looks its model up, and nothing else of that kind. -/
theorem Exit.lookup_iff {calls : List PromptCall} {left : Prompt}
    {outcome : Except PromptError Action} (h : Exit now w p calls left outcome)
    (ns name : String) : .getModel ns name ∈ calls ↔ p.modelPlace? = some (ns, name) := by
  have hlookup : ∀ {own}, p.metadata.namespace? = some own →
      (PromptCall.getModel ns name = modelLookup p own ↔ p.modelPlace? = some (ns, name)) := by
    intro own hown
    rw [modelPlace?_of_namespace hown, modelLookup, PromptCall.getModel.injEq, Option.some_inj,
      Prod.mk.injEq, eq_comm, @eq_comm _ name]
  have hquiet : ∀ {lookups : List PromptCall}, (∀ c ∈ lookups, c.IsLookup) →
      .getModel ns name ∉ lookups := by
    intro lookups hlookups hmem
    obtain ⟨store, hstore⟩ := hlookups _ hmem
    cases hstore
  have hasking : ∀ {own m lookups q}, p.metadata.namespace? = some own →
      (∀ c ∈ lookups, PromptCall.IsLookup c) →
      (.getModel ns name ∈ asking p own m lookups q ↔ p.modelPlace? = some (ns, name)) := by
    intro own m lookups q hown hlookups
    simp [asking, hquiet hlookups, hlookup hown]
  cases h with
  | unnamespaced hns =>
      rw [modelPlace?, hns]
      exact iff_of_false List.not_mem_nil (fun h => by cases h)
  | unread hns | missing hns | unready hns =>
      rw [List.mem_singleton]
      exact hlookup hns
  | announced hgates =>
      rw [List.mem_singleton]
      exact hlookup hgates.namespaced
  | incomplete hgates _ hlookups =>
      rw [List.mem_append, List.mem_singleton, or_iff_left (hquiet hlookups)]
      exact hlookup hgates.namespaced
  | refused hgates _ hlookups | answered hgates _ hlookups =>
      exact hasking hgates.namespaced hlookups

/-- A pass over a prompt without an answer looks up the model of the prompt. -/
theorem looksUp_iff (now : Instant) (w : PromptWorld) (h : p.response? = none)
    (ns name : String) :
    .getModel ns name ∈ (reconcile now w p).calls ↔ p.modelPlace? = some (ns, name) := by
  rw [reconcile_calls now w ((response?_eq_none_iff p).mp h), List.mem_append,
    or_iff_left (by simp)]
  exact (exit_body now w p).lookup_iff ns name

/-- **Left waiting.**  A pass looked a model up, did not find it there or not ready, and
    ended to wait for a change. -/
structure LeftWaiting (now : Instant) (w : PromptWorld) (p : Prompt) (ns name : String) :
    Prop where
  looksUp : .getModel ns name ∈ (reconcile now w p).calls
  unready : ∀ m, w.model ns name = .ok (some m) → m.isSyncedAndReady = false
  waits : (reconcile now w p).result = .ok .awaitChange

end Prompt

/-- Whether a change of a model concerns a prompt is read off where both are. -/
theorem Prompt.concerns_iff (p : Prompt) (ns name : String) :
    p.concerns ns name = true ↔
      p.metadata.namespace? = some ns ∧ p.modelPlace? = some (ns, name) := by
  rw [concerns, modelPlace?]
  cases hown : p.metadata.namespace? with
  | none => exact iff_of_false Bool.false_ne_true fun h => by cases h.1
  | some own =>
      simp only [Bool.and_eq_true, beq_iff_eq, Option.some_inj, Option.map_some, Prod.mk.injEq]
      tauto

/-- **Woken within a namespace.**  A change of a model wakes, in their order, exactly the
    prompts of its own namespace that look for it; these are the ones whose passes look it
    up as long as they have no answer, so each of them that was left waiting for it is
    woken. -/
theorem promptsForModel_exact {m : Model} {ns : String} (hns : m.metadata.namespace? = some ns)
    (prompts : List Prompt) :
    promptsForModel prompts m = prompts.filter (fun p =>
        p.metadata.namespace? = some ns ∧ p.modelPlace? = some (ns, m.metadata.nameAny)) ∧
      (∀ p : Prompt, p.response? = none → ∀ now w,
        (.getModel ns m.metadata.nameAny ∈ (p.reconcile now w).calls ↔
          p.modelPlace? = some (ns, m.metadata.nameAny))) ∧
      ∀ p ∈ prompts, p.metadata.namespace? = some ns → ∀ now w,
        p.LeftWaiting now w ns m.metadata.nameAny → p ∈ promptsForModel prompts m := by
  have hwoken : promptsForModel prompts m = prompts.filter (fun p =>
      p.metadata.namespace? = some ns ∧ p.modelPlace? = some (ns, m.metadata.nameAny)) := by
    rw [promptsForModel, hns]
    refine List.filter_congr fun p _ => ?_
    rw [Bool.eq_iff_iff, decide_eq_true_iff]
    exact p.concerns_iff ns m.metadata.nameAny
  refine ⟨hwoken, fun p hp now w => Prompt.looksUp_iff now w hp ns _, ?_⟩
  intro p hmem hown now w hleft
  have hnone : p.response? = none := by
    -- an answered prompt makes no call at all
    refine (Prompt.response?_eq_none_iff p).mpr (Decidable.byContradiction fun hne => ?_)
    have hlooks := hleft.looksUp
    rw [Prompt.reconcile_answered now w hne] at hlooks
    cases hlooks
  rw [hwoken]
  exact List.mem_filter.mpr ⟨hmem, decide_eq_true
    ⟨hown, (Prompt.looksUp_iff now w hnone ns _).mp hleft.looksUp⟩⟩

/-- A model in a namespace. -/
def modelIn (ns : String) : Model where
  metadata := ⟨[("name", .str "gemma"), ("namespace", .str ns)]⟩
  spec := { model := "gemma2:2b" }

/-- A prompt in a namespace that asks that model, in a namespace of its own if one is
    named. -/
def promptIn (ns : String) (modelNs : Option String) : Prompt where
  metadata := ⟨[("name", .str "haiku"), ("namespace", .str ns)]⟩
  spec := { modelRef := { name := "gemma", ns := modelNs }, prompt := "Write a haiku" }

/-- A world in which there is no model yet. -/
def worldWithoutModel : PromptWorld where
  model := fun _ _ => .ok none
  store := fun _ => ⟨fun _ => .ok none⟩
  generate := .ok {}
  patchStatus := .ok ()

/-- Where there is no model, a prompt without an answer is left waiting for its own. -/
theorem leftWaiting_worldWithoutModel {p : Prompt} {ns name : String} (h : p.response? = none)
    (hplace : p.modelPlace? = some (ns, name)) :
    p.LeftWaiting default worldWithoutModel ns name := by
  refine ⟨(Prompt.looksUp_iff _ _ h _ _).mpr hplace, ?_, ?_⟩
  · intro m hm
    cases hm
  obtain ⟨own, hown, -⟩ := Option.map_eq_some_iff.mp hplace
  have hbody : ((p.body default worldWithoutModel).runOn p).1 = .ok .awaitChange := by
    rw [Pass.runOn_eq_resume, Prompt.body, hown]
    rfl
  rw [Prompt.reconcile, h]
  show Prompt.conclude ((p.body default worldWithoutModel).runOn p).1 (.ok ()) = _
  rw [hbody]
  rfl

/-- Of the prompts of two namespaces, the one beside the model that waits for it is woken. -/
theorem waiting_neighbour_woken :
    (modelIn "team-b").metadata.namespace? = some "team-b" ∧
      (promptIn "team-b" none).LeftWaiting default worldWithoutModel "team-b" "gemma" ∧
      promptIn "team-b" none ∈
        promptsForModel [promptIn "team-a" none, promptIn "team-b" none] (modelIn "team-b") := by
  have hleft : (promptIn "team-b" none).LeftWaiting default worldWithoutModel "team-b" "gemma" :=
    leftWaiting_worldWithoutModel rfl rfl
  refine ⟨rfl, hleft, ?_⟩
  exact (promptsForModel_exact (m := modelIn "team-b") rfl _).2.2 _
    (List.mem_cons_of_mem _ List.mem_cons_self) rfl _ _ hleft

/-- A prompt that asks a model of another namespace is left waiting for it, and a change of
    that model does not wake it. -/
theorem other_namespace_not_woken :
    (promptIn "team-a" (some "team-b")).modelPlace? = some ("team-b", "gemma") ∧
      (promptIn "team-a" (some "team-b")).LeftWaiting default worldWithoutModel "team-b" "gemma" ∧
      promptsForModel [promptIn "team-a" (some "team-b")] (modelIn "team-b") = [] :=
  ⟨rfl, leftWaiting_worldWithoutModel rfl rfl, by decide +kernel⟩

end ModelOperator
