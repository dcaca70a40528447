import Mathlib.Data.List.Perm.Basic
import ModelOperator.Proofs.Controller.ModelRun
import ModelOperator.Proofs.Controller.SelfReport
import ModelOperator.Proofs.Resource.Readiness

/-!
# A model comes to be ready

    Whatever earlier passes have left in the status of a model, once nothing stands in the way
    it takes at most two passes until the status says that the model is synced and ready
    (`model_converges`).  If the server lists the model, or the stored status announces its
    pull, one pass is enough; in every other case, that of a stale or half matching
    announcement included, the first pass announces the pull and the second one pulls.

    The test for readiness counts conditions, so the two that it looks for must be the only
    ones.  A pass keeps it so (`Model.reported_written`), and for such sets it is enough that
    the last words on both types are the good ones (`ConditionSet.Reported.isSyncedAndReady`). -/

namespace ModelOperator

namespace ConditionSet

/-- **What passes leave.**  The set has at most one condition that tells how the last pass went
    and at most one about readiness, whatever they say, and no other. -/
structure Reported (s : ConditionSet) : Prop where
  unique : s.Unique
  types : ∀ c ∈ s.items, c.type = Condition.syncedType ∨ c.type = Condition.readyType

theorem foreign_eq_nil_iff (s : ConditionSet) :
    s.foreign = [] ↔
      ∀ c ∈ s.items, c.type = Condition.syncedType ∨ c.type = Condition.readyType := by
  rw [foreign, List.filter_eq_nil_iff]
  refine forall_congr' fun c => forall_congr' fun _ => ?_
  simp only [Condition.isForeign, Bool.and_eq_true, bne_iff_ne, ne_eq, not_and, not_not]
  exact or_iff_not_imp_left.symm

/-- A condition that the set has is the one of its type. -/
theorem Reported.agrees {s : ConditionSet} (h : s.Reported) {c said : Condition}
    (hc : c ∈ s.items) (htype : c.type = said.type) (hsaid : s.has said = true) :
    said.equivalent c = true := by
  rw [has, ← htype, h.unique.get?_of_mem hc] at hsaid
  rw [Condition.equivalent_comm]
  exact hsaid

/-- There are two conditions if there is one of each type. -/
theorem Reported.length {s : ConditionSet} (h : s.Reported)
    (hsynced : (s.get? Condition.syncedType).isSome)
    (hready : (s.get? Condition.readyType).isSome) : s.items.length = 2 := by
  obtain ⟨synced, hsynced⟩ := Option.isSome_iff_exists.mp hsynced
  obtain ⟨ready, hready⟩ := Option.isSome_iff_exists.mp hready
  have htypes : (s.items.map (·.type)).Perm [Condition.syncedType, Condition.readyType] := by
    refine (List.perm_ext_iff_of_nodup h.unique (by decide)).mpr fun type => ?_
    simp only [List.mem_map, List.mem_cons, List.not_mem_nil, or_false]
    constructor
    · rintro ⟨c, hc, rfl⟩
      exact h.types c hc
    · rintro (rfl | rfl)
      · exact ⟨synced, mem_of_get? hsynced, type_of_get? hsynced⟩
      · exact ⟨ready, mem_of_get? hready, type_of_get? hready⟩
  have hlength := htypes.length_eq
  rwa [List.length_map] at hlength

/-- Where there are no other conditions, the test is passed once both say the good news. -/
theorem Reported.isSyncedAndReady {s : ConditionSet} (h : s.Reported)
    (hsynced : s.has (.reconcileSuccess default) = true)
    (hready : s.has (.available default) = true) : s.isSyncedAndReady = true := by
  have hsome : ∀ {said : Condition}, s.has said = true → (s.get? said.type).isSome := by
    intro said hsaid
    obtain ⟨c, hc, -⟩ := (s.has_iff said).mp hsaid
    exact Option.isSome_of_mem hc
  have hlength : (ofList [.reconcileSuccess default, .available default]).items.length = 2 := rfl
  rw [ConditionSet.isSyncedAndReady, equivalent, hlength, h.length (hsome hsynced) (hsome hready),
    Bool.and_eq_true, List.all_eq_true]
  refine ⟨rfl, fun c hc => (has_expected_iff c).mpr ?_⟩
  rcases h.types c hc with htype | htype
  · exact Or.inl ((Condition.reconcileSuccess_equivalent_iff _ c).mp (h.agrees hc htype hsynced))
  · exact Or.inr ((Condition.available_equivalent_iff _ c).mp (h.agrees hc htype hready))

end ConditionSet

/-! ## What every pass leaves -/

namespace Model

/-- What a pass writes has no other conditions than those of passes, if it finds none. -/
theorem reported_written {now : Instant} {w : ModelWorld} {m : Model} {s : ModelStatus}
    (h : m.statusOrEmpty.conditions.Reported) (hwritten : (reconcile now w m).written = some s) :
    s.conditions.Reported := by
  obtain ⟨-, rfl⟩ := controller.of_finish_written now _ hwritten
  have hexit := exit_body now w m
  refine ⟨hexit.reports.unique h.unique, (ConditionSet.foreign_eq_nil_iff _).mp ?_⟩
  exact (Controller.stamps_stamped (c := controller) hexit.setsReady _).foreign.trans ((ConditionSet.foreign_eq_nil_iff _).mpr h.types)

/-- A pass whose body ends well says so. -/
theorem has_reconcileSuccess {now : Instant} {w : ModelWorld} {m : Model} {action : Action}
    (h : ((body now w m).resume { resource := m }).1 = .ok action) :
    (finalOf now w m).statusOrEmpty.conditions.has (.reconcileSuccess default) = true := by
  rw [finalOf, h]
  exact (ConditionSet.has_set_singleton _ _ _).trans (if_pos rfl)

end Model

namespace ModelTurn.Smooth

open Model

variable {t : ModelTurn} (h : t.Smooth) {stored : Option ModelStatus}

include h

/-- The body of a smooth turn ends without an error. -/
theorem ends_well (stored : Option ModelStatus) :
    ∃ action, ((body t.now t.world (t.model stored)).resume
      { resource := t.model stored }).1 = .ok action := by
  obtain ⟨ns, hns⟩ := h.namespaced
  obtain ⟨rendered, hrender⟩ := h.rendered
  obtain ⟨doc, rollout, hfound, hrollout, hready⟩ := h.rolledOut
  obtain ⟨present, hlist⟩ := h.lists
  obtain ⟨last, hpull⟩ := h.pulls
  obtain ⟨reply, hshow⟩ := h.shows
  have hexit := exit_body t.now t.world (t.model stored)
  generalize (body t.now t.world (t.model stored)).resume { resource := t.model stored } =
    ended at hexit ⊢
  obtain ⟨outcome, left, calls, events⟩ := ended
  -- every end with an error comes of something that stands in the way
  cases hexit with
  | unnamespaced hnone => cases hns.symm.trans hnone
  | unrendered hfault => cases hrender.symm.trans hfault
  | statefulSetRefused _ hset => cases h.appliesStatefulSet.symm.trans hset
  | serviceRefused _ _ hservice => cases h.appliesService.symm.trans hservice
  | unread _ hget => cases hfound.symm.trans hget
  | unfollowed _ hget hreason =>
      cases hfound.symm.trans hget
      cases hrollout.symm.trans hreason
  | unlisted _ _ hrefused => cases hlist.symm.trans hrefused
  | pullFailed _ _ _ _ _ hfailed => cases hpull.symm.trans hfailed
  | notShown _ _ _ hrefused => cases hshow.symm.trans hrefused
  | absent | rolling | announced | pullUnfinished | shown => exact ⟨_, rfl⟩

/-- A smooth turn that says that the model can be used makes it synced and ready. -/
theorem synced_of_available (hreported : (t.model stored).statusOrEmpty.conditions.Reported)
    (hstated : (t.report stored).Says (.available t.now)) :
    ∃ s, (t.report stored).written = some s ∧ (t.model (some s)).isSyncedAndReady = true := by
  obtain ⟨action, haction⟩ := h.ends_well stored
  obtain ⟨s, hwritten, hready⟩ := hstated
  have hboth := reported_written hreported hwritten
  refine ⟨s, hwritten, hboth.isSyncedAndReady ?_ (hready _ rfl)⟩
  obtain ⟨-, rfl⟩ := controller.of_finish_written _ _ hwritten
  exact has_reconcileSuccess haction

/-- **One pass is enough** if the server lists the model, or its pull is announced and ends with
    success. -/
theorem ready_at_once (hpull : ∃ last, t.world.pull = .ok last ∧ last.isSuccess = true)
    (hreported : (t.model stored).statusOrEmpty.conditions.Reported)
    (hknown : t.spec.model ∈ t.listed ∨
      (t.model stored).hasCondition (pullingCondition t.now t.spec.model) = true) :
    ∃ s, (t.report stored).written = some s ∧ (t.model (some s)).isSyncedAndReady = true := by
  obtain ⟨last, hpull, hsuccess⟩ := hpull
  refine h.synced_of_available hreported ?_
  by_cases hlisted : t.spec.model ∈ t.listed
  · exact (h.ready_of_listed stored hlisted).1
  · have hstated := (h.pulls_of_announced stored hlisted (hknown.resolve_left hlisted) hpull).2
    rwa [hsuccess, if_pos rfl] at hstated

end ModelTurn.Smooth

/-- **A model converges.**  Take a smooth turn over a model, with a pull that ends with success,
    from any stored status that has at most one condition of each of the two types and no
    other.  It writes a status by which the model is synced and ready; or it announces the pull,
    and the turn after it, at whatever time, writes such a status. -/
theorem model_converges {t : ModelTurn} (hsmooth : t.Smooth)
    (hpull : ∃ last, t.world.pull = .ok last ∧ last.isSuccess = true)
    {stored : Option ModelStatus} (hstored : ∀ s, stored = some s → s.conditions.Reported)
    (later : Instant) :
    ∃ s, (t.report stored).written = some s ∧
      ((t.model (some s)).isSyncedAndReady = true ∨
        (t.report stored).announces t.spec.model = true ∧
          ∃ s', (ModelTurn.report { t with now := later } (some s)).written = some s' ∧
            (t.model (some s')).isSyncedAndReady = true) := by
  have hreported : (t.model stored).statusOrEmpty.conditions.Reported := by
    cases stored with
    | none => exact ⟨List.nodup_nil, nofun⟩
    | some s => exact hstored s rfl
  by_cases hknown : t.spec.model ∈ t.listed ∨
      (t.model stored).hasCondition (Model.pullingCondition t.now t.spec.model) = true
  · obtain ⟨s, hwritten, hready⟩ := hsmooth.ready_at_once hpull hreported hknown
    exact ⟨s, hwritten, Or.inl hready⟩
  · -- the turn announces the pull, and the next one finds that
    obtain ⟨hlisted, hnew⟩ := not_or.mp hknown
    have hstated := (hsmooth.announces_of_not_listed stored hlisted
      (eq_false_of_ne_true hnew)).1
    have hannounces := (hstated.announces t.spec.model).trans (Condition.equivalent_refl _)
    obtain ⟨s, hwritten, hstates⟩ := hstated
    have hsmooth' : ModelTurn.Smooth { t with now := later } := { hsmooth with }
    refine ⟨s, hwritten, Or.inr ⟨hannounces, ?_⟩⟩
    refine hsmooth'.ready_at_once hpull (Model.reported_written hreported hwritten) (Or.inr ?_)
    refine (Model.conditioned.hasCondition_eq _ _).trans ?_
    exact (hstates _ rfl).trans (Condition.equivalent_refl _)

/-- From a status that announces the pull of another model and tells of a failed pass, the
    first turn is not ready, and the second one is. -/
theorem model_converges_from_stale :
    let t := turnListing (modelAsking "gemma2:2b") []
    let stale : ModelStatus :=
      { conditions := ⟨[Model.pullingCondition default "llama3.1",
          .reconcileError default "failed to list local models"]⟩ }
    t.Smooth ∧ stale.conditions.Reported ∧ ∃ s, (t.report (some stale)).written = some s ∧
      (t.model (some s)).isSyncedAndReady = false ∧
      ∃ s', (ModelTurn.report { t with now := ⟨1, 0, 0⟩ } (some s)).written = some s' ∧
        (t.model (some s')).isSyncedAndReady = true := by
  intro t stale
  have hsmooth : t.Smooth := smooth_turnListing ⟨_, rfl⟩ ⟨_, rfl⟩ []
  have hstale : stale.conditions.Reported := by
    have hunique : [Condition.readyType, Condition.syncedType].Nodup := by decide
    refine ⟨hunique, ?_⟩
    simp [stale, Model.pullingCondition, Condition.creating, Condition.reconcileError]
  have hstored : ∀ s, some stale = some s → s.conditions.Reported := by
    rintro _ ⟨⟩
    exact hstale
  obtain ⟨s, hwritten, hends⟩ := model_converges hsmooth ⟨_, rfl, rfl⟩ hstored ⟨1, 0, 0⟩
  have hfirst : ((t.report (some stale)).written.map fun s =>
      (t.model (some s)).isSyncedAndReady) = some false := by decide +kernel
  rw [hwritten] at hfirst
  have hnot := Option.some_inj.mp hfirst
  refine ⟨hsmooth, hstale, s, hwritten, hnot, ?_⟩
  exact (hends.resolve_left fun hready => Bool.false_ne_true (hnot.symm.trans hready)).2

end ModelOperator
