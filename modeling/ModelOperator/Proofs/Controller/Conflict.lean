import ModelOperator.Proofs.Controller.ModelRun
import ModelOperator.Proofs.Controller.SelfReport

/-!
# Conflicts while the objects of a model are applied

    A conflict with another writer is no failure of the model: the pass should be run again
    soon, and nobody needs to hear of it.  The result of a pass follows this, whether the
    conflict comes from an object that is applied or from the write of the status.

    The status does not.  It is stamped with what the body came to before conflicts are sorted
    out, and so a conflict met while an object is applied is stored as the reason why the model
    is not synced (`conflict_blamed`).  It is silent only if the write of the status fails too
    (`conflict_silent_iff`). -/

namespace ModelOperator

/-- An object is refused when it is applied, with this error. -/
def ModelWorld.Refuses (w : ModelWorld) (e : ClusterError) : ModelCall → Prop
  | .applyStatefulSet _ => w.applyStatefulSet = .error e
  | .applyService _ => w.applyService = .error e
  | _ => False

/-- The status says that the last pass failed, and gives this error as the reason. -/
def ModelStatus.Blames (s : ModelStatus) (e : ClusterError) : Prop :=
  ∃ c, s.conditions.get? Condition.syncedType = some c ∧ c.status = .fails ∧ c.message = e.message

/-- A pass meets a conflict: an object that it applies is refused because another writer came
    first. -/
def Model.MeetsConflict (now : Instant) (w : ModelWorld) (m : Model) (e : ClusterError) : Prop :=
  e.isConflict = true ∧ ∃ c ∈ (m.reconcile now w).calls, w.Refuses e c

namespace Model

open Pass

variable {now : Instant} {w : ModelWorld} {m : Model} {e : ClusterError}

theorem Opens.not_refuses {ns : String} {rendered : Rendered} (h : Opens w m ns rendered)
    (c : ModelCall) : ¬ w.Refuses e c := by
  cases c with
  | applyStatefulSet => exact fun hrefuses => nomatch h.appliesStatefulSet.symm.trans hrefuses
  | applyService => exact fun hrefuses => nomatch h.appliesService.symm.trans hrefuses
  | _ => exact id

/-- Once a model is in a namespace and rendered, its objects are applied, and a conflict with
    either of them is met. -/
theorem meetsConflict_of_refused {ns : String} {rendered : Rendered}
    (hns : m.metadata.namespace? = some ns) (hrender : m.render = .ok rendered)
    (hrefused : w.applyStatefulSet = .error e ∨
      w.applyStatefulSet = .ok () ∧ w.applyService = .error e)
    (hconflict : e.isConflict = true) : MeetsConflict now w m e := by
  rcases hrefused with hset | ⟨hset, hservice⟩
  · refine ⟨hconflict, .applyStatefulSet rendered.statefulSet, ?_, hset⟩
    rw [reconcile_calls]
    simp only [body, hns, hrender, resume_bind, resume_call, hset, resume_orClusterError_error]
    exact List.mem_cons_self
  · refine ⟨hconflict, .applyService rendered.service, ?_, hservice⟩
    rw [reconcile_calls]
    simp only [body, hns, hrender, resume_bind, resume_call, hset, hservice,
      resume_orClusterError_ok, resume_orClusterError_error, Progress.calling_calling]
    exact List.mem_cons_of_mem _ List.mem_cons_self

/-- A refusal ends the body, with its error. -/
theorem Exit.of_refused {calls : List ModelCall} {left : Model}
    {outcome : Except ModelError Action} (h : Exit now w m calls left outcome) {c : ModelCall}
    (hc : c ∈ calls) (hrefuses : w.Refuses e c) : outcome = .error (.cluster e) := by
  cases h with
  | unnamespaced | unrendered => cases hc
  | statefulSetRefused _ hset =>
      cases List.mem_singleton.mp hc
      cases hset.symm.trans hrefuses
      rfl
  | serviceRefused _ hset hservice =>
      rcases List.mem_cons.mp hc with rfl | hc
      · cases hset.symm.trans hrefuses
      · cases List.mem_singleton.mp hc
        cases hservice.symm.trans hrefuses
        rfl
  | unread hopens | absent hopens | unfollowed hopens | rolling hopens | unlisted hopens
  | announced hopens | pullFailed hopens | pullUnfinished hopens | notShown hopens | shown hopens =>
      exact absurd hrefuses (hopens.not_refuses c)

theorem MeetsConflict.outcome (h : MeetsConflict now w m e) :
    ((body now w m).runOn m).1 = .error (.cluster e) := by
  obtain ⟨-, c, hc, hrefuses⟩ := h
  rw [reconcile_calls] at hc
  rcases List.mem_append.mp hc with hc | hc
  · exact (exit_body now w m).of_refused hc hrefuses
  · -- the write of the status applies no object
    cases List.mem_singleton.mp hc
    exact hrefuses.elim

/-- What a pass writes that meets a conflict gives it as the reason of its failure. -/
theorem MeetsConflict.blamed (h : MeetsConflict now w m e) {s : ModelStatus}
    (hwritten : (reconcile now w m).written = some s) : s.Blames e := by
  obtain ⟨before, status, -, -, hstored, hstamps⟩ := (selfReported now w m).writesLast
  cases (hstored (controller.of_finish_written now _ hwritten).1).symm.trans hwritten
  obtain ⟨c, hget, -, hfails⟩ := hstamps.synced
  exact ⟨c, hget, hfails _ h.outcome⟩

/-- The result of a pass that meets a conflict asks for another one after a second. -/
theorem MeetsConflict.result (h : MeetsConflict now w m e) :
    (reconcile now w m).result = .ok (.requeue 1000) := by
  have hconcludes := (selfReported now w m).concludes
  cases hwrite : w.patchStatus with
  | ok _ =>
      rw [hconcludes.written hwrite, h.outcome]
      exact if_pos h.1
  | error source =>
      rw [hconcludes.bothFailed source _ hwrite h.outcome]
      exact if_pos (Bool.or_eq_true_iff.mpr (Or.inr h.1))

end Model

/-- **Conflicts are silent only where nothing is stored.**  Let a pass meet a conflict while it
    applies an object.  It always asks to be run again after a second; but that no status it
    writes gives the conflict as the reason of a failure holds exactly if the write of the status
    fails, too. -/
theorem conflict_silent_iff {now : Instant} {w : ModelWorld} {m : Model} {e : ClusterError}
    (h : m.MeetsConflict now w e) :
    (m.reconcile now w).result = .ok (.requeue 1000) ∧
      ((∀ s, (m.reconcile now w).written = some s → ¬ s.Blames e) ↔
        ∃ source, w.patchStatus = .error source) := by
  refine ⟨h.result, ?_⟩
  cases hwrite : w.patchStatus with
  | error source =>
      refine iff_of_true (fun s hwritten => ?_) ⟨source, rfl⟩
      cases (Model.controller.finish_unwritten now _ hwrite).symm.trans hwritten
  | ok _ =>
      refine iff_of_false (fun hsilent => ?_) nofun
      have hwritten := Model.controller.finish_written now ((m.body now w).runOn m) hwrite
      exact hsilent _ hwritten (h.blamed hwritten)

/-- A world in which another writer came first to the stateful set, with this outcome of the
    write of the status. -/
def contestedWorld (write : Except ClusterError Unit) : ModelWorld :=
  { (turnListing (modelAsking "gemma2:2b") []).world with
    applyStatefulSet := .error conflictRefusal
    patchStatus := write }

theorem meetsConflict_readyModel (write : Except ClusterError Unit) :
    readyModel.MeetsConflict default (contestedWorld write) conflictRefusal :=
  Model.meetsConflict_of_refused rfl rfl (Or.inl rfl) rfl

/-- A conflict whose pass fails to write the status leaves no trace. -/
theorem conflict_silent_unwritten :
    let w := contestedWorld (.error conflictRefusal)
    readyModel.MeetsConflict default w conflictRefusal ∧
      (readyModel.reconcile default w).result = .ok (.requeue 1000) ∧
      ∀ s, (readyModel.reconcile default w).written = some s → ¬ s.Blames conflictRefusal := by
  intro w
  have hmeets : readyModel.MeetsConflict default w conflictRefusal :=
    meetsConflict_readyModel _
  obtain ⟨hresult, hsilent⟩ := conflict_silent_iff hmeets
  exact ⟨hmeets, hresult, hsilent.mpr ⟨conflictRefusal, rfl⟩⟩

/-- **A conflict that is not silent.**  A model that is synced and ready meets a conflict, and
    the status that the pass writes gives it as the reason why the model is not synced. -/
theorem conflict_blamed :
    let w := contestedWorld (.ok ())
    readyModel.isSyncedAndReady = true ∧
      readyModel.MeetsConflict default w conflictRefusal ∧
      ∃ s, (readyModel.reconcile default w).written = some s ∧ s.Blames conflictRefusal := by
  intro w
  have hmeets : readyModel.MeetsConflict default w conflictRefusal :=
    meetsConflict_readyModel _
  have hwritten : (readyModel.reconcile default w).written = some _ :=
    Model.controller.finish_written default _ rfl
  exact ⟨rfl, hmeets, _, hwritten, hmeets.blamed hwritten⟩

end ModelOperator
