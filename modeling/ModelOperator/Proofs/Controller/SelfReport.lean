import ModelOperator.Proofs.Controller.ModelExit
import ModelOperator.Proofs.Controller.PromptExit

/-!
# What every pass says of itself

    Whatever stops the body of a pass, the pass still writes the status, once and after
    everything else, and the status tells how the body ended (`Stamps`).  The pass comes to
    what its body came to; if the write fails it comes to an error that joins both, and if
    anything in that error is a conflict it only asks to be run again soon (`Concludes`).

    Both controllers follow this rule, each with its own errors (`passes_self_reported`). -/

namespace ModelOperator

/-- Whether a condition is of another type than the two that a pass reports. -/
def Condition.isForeign (c : Condition) : Bool := c.type != syncedType && c.type != readyType

theorem Condition.isForeign_of_synced {c : Condition} (h : c.type = syncedType) :
    c.isForeign = false := by
  rw [isForeign, h]
  rfl

theorem Condition.isForeign_of_ready {c : Condition} (h : c.type = readyType) :
    c.isForeign = false := by
  rw [isForeign, h]
  rfl

namespace ConditionSet

/-- The conditions of other types than the two that a pass reports. -/
def foreign (s : ConditionSet) : List Condition := s.items.filter Condition.isForeign

theorem foreign_set_of_synced (s : ConditionSet) {new : Condition}
    (h : new.type = Condition.syncedType) : (s.set [new]).foreign = s.foreign :=
  filter_put_of_false (fun _ hc => Condition.isForeign_of_synced (hc.trans h)) s.items

theorem foreign_set_of_ready (s : ConditionSet) {new : Condition}
    (h : new.type = Condition.readyType) : (s.set [new]).foreign = s.foreign :=
  filter_put_of_false (fun _ hc => Condition.isForeign_of_ready (hc.trans h)) s.items

end ConditionSet

/-! ## The rule -/

section Rule

variable {ε : Type}

/-- A conflict with another writer is no error but a reason to try again after a second. -/
def forgivingConflicts (isConflict : ε → Bool) : Except ε Action → Except ε Action
  | .ok action => .ok action
  | .error e => if isConflict e then .ok (.requeue 1000) else .error e

/-- What a status says of the pass that wrote it: which generation it has seen, and in the
    `Synced` condition how its body ended.  The conditions that are not about passes are the
    ones that were stored. -/
structure Stamps (message : ε → String) (generation : Int) (stored : ConditionSet)
    (outcome : Except ε Action) (observed : Int) (conditions : ConditionSet) : Prop where
  observed : observed = generation
  synced : ∃ c, conditions.get? Condition.syncedType = some c ∧
    (c.status = .holds ↔ ∃ action, outcome = .ok action) ∧
    ∀ e, outcome = .error e → c.status = .fails ∧ c.message = message e
  foreign : conditions.foreign = stored.foreign

/-- What a pass comes to, by the outcomes of its body and of the write of the status. -/
structure Concludes (isConflict : ε → Bool) (persist : Option ε → ClusterError → ε)
    (outcome : Except ε Action) (write : Except ClusterError Unit)
    (result : Except ε Action) : Prop where
  written : write = .ok () → result = forgivingConflicts isConflict outcome
  unwritten : ∀ source action, write = .error source → outcome = .ok action →
    result = forgivingConflicts isConflict (.error (persist none source))
  bothFailed : ∀ source e, write = .error source → outcome = .error e →
    result = forgivingConflicts isConflict (.error (persist (some e) source))

/-- The condition that a pass sets last, for a generation. -/
def outcomeCondition (now : Instant) (message : ε → String) (generation : Int)
    (outcome : Except ε Action) : Condition :=
  { Condition.ofOutcome now message outcome with generation := generation }

/-- Setting the condition that tells how the body ended stamps the status. -/
theorem stamps_set (now : Instant) (message : ε → String) (generation : Int)
    (outcome : Except ε Action) {stored left : ConditionSet}
    (hforeign : left.foreign = stored.foreign) :
    Stamps message generation stored outcome generation
      (left.set [outcomeCondition now message generation outcome]) := by
  have htype : (outcomeCondition now message generation outcome).type =
      Condition.syncedType := Condition.type_ofOutcome now message outcome
  refine ⟨rfl, ?_, (left.foreign_set_of_synced htype).trans hforeign⟩
  -- the stored condition may be an older one, but it says the same
  obtain ⟨c, hstored, hsame⟩ := left.get?_set_self
    (outcomeCondition now message generation outcome)
  obtain ⟨-, hstatus, -, hmessage⟩ := (Condition.equivalent_iff c _).mp hsame
  rw [htype] at hstored
  refine ⟨c, hstored, ?_⟩
  rw [hstatus, hmessage]
  cases outcome with
  | ok action => exact ⟨iff_of_true rfl ⟨action, rfl⟩, nofun⟩
  | error e =>
      refine ⟨iff_of_false nofun nofun, ?_⟩
      rintro e' ⟨⟩
      exact ⟨rfl, rfl⟩

end Rule

namespace Conditioned

variable {ρ σ : Type} (k : Conditioned ρ σ) (r : ρ)

/-- What a body makes of a resource before the status is stamped: the metadata are the same,
    and of the conditions it has set at most the one about readiness. -/
structure SetsReady (left : ρ) : Prop where
  metadata : k.metadata left = k.metadata r
  conditions : ∃ ready : Option Condition,
    (∀ c ∈ ready, c.type = Condition.readyType ∧ c.generation = (k.metadata r).generation) ∧
    k.conditions (k.statusOrEmpty left) = (k.conditions (k.statusOrEmpty r)).set ready.toList

/-- A body may set nothing. -/
theorem setsReady_self : k.SetsReady r r := ⟨rfl, none, nofun, rfl⟩

/-- A body may set the condition about readiness. -/
theorem setsReady_setConditions {c : Condition} (hc : c.type = Condition.readyType) :
    k.SetsReady r (k.setConditions r [c]) := by
  refine ⟨k.metadata_setConditions r [c],
    some { c with generation := (k.metadata r).generation }, ?_, k.conditions_setConditions r [c]⟩
  rintro _ ⟨⟩
  exact ⟨hc, rfl⟩

variable {k r}

/-- The conditions that are not about passes are the ones that were stored. -/
theorem SetsReady.foreign {left : ρ} (h : k.SetsReady r left) :
    (k.conditions (k.statusOrEmpty left)).foreign =
      (k.conditions (k.statusOrEmpty r)).foreign := by
  obtain ⟨ready, hready, hleft⟩ := h.conditions
  rw [hleft]
  cases ready with
  | none => rfl
  | some c => exact ConditionSet.foreign_set_of_ready _ (hready c rfl).1

end Conditioned

namespace Controller

variable {ρ σ κ ε : Type} (c : Controller ρ σ κ ε) (now : Instant)

/-- **Self-report.**  The last call of a pass over a resource, and no other, writes the status,
    which says how the body ended; and the pass comes to what the body and that write came to. -/
structure SelfReported (isWrite : κ → Bool) (write : Except ClusterError Unit) (r : ρ)
    (outcome : Except ε Action) (report : Report κ σ ε) : Prop where
  writesLast : ∃ before status,
    report.calls = before ++ [c.patch status] ∧
    (∀ call ∈ before, isWrite call = false) ∧
    (write = .ok () → report.written = some status) ∧
    Stamps c.message (c.metadata r).generation (c.conditions (c.statusOrEmpty r)) outcome
      (c.generation status) (c.conditions status)
  concludes : Concludes c.isConflict c.persist outcome write report.result

variable {c now}

/-- The stamp of a resource tells how the body ended. -/
theorem stamps_stamped {r left : ρ} (h : c.SetsReady r left) (outcome : Except ε Action) :
    Stamps c.message (c.metadata r).generation (c.conditions (c.statusOrEmpty r)) outcome
      (c.generation (c.statusOrEmpty (c.stamped now left outcome)))
      (c.conditions (c.statusOrEmpty (c.stamped now left outcome))) := by
  rw [c.generation_stamped, c.conditions_stamped, h.metadata]
  exact stamps_set now c.message _ outcome h.foreign

/-- What a pass comes to follows the rule. -/
theorem concludes (outcome : Except ε Action) (write : Except ClusterError Unit) :
    Concludes c.isConflict c.persist outcome write (c.conclude outcome write) := by
  constructor
  · rintro rfl
    cases outcome <;> rfl
  · rintro source action rfl rfl
    rfl
  · rintro source e rfl rfl
    rfl

/-- A pass whose body writes no status and sets at most readiness reports itself. -/
theorem selfReported_finish {isWrite : κ → Bool} {write : Except ClusterError Unit} {r : ρ}
    {played : Except ε Action × Progress ρ κ} (hquiet : ∀ k ∈ played.2.calls, isWrite k = false)
    (hsets : c.SetsReady r played.2.resource) :
    c.SelfReported isWrite write r played.1 (c.finish now write played) where
  writesLast := ⟨_, _, c.finish_calls now played, hquiet, c.finish_written now played,
    stamps_stamped hsets played.1⟩
  concludes := concludes played.1 write

end Controller

/-! ## A pass over a model -/

namespace Model

variable {now : Instant} {w : ModelWorld} {m : Model}

/-- However the body ends, it has changed nothing but its own condition and the details. -/
theorem Exit.setsReady {calls : List ModelCall} {left : Model}
    {outcome : Except ModelError Action} (h : Exit now w m calls left outcome) :
    conditioned.SetsReady m left := by
  cases h with
  | unnamespaced | unrendered | statefulSetRefused | serviceRefused | unread | unlisted
  | pullFailed => exact conditioned.setsReady_self m
  | absent | unfollowed | rolling | announced | pullUnfinished | notShown =>
      exact conditioned.setsReady_setConditions m rfl
  | shown =>
      -- the details come between, but they are no condition
      exact ⟨rfl, (conditioned.setsReady_setConditions _ rfl).conditions⟩

/-- A pass over a model reports itself. -/
def SelfReported (now : Instant) (w : ModelWorld) (m : Model) : Prop :=
  controller.SelfReported ModelCall.isWrite w.patchStatus m ((body now w m).runOn m).1
    (reconcile now w m)

theorem selfReported (now : Instant) (w : ModelWorld) (m : Model) : SelfReported now w m :=
  have hexit := exit_body now w m
  Controller.selfReported_finish hexit.ordered.unwritten hexit.setsReady

end Model

/-! ## A pass over a prompt -/

/-- Whether a call writes the status. -/
def PromptCall.isWrite : PromptCall → Bool
  | .patchStatus _ => true
  | _ => false

namespace Prompt

variable {now : Instant} {w : PromptWorld} {p : Prompt}

/-- However the body ends, it has changed nothing but its own condition and the answer. -/
theorem Exit.setsReady {calls : List PromptCall} {left : Prompt}
    {outcome : Except PromptError Action} (h : Exit now w p calls left outcome) :
    conditioned.SetsReady p left := by
  cases h with
  | unnamespaced | unread | incomplete | refused => exact conditioned.setsReady_self p
  | missing | unready | announced => exact conditioned.setsReady_setConditions p rfl
  | answered =>
      -- the answer comes between, but it is no condition
      exact ⟨rfl, (conditioned.setsReady_setConditions _ rfl).conditions⟩

/-- None of the calls of a body writes the status. -/
theorem Exit.unwritten {calls : List PromptCall} {left : Prompt}
    {outcome : Except PromptError Action} (h : Exit now w p calls left outcome) :
    ∀ c ∈ calls, c.isWrite = false := by
  have hlookup : ∀ c : PromptCall, c.IsLookup → c.isWrite = false := by
    rintro c ⟨store, rfl⟩
    rfl
  cases h with
  | unnamespaced => exact List.forall_mem_nil _
  | unread | missing | unready | announced => simp [modelLookup, PromptCall.isWrite]
  | incomplete _ _ hlookups =>
      simp only [List.cons_append, List.nil_append, List.forall_mem_cons]
      exact ⟨rfl, fun c hc => hlookup c (hlookups c hc)⟩
  | refused _ _ hlookups | answered _ _ hlookups =>
      simp only [asking, List.cons_append, List.nil_append, List.forall_mem_cons,
        List.forall_mem_append]
      exact ⟨rfl, fun c hc => hlookup c (hlookups c hc), rfl, rfl, List.forall_mem_nil _⟩

/-- A pass over a prompt reports itself. -/
def SelfReported (now : Instant) (w : PromptWorld) (p : Prompt) : Prop :=
  controller.SelfReported PromptCall.isWrite w.patchStatus p ((body now w p).runOn p).1
    (reconcile now w p)

theorem selfReported_of_unanswered (now : Instant) (w : PromptWorld) {p : Prompt}
    (h : p.response? = none) : SelfReported now w p := by
  have hexit := exit_body now w p
  rw [SelfReported, reconcile_unanswered now w ((response?_eq_none_iff p).mp h)]
  exact Controller.selfReported_finish hexit.unwritten hexit.setsReady

end Prompt

/-- **Every pass reports itself.**  Whatever its calls come to, every pass over a model and
    every pass over a prompt without an answer writes the status once, after all else, with
    what its body came to, and passes that on. -/
theorem passes_self_reported (now : Instant) :
    (∀ (w : ModelWorld) (m : Model), m.SelfReported now w) ∧
      ∀ (w : PromptWorld) (p : Prompt), p.response? = none → p.SelfReported now w :=
  ⟨Model.selfReported now, fun w _ => Prompt.selfReported_of_unanswered now w⟩

/-- The refusal of a write because another writer came first. -/
def conflictRefusal : ClusterError :=
  .call (.api ⟨"Failure", "the object has been modified", "Conflict", 409⟩)

/-- A pass over a prompt whose status meets that of another writer reports itself, and asks
    to be run again after a second. -/
theorem contested_pass_self_reported :
    let t := turnWithReply "Blue.\n"
    let w := { t.world with patchStatus := .error conflictRefusal }
    (t.prompt none).response? = none ∧ (t.prompt none).SelfReported t.now w ∧
      ((t.prompt none).reconcile t.now w).result = .ok (.requeue 1000) :=
  ⟨rfl, (passes_self_reported _).2 _ _ rfl, rfl⟩

end ModelOperator
