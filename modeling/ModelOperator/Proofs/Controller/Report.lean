import ModelOperator.Controller.Report
import ModelOperator.Proofs.Controller.Pass
import ModelOperator.Proofs.Resource.Conditions

/-!
# What a finished pass leaves

    The two controllers finish their passes alike.  The stamp of a status sets one condition,
    that of how the body ended, and leaves those of other types alone
    (`Controller.get?_stamped`).  The report is the body's with that one write behind it
    (`Controller.finish_calls`); and what was written is the stamped status, if the write
    succeeded (`Controller.of_finish_written`).

    So whatever holds of a resource through the body holds of what is written, as far as the
    stamp keeps it (`Controller.written_of_preserves`). -/

namespace ModelOperator

namespace Condition

variable {ε : Type} (now : Instant) (message : ε → String) (outcome : Except ε Action)

/-- How the body ended is told under one type. -/
@[simp] theorem type_ofOutcome : (ofOutcome now message outcome).type = syncedType := by
  cases outcome <;> rfl

/-- How the body ended is told as of now. -/
@[simp] theorem since_ofOutcome : (ofOutcome now message outcome).since = now := by
  cases outcome <;> rfl

/-- How the body ended says nothing of readiness. -/
theorem ready_ne_synced : readyType ≠ syncedType := by decide

end Condition

namespace Controller

variable {ρ σ κ ε : Type} (c : Controller ρ σ κ ε) (now : Instant)

section Stamp

variable (r : ρ) (outcome : Except ε Action)

/-- The stamp sets one condition. -/
theorem conditions_stamped :
    c.conditions (c.statusOrEmpty (c.stamped now r outcome)) =
      (c.conditions (c.statusOrEmpty r)).set (ConditionSet.stamped (c.metadata r).generation
        [.ofOutcome now c.message outcome]) := by
  rw [stamped, c.conditions_setConditions, c.statusOrEmpty_withStatus, c.metadata_withStatus,
    c.conditions_observed]

/-- The stamp says which generation the pass has seen. -/
theorem generation_stamped :
    c.generation (c.statusOrEmpty (c.stamped now r outcome)) = (c.metadata r).generation := by
  rw [stamped, c.generation_setConditions, c.statusOrEmpty_withStatus, c.generation_observed]

/-- The stamp leaves the conditions of other types alone. -/
theorem get?_stamped {type : String} (h : type ≠ Condition.syncedType) :
    (c.conditions (c.statusOrEmpty (c.stamped now r outcome))).get? type =
      (c.conditions (c.statusOrEmpty r)).get? type := by
  rw [conditions_stamped]
  refine ConditionSet.get?_set_of_ne _ ?_
  simpa using h

/-- The stamp leaves what is said about readiness alone. -/
theorem has_stamped {x : Condition} (hx : x.type = Condition.readyType) :
    (c.conditions (c.statusOrEmpty (c.stamped now r outcome))).has x =
      (c.conditions (c.statusOrEmpty r)).has x := by
  rw [ConditionSet.has, ConditionSet.has, hx, get?_stamped c now r outcome
    Condition.ready_ne_synced]

/-- The stamp repeats no type. -/
theorem unique_stamped (h : (c.conditions (c.statusOrEmpty r)).Unique) :
    (c.conditions (c.statusOrEmpty (c.stamped now r outcome))).Unique := by
  rw [conditions_stamped]
  exact h.set _

end Stamp

section Finish

variable {write : Except ClusterError Unit} (played : Except ε Action × Progress ρ κ)

/-- The resource as a pass leaves it, before the write. -/
def final : ρ := c.stamped now played.2.resource played.1

/-- A pass makes the calls of its body and then writes the status. -/
theorem finish_calls : (c.finish now write played).calls =
    played.2.calls ++ [c.patch (c.statusOrEmpty (c.final now played))] := rfl

/-- A write that succeeds writes the status with its stamp. -/
theorem finish_written (h : write = .ok ()) : (c.finish now write played).written =
    some (c.statusOrEmpty (c.final now played)) := by
  subst h
  rfl

/-- A write that fails writes nothing. -/
theorem finish_unwritten {e : ClusterError} (h : write = .error e) :
    (c.finish now write played).written = none := by
  subst h
  rfl

/-- What is written is the status with its stamp, and the write succeeded. -/
theorem of_finish_written {s : σ} (h : (c.finish now write played).written = some s) :
    write = .ok () ∧ s = c.statusOrEmpty (c.final now played) := by
  cases hw : write with
  | error e => cases (c.finish_unwritten now played hw).symm.trans h
  | ok _ => exact ⟨rfl, Option.some_inj.mp (h.symm.trans (c.finish_written now played hw))⟩

/-- What holds of a resource through the body holds of the written status, if the stamp makes
    it so. -/
theorem written_of_preserves {P : ρ → Prop} {Q : σ → Prop} {body : Pass ρ κ ε Action} {r : ρ}
    {s : σ} (hbody : Pass.Preserves P body) (hr : P r)
    (hstamp : ∀ left outcome, P left → Q (c.statusOrEmpty (c.stamped now left outcome)))
    (h : (c.finish now write (body.runOn r)).written = some s) : Q s := by
  obtain ⟨-, rfl⟩ := c.of_finish_written now _ h
  exact hstamp _ _ (hbody { resource := r } hr)

end Finish

end Controller

end ModelOperator
