import ModelOperator.Cluster.Error
import ModelOperator.Controller.Pass
import ModelOperator.Resource.Conditioned

/-!
# How passes end

    However the body of a pass ends, the pass writes the status once, with the `Synced`
    condition telling how it went.  If the write fails too, the pass comes to an error that
    joins both; and an error that comes from another writer only makes it run again soon.

    * `Controller` says what a controller of its own puts into this;
    * `Controller.stamped` is the status that is written, `Controller.conclude` the result;
    * `Controller.finish` makes of a played body what the whole pass did. -/

namespace ModelOperator

/-- What one pass did: its calls `κ` and events in their order, the status `σ` that it wrote,
    and what it came to. -/
structure Report (κ σ ε : Type) where
  calls : List κ
  events : List Event
  written : Option σ
  result : Except ε Action

/-- The condition that tells how a body ended. -/
def Condition.ofOutcome {ε : Type} (now : Instant) (message : ε → String) :
    Except ε Action → Condition
  | .ok _ => .reconcileSuccess now
  | .error e => .reconcileError now (message e)

/-- A controller over resources `ρ` with a status `σ`, whose passes make calls `κ` and fail with
    errors `ε`: which status a pass has `observed`, the call that writes it, what its errors say,
    which of them come from another writer, and what a write that fails makes of them. -/
structure Controller (ρ σ κ ε : Type) extends Conditioned ρ σ where
  observed : ρ → σ
  patch : σ → κ
  message : ε → String
  isConflict : ε → Bool
  persist : Option ε → ClusterError → ε
  conditions_observed : ∀ r, conditions (observed r) =
    conditions (toConditioned.statusOrEmpty r) := by intros; rfl
  generation_observed : ∀ r, generation (observed r) = (metadata r).generation := by intros; rfl

namespace Controller

variable {ρ σ κ ε : Type} (c : Controller ρ σ κ ε)

/-- The resource with the status that the pass writes. -/
def stamped (now : Instant) (r : ρ) (outcome : Except ε Action) : ρ :=
  c.setConditions (c.withStatus r (c.observed r)) [.ofOutcome now c.message outcome]

/-- The result of a pass from that of its body and of the write of the status; a conflict
    is no error but a reason to try again soon. -/
def conclude (outcome : Except ε Action) (write : Except ClusterError Unit) : Except ε Action :=
  let result : Except ε Action :=
    match write, outcome with
    | .ok (), _ => outcome
    | .error source, .ok _ => .error (c.persist none source)
    | .error source, .error e => .error (c.persist (some e) source)
  match result with
  | .error e => if c.isConflict e then .ok .afterConflict else .error e
  | .ok action => .ok action

/-- The rest of a pass once its body is played: the write of the status. -/
def finish (now : Instant) (write : Except ClusterError Unit)
    (played : Except ε Action × Progress ρ κ) : Report κ σ ε :=
  let status := c.statusOrEmpty (c.stamped now played.2.resource played.1)
  { calls := played.2.calls ++ [c.patch status]
    events := played.2.events
    written := match write with
      | .ok () => some status
      | .error _ => none
    result := c.conclude played.1 write }

end Controller

end ModelOperator
