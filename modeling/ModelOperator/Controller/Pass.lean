import ModelOperator.Cluster.Event

/-!
# Passes of a controller

    A controller works on a resource in passes.  A pass makes calls, publishes events,
    changes the resource's status and ends with an action or an error.  Everything it
    does is kept, also what came before an error.

    * `Pass.call` records a call and gives its outcome;
    * `Pass.publish` records an event;
    * `Pass.update` changes the resource. -/

namespace ModelOperator

/-- When a resource is looked at again: on its next change, or after some milliseconds. -/
inductive Action where
  | awaitChange
  | requeue (millis : Nat)
  deriving DecidableEq, Repr

namespace Action

/-- At once. -/
def immediately : Action := .requeue 0

/-- After a conflict with another writer. -/
def afterConflict : Action := .requeue 1000

/-- After an error. -/
def afterError : Action := .requeue 30000

end Action

/-- What a pass has done so far. -/
structure Progress (σ κ : Type) where
  resource : σ
  calls : List κ := []
  events : List Event := []

/-- A pass over a resource `σ` that makes calls `κ` and may end with an error `ε`. -/
abbrev Pass (σ κ ε α : Type) := ExceptT ε (StateM (Progress σ κ)) α

namespace Pass

variable {σ κ ε α : Type}

/-- Makes a call whose outcome is known. -/
def call (c : κ) (outcome : α) : Pass σ κ ε α := do
  modify fun p => { p with calls := p.calls ++ [c] }
  return outcome

/-- Publishes an event. -/
def publish (e : Event) : Pass σ κ ε Unit :=
  modify fun p => { p with events := p.events ++ [e] }

/-- Changes the resource. -/
def update (f : σ → σ) : Pass σ κ ε Unit :=
  modify fun p => { p with resource := f p.resource }

/-- The resource as it is now. -/
def resource : Pass σ κ ε σ := do return (← get).resource

/-- Runs a pass on a resource. -/
def runOn (p : Pass σ κ ε α) (resource : σ) : Except ε α × Progress σ κ :=
  (ExceptT.run p).run { resource := resource }

end Pass

end ModelOperator
