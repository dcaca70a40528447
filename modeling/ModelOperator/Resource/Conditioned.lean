import ModelOperator.Resource.ConditionSet
import ModelOperator.Resource.Metadata
import ModelOperator.Resource.Naming

/-!
# Resources with conditions

    A resource has metadata, says what is asked for, and has a status once one was written.
    The status holds conditions.  How conditions are looked up and set, and how a resource is
    read and written, is the same for every kind of resource.

    * `Conditioned` tells where a kind of resource has its conditions, and that what is put
      there is found there;
    * `Conditioned.setConditions` sets some for the generation of the resource;
    * `readResource` and `resourceJson` are the wire form, with those of the parts given. -/

namespace ModelOperator

/-- Where resources `ρ` have their conditions: in a status `σ`, which is empty at first and
    also says which generation was seen last. -/
structure Conditioned (ρ σ : Type) where
  metadata : ρ → Metadata
  status : ρ → Option σ
  withStatus : ρ → σ → ρ
  empty : σ
  generation : σ → Int
  conditions : σ → ConditionSet
  withConditions : σ → ConditionSet → σ
  metadata_withStatus : ∀ r s, metadata (withStatus r s) = metadata r := by intros; rfl
  status_withStatus : ∀ r s, status (withStatus r s) = some s := by intros; rfl
  conditions_empty : conditions empty = {} := by rfl
  conditions_withConditions : ∀ s cs, conditions (withConditions s cs) = cs := by intros; rfl
  generation_withConditions : ∀ s cs, generation (withConditions s cs) = generation s := by
    intros; rfl

namespace Conditioned

variable {ρ σ : Type} (k : Conditioned ρ σ) (r : ρ)

/-- The status, empty when there is none yet. -/
def statusOrEmpty : σ := (k.status r).getD k.empty

/-- The conditions, if there is a status. -/
def conditions? : Option ConditionSet := (k.status r).map k.conditions

/-- The condition of a type. -/
def condition? (type : String) : Option Condition := (k.conditions? r).bind (·.get? type)

/-- Whether a condition is the stored one of its type, but for time and generation. -/
def hasCondition (c : Condition) : Bool :=
  match k.condition? r c.type with
  | some stored => stored.equivalent c
  | none => false

/-- The resource with conditions set for its generation. -/
def setConditions (conditions : List Condition) : ρ :=
  let stamped := ConditionSet.stamped (k.metadata r).generation conditions
  let status := k.statusOrEmpty r
  k.withStatus r (k.withConditions status ((k.conditions status).set stamped))

/-- Whether the resource says exactly that its last pass ended well and that it can be used. -/
def isSyncedAndReady : Bool :=
  match k.conditions? r with
  | some conditions => conditions.isSyncedAndReady
  | none => false

end Conditioned

section Wire

variable {α σ ρ : Type}

/-- Reads a resource from its parts; its version and kind are not looked at. -/
def readResource (kind : String) (spec : Reader α) (status : Reader σ)
    (make : Metadata → α → Option σ → ρ) : Reader ρ := fun v => do
  let r ← Record.of kind 3 v
  let metadata ← r.required 0 "metadata" Metadata.read
  let spec ← r.required 1 "spec" spec
  let status ← r.positional 2 "status" status
  .ok (make metadata spec status)

/-- What is looked at of a resource. -/
def resourceExtent (spec status : Extent) : Extent :=
  .record [("metadata", Metadata.extent), ("spec", spec), ("status", status)]

/-- The wire form of a resource, from that of its parts. -/
def resourceJson (kind : String) (metadata : Metadata) (spec : Json)
    (status : Option Json) : Json :=
  .ofPresent [("apiVersion", some (.str Naming.apiVersion)), ("kind", some (.str kind)),
    ("metadata", some metadata.toJson), ("spec", some spec), ("status", status)]

end Wire

end ModelOperator
