import ModelOperator.Resource.Condition

/-!
# Sets of conditions

    A set keeps its conditions in the order in which their types first came.

    * `ConditionSet.set` puts conditions in: one that says the same as the stored one of
      its type leaves it there, with the larger generation; another takes its place, and
      one of a new type goes to the end;
    * `ConditionSet.equivalent` compares sets but for order, times and generations. -/

namespace ModelOperator

/-- The conditions of a resource. -/
structure ConditionSet where
  items : List Condition := []
  deriving DecidableEq, Repr

namespace ConditionSet

/-- The first condition of a type. -/
def get? (s : ConditionSet) (type : String) : Option Condition :=
  s.items.find? fun c => c.type == type

/-- Puts one condition among others. -/
def put (new : Condition) : List Condition → List Condition
  | [] => [new]
  | c :: rest =>
    if c.type = new.type then
      if c.equivalent new then { c with generation := max c.generation new.generation } :: rest
      else new :: rest
    else c :: put new rest

/-- Puts conditions in, one after the other. -/
def set (s : ConditionSet) (conditions : List Condition) : ConditionSet :=
  ⟨conditions.foldl (fun items c => put c items) s.items⟩

/-- The set of some conditions. -/
def ofList (conditions : List Condition) : ConditionSet := ConditionSet.set ⟨[]⟩ conditions

/-- Whether the stored condition of this type says the same. -/
def has (s : ConditionSet) (c : Condition) : Bool :=
  match s.get? c.type with
  | some stored => stored.equivalent c
  | none => false

/-- Equality but for order, times and generations. -/
def equivalent (a b : ConditionSet) : Bool :=
  a.items.length == b.items.length && a.items.all fun c => b.has c

/-- Whether the set says exactly that the last pass ended well and the resource can be used. -/
def isSyncedAndReady (s : ConditionSet) : Bool :=
  s.equivalent (ofList [Condition.reconcileSuccess default, Condition.available default])

/-- The conditions stamped with a generation. -/
def stamped (generation : Int) (conditions : List Condition) : List Condition :=
  conditions.map fun c => { c with generation := generation }

/-- Reads a set as it stands, repeated types included. -/
def read : Reader ConditionSet := fun v => do
  let items ← Reader.list Condition.read v
  .ok ⟨items⟩

/-- The wire form. -/
def toJson (s : ConditionSet) : Json := .arr (s.items.map Condition.toJson)

end ConditionSet

end ModelOperator
