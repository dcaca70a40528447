import ModelOperator.Resource.Metadata
import ModelOperator.Resource.Naming

/-!
# Events

    An event tells the users of an object what happened to it, and whether that is good
    or bad news.  It names the object by a reference. -/

namespace ModelOperator

/-- Whether an event is good or bad news. -/
inductive EventType where
  | normal
  | warning
  deriving DecidableEq, Repr

/-- The word of an event's type. -/
def EventType.text : EventType → String
  | normal => "Normal"
  | warning => "Warning"

/-- Something that happened to an object. -/
structure Event where
  type : EventType
  reason : String
  action : String
  note : Option String
  deriving DecidableEq, Repr

/-- The reference by which an event names a resource of the operator. -/
def objectReference (kind : String) (m : Metadata) : Json :=
  .ofPresent [("apiVersion", some (.str Naming.apiVersion)), ("kind", some (.str kind)),
    ("name", m.name?.map .str), ("namespace", m.namespace?.map .str), ("uid", m.uid?.map .str)]

end ModelOperator
