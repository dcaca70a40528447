import ModelOperator.Cluster.Shapes.Meta

/-!
# Object metadata

    The metadata of an object is kept as the cluster writes it; the parts that the
    operator looks at are read out of it. -/

namespace ModelOperator

/-- The metadata of an object, in written form. -/
structure Metadata where
  members : Members := []

namespace Metadata

/-- Reads metadata. -/
def read : Reader Metadata := fun v => do
  let written ← Shape.normalize Shape.objectMeta v
  let members ← Reader.members written
  .ok ⟨members⟩

/-- What is looked at of metadata. -/
def extent : Extent := Shape.objectMeta.extent

/-- The wire form. -/
def toJson (m : Metadata) : Json := .obj m.members

/-- A text among the metadata. -/
def text? (m : Metadata) (name : String) : Option String :=
  (Members.get? name m.members).bind Json.asText?

/-- The name of the object. -/
def name? (m : Metadata) : Option String := m.text? "name"

/-- The namespace of the object. -/
def namespace? (m : Metadata) : Option String := m.text? "namespace"

/-- The identity of the object. -/
def uid? (m : Metadata) : Option String := m.text? "uid"

/-- The version of the object as it was read. -/
def resourceVersion? (m : Metadata) : Option String := m.text? "resourceVersion"

/-- The generation of the specification, 0 when it is not set. -/
def generation (m : Metadata) : Int :=
  ((Members.get? "generation" m.members).bind Json.asInt?).getD 0

/-- The name of the object, or the name it is to be generated from, or nothing. -/
def nameAny (m : Metadata) : String := (m.name? <|> m.text? "generateName").getD ""

end Metadata

end ModelOperator
