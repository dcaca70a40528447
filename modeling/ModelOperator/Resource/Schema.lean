import ModelOperator.Json.Record

/-!
# Schemas of resources

    A schema tells the cluster which documents to admit and tells its users what each
    member means.  Schemas are built from few forms; `Schema.record` writes the members
    in the order of their names and names those that are required. -/

namespace ModelOperator

/-- A schema, in written form. -/
structure Schema where
  members : List (String × Json)

/-- A member of a record, with whether it must be given. -/
structure SchemaField where
  name : String
  isRequired : Bool
  schema : Schema

namespace Schema

/-- The written form. -/
def toJson (s : Schema) : Json := .ofMembers s.members

/-- A schema of a type, with what it means. -/
def ofType (type note : String) : Schema := ⟨[("type", .str type), ("description", .str note)]⟩

/-- A schema with one more property. -/
def plus (s : Schema) (name : String) (value : Json) : Schema := ⟨s.members ++ [(name, value)]⟩

/-- A text. -/
def text (note : String) : Schema := ofType "string" note

/-- A text without a note. -/
def bareText : Schema := ⟨[("type", .str "string")]⟩

/-- One of several words. -/
def word (note : String) (words : List String) : Schema :=
  (text note).plus "enum" (.arr (words.map .str))

/-- A time. -/
def time (note : String) : Schema := (text note).plus "format" (.str "date-time")

/-- A whole number of 64 bits. -/
def int64 (note : String) : Schema := (ofType "integer" note).plus "format" (.str "int64")

/-- Any value, kept as it is. -/
def anything (note : String) : Schema :=
  ⟨[("description", .str note), ("x-kubernetes-preserve-unknown-fields", .bool true)]⟩

/-- Any object, kept as it is. -/
def anyObject (note : String) : Schema :=
  (ofType "object" note).plus "x-kubernetes-preserve-unknown-fields" (.bool true)

/-- A list. -/
def list (note : String) (item : Schema) : Schema :=
  (ofType "array" note).plus "items" item.toJson

/-- An object with known members. -/
def record (note : String) (fields : List SchemaField) : Schema :=
  let base := (ofType "object" note).plus "properties"
    (.ofMembers (fields.map fun f => (f.name, f.schema.toJson)))
  let names := (fields.filter SchemaField.isRequired).map SchemaField.name
  if names.isEmpty then base else base.plus "required" (.arr (names.map .str))

/-- A value that may also be null. -/
def nullable (s : Schema) : Schema := s.plus "nullable" (.bool true)

/-- A value with a default. -/
def defaultsTo (s : Schema) (value : Json) : Schema := s.plus "default" value

/-- A member that must be given. -/
def must (name : String) (s : Schema) : SchemaField := ⟨name, true, s⟩

/-- A member that may be left out. -/
def may (name : String) (s : Schema) : SchemaField := ⟨name, false, s⟩

end Schema

end ModelOperator
