import ModelOperator.Json.Raw
import ModelOperator.Json.Record

/-!
# What a reader looks at

    A type has an extent: the parts of a document that its reader looks at.  Only these
    need to have a value.  The members of a record are known by name; the value of a
    member that is not known is passed over as it is written.

    * `Extent.decode` is the part of a raw document that an extent takes in;
    * `Decoder` is a reader with its extent, and `Decoder.ofText?` and `Decoder.ofBytes?`
      read a type from a text. -/

namespace ModelOperator

/-- The parts of a document that a reader looks at. -/
inductive Extent where
  /-- All of it; of members with one name the last counts. -/
  | whole
  /-- A part of each item of a list. -/
  | items (item : Extent)
  /-- A part of the value of each member, whatever its name. -/
  | values (value : Extent)
  /-- The members of a record, in their declared order.  One given twice stands twice. -/
  | record (members : List (String × Extent))
  /-- The members of an object.  Of one given twice the last counts. -/
  | object (members : List (String × Extent))

namespace Extent

/-- A record of members that are looked at as a whole. -/
def plain (names : List String) : Extent := .record (names.map fun name => (name, .whole))

/-- What is looked at of the member with a name; none for one that is passed over. -/
def member? (name : String) : Extent → Option Extent
  | .whole => some .whole
  | .items _ => some .whole
  | .values value => some value
  | .record members => members.lookup name
  | .object members => members.lookup name

/-- What is looked at of the item at a place; none where a record has no more members. -/
def item? (place : Nat) : Extent → Option Extent
  | .items item => some item
  | .record members => members[place]?.map (·.2)
  | _ => some .whole

/-- The object of the members that are looked at. -/
def gather : Extent → Members → Json
  | .record _, members => .obj members
  | _, members => .ofMembers members

mutual
/-- The part of a document that is looked at, if all of it has a value.  `depth` counts the
    containers that may still open; those that are passed over count nothing. -/
def decode : Nat → Extent → Raw → Option Json
  | _, _, .leaf value => value
  | depth, e, .arr raws =>
    if depth ≤ 1 then none else (decodeItems (depth - 1) e 0 raws).map .arr
  | depth, e, .obj members =>
    if depth ≤ 1 then none else (decodeMembers (depth - 1) e members).map e.gather

/-- `decode` of the items from a place on. -/
def decodeItems : Nat → Extent → Nat → List Raw → Option (List Json)
  | _, _, _, [] => some []
  | depth, e, place, raw :: rest =>
    match e.item? place with
    | none => none
    | some item =>
      match decode depth item raw with
      | none => none
      | some v => (decodeItems depth e (place + 1) rest).map fun more => v :: more

/-- `decode` of the members; each name has to be a text. -/
def decodeMembers : Nat → Extent → List (Option String × Raw) → Option Members
  | _, _, [] => some []
  | _, _, (none, _) :: _ => none
  | depth, e, (some name, raw) :: rest =>
    match e.member? name with
    | none => decodeMembers depth e rest
    | some part =>
      match decode depth part raw with
      | none => none
      | some v => (decodeMembers depth e rest).map fun more => (name, v) :: more
end

/-- What is looked at of the document in a text. -/
def ofText? (e : Extent) (text : String) : Option Json :=
  (Raw.ofText? text).bind (e.decode Json.maxDepth)

/-- What is looked at of the document in some bytes. -/
def ofBytes? (e : Extent) (bytes : List UInt8) : Option Json :=
  (Raw.ofBytes? bytes).bind (e.decode Json.maxDepth)

end Extent

/-- How a type is read from a text: what is looked at, and the reader of that. -/
structure Decoder (α : Type) where
  extent : Extent
  read : Reader α

namespace Decoder

variable {α : Type}

/-- Reads a text. -/
def ofText? (d : Decoder α) (text : String) : Option α :=
  (d.extent.ofText? text).bind fun v => (d.read v).toOption

/-- Reads bytes. -/
def ofBytes? (d : Decoder α) (bytes : List UInt8) : Option α :=
  (d.extent.ofBytes? bytes).bind fun v => (d.read v).toOption

end Decoder

end ModelOperator
