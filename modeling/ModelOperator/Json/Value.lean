import ModelOperator.Number.Decimal

/-!
# JSON values

    A value keeps whole numbers and doubles apart, and an object lists its members in
    increasing order of their names, each name once.  `Json.canonical` brings any value
    into that form; the operations on members below keep it.

    * `Members.get?`, `Members.insert` and `Members.erase` read and change one member;
    * `Json.same` is equality of values, with the two zeros among the doubles equal;
    * `Json.isCanonical` says that names increase in every object. -/

namespace ModelOperator

/-- A JSON value. -/
inductive Json where
  | null
  | bool (value : Bool)
  | int (value : Int)
  | float (value : Binary64)
  | str (text : String)
  | arr (items : List Json)
  | obj (members : List (String × Json))
  deriving Repr, Inhabited

/-- The members of an object. -/
abbrev Members := List (String × Json)

namespace Members

/-- The value of a member. -/
def get? (name : String) : Members → Option Json
  | [] => none
  | (k, v) :: rest => if k = name then some v else get? name rest

/-- Whether there is such a member. -/
def has (name : String) (members : Members) : Bool := (get? name members).isSome

/-- Sets a member, at its place in the order of names. -/
def insert (name : String) (value : Json) : Members → Members
  | [] => [(name, value)]
  | (k, v) :: rest =>
    if k = name then (name, value) :: rest
    else if name < k then (name, value) :: (k, v) :: rest
    else (k, v) :: insert name value rest

/-- Removes a member. -/
def erase (name : String) : Members → Members
  | [] => []
  | (k, v) :: rest => if k = name then rest else (k, v) :: erase name rest

/-- The members given, in the order of their names; the last of a name wins. -/
def ofList (entries : List (String × Json)) : Members :=
  entries.foldl (fun acc entry => insert entry.1 entry.2 acc) []

/-- Names increase from each member to the next. -/
def increasing : Members → Bool
  | [] => true
  | [_] => true
  | (k, _) :: (l, w) :: rest => decide (k < l) && increasing ((l, w) :: rest)

end Members

namespace Json

/-- An object with the given members, whatever their order. -/
def ofMembers (entries : List (String × Json)) : Json := .obj (Members.ofList entries)

/-- A member of an object. -/
def get? (name : String) : Json → Option Json
  | .obj members => Members.get? name members
  | _ => none

/-- The text, when the value is one. -/
def asText? : Json → Option String
  | .str s => some s
  | _ => none

/-- The whole number, when the value is one. -/
def asInt? : Json → Option Int
  | .int n => some n
  | _ => none

/-- The items, when the value is a list. -/
def asItems? : Json → Option (List Json)
  | .arr items => some items
  | _ => none

/-- The members, when the value is an object. -/
def asMembers? : Json → Option Members
  | .obj members => some members
  | _ => none

/-- A value, or null where there is none. -/
def orNull : Option Json → Json
  | some v => v
  | none => .null

/-- A text or null. -/
def ofText? : Option String → Json
  | some s => .str s
  | none => .null

/-- Whether the value is null. -/
def isNull : Json → Bool
  | .null => true
  | _ => false

/-- Whether the value is an object. -/
def isObject : Json → Bool
  | .obj _ => true
  | _ => false

/-- The word for the kind of a value. -/
def kind : Json → String
  | .null => "null"
  | .bool _ => "boolean"
  | .int _ => "number"
  | .float _ => "number"
  | .str _ => "string"
  | .arr _ => "array"
  | .obj _ => "object"

mutual
/-- Equality of values; a whole number never equals a double. -/
def same : Json → Json → Bool
  | .null, .null => true
  | .bool a, .bool b => a == b
  | .int a, .int b => a == b
  | .float a, .float b => a.same b
  | .str a, .str b => a == b
  | .arr a, .arr b => sameItems a b
  | .obj a, .obj b => sameMembers a b
  | _, _ => false

/-- Equality of lists, item by item. -/
def sameItems : List Json → List Json → Bool
  | [], [] => true
  | a :: as, b :: bs => same a b && sameItems as bs
  | _, _ => false

/-- Equality of members, in order. -/
def sameMembers : Members → Members → Bool
  | [], [] => true
  | (k, a) :: as, (l, b) :: bs => k == l && same a b && sameMembers as bs
  | _, _ => false
end

mutual
/-- The value with every object in the order of names, the last of equal names kept. -/
def canonical : Json → Json
  | .arr items => .arr (canonicalItems items)
  | .obj members => .obj (Members.ofList (canonicalMembers members))
  | v => v

/-- `canonical` of each item. -/
def canonicalItems : List Json → List Json
  | [] => []
  | v :: rest => canonical v :: canonicalItems rest

/-- `canonical` of each member's value. -/
def canonicalMembers : Members → Members
  | [] => []
  | (k, v) :: rest => (k, canonical v) :: canonicalMembers rest
end

mutual
/-- Names increase in every object of the value. -/
def isCanonical : Json → Bool
  | .arr items => areCanonical items
  | .obj members => Members.increasing members && valuesCanonical members
  | _ => true

/-- `isCanonical` of each item. -/
def areCanonical : List Json → Bool
  | [] => true
  | v :: rest => isCanonical v && areCanonical rest

/-- `isCanonical` of each member's value. -/
def valuesCanonical : Members → Bool
  | [] => true
  | (_, v) :: rest => isCanonical v && valuesCanonical rest
end

end Json

end ModelOperator
