import ModelOperator.Json.Mismatch

/-!
# Reading records

    A record of the wire is an object whose members are found by name, or a list that
    holds the members in their declared order.  `Record.of` recognises both; a reader
    then asks for each member by place and name, and refuses one that is given twice.

    * `required` refuses a member that is missing;
    * `defaulted` takes a default for a missing member, but reads a null like any value;
    * `nullable` takes none for a missing or null member;
    * `positional` is `nullable` for a member that a list may not leave out. -/

namespace ModelOperator

/-- Reading one kind of value. -/
abbrev Reader (α : Type) := Json → Reading α

/-- The members of a record, by name or by place. -/
inductive RecordBody where
  | named (members : Members)
  | listed (items : List Json)

/-- A record with its name and the number of its members. -/
structure Record where
  name : String
  size : Nat
  body : RecordBody

namespace Record

/-- A value as a record. -/
def of (name : String) (size : Nat) : Reader Record
  | .obj members => .ok ⟨name, size, .named members⟩
  | .arr items =>
    if items.length ≤ size then .ok ⟨name, size, .listed items⟩
    else .error (.length items.length "fewer elements in array")
  | v => Mismatch.notA ("struct " ++ name) v

/-- The value of a member, none inside when it is missing; refuses a member that is
    given twice. -/
def find? (r : Record) (place : Nat) (name : String) : Reading (Option Json) :=
  match r.body with
  | .named members =>
    match members.filter fun m => m.1 == name with
    | [] => .ok none
    | [(_, v)] => .ok (some v)
    | _ => .error (.repeated name)
  | .listed items => .ok items[place]?

/-- The refusal of a record that lacks a member. -/
def lacks {α : Type} (r : Record) (place : Nat) (name : String) : Reading α :=
  match r.body with
  | .named _ => .error (.missing name)
  | .listed _ =>
    let noun := if r.size = 1 then " element" else " elements"
    .error (.length place ("struct " ++ r.name ++ " with " ++ toString r.size ++ noun))

/-- A member that must be given. -/
def required {α : Type} (r : Record) (place : Nat) (name : String) (read : Reader α) :
    Reading α :=
  match r.find? place name with
  | .error e => .error e
  | .ok none => r.lacks place name
  | .ok (some v) => read v

/-- A member with a default. -/
def defaulted {α : Type} (r : Record) (place : Nat) (name : String) (read : Reader α) (dflt : α) :
    Reading α :=
  match r.find? place name with
  | .error e => .error e
  | .ok none => .ok dflt
  | .ok (some v) => read v

/-- A value that may be null. -/
def orNull {α : Type} (read : Reader α) : Reader (Option α)
  | .null => .ok none
  | v => (read v).map some

/-- A member that may be null or missing. -/
def nullable {α : Type} (r : Record) (place : Nat) (name : String) (read : Reader α) :
    Reading (Option α) :=
  r.defaulted place name (orNull read) none

/-- A member that may be null, and missing only from an object. -/
def positional {α : Type} (r : Record) (place : Nat) (name : String) (read : Reader α) :
    Reading (Option α) :=
  match r.body with
  | .named _ => r.nullable place name read
  | .listed _ => r.required place name (orNull read)

end Record

namespace Reader

/-- Any value. -/
def any : Reader Json := .ok

/-- A text. -/
def text : Reader String
  | .str s => .ok s
  | v => Mismatch.notA "a string" v

/-- A truth value. -/
def boolean : Reader Bool
  | .bool b => .ok b
  | v => Mismatch.notA "a boolean" v

/-- A whole number between two bounds, of a kind with a name. -/
def within (name : String) (low high : Int) : Reader Int
  | .int n =>
    if low ≤ n ∧ n ≤ high then .ok n else .error (.value (Mismatch.describe (.int n)) name)
  | v => Mismatch.notA name v

/-- A whole number of 64 bits with sign. -/
def int64 : Reader Int := within "i64" (-9223372036854775808) 9223372036854775807

/-- A whole number of 32 bits with sign. -/
def int32 : Reader Int := within "i32" (-2147483648) 2147483647

/-- A natural number of 64 bits. -/
def word64 : Reader Nat := fun v => (within "u64" 0 18446744073709551615 v).map Int.toNat

/-- A natural number of 16 bits. -/
def word16 : Reader Nat := fun v => (within "u16" 0 65535 v).map Int.toNat

/-- Every item through a reader. -/
def each {α : Type} (read : Reader α) : List Json → Reading (List α)
  | [] => .ok []
  | v :: rest =>
    match read v with
    | .error e => .error e
    | .ok a =>
      match each read rest with
      | .error e => .error e
      | .ok more => .ok (a :: more)

/-- A list. -/
def list {α : Type} (read : Reader α) : Reader (List α)
  | .arr items => each read items
  | v => Mismatch.notA "a sequence" v

/-- An object. -/
def members : Reader Members
  | .obj entries => .ok entries
  | v => Mismatch.notA "a map" v

/-- One of several words, alone or as the only member of an object with a null value. -/
def word {α : Type} (choices : List (String × α)) : Reader α
  | .str s => pick s
  | .obj [(s, .null)] => pick s
  | .obj [(s, v)] => if (choices.lookup s).isSome then Mismatch.notA "unit" v else pick s
  | .obj _ => .error (.value "map" "map with a single key")
  | v => Mismatch.notA "string or map" v
where
  /-- The meaning of a word. -/
  pick (s : String) : Reading α :=
    match choices.lookup s with
    | some a => .ok a
    | none => .error (.word s (choices.map (·.1)))

end Reader

/-- A list of members from those that are present. -/
def present (entries : List (String × Option Json)) : List (String × Json) :=
  entries.filterMap fun entry => entry.2.map fun v => (entry.1, v)

namespace Json

/-- An object of the members that are present. -/
def ofPresent (entries : List (String × Option Json)) : Json := ofMembers (present entries)

end Json

end ModelOperator
