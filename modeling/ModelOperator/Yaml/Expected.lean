import ModelOperator.Json.Value
import ModelOperator.Yaml.Node
import ModelOperator.Yaml.Plain

/-!
# Documents read for a purpose

    What a scalar means depends on what is expected in its place: where a text is expected
    any scalar is its own text, and where a number is expected only a plain one will do.
    `Node.toJson?` turns a document into the value that a reader of records expects, or
    refuses it: a record or map is never a sequence, records of the operator's own admit
    each member once, and collections nest at most 128 deep. -/

namespace ModelOperator

namespace Yaml

/-- What is expected of a part of a document.  A member of a record is given with whether
    it may be null. -/
inductive Expected where
  | any
  | text
  | primitive
  | word
  | list (item : Expected)
  | map (value : Expected)
  | record (once : Bool) (members : List (String × Bool × Expected))
  deriving Inhabited

namespace Expected

/-- A member that may be null. -/
def may (name : String) (e : Expected) : String × Bool × Expected := (name, true, e)

/-- A member that is never null. -/
def must (name : String) (e : Expected) : String × Bool × Expected := (name, false, e)

end Expected

/-- The tag of a standard kind of scalar. -/
def standardTag (kind : String) : String := "tag:yaml.org,2002:" ++ kind

/-- Whether a tag is one of the document's own. -/
def isLocalTag (tag : String) : Bool := tag.startsWith "!"

/-- A whole number of 64 bits, with a sign or without. -/
def wholeJson? (n : Int) : Option Json :=
  if -(Int.pow 2 63) ≤ n ∧ n < Int.pow 2 64 then some (.int n) else none

/-- The value of a plain scalar where anything is expected; whole numbers of more than 64
    bits are refused, and what is no finite number is null. -/
def plainJson? (text : String) : Option Json :=
  match plainValue text with
  | .null => some .null
  | .truth b => some (.bool b)
  | .whole n => wholeJson? n
  | .number x => some (.float x)
  | .notFinite => some .null
  | .word => some (.str text)

/-- The value of a scalar where anything is expected. -/
def anyScalar? (tag : Option String) (style : ScalarStyle) (text : String) : Option Json :=
  match tag with
  | none => if style = .plain then plainJson? text else some (.str text)
  | some tag =>
    if isLocalTag tag then none
    else if tag = standardTag "bool" then (truth? text).map .bool
    else if tag = standardTag "int" then (whole? text.toList).bind wholeJson?
    else if tag = standardTag "float" then
      if isNotFinite text then some .null else (decimal? text.toList).map .float
    else if tag = standardTag "null" then if isNull text then some .null else none
    else some (.str text)

/-- The value of a scalar where a truth value or a whole number is expected. -/
def primitiveScalar? (tag : Option String) (style : ScalarStyle) (text : String) : Option Json :=
  match style with
  | .plain => plainJson? text
  | .literal =>
    if tag = some (standardTag "bool") then (truth? text).map .bool
    else if tag = some (standardTag "int") then (whole? text.toList).bind wholeJson?
    else none
  | _ => none

/-- The value of a scalar where a word of a fixed list is expected.  A local tag is itself
    the word, and nothing may follow it. -/
def wordScalar? (tag : Option String) (style : ScalarStyle) (text : String) : Option Json :=
  match tag with
  | some tag =>
    if isLocalTag tag then
      if style = .plain ∧ (text.isEmpty || isNull text) then
        some (.str (if tag = "!" then tag else (tag.drop 1).toString))
      else none
    else some (.str text)
  | none => some (.str text)

/-- The value of a scalar; one that is not written stands for an empty collection. -/
def scalarJson? (expected : Expected) (tag : Option String) (style : ScalarStyle)
    (text : String) : Option Json :=
  let unwritten : Bool := style == .plain && text.isEmpty
  match expected with
  | .any => anyScalar? tag style text
  | .text => some (.str text)
  | .primitive => primitiveScalar? tag style text
  | .word => wordScalar? tag style text
  | .list _ => if unwritten then some (.arr []) else none
  | .map _ => if unwritten then some (.obj []) else none
  | .record _ _ => if unwritten then some (.obj []) else none

/-- Whether a scalar is null where null is admitted; a scalar tagged as null must be. -/
def scalarIsNull? (tag : Option String) (style : ScalarStyle) (text : String) : Option Bool :=
  if style != .plain then some false
  else
    match tag with
    | some tag =>
      if tag = standardTag "null" then if isNull text then some true else none else some false
    | none => some (text.isEmpty || isNull text)

/-- How deep collections nest at most. -/
def depthLimit : Nat := 128

namespace Node

/-- What a node stands for in a document: itself without its anchor, or what an alias
    refers to. -/
def behind (document : Node) : Node → Option Node
  | .alias id => document.find? id
  | .anchored _ node => some node
  | node => some node

/-- The text of a key. -/
def keyText? (document key : Node) : Option String := do
  match ← behind document key with
  | .scalar _ _ text => some text
  | _ => none

/-- The value that a node is where something is expected, with `depth` levels to go. -/
def toJsonAt? (document : Node) : Nat → Expected → Node → Option Json
  | depth, expected, node => do
    match ← behind document node, depth with
    | .scalar tag style text, _ => scalarJson? expected tag style text
    | .sequence tag items, depth + 1 =>
      match expected with
      | .any =>
        if tag.any isLocalTag then none
        else return .arr (← items.mapM (toJsonAt? document depth .any))
      | .list item => return .arr (← items.mapM (toJsonAt? document depth item))
      | _ => none
    | .mapping tag entries, depth + 1 =>
      let values (e : Expected) : Option Json := do
        let members ← entries.mapM fun (k, v) => do
          return (← keyText? document k, ← toJsonAt? document depth e v)
        return .ofMembers members
      match expected with
      | .any => if tag.any isLocalTag then none else values .any
      | .map e => values e
      | .record once fields => do
        let found ← entries.mapM fun (k, v) => do
          let name ← keyText? document k
          match fields.lookup name with
          | none => some none
          | some (mayBeNull, e) =>
            let isNull ← match ← behind document v with
              | .scalar tag style text => if mayBeNull then scalarIsNull? tag style text else some false
              | _ => some false
            if isNull then some (some (name, Json.null))
            else return some (name, ← toJsonAt? document depth e v)
        let members := found.filterMap id
        let names := members.map (·.1)
        if once && names.eraseDups.length != names.length then none
        else return .ofMembers members
      | _ => none
    | _, _ => none

/-- The value of a document where something is expected. -/
def toJson? (document : Node) (expected : Expected) : Option Json :=
  toJsonAt? document depthLimit expected document

end Node

/-- The value of the only document of a text, read as what is expected. -/
def read? (expected : Expected) (text : String) : Option Json := do
  (← Node.ofText text).toJson? expected

end Yaml

end ModelOperator
