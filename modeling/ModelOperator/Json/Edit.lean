import ModelOperator.Json.Pointer

/-!
# Edits of a document

    The six operations of RFC 6902 on parsed pointers.  An operation that fails says
    which side of it was at fault.

    * `Json.addAt?` inserts, `Json.removeAt?` takes out;
    * `Edit.run` evaluates one operation and `Edit.runAll` several in order. -/

namespace ModelOperator

/-- An operation on a document. -/
inductive Edit where
  | add (path : List String) (value : Json)
  | remove (path : List String)
  | replace (path : List String) (value : Json)
  | move (source path : List String)
  | copy (source path : List String)
  | test (path : List String) (value : Json)

/-- Why an operation fails. -/
inductive EditFault where
  | testFailed
  | invalidSource
  | invalidPath
  | moveInside
  deriving DecidableEq, Repr

/-- The words for a failure. -/
def EditFault.message : EditFault → String
  | .testFailed => "value did not match"
  | .invalidSource => "\"from\" path is invalid"
  | .invalidPath => "path is invalid"
  | .moveInside => "cannot move the value inside itself"

namespace Json

/-- Inserts a value under the last token of a path. -/
def insertChild? (token : String) (value : Json) : Json → Option Json
  | .obj members => some (.obj (Members.insert token value members))
  | .arr items =>
    if token = "-" then some (.arr (items ++ [value]))
    else
      match Pointer.index? token with
      | some i => if i ≤ items.length then some (.arr (items.insertIdx i value)) else none
      | none => none
  | _ => none

/-- Takes out the child under a token. -/
def removeChild? (token : String) : Json → Option Json
  | .obj members =>
    if Members.has token members then some (.obj (Members.erase token members)) else none
  | .arr items =>
    match Pointer.index? token with
    | some i => if i < items.length then some (.arr (items.eraseIdx i)) else none
    | none => none
  | _ => none

/-- A path as its parent and its last token. -/
def splitLast? : List String → Option (List String × String)
  | [] => none
  | [t] => some ([], t)
  | t :: rest => (splitLast? rest).map fun r => (t :: r.1, r.2)

/-- The document with a value added at a path; the empty path replaces all of it. -/
def addAt? (doc : Json) (path : List String) (value : Json) : Option Json :=
  match splitLast? path with
  | none => some value
  | some (parent, token) => change? (insertChild? token value) parent doc

/-- The document without the value at a path. -/
def removeAt? (path : List String) (doc : Json) : Option Json :=
  match splitLast? path with
  | none => none
  | some (parent, token) => change? (removeChild? token) parent doc

end Json

namespace Edit

/-- Whether a path lies strictly below another. -/
def below (path above : List String) : Bool :=
  above.isPrefixOf path && path.length != above.length

/-- A result, or a fault where there is none. -/
def orFault (fault : EditFault) : Option Json → Except EditFault Json
  | some v => .ok v
  | none => .error fault

/-- The document after one operation. -/
def run (doc : Json) : Edit → Except EditFault Json
  | .add path value => orFault .invalidPath (doc.addAt? path value)
  | .remove path => orFault .invalidPath (doc.removeAt? path)
  | .replace path value => orFault .invalidPath (doc.change? (fun _ => some value) path)
  | .move source path =>
    if below path source then .error .moveInside
    else
      match doc.at? source, doc.removeAt? source with
      | some value, some rest => orFault .invalidPath (rest.addAt? path value)
      | _, _ => .error .invalidSource
  | .copy source path =>
    match doc.at? source with
    | some value => orFault .invalidPath (doc.addAt? path value)
    | none => .error .invalidSource
  | .test path value =>
    match doc.at? path with
    | some found => if found.same value then .ok doc else .error .testFailed
    | none => .error .invalidPath

/-- The document after several operations; the first failure ends them. -/
def runAll : List Edit → Json → Except EditFault Json
  | [], doc => .ok doc
  | e :: rest, doc =>
    match run doc e with
    | .ok next => runAll rest next
    | .error fault => .error fault

end Edit

end ModelOperator
