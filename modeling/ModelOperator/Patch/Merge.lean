import ModelOperator.Json.MergePatch
import ModelOperator.Patch.Target

/-!
# The merge stage

    The body is merged into the document.  For a typed target the result is read back
    and written again, and a member of the body that the target does not know, and so
    dropped, is reported by the path of the first one. -/

namespace ModelOperator

namespace Patch

/-- The first member of an object that is not null. -/
def firstPresent? : Members → Option String
  | [] => none
  | (name, v) :: rest => if v.isNull then firstPresent? rest else some name

mutual
/-- The path of the first member of a body that a document lacks; members that are null
    are skipped, and lists are compared place by place. -/
def unknownPath? : Json → Json → Option (List String)
  | .obj body, .obj known => unknownMember? body known
  | .obj body, _ => (firstPresent? body).map fun name => [name]
  | .arr items, .arr known => unknownItem? 0 items known
  | _, _ => none

/-- `unknownPath?` through the members of an object. -/
def unknownMember? : Members → Members → Option (List String)
  | [], _ => none
  | (name, v) :: rest, known =>
    if v.isNull then unknownMember? rest known
    else
      match Members.get? name known with
      | none => some [name]
      | some w =>
        match unknownPath? v w with
        | some path => some (name :: path)
        | none => unknownMember? rest known

/-- `unknownPath?` through the items of a list, from a place on. -/
def unknownItem? : Nat → List Json → List Json → Option (List String)
  | place, v :: rest, w :: known =>
    match unknownPath? v w with
    | some path => some (toString place :: path)
    | none => unknownItem? (place + 1) rest known
  | _, _, _ => none
end

/-- The document with a merge patch applied. -/
def applyMerge (t : Target) (body doc : Json) : Except Error Json :=
  if !body.isObject then .error (.bodyKind body.kind)
  else
    let merged := body.mergePatch doc
    if t.isTyped then
      match t.read .merge merged with
      | .error e => .error e
      | .ok known =>
        match unknownPath? body known with
        | some path => .error (.unknownField (".".intercalate path) t.typeName)
        | none => .ok known
    else .ok merged

end Patch

end ModelOperator
