import ModelOperator.Json.Value

/-!
# Merge patches

    `Json.mergePatch` is the merge of RFC 7386: objects merge member by member, a null
    removes a member, and everything else replaces what was there. -/

namespace ModelOperator

namespace Json

mutual
/-- The target with a patch merged into it. -/
def mergePatch : Json → Json → Json
  | .obj patch, target =>
    .obj (mergeMembers patch (match target with | .obj members => members | _ => []))
  | patch, _ => patch

/-- The members of a target with those of a patch merged in. -/
def mergeMembers : Members → Members → Members
  | [], target => target
  | (name, v) :: rest, target =>
    let merged := mergePatch v ((Members.get? name target).getD .null)
    mergeMembers rest
      (if v.isNull then Members.erase name target else Members.insert name merged target)
end

end Json

end ModelOperator
