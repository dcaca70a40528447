import ModelOperator.Patch.Target

/-!
# The strategic merge stage

    Objects merge member by member.  A list whose path is in the target's table of merge
    keys merges item by item: items with equal keys are merged, others are appended.  Any
    other list is replaced.  Members that start with a dollar sign direct the merge:

    * `$patch: replace` on an object replaces it, on an item the whole list;
    * `$patch: delete` removes the member or item it stands on;
    * `$retainKeys` removes every member of the merged object that it does not list.

    A value that meets nothing to merge with is stored without its directives. -/

namespace ModelOperator

namespace Patch

/-- The merge key of each list that is merged by key, under its dotted path. -/
abbrev MergeKeys := List (String × String)

namespace MergeKeys

/-- The owner references of an object's own metadata. -/
def metadata : MergeKeys := [("metadata.ownerReferences", "uid")]

/-- The lists of one list of containers. -/
def containers (base : String) : MergeKeys :=
  [(base, "name"), (base ++ ".ports", "containerPort"), (base ++ ".env", "name"),
    (base ++ ".volumeMounts", "mountPath"), (base ++ ".volumeDevices", "devicePath")]

/-- The lists of a pod's specification. -/
def podSpec (base : String) : MergeKeys :=
  containers (base ++ ".containers") ++ containers (base ++ ".initContainers") ++
  containers (base ++ ".ephemeralContainers") ++
  [(base ++ ".volumes", "name"), (base ++ ".imagePullSecrets", "name"),
    (base ++ ".hostAliases", "ip")]

/-- The tables by version and kind. -/
def builtin : List (TypeTag × MergeKeys) := [
  (⟨"apps/v1", "StatefulSet"⟩, metadata ++ podSpec "spec.template.spec" ++
    [("spec.template.metadata.ownerReferences", "uid")]),
  (⟨"apps/v1", "Deployment"⟩, metadata ++ podSpec "spec.template.spec"),
  (⟨"v1", "Pod"⟩, metadata ++ podSpec "spec"),
  (⟨"v1", "Service"⟩, metadata ++ [("spec.ports", "port")]),
  (⟨"v1", "ConfigMap"⟩, metadata)]

/-- The table of a version and kind. -/
def forTag? (tag : TypeTag) : Option MergeKeys := builtin.lookup tag

/-- The merge key of the list at a dotted path. -/
def keyFor? (keys : MergeKeys) (path : String) : Option String := keys.lookup path

end MergeKeys

/-- The directive of an object. -/
def directive? (members : Members) : Option String :=
  (Members.get? "$patch" members).bind Json.asText?

/-- Whether an object is marked for deletion. -/
def isDelete (members : Members) : Bool := directive? members == some "delete"

/-- Whether a value is an object marked for deletion. -/
def isDeleteItem : Json → Bool
  | .obj members => isDelete members
  | _ => false

/-- Whether a value is an object that replaces the list it stands in. -/
def isReplaceItem : Json → Bool
  | .obj members => directive? members == some "replace"
  | _ => false

/-- Whether a member's name is a directive's. -/
def isDirectiveName (name : String) : Bool := name.startsWith "$"

/-- Whether a value is an object of nothing but directives. -/
def isDirectiveOnly : Json → Bool
  | .obj members => members.all fun m => isDirectiveName m.1
  | _ => false

/-- Whether a member is dropped when a value is stored. -/
def isStripped (name : String) : Bool :=
  name == "$patch" || name == "$retainKeys" || name.startsWith "$setElementOrder/"

mutual
/-- A value as it is stored: without directives, nulls and what is marked for deletion. -/
def strip : Json → Json
  | .obj members => .obj (stripMembers members)
  | .arr items => .arr (stripItems items)
  | v => v

/-- The members that are stored. -/
def stripMembers : Members → Members
  | [] => []
  | (name, v) :: rest =>
    if isStripped name || v.isNull || isDeleteItem v then stripMembers rest
    else (name, strip v) :: stripMembers rest

/-- The items that are stored. -/
def stripItems : List Json → List Json
  | [] => []
  | v :: rest =>
    if isDirectiveOnly v || isDeleteItem v then stripItems rest
    else strip v :: stripItems rest
end

/-- A dotted path for messages. -/
def pathText (path : List String) : String :=
  if path.isEmpty then "<root>" else ".".intercalate path

/-- The place of the first object whose member equals a value. -/
def place? (key : String) (id : Json) (items : List Json) : Option Nat :=
  items.findIdx? fun item =>
    match item.get? key with
    | some found => found.same id
    | none => false

/-- Sets a member, or removes it. -/
def putMember (name : String) (value : Option Json) (members : Members) : Members :=
  match value with
  | some v => Members.insert name v members
  | none => Members.erase name members

/-- The list that a patch with a replacing item stores. -/
def replacedItems : List Json → List Json
  | [] => []
  | v :: rest => if isDirectiveOnly v then replacedItems rest else strip v :: replacedItems rest

/-- Keeps the members that `$retainKeys` lists, if it is there. -/
def retainKeys (path : List String) (patch merged : Members) : Except Error Members :=
  match Members.get? "$retainKeys" patch with
  | none => .ok merged
  | some (.arr kept) =>
    .ok (merged.filter fun m => kept.any fun k => k.asText? == some m.1)
  | some _ => .error (.retainKeysNotList (pathText path))

/-- What the directives of a patch object make of the merge of its members. -/
def directed (path : List String) (patch : Members) (merged : Except Error Members) :
    Except Error Members :=
  match directive? patch with
  | some "replace" => .ok (stripMembers patch)
  | some "merge" => merged.bind (retainKeys path patch)
  | none => merged.bind (retainKeys path patch)
  | some other => .error (.unknownDirective other (pathText path))

mutual
/-- The members of an object merged with those of a patch, one after the other. -/
def mergeMembers (keys : MergeKeys) (path : List String) : Members → Members → Except Error Members
  | [], base => .ok base
  | (name, v) :: rest, base =>
    if isDirectiveName name then mergeMembers keys path rest base
    else do
      let here := path ++ [name]
      let found := Members.get? name base
      let merged ←
        match v with
        | .null => .ok none
        | .obj child =>
          if isDelete child then .ok none
          else
            match found with
            | some (.obj existing) => do
              .ok (some (.obj (← directed here child (mergeMembers keys here child existing))))
            | _ => .ok (some (strip v))
        | .arr items =>
          match keys.keyFor? (".".intercalate here), found with
          | some key, some (.arr existing) =>
            if items.any isReplaceItem then .ok (some (.arr (replacedItems items)))
            else do .ok (some (.arr (← mergeItems keys here key items existing)))
          | _, _ =>
            if !items.isEmpty && items.all isDeleteItem then .ok found
            else .ok (some (strip v))
        | scalar => .ok (some scalar)
      mergeMembers keys path rest (putMember name merged base)

/-- A list merged by key with the items of a patch, one after the other. -/
def mergeItems (keys : MergeKeys) (path : List String) (key : String) :
    List Json → List Json → Except Error (List Json)
  | [], base => .ok base
  | item :: rest, base =>
    match item with
    | .obj fields =>
      match Members.get? key fields with
      | none => .error (.missingMergeKey (pathText path) key)
      | some id =>
        match place? key id base with
        | some i =>
          if isDelete fields then mergeItems keys path key rest (base.eraseIdx i)
          else
            match base[i]? with
            | some (.obj existing) => do
              let merged ← directed path fields (mergeMembers keys path fields existing)
              mergeItems keys path key rest (base.set i (.obj merged))
            | _ => mergeItems keys path key rest (base.set i (strip item))
        | none =>
          if isDelete fields then mergeItems keys path key rest base
          else mergeItems keys path key rest (base ++ [strip item])
    | v =>
      if base.any fun old => old.same v then mergeItems keys path key rest base
      else mergeItems keys path key rest (base ++ [v])
end

/-- An object merged with the object of a patch. -/
def mergeObject (keys : MergeKeys) (path : List String) (patch base : Members) :
    Except Error Members :=
  directed path patch (mergeMembers keys path patch base)

/-- The document with a strategic merge patch applied. -/
def applyStrategic (t : Target) (body doc : Json) : Except Error Json :=
  match t.tag?.bind MergeKeys.forTag? with
  | none => .error (.unsupportedTarget t.typeName)
  | some keys =>
    match body, doc with
    | .obj patch, .obj base => (mergeObject keys [] patch base).map .obj
    | .obj _, _ => .error .baseNotObject
    | _, _ => .error .strategicBody

end Patch

end ModelOperator
