import ModelOperator.Text.Quoted

/-!
# Why a patch is refused

    Each cause of a refusal is a constructor; its stage, its class and its message are
    functions of it. -/

namespace ModelOperator

namespace Patch

/-- The three ways to patch, in the order in which they run. -/
inductive Stage where
  | merge
  | json
  | strategic
  deriving DecidableEq, Repr

/-- The name of a stage. -/
def Stage.text : Stage → String
  | .merge => "merge patch"
  | .json => "JSON patch"
  | .strategic => "strategic merge patch"

/-- What kind of failure it is: the patch makes no sense for the target, it cannot be
    applied to this document, or the target has no table of merge keys. -/
inductive ErrorClass where
  | decode
  | apply
  | unsupportedTarget
  deriving DecidableEq, Repr

/-- A refusal. -/
inductive Error where
  | bodyKind (kind : String)
  | unknownField (path target : String)
  | undecodable (stage : Stage) (target detail : String)
  | missingSource (operation path : String)
  | missingValue (operation path : String)
  | pointerStart (pointer : String)
  | negativeIndex (token pointer : String)
  | invalidIndex (token path : String)
  | indexOutOfBounds (index : Nat) (path : String)
  | invalidOperation (operation path : String)
  | failedOperation (path reason : String)
  | unsupportedTarget (target : String)
  | strategicBody
  | baseNotObject
  | unknownDirective (directive path : String)
  | retainKeysNotList (path : String)
  | missingMergeKey (path key : String)
  deriving DecidableEq, Repr

namespace Error

/-- The stage at which a refusal arises. -/
def stage : Error → Stage
  | bodyKind _ => .merge
  | unknownField _ _ => .merge
  | undecodable stage _ _ => stage
  | missingSource _ _ => .json
  | missingValue _ _ => .json
  | pointerStart _ => .json
  | negativeIndex _ _ => .json
  | invalidIndex _ _ => .json
  | indexOutOfBounds _ _ => .json
  | invalidOperation _ _ => .json
  | failedOperation _ _ => .json
  | unsupportedTarget _ => .strategic
  | strategicBody => .strategic
  | baseNotObject => .strategic
  | unknownDirective _ _ => .strategic
  | retainKeysNotList _ => .strategic
  | missingMergeKey _ _ => .strategic

/-- The class of a refusal. -/
def errorClass : Error → ErrorClass
  | negativeIndex _ _ => .apply
  | invalidIndex _ _ => .apply
  | indexOutOfBounds _ _ => .apply
  | failedOperation _ _ => .apply
  | baseNotObject => .apply
  | unsupportedTarget _ => .unsupportedTarget
  | _ => .decode

/-- What went wrong, without the stage.  `detail` is what the library says that reads the pointers
    of an operation, if it is the one to refuse. -/
def reason (detail : String) : Error → String
  | bodyKind kind => s!"patch body must be an object, got {kind}"
  | unknownField path target => s!"unknown field \"{path}\" for {target}"
  | undecodable _ target detail => s!"unable to decode result into {target}: {detail}"
  | missingSource op path => s!"operation {op} on {path} requires \"from\""
  | missingValue op path => s!"operation {op} on {path} requires \"value\""
  | pointerStart pointer => "pointer " ++ quoted pointer ++ " must start with '/'"
  | negativeIndex token pointer => s!"negative array index {token} in {pointer}"
  | invalidIndex token path => s!"invalid array index {token} in {path}"
  | indexOutOfBounds index path => s!"array index {index} out of bounds in {path}"
  | invalidOperation op path => s!"invalid operation {op} on {path}: {detail}"
  | failedOperation path reason => s!"operation '/0' failed at path '{path}': {reason}"
  | unsupportedTarget target => s!"unsupported patch target {target}"
  | strategicBody => "patch body must be an object"
  | baseNotObject => "base document is not an object"
  | unknownDirective directive path =>
    "unknown $patch directive " ++ quoted directive ++ " at " ++ path
  | retainKeysNotList path => s!"$retainKeys at {path} must be a list"
  | missingMergeKey path key =>
    "list item at " ++ path ++ " is missing merge key " ++ quoted key

/-- The message of a refusal. -/
def message (e : Error) (detail : String := "invalid pointer") : String :=
  s!"while applying {e.stage.text}: {e.reason detail}"

end Error

end Patch

end ModelOperator
