import ModelOperator.Cluster.Address
import ModelOperator.Text.Quoted

/-!
# Failures of cluster calls

    A call to the cluster's interface fails with an answer of the server, with an answer
    that cannot be read, without an answer, or before its request is made.  An answer
    with code 409 is a conflict with another writer, one with code 404 says that the
    object does not exist.  Around a call, an object may be refused before it is sent. -/

namespace ModelOperator

/-- What the server says about a refusal. -/
structure ApiStatus where
  status : String
  message : String
  reason : String
  code : Nat
  deriving DecidableEq, Repr

/-- A failed call. -/
inductive CallError where
  | api (status : ApiStatus)
  | unreadable (detail : String)
  | dropped (detail : String)
  | unbuilt (fault : RequestFault)
  deriving DecidableEq, Repr

namespace CallError

/-- Whether another writer came first. -/
def isConflict : CallError → Bool
  | api s => s.code == 409
  | _ => false

/-- Whether the object does not exist. -/
def isNotFound : CallError → Bool
  | api s => s.code == 404
  | _ => false

/-- The text of a server's refusal. -/
def apiText (s : ApiStatus) : String :=
  "ApiError: " ++ s.message ++ ": " ++ s.reason ++ " (ErrorResponse \x7b status: " ++
  quoted s.status ++ ", message: " ++ quoted s.message ++ ", reason: " ++ quoted s.reason ++
  ", code: " ++ toString s.code ++ " \x7d)"

/-- The message of a failed call. -/
def message : CallError → String
  | api s => apiText s
  | unreadable detail => "Error deserializing response: " ++ detail
  | dropped detail => "Error reading events stream: " ++ detail
  | unbuilt fault => "Failed to build request: " ++ fault.message

end CallError

/-- A failed call, or the refusal to make one. -/
inductive ClusterError where
  | call (e : CallError)
  | invalid (resource message : String)
  | serialization (message : String)
  | internal (context message : String)
  deriving DecidableEq, Repr

namespace ClusterError

/-- Whether another writer came first. -/
def isConflict : ClusterError → Bool
  | call e => e.isConflict
  | _ => false

/-- Whether the object does not exist. -/
def isNotFound : ClusterError → Bool
  | call e => e.isNotFound
  | _ => false

/-- The message of a failure. -/
def message : ClusterError → String
  | call e => "kubernetes error: " ++ e.message
  | invalid resource message => "invalid " ++ resource ++ ": " ++ message
  | serialization message => "serialization error: " ++ message
  | internal context message => "internal error [" ++ context ++ "]: " ++ message

end ClusterError

end ModelOperator
