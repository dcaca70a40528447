import ModelOperator.Cluster.Error
import ModelOperator.Json.Extent

/-!
# Replies of the cluster

    A reply has a status and a body.  A status from 400 to 599 refuses the request, and
    its body says why; any other status accepts it, and its body is the object asked for.
    A request may also get no reply.

    * `ClusterReply.refusal` is what a refusing reply says;
    * `Delivery.result` is the result of a request. -/

namespace ModelOperator

/-- A reply to a request. -/
structure ClusterReply where
  status : Nat
  body : String
  deriving DecidableEq, Repr

/-- What comes of a request: a reply, or the end of the connection. -/
inductive Delivery where
  | reply (reply : ClusterReply)
  | dropped (detail : String)
  deriving DecidableEq, Repr

/-- The phrases of the statuses that refuse a request. -/
def refusalPhrases : List (Nat × String) := [
  (400, "Bad Request"), (401, "Unauthorized"), (402, "Payment Required"), (403, "Forbidden"),
  (404, "Not Found"), (405, "Method Not Allowed"), (406, "Not Acceptable"),
  (407, "Proxy Authentication Required"), (408, "Request Timeout"), (409, "Conflict"),
  (410, "Gone"), (411, "Length Required"), (412, "Precondition Failed"),
  (413, "Payload Too Large"), (414, "URI Too Long"), (415, "Unsupported Media Type"),
  (416, "Range Not Satisfiable"), (417, "Expectation Failed"), (418, "I'm a teapot"),
  (421, "Misdirected Request"), (422, "Unprocessable Entity"), (423, "Locked"),
  (424, "Failed Dependency"), (425, "Too Early"), (426, "Upgrade Required"),
  (428, "Precondition Required"), (429, "Too Many Requests"),
  (431, "Request Header Fields Too Large"), (451, "Unavailable For Legal Reasons"),
  (500, "Internal Server Error"), (501, "Not Implemented"), (502, "Bad Gateway"),
  (503, "Service Unavailable"), (504, "Gateway Timeout"), (505, "HTTP Version Not Supported"),
  (506, "Variant Also Negotiates"), (507, "Insufficient Storage"), (508, "Loop Detected"),
  (510, "Not Extended"), (511, "Network Authentication Required")]

/-- A status with its phrase. -/
def statusText (code : Nat) : String :=
  toString code ++ " " ++ (refusalPhrases.lookup code).getD "<unknown status code>"

namespace ApiStatus

/-- Reads what a server says about a refusal. -/
def read : Reader ApiStatus := fun v => do
  let r ← Record.of "ErrorResponse" 4 v
  let status ← r.required 0 "status" Reader.text
  let message ← r.defaulted 1 "message" Reader.text ""
  let reason ← r.defaulted 2 "reason" Reader.text ""
  let code ← r.required 3 "code" Reader.word16
  .ok ⟨status, message, reason, code⟩

/-- How it is read from a text. -/
def decoder : Decoder ApiStatus := ⟨.plain ["status", "message", "reason", "code"], read⟩

end ApiStatus

namespace ClusterReply

/-- Whether the reply refuses the request. -/
def isRefusal (r : ClusterReply) : Bool := 400 ≤ r.status && r.status < 600

/-- The refusal as the body states it, if it does. -/
def stated? (r : ClusterReply) : Option ApiStatus := ApiStatus.decoder.ofText? r.body

/-- The refusal; a body that states none is quoted in it. -/
def refusal (r : ClusterReply) : ApiStatus :=
  r.stated?.getD ⟨statusText r.status, quoted r.body, "Failed to parse error data", r.status⟩

end ClusterReply

/-- The result of a request: the object in the body of an accepting reply. -/
def Delivery.result {α : Type} (decoder : Decoder α) : Delivery → Except CallError α
  | .dropped detail => .error (.dropped detail)
  | .reply r =>
    if r.isRefusal then .error (.api r.refusal)
    else
      match decoder.extent.ofText? r.body with
      | none => .error (.unreadable "not a JSON document")
      | some v =>
        match decoder.read v with
        | .ok a => .ok a
        | .error fault => .error (.unreadable fault.message)

end ModelOperator
