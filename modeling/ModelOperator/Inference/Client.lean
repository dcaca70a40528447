import ModelOperator.Inference.Wire
import ModelOperator.Json.Extent
import ModelOperator.Resource.Model

/-!
# The inference client

    A client turns a call into a request and the server's reply into a result.  A reply
    is a status and a body that arrives in pieces and may break off.  What is said of a body
    that cannot be read is left to `words`, which gives the text for the bytes refused.

    * `Call.request` is the request of a call;
    * `Call.receive` is its result, once there is a reply;
    * a pull reads its body line by line as the pieces arrive: `Pull.feed` takes one
      piece, `Pull.finish` the end of the body. -/

namespace ModelOperator

namespace Inference

/-- What a client may ask. -/
inductive Operation where
  | list
  | inspect
  | pull
  | generate
  deriving DecidableEq, Repr

/-- The word of an operation. -/
def Operation.text : Operation → String
  | .list => "list"
  | .inspect => "show"
  | .pull => "pull"
  | .generate => "generate"

/-- Why a call fails. -/
inductive Error where
  | transport (op : Operation) (detail : String)
  | status (op : Operation) (code : Nat) (message : String)
  | unreadable (op : Operation) (detail : String)
  | stream (op : Operation) (message : String)
  deriving DecidableEq, Repr

namespace Error

/-- The operation that failed. -/
def operation : Error → Operation
  | transport op _ => op
  | status op _ _ => op
  | unreadable op _ => op
  | stream op _ => op

/-- The message of a failure. -/
def message : Error → String
  | transport op detail => s!"ollama {op.text} request failed: {detail}"
  | status op code message => s!"ollama {op.text} returned {code}: {message}"
  | unreadable op detail => s!"ollama {op.text} returned an unreadable body: {detail}"
  | stream op message => s!"ollama {op.text} failed: {message}"

end Error

/-- A base address without the slashes at its end. -/
def baseUrl (url : String) : String :=
  String.ofList (url.toList.reverse.dropWhile (· == '/')).reverse

/-- The address of the server of a model. -/
def modelUrl (name ns : String) : String :=
  s!"http://{name}.{ns}.svc.cluster.local:{Naming.port}"

/-- The address of the server of a model resource. -/
def serverUrl (m : Model) : String :=
  baseUrl (modelUrl m.metadata.nameAny (m.metadata.namespace?.getD "default"))

/-- A request to a server. -/
structure Request where
  method : String
  url : String
  body : Option Json

/-- A reply: pieces of the body as they arrive, and what broke it off if it is not whole. -/
structure Reply where
  status : Nat
  pieces : List (List UInt8)
  broken : Option String := none

/-- Whether the status says that the call succeeded. -/
def Reply.isSuccess (r : Reply) : Bool := 200 ≤ r.status && r.status < 300

/-- What a body says of a failure: the refusal in it, or the body as it is. -/
def failureText (body : String) : String :=
  match Refusal.decoder.ofText? body with
  | some r => r.error
  | none => trimText body

/-- The failure that a reply reports, if it does. -/
def checkStatus (op : Operation) (r : Reply) : Except Error Unit :=
  if r.isSuccess then .ok ()
  else
    match r.broken with
    | some detail => .error (.transport op detail)
    | none => .error (.status op r.status (failureText (utf8Lossy r.pieces.flatten)))

section

variable (words : List UInt8 → String)

/-- Reads a whole body. -/
def readBody {α : Type} (op : Operation) (d : Decoder α) (bytes : List UInt8) : Except Error α :=
  match d.ofBytes? bytes with
  | some a => .ok a
  | none => .error (.unreadable op (words bytes))

/-- The result of a call whose reply is one document. -/
def receiveWhole {α : Type} (op : Operation) (d : Decoder α) (reply : Except String Reply) :
    Except Error α :=
  match reply with
  | .error detail => .error (.transport op detail)
  | .ok r =>
    match checkStatus op r with
    | .error e => .error e
    | .ok () =>
      match r.broken with
      | some detail => .error (.transport op detail)
      | none => readBody words op d r.pieces.flatten

end

/-- ASCII blanks. -/
def isAsciiBlank (b : UInt8) : Bool := b == 9 || b == 10 || b == 12 || b == 13 || b == 32

/-- A line without the blanks at both ends. -/
def trimLine (line : List UInt8) : List UInt8 :=
  ((line.dropWhile isAsciiBlank).reverse.dropWhile isAsciiBlank).reverse

namespace Pull

/-- A pull under way: the last progress and the bytes of the line that is not complete. -/
structure State where
  last : PullProgress := {}
  pending : List UInt8 := []

/-- The complete lines of some bytes, and what follows the last of them. -/
def lines : List UInt8 → List (List UInt8) × List UInt8
  | [] => ([], [])
  | b :: rest =>
    let (complete, pending) := lines rest
    if b = 10 then ([] :: complete, pending)
    else
      match complete with
      | line :: more => ((b :: line) :: more, pending)
      | [] => ([], b :: pending)

section

variable (words : List UInt8 → String)

/-- The progress that a line reports, none for a blank line. -/
def readLine (line : List UInt8) : Except Error (Option PullProgress) :=
  let line := trimLine line
  if line.isEmpty then .ok none
  else
    match Refusal.decoder.ofBytes? line with
    | some r => .error (.stream .pull r.error)
    | none => (readBody words .pull PullProgress.decoder line).map some

/-- The last progress after some lines; the first bad line ends the pull. -/
def readLines (last : PullProgress) : List (List UInt8) → Except Error PullProgress
  | [] => .ok last
  | line :: rest =>
    match readLine words line with
    | .error e => .error e
    | .ok progress => readLines (progress.getD last) rest

/-- Takes the next piece of the body. -/
def feed (s : State) (piece : List UInt8) : Except Error State :=
  let (complete, pending) := lines (s.pending ++ piece)
  (readLines words s.last complete).map fun last => ⟨last, pending⟩

/-- Takes several pieces. -/
def feedAll : List (List UInt8) → State → Except Error State
  | [], s => .ok s
  | piece :: rest, s =>
    match feed words s piece with
    | .error e => .error e
    | .ok next => feedAll rest next

/-- The end of the body; what is left counts as a line. -/
def finish (s : State) : Except Error PullProgress := readLines words s.last [s.pending]

/-- The result of a pull from its reply. -/
def receive (reply : Except String Reply) : Except Error PullProgress :=
  match reply with
  | .error detail => .error (.transport .pull detail)
  | .ok r =>
    match checkStatus .pull r with
    | .error e => .error e
    | .ok () =>
      match feedAll words r.pieces {} with
      | .error e => .error e
      | .ok s =>
        match r.broken with
        | some detail => .error (.transport .pull detail)
        | none => finish words s

end

end Pull

/-- A call with its body. -/
inductive Call where
  | list
  | inspect (request : ShowRequest)
  | pull (request : PullRequest)
  | generate (request : GenerateRequest)

/-- What a call gives. -/
inductive Answer where
  | list (models : ModelList)
  | inspect (reply : ShowReply)
  | pull (progress : PullProgress)
  | generate (reply : GenerateReply)

namespace Call

/-- The operation of a call. -/
def operation : Call → Operation
  | list => .list
  | inspect _ => .inspect
  | pull _ => .pull
  | generate _ => .generate

/-- The request of a call; a question is always asked for one whole answer. -/
def request (base : String) : Call → Request
  | list => ⟨"GET", base ++ "/api/tags", none⟩
  | inspect r => ⟨"POST", base ++ "/api/show", some r.toJson⟩
  | pull r => ⟨"POST", base ++ "/api/pull", some r.toJson⟩
  | generate r => ⟨"POST", base ++ "/api/generate", some { r with stream := false }.toJson⟩

/-- The result of a call from the reply to its request. -/
def receive (reply : Except String Reply) (c : Call)
    (words : List UInt8 → String := fun _ => "unexpected content") : Except Error Answer :=
  match c with
  | list => (receiveWhole words .list ModelList.decoder reply).map .list
  | inspect _ => (receiveWhole words .inspect ShowReply.decoder reply).map .inspect
  | pull _ => (Pull.receive words reply).map .pull
  | generate _ => (receiveWhole words .generate GenerateReply.decoder reply).map .generate

end Call

/-- The wire form of an answer. -/
def Answer.toJson : Answer → Json
  | .list models => models.toJson
  | .inspect reply => reply.toJson
  | .pull progress => progress.toJson
  | .generate reply => reply.toJson

end Inference

end ModelOperator
