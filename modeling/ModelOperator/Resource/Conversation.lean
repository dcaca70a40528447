import ModelOperator.Bytes.Base64
import ModelOperator.Json.Parser
import ModelOperator.Json.Printer
import ModelOperator.Json.Record

/-!
# Conversation state

    The state of a conversation is a sequence of whole numbers.  It is kept in a resource
    as a token: the base64 of the sequence as a document.  `Conversation.decode` reads what
    `Conversation.encode` writes, and any other token of such a document. -/

namespace ModelOperator

namespace Conversation

/-- Why a token holds no conversation. -/
inductive Fault where
  | encoding (fault : Base64.Fault)
  | shape
  deriving DecidableEq, Repr

/-- The token of a sequence. -/
def encode (context : List Int) : String :=
  Base64.encodeText (utf8Bytes (Json.arr (context.map .int)).compact)

/-- The sequence in a token. -/
def decode (token : String) : Except Fault (List Int) :=
  match Base64.decodeText token with
  | .error fault => .error (.encoding fault)
  | .ok bytes =>
    match (utf8Text? bytes).bind Json.parse with
    | none => .error .shape
    | some v =>
      match Reader.list Reader.int64 v with
      | .ok context => .ok context
      | .error _ => .error .shape

end Conversation

end ModelOperator
