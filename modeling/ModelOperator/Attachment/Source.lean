import ModelOperator.Attachment.Payload
import ModelOperator.Bytes.Utf8
import ModelOperator.Cluster.Error
import ModelOperator.Resource.Manifest
import ModelOperator.Resource.Prompt
import ModelOperator.Text.Quoted

/-!
# Where an image comes from

    An image source must set exactly one of its three places.  A document in the prompt is
    taken as it is; otherwise one key of a config map or of a secret holds the text of the
    document.  `AttachmentError` lists what may go wrong on the way to the bytes. -/

namespace ModelOperator

/-- The kinds of objects that hold image documents. -/
inductive StoreKind where
  | configMap
  | secret
  deriving DecidableEq, Repr

/-- The word for a kind of object. -/
def StoreKind.text : StoreKind → String
  | .configMap => "configmap"
  | .secret => "secret"

/-- An object that holds image documents. -/
structure StoreName where
  kind : StoreKind
  ns : String
  name : String
  deriving DecidableEq, Repr

/-- The words for an object. -/
def StoreName.text (s : StoreName) : String := s!"{s.kind.text} {s.ns}/{s.name}"

/-- Why an image gives no bytes. -/
inductive AttachmentError where
  | source (found : Nat)
  | lookup (store : StoreName) (e : ClusterError)
  | missingObject (store : StoreName)
  | missingKey (store : StoreName) (key : String)
  | document
  | payload (fault : PayloadFault)
  deriving DecidableEq, Repr

/-- The message of an error.  `detail` is what the library says that reads a document or unpacks
    its bytes, if it is the one to refuse. -/
def AttachmentError.message (detail : String) : AttachmentError → String
  | .source found =>
    "image must set exactly one of inline, configMapKeyRef or secretKeyRef, found " ++ toString found
  | .lookup store e => s!"failed to get {store.text}: {e.message}"
  | .missingObject store => s!"{store.text} not found"
  | .missingKey store key => s!"key {quoted key} not found in {store.text}"
  | .document => s!"failed to unmarshal image data: {detail}"
  | .payload fault => fault.message detail

/-- The one place that a source sets. -/
inductive ImagePlace where
  | inline (image : ImageData)
  | key (store : StoreName) (key : String)
  deriving DecidableEq, Repr

/-- The place behind a selector; without a namespace of its own it is in the given one. -/
def KeySelector.place (s : KeySelector) (kind : StoreKind) (ns : String) : ImagePlace :=
  .key ⟨kind, namespaceOr s.ns ns, s.name⟩ s.key

/-- The one place that a source sets, seen from a prompt's namespace. -/
def ImageSource.place (s : ImageSource) (ns : String) : Except AttachmentError ImagePlace :=
  match s.inline, s.configMapKey, s.secretKey with
  | some image, none, none => .ok (.inline image)
  | none, some selector, none => .ok (selector.place .configMap ns)
  | none, none, some selector => .ok (selector.place .secret ns)
  | inline, configMap, secret =>
    .error (.source ([inline.isSome, configMap.isSome, secret.isSome].count true))

/-- The bytes under a key of an object, as the cluster writes that object. -/
def StoreKind.bytesAt? (kind : StoreKind) (doc : Json) (key : String) : Option (List UInt8) := do
  let text ← (← (← doc.get? "data").get? key).asText?
  match kind with
  | .configMap => some (utf8Bytes text)
  | .secret => (Base64.decodeText text).toOption

/-- The image document under a key of an object, which may not be there. -/
def StoreName.imageAt (store : StoreName) (key : String) (doc : Option Json) :
    Except AttachmentError ImageData :=
  match doc with
  | none => .error (.missingObject store)
  | some doc =>
    match store.kind.bytesAt? doc key with
    | none => .error (.missingKey store key)
    | some bytes =>
      match (utf8Text? bytes).bind ImageData.ofText? with
      | none => .error .document
      | some image => .ok image

end ModelOperator
