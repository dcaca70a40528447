import ModelOperator.Json.Extent

/-!
# Image attachments as they are written

    An attachment names one of three sources: an image document in the prompt itself, or
    a key of a config map or of a secret that holds one.  An image document is a base64
    payload and the compression of the bytes under it. -/

namespace ModelOperator

/-- How the bytes of an image are compressed. -/
inductive ImageFormat where
  | plain
  | gzip
  | zstd
  deriving DecidableEq, Repr

namespace ImageFormat

/-- The word of a format. -/
def text : ImageFormat → String
  | plain => "none"
  | gzip => "gzip"
  | zstd => "zstd"

/-- The words and what they mean; the empty word means no compression. -/
def words : List (String × ImageFormat) :=
  [("none", plain), ("", plain), ("gzip", gzip), ("zstd", zstd)]

end ImageFormat

/-- An image document. -/
structure ImageData where
  format : ImageFormat := .plain
  data : String
  deriving DecidableEq, Repr

namespace ImageData

/-- Reads an image document. -/
def read : Reader ImageData := fun v => do
  let r ← Record.of "ImageData" 2 v
  let format ← r.defaulted 0 "format" (Reader.word ImageFormat.words) .plain
  let data ← r.required 1 "data" Reader.text
  .ok ⟨format, data⟩

/-- What is looked at of an image document. -/
def extent : Extent := .plain ["format", "data"]

/-- The wire form. -/
def toJson (i : ImageData) : Json :=
  .ofMembers [("format", .str i.format.text), ("data", .str i.data)]

end ImageData

/-- A key of a config map or a secret. -/
structure KeySelector where
  name : String
  ns : Option String := none
  key : String
  deriving DecidableEq, Repr

namespace KeySelector

/-- Reads a selector. -/
def read : Reader KeySelector := fun v => do
  let r ← Record.of "KeySelector" 3 v
  let name ← r.required 0 "name" Reader.text
  let ns ← r.nullable 1 "namespace" Reader.text
  let key ← r.required 2 "key" Reader.text
  .ok ⟨name, ns, key⟩

/-- What is looked at of a selector. -/
def extent : Extent := .plain ["name", "namespace", "key"]

/-- The wire form. -/
def toJson (s : KeySelector) : Json :=
  .ofPresent [("name", some (.str s.name)), ("namespace", s.ns.map .str), ("key", some (.str s.key))]

end KeySelector

/-- Where an image comes from. -/
structure ImageSource where
  inline : Option ImageData := none
  configMapKey : Option KeySelector := none
  secretKey : Option KeySelector := none
  deriving DecidableEq, Repr

namespace ImageSource

/-- Reads a source. -/
def read : Reader ImageSource := fun v => do
  let r ← Record.of "ImageSource" 3 v
  let inline ← r.nullable 0 "inline" ImageData.read
  let configMapKey ← r.nullable 1 "configMapKeyRef" KeySelector.read
  let secretKey ← r.nullable 2 "secretKeyRef" KeySelector.read
  .ok ⟨inline, configMapKey, secretKey⟩

/-- What is looked at of a source. -/
def extent : Extent :=
  .record [("inline", ImageData.extent), ("configMapKeyRef", KeySelector.extent),
    ("secretKeyRef", KeySelector.extent)]

/-- The wire form. -/
def toJson (s : ImageSource) : Json :=
  .ofPresent [("inline", s.inline.map ImageData.toJson),
    ("configMapKeyRef", s.configMapKey.map KeySelector.toJson),
    ("secretKeyRef", s.secretKey.map KeySelector.toJson)]

end ImageSource

end ModelOperator
