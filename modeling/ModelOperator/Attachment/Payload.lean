import ModelOperator.Bytes.Base64
import ModelOperator.Compression.Gzip
import ModelOperator.Compression.Zstd.Frame
import ModelOperator.Resource.Image
import ModelOperator.Text.Blank

/-!
# The bytes of an image document

    The payload is base64 with blanks around it; under it lie the bytes of the image,
    compressed as the document says. -/

namespace ModelOperator

/-- Why an image document gives no bytes. -/
inductive PayloadFault where
  | base64 (fault : Base64.Fault)
  | compression (format : ImageFormat)
  deriving DecidableEq, Repr

/-- The message of a fault.  `detail` is what the library says that unpacks the bytes, if it is
    the one to refuse. -/
def PayloadFault.message (fault : PayloadFault) (detail : String := "corrupt bytes") : String :=
  match fault with
  | .base64 fault => s!"failed to decode image in base64: {fault.message}"
  | .compression format => s!"while decompressing image encoded in {format.text}: {detail}"

/-- What compressed bytes unpack to. -/
def ImageFormat.unpack : ImageFormat → List UInt8 → Option (List UInt8)
  | .plain, bytes => some bytes
  | .gzip, bytes => Compression.Gzip.decode bytes
  | .zstd, bytes => Compression.Zstd.decode bytes

/-- The bytes of an image. -/
def ImageData.bytes (image : ImageData) : Except PayloadFault (List UInt8) :=
  match Base64.decodeText (trimText image.data) with
  | .error fault => .error (.base64 fault)
  | .ok packed =>
    match image.format.unpack packed with
    | none => .error (.compression image.format)
    | some bytes => .ok bytes

end ModelOperator
