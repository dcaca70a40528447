import ModelOperator.Bytes.Base64
import ModelOperator.Json.Extent
import ModelOperator.Time.Instant

/-!
# Shapes of cluster objects

    A shape says which documents an API type admits and how they are written again.
    Reading is lenient in one way and strict in another: unknown members are dropped and
    a member that is absent or null takes its default, but a member of the wrong kind,
    or a null among the items of a list, is refused.

    * `Shape.normalize` reads a document and writes it again, in one pass;
    * `Shape.default` is the value of a required member that is not given;
    * `Shape.decoder` reads a document of the shape from a text;
    * `Shape.sorted` says that the members of every record stand in the order of names,
      so that written documents are canonical. -/

namespace ModelOperator

/-- What an API type admits. -/
inductive Shape where
  | any
  | text
  | boolean
  | int32
  | int64
  | intOrText
  | time
  | microTime
  | bytes
  | constant (text : String)
  | list (item : Shape)
  | map (value : Shape)
  | record (name : String) (fields : List (String × Bool × Shape))
  deriving Inhabited

namespace Shape

/-- A member that is left out when it is not set. -/
def may (name : String) (shape : Shape) : String × Bool × Shape := (name, false, shape)

/-- A member that is always written. -/
def must (name : String) (shape : Shape) : String × Bool × Shape := (name, true, shape)

/-- The epoch, which an unset required time stands for. -/
def epoch : Instant := ⟨0, 0, 0⟩

/-- Whether a shape is a constant, for which null is no way to leave it out. -/
def isConstant : Shape → Bool
  | .constant _ => true
  | _ => false

mutual
/-- The value written for a required member that is not set. -/
def default : Shape → Json
  | .any => .null
  | .text => .str ""
  | .boolean => .bool false
  | .int32 => .int 0
  | .int64 => .int 0
  | .intOrText => .int 0
  | .time => .str (epoch.text .none)
  | .microTime => .str (epoch.text .micros)
  | .bytes => .str ""
  | .constant s => .str s
  | .list _ => .arr []
  | .map _ => .obj []
  | .record _ fields => .obj (defaultFields fields)

/-- The required members with their defaults. -/
def defaultFields : List (String × Bool × Shape) → Members
  | [] => []
  | (name, true, s) :: rest => (name, default s) :: defaultFields rest
  | (_, false, _) :: rest => defaultFields rest
end

/-- A time, written again with the fraction of its type. -/
def normalizeTime (f : Fraction) : Reader Json
  | .str s =>
    match Instant.read s with
    | some t => .ok (.str (t.text f))
    | none => .error (.content "input contains invalid characters")
  | v => Mismatch.notA "an RFC 3339 formatted date and time string" v

/-- A whole number of 32 bits or a text. -/
def normalizeIntOrText : Reader Json
  | .int n =>
    if -2147483648 ≤ n ∧ n ≤ 2147483647 then .ok (.int n)
    else .error (.value (Mismatch.describe (.int n)) "a 32-bit integer")
  | .str s => .ok (.str s)
  | v => Mismatch.notA "enum IntOrString" v

/-- A base64 text. -/
def normalizeBytes : Reader Json
  | .str s =>
    match Base64.decodeText s with
    | .ok _ => .ok (.str s)
    | .error fault => .error (.content fault.message)
  | v => Mismatch.notA "base64-encoded string" v

/-- One particular text. -/
def normalizeConstant (expected : String) : Reader Json
  | .str s =>
    if s = expected then .ok (.str s)
    else .error (.value (Mismatch.describe (.str s)) expected)
  | v => Mismatch.notA "a string" v

/-- Each item of a list through a reader; all must succeed. -/
def eachItem (read : Reader Json) : List Json → Reading (List Json)
  | [] => .ok []
  | v :: rest =>
    match read v with
    | .error e => .error e
    | .ok w =>
      match eachItem read rest with
      | .error e => .error e
      | .ok more => .ok (w :: more)

/-- Each member's value through a reader; all must succeed. -/
def eachValue (read : Reader Json) : Members → Reading Members
  | [] => .ok []
  | (k, v) :: rest =>
    match read v with
    | .error e => .error e
    | .ok w =>
      match eachValue read rest with
      | .error e => .error e
      | .ok more => .ok ((k, w) :: more)

mutual
/-- A document of the shape, read and written again. -/
def normalize : Shape → Reader Json
  | .any, v => .ok v
  | .text, v => (Reader.text v).map .str
  | .boolean, v => (Reader.boolean v).map .bool
  | .int32, v => (Reader.int32 v).map .int
  | .int64, v => (Reader.int64 v).map .int
  | .intOrText, v => normalizeIntOrText v
  | .time, v => normalizeTime .none v
  | .microTime, v => normalizeTime .micros v
  | .bytes, v => normalizeBytes v
  | .constant s, v => normalizeConstant s v
  | .list item, .arr items => (eachItem (normalize item) items).map .arr
  | .list _, v => Mismatch.notA "a sequence" v
  | .map value, .obj members => (eachValue (normalize value) members).map .obj
  | .map _, v => Mismatch.notA "a map" v
  | .record _ fields, .obj members => (normalizeFields fields members).map .obj
  | .record name _, v => Mismatch.notA name v

/-- The members of a record, in its order: those given and those required. -/
def normalizeFields : List (String × Bool × Shape) → Members → Reading Members
  | [], _ => .ok []
  | (name, required, s) :: rest, members =>
    let given : Option Json :=
      match Members.get? name members with
      | some .null => if s.isConstant then some .null else none
      | other => other
    match given with
    | none =>
      (normalizeFields rest members).map fun more =>
        if required then (name, default s) :: more else more
    | some v =>
      match normalize s v with
      | .error e => .error e
      | .ok w => (normalizeFields rest members).map fun more => (name, w) :: more
end

mutual
/-- What is looked at of a document of the shape. -/
def extent : Shape → Extent
  | .list item => .items (extent item)
  | .map value => .values (extent value)
  | .record _ fields => .object (extentFields fields)
  | _ => .whole

/-- `extent` of each member of a record. -/
def extentFields : List (String × Bool × Shape) → List (String × Extent)
  | [] => []
  | (name, _, s) :: rest => (name, extent s) :: extentFields rest
end

/-- How a document of the shape is read from a text. -/
def decoder (s : Shape) : Decoder Json := ⟨s.extent, s.normalize⟩

mutual
/-- The members of every record stand in the order of their names. -/
def sorted : Shape → Bool
  | .list item => sorted item
  | .map value => sorted value
  | .record _ fields => sortedFields fields
  | _ => true

/-- `sorted` for the members of a record. -/
def sortedFields : List (String × Bool × Shape) → Bool
  | [] => true
  | (name, _, s) :: rest =>
    sorted s && sortedFields rest &&
    match rest with
    | [] => true
    | (next, _, _) :: _ => decide (name < next)
end

end Shape

end ModelOperator
