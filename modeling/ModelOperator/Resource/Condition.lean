import ModelOperator.Json.Extent
import ModelOperator.Time.Instant

/-!
# Conditions

    A condition says whether one aspect of a resource holds, why, since when, and for
    which generation.  The operator reports two: `Synced` tells whether the last pass
    ended well, `Ready` whether the resource can be used.

    * `Condition.equivalent` compares all but time and generation;
    * `Condition.read` and `Condition.toJson` are the wire form. -/

namespace ModelOperator

/-- Whether a condition holds. -/
inductive Truth where
  | holds
  | fails
  | unknown
  deriving DecidableEq, Repr

namespace Truth

/-- The word of a status. -/
def text : Truth → String
  | holds => "True"
  | fails => "False"
  | unknown => "Unknown"

/-- The words and what they mean. -/
def words : List (String × Truth) := [("True", holds), ("False", fails), ("Unknown", unknown)]

end Truth

/-- A condition of a resource. -/
structure Condition where
  type : String
  status : Truth
  reason : String
  message : String
  since : Instant
  generation : Int
  deriving DecidableEq, Repr

namespace Condition

/-- The type that tells whether the last pass ended well. -/
def syncedType : String := "Synced"

/-- The type that tells whether the resource can be used. -/
def readyType : String := "Ready"

/-- The last pass ended well. -/
def reconcileSuccess (now : Instant) : Condition :=
  ⟨syncedType, .holds, "ReconcileSuccess", "", now, 0⟩

/-- The last pass failed. -/
def reconcileError (now : Instant) (message : String) : Condition :=
  ⟨syncedType, .fails, "ReconcileError", message, now, 0⟩

/-- The resource can be used. -/
def available (now : Instant) : Condition := ⟨readyType, .holds, "Available", "", now, 0⟩

/-- The resource cannot be used. -/
def unavailable (now : Instant) (message : String) : Condition :=
  ⟨readyType, .fails, "Unavailable", message, now, 0⟩

/-- The resource is being made. -/
def creating (now : Instant) (message : String) : Condition :=
  ⟨readyType, .fails, "Creating", message, now, 0⟩

/-- Equal but for time and generation. -/
def equivalent (a b : Condition) : Bool :=
  a.type == b.type && a.status == b.status && a.reason == b.reason && a.message == b.message

/-- Whether the condition holds. -/
def isTrue (c : Condition) : Bool := c.status == .holds

/-- Reads an instant. -/
def readInstant : Reader Instant
  | .str s =>
    match Instant.read s with
    | some t => .ok t
    | none => .error (.content "input contains invalid characters")
  | v => Mismatch.notA "an RFC 3339 formatted date and time string" v

/-- Reads a condition. -/
def read : Reader Condition := fun v => do
  let r ← Record.of "Condition" 6 v
  let type ← r.required 0 "type" Reader.text
  let status ← r.required 1 "status" (Reader.word Truth.words)
  let reason ← r.required 2 "reason" Reader.text
  let message ← r.defaulted 3 "message" Reader.text ""
  let since ← r.required 4 "lastTransitionTime" readInstant
  let generation ← r.defaulted 5 "observedGeneration" Reader.int64 0
  .ok ⟨type, status, reason, message, since, generation⟩

/-- What is looked at of a condition. -/
def extent : Extent :=
  .plain ["type", "status", "reason", "message", "lastTransitionTime", "observedGeneration"]

/-- The wire form; an empty message and a zero generation are left out. -/
def toJson (c : Condition) : Json :=
  .ofPresent [("type", some (.str c.type)), ("status", some (.str c.status.text)),
    ("reason", some (.str c.reason)),
    ("message", if c.message = "" then none else some (.str c.message)),
    ("lastTransitionTime", some (.str (c.since.text .shortest))),
    ("observedGeneration", if c.generation = 0 then none else some (.int c.generation))]

end Condition

end ModelOperator
