import ModelOperator.Cluster.Event
import ModelOperator.Cluster.Exchange
import ModelOperator.Cluster.Shapes.Coordination
import ModelOperator.Time.Instant

/-!
# The event recorder

    A recorder writes events to the cluster.  An event that happens again within six
    minutes is not written anew: the first one gets a series that counts its
    occurrences.  Two events are the same when their type, reason, action and object
    agree; the note does not matter.  A write that fails is forgotten, so the next event
    of its kind starts where this one would have.

    * `Recorder.next` is the publication that an event leads to;
    * `Recorder.publish` writes it and remembers it. -/

namespace ModelOperator

/-- An event as it was written, and how often it has happened since. -/
structure Publication where
  event : Event
  regarding : Json
  name : String
  created : Instant
  series : Option (Nat × Instant) := none

namespace Publication

/-- Nanoseconds since 1970. -/
def clockNanos (t : Instant) : Nat :=
  ((t.day * Instant.daySeconds + t.second) * Duration.second + t.nano).toNat

/-- The name of an event: its object's name and the clock in hexadecimal. -/
def nameAt (object : String) (now : Instant) : String :=
  object ++ "." ++ String.ofList (hexText (clockNanos now))

/-- When the event was last seen. -/
def lastSeen (p : Publication) : Instant := (p.series.map (·.2)).getD p.created

/-- The event once more. -/
def again (p : Publication) (now : Instant) : Publication :=
  { p with series := some ((p.series.map (·.1)).getD 1 + 1, now) }

/-- Whether a publication is of an event on an object. -/
def isOf (p : Publication) (e : Event) (regarding : Json) : Bool :=
  p.event.type == e.type && p.event.reason == e.reason && p.event.action == e.action &&
    p.regarding.same regarding

/-- A text in the reference to the object. -/
def referenceText? (regarding : Json) (name : String) : Option String :=
  (regarding.get? name).bind Json.asText?

/-- The written form, as a controller reports it. -/
def toJson (controller : String) (p : Publication) : Json :=
  let series := p.series.map fun s => Json.ofMembers
    [("count", .int s.1), ("lastObservedTime", .str (s.2.text .micros))]
  let metadata := Json.ofPresent [("name", some (.str p.name)),
    ("namespace", (referenceText? p.regarding "namespace").map .str)]
  .ofPresent [
    ("action", some (.str p.event.action)), ("apiVersion", some (.str "events.k8s.io/v1")),
    ("eventTime", some (.str (p.created.text .micros))), ("kind", some (.str "Event")),
    ("metadata", some metadata), ("note", p.event.note.map .str),
    ("reason", some (.str p.event.reason)), ("regarding", some p.regarding),
    ("reportingController", some (.str controller)),
    ("reportingInstance", some (.str controller)), ("series", series),
    ("type", some (.str p.event.type.text))]

end Publication

/-- A recorder reports in the name of a controller and knows what it has published. -/
structure Recorder where
  controller : String
  published : List Publication := []

namespace Recorder

/-- Seconds after which an event that happens again is a new one. -/
def memorySeconds : Int := 360

/-- Forgets what was last seen too long ago. -/
def forget (r : Recorder) (now : Instant) : Recorder :=
  { r with published :=
    r.published.filter fun p => now.before (p.lastSeen.addSeconds memorySeconds) }

/-- The publication that an event leads to: a repetition, or a first one. -/
def next (r : Recorder) (now : Instant) (e : Event) (regarding : Json) : Publication :=
  match r.published.find? fun p => p.isOf e regarding with
  | some p => p.again now
  | none =>
    let object := (Publication.referenceText? regarding "name").getD r.controller
    ⟨e, regarding, Publication.nameAt object now, now, none⟩

/-- Remembers a publication in the place of an earlier one of the same event. -/
def remember (r : Recorder) (p : Publication) : Recorder :=
  { r with published :=
    p :: r.published.filter fun q => !q.isOf p.event p.regarding }

/-- The request that writes a publication. -/
def request (r : Recorder) (p : Publication) : Except CallError ClusterRequest :=
  let ns := (Publication.referenceText? p.regarding "namespace").getD "default"
  let events := ObjectKind.events.within ns
  match p.series with
  | none => events.createRequest (p.toJson r.controller)
  | some _ => events.patchRequest p.name "" .merge {} (p.toJson r.controller)

/-- Writes an event.  It never fails; a failed write is only not remembered. -/
def publish (r : Recorder) (now : Instant) (e : Event) (regarding : Json) :
    Exchange Recorder := do
  let known := r.forget now
  let p := known.next now e regarding
  match ← Exchange.call (r.request p) Shape.event.decoder with
  | .ok _ => return known.remember p
  | .error _ => return known

end Recorder

end ModelOperator
