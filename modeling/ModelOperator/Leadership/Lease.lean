import ModelOperator.Cluster.Shapes.Coordination
import ModelOperator.Resource.Metadata
import ModelOperator.Time.Instant

/-!
# Leases

    A lease names the candidate that leads and until when: its holder keeps it for a
    number of seconds after the time of the last renewal.  A lease without a holder, or
    one that does not say when it ends, is free.

    * `Lease.decide` is what a candidate does with a lease, or without one;
    * `Lease.isExpired` says whether another candidate may take a lease. -/

namespace ModelOperator

/-- Who holds a lease, and until when. -/
structure LeaseSpec where
  acquireTime : Option Instant := none
  holder : Option String := none
  durationSeconds : Option Int := none
  transitions : Option Int := none
  preferredHolder : Option String := none
  renewTime : Option Instant := none
  strategy : Option String := none
  deriving DecidableEq, Repr

/-- A lease. -/
structure Lease where
  metadata : Metadata := {}
  spec : Option LeaseSpec := none

/-- What a candidate does with a lease. -/
inductive LeaseAction where
  | create
  | renew
  | takeOver (transitions : Int)
  | wait
  deriving DecidableEq, Repr

namespace LeaseSpec

/-- The specification in a document of its shape. -/
def ofJson (v : Json) : LeaseSpec :=
  let text (name : String) := (v.get? name).bind Json.asText?
  let time (name : String) := (text name).bind Instant.read
  let number (name : String) := (v.get? name).bind Json.asInt?
  { acquireTime := time "acquireTime"
    holder := text "holderIdentity"
    durationSeconds := number "leaseDurationSeconds"
    transitions := number "leaseTransitions"
    preferredHolder := text "preferredHolder"
    renewTime := time "renewTime"
    strategy := text "strategy" }

/-- The wire form. -/
def toJson (s : LeaseSpec) : Json :=
  let time (t : Option Instant) := t.map fun t => Json.str (t.text .micros)
  .ofPresent [
    ("acquireTime", time s.acquireTime), ("holderIdentity", s.holder.map .str),
    ("leaseDurationSeconds", s.durationSeconds.map .int),
    ("leaseTransitions", s.transitions.map .int),
    ("preferredHolder", s.preferredHolder.map .str), ("renewTime", time s.renewTime),
    ("strategy", s.strategy.map .str)]

/-- When the holder loses the lease, if the lease says so. -/
def ends? (s : LeaseSpec) : Option Instant := do
  let renewed ← s.renewTime
  let seconds ← s.durationSeconds
  return renewed.addSeconds seconds

end LeaseSpec

namespace Lease

/-- Reads a lease. -/
def read : Reader Lease := fun v => do
  let _ ← Shape.lease.normalize v
  let metadata ← match v.get? "metadata" with
    | none | some .null => .ok {}
    | some m => Metadata.read m
  let spec := match v.get? "spec" with
    | none | some .null => none
    | some s => some (LeaseSpec.ofJson s)
  .ok ⟨metadata, spec⟩

/-- How a lease is read from a text. -/
def decoder : Decoder Lease := ⟨Shape.lease.extent, read⟩

/-- The wire form. -/
def toJson (l : Lease) : Json :=
  .ofPresent [
    ("apiVersion", some (.str "coordination.k8s.io/v1")), ("kind", some (.str "Lease")),
    ("metadata", some l.metadata.toJson), ("spec", l.spec.map LeaseSpec.toJson)]

/-- The holder of a lease. -/
def holder? (l : Lease) : Option String := l.spec.bind LeaseSpec.holder

/-- When the holder loses the lease, if the lease says so. -/
def ends? (l : Lease) : Option Instant := l.spec.bind LeaseSpec.ends?

/-- How often the lease has changed hands. -/
def transitions (l : Lease) : Int := (l.spec.bind LeaseSpec.transitions).getD 0

/-- Whether a candidate holds the lease. -/
def isHeldBy (l : Lease) (identity : String) : Bool := l.holder? == some identity

/-- Whether another than the holder may take the lease. -/
def isExpired (l : Lease) (now : Instant) : Bool :=
  match l.holder? with
  | none => true
  | some holder =>
    holder == "" ||
      match l.ends? with
      | none => true
      | some ends => ends.before now

/-- What a candidate does with the lease that it finds, or with none. -/
def decide (identity : String) (now : Instant) : Option Lease → LeaseAction
  | none => .create
  | some l =>
    if l.isHeldBy identity then .renew
    else if l.isExpired now then .takeOver l.transitions
    else .wait

/-- The lease with a new time of renewal. -/
def renewed (l : Lease) (now : Instant) : Lease :=
  { l with spec := l.spec.map fun s => { s with renewTime := some now } }

end Lease

end ModelOperator
