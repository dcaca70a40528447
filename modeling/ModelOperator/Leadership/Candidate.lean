import ModelOperator.Cluster.Exchange
import ModelOperator.Leadership.Lease
import ModelOperator.Resource.Naming

/-!
# Candidates for leadership

    Candidates compete for a lease in rounds.  A round has two halves: it reads the
    lease, and then it writes what the lease that it read allows.  Every write carries
    the version that was read, so of two candidates that read the same lease the second
    to write is refused.

    * `Candidate.fetch` and `Candidate.write` are the halves of a round;
    * `Candidate.round` is a round: whether the candidate leads after it;
    * `Candidate.release` gives the lease up, in the halves `fetch` and `clear`. -/

namespace ModelOperator

/-- A candidate for a lease, by the identity under which it holds it. -/
structure Candidate where
  lease : String
  ns : String
  identity : String
  deriving DecidableEq, Repr

/-- The name of the operator's lease. -/
def operatorLease : String := "ollama-operator-leader"

namespace Candidate

/-- Seconds for which a renewal keeps the lease. -/
def leaseSeconds : Nat := 30

/-- The leases among which the candidate's is. -/
def leases (c : Candidate) : Collection := ObjectKind.leases.within c.ns

/-- One more change of hands, counted in 32 bits. -/
def nextTransition (n : Int) : Int := (n + 1).bmod 4294967296

/-- The lease held by the candidate from now on. -/
def freshLease (c : Candidate) (version : Option String) (now : Instant) (transitions : Int) :
    Lease where
  metadata := ⟨present [("name", some (.str c.lease)), ("namespace", some (.str c.ns)),
    ("resourceVersion", version.map .str)]⟩
  spec := some {
    acquireTime := some now
    holder := some c.identity
    durationSeconds := some leaseSeconds
    transitions := some transitions
    renewTime := some now }

/-- Reads the lease; none when there is no such lease. -/
def fetch (c : Candidate) : Exchange (Except CallError (Option Lease)) := do
  match ← Exchange.call (c.leases.getRequest c.lease) Lease.decoder with
  | .ok l => return .ok (some l)
  | .error e => return if e.isNotFound then .ok none else .error e

/-- The request that a candidate sends after what it read; none when it has to wait. -/
def writeRequest (c : Candidate) (now : Instant) (found : Option Lease) :
    Option (Except CallError ClusterRequest) :=
  match Lease.decide c.identity now found with
  | .wait => none
  | .create => some (c.leases.createRequest (c.freshLease none now 0).toJson)
  | .renew =>
    let renewed := (found.getD {}).renewed now
    some (c.leases.replaceRequest c.lease renewed.toJson)
  | .takeOver transitions =>
    let version := found.bind fun l => l.metadata.resourceVersion?
    let taken := c.freshLease version now (nextTransition transitions)
    some (c.leases.replaceRequest c.lease taken.toJson)

/-- Whether the candidate leads after its write; a conflict says that another does. -/
def leadsAfter : Except CallError Lease → Except CallError Bool
  | .ok _ => .ok true
  | .error e => if e.isConflict then .ok false else .error e

/-- Writes the lease as what was read allows. -/
def write (c : Candidate) (now : Instant) (found : Option Lease) :
    Exchange (Except CallError Bool) :=
  match c.writeRequest now found with
  | none => return .ok false
  | some request => do return leadsAfter (← Exchange.call request Lease.decoder)

/-- A round at a reading of the clock: whether the candidate leads after it. -/
def round (c : Candidate) (now : Instant) : Exchange (Except CallError Bool) := do
  match ← c.fetch with
  | .error e => return .error e
  | .ok found => c.write now found

/-- The patch that takes the holder out of a lease. -/
def withoutHolder : Json := .obj [("spec", .obj [("holderIdentity", .null)])]

/-- Takes the candidate out of the lease that was read, if it is the holder. -/
def clear (c : Candidate) : Option Lease → Exchange (Except CallError Unit)
  | none => return .ok ()
  | some l =>
    if l.isHeldBy c.identity then do
      let done ← Exchange.call
        (c.leases.patchRequest c.lease "" .merge ⟨some Naming.fieldManager, false⟩ withoutHolder)
        Lease.decoder
      return done.map fun _ => ()
    else return .ok ()

/-- Gives the lease up, so that another candidate need not wait for its end. -/
def release (c : Candidate) : Exchange (Except CallError Unit) := do
  match ← c.fetch with
  | .error e => return .error e
  | .ok found => c.clear found

end Candidate

end ModelOperator
