import ModelOperator.Leadership.Candidate
import ModelOperator.Duration

/-!
# The time in which a candidate leads

    A leader renews its lease in rounds.  It sleeps before each round: long after a round
    that renewed the lease, shortly after one that failed.  It stops leading when a round
    finds another holder, or when a round fails and the next one could come too late.
    Times are nanoseconds since the start.

    * `Renewal.of` is the outcome of a round for the leader;
    * `Tenure.next?` is the tenure after a round, none when it is over;
    * `Tenure.lostAt` is when a tenure ends under a sequence of rounds. -/

namespace ModelOperator

/-- What a round came to. -/
inductive RoundOutcome where
  | held
  | refused
  | failed
  deriving DecidableEq, Repr

/-- The outcome of a round from its result. -/
def RoundOutcome.of {ε : Type} : Except ε Bool → RoundOutcome
  | .ok true => held
  | .ok false => refused
  | .error _ => failed

/-- What the leader makes of a round. -/
inductive Renewal where
  | renewed
  | retry
  | lost
  deriving DecidableEq, Repr

namespace Renewal

/-- How long a renewal keeps the lease. -/
def leaseTime : Nat := Candidate.leaseSeconds * Duration.second

/-- The sleep after a renewal. -/
def renewInterval : Nat := 10 * Duration.second

/-- The sleep after a failure. -/
def retryInterval : Nat := 5 * Duration.second

/-- What a leader makes of a round that ends some time after the last renewal. -/
def of (outcome : RoundOutcome) (since : Nat) : Renewal :=
  match outcome with
  | .held => renewed
  | .refused => lost
  | .failed => if since + retryInterval < leaseTime then retry else lost

end Renewal

/-- A tenure: when the lease was last renewed, and when the next round begins. -/
structure Tenure where
  renewedAt : Nat
  wakesAt : Nat
  deriving DecidableEq, Repr

namespace Tenure

/-- The tenure that begins at a time. -/
def start (time : Nat) : Tenure := ⟨time, time + Renewal.renewInterval⟩

/-- The tenure after a round that ended at a time; none when it is over. -/
def next? (t : Tenure) (outcome : RoundOutcome) (time : Nat) : Option Tenure :=
  match Renewal.of outcome (time - t.renewedAt) with
  | .renewed => some (start time)
  | .retry => some ⟨t.renewedAt, time + Renewal.retryInterval⟩
  | .lost => none

/-- When the tenure ends under rounds of given outcomes and durations; none while it
    goes on after all of them. -/
def lostAt : Tenure → List (RoundOutcome × Nat) → Option Nat
  | _, [] => none
  | t, (outcome, took) :: rest =>
    match t.next? outcome (t.wakesAt + took) with
    | none => some (t.wakesAt + took)
    | some after => lostAt after rest

end Tenure

end ModelOperator
