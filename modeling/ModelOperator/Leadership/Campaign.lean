import ModelOperator.Leadership.Tenure

/-!
# Campaigns

    A campaign is the run of a candidate against a server in time: rounds at fixed
    intervals until one succeeds, then a tenure until it is lost.  Rounds take no time
    here; only the sleeps between them do.

    * `Candidate.acquire` is when a candidate comes to lead, before a limit;
    * `Candidate.hold` is when it stops to lead, before a limit. -/

namespace ModelOperator

/-- What a candidate meets: a server and a clock that both depend on the time since the
    start. -/
structure Surroundings (σ : Type) where
  serve : Nat → Exchange.Server σ
  clock : Nat → Instant

namespace Candidate

variable {σ : Type}

/-- One round at a time. -/
def roundAt (c : Candidate) (w : Surroundings σ) (time : Nat) (s : σ) :
    Except CallError Bool × σ :=
  (c.round (w.clock time)).run (w.serve time) s

/-- Rounds from a time on, at most as many as given. -/
def acquireFrom (c : Candidate) (w : Surroundings σ) (limit : Nat) :
    Nat → Nat → σ → Option Nat × σ
  | 0, _, s => (none, s)
  | rounds + 1, time, s =>
    if limit ≤ time then (none, s)
    else
      match c.roundAt w time s with
      | (.ok true, after) => (some time, after)
      | (_, after) => acquireFrom c w limit rounds (time + Renewal.retryInterval) after

/-- When the candidate comes to lead; none when it does not before the limit. -/
def acquire (c : Candidate) (w : Surroundings σ) (limit : Nat) (s : σ) : Option Nat × σ :=
  c.acquireFrom w limit (limit / Renewal.retryInterval + 1) 0 s

/-- A tenure from where it stands, for at most as many rounds as given. -/
def holdFrom (c : Candidate) (w : Surroundings σ) (limit : Nat) :
    Nat → Tenure → σ → Option Nat × σ
  | 0, _, s => (none, s)
  | rounds + 1, t, s =>
    if limit ≤ t.wakesAt then (none, s)
    else
      let (result, after) := c.roundAt w t.wakesAt s
      match t.next? (.of result) t.wakesAt with
      | none => (some t.wakesAt, after)
      | some next => holdFrom c w limit rounds next after

/-- When the candidate that leads since a time stops to lead; none when it still leads at
    the limit. -/
def hold (c : Candidate) (w : Surroundings σ) (since limit : Nat) (s : σ) : Option Nat × σ :=
  c.holdFrom w limit ((limit - since) / Renewal.retryInterval + 1) (.start since) s

end Candidate

end ModelOperator
