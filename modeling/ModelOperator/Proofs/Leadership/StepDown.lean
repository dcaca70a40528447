import Mathlib
import ModelOperator.Leadership.Campaign
import ModelOperator.Proofs.Leadership.LeaseStore
import ModelOperator.Proofs.Time.InstantText

/-!
# Leading beyond the end of a lease

    A leader that cannot renew its lease should stop leading before another candidate may
    take the lease.  The renewal loop gives up five seconds before thirty have passed since
    the last renewal, but it measures this from the end of the call that renewed, where the
    lease names its beginning, it lets the next call take any time, and it does not ask for
    how long the lease that it renews is good.

    The loop is followed call by call (`Tenure.calls`).  Between two calls all that counts is
    when the lease was last written, how long calls took since, and how many failed
    (`Stretch`); the loop keeps in step with them (`Stretch.Follows`).

    * `Instant.clock` is a clock that runs steadily;
    * `Candidate.Wrote` says what others read after a write, `Candidate.Wrote.isExpired` until
      when;
    * `Stretch.Follows.step` is what one call preserves, `Stretch.follows_of_calls` what a
      whole tenure does;
    * `Tenure.leads_within_lease_iff` says exactly when a leader leads on a lease that others
      may take, and `Tenure.leads_within_lease` that short calls keep it from that;
    * `Candidate.lostAt_of_holdFrom` says that campaigns are tenures with instant calls. -/

namespace ModelOperator

/-! ## A steady clock -/

namespace Instant

/-- The instant a number of nanoseconds after the epoch. -/
def ofNanos (n : Int) : Instant where
  day := n / 86400000000000
  second := (n / 1000000000 % 86400).toNat
  nano := (n % 1000000000).toNat

/-- Instants compare as their nanoseconds do. -/
theorem before_ofNanos (n m : Int) : (ofNanos n).before (ofNanos m) = true ↔ n < m := by
  rw [before]
  simp only [Bool.or_eq_true, Bool.and_eq_true, decide_eq_true_iff, beq_iff_eq]
  simp only [ofNanos]
  omega

/-- Seconds are added to the nanoseconds. -/
theorem addSeconds_ofNanos (n seconds : Int) :
    (ofNanos n).addSeconds seconds = ofNanos (n + seconds * 1000000000) := by
  simp only [addSeconds, ofNanos, daySeconds]
  rw [Int.fdiv_eq_ediv_of_nonneg _ (by decide), Int.fmod_eq_emod_of_nonneg _ (by decide)]
  congr 1 <;> omega

/-- The text of a time in microseconds leaves out what is below one. -/
theorem kept_micros_ofNanos (n : Int) : (ofNanos n).kept .micros = ofNanos (n - n % 1000) := by
  have hnano : (ofNanos n).nano < Duration.second := by
    show (n % 1000000000).toNat < 1000000000
    omega
  rw [kept, if_neg (Nat.not_le.mpr hnano)]
  simp only [ofNanos, Fraction.kept]
  congr 1 <;> omega

/-- A clock that runs steadily, by the nanoseconds since the epoch that it shows at the start. -/
def clock (origin : Int) (time : Nat) : Instant := ofNanos (origin + time)

end Instant

/-! ## The lease that others read -/

/-- A specification tells who holds a lease, for how long, and since when. -/
structure LeaseSpec.Tells (spec : LeaseSpec) (identity : String) (seconds : Int)
    (renewed : Instant) : Prop where
  holder : spec.holder = some identity
  seconds : spec.durationSeconds = some seconds
  renewed : spec.renewTime = some renewed

namespace Candidate

variable {c : Candidate} {now : Instant} {seconds : Int} {seen : Lease}

/-- The seconds that the written lease is good for: those of the lease that was read when the
    candidate held it, and its own otherwise. -/
def statedSeconds (c : Candidate) : Option Lease → Option Int
  | none => some leaseSeconds
  | some l =>
    if l.isHeldBy c.identity then l.spec.bind LeaseSpec.durationSeconds else some leaseSeconds

/-- What others read after a write of the candidate at a reading of the clock. -/
structure Wrote (c : Candidate) (now : Instant) (seconds : Int) (seen : Lease) : Prop where
  named : c.identity ≠ ""
  valid : now.Valid
  written : ∃ s after found lease, c.Lands now s after found ∧
    c.statedSeconds found = some seconds ∧ after.current = some lease ∧
    Lease.read lease.document = .ok seen

/-- A lease that was stored tells others what it told, but for the part of the time that its
    text leaves out. -/
theorem tells_of_stores {s after : LeaseStore} {l : Lease} {lease : StoredLease}
    {spec : LeaseSpec} (hstored : s.Stores l.toJson after) (hcurrent : after.current = some lease)
    (hread : Lease.read lease.document = .ok seen) (hvalid : now.Valid)
    (hspec : l.spec = some spec) (h : spec.Tells c.identity seconds now) :
    ∃ told, seen.spec = some told ∧ told.Tells c.identity seconds (now.kept .micros) := by
  obtain ⟨stored, hstored, hsame, -, -⟩ := hstored
  cases hcurrent.symm.trans hstored
  have hseen : seen.spec = some (LeaseSpec.ofJson spec.toJson) := by
    rw [Lease.spec_of_read hread, show Lease.specIn lease.document = _ from hsame,
      Lease.specIn_toJson, hspec]
    rfl
  refine ⟨_, hseen, ?_, ?_, ?_⟩
  · rw [LeaseSpec.holder_ofJson_toJson]
    exact h.holder
  · rw [LeaseSpec.durationSeconds_ofJson_toJson]
    exact h.seconds
  · rw [LeaseSpec.renewTime_ofJson_toJson, h.renewed, Option.bind_some]
    exact Instant.read_text_kept hvalid .micros

/-- **What a write tells.**  Others read that the candidate holds the lease, for how long, and
    since when. -/
theorem Wrote.tells (h : c.Wrote now seconds seen) :
    ∃ told, seen.spec = some told ∧ told.Tells c.identity seconds (now.kept .micros) := by
  obtain ⟨-, hvalid, s, after, found, lease, hlands, hseconds, hcurrent, hread⟩ := h
  cases hlands with
  | created _ hstored =>
      exact tells_of_stores hstored hcurrent hread hvalid rfl ⟨rfl, hseconds, rfl⟩
  | @renewed l _ _ _ hheld hstored =>
      -- a lease that is renewed keeps the seconds that it had
      rw [statedSeconds, if_pos hheld] at hseconds
      obtain ⟨spec, hspec, hduration⟩ := Option.bind_eq_some_iff.mp hseconds
      have hholder : spec.holder = some c.identity := by
        have hheld := beq_iff_eq.mp hheld
        rwa [Lease.holder?, hspec] at hheld
      have hrenewed : (l.renewed now).spec = some { spec with renewTime := some now } := by
        rw [Lease.renewed, hspec]
        rfl
      exact tells_of_stores hstored hcurrent hread hvalid hrenewed ⟨hholder, hduration, rfl⟩
  | taken _ _ hheld _ hstored =>
      rw [statedSeconds, if_neg (by rw [hheld]; exact Bool.false_ne_true)] at hseconds
      exact tells_of_stores hstored hcurrent hread hvalid rfl ⟨rfl, hseconds, rfl⟩

/-- Others may take the lease when its seconds have passed since the time that was written. -/
theorem Wrote.isExpired (h : c.Wrote now seconds seen) (time : Instant) :
    seen.isExpired time = ((now.kept .micros).addSeconds seconds).before time := by
  obtain ⟨told, hspec, htells⟩ := h.tells
  have hends : told.ends? = some ((now.kept .micros).addSeconds seconds) := by
    rw [LeaseSpec.ends?, htells.renewed, htells.seconds]
    rfl
  have hnamed : (c.identity == "") = false := beq_eq_false_iff_ne.mpr h.named
  simp only [Lease.isExpired, Lease.holder?, Lease.ends?, hspec, Option.bind_some, htells.holder,
    hends, hnamed, Bool.false_or]

/-- On a steady clock the lease is the candidate's for its seconds, from the microsecond that
    the text of the time names. -/
theorem Wrote.valid_up_to_iff {origin : Int} {written : Nat}
    (h : c.Wrote (.clock origin written) seconds seen) (last : Nat) :
    (∀ time ≤ last, seen.isExpired (.clock origin time) = false) ↔
      last + (origin + written) % 1000 ≤ written + seconds * 1000000000 := by
  have hexpired : ∀ time, seen.isExpired (.clock origin time) = false ↔
      time + (origin + written) % 1000 ≤ written + seconds * 1000000000 := by
    intro time
    rw [h.isExpired, Instant.clock, Instant.clock, Instant.kept_micros_ofNanos,
      Instant.addSeconds_ofNanos, ← Bool.not_eq_true, Instant.before_ofNanos, Int.not_lt]
    omega
  constructor
  · intro hvalid
    exact (hexpired last).mp (hvalid last (Nat.le_refl last))
  · intro hend time htime
    exact (hexpired time).mpr (by omega)

end Candidate

/-! ## The calls of a tenure -/

/-- A call that a leader makes: what it came to, when it began and how long it took. -/
structure LeaseCall where
  outcome : RoundOutcome
  start : Nat
  took : Nat
  deriving DecidableEq, Repr

/-- The end of a call. -/
def LeaseCall.stop (call : LeaseCall) : Nat := call.start + call.took

/-- The calls that a tenure makes under rounds of given outcomes and durations. -/
def Tenure.calls : Tenure → List (RoundOutcome × Nat) → List LeaseCall
  | _, [] => []
  | t, (outcome, took) :: rest =>
    ⟨outcome, t.wakesAt, took⟩ ::
      match t.next? outcome (t.wakesAt + took) with
      | none => []
      | some after => after.calls rest

namespace Tenure

theorem next?_held (t : Tenure) (time : Nat) : t.next? .held time = some (start time) := rfl

theorem next?_refused (t : Tenure) (time : Nat) : t.next? .refused time = none := rfl

/-- After a failure a tenure goes on when the next call can begin in time. -/
theorem next?_failed_iff {t later : Tenure} {time : Nat} :
    t.next? .failed time = some later ↔
      time - t.renewedAt + Renewal.retryInterval < Renewal.leaseTime ∧
        ⟨t.renewedAt, time + Renewal.retryInterval⟩ = later := by
  rw [next?, Renewal.of]
  by_cases hearly : time - t.renewedAt + Renewal.retryInterval < Renewal.leaseTime
  · simp [hearly]
  · simp [hearly]

end Tenure

/-- What has happened since the lease was last written: when that was, how long calls took
    since, the one that wrote included, and how many failed. -/
structure Stretch where
  writtenAt : Nat
  callTime : Nat
  failures : Nat
  deriving DecidableEq, Repr

namespace Stretch

/-- The stretch that begins with a call. -/
def begun (call : LeaseCall) : Stretch := ⟨call.start, call.took, 0⟩

/-- The stretch after one more call. -/
def after (s : Stretch) (call : LeaseCall) : Stretch :=
  if call.outcome = .held then begun call
  else ⟨s.writtenAt, s.callTime + call.took, s.failures + 1⟩

/-- The stretch after the calls of a tenure, behind the call that acquired the lease. -/
def through (acquired : LeaseCall) (calls : List LeaseCall) : Stretch :=
  calls.foldl after (begun acquired)

/-- How long after the write the next call ends: by the time that calls take, and by the
    sleeps, of which the first is as long as two. -/
def span (s : Stretch) (call : LeaseCall) : Nat :=
  s.callTime + call.took + (s.failures + 2) * Renewal.retryInterval

/-- A tenure in step with a stretch.  It wakes after the calls and the sleeps, and after a
    failure it wakes early enough by its own measure. -/
structure Follows (s : Stretch) (t : Tenure) : Prop where
  wakes : t.wakesAt = s.writtenAt + s.callTime + (s.failures + 2) * Renewal.retryInterval
  slept : t.renewedAt + (s.failures + 2) * Renewal.retryInterval ≤ t.wakesAt
  early : s.failures = 0 ∨ t.wakesAt < t.renewedAt + Renewal.leaseTime

variable {s : Stretch} {t later : Tenure}

theorem renewInterval_eq : Renewal.renewInterval = 10000000000 := rfl

theorem retryInterval_eq : Renewal.retryInterval = 5000000000 := rfl

theorem leaseTime_eq : Renewal.leaseTime = 30000000000 := rfl

/-- Thirty seconds have room for three failures. -/
theorem Follows.few (h : s.Follows t) : s.failures ≤ 3 := by
  have hslept := h.slept
  rw [retryInterval_eq] at hslept
  rcases h.early with hnone | hearly
  · omega
  · rw [leaseTime_eq] at hearly
    omega

/-- A tenure begins in step with the call that acquired the lease. -/
theorem follows_begun (call : LeaseCall) : (begun call).Follows (.start call.stop) := by
  have hsleep : Renewal.renewInterval = (0 + 2) * Renewal.retryInterval := by
    rw [renewInterval_eq, retryInterval_eq]
  constructor
  · show call.start + call.took + Renewal.renewInterval = _
    rw [hsleep]
    rfl
  · show call.start + call.took + _ ≤ call.start + call.took + Renewal.renewInterval
    rw [hsleep]
    exact Nat.le_refl _
  · exact Or.inl rfl

/-- **One call** keeps a tenure in step, if it does not end it. -/
theorem Follows.step (h : s.Follows t) {outcome : RoundOutcome} {took : Nat}
    (hnext : t.next? outcome (t.wakesAt + took) = some later) :
    (s.after ⟨outcome, t.wakesAt, took⟩).Follows later := by
  cases outcome with
  | held =>
      rw [Tenure.next?_held] at hnext
      obtain rfl := Option.some.inj hnext
      exact follows_begun ⟨.held, t.wakesAt, took⟩
  | refused =>
      rw [Tenure.next?_refused] at hnext
      cases hnext
  | failed =>
      rw [Tenure.next?_failed_iff] at hnext
      obtain ⟨hearly, rfl⟩ := hnext
      have hwakes := h.wakes
      have hslept := h.slept
      have hsleeps : (s.failures + 1 + 2) * Renewal.retryInterval =
          (s.failures + 2) * Renewal.retryInterval + Renewal.retryInterval := by
        rw [Nat.add_right_comm, Nat.succ_mul]
      constructor
      · show t.wakesAt + took + Renewal.retryInterval = s.writtenAt + (s.callTime + took) +
          (s.failures + 1 + 2) * Renewal.retryInterval
        omega
      · show t.renewedAt + (s.failures + 1 + 2) * Renewal.retryInterval ≤
          t.wakesAt + took + Renewal.retryInterval
        omega
      · right
        show t.wakesAt + took + Renewal.retryInterval < t.renewedAt + Renewal.leaseTime
        omega

/-- **A whole tenure** is in step before each of its calls. -/
theorem follows_of_calls {rounds : List (RoundOutcome × Nat)} (h : s.Follows t)
    {earlier later : List LeaseCall} {call : LeaseCall}
    (hcalls : t.calls rounds = earlier ++ call :: later) :
    ∃ before, (earlier.foldl after s).Follows before ∧ call.start = before.wakesAt := by
  induction rounds generalizing s t earlier with
  | nil =>
      rw [Tenure.calls] at hcalls
      exact absurd hcalls.symm (by simp)
  | cons round rest ih =>
      obtain ⟨outcome, took⟩ := round
      rw [Tenure.calls] at hcalls
      cases earlier with
      | nil =>
          cases hcalls
          exact ⟨t, h, rfl⟩
      | cons first earlier =>
          obtain ⟨rfl, htail⟩ := List.cons.inj hcalls
          cases hnext : t.next? outcome (t.wakesAt + took) with
          | none =>
              rw [hnext] at htail
              exact absurd htail.symm (by simp)
          | some after =>
              rw [hnext] at htail
              exact ih (h.step hnext) htail

/-- Failures in a row end a tenure, no more than four of them. -/
theorem exists_lostAt_of_failing {failing : List (RoundOutcome × Nat)} (h : s.Follows t)
    (hfailed : ∀ round ∈ failing, round.1 = .failed) (hmany : 4 ≤ s.failures + failing.length) :
    ∃ lost, t.lostAt failing = some lost := by
  induction failing generalizing s t with
  | nil =>
      have := h.few
      rw [List.length_nil] at hmany
      omega
  | cons round rest ih =>
      obtain ⟨outcome, took⟩ := round
      have houtcome : outcome = .failed := hfailed _ List.mem_cons_self
      subst houtcome
      rw [Tenure.lostAt]
      cases hnext : t.next? .failed (t.wakesAt + took) with
      | none => exact ⟨_, rfl⟩
      | some after =>
          refine ih (h.step hnext)
            (fun round hround => hfailed round (List.mem_cons_of_mem _ hround)) ?_
          rw [List.length_cons] at hmany
          show 4 ≤ s.failures + 1 + rest.length
          omega

/-- So they do whatever came before. -/
theorem exists_lostAt {rounds failing : List (RoundOutcome × Nat)} (h : s.Follows t)
    (hfailed : ∀ round ∈ failing, round.1 = .failed) (hmany : 4 ≤ failing.length) :
    ∃ lost, t.lostAt (rounds ++ failing) = some lost := by
  induction rounds generalizing s t with
  | nil => exact exists_lostAt_of_failing h hfailed (Nat.le_trans hmany (Nat.le_add_left _ _))
  | cons round rest ih =>
      obtain ⟨outcome, took⟩ := round
      rw [List.cons_append, Tenure.lostAt]
      cases hnext : t.next? outcome (t.wakesAt + took) with
      | none => exact ⟨_, rfl⟩
      | some after => exact ih (h.step hnext)

end Stretch

namespace Tenure

open Stretch

/-- A tenure is over when its last call is. -/
theorem stop_of_lostAt {t : Tenure} {rounds : List (RoundOutcome × Nat)} {lost : Nat}
    (h : t.lostAt rounds = some lost) :
    ∃ earlier last, t.calls rounds = earlier ++ [last] ∧ last.stop = lost := by
  induction rounds generalizing t with
  | nil => cases h
  | cons round rest ih =>
      obtain ⟨outcome, took⟩ := round
      rw [lostAt] at h
      rw [calls]
      cases hnext : t.next? outcome (t.wakesAt + took) with
      | none =>
          rw [hnext] at h
          exact ⟨[], _, rfl, Option.some.inj h⟩
      | some after =>
          rw [hnext] at h
          obtain ⟨earlier, last, hcalls, hstop⟩ := ih h
          exact ⟨_ :: earlier, last, congrArg _ hcalls, hstop⟩

/-- Every call ends as long after the last write as calls and sleeps take. -/
theorem stop_of_calls {acquired call : LeaseCall} {rounds : List (RoundOutcome × Nat)}
    {earlier later : List LeaseCall}
    (h : (start acquired.stop).calls rounds = earlier ++ call :: later) :
    (through acquired earlier).failures ≤ 3 ∧
      call.stop = (through acquired earlier).writtenAt + (through acquired earlier).span call := by
  obtain ⟨t, hfollows, hstart⟩ := follows_of_calls (follows_begun acquired) h
  refine ⟨hfollows.few, ?_⟩
  rw [LeaseCall.stop, hstart, hfollows.wakes, span, through]
  omega

/-- **Leading within the lease.**  A tenure ends under four failures in a row at the latest, and
    what it takes from the last write to its end are the calls since, that one included, and
    the sleeps between them.  During each call the lease that was last written is one that
    nobody else may take, exactly if those calls and sleeps take no longer than the lease is
    good for, counted from the microsecond that its text names. -/
theorem leads_within_lease_iff (origin : Int) (c : Candidate) (acquired : LeaseCall)
    (rounds : List (RoundOutcome × Nat)) :
    (∀ failing : List (RoundOutcome × Nat), (∀ round ∈ failing, round.1 = .failed) →
      4 ≤ failing.length → ∃ lost, (start acquired.stop).lostAt (rounds ++ failing) = some lost) ∧
    (∀ lost, (start acquired.stop).lostAt rounds = some lost →
      ∃ earlier last, (start acquired.stop).calls rounds = earlier ++ [last] ∧ lost = last.stop ∧
        (through acquired earlier).failures ≤ 3 ∧
        lost = (through acquired earlier).writtenAt + (through acquired earlier).span last) ∧
    ∀ earlier call later, (start acquired.stop).calls rounds = earlier ++ call :: later →
      ∀ seconds seen, c.Wrote (.clock origin (through acquired earlier).writtenAt) seconds seen →
        ((∀ time ≤ call.stop, seen.isExpired (.clock origin time) = false) ↔
          (through acquired earlier).span call +
              (origin + (through acquired earlier).writtenAt) % 1000 ≤ seconds * 1000000000) := by
  refine ⟨fun failing hfailed hmany => exists_lostAt (follows_begun acquired) hfailed hmany, ?_, ?_⟩
  · intro lost hlost
    obtain ⟨earlier, last, hcalls, rfl⟩ := stop_of_lostAt hlost
    obtain ⟨hfew, hstop⟩ := stop_of_calls hcalls
    exact ⟨earlier, last, hcalls, rfl, hfew, hstop⟩
  · intro earlier call later hcalls seconds seen hwrote
    obtain ⟨-, hstop⟩ := stop_of_calls hcalls
    rw [hwrote.valid_up_to_iff, hstop]
    push_cast
    omega

/-! ## A lease that is outlived -/

/-- A lease that a pod has held since the epoch, for some seconds. -/
def podLease (seconds : Int) (version : String) : Lease where
  metadata := ⟨[("resourceVersion", .str version)]⟩
  spec := some {
    holder := some "pod-a"
    durationSeconds := some seconds
    renewTime := some (.clock 0 0) }

/-- The candidate of that pod. -/
def podCandidate : Candidate := ⟨operatorLease, "default", "pod-a"⟩

/-- A server that keeps a lease of the pod, and has kept it under the given versions. -/
def podStore (seconds : Int) (version : String) (older : List String) : LeaseStore where
  current := some ⟨(podLease seconds version).toJson, version, by
    rw [Lease.versionIn_toJson]
    rfl⟩
  issued := version :: older
  current_issued := by
    intro lease h
    cases h
    exact List.mem_cons_self

/-- The pod renews its lease, and others read it. -/
theorem wrote_podLease {seconds : Int}
    (hread : Lease.read (podLease seconds "8").toJson = .ok (podLease seconds "8")) :
    podCandidate.Wrote (.clock 0 0) seconds (podLease seconds "8") := by
  have hstored : (podStore seconds "7" []).Stores
      ((podLease seconds "7").renewed (.clock 0 0)).toJson (podStore seconds "8" ["7"]) := by
    refine ⟨_, rfl, ?_, by show "8" ∉ ["7"]; decide, rfl⟩
    show Lease.specIn (podLease seconds "8").toJson = _
    rw [Lease.specIn_toJson, Lease.specIn_toJson]
    rfl
  refine ⟨by decide, ⟨by decide +kernel, by decide, by decide⟩, podStore seconds "7" [],
    podStore seconds "8" ["7"], some (podLease seconds "7"), _, ?_, rfl, rfl, hread⟩
  exact .renewed rfl rfl rfl hstored

/-- A pod leads when its lease is over: behind one failed call of twenty-one seconds, and behind
    four that take no time if it renews a lease of fifteen seconds. -/
theorem leads_after_lease :
    podCandidate.Wrote (.clock 0 0) 30 (podLease 30 "8") ∧
    (start 0).lostAt [(.failed, 21 * Duration.second)] = some (31 * Duration.second) ∧
    (podLease 30 "8").isExpired (.clock 0 (31 * Duration.second)) = true ∧
    podCandidate.Wrote (.clock 0 0) 15 (podLease 15 "8") ∧
    (start 0).lostAt (List.replicate 4 (.failed, 0)) = some (25 * Duration.second) ∧
    (podLease 15 "8").isExpired (.clock 0 (25 * Duration.second)) = true :=
  ⟨wrote_podLease (by cbv), by decide, by decide +kernel, wrote_podLease (by cbv), by decide,
    by decide +kernel⟩

/-! ## Leaders that stay within the lease -/

/-- The calls of a tenure take as long as its rounds do. -/
theorem took_of_mem_calls {t : Tenure} {rounds : List (RoundOutcome × Nat)} {call : LeaseCall}
    (h : call ∈ t.calls rounds) : ∃ round ∈ rounds, round.2 = call.took := by
  induction rounds generalizing t with
  | nil => cases h
  | cons round rest ih =>
      obtain ⟨outcome, took⟩ := round
      rw [calls, List.mem_cons] at h
      rcases h with rfl | h
      · exact ⟨_, List.mem_cons_self, rfl⟩
      · split at h
        · cases h
        · obtain ⟨round, hround, htook⟩ := ih h
          exact ⟨round, List.mem_cons_of_mem _ hround, htook⟩

end Tenure

/-- Calls that are short add up to little. -/
theorem Stretch.callTime_le {longest : Nat} {s : Stretch} {calls : List LeaseCall}
    (hs : s.callTime ≤ (s.failures + 1) * longest) (hcalls : ∀ call ∈ calls, call.took ≤ longest) :
    (calls.foldl after s).callTime ≤ ((calls.foldl after s).failures + 1) * longest := by
  induction calls generalizing s with
  | nil => exact hs
  | cons call rest ih =>
      have hcall := hcalls call List.mem_cons_self
      refine ih ?_ fun call hcall => hcalls call (List.mem_cons_of_mem _ hcall)
      rw [after]
      split
      · show call.took ≤ (0 + 1) * longest
        rwa [Nat.zero_add, Nat.one_mul]
      · show s.callTime + call.took ≤ (s.failures + 1 + 1) * longest
        rw [Nat.succ_mul]
        exact Nat.add_le_add hs hcall

/-- **Short calls.**  When no call takes longer than a fifth of what a lease leaves beside the
    sleeps, the leader never leads on a lease that others may take. -/
theorem Tenure.leads_within_lease {origin : Int} {c : Candidate} {acquired call : LeaseCall}
    {rounds : List (RoundOutcome × Nat)} {earlier later : List LeaseCall} {longest : Nat}
    {seconds : Int} {seen : Lease} (hacquired : acquired.took ≤ longest)
    (hrounds : ∀ round ∈ rounds, round.2 ≤ longest)
    (hcalls : (start acquired.stop).calls rounds = earlier ++ call :: later)
    (hwrote : c.Wrote (.clock origin (Stretch.through acquired earlier).writtenAt) seconds seen)
    (hlease : 5 * (longest + Renewal.retryInterval : Nat) + 999 ≤ seconds * 1000000000) :
    ∀ time ≤ call.stop, seen.isExpired (.clock origin time) = false := by
  have hshort : ∀ other ∈ earlier ++ call :: later, other.took ≤ longest := by
    intro other hother
    obtain ⟨round, hround, htook⟩ := took_of_mem_calls (hcalls ▸ hother)
    exact htook ▸ hrounds round hround
  have hcall := hshort call (by simp)
  obtain ⟨hfew, hstop⟩ := stop_of_calls hcalls
  have hspan : (Stretch.through acquired earlier).span call ≤
      5 * (longest + Renewal.retryInterval) := by
    have htime : (Stretch.through acquired earlier).callTime ≤
        ((Stretch.through acquired earlier).failures + 1) * longest := by
      refine Stretch.callTime_le ?_ fun other hother => hshort other (List.mem_append_left _ hother)
      show acquired.took ≤ (0 + 1) * longest
      rwa [Nat.zero_add, Nat.one_mul]
    calc (Stretch.through acquired earlier).span call
        ≤ ((Stretch.through acquired earlier).failures + 1) * longest + longest +
            ((Stretch.through acquired earlier).failures + 2) * Renewal.retryInterval :=
          Nat.add_le_add_right (Nat.add_le_add htime hcall) _
      _ = ((Stretch.through acquired earlier).failures + 2) *
            (longest + Renewal.retryInterval) := by
          rw [Nat.mul_add, Nat.succ_mul (_ + 1) longest]
      _ ≤ 5 * (longest + Renewal.retryInterval) := Nat.mul_le_mul_right _ (by omega)
  rw [hwrote.valid_up_to_iff, hstop]
  push_cast
  omega

/-! ## Campaigns -/

namespace Candidate

variable {σ : Type} {w : Surroundings σ} {limit lost : Nat}

/-- A campaign that ends does so as a tenure under rounds that take no time. -/
theorem lostAt_of_holdFrom (c : Candidate) {budget : Nat} {t : Tenure} {s : σ}
    (h : (c.holdFrom w limit budget t s).1 = some lost) :
    ∃ outcomes : List RoundOutcome, t.lostAt (outcomes.map fun o => (o, 0)) = some lost := by
  induction budget generalizing t s with
  | zero => cases h
  | succ budget ih =>
      rw [holdFrom] at h
      split at h
      · cases h
      · cases hround : c.roundAt w t.wakesAt s with
        | mk result after =>
            rw [hround] at h
            dsimp only at h
            cases hnext : t.next? (.of result) t.wakesAt with
            | none =>
                rw [hnext] at h
                refine ⟨[.of result], ?_⟩
                rw [List.map_singleton, Tenure.lostAt, Nat.add_zero, hnext]
                exact h
            | some later =>
                rw [hnext] at h
                obtain ⟨outcomes, houtcomes⟩ := ih h
                refine ⟨.of result :: outcomes, ?_⟩
                rw [List.map_cons, Tenure.lostAt, Nat.add_zero, hnext]
                exact houtcomes

end Candidate

end ModelOperator
