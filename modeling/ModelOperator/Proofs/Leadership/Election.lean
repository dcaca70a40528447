import Mathlib
import ModelOperator.Json.Printer
import ModelOperator.Proofs.Leadership.LeaseStore

/-!
# Elections by compare and swap

    Candidates with identities of their own compete for one lease.  Their rounds overlap in
    any way: between the reading and the writing half of a round other rounds may begin,
    write and fail, and every round has a reading of the clock of its own.

    The decision of a round is made on the lease that it read and written later.  What ties
    the two together is the version: `Round.Saw` says that a lease under the version that a
    round read is still the one that it read, and `LeaseStore.Spent` that no later write can
    land on what a write has landed on before.  Every step keeps both, and
    `Election.compare_and_swap` follows by induction on the run. -/

namespace ModelOperator

/-- A round whose reading half is done: what the server had then, and what the candidate
    made of the answer. -/
structure Round where
  identity : String
  clock : Instant
  seen : Option StoredLease
  found : Option Lease

/-- The version that the round read; none where there was no lease. -/
def Round.basis (r : Round) : Option String := r.seen.map StoredLease.version

/-- A writing half: its round, its result, and the lease before and after it. -/
structure LeaseWrite where
  round : Round
  before : Option StoredLease
  result : Except CallError Bool
  after : Option StoredLease

/-- The write changed the lease. -/
def LeaseWrite.Lands (w : LeaseWrite) : Prop := w.after ≠ w.before

/-- The lease, the rounds that have read it, and all writes so far, the last one first. -/
structure Election where
  store : LeaseStore
  rounds : List Round
  writes : List LeaseWrite

namespace Election

/-- One half of a round.  A round that has read the lease may write at any later time; that
    it could do so again only allows more. -/
inductive Step (lease ns : String) (e : Election) : Election → Prop
  | read {identity : String} {clock : Instant} {found : Option Lease} {after : LeaseStore}
      (hplays : Exchange.Plays LeaseStore.Serves (Candidate.fetch ⟨lease, ns, identity⟩)
        e.store (.ok found) after) :
      Step lease ns e
        ⟨after, ⟨identity, clock, e.store.current, found⟩ :: e.rounds, e.writes⟩
  | failed {identity : String} {error : CallError} {after : LeaseStore}
      (hplays : Exchange.Plays LeaseStore.Serves (Candidate.fetch ⟨lease, ns, identity⟩)
        e.store (.error error) after) :
      Step lease ns e ⟨after, e.rounds, e.writes⟩
  | write {r : Round} {result : Except CallError Bool} {after : LeaseStore}
      (hround : r ∈ e.rounds)
      (hplays : Exchange.Plays LeaseStore.Serves
        (Candidate.write ⟨lease, ns, r.identity⟩ r.clock r.found) e.store result after) :
      Step lease ns e
        ⟨after, e.rounds, ⟨r, e.store.current, result, after.current⟩ :: e.writes⟩

/-- What can come of a lease by rounds of candidates, in any order of their halves. -/
inductive Reachable (lease ns : String) (start : LeaseStore) : Election → Prop
  | start : Reachable lease ns start ⟨start, [], []⟩
  | step {e after : Election} (hreach : Reachable lease ns start e)
      (hstep : Step lease ns e after) : Reachable lease ns start after

/-- The writes lead from one lease to another, each from where the one before it ended. -/
def Accounts (first : Option StoredLease) : List LeaseWrite → Option StoredLease → Prop
  | [], last => last = first
  | w :: earlier, last => last = w.after ∧ Accounts first earlier w.before

end Election

/-- What a write keeps. -/
structure LeaseWrite.Sound (w : LeaseWrite) : Prop where
  /-- It changes the lease only if that is still the one that its round read. -/
  unchanged : w.Lands → w.before = w.round.seen
  /-- A candidate leads only if its write changed the lease. -/
  leads : w.result = .ok true → w.Lands
  /-- A candidate whose write changed the lease is its holder. -/
  holds : w.Lands → w.after.bind StoredLease.holder? = some w.round.identity
  /-- Another holder is replaced only after the end of its lease, if the lease has one. -/
  expired : w.Lands → ∀ holder, w.before.bind StoredLease.holder? = some holder →
    holder ≠ "" → holder ≠ w.round.identity →
    ∀ spec renewed seconds, w.before.bind StoredLease.spec = some spec →
      spec.renewTime = some renewed → spec.durationSeconds = some seconds →
      (renewed.addSeconds seconds).before w.round.clock = true
  /-- A renewal is no change of hands. -/
  renewal : w.Lands → w.before.bind StoredLease.holder? = some w.round.identity →
    w.after.bind StoredLease.transitions? = w.before.bind StoredLease.transitions?
  /-- A takeover is one more change of hands. -/
  takeover : w.Lands → ∀ lease, w.before = some lease → lease.holder? ≠ some w.round.identity →
    lease.transitions?.getD 0 < 2147483647 →
    w.after.bind StoredLease.transitions? = some (lease.transitions?.getD 0 + 1)

/-! ## Versions -/

namespace LeaseStore

variable {s after : LeaseStore} {v : Json}

/-- No write can land any more on what was read: the version is gone for good, and where
    there was no lease there is one. -/
def Spent (s : LeaseStore) : Option String → Prop
  | none => s.current ≠ none
  | some version => version ∈ s.issued ∧ ∀ lease, s.current = some lease → lease.version ≠ version

/-- The version that is current can still be written on. -/
theorem not_spent_current (s : LeaseStore) : ¬ s.Spent (s.current.map StoredLease.version) := by
  intro h
  cases hcurrent : s.current with
  | none =>
      rw [hcurrent] at h
      exact h hcurrent
  | some lease =>
      rw [hcurrent] at h
      exact h.2 lease hcurrent rfl

/-- What is spent stays so. -/
theorem Spent.of_stores {basis : Option String} (h : s.Spent basis) (hstored : s.Stores v after) :
    after.Spent basis := by
  obtain ⟨lease, hlease, -, hfresh, hissued⟩ := hstored
  cases basis with
  | none =>
      intro hnone
      cases hlease.symm.trans hnone
  | some version =>
      constructor
      · rw [hissued]
        exact List.mem_cons_of_mem _ h.1
      · -- the new document has a version that was never issued
        rintro lease' hlease' rfl
        cases hlease.symm.trans hlease'
        exact hfresh h.1

/-- A write spends what it lands on. -/
theorem spent_of_stores (hstored : s.Stores v after) :
    after.Spent (s.current.map StoredLease.version) := by
  obtain ⟨lease, hlease, -, hfresh, hissued⟩ := hstored
  cases hcurrent : s.current with
  | none =>
      intro hnone
      cases hlease.symm.trans hnone
  | some old =>
      have hold := s.current_issued old hcurrent
      constructor
      · rw [hissued]
        exact List.mem_cons_of_mem _ hold
      · intro lease' hlease' heq
        cases hlease.symm.trans hlease'
        exact hfresh (heq ▸ hold)

/-- A document that is stored is another one. -/
theorem ne_of_stores (hstored : s.Stores v after) : after.current ≠ s.current := by
  intro heq
  exact after.not_spent_current (heq ▸ spent_of_stores hstored)

/-- A lease that was sent is stored with its holder. -/
theorem holder?_of_stores {l : Lease} (hstored : s.Stores l.toJson after) :
    after.current.bind StoredLease.holder? = l.holder? := by
  obtain ⟨lease, hlease, hspec, -, -⟩ := hstored
  rw [hlease]
  show lease.spec.bind LeaseSpec.holder = l.spec.bind LeaseSpec.holder
  rw [hspec, Lease.specIn_toJson]
  cases l.spec <;> simp

/-- A lease that was sent is stored with its changes of hands. -/
theorem transitions?_of_stores {l : Lease} (hstored : s.Stores l.toJson after) :
    after.current.bind StoredLease.transitions? = l.spec.bind LeaseSpec.transitions := by
  obtain ⟨lease, hlease, hspec, -, -⟩ := hstored
  rw [hlease]
  show lease.spec.bind LeaseSpec.transitions = l.spec.bind LeaseSpec.transitions
  rw [hspec, Lease.specIn_toJson]
  cases l.spec <;> simp

end LeaseStore

/-! ## What a round knows -/

namespace Candidate

/-- The count of a takeover is one more, below the largest whole number of 32 bits. -/
theorem nextTransition_eq {n : Int} (hlow : -2147483648 ≤ n) (hhigh : n < 2147483647) :
    nextTransition n = n + 1 :=
  Int.bmod_eq_of_le (by omega) (by omega)

end Candidate

namespace Round

/-- What a round has seen: no lease, or one that it read, and which is still the lease if
    the lease has its version. -/
def Saw (r : Round) (s : LeaseStore) : Prop :=
  match r.found with
  | none => r.seen = none
  | some l => ∃ lease, r.seen = some lease ∧ lease.version ∈ s.issued ∧
      Lease.read lease.document = .ok l ∧
      ∀ now, s.current = some now → now.version = lease.version → now = lease

variable {r : Round} {s after : LeaseStore} {v : Json} {lease ns : String}

/-- What was seen stays so: a new document has another version. -/
theorem Saw.of_stores (h : r.Saw s) (hstored : s.Stores v after) : r.Saw after := by
  obtain ⟨stored, hstored, -, hfresh, hissued⟩ := hstored
  rw [Saw] at h ⊢
  split at h
  · exact h
  · obtain ⟨lease, hseen, hmem, hread, -⟩ := h
    refine ⟨lease, hseen, ?_, hread, ?_⟩
    · rw [hissued]
      exact List.mem_cons_of_mem _ hmem
    · intro now hnow heq
      cases hstored.symm.trans hnow
      exact absurd (heq ▸ hmem) hfresh

/-- A round that has just read the lease has seen it. -/
theorem saw_of_plays_fetch {identity : String} {found : Option Lease} (clock : Instant)
    (h : Exchange.Plays LeaseStore.Serves (Candidate.fetch ⟨lease, ns, identity⟩) s
      (.ok found) after) : Saw ⟨identity, clock, s.current, found⟩ s := by
  obtain ⟨-, hnone, hsome⟩ := Candidate.plays_fetch h
  cases found with
  | none => exact hnone rfl
  | some l =>
      obtain ⟨lease, hcurrent, hread⟩ := hsome l rfl
      refine ⟨lease, hcurrent, s.current_issued lease hcurrent, hread, ?_⟩
      intro now hnow _
      exact Option.some.inj (hnow.symm.trans hcurrent)

/-- A lease that has the version of what a round read is the one that it read. -/
theorem Saw.read_current (h : r.Saw s) {l : Lease} {now : StoredLease} (hfound : r.found = some l)
    (hcurrent : s.current = some now)
    (hversion : l.metadata.resourceVersion? = some now.version) :
    r.seen = some now ∧ Lease.read now.document = .ok l := by
  rw [Saw] at h
  rw [hfound] at h
  obtain ⟨lease, hseen, -, hread, hsame⟩ := h
  -- the write names the version that was read, and the server the version that it has
  have hstated := Lease.version_of_read hread lease.versioned
  cases hsame now hcurrent (Option.some.inj (hversion.symm.trans hstated))
  exact ⟨hseen, hread⟩

end Round

/-! ## One write -/

namespace LeaseWrite

variable {r : Round} {s after : LeaseStore} {lease ns : String}

/-- A write that changes nothing keeps everything, if its candidate does not lead. -/
theorem sound_of_same {w : LeaseWrite} (hsame : w.after = w.before)
    (hresult : w.result ≠ .ok true) : w.Sound := by
  have hlands : ¬ w.Lands := fun h => h hsame
  constructor
  · exact fun h => absurd h hlands
  · exact fun h => absurd h hresult
  · exact fun h => absurd h hlands
  · exact fun h => absurd h hlands
  · exact fun h => absurd h hlands
  · exact fun h => absurd h hlands

/-- Where there was no lease, its creation is a sound write. -/
theorem sound_of_created {result : Except CallError Bool} (habsent : s.current = none)
    (hseen : r.seen = none)
    (hstored : s.Stores
      (Candidate.freshLease ⟨lease, ns, r.identity⟩ none r.clock 0).toJson after) :
    Sound ⟨r, s.current, result, after.current⟩ := by
  constructor
  · exact fun _ => habsent.trans hseen.symm
  · exact fun _ => LeaseStore.ne_of_stores hstored
  · exact fun _ => LeaseStore.holder?_of_stores hstored
  · intro _ holder hholder
    rw [habsent] at hholder
    cases hholder
  · intro _ hholder
    rw [habsent] at hholder
    cases hholder
  · intro _ now hnow
    cases habsent.symm.trans hnow

/-- The holder's renewal of its own lease is a sound write. -/
theorem sound_of_renewed {result : Except CallError Bool} {now : StoredLease} {l : Lease}
    (hcurrent : s.current = some now) (hseen : r.seen = some now)
    (hread : Lease.read now.document = .ok l) (hheld : l.isHeldBy r.identity = true)
    (hstored : s.Stores (l.renewed r.clock).toJson after) :
    Sound ⟨r, s.current, result, after.current⟩ := by
  have hspec : l.spec = now.spec := Lease.spec_of_read hread
  have hholder : l.holder? = some r.identity := beq_iff_eq.mp hheld
  have hbefore : s.current.bind StoredLease.holder? = some r.identity := by
    rw [hcurrent, ← hholder]
    exact congrArg (Option.bind · LeaseSpec.holder) hspec.symm
  have hrenewed : (l.renewed r.clock).holder? = l.holder? ∧
      (l.renewed r.clock).spec.bind LeaseSpec.transitions = l.spec.bind LeaseSpec.transitions := by
    simp only [Lease.renewed, Lease.holder?]
    cases l.spec <;> exact ⟨rfl, rfl⟩
  -- holder and count stay, so the clauses about another holder do not apply
  constructor
  · exact fun _ => hcurrent.trans hseen.symm
  · exact fun _ => LeaseStore.ne_of_stores hstored
  · exact fun _ => (LeaseStore.holder?_of_stores hstored).trans (hrenewed.1.trans hholder)
  · intro _ holder hother _ hne
    exact absurd (Option.some.inj (hother.symm.trans hbefore)) hne
  · intro _ _
    show after.current.bind StoredLease.transitions? = s.current.bind StoredLease.transitions?
    rw [LeaseStore.transitions?_of_stores hstored, hrenewed.2, hspec, hcurrent]
    rfl
  · intro _ now' hnow hne
    have hsame : s.current.bind StoredLease.holder? = now'.holder? := by
      rw [show s.current = some now' from hnow]
      rfl
    exact absurd (hsame.symm.trans hbefore) hne

/-- A lease that has a holder and an end is free only after its end. -/
theorem before_of_isExpired {l : Lease} {now renewed : Instant} {holder : String} {seconds : Int}
    {spec : LeaseSpec} (h : l.isExpired now = true) (hspec : l.spec = some spec)
    (hholder : spec.holder = some holder) (hne : holder ≠ "")
    (hrenewed : spec.renewTime = some renewed) (hseconds : spec.durationSeconds = some seconds) :
    (renewed.addSeconds seconds).before now = true := by
  have hends : l.ends? = some (renewed.addSeconds seconds) := by
    unfold Lease.ends? LeaseSpec.ends?
    simp [hspec, hrenewed, hseconds]
  have hheld : l.holder? = some holder := by
    rw [Lease.holder?]
    rw [hspec]
    exact hholder
  rw [Lease.isExpired] at h
  simpa [hheld, hends, hne] using h

/-- The takeover of an expired lease is a sound write. -/
theorem sound_of_taken {result : Except CallError Bool} {now : StoredLease} {l : Lease}
    (hcurrent : s.current = some now) (hseen : r.seen = some now)
    (hread : Lease.read now.document = .ok l) (hheld : l.isHeldBy r.identity = false)
    (hexpired : l.isExpired r.clock = true)
    (hstored : s.Stores (Candidate.freshLease ⟨lease, ns, r.identity⟩ (some now.version) r.clock
      (Candidate.nextTransition l.transitions)).toJson after) :
    Sound ⟨r, s.current, result, after.current⟩ := by
  have hspec : l.spec = now.spec := Lease.spec_of_read hread
  have hholder : now.holder? ≠ some r.identity := by
    rw [StoredLease.holder?]
    rw [← hspec]
    exact beq_eq_false_iff_ne.mp hheld
  constructor
  · exact fun _ => hcurrent.trans hseen.symm
  · exact fun _ => LeaseStore.ne_of_stores hstored
  · exact fun _ => LeaseStore.holder?_of_stores hstored
  · intro _ holder hother hne _ spec renewed seconds hstated hrenewed hseconds
    rw [hcurrent] at hother hstated
    have hsome : l.spec = some spec := hspec.trans hstated
    refine before_of_isExpired hexpired hsome ?_ hne hrenewed hseconds
    exact (congrArg (Option.bind · LeaseSpec.holder) hstated).symm.trans hother
  · intro _ hsame
    rw [hcurrent] at hsame
    exact absurd hsame hholder
  · -- the count was read in 32 bits, so below the largest one it does not wrap
    intro _ now' hnow _ hbound
    cases hcurrent.symm.trans hnow
    have hcount : l.transitions = now.transitions?.getD 0 := by
      rw [Lease.transitions, StoredLease.transitions?]
      rw [hspec]
    have hlow := (Lease.transitions_of_read hread).1
    refine (LeaseStore.transitions?_of_stores hstored).trans ?_
    show some (Candidate.nextTransition l.transitions) = _
    rw [hcount] at hlow ⊢
    rw [Candidate.nextTransition_eq hlow hbound]

/-- **A write that is applied.**  It lands on the lease that its round read, so what it was
    decided on is what it replaces. -/
theorem sound_of_lands {result : Except CallError Bool} (hsaw : r.Saw s)
    (h : Candidate.Lands ⟨lease, ns, r.identity⟩ r.clock s after r.found) :
    Sound ⟨r, s.current, result, after.current⟩ := by
  obtain ⟨identity, clock, seen, found⟩ := r
  cases h with
  | created habsent hstored => exact sound_of_created habsent hsaw hstored
  | renewed hcurrent hversion hheld hstored =>
      obtain ⟨hseen, hread⟩ := hsaw.read_current rfl hcurrent hversion
      exact sound_of_renewed hcurrent hseen hread hheld hstored
  | taken hcurrent hversion hheld hexpired hstored =>
      obtain ⟨hseen, hread⟩ := hsaw.read_current rfl hcurrent hversion
      exact sound_of_taken hcurrent hseen hread hheld hexpired hstored

end LeaseWrite

/-! ## All rounds -/

namespace Election

variable {lease ns : String} {start : LeaseStore} {e after : Election}

/-- What every step keeps. -/
structure Inv (start : LeaseStore) (e : Election) : Prop where
  rounds : ∀ r ∈ e.rounds, r.Saw e.store
  spent : ∀ w ∈ e.writes, w.Lands → e.store.Spent w.round.basis
  once : e.writes.Pairwise fun w earlier =>
    w.Lands → earlier.Lands → w.round.basis ≠ earlier.round.basis
  accounts : Accounts start.current e.writes e.store.current
  sound : ∀ w ∈ e.writes, w.Sound

/-- Nobody has begun yet, and nothing is written. -/
theorem inv_start : Inv start ⟨start, [], []⟩ := by
  constructor
  · intro r hr
    cases hr
  · intro w hw
    cases hw
  · exact List.Pairwise.nil
  · rfl
  · intro w hw
    cases hw

/-- A write that changes nothing. -/
theorem Inv.of_same {r : Round} {result : Except CallError Bool} (h : Inv start e)
    (hresult : result ≠ .ok true) :
    Inv start ⟨e.store, e.rounds, ⟨r, e.store.current, result, e.store.current⟩ :: e.writes⟩ := by
  have hlands : ¬ LeaseWrite.Lands ⟨r, e.store.current, result, e.store.current⟩ :=
    fun hlands => hlands rfl
  constructor
  · exact h.rounds
  · intro w hw hl
    rcases List.mem_cons.mp hw with rfl | hw
    · exact absurd hl hlands
    · exact h.spent w hw hl
  · refine List.pairwise_cons.mpr ⟨?_, h.once⟩
    intro w _ hl
    exact absurd hl hlands
  · exact ⟨rfl, h.accounts⟩
  · intro w hw
    rcases List.mem_cons.mp hw with rfl | hw
    · exact LeaseWrite.sound_of_same rfl hresult
    · exact h.sound w hw

/-- A write that lands: what it lands on was not spent before, and is afterwards. -/
theorem Inv.of_lands {r : Round} {result : Except CallError Bool} {store : LeaseStore}
    (h : Inv start e) (hr : r ∈ e.rounds)
    (hlands : Candidate.Lands ⟨lease, ns, r.identity⟩ r.clock e.store store r.found) :
    Inv start ⟨store, e.rounds, ⟨r, e.store.current, result, store.current⟩ :: e.writes⟩ := by
  obtain ⟨v, hstored⟩ := hlands.stores
  have hsound : LeaseWrite.Sound ⟨r, e.store.current, result, store.current⟩ :=
    LeaseWrite.sound_of_lands (h.rounds r hr) hlands
  have hbasis : r.basis = e.store.current.map StoredLease.version :=
    congrArg (Option.map StoredLease.version)
      (hsound.unchanged (LeaseStore.ne_of_stores hstored)).symm
  constructor
  · exact fun r hr => (h.rounds r hr).of_stores hstored
  · intro w hw hl
    rcases List.mem_cons.mp hw with rfl | hw
    · show store.Spent r.basis
      rw [hbasis]
      exact LeaseStore.spent_of_stores hstored
    · exact (h.spent w hw hl).of_stores hstored
  · -- an earlier write on the same version would have spent what this one lands on
    refine List.pairwise_cons.mpr ⟨?_, h.once⟩
    intro w hw _ hl heq
    have hspent := h.spent w hw hl
    rw [← heq, show LeaseWrite.round _ = r from rfl, hbasis] at hspent
    exact e.store.not_spent_current hspent
  · exact ⟨rfl, h.accounts⟩
  · intro w hw
    rcases List.mem_cons.mp hw with rfl | hw
    · exact hsound
    · exact h.sound w hw

/-- One step keeps the invariant. -/
theorem Inv.step (h : Inv start e) (hstep : Step lease ns e after) : Inv start after := by
  cases hstep with
  | @read identity clock found store hplays =>
      -- a reading half changes nothing on the server and adds one round
      have hsaw := Round.saw_of_plays_fetch clock hplays
      obtain ⟨rfl, -⟩ := Candidate.plays_fetch hplays
      refine ⟨?_, h.spent, h.once, h.accounts, h.sound⟩
      intro r hr
      rcases List.mem_cons.mp hr with rfl | hr
      · exact hsaw
      · exact h.rounds r hr
  | failed hplays =>
      obtain ⟨rfl, -⟩ := Candidate.plays_fetch hplays
      exact ⟨h.rounds, h.spent, h.once, h.accounts, h.sound⟩
  | write hr hplays =>
      rcases Candidate.plays_write hplays with ⟨rfl, hresult⟩ | hlands
      · exact h.of_same hresult
      · exact h.of_lands hr hlands

/-- The invariant holds in every election that can be reached. -/
theorem inv_of_reachable (h : Reachable lease ns start e) : Inv start e := by
  induction h with
  | start => exact inv_start
  | step _ hstep ih => exact ih.step hstep

/-- **One winner for each version.**  In every election, of the writes whose rounds read the
    same version, or no lease, at most one changes the lease; the writes account for every
    change of the lease; and each of them is sound. -/
theorem compare_and_swap (h : Reachable lease ns start e) :
    (e.writes.Pairwise fun w earlier =>
      w.Lands → earlier.Lands → w.round.basis ≠ earlier.round.basis) ∧
    Accounts start.current e.writes e.store.current ∧
    ∀ w ∈ e.writes, w.Sound := by
  have hinv := inv_of_reachable h
  exact ⟨hinv.once, hinv.accounts, hinv.sound⟩

/-! ## Two candidates for one lease -/

/-- A lease that ended before the clock of the candidates. -/
def staleDocument : Json :=
  .obj [("metadata", .obj [("resourceVersion", .str "7")]),
    ("spec", .obj [("holderIdentity", .str "pod-b"), ("leaseDurationSeconds", .int 30),
      ("leaseTransitions", .int 3), ("renewTime", .str "1970-01-01T00:00:00Z")])]

/-- That lease as it is read. -/
def staleLease : Lease where
  metadata := ⟨[("resourceVersion", .str "7")]⟩
  spec := some {
    holder := some "pod-b"
    durationSeconds := some 30
    transitions := some 3
    renewTime := some ⟨0, 0, 0⟩ }

/-- The clock of the candidates. -/
def raceClock : Instant := ⟨0, 60, 0⟩

/-- A candidate for the operator's lease. -/
def pod (identity : String) : Candidate := ⟨operatorLease, "default", identity⟩

/-- The lease that a candidate takes over, under a version. -/
def takenLease (identity version : String) : Lease :=
  (pod identity).freshLease (some version) raceClock 4

/-- The server before the race. -/
def staleStore : LeaseStore where
  current := some ⟨staleDocument, "7", rfl⟩
  issued := ["7"]
  current_issued := by
    intro lease h
    cases h
    exact List.mem_singleton.mpr rfl

/-- The server after one of the candidates has taken the lease. -/
def takenStore (identity : String) : LeaseStore where
  current := some ⟨(takenLease identity "8").toJson, "8", by
    rw [Lease.versionIn_toJson]
    exact Candidate.resourceVersion?_freshLease _ _⟩
  issued := ["8", "7"]
  current_issued := by
    intro lease h
    cases h
    exact List.mem_cons_self

theorem read_staleDocument : Lease.read staleDocument = .ok staleLease := by cbv

/-- The address of the operator's lease. -/
def leaseAddress : String :=
  "/apis/coordination.k8s.io/v1/namespaces/default/leases/ollama-operator-leader"

theorem getRequest_pod (identity : String) :
    (pod identity).leases.getRequest (pod identity).lease =
      .ok ⟨"GET", leaseAddress, none, none⟩ := by
  show ((ObjectKind.leases.within "default").getRequest operatorLease) = _
  cbv

theorem replaceRequest_pod (identity : String) (v : Json) :
    (pod identity).leases.replaceRequest (pod identity).lease v =
      .ok ⟨"PUT", leaseAddress ++ "?", some "application/json", some v⟩ := by
  show ((ObjectKind.leases.within "default").replaceRequest operatorLease v) = _
  cbv

theorem plays_fetch_staleStore (identity : String) :
    Exchange.Plays LeaseStore.Serves (pod identity).fetch staleStore (.ok (some staleLease))
      staleStore := by
  have hdocument : (Delivery.reply ⟨200, staleDocument.compact⟩).document? Lease.decoder.extent =
      some staleDocument := by cbv
  have hserved : LeaseStore.Serves staleStore ⟨"GET", leaseAddress, none, none⟩
      (.reply ⟨200, staleDocument.compact⟩) staleStore := by
    refine .shown rfl ?_ ?_
    · intro v hv
      exact ⟨_, rfl, Option.some.inj (hdocument.symm.trans hv)⟩
    · intro st hst
      cases (Delivery.refusal?_of_document? hdocument).symm.trans hst
  refine (Exchange.plays_bind _ _ _ _ _).mpr ⟨.ok staleLease, staleStore, ?_, .done _ _⟩
  rw [← Delivery.result_of_document? hdocument read_staleDocument]
  exact Exchange.plays_call_of (getRequest_pod identity) hserved

/-- The request of a candidate that has read the stale lease. -/
theorem writeRequest_staleLease {identity : String} (h : identity ≠ "pod-b") :
    (pod identity).writeRequest raceClock (some staleLease) =
      some (.ok ⟨"PUT", leaseAddress ++ "?", some "application/json",
        some (takenLease identity "7").toJson⟩) := by
  have hheld : staleLease.isHeldBy identity = false :=
    beq_eq_false_iff_ne.mpr fun heq => h (Option.some.inj heq).symm
  have hexpired : staleLease.isExpired raceClock = true := by decide +kernel
  have haction : Lease.decide identity raceClock (some staleLease) = .takeOver 3 := by
    unfold Lease.decide
    dsimp only
    rw [hheld, if_neg Bool.false_ne_true, if_pos hexpired]
    rfl
  rw [Candidate.writeRequest]
  rw [show (pod identity).identity = identity from rfl, haction]
  exact congrArg some (replaceRequest_pod identity _)

/-- The first write is applied. -/
theorem plays_write_staleStore {identity : String} (h : identity ≠ "pod-b") :
    Exchange.Plays LeaseStore.Serves ((pod identity).write raceClock (some staleLease)) staleStore
      (.ok true) (takenStore identity) := by
  have hstored : staleStore.Stores (takenLease identity "7").toJson (takenStore identity) := by
    have hfresh : "8" ∉ ["7"] := by decide
    refine ⟨_, rfl, ?_, hfresh, rfl⟩
    show Lease.specIn (takenLease identity "8").toJson =
      Lease.specIn (takenLease identity "7").toJson
    rw [Lease.specIn_toJson, Lease.specIn_toJson]
    rfl
  have hversion : Lease.versionIn (takenLease identity "7").toJson = some "7" := by
    rw [Lease.versionIn_toJson]
    exact Candidate.resourceVersion?_freshLease _ _
  have hleads : Candidate.leadsAfter ((Delivery.reply ⟨200, "\x7b\x7d"⟩).result Lease.decoder) =
      .ok true := by cbv
  rw [← hleads]
  exact Candidate.plays_write_of (writeRequest_staleLease h)
    (.replaced rfl rfl rfl hversion hstored)

/-- A later write is refused. -/
theorem plays_write_takenStore {identity holder : String} (h : identity ≠ "pod-b") :
    Exchange.Plays LeaseStore.Serves ((pod identity).write raceClock (some staleLease))
      (takenStore holder) (.ok false) (takenStore holder) := by
  have hrefused : (Delivery.reply ⟨409, ""⟩).document? Lease.decoder.extent = none := by cbv
  have hleads : Candidate.leadsAfter ((Delivery.reply ⟨409, ""⟩).result Lease.decoder) =
      .ok false := by cbv
  rw [← hleads]
  refine Candidate.plays_write_of (writeRequest_staleLease h) (.refused ?_ hrefused)
  show "PUT" ≠ "GET"
  decide

/-- A round of a candidate that has read the stale lease. -/
def staleRound (identity : String) : Round where
  identity := identity
  clock := raceClock
  seen := staleStore.current
  found := some staleLease

/-- **A race for a lease that ended.**  Both candidates read it; the first to write leads and
    has changed the lease, the second is refused and has not. -/
theorem compare_and_swap_race : ∃ e won lost, Reachable operatorLease "default" staleStore e ∧
    e.writes = [lost, won] ∧ won.round.basis = some "7" ∧ lost.round.basis = some "7" ∧
    won.result = .ok true ∧ won.after.bind StoredLease.holder? = some "pod-a" ∧
    won.after.bind StoredLease.transitions? = some 4 ∧ lost.result = .ok false ∧
    ¬ lost.Lands := by
  let won : LeaseWrite :=
    ⟨staleRound "pod-a", staleStore.current, .ok true, (takenStore "pod-a").current⟩
  let lost : LeaseWrite :=
    ⟨staleRound "pod-c", (takenStore "pod-a").current, .ok false, (takenStore "pod-a").current⟩
  have hfirst : Reachable operatorLease "default" staleStore
      ⟨staleStore, [staleRound "pod-a"], []⟩ :=
    .step .start (.read (plays_fetch_staleStore "pod-a"))
  have hsecond : Reachable operatorLease "default" staleStore
      ⟨staleStore, [staleRound "pod-c", staleRound "pod-a"], []⟩ :=
    .step hfirst (.read (plays_fetch_staleStore "pod-c"))
  have hwon : Reachable operatorLease "default" staleStore
      ⟨takenStore "pod-a", [staleRound "pod-c", staleRound "pod-a"], [won]⟩ :=
    .step hsecond (.write (List.mem_cons_of_mem _ List.mem_cons_self)
      (plays_write_staleStore (by decide)))
  have hlost : Reachable operatorLease "default" staleStore
      ⟨takenStore "pod-a", [staleRound "pod-c", staleRound "pod-a"], [lost, won]⟩ :=
    .step hwon (.write List.mem_cons_self (plays_write_takenStore (by decide)))
  -- what is said of the race follows from the theorem alone
  obtain ⟨honce, -, hsound⟩ := compare_and_swap hlost
  have hwonSound := hsound won (List.mem_cons_of_mem _ List.mem_cons_self)
  have hlands := hwonSound.leads rfl
  refine ⟨_, won, lost, hlost, rfl, rfl, rfl, rfl, hwonSound.holds hlands, ?_, rfl, ?_⟩
  · refine hwonSound.takeover hlands _ rfl ?_ ?_
    · decide +kernel
    · decide +kernel
  · intro hlostLands
    exact (List.pairwise_cons.mp honce).1 won List.mem_cons_self hlostLands hlands rfl

end Election

end ModelOperator
