import ModelOperator.Json.MergePatch
import ModelOperator.Leadership.Candidate
import ModelOperator.Proofs.Cluster.Exchange
import ModelOperator.Proofs.Leadership.Lease

/-!
# The server of one lease

    The server keeps the document of the lease, and every document it ever kept stood
    under a version of its own.  `LeaseStore.Serves` is what it may do: it makes a lease
    only where there is none, and puts one in the place of another only when the new one
    names the version of the old.  Answers may be refused or lost on the way, also when
    the change was made.

    * `Candidate.plays_round` cuts a round into its two halves;
    * `Candidate.plays_fetch` is what the reading half of a round may find;
    * `Candidate.plays_write` is what the writing half may change. -/

namespace ModelOperator

/-- A document that the server keeps, with the version that it states. -/
structure StoredLease where
  document : Json
  version : String
  versioned : Lease.versionIn document = some version

/-- The lease as the server has it, and every version that it ever had. -/
structure LeaseStore where
  current : Option StoredLease
  issued : List String
  current_issued : ∀ lease, current = some lease → lease.version ∈ issued

namespace StoredLease

/-- The specification of the lease. -/
def spec (l : StoredLease) : Option LeaseSpec := Lease.specIn l.document

/-- The holder of the lease. -/
def holder? (l : StoredLease) : Option String := l.spec.bind LeaseSpec.holder

/-- How often the lease has changed hands, if it says so. -/
def transitions? (l : StoredLease) : Option Int := l.spec.bind LeaseSpec.transitions

end StoredLease

namespace LeaseStore

/-- The server keeps a new document with the specification that was sent, under a version
    that the lease never had. -/
def Stores (s : LeaseStore) (v : Json) (after : LeaseStore) : Prop :=
  ∃ lease, after.current = some lease ∧ lease.spec = Lease.specIn v ∧
    lease.version ∉ s.issued ∧ after.issued = lease.version :: s.issued

/-- What the server may answer, and what it keeps afterwards. -/
inductive Serves (s : LeaseStore) (request : ClusterRequest) (d : Delivery) : LeaseStore → Prop
  /-- It shows the lease that it has, and says that there is none only when it has none. -/
  | shown (hmethod : request.method = "GET")
      (hdocument : ∀ v, d.document? Lease.decoder.extent = some v →
        ∃ lease, s.current = some lease ∧ lease.document = v)
      (hmissing : ∀ st, d.refusal? = some st → st.code = 404 → s.current = none) :
      Serves s request d s
  /-- It changes nothing and accepts nothing. -/
  | refused (hmethod : request.method ≠ "GET")
      (hdocument : d.document? Lease.decoder.extent = none) :
      Serves s request d s
  /-- It makes the lease, because there is none. -/
  | created {v : Json} {after : LeaseStore} (hmethod : request.method = "POST")
      (hbody : request.body = some v) (habsent : s.current = none)
      (hstored : s.Stores v after) : Serves s request d after
  /-- It replaces the lease by one that names its version. -/
  | replaced {v : Json} {lease : StoredLease} {after : LeaseStore}
      (hmethod : request.method = "PUT") (hbody : request.body = some v)
      (hcurrent : s.current = some lease) (hversion : Lease.versionIn v = some lease.version)
      (hstored : s.Stores v after) : Serves s request d after
  /-- It merges a patch into the lease, unless the patch names another version. -/
  | patched {v : Json} {lease : StoredLease} {after : LeaseStore}
      (hmethod : request.method = "PATCH") (hbody : request.body = some v)
      (hcurrent : s.current = some lease)
      (hversion : ∀ version, Lease.versionIn v = some version → version = lease.version)
      (hstored : s.Stores (Json.mergePatch v lease.document) after) : Serves s request d after

end LeaseStore

/-! ## The requests of a candidate -/

namespace Collection

theorem build_ok {method address : String} {contentType : Option String} {body : Option Json}
    {r : ClusterRequest} (h : build method address contentType body = .ok r) :
    r.method = method ∧ r.body = body := by
  rw [build] at h
  split at h
  · cases h
    exact ⟨rfl, rfl⟩
  · cases h

theorem buildNamed_ok {k : Collection} {method name rest : String}
    {contentType : Option String} {body : Option Json} {r : ClusterRequest}
    (h : k.buildNamed method name rest contentType body = .ok r) :
    r.method = method ∧ r.body = body := by
  rw [buildNamed] at h
  split at h
  · cases h
  · exact build_ok h

/-- A request that is not built is not one for an object that does not exist. -/
theorem isNotFound_of_buildNamed {k : Collection} {method name rest : String}
    {contentType : Option String} {body : Option Json} {e : CallError}
    (h : k.buildNamed method name rest contentType body = .error e) : e.isNotFound = false := by
  rw [buildNamed, build] at h
  split at h
  · cases h
    rfl
  · split at h <;> cases h
    rfl

end Collection

namespace Candidate

variable {c : Candidate} {now : Instant} {s after : LeaseStore}

/-- A round fails in its reading half, or it is both halves one after the other. -/
theorem plays_round {σ : Type} {rules : σ → ClusterRequest → Delivery → σ → Prop} {s after : σ}
    {result : Except CallError Bool} :
    Exchange.Plays rules (c.round now) s result after ↔
      (∃ e, Exchange.Plays rules c.fetch s (.error e) after ∧ result = .error e) ∨
      ∃ found between, Exchange.Plays rules c.fetch s (.ok found) between ∧
        Exchange.Plays rules (c.write now found) between result after := by
  refine Exchange.plays_halves c.fetch _ ?_ s after result
  intro e
  rfl

/-- **The reading half.**  It changes nothing; it finds the lease that the server has, and
    none only when the server has none. -/
theorem plays_fetch {result : Except CallError (Option Lease)}
    (h : Exchange.Plays LeaseStore.Serves c.fetch s result after) :
    after = s ∧ (result = .ok none → s.current = none) ∧
      ∀ l, result = .ok (some l) →
        ∃ lease, s.current = some lease ∧ Lease.read lease.document = .ok l := by
  obtain ⟨called, between, hcall, hrest⟩ := (Exchange.plays_bind _ _ _ _ _).mp h
  rcases Exchange.plays_call hcall with ⟨e, hbuild, rfl, rfl⟩ | ⟨r, d, hbuild, hserved, hcalled⟩
  · -- without a request the half fails, but not as if there were no lease
    obtain ⟨rfl, rfl⟩ := Exchange.plays_done hrest
    rw [if_neg (by rw [Collection.isNotFound_of_buildNamed hbuild]; exact Bool.false_ne_true)]
    refine ⟨rfl, ?_, ?_⟩
    · intro hnone
      cases hnone
    · intro l hl
      cases hl
  · -- the request reads, so the server can only have shown what it has
    have hmethod : r.method = "GET" := (Collection.buildNamed_ok hbuild).1
    cases hserved with
    | shown _ hdocument hmissing =>
        cases called with
        | ok found =>
            obtain ⟨rfl, rfl⟩ := Exchange.plays_done hrest
            refine ⟨rfl, ?_, ?_⟩
            · intro hnone
              cases hnone
            · intro l hl
              cases hl
              obtain ⟨v, hv, hread⟩ := Delivery.document?_of_result hcalled.symm
              obtain ⟨lease, hlease, rfl⟩ := hdocument v hv
              exact ⟨lease, hlease, hread⟩
        | error e =>
            obtain ⟨rfl, rfl⟩ := Exchange.plays_done hrest
            refine ⟨rfl, ?_, ?_⟩
            · -- only an error with the code 404 counts as no lease
              intro hnone
              cases e with
              | api st =>
                  by_cases hcode : st.code = 404
                  · exact hmissing st (Delivery.refusal?_of_result hcalled.symm) hcode
                  · simp [CallError.isNotFound, hcode] at hnone
              | _ => cases hnone
            · intro l hl
              split at hl <;> cases hl
    | refused hother => exact absurd hmethod hother
    | created hother => exact absurd (hmethod.symm.trans hother) (by decide)
    | replaced hother => exact absurd (hmethod.symm.trans hother) (by decide)
    | patched hother => exact absurd (hmethod.symm.trans hother) (by decide)

/-- How a write of a candidate that was applied changes the lease, by what it had read. -/
inductive Lands (c : Candidate) (now : Instant) (s after : LeaseStore) : Option Lease → Prop
  | created (habsent : s.current = none)
      (hstored : s.Stores (c.freshLease none now 0).toJson after) : Lands c now s after none
  | renewed {l : Lease} {lease : StoredLease} (hcurrent : s.current = some lease)
      (hversion : l.metadata.resourceVersion? = some lease.version)
      (hheld : l.isHeldBy c.identity = true)
      (hstored : s.Stores (l.renewed now).toJson after) : Lands c now s after (some l)
  | taken {l : Lease} {lease : StoredLease} (hcurrent : s.current = some lease)
      (hversion : l.metadata.resourceVersion? = some lease.version)
      (hheld : l.isHeldBy c.identity = false) (hexpired : l.isExpired now = true)
      (hstored : s.Stores
        (c.freshLease (some lease.version) now (nextTransition l.transitions)).toJson after) :
      Lands c now s after (some l)

/-- A write that is applied stores a document. -/
theorem Lands.stores {found : Option Lease} (h : c.Lands now s after found) :
    ∃ v, s.Stores v after := by
  cases h with
  | created _ hstored => exact ⟨_, hstored⟩
  | renewed _ _ _ hstored => exact ⟨_, hstored⟩
  | taken _ _ _ _ hstored => exact ⟨_, hstored⟩

/-- A lease that is to be made is made where there is none, or nothing is accepted. -/
theorem serves_create {r : ClusterRequest} {d : Delivery} {l : Lease}
    (hbuild : c.leases.createRequest l.toJson = .ok r) (h : LeaseStore.Serves s r d after) :
    (after = s ∧ d.document? Lease.decoder.extent = none) ∨
      (s.current = none ∧ s.Stores l.toJson after) := by
  obtain ⟨hmethod, hbody⟩ := Collection.build_ok hbuild
  cases h with
  | shown hother => exact absurd (hmethod.symm.trans hother) (by decide)
  | refused _ hdocument => exact Or.inl ⟨rfl, hdocument⟩
  | created _ hsent habsent hstored =>
      cases hbody.symm.trans hsent
      exact Or.inr ⟨habsent, hstored⟩
  | replaced hother => exact absurd (hmethod.symm.trans hother) (by decide)
  | patched hother => exact absurd (hmethod.symm.trans hother) (by decide)

/-- A lease that is to replace another names its version, or nothing is accepted. -/
theorem serves_replace {r : ClusterRequest} {d : Delivery} {l : Lease}
    (hbuild : c.leases.replaceRequest c.lease l.toJson = .ok r)
    (h : LeaseStore.Serves s r d after) :
    (after = s ∧ d.document? Lease.decoder.extent = none) ∨
      ∃ lease, s.current = some lease ∧ l.metadata.resourceVersion? = some lease.version ∧
        s.Stores l.toJson after := by
  obtain ⟨hmethod, hbody⟩ := Collection.buildNamed_ok hbuild
  cases h with
  | shown hother => exact absurd (hmethod.symm.trans hother) (by decide)
  | refused _ hdocument => exact Or.inl ⟨rfl, hdocument⟩
  | created hother => exact absurd (hmethod.symm.trans hother) (by decide)
  | replaced _ hsent hcurrent hversion hstored =>
      cases hbody.symm.trans hsent
      rw [Lease.versionIn_toJson] at hversion
      exact Or.inr ⟨_, hcurrent, hversion, hstored⟩
  | patched hother => exact absurd (hmethod.symm.trans hother) (by decide)

/-- A lease that a candidate takes names the version that it had read. -/
theorem resourceVersion?_freshLease (version : Option String) (transitions : Int) :
    (c.freshLease version now transitions).metadata.resourceVersion? = version := by
  cases version <;> rfl

/-- What a write does to the lease, if the server applies it. -/
theorem lands_of_writeRequest {found : Option Lease} {r : ClusterRequest} {d : Delivery}
    (hrequest : c.writeRequest now found = some (.ok r)) (h : LeaseStore.Serves s r d after) :
    (after = s ∧ d.document? Lease.decoder.extent = none) ∨ c.Lands now s after found := by
  rw [writeRequest] at hrequest
  -- the request follows the decision: create, renew, take over, or none
  cases found with
  | none =>
      rcases serves_create (Option.some.inj hrequest) h with hnothing | ⟨habsent, hstored⟩
      · exact Or.inl hnothing
      · exact Or.inr (.created habsent hstored)
  | some l =>
      rw [Lease.decide] at hrequest
      dsimp only at hrequest
      cases hheld : l.isHeldBy c.identity with
      | true =>
          rw [if_pos hheld] at hrequest
          rcases serves_replace (Option.some.inj hrequest) h with
            hnothing | ⟨lease, hcurrent, hversion, hstored⟩
          · exact Or.inl hnothing
          · exact Or.inr (.renewed hcurrent hversion hheld hstored)
      | false =>
          rw [if_neg (by rw [hheld]; exact Bool.false_ne_true)] at hrequest
          cases hexpired : l.isExpired now with
          | true =>
              rw [if_pos hexpired] at hrequest
              rcases serves_replace (Option.some.inj hrequest) h with
                hnothing | ⟨lease, hcurrent, hversion, hstored⟩
              · exact Or.inl hnothing
              · -- what is taken over is named by the version that was read
                rw [resourceVersion?_freshLease] at hversion
                rw [hversion] at hstored
                exact Or.inr (.taken hcurrent hversion hheld hexpired hstored)
          | false =>
              rw [if_neg (by rw [hexpired]; exact Bool.false_ne_true)] at hrequest
              cases hrequest

/-- A write that fails does not make the candidate lead. -/
theorem leadsAfter_error (e : CallError) : leadsAfter (.error e) ≠ .ok true := by
  show (if e.isConflict then Except.ok false else Except.error e) ≠ Except.ok true
  by_cases hconflict : e.isConflict
  · rw [if_pos hconflict]
    intro h
    cases h
  · rw [if_neg hconflict]
    intro h
    cases h

theorem plays_write_of {found : Option Lease} {r : ClusterRequest} {d : Delivery}
    (hrequest : c.writeRequest now found = some (.ok r)) (h : LeaseStore.Serves s r d after) :
    Exchange.Plays LeaseStore.Serves (c.write now found) s (leadsAfter (d.result Lease.decoder))
      after := by
  rw [write]
  rw [hrequest]
  exact (Exchange.plays_bind _ _ _ _ _).mpr
    ⟨d.result Lease.decoder, after, Exchange.plays_call_of rfl h, .done _ _⟩

/-- **The writing half.**  It leaves the lease as it is, and then the candidate does not
    lead, or the lease is still the one that was read and changes as what was read allows. -/
theorem plays_write {found : Option Lease} {result : Except CallError Bool}
    (h : Exchange.Plays LeaseStore.Serves (c.write now found) s result after) :
    (after = s ∧ result ≠ .ok true) ∨ c.Lands now s after found := by
  rw [write] at h
  cases hrequest : c.writeRequest now found with
  | none =>
      rw [hrequest] at h
      obtain ⟨rfl, rfl⟩ := Exchange.plays_done h
      exact Or.inl ⟨rfl, by rintro ⟨⟩⟩
  | some request =>
      rw [hrequest] at h
      obtain ⟨called, between, hcall, hrest⟩ := (Exchange.plays_bind _ _ _ _ _).mp h
      obtain ⟨rfl, rfl⟩ := Exchange.plays_done hrest
      rcases Exchange.plays_call hcall with ⟨e, -, rfl, rfl⟩ | ⟨r, d, rfl, hserved, rfl⟩
      · exact Or.inl ⟨rfl, leadsAfter_error e⟩
      · rcases lands_of_writeRequest hrequest hserved with ⟨rfl, hnone⟩ | hlands
        · refine Or.inl ⟨rfl, ?_⟩
          intro htrue
          cases hresult : d.result Lease.decoder with
          | ok l =>
              -- only a document that was accepted makes the candidate lead
              obtain ⟨v, hv, -⟩ := Delivery.document?_of_result hresult
              cases hnone.symm.trans hv
          | error e =>
              rw [hresult] at htrue
              exact leadsAfter_error e htrue
        · exact Or.inr hlands

end Candidate

end ModelOperator
