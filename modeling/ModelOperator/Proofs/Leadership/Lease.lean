import ModelOperator.Leadership.Lease
import ModelOperator.Proofs.Cluster.Shape

/-!
# Leases in documents

    The version and the specification of a lease are looked up in its document.  A lease
    that was read has both as they stand there, and a lease that was written has both as
    they were.

    * `Lease.version_of_read`, `Lease.spec_of_read` are about a lease that was read;
    * `Lease.transitions_of_read` bounds the count of its changes of hands;
    * `Lease.versionIn_toJson`, `Lease.specIn_toJson` are about one that was written. -/

namespace ModelOperator

namespace LeaseSpec

theorem get?_toJson (s : LeaseSpec) (name : String) :
    s.toJson.get? name = ((List.lookup name [
      ("acquireTime", s.acquireTime.map fun t => Json.str (t.text .micros)),
      ("holderIdentity", s.holder.map .str),
      ("leaseDurationSeconds", s.durationSeconds.map .int),
      ("leaseTransitions", s.transitions.map .int),
      ("preferredHolder", s.preferredHolder.map .str),
      ("renewTime", s.renewTime.map fun t => Json.str (t.text .micros)),
      ("strategy", s.strategy.map .str)]).join) := by
  refine Members.get?_ofPresent ?_ name
  simp

/-- The holder is read as it was written. -/
@[simp] theorem holder_ofJson_toJson (s : LeaseSpec) : (ofJson s.toJson).holder = s.holder := by
  show (s.toJson.get? "holderIdentity").bind Json.asText? = s.holder
  rw [get?_toJson]
  cases s.holder <;> simp [List.lookup_cons, Json.asText?]

/-- The changes of hands are read as they were written. -/
@[simp] theorem transitions_ofJson_toJson (s : LeaseSpec) :
    (ofJson s.toJson).transitions = s.transitions := by
  show (s.toJson.get? "leaseTransitions").bind Json.asInt? = s.transitions
  rw [get?_toJson]
  cases s.transitions <;> simp [List.lookup_cons, Json.asInt?]

/-- The seconds for which a renewal is good are read as they were written. -/
@[simp] theorem durationSeconds_ofJson_toJson (s : LeaseSpec) :
    (ofJson s.toJson).durationSeconds = s.durationSeconds := by
  show (s.toJson.get? "leaseDurationSeconds").bind Json.asInt? = s.durationSeconds
  rw [get?_toJson]
  cases s.durationSeconds <;> simp [List.lookup_cons, Json.asInt?]

/-- The time of the renewal is read from its text. -/
theorem renewTime_ofJson_toJson (s : LeaseSpec) :
    (ofJson s.toJson).renewTime = s.renewTime.bind fun t => Instant.read (t.text .micros) := by
  show ((s.toJson.get? "renewTime").bind Json.asText?).bind Instant.read = _
  rw [get?_toJson]
  cases s.renewTime <;> simp [List.lookup_cons, Json.asText?]

end LeaseSpec

namespace Lease

/-- The version that a document of a lease states. -/
def versionIn (v : Json) : Option String :=
  (v.get? "metadata").bind fun m => (m.get? "resourceVersion").bind Json.asText?

/-- The specification in a document of a lease. -/
def specIn (v : Json) : Option LeaseSpec :=
  match v.get? "spec" with
  | none | some .null => none
  | some s => some (LeaseSpec.ofJson s)

/-! ## A lease that was read -/

theorem specIn_eq_some {v : Json} {s : LeaseSpec} (h : specIn v = some s) :
    ∃ w, v.get? "spec" = some w ∧ w ≠ .null ∧ s = LeaseSpec.ofJson w := by
  rw [specIn] at h
  split at h
  · cases h
  · cases h
  · rename_i w hnull hw
    exact ⟨w, hw, hnull, (Option.some.inj h).symm⟩

theorem read_ok {v : Json} {l : Lease} (h : read v = .ok l) :
    (∃ w, Shape.lease.normalize v = .ok w) ∧
      (∀ m, v.get? "metadata" = some m → m ≠ .null → Metadata.read m = .ok l.metadata) ∧
      l.spec = specIn v := by
  obtain ⟨w, hw, h⟩ := Reading.bind_ok (by rw [read] at h; exact h)
  refine ⟨⟨w, hw⟩, ?_⟩
  cases hm : v.get? "metadata" with
  | none =>
      rw [hm] at h
      cases h
      refine ⟨?_, rfl⟩
      intro m hm
      cases hm
  | some m =>
      rw [hm] at h
      -- metadata that are null read like none
      have hgiven : m ≠ .null → ∃ metadata, Metadata.read m = .ok metadata ∧
          l = ⟨metadata, specIn v⟩ := by
        intro hnull
        cases m with
        | null => exact absurd rfl hnull
        | _ =>
            obtain ⟨metadata, hmetadata, h⟩ := Reading.bind_ok h
            cases h
            exact ⟨metadata, hmetadata, rfl⟩
      by_cases hnull : m = .null
      · subst hnull
        cases h
        refine ⟨?_, rfl⟩
        intro m hm hne
        exact absurd (Option.some.inj hm).symm hne
      · obtain ⟨metadata, hmetadata, rfl⟩ := hgiven hnull
        refine ⟨?_, rfl⟩
        intro m' hm' _
        cases hm'
        exact hmetadata

/-- A lease that was read has the specification in its document. -/
theorem spec_of_read {v : Json} {l : Lease} (h : read v = .ok l) : l.spec = specIn v :=
  (read_ok h).2.2

/-- A lease that was read has the version that its document states. -/
theorem version_of_read {v : Json} {l : Lease} {version : String} (h : read v = .ok l)
    (hversion : versionIn v = some version) : l.metadata.resourceVersion? = some version := by
  obtain ⟨m, hm, htext⟩ := Option.bind_eq_some_iff.mp hversion
  obtain ⟨t, ht, htext⟩ := Option.bind_eq_some_iff.mp htext
  have hnull : m ≠ .null := by
    rintro rfl
    cases ht
  obtain ⟨ms, rfl, hfields⟩ := Metadata.read_ok ((read_ok h).2.1 m hm hnull)
  have hmem : ("resourceVersion", false, Shape.text) ∈ Shape.objectMeta.fields := by
    simp [Shape.fields, Shape.objectMeta, Shape.may]
  -- the metadata were read through their shape, which keeps a text as it is
  cases t with
  | str s =>
      have hgiven : Shape.given .text "resourceVersion" ms = some (.str s) :=
        Shape.given_of_get? ht (by rintro ⟨⟩)
      obtain ⟨w, hw, hget⟩ :=
        (Shape.get?_normalizeFields Metadata.nodup_objectMeta hfields hmem).2 _ hgiven
      rw [Shape.normalize] at hw
      cases hw
      rw [Metadata.resourceVersion?, Metadata.text?]
      rw [hget]
      exact htext
  | _ => cases htext

/-- The changes of hands that were read are a whole number of 32 bits. -/
theorem transitions_of_read {v : Json} {l : Lease} (h : read v = .ok l) :
    -2147483648 ≤ l.transitions ∧ l.transitions ≤ 2147483647 := by
  obtain ⟨⟨w, hw⟩, -, hspec⟩ := read_ok h
  rw [transitions]
  rw [hspec]
  cases hcount : (specIn v).bind LeaseSpec.transitions with
  | none => decide
  | some n =>
      obtain ⟨s, hs, hn⟩ := Option.bind_eq_some_iff.mp hcount
      obtain ⟨given, hgiven, hnull, rfl⟩ := specIn_eq_some hs
      -- the document passes the shape of a lease, so its specification passes the shape of one
      obtain ⟨ms, out, rfl, rfl, hfields⟩ := Shape.normalize_record_ok hw
      have hlease : (Shape.lease.fields.map (·.1)).Nodup := by decide
      have hmem : ("spec", false, Shape.leaseSpec) ∈ Shape.lease.fields := by
        simp [Shape.fields, Shape.lease, Shape.may]
      obtain ⟨specOut, hspecOut, -⟩ := (Shape.get?_normalizeFields hlease hfields hmem).2 _
        (Shape.given_of_get? hgiven hnull)
      obtain ⟨ms', out', rfl, rfl, hfields'⟩ := Shape.normalize_record_ok hspecOut
      -- and so its count passes as a whole number of 32 bits
      have hleaseSpec : (Shape.leaseSpec.fields.map (·.1)).Nodup := by decide
      have hmem' : ("leaseTransitions", false, Shape.int32) ∈ Shape.leaseSpec.fields := by
        simp [Shape.fields, Shape.leaseSpec, Shape.may]
      obtain ⟨t, ht, hint⟩ := Option.bind_eq_some_iff.mp hn
      cases t with
      | int m =>
          cases hint
          obtain ⟨countOut, hcountOut, -⟩ :=
            (Shape.get?_normalizeFields hleaseSpec hfields' hmem').2 _
              (Shape.given_of_get? ht (by rintro ⟨⟩))
          rw [Shape.normalize] at hcountOut
          obtain ⟨k, hk, -⟩ := Reading.map_ok hcountOut
          obtain ⟨hsame, hrange⟩ := Reader.within_ok hk
          cases hsame
          exact hrange
      | _ => cases hint

/-! ## A lease that was written -/

theorem get?_toJson (l : Lease) (name : String) :
    l.toJson.get? name = ((List.lookup name [
      ("apiVersion", some (.str "coordination.k8s.io/v1")), ("kind", some (.str "Lease")),
      ("metadata", some l.metadata.toJson), ("spec", l.spec.map LeaseSpec.toJson)]).join) := by
  refine Members.get?_ofPresent ?_ name
  simp

/-- The version is written as it is. -/
theorem versionIn_toJson (l : Lease) : versionIn l.toJson = l.metadata.resourceVersion? := by
  rw [versionIn]
  rw [get?_toJson]
  rfl

/-- The specification is written in its own form. -/
theorem specIn_toJson (l : Lease) :
    specIn l.toJson = l.spec.map fun s => LeaseSpec.ofJson s.toJson := by
  rw [specIn]
  rw [get?_toJson]
  cases l.spec <;> simp [List.lookup_cons]
  rfl

end Lease

end ModelOperator
