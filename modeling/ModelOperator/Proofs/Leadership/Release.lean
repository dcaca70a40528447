import ModelOperator.Proofs.Leadership.Election

/-!
# Releases against elections

    A candidate that stops to lead gives its lease up in two halves: it reads the lease, and
    if it is the holder it patches the holder out.  The patch names no version, so the
    server merges it into whatever lease it has by then.

    Between the two halves other candidates go on with their rounds.  While none of their
    writes lands, the lease is the one that was read and its holder is the one who releases
    it.  Once one has landed, the holder is another candidate, and the patch takes the lease
    from that one: `Election.release_spares_iff` is the exact condition, and
    `Election.release_takes_other` is such a run. -/

namespace ModelOperator

/-! ## What the patch takes out -/

namespace LeaseSpec

/-- A specification whose holder is taken out keeps everything else. -/
theorem ofJson_erase {ms : Members} (h : Members.increasing ms = true) :
    ofJson (.obj (Members.erase "holderIdentity" ms)) =
      { ofJson (.obj ms) with holder := none } := by
  have hother : ∀ name, name ≠ "holderIdentity" →
      Json.get? name (.obj (Members.erase "holderIdentity" ms)) = Json.get? name (.obj ms) :=
    fun name hne => Members.get?_erase_of_ne hne ms
  have hself : Json.get? "holderIdentity" (.obj (Members.erase "holderIdentity" ms)) = none :=
    Members.get?_erase_self h _
  simp only [ofJson, hself, hother "acquireTime" (by decide),
    hother "leaseDurationSeconds" (by decide), hother "leaseTransitions" (by decide),
    hother "preferredHolder" (by decide), hother "renewTime" (by decide),
    hother "strategy" (by decide), Option.bind_none]

end LeaseSpec

namespace Lease

/-- **A lease without its holder.**  The patch of a release takes the holder out of the
    specification and leaves everything else in it. -/
theorem specIn_withoutHolder {v : Json} (h : v.isCanonical = true) :
    specIn (Json.mergePatch Candidate.withoutHolder v) =
      some { (specIn v).getD {} with holder := none } := by
  -- the patch reaches one member, whatever the document is
  have hspec : ∀ ms : Members,
      Json.get? "spec" (Json.mergePatch Candidate.withoutHolder (.obj ms)) = some
        (Json.mergePatch (.obj [("holderIdentity", .null)])
          ((Members.get? "spec" ms).getD .null)) := by
    intro ms
    refine (Json.get?_mergeMembers rfl ?_ ms "spec").trans rfl
    intro m hm
    cases List.mem_singleton.mp hm
    rfl
  have hempty : Json.mergePatch (.obj [("holderIdentity", .null)]) (.obj []) = .obj [] := rfl
  cases hobject : v.isObject with
  | false =>
      have hnone : specIn v = none := by
        cases v <;> first | rfl | cases hobject
      rw [hnone, Candidate.withoutHolder, Json.mergePatch_of_not_object _ hobject]
      rfl
  | true =>
      obtain ⟨ms, rfl⟩ : ∃ ms, v = .obj ms := by
        cases v <;> first | exact ⟨_, rfl⟩ | cases hobject
      cases hgiven : Members.get? "spec" ms with
      | none =>
          have hnone : specIn (.obj ms) = none := by
            rw [specIn, show Json.get? "spec" (.obj ms) = none from hgiven]
          rw [hnone, specIn, hspec, hgiven]
          rfl
      | some w =>
          have hgiven' : Json.get? "spec" (.obj ms) = some w := hgiven
          have hw : w.isCanonical = true := Json.isCanonical_of_get? h hgiven
          rw [specIn, hspec, hgiven, Option.getD_some, specIn, hgiven']
          cases w with
          | obj inner =>
              exact congrArg some (LeaseSpec.ofJson_erase (Json.increasing_of_isCanonical hw))
          | _ => rfl

end Lease

/-! ## The two halves of a release -/

namespace Candidate

variable {c : Candidate} {s after : LeaseStore}

/-- A release fails in its reading half, or it is both halves one after the other. -/
theorem plays_release {σ : Type} {rules : σ → ClusterRequest → Delivery → σ → Prop} {s after : σ}
    {result : Except CallError Unit} :
    Exchange.Plays rules c.release s result after ↔
      (∃ e, Exchange.Plays rules c.fetch s (.error e) after ∧ result = .error e) ∨
      ∃ found between, Exchange.Plays rules c.fetch s (.ok found) between ∧
        Exchange.Plays rules (c.clear found) between result after := by
  refine Exchange.plays_halves c.fetch _ ?_ s after result
  intro e
  rfl

/-- **The patching half.**  It leaves the lease as it is, or the candidate was the holder of
    what it had read, and the holder is taken out of the lease that there is now. -/
theorem plays_clear {found : Option Lease} {result : Except CallError Unit}
    (h : Exchange.Plays LeaseStore.Serves (c.clear found) s result after) :
    after = s ∨ ∃ l now, found = some l ∧ l.isHeldBy c.identity = true ∧
      s.current = some now ∧ s.Stores (Json.mergePatch withoutHolder now.document) after := by
  cases found with
  | none => exact Or.inl (Exchange.plays_done h).2
  | some l =>
      rw [clear] at h
      cases hheld : l.isHeldBy c.identity with
      | false =>
          rw [if_neg (by rw [hheld]; exact Bool.false_ne_true)] at h
          exact Or.inl (Exchange.plays_done h).2
      | true =>
          rw [if_pos hheld] at h
          obtain ⟨called, between, hcall, hrest⟩ := (Exchange.plays_bind _ _ _ _ _).mp h
          obtain ⟨-, rfl⟩ := Exchange.plays_done hrest
          rcases Exchange.plays_call hcall with ⟨-, -, -, rfl⟩ | ⟨r, d, hbuild, hserved, -⟩
          · exact Or.inl rfl
          · obtain ⟨hmethod, hbody⟩ := Collection.buildNamed_ok hbuild
            cases hserved with
            | shown | refused => exact Or.inl rfl
            | created hother => exact absurd (hmethod.symm.trans hother) (by decide)
            | replaced hother => exact absurd (hmethod.symm.trans hother) (by decide)
            | patched _ hsent hcurrent _ hstored =>
                cases hbody.symm.trans hsent
                exact Or.inr ⟨l, _, rfl, hheld, hcurrent, hstored⟩

end Candidate

/-! ## Writes between the halves -/

namespace Election

open Relation (ReflTransGen)

variable {lease ns identity : String} {start after : LeaseStore} {e between : Election}

theorem Reachable.of_runs (h : Reachable lease ns start e)
    (hruns : ReflTransGen (Step lease ns) e between) : Reachable lease ns start between := by
  induction hruns with
  | refl => exact h
  | tail _ hstep ih => exact .step ih hstep

/-- The writes decide which lease there is after them. -/
theorem Accounts.unique {first last last' : Option StoredLease} {writes : List LeaseWrite}
    (h : Accounts first writes last) (h' : Accounts first writes last') : last = last' := by
  cases writes with
  | nil => exact h.trans h'.symm
  | cons w earlier => exact h.1.trans h'.1.symm

/-- After further writes the lease is as before if none of them landed; otherwise it is held
    by the candidate of one that did. -/
theorem Accounts.holder {first before last : Option StoredLease} {writes : List LeaseWrite}
    (hbefore : Accounts first writes before) (later : List LeaseWrite)
    (hlast : Accounts first (later ++ writes) last) (hsound : ∀ w ∈ later, w.Sound) :
    (last = before ∧ ∀ w ∈ later, ¬ w.Lands) ∨
      ∃ w ∈ later, w.Lands ∧ last.bind StoredLease.holder? = some w.round.identity := by
  induction later generalizing last with
  | nil =>
      refine Or.inl ⟨hlast.unique hbefore, ?_⟩
      intro w hw
      cases hw
  | cons w earlier ih =>
      obtain ⟨rfl, hrest⟩ := hlast
      by_cases hlands : w.Lands
      · exact Or.inr ⟨w, List.mem_cons_self, hlands, (hsound w List.mem_cons_self).holds hlands⟩
      · -- a write that does not land leaves what there was before it
        have hsame : w.after = w.before := not_not.mp hlands
        rw [hsame]
        rcases ih hrest fun w hw => hsound w (List.mem_cons_of_mem _ hw) with
          ⟨hbefore, hnone⟩ | ⟨v, hv, hholds⟩
        · exact Or.inl ⟨hbefore, List.forall_mem_cons.mpr ⟨hlands, hnone⟩⟩
        · exact Or.inr ⟨v, List.mem_cons_of_mem _ hv, hholds⟩

/-- A release spares the other candidates if it changes the lease only while its own
    candidate holds it. -/
def Spares (identity : String) (before after : Option StoredLease) : Prop :=
  after ≠ before → before.bind StoredLease.holder? = some identity

/-- A candidate that finds itself in the lease is the holder of the lease that there is. -/
theorem holder?_of_plays_fetch {s : LeaseStore} {l : Lease}
    (h : Exchange.Plays LeaseStore.Serves (Candidate.fetch ⟨lease, ns, identity⟩) s
      (.ok (some l)) after) (hheld : l.isHeldBy identity = true) :
    s.current.bind StoredLease.holder? = some identity := by
  obtain ⟨-, -, hsome⟩ := Candidate.plays_fetch h
  obtain ⟨now, hcurrent, hread⟩ := hsome l rfl
  rw [hcurrent]
  show now.spec.bind LeaseSpec.holder = some identity
  rw [show now.spec = l.spec from (Lease.spec_of_read hread).symm]
  exact beq_iff_eq.mp hheld

/-- What a patch that changes the lease takes away, by the lease before the release, the
    writes since, and the lease before and after the patch. -/
structure Clears (identity : String) (first : Option StoredLease) (others : List LeaseWrite)
    (before after : Option StoredLease) : Prop where
  /-- Its candidate held the lease that it read. -/
  held : first.bind StoredLease.holder? = some identity
  /-- It takes out the holder, and keeps everything else in the specification. -/
  kept : ∀ now, before = some now → now.document.isCanonical = true →
    after.bind StoredLease.spec = some { now.spec.getD {} with holder := none }
  /-- The holder is its own candidate if no write has landed since, and otherwise the
      candidate of one that has. -/
  holder : (before.bind StoredLease.holder? = some identity ∧ ∀ w ∈ others, ¬ w.Lands) ∨
    ∃ w ∈ others, w.Lands ∧ before.bind StoredLease.holder? = some w.round.identity

/-- **What a release takes away.**  In every election, while other candidates write between
    the two halves of a release, the release spares them exactly if its patch changes
    nothing or no write has landed in between; and whatever the patch takes away is the
    holder that there is by then. -/
theorem release_spares_iff {found : Option Lease} {result : Except CallError Unit}
    {others : List LeaseWrite} (hreach : Reachable lease ns start e)
    (hread : Exchange.Plays LeaseStore.Serves (Candidate.fetch ⟨lease, ns, identity⟩) e.store
      (.ok found) e.store)
    (hruns : ReflTransGen (Step lease ns) e between)
    (hwrites : between.writes = others ++ e.writes)
    (hothers : ∀ w ∈ others, w.round.identity ≠ identity)
    (hclear : Exchange.Plays LeaseStore.Serves (Candidate.clear ⟨lease, ns, identity⟩ found)
      between.store result after) :
    (Spares identity between.store.current after.current ↔
      after.current = between.store.current ∨ ∀ w ∈ others, ¬ w.Lands) ∧
    (after.current ≠ between.store.current →
      Clears identity e.store.current others between.store.current after.current) := by
  have hinv := inv_of_reachable (hreach.of_runs hruns)
  have hsound : ∀ w ∈ others, w.Sound := by
    intro w hw
    refine hinv.sound w ?_
    rw [hwrites]
    exact List.mem_append_left _ hw
  have hholder := (inv_of_reachable hreach).accounts.holder others
    (hwrites ▸ hinv.accounts) hsound
  have hclears : after.current ≠ between.store.current →
      Clears identity e.store.current others between.store.current after.current := by
    intro hne
    rcases Candidate.plays_clear hclear with rfl | ⟨l, now, rfl, hheld, hnow, hstored⟩
    · exact absurd rfl hne
    · have hfirst := holder?_of_plays_fetch hread hheld
      refine ⟨hfirst, ?_, ?_⟩
      · intro now' hnow' hcanonical
        cases hnow.symm.trans hnow'
        obtain ⟨kept, hkept, hspec, -⟩ := hstored
        rw [hkept]
        exact hspec.trans (Lease.specIn_withoutHolder hcanonical)
      · rcases hholder with ⟨hsame, hnone⟩ | hother
        · rw [hsame]
          exact Or.inl ⟨hfirst, hnone⟩
        · exact Or.inr hother
  refine ⟨?_, hclears⟩
  constructor
  · intro hspares
    refine or_iff_not_imp_left.mpr fun hne => ?_
    rcases (hclears hne).holder with ⟨-, hnone⟩ | ⟨w, hw, -, hheld⟩
    · exact hnone
    · -- the holder would be both candidates
      exact absurd (Option.some.inj (hheld.symm.trans (hspares hne))) (hothers w hw)
  · rintro (hsame | hnone) hne
    · exact absurd hsame hne
    · rcases (hclears hne).holder with ⟨hheld, -⟩ | ⟨w, hw, hlands, -⟩
      · exact hheld
      · exact absurd hlands (hnone w hw)

/-! ## A release and a takeover -/

/-- The lease that a candidate has taken over and lost its holder, as a document. -/
def freedDocument : Json :=
  .obj [("metadata", .obj [("resourceVersion", .str "9")]),
    ("spec", .obj [("acquireTime", .str "1970-01-01T00:01:00.000000Z"),
      ("leaseDurationSeconds", .int 30), ("leaseTransitions", .int 4),
      ("renewTime", .str "1970-01-01T00:01:00.000000Z")])]

/-- The server after a patch has taken the holder out of that lease. -/
def freedStore : LeaseStore where
  current := some ⟨freedDocument, "9", rfl⟩
  issued := ["9", "8", "7"]
  current_issued := by
    intro lease h
    cases h
    exact List.mem_cons_self

/-- The server after a patch has taken the holder out of the lease before the race. -/
def clearedStore : LeaseStore where
  current := some ⟨.obj [("metadata", .obj [("resourceVersion", .str "8")]),
    ("spec", .obj [("leaseDurationSeconds", .int 30), ("leaseTransitions", .int 3),
      ("renewTime", .str "1970-01-01T00:00:00Z")])], "8", rfl⟩
  issued := ["8", "7"]
  current_issued := by
    intro lease h
    cases h
    exact List.mem_cons_self

-- the address is read character by character
set_option maxRecDepth 1000 in
theorem patchRequest_pod (identity : String) :
    (pod identity).leases.patchRequest (pod identity).lease "" .merge
        ⟨some Naming.fieldManager, false⟩ Candidate.withoutHolder =
      .ok ⟨"PATCH", leaseAddress ++ "?&fieldManager=ollama-operator",
        some "application/merge-patch+json", some Candidate.withoutHolder⟩ := by
  rw [pod, Candidate.leases]
  cbv

/-- The patch of a candidate that was the holder is applied to whatever lease there is. -/
theorem plays_clear_staleLease {s after : LeaseStore} {now : StoredLease}
    (hcurrent : s.current = some now)
    (hstored : s.Stores (Json.mergePatch Candidate.withoutHolder now.document) after) :
    Exchange.Plays LeaseStore.Serves ((pod "pod-b").clear (some staleLease)) s (.ok ()) after := by
  have hheld : staleLease.isHeldBy (pod "pod-b").identity = true := rfl
  have hresult : ((Delivery.reply ⟨200, "\x7b\x7d"⟩).result Lease.decoder).map
      (fun _ => ()) = .ok () := by cbv
  rw [Candidate.clear, if_pos hheld, ← hresult]
  refine (Exchange.plays_bind _ _ _ _ _).mpr ⟨_, after, ?_, .done _ _⟩
  refine Exchange.plays_call_of (patchRequest_pod "pod-b") ?_
  refine .patched rfl rfl hcurrent ?_ hstored
  intro version hversion
  cases hversion

/-- A release that nothing comes between takes its own candidate out of the lease. -/
theorem release_spares_quiet :
    Exchange.Plays LeaseStore.Serves (pod "pod-b").release staleStore (.ok ()) clearedStore ∧
    clearedStore.current ≠ staleStore.current ∧
    Spares "pod-b" staleStore.current clearedStore.current := by
  have hstored : staleStore.Stores
      (Json.mergePatch Candidate.withoutHolder staleDocument) clearedStore := by
    have hfresh : "8" ∉ ["7"] := by decide
    exact ⟨_, rfl, by cbv, hfresh, rfl⟩
  have hclear := plays_clear_staleLease (s := staleStore) rfl hstored
  have hwrites : ([] : List LeaseWrite) = [] ++ [] := rfl
  have hspares := (release_spares_iff (e := ⟨staleStore, [], []⟩) .start
    (plays_fetch_staleStore "pod-b") .refl hwrites (by simp) hclear).1
  refine ⟨?_, LeaseStore.ne_of_stores hstored, hspares.mpr (Or.inr (by simp))⟩
  exact Candidate.plays_release.mpr
    (Or.inr ⟨_, _, plays_fetch_staleStore "pod-b", hclear⟩)

/-- **A release that takes the lease from another.**  One candidate reads the lease that it
    let run out; the other takes it over and leads; then the patch of the first is applied,
    and the lease has no holder. -/
theorem release_takes_other : ∃ between won,
    Exchange.Plays LeaseStore.Serves (pod "pod-b").fetch staleStore (.ok (some staleLease))
      staleStore ∧
    Relation.ReflTransGen (Step operatorLease "default") ⟨staleStore, [], []⟩ between ∧
    between.writes = [won] ∧ won.round.identity = "pod-a" ∧ won.result = .ok true ∧
    Exchange.Plays LeaseStore.Serves ((pod "pod-b").clear (some staleLease)) between.store
      (.ok ()) freedStore ∧
    between.store.current.bind StoredLease.holder? = some "pod-a" ∧
    freedStore.current.bind StoredLease.holder? = none ∧
    ¬ Spares "pod-b" between.store.current freedStore.current := by
  let won : LeaseWrite :=
    ⟨staleRound "pod-a", staleStore.current, .ok true, (takenStore "pod-a").current⟩
  have hruns : Relation.ReflTransGen (Step operatorLease "default") ⟨staleStore, [], []⟩
      ⟨takenStore "pod-a", [staleRound "pod-a"], [won]⟩ :=
    .tail (.tail .refl (.read (plays_fetch_staleStore "pod-a")))
      (.write List.mem_cons_self (plays_write_staleStore (by decide)))
  have hstored : (takenStore "pod-a").Stores (Json.mergePatch Candidate.withoutHolder
      (takenLease "pod-a" "8").toJson) freedStore := by
    have hfresh : "9" ∉ ["8", "7"] := by decide
    exact ⟨_, rfl, by cbv, hfresh, rfl⟩
  have hheld : (takenStore "pod-a").current.bind StoredLease.holder? = some "pod-a" := by cbv
  refine ⟨_, won, plays_fetch_staleStore "pod-b", hruns, rfl, rfl, rfl,
    plays_clear_staleLease rfl hstored, hheld, by cbv, ?_⟩
  intro hspares
  have hother := hheld.symm.trans (hspares (LeaseStore.ne_of_stores hstored))
  exact absurd (Option.some.inj hother) (by decide)

end Election

end ModelOperator
