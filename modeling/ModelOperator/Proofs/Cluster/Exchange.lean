import ModelOperator.Cluster.Exchange

/-!
# Exchanges against a server that is only partly known

    `Exchange.run` plays an exchange against one server.  Of a real server only some rules
    are known: which answers a state allows, and which states may follow.  `Exchange.Plays`
    is what an exchange may come to against every server that keeps such rules, and
    `Exchange.plays_run` says that a server which keeps them comes to nothing else. -/

namespace ModelOperator

namespace Exchange

variable {α β σ : Type}

/-- What an exchange may come to, when the server answers a request in a state only as the
    rules allow. -/
inductive Plays (rules : σ → ClusterRequest → Delivery → σ → Prop) :
    Exchange α → σ → α → σ → Prop
  | done (value : α) (s : σ) : Plays rules (.done value) s value s
  | ask {request : ClusterRequest} {next : Delivery → Exchange α} {d : Delivery}
      {s between after : σ} {value : α} (hanswer : rules s request d between)
      (hrest : Plays rules (next d) between value after) :
      Plays rules (.ask request next) s value after

variable {rules : σ → ClusterRequest → Delivery → σ → Prop}

theorem plays_done {value result : α} {s after : σ}
    (h : Plays rules (.done value) s result after) : result = value ∧ after = s := by
  cases h
  exact ⟨rfl, rfl⟩

/-- A server that keeps the rules plays as they say. -/
theorem plays_run {serve : Server σ} (h : ∀ s r, rules s r (serve s r).1 (serve s r).2)
    (x : Exchange α) (s : σ) : Plays rules x s (run serve x s).1 (run serve x s).2 := by
  induction x generalizing s with
  | done value => exact .done value s
  | ask request next ih => exact .ask (h s request) (ih _ _)

/-- **One exchange and then another.**  The second begins in the state in which the first
    ended. -/
theorem plays_bind (x : Exchange α) (f : α → Exchange β) (s after : σ) (result : β) :
    Plays rules (bind x f) s result after ↔
      ∃ value between, Plays rules x s value between ∧
        Plays rules (f value) between result after := by
  constructor
  · -- the first exchange is played along its own requests
    intro h
    induction x generalizing s with
    | done value => exact ⟨value, s, .done value s, h⟩
    | ask request next ih =>
        cases h with
        | ask hanswer hrest =>
            obtain ⟨value, between, hfirst, hsecond⟩ := ih _ _ hrest
            exact ⟨value, between, .ask hanswer hfirst, hsecond⟩
  · -- and is put in front of the second answer by answer
    rintro ⟨value, between, hfirst, hsecond⟩
    induction hfirst with
    | done value s => exact hsecond
    | ask hanswer _ ih => exact .ask hanswer (ih hsecond)

/-- **One exchange and then another, unless the first fails.** -/
theorem plays_halves {ε : Type} (x : Exchange (Except ε α))
    (f : Except ε α → Exchange (Except ε β)) (hfail : ∀ e, f (.error e) = .done (.error e))
    (s after : σ) (result : Except ε β) :
    Plays rules (bind x f) s result after ↔
      (∃ e, Plays rules x s (.error e) after ∧ result = .error e) ∨
      ∃ value between, Plays rules x s (.ok value) between ∧
        Plays rules (f (.ok value)) between result after := by
  refine (plays_bind _ _ _ _ _).trans ?_
  constructor
  · rintro ⟨called, between, hfirst, hrest⟩
    cases called with
    | error e =>
        rw [hfail] at hrest
        obtain ⟨rfl, rfl⟩ := plays_done hrest
        exact Or.inl ⟨e, hfirst, rfl⟩
    | ok value => exact Or.inr ⟨value, between, hfirst, hrest⟩
  · rintro (⟨e, hfirst, rfl⟩ | ⟨value, between, hfirst, hsecond⟩)
    · refine ⟨.error e, after, hfirst, ?_⟩
      rw [hfail]
      exact .done _ _
    · exact ⟨.ok value, between, hfirst, hsecond⟩

/-- A call comes to the failure to build its request, or to the result of an answer. -/
theorem plays_call {request : Except CallError ClusterRequest} {decoder : Decoder α} {s after : σ}
    {result : Except CallError α} (h : Plays rules (call request decoder) s result after) :
    (∃ e, request = .error e ∧ result = .error e ∧ after = s) ∨
      ∃ r d, request = .ok r ∧ rules s r d after ∧ result = d.result decoder := by
  cases request with
  | error e =>
      obtain ⟨rfl, rfl⟩ := plays_done h
      exact Or.inl ⟨e, rfl, rfl, rfl⟩
  | ok r =>
      cases h with
      | ask hanswer hrest =>
          obtain ⟨rfl, rfl⟩ := plays_done hrest
          exact Or.inr ⟨r, _, rfl, hanswer, rfl⟩

theorem plays_call_of {request : Except CallError ClusterRequest} {decoder : Decoder α}
    {r : ClusterRequest} {d : Delivery} {s after : σ} (hrequest : request = .ok r)
    (hanswer : rules s r d after) :
    Plays rules (call request decoder) s (d.result decoder) after := by
  subst hrequest
  exact .ask hanswer (.done _ _)

end Exchange

/-! ## What an answer carries -/

namespace Delivery

/-- What is looked at of the document in an accepting reply. -/
def document? (e : Extent) : Delivery → Option Json
  | .dropped _ => none
  | .reply r => if r.isRefusal then none else e.ofText? r.body

/-- What a refusing reply says. -/
def refusal? : Delivery → Option ApiStatus
  | .dropped _ => none
  | .reply r => if r.isRefusal then some r.refusal else none

/-- A call that succeeds has read the document of an accepting reply. -/
theorem document?_of_result {α : Type} {decoder : Decoder α} {d : Delivery} {a : α}
    (h : d.result decoder = .ok a) :
    ∃ v, d.document? decoder.extent = some v ∧ decoder.read v = .ok a := by
  cases d with
  | dropped detail => cases h
  | reply r =>
      rw [result] at h
      unfold document?
      dsimp only at h ⊢
      cases hrefusal : r.isRefusal with
      | true =>
          rw [hrefusal] at h
          cases h
      | false =>
          rw [hrefusal] at h
          cases hparse : decoder.extent.ofText? r.body with
          | none =>
              rw [hparse] at h
              cases h
          | some v =>
              rw [hparse] at h
              refine ⟨v, rfl, ?_⟩
              cases hread : decoder.read v with
              | error fault => simp [hread] at h
              | ok b => simpa [hread] using h

theorem result_of_document? {α : Type} {decoder : Decoder α} {d : Delivery} {v : Json} {a : α}
    (hdocument : d.document? decoder.extent = some v) (hread : decoder.read v = .ok a) :
    d.result decoder = .ok a := by
  cases d with
  | dropped detail => cases hdocument
  | reply r =>
      rw [document?] at hdocument
      unfold result
      dsimp only at hdocument ⊢
      split at hdocument
      · cases hdocument
      · rename_i hrefusal
        rw [if_neg hrefusal, hdocument]
        dsimp only
        rw [hread]

/-- A reply that carries a document refuses nothing. -/
theorem refusal?_of_document? {e : Extent} {d : Delivery} {v : Json}
    (h : d.document? e = some v) : d.refusal? = none := by
  cases d with
  | dropped detail => rfl
  | reply r =>
      rw [document?] at h
      unfold refusal?
      dsimp only at h ⊢
      split at h
      · cases h
      · rename_i hrefusal
        rw [if_neg hrefusal]

/-- A call that the server refuses fails with what the reply says. -/
theorem refusal?_of_result {α : Type} {decoder : Decoder α} {d : Delivery} {st : ApiStatus}
    (h : d.result decoder = .error (.api st)) : d.refusal? = some st := by
  cases d with
  | dropped detail => cases h
  | reply r =>
      rw [result] at h
      unfold refusal?
      dsimp only at h ⊢
      cases hrefusal : r.isRefusal with
      | true =>
          rw [hrefusal] at h
          cases h
          rfl
      | false =>
          -- an accepting reply fails, if at all, while it is read
          rw [hrefusal, if_neg Bool.false_ne_true] at h
          split at h
          · cases h
          · split at h <;> cases h

end Delivery

end ModelOperator
