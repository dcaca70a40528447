import ModelOperator.Controller.Pass

/-!
# How passes run

    A pass is played from any progress made so far.  The equations below say what each
    operation adds to that progress, so that a pass over a resource is followed step by
    step and no later proof opens the monad again.

    `Pass.OnlyCalls` singles out the parts of a pass that only look things up: they add
    calls of one kind, change nothing, and come to the same result wherever they start. -/

namespace ModelOperator

namespace Progress

variable {σ κ : Type}

/-- The progress after more calls. -/
def calling (s : Progress σ κ) (calls : List κ) : Progress σ κ :=
  { s with calls := s.calls ++ calls }

@[simp] theorem calling_resource (s : Progress σ κ) (calls : List κ) :
    (s.calling calls).resource = s.resource := rfl

@[simp] theorem calling_calls (s : Progress σ κ) (calls : List κ) :
    (s.calling calls).calls = s.calls ++ calls := rfl

@[simp] theorem calling_nil (s : Progress σ κ) : s.calling [] = s := by
  simp [calling]

/-- Calls that follow calls are recorded in one list. -/
@[simp] theorem calling_calling (s : Progress σ κ) (first second : List κ) :
    (s.calling first).calling second = s.calling (first ++ second) := by
  simp [calling]

end Progress

namespace Pass

variable {σ κ ε α β : Type}

/-- Plays a pass from the progress made so far. -/
def resume (p : Pass σ κ ε α) (s : Progress σ κ) : Except ε α × Progress σ κ :=
  (ExceptT.run p).run s

theorem runOn_eq_resume (p : Pass σ κ ε α) (r : σ) : p.runOn r = p.resume { resource := r } :=
  rfl

/-- A result ends a pass and leaves the progress as it is. -/
@[simp] theorem resume_pure (a : α) (s : Progress σ κ) :
    (pure a : Pass σ κ ε α).resume s = (.ok a, s) := rfl

/-- An error ends a pass and leaves the progress as it is. -/
@[simp] theorem resume_throw (e : ε) (s : Progress σ κ) :
    (throw e : Pass σ κ ε α).resume s = (.error e, s) := rfl

/-- A call is recorded behind the others. -/
@[simp] theorem resume_call (c : κ) (outcome : α) (s : Progress σ κ) :
    (call c outcome : Pass σ κ ε α).resume s = (.ok outcome, s.calling [c]) := rfl

/-- An event is recorded behind the others. -/
@[simp] theorem resume_publish (e : Event) (s : Progress σ κ) :
    (publish e : Pass σ κ ε Unit).resume s = (.ok (), { s with events := s.events ++ [e] }) := rfl

@[simp] theorem resume_resource (s : Progress σ κ) :
    (resource : Pass σ κ ε σ).resume s = (.ok s.resource, s) := rfl

/-- A sequence goes on from where its first part ended, unless that part failed. -/
theorem resume_bind (p : Pass σ κ ε α) (f : α → Pass σ κ ε β) (s : Progress σ κ) :
    (p >>= f).resume s =
      match p.resume s with
      | (.ok a, after) => (f a).resume after
      | (.error e, after) => (.error e, after) := by
  have hbind : (p >>= f).resume s =
      (ExceptT.bindCont f ((ExceptT.run p).run s).1).run ((ExceptT.run p).run s).2 := rfl
  rw [hbind]
  rw [resume]
  rcases (ExceptT.run p).run s with ⟨r, after⟩
  cases r with
  | ok a => rfl
  | error e => rfl

/-- **Lookups.**  The pass only adds calls of a kind, with the same result from any
    progress. -/
def OnlyCalls (kind : κ → Prop) (p : Pass σ κ ε α) : Prop :=
  ∃ result calls, (∀ c ∈ calls, kind c) ∧ ∀ s, p.resume s = (result, s.calling calls)

namespace OnlyCalls

variable {kind : κ → Prop}

/-- A result needs no calls. -/
theorem pure (a : α) : OnlyCalls kind (Pure.pure a : Pass σ κ ε α) := by
  refine ⟨.ok a, [], by simp, ?_⟩
  intro s
  rw [resume_pure, Progress.calling_nil]

/-- An error needs no calls. -/
theorem throw (e : ε) : OnlyCalls kind (MonadExcept.throw e : Pass σ κ ε α) := by
  refine ⟨.error e, [], by simp, ?_⟩
  intro s
  rw [Progress.calling_nil]
  rfl

/-- One call of a kind is a lookup of that kind. -/
theorem call {c : κ} (hc : kind c) (outcome : α) :
    OnlyCalls kind (Pass.call c outcome : Pass σ κ ε α) :=
  ⟨.ok outcome, [c], by simpa using hc, fun s => resume_call c outcome s⟩

/-- Lookups in a row are lookups. -/
theorem bind {p : Pass σ κ ε α} {f : α → Pass σ κ ε β} (hp : OnlyCalls kind p)
    (hf : ∀ a, OnlyCalls kind (f a)) : OnlyCalls kind (p >>= f) := by
  obtain ⟨result, calls, hcalls, hrun⟩ := hp
  cases result with
  | error e =>
      -- the second part is never reached
      refine ⟨.error e, calls, hcalls, ?_⟩
      intro s
      rw [resume_bind, hrun]
  | ok a =>
      obtain ⟨result', calls', hcalls', hrun'⟩ := hf a
      refine ⟨result', calls ++ calls', ?_, ?_⟩
      · intro c hc
        rcases List.mem_append.mp hc with h | h
        · exact hcalls c h
        · exact hcalls' c h
      · intro s
        rw [resume_bind, hrun]
        show (f a).resume (s.calling calls) = _
        rw [hrun', Progress.calling_calling]

end OnlyCalls

/-- **Invariants.**  The pass keeps a property of the resource, however it ends. -/
def Preserves (P : σ → Prop) (p : Pass σ κ ε α) : Prop :=
  ∀ s, P s.resource → P (p.resume s).2.resource

namespace Preserves

variable {P : σ → Prop}

theorem pure (a : α) : Preserves P (Pure.pure a : Pass σ κ ε α) := fun _ h => h

theorem throw (e : ε) : Preserves P (MonadExcept.throw e : Pass σ κ ε α) := fun _ h => h

theorem call (c : κ) (outcome : α) : Preserves P (Pass.call c outcome : Pass σ κ ε α) :=
  fun _ h => h

/-- An event does not touch the resource. -/
theorem publish (e : Event) : Preserves P (Pass.publish e : Pass σ κ ε Unit) := fun _ h => h

theorem resource : Preserves P (Pass.resource : Pass σ κ ε σ) := fun _ h => h

/-- A change keeps what it keeps of every resource. -/
theorem update {f : σ → σ} (hf : ∀ r, P r → P (f r)) :
    Preserves P (Pass.update f : Pass σ κ ε Unit) := fun _ h => hf _ h

/-- What both parts keep is kept by a sequence. -/
theorem bind {p : Pass σ κ ε α} {f : α → Pass σ κ ε β} (hp : Preserves P p)
    (hf : ∀ a, Preserves P (f a)) : Preserves P (p >>= f) := by
  intro s h
  have hfirst := hp s h
  rw [resume_bind]
  cases hrun : p.resume s with
  | mk result after =>
      rw [hrun] at hfirst
      cases result with
      | ok a => exact hf a after hfirst
      | error e => exact hfirst

/-- After a call, only its one outcome matters. -/
theorem call_bind {c : κ} {outcome : α} {f : α → Pass σ κ ε β} (hf : Preserves P (f outcome)) :
    Preserves P (Pass.call c outcome >>= f) := by
  intro s h
  rw [resume_bind, resume_call]
  exact hf _ h

/-- Where a pass only adds calls, the resource stays as it is. -/
theorem of_onlyCalls {kind : κ → Prop} {p : Pass σ κ ε α} (hp : OnlyCalls kind p) :
    Preserves P p := by
  obtain ⟨result, calls, -, hrun⟩ := hp
  intro s h
  rw [hrun]
  exact h

end Preserves

end Pass

end ModelOperator
