import Mathlib.Data.List.Basic
import ModelOperator.Proofs.Resource.Conditions
import ModelOperator.Resource.Prompt

/-!
# When a model counts as synced and ready

    Prompts wait until their model says two things and nothing else: that its last pass
    ended well, and that it can be used.  The test counts the conditions and looks for each
    of them among the two that it wants, but not the other way round.

    So it lets through exactly the lists with one condition of each kind, in either order,
    and those that say one of the two things twice (`ConditionSet.isSyncedAndReady_iff`).
    Sets that are only changed by `ConditionSet.set` never say anything twice, but a list
    that is read may (`Model.doubled_synced_passes`). -/

namespace ModelOperator

namespace Condition

/-- Says that the last pass ended well, at any time and for any generation. -/
def SaysSynced (c : Condition) : Prop :=
  c.type = syncedType ∧ c.status = .holds ∧ c.reason = "ReconcileSuccess" ∧ c.message = ""

/-- Says that the resource can be used, at any time and for any generation. -/
def SaysReady (c : Condition) : Prop :=
  c.type = readyType ∧ c.status = .holds ∧ c.reason = "Available" ∧ c.message = ""

theorem reconcileSuccess_equivalent_iff (now : Instant) (c : Condition) :
    (reconcileSuccess now).equivalent c = true ↔ c.SaysSynced := by
  rw [equivalent_iff, SaysSynced]
  simp only [reconcileSuccess, eq_comm]

theorem available_equivalent_iff (now : Instant) (c : Condition) :
    (available now).equivalent c = true ↔ c.SaysReady := by
  rw [equivalent_iff, SaysReady]
  simp only [available, eq_comm]

/-- No condition says both. -/
theorem SaysSynced.not_saysReady {c : Condition} (h : c.SaysSynced) : ¬ c.SaysReady := by
  intro hready
  have htype : syncedType = readyType := h.1.symm.trans hready.1
  exact absurd htype (by decide)

end Condition

namespace ConditionSet

/-- One condition of each kind and no other, in either order. -/
def SaysBoth (s : ConditionSet) : Prop :=
  ∃ synced ready, synced.SaysSynced ∧ ready.SaysReady ∧
    (s.items = [synced, ready] ∨ s.items = [ready, synced])

/-- Two conditions of one kind and no other. -/
def SaysOneTwice (s : ConditionSet) : Prop :=
  ∃ first second, s.items = [first, second] ∧
    (first.SaysSynced ∧ second.SaysSynced ∨ first.SaysReady ∧ second.SaysReady)

/-- The set that the test compares with has a condition if that says one of the two. -/
theorem has_expected_iff (c : Condition) :
    (ofList [.reconcileSuccess default, .available default]).has c = true ↔
      c.SaysSynced ∨ c.SaysReady := by
  have hget : ∀ type, (ofList [.reconcileSuccess default, .available default]).get? type =
      if Condition.syncedType = type then some (.reconcileSuccess default)
      else if Condition.readyType = type then some (.available default) else none := by
    intro type
    show [Condition.reconcileSuccess default, .available default].find?
      (fun d => d.type == type) = _
    by_cases hsynced : Condition.syncedType = type
    · simp [Condition.reconcileSuccess, hsynced]
    · by_cases hready : Condition.readyType = type
      · simp [Condition.reconcileSuccess, Condition.available, hsynced, hready]
      · simp [Condition.reconcileSuccess, Condition.available, hsynced, hready]
  rw [has, hget, ← Condition.reconcileSuccess_equivalent_iff default,
    ← Condition.available_equivalent_iff default]
  -- the type of the condition decides which of the two it is compared with
  have htype : ∀ d : Condition, d.equivalent c = true → d.type = c.type :=
    fun d h => ((Condition.equivalent_iff d c).mp h).1
  by_cases hsynced : Condition.syncedType = c.type
  · rw [if_pos hsynced]
    refine (or_iff_left fun h => ?_).symm
    exact absurd (hsynced.trans (htype _ h).symm) (by decide)
  · rw [if_neg hsynced]
    by_cases hready : Condition.readyType = c.type
    · rw [if_pos hready]
      exact (or_iff_right fun h => hsynced (htype _ h)).symm
    · rw [if_neg hready]
      refine ⟨fun h => absurd h Bool.false_ne_true, ?_⟩
      rintro (h | h)
      · exact absurd (htype _ h) hsynced
      · exact absurd (htype _ h) hready

/-- The test lets a list of two through if each of them says one of the two things. -/
theorem isSyncedAndReady_iff_two (s : ConditionSet) :
    s.isSyncedAndReady = true ↔ ∃ first second, s.items = [first, second] ∧
      (first.SaysSynced ∨ first.SaysReady) ∧ (second.SaysSynced ∨ second.SaysReady) := by
  have hlength : (ofList [.reconcileSuccess default, .available default]).items.length = 2 := rfl
  rw [isSyncedAndReady, equivalent, hlength, Bool.and_eq_true, beq_iff_eq, List.all_eq_true]
  constructor
  · rintro ⟨htwo, hall⟩
    obtain ⟨first, second, hitems⟩ := List.length_eq_two.mp htwo
    have hfirst := hall first (by rw [hitems]; exact List.mem_cons_self)
    have hsecond := hall second (by rw [hitems]; exact List.mem_cons_of_mem _ List.mem_cons_self)
    exact ⟨first, second, hitems, (has_expected_iff first).mp hfirst,
      (has_expected_iff second).mp hsecond⟩
  · rintro ⟨first, second, hitems, hfirst, hsecond⟩
    rw [hitems]
    refine ⟨rfl, ?_⟩
    intro c hc
    rcases List.mem_cons.mp hc with rfl | hc
    · exact (has_expected_iff _).mpr hfirst
    · cases List.mem_singleton.mp hc
      exact (has_expected_iff _).mpr hsecond

/-- **What passes the test.**  One condition of each kind, or two of one kind. -/
theorem isSyncedAndReady_iff (s : ConditionSet) :
    s.isSyncedAndReady = true ↔ s.SaysBoth ∨ s.SaysOneTwice := by
  rw [isSyncedAndReady_iff_two]
  constructor
  · rintro ⟨first, second, hitems, hfirst | hfirst, hsecond | hsecond⟩
    · exact Or.inr ⟨first, second, hitems, Or.inl ⟨hfirst, hsecond⟩⟩
    · exact Or.inl ⟨first, second, hfirst, hsecond, Or.inl hitems⟩
    · exact Or.inl ⟨second, first, hsecond, hfirst, Or.inr hitems⟩
    · exact Or.inr ⟨first, second, hitems, Or.inr ⟨hfirst, hsecond⟩⟩
  · rintro (⟨synced, ready, hsynced, hready, hitems | hitems⟩ |
      ⟨first, second, hitems, ⟨hfirst, hsecond⟩ | ⟨hfirst, hsecond⟩⟩)
    · exact ⟨synced, ready, hitems, Or.inl hsynced, Or.inr hready⟩
    · exact ⟨ready, synced, hitems, Or.inr hready, Or.inl hsynced⟩
    · exact ⟨first, second, hitems, Or.inl hfirst, Or.inl hsecond⟩
    · exact ⟨first, second, hitems, Or.inr hfirst, Or.inr hsecond⟩

/-- A list that says one thing twice does not say the other. -/
theorem SaysOneTwice.not_saysBoth {s : ConditionSet} (h : s.SaysOneTwice) : ¬ s.SaysBoth := by
  obtain ⟨first, second, htwice, hsame⟩ := h
  -- of the two conditions one would have to say both things
  rintro ⟨synced, ready, hsynced, hready, hitems | hitems⟩
  · cases htwice.symm.trans hitems
    rcases hsame with ⟨-, hother⟩ | ⟨hother, -⟩
    · exact hother.not_saysReady hready
    · exact hsynced.not_saysReady hother
  · cases htwice.symm.trans hitems
    rcases hsame with ⟨hother, -⟩ | ⟨-, hother⟩
    · exact hother.not_saysReady hready
    · exact hsynced.not_saysReady hother

end ConditionSet

namespace Model

/-- The conditions of the model are one of each kind. -/
def SaysBoth (m : Model) : Prop := ∃ s, m.conditions? = some s ∧ s.SaysBoth

/-- The conditions of the model are two of one kind. -/
def SaysOneTwice (m : Model) : Prop := ∃ s, m.conditions? = some s ∧ s.SaysOneTwice

theorem SaysOneTwice.not_saysBoth {m : Model} (h : m.SaysOneTwice) : ¬ m.SaysBoth := by
  obtain ⟨s, hs, htwice⟩ := h
  rintro ⟨s', hs', hboth⟩
  cases hs.symm.trans hs'
  exact htwice.not_saysBoth hboth

/-- **The gate between a model and its prompts.**  It opens for a model that says exactly
    that its last pass ended well and that it can be used, and besides only for one that
    says one of the two twice: for those alone the gate is not exact. -/
theorem isSyncedAndReady_exact_iff (m : Model) :
    (m.isSyncedAndReady = true ↔ m.SaysBoth ∨ m.SaysOneTwice) ∧
      ((m.isSyncedAndReady = true ↔ m.SaysBoth) ↔ ¬ m.SaysOneTwice) := by
  have hopens : m.isSyncedAndReady = true ↔ m.SaysBoth ∨ m.SaysOneTwice := by
    rw [isSyncedAndReady, Conditioned.isSyncedAndReady, SaysBoth, SaysOneTwice, conditions?]
    cases conditioned.conditions? m with
    | none => simp
    | some s => simpa using s.isSyncedAndReady_iff
  refine ⟨hopens, ?_⟩
  constructor
  · intro hexact htwice
    exact htwice.not_saysBoth (hexact.mp (hopens.mpr (Or.inr htwice)))
  · intro honce
    exact hopens.trans (or_iff_left honce)

/-- A document that says twice that the last pass ended well. -/
def doubledDocument : Json :=
  let synced := Json.obj [("lastTransitionTime", .str "2024-08-01T10:00:00Z"),
    ("reason", .str "ReconcileSuccess"), ("status", .str "True"), ("type", .str "Synced")]
  .obj [("metadata", .obj [("name", .str "gemma"), ("namespace", .str "llms")]),
    ("spec", .obj [("model", .str "gemma2:2b")]),
    ("status", .obj [("conditions", .arr [synced, synced])])]

/-- That model as it is read. -/
def doubledModel : Model where
  metadata := ⟨[("name", .str "gemma"), ("namespace", .str "llms")]⟩
  spec := { model := "gemma2:2b" }
  status :=
    let synced := Condition.reconcileSuccess ⟨19936, 36000, 0⟩
    some { conditions := ⟨[synced, synced]⟩ }

set_option maxRecDepth 8000 in
theorem read_doubledDocument : read doubledDocument = .ok doubledModel := rfl

/-- **A gate that opens too early.**  The model is read, and it passes the test although it
    never says that it can be used. -/
theorem doubled_synced_passes : read doubledDocument = .ok doubledModel ∧
    doubledModel.isSyncedAndReady = true ∧
    doubledModel.condition? Condition.readyType = none ∧ ¬ doubledModel.SaysBoth := by
  have hgood : (Condition.reconcileSuccess ⟨19936, 36000, 0⟩).SaysSynced := ⟨rfl, rfl, rfl, rfl⟩
  have htwice : doubledModel.SaysOneTwice := ⟨_, rfl, _, _, rfl, Or.inl ⟨hgood, hgood⟩⟩
  exact ⟨read_doubledDocument, rfl, rfl, htwice.not_saysBoth⟩

end Model

end ModelOperator
