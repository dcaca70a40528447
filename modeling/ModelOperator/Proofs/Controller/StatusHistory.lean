import Mathlib.Data.List.Chain
import ModelOperator.Proofs.Controller.ModelRun
import ModelOperator.Proofs.Controller.SelfReport

/-!
# The history of a status

    A status is all that one pass hands on to the next.  A pass sets at most the condition
    about readiness and then the one that tells how it went, both for the generation that it
    has seen, and leaves the others alone (`ConditionSet.Revises`).  What is stored after the
    pass is the status it wrote, or, if the write fails, what was stored before.

    So a run is seen as the list of its writes (`StatusWrite`), each a revision of what was
    stored when it was made (`Recorded`).  As long as the generation of the resource never
    decreases, one induction on that list says that every status of the run is consistent, and
    that a condition keeps its time while it says the same (`Recorded.consistent`).  Both
    controllers make such runs (`status_history_consistent`). -/

namespace ModelOperator

/-! ## One change of the stored conditions -/

namespace ConditionSet

/-- **A revision.**  Conditions of different types, all for one generation, are set together,
    and the one that tells how a pass went is among them. -/
def Revises (generation : Int) (before after : ConditionSet) : Prop :=
  ∃ cs : List Condition, (cs.map (·.type)).Nodup ∧ (∀ c ∈ cs, c.generation = generation) ∧
    Condition.syncedType ∈ cs.map (·.type) ∧ after = before.set cs

/-- A condition that is stored before and after has another time only if it says something
    else. -/
def KeepsTimes (before after : ConditionSet) : Prop :=
  ∀ c ∈ before.items, ∀ d ∈ after.items, c.type = d.type → c.since ≠ d.since →
    c.status ≠ d.status ∨ c.reason ≠ d.reason ∨ c.message ≠ d.message

theorem set_append (s : ConditionSet) (cs ds : List Condition) :
    (s.set cs).set ds = s.set (cs ++ ds) := by
  show (⟨_⟩ : ConditionSet) = ⟨_⟩
  rw [List.foldl_append]
  rfl

variable {generation : Int} {before after : ConditionSet}

theorem Revises.unique (h : Revises generation before after) (hbefore : before.Unique) :
    after.Unique := by
  obtain ⟨cs, -, -, -, rfl⟩ := h
  exact hbefore.set cs

/-- A revision stores no larger generation than its own. -/
theorem Revises.generation_le (h : Revises generation before after) (hbefore : before.Unique)
    (hle : ∀ c ∈ before.items, c.generation ≤ generation) :
    ∀ c ∈ after.items, c.generation ≤ generation := by
  intro c hc
  have hget := (h.unique hbefore).get?_of_mem hc
  obtain ⟨cs, htypes, hgeneration, -, rfl⟩ := h
  rw [get?_set before htypes] at hget
  split at hget
  · next new hnew =>
    rw [← Option.some_inj.mp hget]
    refine Condition.generation_succeeding_le
      (Int.le_of_eq (hgeneration new (List.mem_of_find?_eq_some hnew))) ?_
    exact fun d hd => hle d (mem_of_get? hd)
  · exact hle c (mem_of_get? hget)

/-- After a revision, the condition that tells how the pass went is for its generation. -/
theorem Revises.synced (h : Revises generation before after) (hbefore : before.Unique)
    (hle : ∀ c ∈ before.items, c.generation ≤ generation) :
    ∃ c, after.get? Condition.syncedType = some c ∧ c.generation = generation := by
  have hbound := h.generation_le hbefore hle
  obtain ⟨cs, htypes, hgeneration, hsynced, rfl⟩ := h
  obtain ⟨new, hnew, htype⟩ := List.mem_map.mp hsynced
  have hget := before.get?_set_of_mem htypes hnew
  rw [htype] at hget
  refine ⟨_, hget, Int.le_antisymm (hbound _ (mem_of_get? hget)) ?_⟩
  rw [← hgeneration new hnew]
  exact Condition.le_generation_succeeding new _

/-- A revision touches the time of a condition only where it says something else. -/
theorem Revises.keepsTimes (h : Revises generation before after) (hbefore : before.Unique) :
    before.KeepsTimes after := by
  intro c hc d hd htype htimes
  have hold := hbefore.get?_of_mem hc
  have hget := (h.unique hbefore).get?_of_mem hd
  obtain ⟨cs, htypes, -, -, rfl⟩ := h
  rw [get?_set before htypes, ← htype, hold] at hget
  -- if it said the same, it would be the stored one and have its time
  by_contra hsame
  simp only [ne_eq, not_or, not_not] at hsame
  have hequivalent : d.equivalent c = true :=
    (Condition.equivalent_iff d c).mpr
      ⟨htype.symm, hsame.1.symm, hsame.2.1.symm, hsame.2.2.symm⟩
  split at hget
  · next new hnew =>
    have hd := Option.some_inj.mp hget
    rw [← hd] at hequivalent
    exact htimes ((Condition.since_succeeding hequivalent).symm.trans (congrArg _ hd))
  · exact htimes (congrArg _ (Option.some_inj.mp hget))

end ConditionSet

/-! ## The writes of a run -/

/-- One write of a status: the generation that its pass has seen, what the status says, and
    whether it was stored. -/
structure StatusWrite where
  generation : Int
  observed : Int
  conditions : ConditionSet
  stored : Bool

/-- **Consistent.**  The status says which generation its pass has seen, and so does the
    condition that tells how the pass went; no condition is for a later one, and no type comes
    twice. -/
structure StatusWrite.Consistent (e : StatusWrite) : Prop where
  observed : e.observed = e.generation
  synced : ∃ c, e.conditions.get? Condition.syncedType = some c ∧ c.generation = e.observed
  bounded : ∀ c ∈ e.conditions.items, c.generation ≤ e.observed
  unique : e.conditions.Unique

/-- **A consistent history.**  Every status that was written is consistent, and from one that
    was stored to the next each condition keeps its time while it says the same. -/
structure ConsistentHistory (writes : List StatusWrite) : Prop where
  each : ∀ e ∈ writes, e.Consistent
  times : ((writes.filter (·.stored)).map (·.conditions)).IsChain ConditionSet.KeepsTimes

/-- Each write revises the conditions that are stored when it is made. -/
inductive Recorded : ConditionSet → List StatusWrite → Prop
  | nil (stored : ConditionSet) : Recorded stored []
  | cons {stored : ConditionSet} {e : StatusWrite} {rest : List StatusWrite}
      (hobserved : e.observed = e.generation)
      (hrevises : ConditionSet.Revises e.generation stored e.conditions)
      (hrest : Recorded (if e.stored then e.conditions else stored) rest) :
      Recorded stored (e :: rest)

/-- Where the generations never decrease, everything recorded is consistent. -/
theorem Recorded.consistent {stored : ConditionSet} {writes : List StatusWrite}
    (h : Recorded stored writes) (hunique : stored.Unique)
    (hbound : ∀ c ∈ stored.items, ∀ e ∈ writes, c.generation ≤ e.generation)
    (hgenerations : writes.Pairwise fun a b => a.generation ≤ b.generation) :
    (∀ e ∈ writes, e.Consistent) ∧
      (stored :: (writes.filter (·.stored)).map (·.conditions)).IsChain
        ConditionSet.KeepsTimes := by
  induction h with
  | nil stored => exact ⟨nofun, .singleton stored⟩
  | @cons stored e rest hobserved hrevises hrest ih =>
      obtain ⟨hfirst, hlater⟩ := List.pairwise_cons.mp hgenerations
      have hle : ∀ c ∈ stored.items, c.generation ≤ e.generation :=
        fun c hc => hbound c hc e List.mem_cons_self
      have hbounded := hrevises.generation_le hunique hle
      have hconsistent : e.Consistent := by
        refine ⟨hobserved, ?_, ?_, hrevises.unique hunique⟩
        · rw [hobserved]
          exact hrevises.synced hunique hle
        · rw [hobserved]
          exact hbounded
      cases hstored : e.stored with
      | false =>
          -- the write is lost, and the next one finds what this one found
          rw [hstored] at ih
          obtain ⟨heach, htimes⟩ := ih hunique
            (fun c hc d hd => hbound c hc d (List.mem_cons_of_mem e hd)) hlater
          refine ⟨List.forall_mem_cons.mpr ⟨hconsistent, heach⟩, ?_⟩
          rw [List.filter_cons_of_neg (by simp [hstored])]
          exact htimes
      | true =>
          rw [hstored] at ih
          obtain ⟨heach, htimes⟩ := ih (hrevises.unique hunique)
            (fun c hc d hd => Int.le_trans (hbounded c hc) (hfirst d hd)) hlater
          refine ⟨List.forall_mem_cons.mpr ⟨hconsistent, heach⟩, ?_⟩
          rw [List.filter_cons_of_pos (by simp [hstored]), List.map_cons]
          exact .cons_cons (hrevises.keepsTimes hunique) htimes

/-! ## Runs -/

section Runs

variable {τ σ : Type} (writes : τ → Option σ → List StatusWrite) (after : τ → Option σ → Option σ)

/-- The writes of a run, by what each turn writes and leaves stored. -/
def runWrites : Option σ → List τ → List StatusWrite
  | _, [] => []
  | stored, t :: rest => writes t stored ++ runWrites (after t stored) rest

/-- **One turn.**  It writes nothing and changes nothing, or writes one revision of what is
    stored, which takes its place if the write succeeds. -/
def WritesOnce (generation : Int) (before : ConditionSet) (written : List StatusWrite)
    (left : ConditionSet) : Prop :=
  written = [] ∧ left = before ∨
    ∃ e, written = [e] ∧ e.generation = generation ∧ e.observed = generation ∧
      ConditionSet.Revises generation before e.conditions ∧
      left = if e.stored then e.conditions else before

/-- A turn that has a revision of the stored status written, with or without success. -/
theorem writesOnce_of_revises (conditions : Option σ → ConditionSet) {stored written : Option σ}
    {final : σ} {generation observed : Int} (hwritten : written = some final ∨ written = none)
    (hobserved : observed = generation)
    (hrevises : ConditionSet.Revises generation (conditions stored) (conditions (some final))) :
    WritesOnce generation (conditions stored)
      [⟨generation, observed, conditions (some final), written.isSome⟩]
      (conditions (written.or stored)) := by
  refine Or.inr ⟨_, rfl, rfl, hobserved, hrevises, ?_⟩
  rcases hwritten with rfl | rfl <;> rfl

variable {writes after} {generation : τ → Int} {conditions : Option σ → ConditionSet}

/-- A run of such turns is recorded, with the generations of its turns in their order. -/
theorem recorded_runWrites
    (hturn : ∀ t stored, WritesOnce (generation t) (conditions stored) (writes t stored)
      (conditions (after t stored)))
    (stored : Option σ) (turns : List τ) :
    Recorded (conditions stored) (runWrites writes after stored turns) ∧
      ((runWrites writes after stored turns).map (·.generation)).Sublist
        (turns.map generation) := by
  induction turns generalizing stored with
  | nil => exact ⟨.nil _, .slnil⟩
  | cons t rest ih =>
      obtain ⟨hrecorded, hsublist⟩ := ih (after t stored)
      rw [runWrites]
      rcases hturn t stored with ⟨hnone, hleft⟩ | ⟨e, hone, hgeneration, hobserved, hrevises, hleft⟩
      · rw [hnone, List.nil_append]
        rw [hleft] at hrecorded
        exact ⟨hrecorded, hsublist.cons _⟩
      · rw [hone, List.singleton_append, List.map_cons, List.map_cons, hgeneration]
        rw [hleft] at hrecorded
        refine ⟨.cons (hobserved.trans hgeneration.symm) ?_ hrecorded, hsublist.cons_cons _⟩
        rw [hgeneration]
        exact hrevises

/-- Such a run, started without conditions, has a consistent history if the generations of its
    turns never decrease. -/
theorem consistentHistory_runWrites
    (hturn : ∀ t stored, WritesOnce (generation t) (conditions stored) (writes t stored)
      (conditions (after t stored)))
    (hstart : conditions none = {}) {turns : List τ}
    (hgenerations : turns.Pairwise fun a b => generation a ≤ generation b) :
    ConsistentHistory (runWrites writes after none turns) := by
  obtain ⟨hrecorded, hsublist⟩ := recorded_runWrites hturn none turns
  rw [hstart] at hrecorded
  have hpairwise := (List.pairwise_map.mpr hgenerations).sublist hsublist
  obtain ⟨heach, htimes⟩ := hrecorded.consistent List.nodup_nil nofun (List.pairwise_map.mp hpairwise)
  exact ⟨heach, htimes.tail⟩

end Runs

namespace Controller

variable {ρ σ κ ε : Type} (c : Controller ρ σ κ ε) {now : Instant}

/-- Where a body has set at most the condition about readiness, the stamp of its outcome makes
    a revision of it. -/
theorem revises_stamped {r left : ρ} (h : c.SetsReady r left) (outcome : Except ε Action) :
    ConditionSet.Revises (c.metadata r).generation (c.conditions (c.statusOrEmpty r))
      (c.conditions (c.statusOrEmpty (c.stamped now left outcome))) := by
  obtain ⟨ready, hready, hleft⟩ := h.conditions
  let told := outcomeCondition now c.message (c.metadata r).generation outcome
  have htype : told.type = Condition.syncedType :=
    Condition.type_ofOutcome now c.message outcome
  refine ⟨ready.toList ++ [told], ?_, ?_, ?_, ?_⟩
  · cases ready with
    | none => simp
    | some d => simp [htype, (hready d rfl).1, Condition.ready_ne_synced]
  · intro d hd
    rcases List.mem_append.mp hd with hd | hd
    · exact (hready d (Option.mem_toList.mp hd)).2
    · cases List.mem_singleton.mp hd
      rfl
  · rw [← htype]
    exact List.mem_map_of_mem (List.mem_append_right _ (List.mem_singleton.mpr rfl))
  · rw [c.conditions_stamped, h.metadata, hleft, ← ConditionSet.set_append]
    rfl

variable (status? : κ → Option σ)

/-- The writes among the calls of a pass, by the status that a call writes. -/
def writes (generation : Int) (report : Report κ σ ε) : List StatusWrite :=
  (report.calls.filterMap status?).map fun s =>
    ⟨generation, c.generation s, c.conditions s, report.written.isSome⟩

/-- The conditions in a stored status. -/
def storedConditions (stored : Option σ) : ConditionSet := c.conditions (stored.getD c.empty)

variable {status?}

/-- A pass writes once, whose body writes no status and sets at most readiness. -/
theorem writesOnce_finish (hpatch : ∀ s, status? (c.patch s) = some s) {r : ρ}
    {played : Except ε Action × Progress ρ κ} (hquiet : ∀ k ∈ played.2.calls, status? k = none)
    (hsets : c.SetsReady r played.2.resource) (write : Except ClusterError Unit) :
    WritesOnce (c.metadata r).generation (c.storedConditions (c.status r))
      (c.writes status? (c.metadata r).generation (c.finish now write played))
      (c.storedConditions ((c.finish now write played).written.or (c.status r))) := by
  have hcalls : (c.finish now write played).calls.filterMap status? =
      [c.statusOrEmpty (c.final now played)] := by
    rw [c.finish_calls, List.filterMap_append, List.filterMap_eq_nil_iff.mpr hquiet,
      List.filterMap_cons, hpatch]
    rfl
  have hwritten : (c.finish now write played).written = some (c.statusOrEmpty (c.final now played)) ∨
      (c.finish now write played).written = none := by
    cases hwrite : write with
    | ok _ => exact Or.inl (c.finish_written now played rfl)
    | error e => exact Or.inr (c.finish_unwritten now played rfl)
  rw [writes, hcalls]
  refine writesOnce_of_revises c.storedConditions hwritten ?_ (c.revises_stamped hsets played.1)
  rw [final, c.generation_stamped, hsets.metadata]

end Controller

/-! ## Runs over a model -/

/-- The status that a call writes. -/
def ModelCall.status? : ModelCall → Option ModelStatus
  | .patchStatus s => some s
  | _ => none

theorem ModelCall.status?_of_not_isWrite {c : ModelCall} (h : c.isWrite = false) :
    c.status? = none := by
  cases c <;> first | rfl | cases h

namespace ModelTurn

/-- The writes of a turn. -/
def writes (t : ModelTurn) (stored : Option ModelStatus) : List StatusWrite :=
  Model.controller.writes ModelCall.status? t.metadata.generation (t.report stored)

/-- A turn writes once. -/
theorem writesOnce (t : ModelTurn) (stored : Option ModelStatus) :
    WritesOnce t.metadata.generation (Model.controller.storedConditions stored) (t.writes stored)
      (Model.controller.storedConditions (t.after stored)) := by
  have hexit := Model.exit_body t.now t.world (t.model stored)
  exact Model.controller.writesOnce_finish (r := t.model stored) (fun _ => rfl)
    (fun c hc => ModelCall.status?_of_not_isWrite (hexit.ordered.unwritten c hc))
    hexit.setsReady t.world.patchStatus

end ModelTurn

/-! ## Runs over a prompt -/

/-- The status that a call writes. -/
def PromptCall.status? : PromptCall → Option PromptStatus
  | .patchStatus s => some s
  | _ => none

theorem PromptCall.status?_of_not_isWrite {c : PromptCall} (h : c.isWrite = false) :
    c.status? = none := by
  cases c <;> first | rfl | cases h

namespace PromptTurn

/-- The writes of a turn. -/
def writes (t : PromptTurn) (stored : Option PromptStatus) : List StatusWrite :=
  Prompt.controller.writes PromptCall.status? t.metadata.generation (t.report stored)

/-- A turn writes once, unless there is an answer. -/
theorem writesOnce (t : PromptTurn) (stored : Option PromptStatus) :
    WritesOnce t.metadata.generation (Prompt.controller.storedConditions stored) (t.writes stored)
      (Prompt.controller.storedConditions (t.after stored)) := by
  by_cases hempty : (t.prompt stored).statusOrEmpty.response = ""
  · have hexit := Prompt.exit_body t.now t.world (t.prompt stored)
    rw [writes, after, report, Prompt.reconcile_unanswered _ _ hempty]
    exact Prompt.controller.writesOnce_finish (r := t.prompt stored) (fun _ => rfl)
      (fun c hc => PromptCall.status?_of_not_isWrite (hexit.unwritten c hc))
      hexit.setsReady t.world.patchStatus
  · have hreport : t.report stored = _ := Prompt.reconcile_answered t.now t.world hempty
    refine Or.inl ⟨?_, ?_⟩
    · rw [writes, hreport]
      rfl
    · rw [after, hreport]
      rfl

end PromptTurn

/-- **The history of a status is consistent.**  Take a run over a model or over a prompt that
    starts without a status, whatever its calls come to, in which the generation never
    decreases.  Every status that it writes says which generation its pass has seen, has no
    condition for a later one and no type twice; and a condition that is stored keeps its time
    until it says something else. -/
theorem status_history_consistent :
    (∀ turns : List ModelTurn,
      (turns.Pairwise fun a b => a.metadata.generation ≤ b.metadata.generation) →
      ConsistentHistory (runWrites ModelTurn.writes ModelTurn.after none turns)) ∧
    ∀ turns : List PromptTurn,
      (turns.Pairwise fun a b => a.metadata.generation ≤ b.metadata.generation) →
      ConsistentHistory (runWrites PromptTurn.writes PromptTurn.after none turns) :=
  ⟨fun _ => consistentHistory_runWrites ModelTurn.writesOnce rfl,
    fun _ => consistentHistory_runWrites PromptTurn.writesOnce rfl⟩

/-- A turn on a day over a model of a generation, against a server that lists nothing, and with
    this outcome of the write. -/
def turnOnDay (day : Int) (generation : Int) (write : Except ClusterError Unit) : ModelTurn :=
  let t := turnListing (modelAsking "gemma2:2b") []
  { t with
    now := ⟨day, 0, 0⟩
    world := { t.world with patchStatus := write }
    metadata := ⟨[("generation", .int generation), ("name", .str "gemma"),
      ("namespace", .str "default")]⟩ }

/-- A run whose second write is refused.  The pass after it, which sees a new generation, finds
    the first status: it raises the generation of `Synced` and keeps its time. -/
theorem status_history_refused_write :
    let run := [turnOnDay 1 1 (.ok ()), turnOnDay 2 1 (.error conflictRefusal),
      turnOnDay 3 2 (.ok ())]
    let writes := runWrites ModelTurn.writes ModelTurn.after none run
    (run.Pairwise fun a b => a.metadata.generation ≤ b.metadata.generation) ∧
      writes.map (·.stored) = [true, false, true] ∧
      writes.map (fun e => e.conditions.items.map fun c => (c.type, c.since.day, c.generation)) =
        [[("Ready", 1, 1), ("Synced", 1, 1)], [("Ready", 2, 1), ("Synced", 1, 1)],
          [("Ready", 3, 2), ("Synced", 1, 2)]] ∧
      ConsistentHistory writes := by
  intro run writes
  have hgenerations : run.Pairwise fun a b =>
      a.metadata.generation ≤ b.metadata.generation := by decide +kernel
  exact ⟨hgenerations, by decide +kernel, by decide +kernel,
    status_history_consistent.1 run hgenerations⟩

end ModelOperator
