import Mathlib.Data.List.Nodup
import Mathlib.Data.List.Perm.Subperm
import ModelOperator.Proofs.Resource.Succession

/-!
# Sets that say the same

    Two sets of conditions are compared by counting, and by looking up each condition of the one
    in the other.  This is no comparison of both sides, and of lists in which a type comes twice
    it is not even symmetric.  Sets that are built have each type once, and then the count makes
    up for the missing side: sets agree exactly if their entries are the same up to order
    (`ConditionSet.equivalent_iff_perm`), where an entry is a type with what is said of it.

    So agreement is told by what is said of each type, and setting conditions decides that for
    one type at a time (`ConditionSet.says?_set`). -/

namespace ModelOperator

namespace Condition

/-- What a condition says of its type. -/
def statement (c : Condition) : Truth × String × String := (c.status, c.reason, c.message)

/-- Two conditions agree if they say the same of the same type. -/
theorem equivalent_iff_statement (a b : Condition) :
    a.equivalent b = true ↔ a.type = b.type ∧ a.statement = b.statement := by
  rw [equivalent_iff, statement, statement, Prod.mk.injEq, Prod.mk.injEq]

end Condition

namespace ConditionSet

/-- A set as the operator makes it: from some conditions, and by setting more. -/
inductive Built : ConditionSet → Prop
  | ofList (cs : List Condition) : Built (ofList cs)
  | set {s : ConditionSet} (h : Built s) (cs : List Condition) : Built (s.set cs)

/-- What the operator makes has each type once. -/
theorem Built.unique {s : ConditionSet} (h : s.Built) : s.Unique := by
  induction h with
  | ofList cs => exact Unique.set (s := ⟨[]⟩) List.nodup_nil cs
  | set _ cs ih => exact ih.set cs

/-- What a set says of a type, if it has it. -/
def says? (s : ConditionSet) (type : String) : Option (Truth × String × String) :=
  (s.get? type).map Condition.statement

/-- The types of a set, each with what is said of it: all but times and generations. -/
def entries (s : ConditionSet) : List (String × Truth × String × String) :=
  s.items.map fun c => (c.type, c.statement)

theorem types_eq_entries (s : ConditionSet) : s.types = s.entries.map Prod.fst := by
  rw [types, entries, List.map_map]
  rfl

/-- A set without a type twice has no entry twice. -/
theorem nodup_entries {s : ConditionSet} (h : s.Unique) : s.entries.Nodup := by
  have htypes : s.types.Nodup := h
  rw [types_eq_entries] at htypes
  exact List.Nodup.of_map Prod.fst htypes

/-- What is said of a type stands among the entries, and nothing else does if no type comes
    twice. -/
theorem mem_entries_iff {s : ConditionSet} (h : s.Unique) {type : String}
    {said : Truth × String × String} : (type, said) ∈ s.entries ↔ s.says? type = some said := by
  constructor
  · intro hmem
    obtain ⟨c, hc, heq⟩ := List.mem_map.mp hmem
    cases heq
    rw [says?, h.get?_of_mem hc]
    rfl
  · intro hsaid
    obtain ⟨c, hc, rfl⟩ := Option.map_eq_some_iff.mp hsaid
    exact List.mem_map.mpr ⟨c, mem_of_get? hc, by rw [type_of_get? hc]⟩

/-- A set has a condition if it says of its type what the condition says. -/
theorem has_iff_says? (s : ConditionSet) (c : Condition) :
    s.has c = true ↔ s.says? c.type = some c.statement := by
  rw [has_iff, says?, Option.map_eq_some_iff]
  simp only [Condition.statement, Prod.mk.injEq]

/-- **Agreement is the same entries.**  The entries of the one set are among those of the other,
    and as they are as many, there are no others. -/
theorem equivalent_iff_perm {a b : ConditionSet} (ha : a.Unique) (hb : b.Unique) :
    a.equivalent b = true ↔ a.entries.Perm b.entries := by
  rw [equivalent, Bool.and_eq_true, beq_iff_eq, List.all_eq_true]
  constructor
  · rintro ⟨hlength, hall⟩
    have hsubset : a.entries ⊆ b.entries := by
      intro entry hentry
      obtain ⟨c, hc, rfl⟩ := List.mem_map.mp hentry
      exact (mem_entries_iff hb).mpr ((has_iff_says? b c).mp (hall c hc))
    refine ((nodup_entries ha).subperm hsubset).perm_of_length_le ?_
    rw [entries, entries, List.length_map, List.length_map, hlength]
  · intro hperm
    refine ⟨by simpa [entries] using hperm.length_eq, fun c hc => ?_⟩
    rw [has_iff_says?, ← mem_entries_iff hb]
    exact hperm.subset (List.mem_map.mpr ⟨c, hc, rfl⟩)

/-- Sets have the same entries if they say the same of each type. -/
theorem perm_entries_iff {a b : ConditionSet} (ha : a.Unique) (hb : b.Unique) :
    a.entries.Perm b.entries ↔ ∀ type, a.says? type = b.says? type := by
  rw [List.perm_ext_iff_of_nodup (nodup_entries ha) (nodup_entries hb), Prod.forall]
  refine forall_congr' fun type => ?_
  rw [Option.ext_iff]
  exact forall_congr' fun said => by rw [mem_entries_iff ha, mem_entries_iff hb]

/-- Sets agree exactly if they say the same of each type. -/
theorem equivalent_iff_says? {a b : ConditionSet} (ha : a.Unique) (hb : b.Unique) :
    a.equivalent b = true ↔ ∀ type, a.says? type = b.says? type :=
  (equivalent_iff_perm ha hb).trans (perm_entries_iff ha hb)

/-- Agreement does not depend on which set is asked. -/
theorem equivalent_comm {a b : ConditionSet} (ha : a.Unique) (hb : b.Unique) :
    a.equivalent b = b.equivalent a := by
  rw [Bool.eq_iff_iff, equivalent_iff_perm ha hb, equivalent_iff_perm hb ha]
  exact List.perm_comm

/-- A set with the entries of another one agrees with the same sets, on either side. -/
theorem equivalent_of_perm {a b other : ConditionSet} (ha : a.Unique) (hb : b.Unique)
    (hperm : other.entries.Perm a.entries) :
    other.equivalent b = a.equivalent b ∧ b.equivalent other = b.equivalent a := by
  have hother : other.Unique := by
    have htypes : other.types.Perm a.types := by
      rw [types_eq_entries, types_eq_entries]
      exact hperm.map _
    exact htypes.nodup_iff.mpr ha
  have hleft : other.equivalent b = a.equivalent b := by
    rw [Bool.eq_iff_iff, equivalent_iff_perm hother hb, equivalent_iff_perm ha hb]
    exact ⟨hperm.symm.trans, hperm.trans⟩
  exact ⟨hleft, by rw [equivalent_comm hb hother, hleft, equivalent_comm ha hb]⟩

/-! ## Setting conditions -/

/-- **What a set says after conditions are set.**  Of a type that was set, what the last of its
    conditions says; of any other type, what it said before. -/
theorem says?_set (s : ConditionSet) (cs : List Condition) (type : String) :
    (s.set cs).says? type =
      ((ofType type cs).getLast?.map Condition.statement).or (s.says? type) := by
  rw [says?, get?_set_eq]
  cases hlast : (ofType type cs).getLast? with
  | none =>
      rw [List.getLast?_eq_none_iff.mp hlast]
      rfl
  | some last =>
      obtain ⟨c, hstands, hsame⟩ := Condition.equivalent_standing (s.get? type) hlast
      rw [hstands, Option.map_some, ((Condition.equivalent_iff_statement c last).mp hsame).2]
      rfl

/-- Sets that agree still do after the same conditions are set in both. -/
theorem equivalent_set {a b : ConditionSet} (ha : a.Unique) (hb : b.Unique)
    (h : a.equivalent b = true) (cs : List Condition) :
    (a.set cs).equivalent (b.set cs) = true := by
  rw [equivalent_iff_says? (ha.set cs) (hb.set cs)]
  intro type
  rw [says?_set, says?_set, (equivalent_iff_says? ha hb).mp h type]

/-- Of conditions of different types, one alone has the type of each. -/
theorem ofType_of_mem {cs : List Condition} (h : (cs.map (·.type)).Nodup) {c : Condition}
    (hc : c ∈ cs) : ofType c.type cs = [c] := by
  induction cs with
  | nil => cases hc
  | cons d rest ih =>
      obtain ⟨hfresh, hrest⟩ := List.nodup_cons.mp h
      rcases List.mem_cons.mp hc with rfl | hc
      · rw [ofType, List.filter_cons_of_pos (by simp)]
        exact congrArg (c :: ·) (ofType_eq_nil hfresh)
      · have hne : d.type ≠ c.type := fun heq => hfresh (List.mem_map.mpr ⟨c, hc, heq.symm⟩)
        rw [ofType, List.filter_cons_of_neg (by simpa using hne)]
        exact ih hrest hc

/-- In what order conditions come does not matter to what they say of a type. -/
theorem ofType_of_perm {cs ds : List Condition} (h : (cs.map (·.type)).Nodup)
    (hperm : cs.Perm ds) (type : String) : ofType type ds = ofType type cs := by
  have hsame : (ofType type ds).Perm (ofType type cs) := hperm.symm.filter _
  cases hcs : ofType type cs with
  | nil => exact (hcs ▸ hsame).eq_nil
  | cons c rest =>
      obtain ⟨hc, rfl⟩ := mem_ofType.mp (hcs ▸ List.mem_cons_self : c ∈ ofType type cs)
      have honly := ofType_of_mem h hc
      rw [← hcs, honly]
      exact List.perm_singleton.mp (honly ▸ hsame)

/-- In what order conditions are set does not matter either. -/
theorem equivalent_set_perm {s : ConditionSet} (hs : s.Unique) {cs ds : List Condition}
    (h : (cs.map (·.type)).Nodup) (hperm : cs.Perm ds) :
    (s.set cs).equivalent (s.set ds) = true := by
  rw [equivalent_iff_says? (hs.set cs) (hs.set ds)]
  intro type
  rw [says?_set, says?_set, ofType_of_perm h hperm]

/-- **Agreement of sets.**  On the sets that the operator builds, agreement is an equivalence.
    Sets agree exactly if they say the same of each type, whatever the order, the times and the
    generations of their conditions.  Sets that agree do so after the same conditions are set
    in both, and conditions of different types may be set in any order. -/
theorem equivalent_congruence {a b c : ConditionSet} (ha : a.Built) (hb : b.Built)
    (hc : c.Built) :
    a.equivalent a = true ∧
    a.equivalent b = b.equivalent a ∧
    (a.equivalent b = true → b.equivalent c = true → a.equivalent c = true) ∧
    (a.equivalent b = true ↔ ∀ type, a.says? type = b.says? type) ∧
    (∀ other : ConditionSet, other.entries.Perm a.entries →
      other.equivalent b = a.equivalent b ∧ b.equivalent other = b.equivalent a) ∧
    (∀ cs, a.equivalent b = true → (a.set cs).equivalent (b.set cs) = true) ∧
    ∀ cs ds : List Condition, (cs.map (·.type)).Nodup → cs.Perm ds →
      (a.set cs).equivalent (a.set ds) = true := by
  have hab := equivalent_iff_perm ha.unique hb.unique
  refine ⟨(equivalent_iff_perm ha.unique ha.unique).mpr (.refl _),
    equivalent_comm ha.unique hb.unique, fun hleft hright => ?_,
    equivalent_iff_says? ha.unique hb.unique,
    fun other hperm => equivalent_of_perm ha.unique hb.unique hperm,
    fun cs hsame => equivalent_set ha.unique hb.unique hsame cs,
    fun cs ds hnodup hperm => equivalent_set_perm ha.unique hnodup hperm⟩
  rw [equivalent_iff_perm ha.unique hc.unique]
  exact (hab.mp hleft).trans ((equivalent_iff_perm hb.unique hc.unique).mp hright)

/-- The conditions of a model that can be used. -/
def servingSet : ConditionSet :=
  ofList [.reconcileSuccess ⟨19936, 36000, 0⟩, .available ⟨19936, 36000, 0⟩]

/-- The same said in another order, at another time and for another generation. -/
def restatedSet : ConditionSet :=
  ofList [{ Condition.available ⟨19936, 36060, 0⟩ with generation := 4 },
    .reconcileSuccess ⟨19936, 36060, 0⟩]

/-- A set that has come to say the same. -/
def grownSet : ConditionSet :=
  (ofList [.creating ⟨19936, 36000, 0⟩ "starting"]).set
    [.available ⟨19936, 36120, 0⟩, .reconcileSuccess ⟨19936, 36120, 0⟩]

/-- Three sets that say the same, and go on to when the same is set in them, in any order. -/
theorem equivalent_congruence_serving :
    servingSet.Built ∧ restatedSet.Built ∧ grownSet.Built ∧
    servingSet.equivalent restatedSet = true ∧ restatedSet.equivalent servingSet = true ∧
    servingSet.equivalent grownSet = true ∧
    (∀ message, (servingSet.set [.reconcileError ⟨19936, 36180, 0⟩ message]).equivalent
      (restatedSet.set [.reconcileError ⟨19936, 36180, 0⟩ message]) = true) ∧
    (servingSet.set [.reconcileError ⟨19936, 36180, 0⟩ "late",
        .unavailable ⟨19936, 36180, 0⟩ "gone"]).equivalent
      (servingSet.set [.unavailable ⟨19936, 36180, 0⟩ "gone",
        .reconcileError ⟨19936, 36180, 0⟩ "late"]) = true := by
  have hserving : servingSet.Built := .ofList _
  have hrestated : restatedSet.Built := .ofList _
  have hgrown : grownSet.Built := .set (.ofList _) _
  have hsame : servingSet.equivalent restatedSet = true := by decide
  obtain ⟨-, hcomm, htrans, -, -, hset, horder⟩ :=
    equivalent_congruence hserving hrestated hgrown
  exact ⟨hserving, hrestated, hgrown, hsame, hcomm.symm.trans hsame, htrans hsame (by decide),
    fun message => hset _ hsame, horder _ _ (by decide) (.swap _ _ _)⟩

end ConditionSet

end ModelOperator
