import ModelOperator.Resource.Conditioned

/-!
# What a set of conditions says after a change

    A condition set is asked whether it says the same as a given condition
    (`ConditionSet.has`).  Setting one condition settles that question for its own type
    and leaves it open for every other (`has_set_singleton`).  The resources inherit
    this: of all that a pass sets, only the last condition of a type counts.

    What exactly is stored is said by `Condition.succeeding`, for one type at a time
    (`ConditionSet.get?_set`).  A set that covers a condition is not changed by setting it
    (`ConditionSet.set_of_covers`), and it covers all that was set last. -/

namespace ModelOperator

namespace Condition

/-- Conditions are equivalent if they say the same, whenever and for whichever generation. -/
theorem equivalent_iff (a b : Condition) :
    a.equivalent b = true ↔
      a.type = b.type ∧ a.status = b.status ∧ a.reason = b.reason ∧ a.message = b.message := by
  simp [equivalent, and_assoc]

@[simp] theorem equivalent_refl (a : Condition) : a.equivalent a = true := by
  simp [equivalent]

/-- What a condition is equivalent to depends on what it says alone. -/
theorem equivalent_congr {a b : Condition} (h : a.equivalent b = true) (c : Condition) :
    a.equivalent c = b.equivalent c := by
  obtain ⟨htype, hstatus, hreason, hmessage⟩ := (equivalent_iff a b).mp h
  simp [equivalent, htype, hstatus, hreason, hmessage]

/-- It does not matter which of two conditions is compared with which. -/
theorem equivalent_comm (a b : Condition) : a.equivalent b = b.equivalent a := by
  rw [Bool.eq_iff_iff, equivalent_iff, equivalent_iff]
  simp only [eq_comm]

/-- What is stored of a type once a condition of that type is set: the stored one, for the
    larger generation, if it says the same, and else the new one. -/
def succeeding (new : Condition) : Option Condition → Condition
  | some stored =>
    if stored.equivalent new then
      { stored with generation := max stored.generation new.generation }
    else new
  | none => new

/-- What is stored says the same as what was set. -/
theorem equivalent_succeeding (new : Condition) (stored : Option Condition) :
    (new.succeeding stored).equivalent new = true := by
  cases stored with
  | none => exact equivalent_refl new
  | some c =>
      rw [succeeding]
      split
      · assumption
      · exact equivalent_refl new

/-- What is stored is for no smaller generation than what was set. -/
theorem le_generation_succeeding (new : Condition) (stored : Option Condition) :
    new.generation ≤ (new.succeeding stored).generation := by
  cases stored with
  | none => exact Int.le_refl _
  | some c =>
      rw [succeeding]
      split
      · exact Int.le_max_right _ _
      · exact Int.le_refl _

/-- No generation is stored but those of the two conditions. -/
theorem generation_succeeding_le {new : Condition} {stored : Option Condition} {g : Int}
    (hnew : new.generation ≤ g) (hstored : ∀ c, stored = some c → c.generation ≤ g) :
    (new.succeeding stored).generation ≤ g := by
  cases stored with
  | none => exact hnew
  | some c =>
      rw [succeeding]
      split
      · exact Int.max_le.mpr ⟨hstored c rfl, hnew⟩
      · exact hnew

/-- As long as a type says the same, it does so since the same time. -/
theorem since_succeeding {new c : Condition} (h : (new.succeeding (some c)).equivalent c = true) :
    (new.succeeding (some c)).since = c.since := by
  rw [succeeding] at h ⊢
  split
  · rfl
  · next hnew =>
    rw [if_neg hnew, equivalent_comm] at h
    exact absurd h hnew

end Condition

namespace ConditionSet

/-- After a condition is put among others, the first of its type says the same. -/
theorem find?_put_self (new : Condition) (items : List Condition) :
    ∃ stored, (put new items).find? (fun c => c.type == new.type) = some stored ∧
      stored.equivalent new = true := by
  induction items with
  | nil => exact ⟨new, by simp [put], Condition.equivalent_refl new⟩
  | cons c rest ih =>
      by_cases htype : c.type = new.type
      · by_cases hsame : c.equivalent new = true
        · refine ⟨{ c with generation := max c.generation new.generation }, ?_, hsame⟩
          simp [put, htype, hsame]
        · exact ⟨new, by simp [put, htype, hsame], Condition.equivalent_refl new⟩
      · obtain ⟨stored, hfound, hsame⟩ := ih
        exact ⟨stored, by simp [put, htype, hfound], hsame⟩

/-- Conditions of other types are found as before. -/
theorem find?_put_of_ne (new : Condition) (items : List Condition) {type : String}
    (h : type ≠ new.type) :
    (put new items).find? (fun c => c.type == type) =
      items.find? (fun c => c.type == type) := by
  induction items with
  | nil => simp [put, Ne.symm h]
  | cons c rest ih =>
      by_cases htype : c.type = new.type
      · have hc : c.type ≠ type := fun e => h (e.symm.trans htype)
        by_cases hsame : c.equivalent new = true
        · simp [put, htype, hsame, Ne.symm h]
        · simp [put, htype, hsame, Ne.symm h]
      · simp [put, htype, ih, List.find?_cons]

/-- Conditions of other types stay as they are, in their order. -/
theorem filter_put_of_false {new : Condition} {keep : Condition → Bool}
    (h : ∀ c, c.type = new.type → keep c = false) (items : List Condition) :
    (put new items).filter keep = items.filter keep := by
  induction items with
  | nil => simp [put, h new rfl]
  | cons c rest ih =>
      by_cases htype : c.type = new.type
      · -- whatever is stored in place of the old condition has its type
        have hdropped : ∀ d : Condition, d.type = new.type →
            (d :: rest).filter keep = rest.filter keep := by
          intro d hd
          rw [List.filter_cons, h d hd]
          rfl
        rw [put, if_pos htype, hdropped c htype]
        split
        · exact hdropped _ htype
        · exact hdropped new rfl
      · rw [put, if_neg htype, List.filter_cons, ih, List.filter_cons]

/-- Setting a condition leaves those of other types. -/
theorem get?_set_of_ne (s : ConditionSet) {new : Condition} {type : String}
    (h : type ≠ new.type) : (s.set [new]).get? type = s.get? type :=
  find?_put_of_ne new s.items h

/-- After a condition is set, the one of its type says the same. -/
theorem get?_set_self (s : ConditionSet) (new : Condition) :
    ∃ stored, (s.set [new]).get? new.type = some stored ∧ stored.equivalent new = true :=
  find?_put_self new s.items

/-- **One condition set.**  It decides what the set says about its type, and nothing
    else. -/
theorem has_set_singleton (s : ConditionSet) (new c : Condition) :
    (s.set [new]).has c = if new.type = c.type then new.equivalent c else s.has c := by
  rw [has]
  by_cases htype : new.type = c.type
  · obtain ⟨stored, hfound, hsame⟩ := s.get?_set_self new
    rw [if_pos htype, ← htype, hfound]
    exact Condition.equivalent_congr hsame c
  · rw [if_neg htype, s.get?_set_of_ne (Ne.symm htype)]
    rfl

/-- A condition that a set does not have yet is stored as it is. -/
theorem get?_set_of_not_has {s : ConditionSet} {new : Condition} (h : s.has new = false) :
    (s.set [new]).get? new.type = some new := by
  obtain ⟨items⟩ := s
  show (put new items).find? (fun c => c.type == new.type) = some new
  replace h : (∃ c, items.find? (fun c => c.type == new.type) = some c ∧
      c.equivalent new = true) → False := by
    rintro ⟨c, hfound, hsame⟩
    simp [has, get?, hfound, hsame] at h
  induction items with
  | nil => simp [put]
  | cons c rest ih =>
      by_cases htype : c.type = new.type
      · by_cases hsame : c.equivalent new = true
        · exact absurd ⟨c, by simp [htype], hsame⟩ h
        · simp [put, htype, hsame]
      · rw [put, if_neg htype, List.find?_cons_of_neg (by simp [htype])]
        exact ih fun hrest => h (by simpa [htype] using hrest)

/-- A condition is found under its own type. -/
theorem type_of_get? {s : ConditionSet} {type : String} {c : Condition}
    (h : s.get? type = some c) : c.type = type := by
  have htype := List.find?_some h
  exact eq_of_beq htype

/-- A set says the same as a condition if the one that it has of its type does. -/
theorem has_iff (s : ConditionSet) (c : Condition) :
    s.has c = true ↔ ∃ stored, s.get? c.type = some stored ∧ stored.status = c.status ∧
      stored.reason = c.reason ∧ stored.message = c.message := by
  rw [has]
  cases hfound : s.get? c.type with
  | none => exact iff_of_false Bool.false_ne_true nofun
  | some stored =>
      dsimp only
      rw [Condition.equivalent_iff]
      exact ⟨fun h => ⟨stored, rfl, h.2⟩,
        fun ⟨_, heq, h⟩ => ⟨type_of_get? hfound, Option.some_inj.mp heq ▸ h⟩⟩

/-- Where a set says the same as a condition, it has one of its type that is as true. -/
theorem get?_of_has {s : ConditionSet} {c : Condition} (h : s.has c = true) :
    ∃ stored, s.get? c.type = some stored ∧ stored.isTrue = c.isTrue := by
  rw [has] at h
  cases hfound : s.get? c.type with
  | none =>
      rw [hfound] at h
      cases h
  | some stored =>
      rw [hfound] at h
      refine ⟨stored, rfl, ?_⟩
      rw [Condition.isTrue, Condition.isTrue, ((Condition.equivalent_iff stored c).mp h).2.1]

/-- No type comes twice. -/
def Unique (s : ConditionSet) : Prop := (s.items.map (·.type)).Nodup

/-- Putting a condition adds its type, if it was not there, at the end. -/
theorem types_put (new : Condition) (items : List Condition) :
    (put new items).map (·.type) =
      if new.type ∈ items.map (·.type) then items.map (·.type)
      else items.map (·.type) ++ [new.type] := by
  induction items with
  | nil => simp [put]
  | cons c rest ih =>
      by_cases htype : c.type = new.type
      · by_cases hsame : c.equivalent new = true
        · simp [put, htype, hsame]
        · simp [put, htype, hsame]
      · rw [put, if_neg htype, List.map_cons, ih, List.map_cons]
        by_cases hmem : new.type ∈ rest.map (·.type)
        · rw [if_pos hmem, if_pos (List.mem_cons_of_mem _ hmem)]
        · rw [if_neg hmem, if_neg (by simpa [Ne.symm htype] using hmem), List.cons_append]

/-- Setting conditions repeats no type. -/
theorem Unique.set {s : ConditionSet} (h : s.Unique) (cs : List Condition) : (s.set cs).Unique := by
  obtain ⟨items⟩ := s
  induction cs generalizing items with
  | nil => exact h
  | cons c rest ih =>
      refine ih (put c items) ?_
      show ((put c items).map (·.type)).Nodup
      rw [types_put]
      by_cases hmem : c.type ∈ items.map (·.type)
      · rw [if_pos hmem]
        exact h
      · rw [if_neg hmem]
        refine List.nodup_append.mpr ⟨h, List.nodup_cons.mpr ⟨List.not_mem_nil, .nil⟩, ?_⟩
        rintro a ha b hb rfl
        exact hmem (List.mem_singleton.mp hb ▸ ha)

/-! ## Conditions set together -/

/-- Setting a condition settles what is stored for its type, and for no other. -/
theorem get?_set_singleton (s : ConditionSet) (new : Condition) (type : String) :
    (s.set [new]).get? type =
      if new.type = type then some (new.succeeding (s.get? type)) else s.get? type := by
  by_cases htype : new.type = type
  · rw [if_pos htype]
    subst htype
    obtain ⟨items⟩ := s
    show (put new items).find? (fun c => c.type == new.type) =
      some (new.succeeding (items.find? fun c => c.type == new.type))
    induction items with
    | nil => simp [put, Condition.succeeding]
    | cons c rest ih =>
        by_cases hc : c.type = new.type
        · by_cases hsame : c.equivalent new = true
          · simp [put, hc, hsame, Condition.succeeding]
          · simp [put, hc, hsame, Condition.succeeding]
        · simp [put, hc, ih]
  · rw [if_neg htype, s.get?_set_of_ne (Ne.symm htype)]

/-- Conditions are set one after the other. -/
theorem set_cons (s : ConditionSet) (c : Condition) (cs : List Condition) :
    s.set (c :: cs) = (s.set [c]).set cs := rfl

/-- **Conditions set together.**  Of conditions of different types each decides what is stored
    of its own type, and the other types stay. -/
theorem get?_set (s : ConditionSet) {cs : List Condition} (h : (cs.map (·.type)).Nodup)
    (type : String) :
    (s.set cs).get? type =
      match cs.find? fun c => c.type == type with
      | some c => some (c.succeeding (s.get? type))
      | none => s.get? type := by
  induction cs generalizing s with
  | nil => rfl
  | cons c rest ih =>
      obtain ⟨hc, hrest⟩ := List.nodup_cons.mp h
      rw [set_cons, ih _ hrest, get?_set_singleton]
      by_cases htype : c.type = type
      · -- no other condition is of this type
        have hnone : rest.find? (fun d => d.type == type) = none := by
          refine List.find?_eq_none.mpr fun d hd hdtype => hc ?_
          exact List.mem_map.mpr ⟨d, hd, (eq_of_beq hdtype).trans htype.symm⟩
        simp [hnone, htype]
      · simp [htype]

/-- Where no type comes twice, a condition is the first of its type. -/
theorem find?_of_mem {items : List Condition} (h : (items.map (·.type)).Nodup) {c : Condition}
    (hc : c ∈ items) : (items.find? fun d => d.type == c.type) = some c := by
  induction items with
  | nil => cases hc
  | cons d rest ih =>
      obtain ⟨hd, hrest⟩ := List.nodup_cons.mp h
      rcases List.mem_cons.mp hc with rfl | hc
      · exact List.find?_cons_of_pos (beq_self_eq_true _)
      · have hne : d.type ≠ c.type := fun htype => hd (List.mem_map.mpr ⟨c, hc, htype.symm⟩)
        rw [List.find?_cons_of_neg (by simp [hne])]
        exact ih hrest hc

/-- Where no type comes twice, every condition is found under its type. -/
theorem Unique.get?_of_mem {s : ConditionSet} (h : s.Unique) {c : Condition} (hc : c ∈ s.items) :
    s.get? c.type = some c :=
  find?_of_mem h hc

/-- Where conditions of different types are set, each is stored for its type. -/
theorem get?_set_of_mem (s : ConditionSet) {cs : List Condition} (h : (cs.map (·.type)).Nodup)
    {c : Condition} (hc : c ∈ cs) :
    (s.set cs).get? c.type = some (c.succeeding (s.get? c.type)) := by
  rw [s.get?_set h, find?_of_mem h hc]

theorem mem_of_get? {s : ConditionSet} {type : String} {c : Condition}
    (h : s.get? type = some c) : c ∈ s.items := List.mem_of_find?_eq_some h

/-- The set has a condition of this type that says the same, for no smaller generation. -/
def Covers (s : ConditionSet) (c : Condition) : Prop :=
  ∃ stored, s.get? c.type = some stored ∧ stored.equivalent c = true ∧
    c.generation ≤ stored.generation

/-- A condition that is covered changes nothing when it is set. -/
theorem set_singleton_of_covers {s : ConditionSet} {c : Condition} (h : s.Covers c) :
    s.set [c] = s := by
  obtain ⟨items⟩ := s
  obtain ⟨stored, hfound, hsame, hle⟩ := h
  replace hfound : items.find? (fun d => d.type == c.type) = some stored := hfound
  show (⟨put c items⟩ : ConditionSet) = ⟨items⟩
  congr 1
  induction items with
  | nil => cases hfound
  | cons d rest ih =>
      by_cases htype : d.type = c.type
      · rw [List.find?_cons_of_pos (by simp [htype])] at hfound
        cases hfound
        rw [put, if_pos htype, if_pos hsame, Int.max_eq_left hle]
      · rw [List.find?_cons_of_neg (by simp [htype])] at hfound
        rw [put, if_neg htype, ih hfound]

/-- Conditions that are covered change nothing when they are set. -/
theorem set_of_covers {s : ConditionSet} {cs : List Condition} (h : ∀ c ∈ cs, s.Covers c) :
    s.set cs = s := by
  induction cs with
  | nil => rfl
  | cons c rest ih =>
      rw [set_cons, set_singleton_of_covers (h c List.mem_cons_self)]
      exact ih fun d hd => h d (List.mem_cons_of_mem c hd)

/-- What was set is covered. -/
theorem covers_set (s : ConditionSet) {cs : List Condition} (h : (cs.map (·.type)).Nodup)
    {c : Condition} (hc : c ∈ cs) : (s.set cs).Covers c :=
  ⟨_, s.get?_set_of_mem h hc, Condition.equivalent_succeeding c _,
    Condition.le_generation_succeeding c _⟩

end ConditionSet

/-! ## Resources with conditions -/

namespace Conditioned

variable {ρ σ : Type} (k : Conditioned ρ σ) (r : ρ)

/-- A status that was just put in is the status. -/
@[simp] theorem statusOrEmpty_withStatus (s : σ) : k.statusOrEmpty (k.withStatus r s) = s := by
  rw [statusOrEmpty, k.status_withStatus]
  rfl

/-- Setting conditions leaves the metadata alone. -/
@[simp] theorem metadata_setConditions (cs : List Condition) :
    k.metadata (k.setConditions r cs) = k.metadata r :=
  k.metadata_withStatus r _

/-- Setting conditions sets them in the stored ones, for the generation of the resource. -/
@[simp] theorem conditions_setConditions (cs : List Condition) :
    k.conditions (k.statusOrEmpty (k.setConditions r cs)) =
      (k.conditions (k.statusOrEmpty r)).set
        (ConditionSet.stamped (k.metadata r).generation cs) := by
  simp only [setConditions, statusOrEmpty_withStatus, k.conditions_withConditions]

/-- Setting conditions says nothing of the generation that was seen. -/
@[simp] theorem generation_setConditions (cs : List Condition) :
    k.generation (k.statusOrEmpty (k.setConditions r cs)) =
      k.generation (k.statusOrEmpty r) := by
  simp only [setConditions, statusOrEmpty_withStatus, k.generation_withConditions]

/-- The condition of a type is the one in the status. -/
theorem condition?_eq (type : String) :
    k.condition? r type = (k.conditions (k.statusOrEmpty r)).get? type := by
  rw [condition?, conditions?, statusOrEmpty]
  cases k.status r with
  | some s => rfl
  | none =>
      rw [Option.getD_none, k.conditions_empty]
      rfl

/-- A resource says the same as a condition if its set of conditions does. -/
theorem hasCondition_eq (c : Condition) :
    k.hasCondition r c = (k.conditions (k.statusOrEmpty r)).has c := by
  rw [hasCondition, condition?_eq]
  rfl

/-- A resource says the same as a condition if the one that it has of that type does. -/
theorem hasCondition_iff (c : Condition) :
    k.hasCondition r c = true ↔ ∃ stored, k.condition? r c.type = some stored ∧
      stored.status = c.status ∧ stored.reason = c.reason ∧ stored.message = c.message := by
  rw [hasCondition_eq, ConditionSet.has_iff, condition?_eq]

/-- Whether the stored conditions include one like this after one is set. -/
theorem has_setConditions (new c : Condition) :
    (k.conditions (k.statusOrEmpty (k.setConditions r [new]))).has c =
      if new.type = c.type then new.equivalent c
      else (k.conditions (k.statusOrEmpty r)).has c := by
  rw [conditions_setConditions]
  exact ConditionSet.has_set_singleton _ _ c

/-- Setting conditions repeats no type. -/
theorem unique_setConditions (h : (k.conditions (k.statusOrEmpty r)).Unique)
    (cs : List Condition) : (k.conditions (k.statusOrEmpty (k.setConditions r cs))).Unique := by
  rw [conditions_setConditions]
  exact h.set _

end Conditioned

end ModelOperator
