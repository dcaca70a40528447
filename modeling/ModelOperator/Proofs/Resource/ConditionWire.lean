import ModelOperator.Proofs.Cluster.Shape
import ModelOperator.Proofs.Json.Written
import ModelOperator.Proofs.Time.InstantText
import ModelOperator.Resource.Model

/-!
# Conditions on the wire

    What is written of a condition is read back as it was, if its time is valid and its
    generation fits 64 bits.  A set of conditions that is not empty replaces the one that
    it is merged into.

    * `Condition.read_toJson`, `ConditionSet.read_toJson` are the round trips;
    * `Condition.writable_of_read` says that they hold of every condition that was read;
    * `ConditionSet.defaulted_merged` is a merge. -/

namespace ModelOperator

open Record

/-- A whole number of 64 bits with sign. -/
def Fits64 (n : Int) : Prop := -9223372036854775808 ≤ n ∧ n ≤ 9223372036854775807

instance (n : Int) : Decidable (Fits64 n) := inferInstanceAs (Decidable (_ ∧ _))

theorem Reader.list_int64 {numbers : List Int} (h : ∀ n ∈ numbers, Fits64 n) :
    Reader.list Reader.int64 (.arr (numbers.map .int)) = .ok numbers :=
  Reader.each_map fun n hn => Reader.within_int (h n hn)

theorem isNull_of_unlessEmpty {s : String} {v : Json} (h : unlessEmpty s = some v) :
    v.isNull = false := by
  rw [unlessEmpty] at h
  split at h
  · cases h
  · cases h
    rfl

/-- A text that is left out when it is empty is read back with the empty default. -/
theorem Record.Carries.unlessEmpty {r : Record} {entries : List (String × Option Json)}
    (hr : r.Carries entries) {place : Nat} {key s : String}
    (hs : (entries.lookup key).join = ModelOperator.unlessEmpty s) :
    r.defaulted place key Reader.text "" = .ok s :=
  hr.defaulted_unless hs Eq.symm rfl

/-- A text that is merged into a record; an empty one is left out and changes nothing. -/
theorem defaulted_unlessEmpty_merged {entries : List (String × Option Json)}
    (h : Mergeable entries) {target : Members} (htarget : Members.increasing target = true)
    {name key : String} {size place : Nat} {s old : String}
    (hs : (entries.lookup key).join = unlessEmpty s)
    (hold : (named name size target).defaulted place key Reader.text "" = .ok old) :
    (named name size (Json.mergeMembers (Members.ofList (present entries)) target)).defaulted
      place key Reader.text "" = .ok (if s = "" then old else s) := by
  rw [defaulted_mergeable h htarget hs]
  rw [unlessEmpty]
  by_cases hempty : s = ""
  · rw [if_pos hempty, if_pos hempty]
    exact hold
  · rw [if_neg hempty, if_neg hempty]
    simp only [Option.elim, Json.mergePatch, Reader.text]

/-! ## Conditions -/

/-- A condition that is read back as it is written. -/
structure Condition.Writable (c : Condition) : Prop where
  since : c.since.Valid
  generation : Fits64 c.generation

namespace Condition

/-- An instant is read back from its text. -/
theorem readInstant_text {t : Instant} (h : t.Valid) :
    readInstant (.str (t.text .shortest)) = .ok t := by
  simp only [readInstant, Instant.read_text h]

/-- What is read as an instant is a valid one. -/
theorem valid_of_readInstant {v : Json} {t : Instant} (h : readInstant v = .ok t) : t.Valid := by
  simp only [readInstant] at h
  split at h
  · split at h
    · rename_i hread
      cases h
      exact Instant.valid_of_read hread
    · cases h
  · cases h

theorem word_truth (s : Truth) : Reader.word Truth.words (.str s.text) = .ok s := by
  cases s <;> rfl

/-- A condition that can be written is read back. -/
theorem read_toJson {c : Condition} (h : c.Writable) : read c.toJson = .ok c := by
  refine read_ofPresent (by simp) fun r hr => ?_
  refine Reading.bind_eq (hr.required rfl rfl) ?_
  refine Reading.bind_eq (hr.required rfl (word_truth c.status)) ?_
  refine Reading.bind_eq (hr.required rfl rfl) ?_
  refine Reading.bind_eq (hr.unlessEmpty rfl) ?_
  refine Reading.bind_eq (hr.required rfl (readInstant_text h.since)) ?_
  refine Reading.bind_eq (hr.defaulted_unless rfl Eq.symm (Reader.within_int h.generation)) ?_
  rfl

/-- What is read as a condition can be written. -/
theorem writable_of_read {v : Json} {c : Condition} (h : read v = .ok c) : c.Writable := by
  obtain ⟨r, -, h⟩ := Reading.bind_ok h
  obtain ⟨type, -, h⟩ := Reading.bind_ok h
  obtain ⟨status, -, h⟩ := Reading.bind_ok h
  obtain ⟨reason, -, h⟩ := Reading.bind_ok h
  obtain ⟨message, -, h⟩ := Reading.bind_ok h
  obtain ⟨since, hsince, h⟩ := Reading.bind_ok h
  obtain ⟨generation, hgeneration, h⟩ := Reading.bind_ok h
  cases h
  obtain ⟨w, hw⟩ := required_ok hsince
  refine ⟨valid_of_readInstant hw, ?_⟩
  rcases defaulted_ok hgeneration with rfl | ⟨w, hw⟩
  · exact (by decide : Fits64 0)
  · exact (Reader.within_ok hw).2

end Condition

/-- A set of conditions that is read back as it is written. -/
def ConditionSet.Writable (s : ConditionSet) : Prop := ∀ c ∈ s.items, c.Writable

namespace ConditionSet

/-- A set that can be written is read back. -/
theorem read_toJson {s : ConditionSet} (h : s.Writable) : read s.toJson = .ok s := by
  have heach : Reader.list Condition.read s.toJson = .ok s.items :=
    Reader.each_map fun c hc => Condition.read_toJson (h c hc)
  rw [read]
  rw [heach]
  rfl

/-- What is read as a set can be written. -/
theorem writable_of_read {v : Json} {s : ConditionSet} (h : read v = .ok s) : s.Writable := by
  obtain ⟨items, hitems, h⟩ := Reading.bind_ok h
  cases h
  simp only [Reader.list] at hitems
  split at hitems
  · intro c hc
    obtain ⟨w, hw⟩ := Reader.each_ok hitems c hc
    exact Condition.writable_of_read hw
  · cases hitems

theorem writable_of_defaulted {r : Record} {place : Nat} {key : String} {s : ConditionSet}
    (h : r.defaulted place key read {} = .ok s) : s.Writable := by
  rcases defaulted_ok h with rfl | ⟨v, hv⟩
  · intro c hc
    cases hc
  · exact writable_of_read hv

/-- A set of conditions that is left out where it is empty is read back. -/
theorem defaulted_again {entries : List (String × Option Json)} {old r : Record}
    (hr : r.Carries entries) {place : Nat} {key : String} {s : ConditionSet}
    (hold : old.defaulted place key read {} = .ok s)
    (hs : (entries.lookup key).join = if s.items.isEmpty then none else some s.toJson) :
    r.defaulted place key read {} = .ok s := by
  refine hr.defaulted_unless hs (fun hempty => ?_) (read_toJson (writable_of_defaulted hold))
  obtain ⟨items⟩ := s
  exact congrArg ConditionSet.mk (List.isEmpty_iff.mp hempty).symm

/-- A condition in a changed set is the new one, an old one, or an old one with a newer
    generation. -/
theorem mem_put {new c : Condition} {items : List Condition} (h : c ∈ put new items) :
    c = new ∨ c ∈ items ∨
      ∃ d ∈ items, c = { d with generation := max d.generation new.generation } := by
  induction items with
  | nil => exact Or.inl (List.mem_singleton.mp h)
  | cons d rest ih =>
      rw [put] at h
      -- a condition of the same type stays if it says the same, and is replaced if not
      split at h
      · split at h
        · rcases List.mem_cons.mp h with rfl | h
          · exact Or.inr (Or.inr ⟨d, List.mem_cons_self, rfl⟩)
          · exact Or.inr (Or.inl (List.mem_cons_of_mem _ h))
        · rcases List.mem_cons.mp h with rfl | h
          · exact Or.inl rfl
          · exact Or.inr (Or.inl (List.mem_cons_of_mem _ h))
      · rcases List.mem_cons.mp h with rfl | h
        · exact Or.inr (Or.inl List.mem_cons_self)
        · rcases ih h with rfl | h | ⟨e, he, rfl⟩
          · exact Or.inl rfl
          · exact Or.inr (Or.inl (List.mem_cons_of_mem _ h))
          · exact Or.inr (Or.inr ⟨e, List.mem_cons_of_mem _ he, rfl⟩)

/-- Setting a condition that can be written keeps the set so. -/
theorem writable_set_singleton {s : ConditionSet} {new : Condition} (hs : s.Writable)
    (hnew : new.Writable) : (s.set [new]).Writable := by
  intro c hc
  rcases mem_put hc with rfl | hc | ⟨d, hd, rfl⟩
  · exact hnew
  · exact hs c hc
  · -- the greater of two generations is one of them
    refine ⟨(hs d hd).since, ?_⟩
    obtain ⟨hlow, hhigh⟩ := (hs d hd).generation
    obtain ⟨hlow', hhigh'⟩ := hnew.generation
    show Fits64 (max d.generation new.generation)
    rw [Fits64]
    omega

theorem set_singleton_ne_nil (s : ConditionSet) (new : Condition) : (s.set [new]).items ≠ [] := by
  show put new s.items ≠ []
  cases s.items with
  | nil => exact List.cons_ne_nil _ _
  | cons c rest =>
      rw [put]
      split
      · split <;> exact List.cons_ne_nil _ _
      · exact List.cons_ne_nil _ _

/-- A set that is not empty replaces what it is merged into. -/
theorem defaulted_merged {entries : List (String × Option Json)} (hw : Mergeable entries)
    {target : Members} (htarget : Members.increasing target = true) {s : ConditionSet}
    {name : String} {size : Nat}
    (hlookup : (entries.lookup "conditions").join =
      if s.items.isEmpty then none else some s.toJson)
    (hne : s.items ≠ []) (hs : s.Writable) :
    (named name size (Json.mergeMembers (Members.ofList (present entries)) target)).defaulted 0
      "conditions" read {} = .ok s := by
  rw [if_neg (mt List.isEmpty_iff.mp hne)] at hlookup
  refine (defaulted_mergeable hw htarget hlookup).trans ?_
  simp only [Option.elim, toJson, Json.mergePatch]
  exact read_toJson hs

end ConditionSet

end ModelOperator
