import Mathlib.Order.Bounds.Basic
import ModelOperator.Proofs.Resource.Conditions

/-!
# Sets after many conditions

    A pass sets several conditions at once, and may say several things of one type one after the
    other.  Types do not get in each other's way: what stands of a type in the end is what the
    conditions of that type make of what stood there, in their order (`ConditionSet.get?_set_eq`).

    So the contract of a set is told for one type at a time (`Condition.standing`): the last
    condition decides what is said, a type that says the same all along keeps its time, and
    setting the same conditions again changes nothing.  For the last of these the conditions
    need not agree: where they do not, what they come to does not depend on what stood there
    before (`Condition.standing_agree_or_const`). -/

namespace ModelOperator

namespace Condition

/-- What stands of a type after conditions of that type were set, one after the other. -/
def standing (stored : Option Condition) (given : List Condition) : Option Condition :=
  given.foldl (fun stored c => some (c.succeeding stored)) stored

theorem standing_cons (stored : Option Condition) (c : Condition) (rest : List Condition) :
    standing stored (c :: rest) = standing (some (c.succeeding stored)) rest := rfl

theorem standing_concat (stored : Option Condition) (before : List Condition) (c : Condition) :
    standing stored (before ++ [c]) = some (c.succeeding (standing stored before)) := by
  rw [standing, List.foldl_append]
  rfl

theorem succeeding_of_equivalent {stored new : Condition} (h : stored.equivalent new = true) :
    new.succeeding (some stored) =
      { stored with generation := max stored.generation new.generation } :=
  if_pos h

theorem succeeding_of_not_equivalent {stored new : Condition}
    (h : stored.equivalent new = false) : new.succeeding (some stored) = new :=
  if_neg (ne_true_of_eq_false h)

/-- What stands in the end says what the last condition says. -/
theorem equivalent_standing (stored : Option Condition) {given : List Condition} {last : Condition}
    (h : given.getLast? = some last) :
    ∃ c, standing stored given = some c ∧ c.equivalent last = true := by
  obtain ⟨before, rfl⟩ := List.getLast?_eq_some_iff.mp h
  exact ⟨_, standing_concat stored before last, equivalent_succeeding last _⟩

/-- **As long as nothing else is said.**  What stands keeps its time, and is there for the
    largest of all generations. -/
theorem standing_of_agree {stored : Condition} {given : List Condition}
    (h : ∀ c ∈ given, stored.equivalent c = true) :
    ∃ kept, standing (some stored) given = some kept ∧ kept.equivalent stored = true ∧
      kept.since = stored.since ∧
      IsGreatest {g | g ∈ stored.generation :: given.map (·.generation)} kept.generation := by
  induction given generalizing stored with
  | nil => exact ⟨stored, rfl, equivalent_refl stored, rfl, by simp [IsGreatest, upperBounds]⟩
  | cons c rest ih =>
      obtain ⟨hc, hrest⟩ := List.forall_mem_cons.mp h
      rw [standing_cons, succeeding_of_equivalent hc]
      -- what stands now says the same, at the larger generation
      have hraised : ∀ d ∈ rest, Condition.equivalent
          { stored with generation := max stored.generation c.generation } d = true := hrest
      obtain ⟨kept, hkept, hsame, hsince, hmem, hbound⟩ := ih hraised
      refine ⟨kept, hkept, hsame, hsince, ?_, ?_⟩
      · -- the larger of the first two generations is one of them
        rcases List.mem_cons.mp hmem with hmax | hlater
        · rcases le_total stored.generation c.generation with hle | hle
          · rw [max_eq_right hle] at hmax
            simp [hmax]
          · rw [max_eq_left hle] at hmax
            simp [hmax]
        · exact List.mem_cons_of_mem _ (List.mem_cons_of_mem _ hlater)
      · have hmax := hbound List.mem_cons_self
        intro g hg
        rcases List.mem_cons.mp hg with rfl | hg
        · exact (le_max_left _ _).trans hmax
        · rcases List.mem_cons.mp hg with rfl | hg
          · exact (le_max_right _ _).trans hmax
          · exact hbound (List.mem_cons_of_mem _ hg)

/-- Conditions that all say the same change nothing where what stands says it too, for no
    smaller generation. -/
theorem standing_of_covered {stored : Condition} {given : List Condition}
    (h : ∀ c ∈ given, stored.equivalent c = true ∧ c.generation ≤ stored.generation) :
    standing (some stored) given = some stored := by
  induction given with
  | nil => rfl
  | cons c rest ih =>
      obtain ⟨⟨hsame, hle⟩, hrest⟩ := List.forall_mem_cons.mp h
      rw [standing_cons, succeeding_of_equivalent hsame, max_eq_left hle]
      exact ih hrest

/-- Conditions of one type either all say the same, or come to the same whatever stood there:
    the first of the last ones that agree takes the place of one that does not. -/
theorem standing_agree_or_const (given : List Condition) :
    (∀ a ∈ given, ∀ b ∈ given, a.equivalent b = true) ∨
      ∀ stored other, standing stored given = standing other given := by
  induction given with
  | nil => exact Or.inl nofun
  | cons c rest ih =>
      rcases ih with hagree | hconst
      · cases rest with
        | nil => exact Or.inl (by simp)
        | cons d later =>
            cases hcd : c.equivalent d with
            | true =>
                -- all of them say what the second one says
                have hall : ∀ a ∈ c :: d :: later, a.equivalent d = true :=
                  List.forall_mem_cons.mpr ⟨hcd, fun a ha => hagree a ha d List.mem_cons_self⟩
                refine Or.inl fun a ha b hb => ?_
                rw [equivalent_congr (hall a ha), equivalent_comm]
                exact hall b hb
            | false =>
                refine Or.inr fun stored other => ?_
                have hreplaced : ∀ before, d.succeeding (some (c.succeeding before)) = d := by
                  intro before
                  refine succeeding_of_not_equivalent ?_
                  rw [equivalent_congr (equivalent_succeeding c before), hcd]
                rw [standing_cons, standing_cons, standing_cons, standing_cons, hreplaced,
                  hreplaced]
      · exact Or.inr fun _ _ => hconst _ _

/-- **Once is enough.**  The same conditions set again leave what stands as it is. -/
theorem standing_standing (stored : Option Condition) (given : List Condition) :
    standing (standing stored given) given = standing stored given := by
  rcases standing_agree_or_const given with hagree | hconst
  · cases given with
    | nil => rfl
    | cons c rest =>
        -- what the first condition leaves says the same as all others
        have hfirst : ∀ d ∈ rest, (c.succeeding stored).equivalent d = true := by
          intro d hd
          rw [equivalent_congr (equivalent_succeeding c stored)]
          exact hagree c List.mem_cons_self d (List.mem_cons_of_mem _ hd)
        obtain ⟨kept, hkept, hsame, -, -, hbound⟩ := standing_of_agree hfirst
        rw [standing_cons stored, hkept]
        refine standing_of_covered (List.forall_mem_cons.mpr ⟨⟨?_, ?_⟩, fun d hd => ⟨?_, ?_⟩⟩)
        · rw [equivalent_congr hsame]
          exact equivalent_succeeding c stored
        · exact (le_generation_succeeding c stored).trans (hbound List.mem_cons_self)
        · rw [equivalent_congr hsame]
          exact hfirst d hd
        · exact hbound (List.mem_cons_of_mem _ (List.mem_map.mpr ⟨d, hd, rfl⟩))
  · exact hconst _ _

end Condition

namespace ConditionSet

/-- The types of a set, in its order. -/
def types (s : ConditionSet) : List String := s.items.map (·.type)

/-- The conditions of one type, in their order. -/
def ofType (type : String) (cs : List Condition) : List Condition :=
  cs.filter fun c => c.type == type

theorem mem_ofType {type : String} {cs : List Condition} {c : Condition} :
    c ∈ ofType type cs ↔ c ∈ cs ∧ c.type = type := by
  rw [ofType, List.mem_filter, beq_iff_eq]

theorem ofType_eq_nil {type : String} {cs : List Condition} (h : type ∉ cs.map (·.type)) :
    ofType type cs = [] := by
  refine List.filter_eq_nil_iff.mpr fun c hc htype => h ?_
  exact List.mem_map.mpr ⟨c, hc, eq_of_beq htype⟩

/-- **One type of a set.**  The conditions of a type decide what stands of it. -/
theorem get?_set_eq (s : ConditionSet) (cs : List Condition) (type : String) :
    (s.set cs).get? type = Condition.standing (s.get? type) (ofType type cs) := by
  induction cs generalizing s with
  | nil => rfl
  | cons c rest ih =>
      rw [set_cons, ih, get?_set_singleton, ofType, ofType, List.filter_cons]
      by_cases htype : c.type = type
      · rw [if_pos htype, if_pos (by simpa using htype), Condition.standing_cons]
      · rw [if_neg htype, if_neg (by simpa using htype)]

/-- The types that are there stay in their order, and new ones follow as they first come. -/
theorem types_set (s : ConditionSet) (cs : List Condition) :
    (s.set cs).types = s.types ++ ((cs.map (·.type)).removeAll s.types).eraseDups := by
  induction cs generalizing s with
  | nil => exact (List.append_nil _).symm
  | cons c rest ih =>
      have hput : (s.set [c]).types = if c.type ∈ s.types then s.types else s.types ++ [c.type] :=
        types_put c s.items
      rw [set_cons, ih, hput, List.map_cons, List.cons_removeAll]
      by_cases hmem : c.type ∈ s.types
      · rw [if_pos hmem, if_neg (by simpa using hmem)]
      · -- the type is new, and those that come later are told apart from it as well
        have hlater : (rest.map (·.type)).removeAll (s.types ++ [c.type]) =
            ((rest.map (·.type)).removeAll s.types).filter fun type => !type == c.type := by
          rw [List.removeAll, List.removeAll, List.filter_filter]
          refine List.filter_congr fun type _ => ?_
          rw [Bool.eq_iff_iff]
          simp [and_comm]
        rw [if_neg hmem, if_pos (by simpa using hmem), hlater, List.eraseDups_cons,
          List.append_assoc]
        rfl

/-- Without a type twice, a set is told by its types and what stands of each. -/
theorem ext_get? {a b : ConditionSet} (ha : a.Unique) (htypes : a.types = b.types)
    (hget : ∀ type, a.get? type = b.get? type) : a = b := by
  have hb : b.Unique := by
    rw [Unique, ← types, ← htypes]
    exact ha
  obtain ⟨items⟩ := a
  obtain ⟨others⟩ := b
  have hlength : items.length = others.length := by
    simpa [types] using congrArg List.length htypes
  refine congrArg ConditionSet.mk (List.ext_getElem hlength fun i hi hj => ?_)
  -- the conditions at one position have one type, and each is what stands of it
  have htype : items[i].type = others[i].type := by
    have hat : (items.map (·.type))[i]? = (others.map (·.type))[i]? :=
      congrArg (fun types : List String => types[i]?) htypes
    simpa [hi, hj] using hat
  have hleft := ha.get?_of_mem (List.getElem_mem hi)
  have hright := hb.get?_of_mem (List.getElem_mem hj)
  have hsome := hleft.symm.trans ((hget _).trans (htype ▸ hright))
  exact Option.some_inj.mp hsome

/-- Setting the same conditions again changes nothing. -/
theorem set_set {s : ConditionSet} (h : s.Unique) (cs : List Condition) :
    (s.set cs).set cs = s.set cs := by
  refine ext_get? ((h.set cs).set cs) ?_ fun type => ?_
  · -- no type is new any more
    have hnone : (cs.map (·.type)).removeAll (s.set cs).types = [] := by
      refine List.filter_eq_nil_iff.mpr fun type htype hnew => ?_
      have hmem : type ∈ (s.set cs).types := by
        rw [types_set, List.mem_append]
        by_cases hold : type ∈ s.types
        · exact Or.inl hold
        · refine Or.inr (List.mem_eraseDups.mpr ?_)
          exact List.mem_filter.mpr ⟨htype, by simpa using hold⟩
      simp [hmem] at hnew
    rw [types_set, hnone]
    exact List.append_nil _
  · rw [get?_set_eq, get?_set_eq, Condition.standing_standing]

/-- **The contract of setting conditions.**  Let no type come twice in a set.  After any
    conditions are set, none does.  The types that were there keep their order, in front, and
    new ones follow in the order in which they first come.  A type that is not set stays as it
    is; one that is set says what the last condition of it says; and where all of its conditions
    say what is stored, it keeps its time, for the largest of their generations.  Setting the
    same conditions again changes nothing. -/
theorem set_contract {s : ConditionSet} (hunique : s.Unique) (cs : List Condition) :
    (s.set cs).Unique ∧
    (s.set cs).types = s.types ++ ((cs.map (·.type)).removeAll s.types).eraseDups ∧
    (∀ type, type ∉ cs.map (·.type) → (s.set cs).get? type = s.get? type) ∧
    (∀ type last, (ofType type cs).getLast? = some last →
      ∃ c, (s.set cs).get? type = some c ∧ c.equivalent last = true) ∧
    (∀ type stored, s.get? type = some stored →
      (∀ c ∈ ofType type cs, stored.equivalent c = true) →
        ∃ kept, (s.set cs).get? type = some kept ∧ kept.equivalent stored = true ∧
          kept.since = stored.since ∧
          IsGreatest {g | g ∈ stored.generation :: (ofType type cs).map (·.generation)}
            kept.generation) ∧
    (s.set cs).set cs = s.set cs := by
  refine ⟨hunique.set cs, types_set s cs, fun type htype => ?_, fun type last hlast => ?_,
    fun type stored hstored hagree => ?_, set_set hunique cs⟩
  · rw [get?_set_eq, ofType_eq_nil htype]
    rfl
  · rw [get?_set_eq]
    exact Condition.equivalent_standing _ hlast
  · rw [get?_set_eq, hstored]
    exact Condition.standing_of_agree hagree

/-- The conditions of a model whose server is being made. -/
def startingSet : ConditionSet :=
  ⟨[{ Condition.reconcileSuccess ⟨19936, 36000, 0⟩ with generation := 3 },
    { Condition.creating ⟨19936, 36000, 0⟩ "starting" with generation := 3 }]⟩

/-- Conditions set later, some types several times. -/
def startingNews : List Condition :=
  [⟨"Warm", .fails, "Cold", "", ⟨19936, 36060, 0⟩, 4⟩,
    { Condition.reconcileSuccess ⟨19936, 36060, 0⟩ with generation := 5 },
    Condition.unavailable ⟨19936, 36060, 0⟩ "no pods",
    { Condition.reconcileSuccess ⟨19936, 36060, 0⟩ with generation := 4 },
    Condition.available ⟨19936, 36060, 0⟩,
    ⟨"Warm", .holds, "Cached", "", ⟨19936, 36060, 0⟩, 4⟩]

/-- The success is still that of the first time, now for the fifth generation; the server can be
    used; and a type that came twice stands behind the others once. -/
theorem set_contract_starting : startingSet.Unique ∧
    (startingSet.set startingNews).types = ["Synced", "Ready", "Warm"] ∧
    (∃ c, (startingSet.set startingNews).get? "Ready" = some c ∧
      c.equivalent (Condition.available ⟨19936, 36060, 0⟩) = true) ∧
    (∃ kept, (startingSet.set startingNews).get? "Synced" = some kept ∧
      kept.since = ⟨19936, 36000, 0⟩ ∧ IsGreatest {g | g ∈ [3, 5, 4]} kept.generation) ∧
    (startingSet.set startingNews).set startingNews = startingSet.set startingNews := by
  have hunique : startingSet.Unique := by
    show (startingSet.items.map (·.type)).Nodup
    decide
  obtain ⟨-, htypes, -, hlast, hkept, hagain⟩ := set_contract hunique startingNews
  refine ⟨hunique, htypes.trans (by decide), hlast "Ready" _ rfl, ?_, hagain⟩
  obtain ⟨kept, hget, -, hsince, hgreatest⟩ := hkept "Synced" _ rfl (by decide)
  exact ⟨kept, hget, hsince, hgreatest⟩

end ConditionSet

end ModelOperator
