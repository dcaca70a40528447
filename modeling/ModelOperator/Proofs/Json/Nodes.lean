import ModelOperator.Json.Value

/-!
# What is in a value

    A value is an object with members, a list with items, or has no parts.  What holds of
    values is told from what holds of their parts (`Json.parts_induction`), and `Json.nodes`
    lists a value and all that is in it, at every depth. -/

namespace ModelOperator

namespace Json

/-- Induction from the parts of a value to the value. -/
@[elab_as_elim]
theorem parts_induction {motive : Json → Prop} (null : motive .null) (bool : ∀ b, motive (.bool b))
    (int : ∀ n, motive (.int n)) (float : ∀ x, motive (.float x)) (str : ∀ s, motive (.str s))
    (arr : ∀ items, (∀ v ∈ items, motive v) → motive (.arr items))
    (obj : ∀ ms : Members, (∀ m ∈ ms, motive m.2) → motive (.obj ms)) (v : Json) : motive v :=
  @Json.rec motive (fun items => ∀ v ∈ items, motive v) (fun ms => ∀ m ∈ ms, motive m.2)
    (fun m => motive m.2) null bool int float str arr obj
    nofun (fun _ _ hv hrest => List.forall_mem_cons.mpr ⟨hv, hrest⟩)
    nofun (fun _ _ hm hrest => List.forall_mem_cons.mpr ⟨hm, hrest⟩) (fun _ _ hv => hv) v

mutual
/-- A value and all that is in it. -/
def nodes : Json → List Json
  | .obj members => .obj members :: nodesOfMembers members
  | .arr items => .arr items :: nodesOfItems items
  | v => [v]

/-- What is in the members of an object. -/
def nodesOfMembers : Members → List Json
  | [] => []
  | (_, v) :: rest => nodes v ++ nodesOfMembers rest

/-- What is in the items of a list. -/
def nodesOfItems : List Json → List Json
  | [] => []
  | v :: rest => nodes v ++ nodesOfItems rest
end

theorem mem_nodesOfMembers {w : Json} {ms : Members} :
    w ∈ nodesOfMembers ms ↔ ∃ m ∈ ms, w ∈ nodes m.2 := by
  induction ms with
  | nil => simp [nodesOfMembers]
  | cons first rest ih =>
      obtain ⟨k, v⟩ := first
      simp [nodesOfMembers, ih]

theorem mem_nodesOfItems {w : Json} {items : List Json} :
    w ∈ nodesOfItems items ↔ ∃ v ∈ items, w ∈ nodes v := by
  induction items with
  | nil => simp [nodesOfItems]
  | cons v rest ih => simp [nodesOfItems, ih]

/-- What holds of everything in an object holds of it and of what is in its members. -/
theorem forall_nodes_obj {p : Json → Prop} {ms : Members} :
    (∀ w ∈ nodes (.obj ms), p w) ↔ p (.obj ms) ∧ ∀ m ∈ ms, ∀ w ∈ nodes m.2, p w := by
  rw [nodes, List.forall_mem_cons]
  refine and_congr_right fun _ => ⟨fun h m hm w hw => h w (mem_nodesOfMembers.mpr ⟨m, hm, hw⟩), ?_⟩
  intro h w hw
  obtain ⟨m, hm, hw⟩ := mem_nodesOfMembers.mp hw
  exact h m hm w hw

/-- What holds of everything in a list holds of it and of what is in its items. -/
theorem forall_nodes_arr {p : Json → Prop} {items : List Json} :
    (∀ w ∈ nodes (.arr items), p w) ↔ p (.arr items) ∧ ∀ v ∈ items, ∀ w ∈ nodes v, p w := by
  rw [nodes, List.forall_mem_cons]
  refine and_congr_right fun _ => ⟨fun h v hv w hw => h w (mem_nodesOfItems.mpr ⟨v, hv, hw⟩), ?_⟩
  intro h w hw
  obtain ⟨v, hv, hw⟩ := mem_nodesOfItems.mp hw
  exact h v hv w hw

/-- What is in something that is in a value is in the value. -/
theorem mem_nodes_trans {u w : Json} (hu : u ∈ nodes w) {v : Json} (hw : w ∈ nodes v) :
    u ∈ nodes v := by
  induction v using parts_induction with
  | obj ms ih =>
      rcases List.mem_cons.mp hw with rfl | hw
      · exact hu
      · obtain ⟨m, hm, hw⟩ := mem_nodesOfMembers.mp hw
        exact List.mem_cons_of_mem _ (mem_nodesOfMembers.mpr ⟨m, hm, ih m hm hw⟩)
  | arr items ih =>
      rcases List.mem_cons.mp hw with rfl | hw
      · exact hu
      · obtain ⟨item, hitem, hw⟩ := mem_nodesOfItems.mp hw
        exact List.mem_cons_of_mem _ (mem_nodesOfItems.mpr ⟨item, hitem, ih item hitem hw⟩)
  | _ => rwa [List.mem_singleton.mp hw] at hu

end Json

end ModelOperator
