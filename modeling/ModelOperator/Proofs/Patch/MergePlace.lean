import ModelOperator.Proofs.Patch.MergeItem

/-!
# Places in a strategic merge

    A patch and the document that it is merged into are compared place by place.  A place
    leads through members, through items of lists that are merged by key, which are named by
    their keys, and through positions in other lists.  Several items may have one key, so there
    may be several values at one place (`valuesAt`).

    What a merge makes of the parts of a value is told once (`partsMerged_of_mergeValue`): the
    parts that the patch gives are merged into the parts that were there, one after the other,
    or the patch's parts are stored in their place. -/

namespace ModelOperator

namespace Patch

/-- One step into a value. -/
inductive MergeStep where
  /-- To a member. -/
  | member (name : String)
  /-- To the items of a list merged by key that have a key. -/
  | item (k : ItemKey)
  /-- To an item of another list. -/
  | place (index : Nat)
  deriving DecidableEq, Repr

/-- The path of names behind a step; items do not add to it. -/
def MergeStep.behind (path : List String) : MergeStep → List String
  | .member name => path ++ [name]
  | _ => path

/-- Whether a step is not to a directive. -/
def MergeStep.IsPlain : MergeStep → Prop
  | .member name => isDirectiveName name = false
  | _ => True

instance (step : MergeStep) : Decidable step.IsPlain :=
  match step with
  | .member name => inferInstanceAs (Decidable (isDirectiveName name = false))
  | .item _ => isTrue trivial
  | .place _ => isTrue trivial

/-- The parts of a value that a step leads to, where only some items of a list count. -/
def parts (counts : Json → Bool) (keys : MergeKeys) (path : List String) :
    MergeStep → Json → List Json
  | .member name, .obj ms => (Members.get? name ms).toList
  | .item k, .arr items =>
    match keys.keyFor? (".".intercalate path) with
    | some key => withKey key k items
    | none => []
  | .place index, .arr items =>
    match keys.keyFor? (".".intercalate path) with
    | some _ => []
    | none => (items.filter counts)[index]?.toList
  | _, _ => []

/-- What stands at a place in values. -/
def valuesAt (counts : Json → Bool) (keys : MergeKeys) :
    List String → List MergeStep → List Json → List Json
  | _, [], vs => vs
  | path, step :: place, vs =>
    valuesAt counts keys (step.behind path) place (vs.flatMap (parts counts keys path step))

/-- What patches give at a place; of a list that is stored, the items that are stored count. -/
abbrev given (keys : MergeKeys) := valuesAt isStoredItem keys

/-- What documents have at a place. -/
abbrev held (keys : MergeKeys) := valuesAt (fun _ => true) keys

variable {keys : MergeKeys} {path : List String}

section

variable {counts : Json → Bool}

/-- What stands at a place in two lists of values stands there in one or the other. -/
theorem valuesAt_append (place : List MergeStep) (vs ws : List Json) :
    valuesAt counts keys path place (vs ++ ws) =
      valuesAt counts keys path place vs ++ valuesAt counts keys path place ws := by
  induction place generalizing path vs ws with
  | nil => rfl
  | cons step place ih => rw [valuesAt, List.flatMap_append, ih, valuesAt, valuesAt]

/-- Where there are no values, nothing stands at a place. -/
theorem valuesAt_nil (place : List MergeStep) : valuesAt counts keys path place [] = [] := by
  induction place generalizing path with
  | nil => rfl
  | cons step place ih => exact ih

/-- What stands at a place stands there in one of the values. -/
theorem mem_valuesAt {place : List MergeStep} {vs : List Json} {x : Json} :
    x ∈ valuesAt counts keys path place vs ↔ ∃ v ∈ vs, x ∈ valuesAt counts keys path place [v] := by
  induction vs with
  | nil => simp [valuesAt_nil]
  | cons v vs ih =>
      rw [← List.singleton_append, valuesAt_append, List.mem_append, ih]
      simp

/-- More values have no less at a place. -/
theorem valuesAt_subset {place : List MergeStep} {vs ws : List Json} (h : vs ⊆ ws) :
    valuesAt counts keys path place vs ⊆ valuesAt counts keys path place ws := by
  intro x hx
  obtain ⟨v, hv, hx⟩ := mem_valuesAt.mp hx
  exact mem_valuesAt.mpr ⟨v, h hv, hx⟩

/-- Where many values have nothing at a place, a few of them have nothing either. -/
theorem valuesAt_eq_nil_of_subset {place : List MergeStep} {vs ws : List Json} (h : vs ⊆ ws)
    (hnil : valuesAt counts keys path place ws = []) : valuesAt counts keys path place vs = [] :=
  List.subset_nil.mp (hnil ▸ valuesAt_subset h)

/-- What stands behind a step in the parts of the first value, and in those of the others. -/
theorem valuesAt_cons (step : MergeStep) (place : List MergeStep) (v : Json) (vs : List Json) :
    valuesAt counts keys path (step :: place) (v :: vs) =
      valuesAt counts keys (step.behind path) place (parts counts keys path step v) ++
        valuesAt counts keys path (step :: place) vs := by
  rw [valuesAt, List.flatMap_cons, valuesAt_append, valuesAt]

/-- What stands behind a step into one of the values stands at the place that begins with it. -/
theorem valuesAt_parts_subset {step : MergeStep} {place : List MergeStep} {vs : List Json}
    {v : Json} (hv : v ∈ vs) :
    valuesAt counts keys (step.behind path) place (parts counts keys path step v) ⊆
      valuesAt counts keys path (step :: place) vs :=
  valuesAt_subset fun _ hc => List.mem_flatMap.mpr ⟨v, hv, hc⟩

/-- The parts of a list that is merged by key are its items of that key. -/
theorem parts_item {key : String} (hkey : keys.keyFor? (".".intercalate path) = some key)
    (k : ItemKey) (items : List Json) :
    parts counts keys path (.item k) (.arr items) = withKey key k items := by
  rw [parts, hkey]

/-- A list that is not merged by key has no items by key. -/
theorem parts_item_unkeyed (hkey : keys.keyFor? (".".intercalate path) = none) (k : ItemKey)
    (items : List Json) : parts counts keys path (.item k) (.arr items) = [] := by
  rw [parts, hkey]

/-- A list that is merged by key has no items by position. -/
theorem parts_place {key : String} (hkey : keys.keyFor? (".".intercalate path) = some key)
    (index : Nat) (items : List Json) :
    parts counts keys path (.place index) (.arr items) = [] := by
  rw [parts, hkey]

/-- The part of another list at a position is its item there. -/
theorem parts_place_unkeyed (hkey : keys.keyFor? (".".intercalate path) = none) (index : Nat)
    (items : List Json) : parts counts keys path (.place index) (.arr items) =
      (items.filter counts)[index]?.toList := by
  rw [parts, hkey]

/-- The parts of a document in order are in order. -/
theorem parts_canonical {step : MergeStep} {v : Json} (hv : v.isCanonical = true) :
    ∀ c ∈ parts counts keys path step v, c.isCanonical = true := by
  intro c hc
  cases step with
  | member name =>
      cases v with
      | obj ms => exact Json.isCanonical_of_get? hv (Option.mem_toList.mp hc)
      | _ => cases hc
  | item k =>
      cases v with
      | arr items =>
          rw [parts] at hc
          split at hc
          · exact (Json.isCanonical_arr_iff items).mp hv c (List.mem_filter.mp hc).1
          · cases hc
      | _ => cases hc
  | place index =>
      cases v with
      | arr items =>
          rw [parts] at hc
          split at hc
          · cases hc
          · have hmem := List.mem_of_getElem? (Option.mem_toList.mp hc)
            exact (Json.isCanonical_arr_iff items).mp hv c (List.mem_filter.mp hmem).1
      | _ => cases hc

end

/-! ## What is stored at a place -/

/-- The merge keys of a table are no directives. -/
def Regular (keys : MergeKeys) : Prop :=
  ∀ path key, keys.keyFor? path = some key → isDirectiveName key = false

/-- What is stored as an item deletes nothing. -/
theorem isDeleteItem_of_stored {v : Json} (h : isStoredItem v = true) : isDeleteItem v = false := by
  rw [isStoredItem, Bool.not_eq_true', Bool.or_eq_false_iff] at h
  exact h.2

/-- Nothing is stored of a list of nothing but deletions. -/
theorem filter_isStoredItem_of_deleteOnly {items : List Json}
    (h : isDeleteOnly (.arr items) = true) : items.filter isStoredItem = [] := by
  have hall := List.all_eq_true.mp (Bool.and_eq_true_iff.mp h).2
  refine List.filter_eq_nil_iff.mpr fun item hitem hstored => ?_
  exact Bool.false_ne_true ((isDeleteItem_of_stored hstored).symm.trans (hall item hitem))

/-- The parts of what is stored are what is stored of the patch's parts that are not deleted. -/
theorem parts_strip (hkeys : Regular keys) {step : MergeStep} (hstep : step.IsPlain) {v : Json}
    (hv : v.isCanonical = true) :
    ∀ y ∈ parts (fun _ => true) keys path step (strip v),
      ∃ c ∈ parts isStoredItem keys path step v, y = strip c ∧ isDeleteItem c = false := by
  intro y hy
  cases step with
  | member name =>
      cases v with
      | obj ms =>
          rw [strip, parts, get?_stripMembers (Json.increasing_of_isCanonical hv)] at hy
          obtain ⟨c, hc, rfl⟩ := Option.map_eq_some_iff.mp (Option.mem_toList.mp hy)
          obtain ⟨hget, hstored⟩ := Option.filter_eq_some_iff.mp hc
          refine ⟨c, Option.mem_toList.mpr hget, rfl, ?_⟩
          rw [isStoredMember, Bool.not_eq_true', Bool.or_eq_false_iff] at hstored
          exact hstored.2
      | arr items => rw [strip] at hy; cases hy
      | _ => cases hy
  | item k =>
      cases v with
      | arr items =>
          rw [strip, parts] at hy
          split at hy
          · rename_i key hkey
            rw [stripItems_eq] at hy
            obtain ⟨hmem, hyk⟩ := List.mem_filter.mp hy
            obtain ⟨c, hc, rfl⟩ := List.mem_map.mp hmem
            obtain ⟨hcmem, hstored⟩ := List.mem_filter.mp hc
            have hcanonical := (Json.isCanonical_arr_iff items).mp hv c hcmem
            have hck : keyIs key (· == k) c = true := by
              rw [keyIs_iff, itemKey?_strip (hkeys _ _ hkey) hcanonical] at hyk
              exact keyIs_iff.mpr hyk
            refine ⟨c, ?_, rfl, ?_⟩
            · rw [parts, hkey]
              exact List.mem_filter.mpr ⟨hcmem, hck⟩
            · exact isDeleteItem_of_stored hstored
          · cases hy
      | obj ms => rw [strip] at hy; cases hy
      | _ => cases hy
  | place index =>
      cases v with
      | arr items =>
          rw [strip, parts] at hy
          split at hy
          · cases hy
          · rename_i hkey
            rw [stripItems_eq, List.filter_eq_self.mpr fun _ _ => rfl, List.getElem?_map] at hy
            obtain ⟨c, hc, rfl⟩ := Option.map_eq_some_iff.mp (Option.mem_toList.mp hy)
            refine ⟨c, ?_, rfl, ?_⟩
            · rw [parts, hkey]
              exact Option.mem_toList.mpr hc
            · exact isDeleteItem_of_stored (List.mem_filter.mp (List.mem_of_getElem? hc)).2
      | obj ms => rw [strip] at hy; cases hy
      | _ => cases hy

/-- What is stored of patches has at a place what is stored of what they give there, as far as
    they do not delete it. -/
theorem held_strip (hkeys : Regular keys) {place : List MergeStep}
    (hplace : ∀ step ∈ place, step.IsPlain) {vs : List Json}
    (hvs : ∀ v ∈ vs, v.isCanonical = true) {y : Json}
    (hy : y ∈ held keys path place (vs.map strip)) :
    ∃ u ∈ given keys path place vs, y = strip u ∧ (place ≠ [] → isDeleteItem u = false) := by
  induction place generalizing path vs with
  | nil =>
      obtain ⟨u, hu, rfl⟩ := List.mem_map.mp hy
      exact ⟨u, hu, rfl, fun h => absurd rfl h⟩
  | cons step place ih =>
      obtain ⟨hstep, hrest⟩ := List.forall_mem_cons.mp hplace
      -- the parts of what is stored come from parts of the patches that are not deleted
      let cs := (vs.flatMap (parts isStoredItem keys path step)).filter fun c => !isDeleteItem c
      have hsub : (vs.map strip).flatMap (parts (fun _ => true) keys path step) ⊆ cs.map strip := by
        intro x hx
        obtain ⟨w, hw, hx⟩ := List.mem_flatMap.mp hx
        obtain ⟨v, hv, rfl⟩ := List.mem_map.mp hw
        obtain ⟨c, hc, rfl, hkept⟩ := parts_strip hkeys hstep (hvs v hv) x hx
        refine List.mem_map.mpr ⟨c, List.mem_filter.mpr ⟨List.mem_flatMap.mpr ⟨v, hv, hc⟩, ?_⟩, rfl⟩
        rw [hkept]
        rfl
      have hcs : ∀ c ∈ cs, c.isCanonical = true := by
        intro c hc
        obtain ⟨v, hv, hc⟩ := List.mem_flatMap.mp (List.mem_filter.mp hc).1
        exact parts_canonical (hvs v hv) c hc
      obtain ⟨u, hu, rfl, hkept⟩ := ih hrest hcs (valuesAt_subset hsub hy)
      have hgiven : u ∈ valuesAt isStoredItem keys (step.behind path) place
          (vs.flatMap (parts isStoredItem keys path step)) :=
        valuesAt_subset List.filter_sublist.subset hu
      refine ⟨u, hgiven, rfl, fun _ => ?_⟩
      cases place with
      | nil => exact (Bool.not_eq_true' _).mp (List.mem_filter.mp hu).2
      | cons => exact hkept (List.cons_ne_nil _ _)

/-- Values that are stored of parts have at a place what is stored of what the parts give
    there.  Only the parts themselves can be marked for deletion, if the values allow it. -/
theorem held_stored (hkeys : Regular keys) {place : List MergeStep}
    (hplace : ∀ step ∈ place, step.IsPlain) {cs ys : List Json}
    (hcs : ∀ c ∈ cs, c.isCanonical = true) {allowed : Prop}
    (h : ∀ y ∈ ys, ∃ c ∈ cs, y = strip c ∧ (isDeleteItem c = true → allowed)) {y : Json}
    (hy : y ∈ held keys path place ys) :
    ∃ u ∈ given keys path place cs, y = strip u ∧
      (isDeleteItem u = true → allowed ∧ place = []) := by
  cases place with
  | nil =>
      obtain ⟨u, hu, rfl, hallowed⟩ := h y hy
      exact ⟨u, hu, rfl, fun hdelete => ⟨hallowed hdelete, rfl⟩⟩
  | cons step place =>
      have hsub : ys ⊆ cs.map strip := by
        intro x hx
        obtain ⟨c, hc, rfl, -⟩ := h x hx
        exact List.mem_map.mpr ⟨c, hc, rfl⟩
      obtain ⟨u, hu, rfl, hkept⟩ := held_strip hkeys hplace hcs (valuesAt_subset hsub hy)
      refine ⟨u, hu, rfl, fun hdelete => ?_⟩
      rw [hkept (List.cons_ne_nil _ _)] at hdelete
      cases hdelete

/-! ## What is merged at a place -/

/-- What becomes of the values at a place when values of a patch are merged into them, one after
    the other. -/
inductive MergesAll (keys : MergeKeys) (path : List String) :
    List Json → List Json → List Json → Prop
  | nil {found : List Json} : MergesAll keys path [] found found
  | cons {v : Json} {vs found next merged : List Json} (h : MergesFirst keys path v found next)
      (hrest : MergesAll keys path vs next merged) : MergesAll keys path (v :: vs) found merged

/-- What every value keeps is kept by all of them. -/
theorem MergesAll.keeps {vs found merged : List Json} (h : MergesAll keys path vs found merged)
    (inv : List Json → Prop)
    (hstep : ∀ v ∈ vs, ∀ {found next}, MergesFirst keys path v found next → inv found → inv next)
    (hfound : inv found) : inv merged := by
  induction h with
  | nil => exact hfound
  | cons hfirst hrest ih =>
      obtain ⟨hv, hvs⟩ := List.forall_mem_cons.mp hstep
      exact ih hvs (hv hfirst hfound)

/-- What one value makes of anything that is kept is kept, and so is what it is for. -/
theorem MergesAll.reaches {vs found merged : List Json} (h : MergesAll keys path vs found merged)
    {inv goal : List Json → Prop} {acts : Json → Prop}
    (hstep : ∀ v ∈ vs, ∀ {found next}, MergesFirst keys path v found next → inv found →
      inv next ∧ (acts v → goal next))
    (hgoal : ∀ v ∈ vs, ∀ {found next}, MergesFirst keys path v found next → goal found → goal next)
    (hfound : inv found) : inv merged ∧ ((∃ v ∈ vs, acts v) → goal merged) := by
  induction h with
  | nil => exact ⟨hfound, fun ⟨_, hv, _⟩ => absurd hv List.not_mem_nil⟩
  | cons hfirst hrest ih =>
      obtain ⟨hv, hvs⟩ := List.forall_mem_cons.mp hstep
      obtain ⟨-, hvs'⟩ := List.forall_mem_cons.mp hgoal
      obtain ⟨hinv, hreached⟩ := hv hfirst hfound
      obtain ⟨hmerged, hlater⟩ := ih hvs hvs' hinv
      refine ⟨hmerged, ?_⟩
      rintro ⟨w, hw, hacts⟩
      rcases List.mem_cons.mp hw with rfl | hw
      · exact hrest.keeps goal hvs' (hreached hacts)
      · exact hlater ⟨w, hw, hacts⟩

/-- What merges into a value in order leaves values in order. -/
theorem isCanonical_mergesFirst {v : Json} (hv : v.isCanonical = true) {found next : List Json}
    (hfound : ∀ w ∈ found, w.isCanonical = true) (h : MergesFirst keys path v found next) :
    ∀ w ∈ next, w.isCanonical = true := by
  have htail : ∀ w ∈ found.tail, w.isCanonical = true :=
    fun w hw => hfound w (List.mem_of_mem_tail hw)
  cases h with
  | merged hvalue =>
      refine List.forall_mem_append.mpr ⟨fun w hw => ?_, htail⟩
      exact isCanonical_mergeValue v hv (fun w hw => hfound w (List.mem_of_head? hw)) hvalue w
        (Option.mem_toList.mp hw)
  | lost => exact htail

/-- The items with one key are merged with the patch's items with that key. -/
theorem mergesAll_withKey {key : String} (hkey : isDirectiveName key = false)
    {items base merged : List Json} (hitems : ∀ v ∈ items, v.isCanonical = true)
    (hbase : ∀ v ∈ base, v.isCanonical = true)
    (h : mergeItems keys path key items base = .ok merged) (k : ItemKey) :
    MergesAll keys path (withKey key k items) (withKey key k base) (withKey key k merged) := by
  induction items generalizing base with
  | nil =>
      rw [mergeItems] at h
      cases h
      exact .nil
  | cons item rest ih =>
      obtain ⟨hitem, hrest⟩ := List.forall_mem_cons.mp hitems
      obtain ⟨next, hstep, hmore⟩ := mergeItems_cons h
      have hnext := isCanonical_itemStep hitem hbase (isCanonical_mergeValue item hitem) hstep
      by_cases hk : itemKey? key item = some k
      · rw [withKey_cons_self hk]
        exact .cons (withKey_itemStep hkey hitem hbase hstep hk) (ih hrest hnext hmore)
      · have hsame : withKey key k next = withKey key k base :=
          filter_itemStep hkey hitem hbase hstep (Bool.eq_false_iff.mpr (mt keyIs_iff.mp hk))
        rw [withKey_cons_other hk, ← hsame]
        exact ih hrest hnext hmore

/-- The parts of the first value, which is the one that a merge meets. -/
def headParts (keys : MergeKeys) (path : List String) (step : MergeStep) (found : List Json) :
    List Json :=
  found.head?.toList.flatMap (parts (fun _ => true) keys path step)

theorem headParts_cons {step : MergeStep} (v : Json) (found : List Json) :
    headParts keys path step (v :: found) = parts (fun _ => true) keys path step v :=
  List.flatMap_singleton _ _

theorem held_cons (step : MergeStep) (place : List MergeStep) (v : Json) (found : List Json) :
    held keys path (step :: place) (v :: found) =
      held keys (step.behind path) place (parts (fun _ => true) keys path step v) ++
        held keys path (step :: place) found :=
  valuesAt_cons step place v found

/-- The parts that come first are in order, if the values are. -/
theorem headParts_canonical {step : MergeStep} {found : List Json}
    (hfound : ∀ w ∈ found, w.isCanonical = true) :
    ∀ w ∈ headParts keys path step found, w.isCanonical = true := by
  intro w hw
  obtain ⟨v, hv, hw⟩ := List.mem_flatMap.mp hw
  exact parts_canonical (hfound v (List.mem_of_head? (Option.mem_toList.mp hv))) w hw

/-- What stands behind a step into the first value stands at the place that begins with it. -/
theorem held_headParts_subset {step : MergeStep} {place : List MergeStep} (found : List Json) :
    held keys (step.behind path) place (headParts keys path step found) ⊆
      held keys path (step :: place) found := by
  have hhead : found.head?.toList ⊆ found :=
    fun v hv => List.mem_of_head? (Option.mem_toList.mp hv)
  have hbehind : held keys path (step :: place) found.head?.toList ⊆
      held keys path (step :: place) found := valuesAt_subset hhead
  exact hbehind

/-- Whether a list of a patch replaces the list that it meets. -/
def replaces : Json → Bool
  | .arr items => items.any isReplaceItem
  | _ => false

/-- What a merge makes of the parts at one step: the patch's parts are merged into those that
    were there, or what is there comes from what is stored of the patch's parts. -/
inductive PartsMerged (keys : MergeKeys) (path : List String) (step : MergeStep) (v : Json)
    (found : List Json) : List Json → Prop
  | merged {next : List Json}
      (h : MergesAll keys (step.behind path) (parts isStoredItem keys path step v) found next) :
      PartsMerged keys path step v found next
  /-- A deleted item is stored only by a list that replaces another one. -/
  | stored {next : List Json}
      (h : ∀ y ∈ next, ∃ c ∈ parts isStoredItem keys path step v, y = strip c ∧
        (isDeleteItem c = true → (∃ k, step = .item k) ∧ replaces v = true)) :
      PartsMerged keys path step v found next

/-- Where nothing is left of a part, it counts as merged. -/
theorem PartsMerged.none {step : MergeStep} {v : Json} {found : List Json} :
    PartsMerged keys path step v found [] :=
  .stored fun _ hy => absurd hy List.not_mem_nil

/-- A member of merged objects is merged. -/
theorem mergesAll_member {name : String} (hname : isDirectiveName name = false)
    {child existing merged : Members} (hchild : (Json.obj child).isCanonical = true)
    (hexisting : (Json.obj existing).isCanonical = true)
    (h : mergeMembers keys path child existing = .ok merged) :
    MergesAll keys (path ++ [name]) (Members.get? name child).toList
      (Members.get? name existing).toList (Members.get? name merged).toList := by
  have hinc := Json.increasing_of_isCanonical hexisting
  cases hgiven : Members.get? name child with
  | none =>
      have habsent : ∀ m ∈ child, m.1 = name → isDirectiveName name = true := by
        rintro m hm rfl
        rw [Members.get?_of_mem (Json.increasing_of_isCanonical hchild) hm] at hgiven
        cases hgiven
      rw [get?_mergeMembers_absent hinc habsent h]
      exact .nil
  | some c =>
      have hvalue := get?_mergeMembers_given (Json.increasing_of_isCanonical hchild) hinc hname
        hgiven h
      refine .cons ?_ .nil
      generalize Members.get? name existing = found at hvalue ⊢
      have hmerged : MergesFirst keys (path ++ [name]) c found.toList
          ((Members.get? name merged).toList ++ found.toList.tail) :=
        .merged (by rw [Option.head?_toList]; exact hvalue)
      cases found with
      | none => rwa [Option.toList_none, List.tail_nil, List.append_nil] at hmerged
      | some w => rwa [Option.toList_some, List.tail_cons, List.append_nil] at hmerged

section

variable (hkeys : Regular keys) {step : MergeStep}

include hkeys

/-- What is stored of a value has the stored parts. -/
theorem partsMerged_strip (hstep : step.IsPlain) {v : Json} (hv : v.isCanonical = true)
    (found : List Json) :
    PartsMerged keys path step v found (parts (fun _ => true) keys path step (strip v)) := by
  refine .stored fun y hy => ?_
  obtain ⟨c, hc, rfl, hkept⟩ := parts_strip hkeys hstep hv y hy
  exact ⟨c, hc, rfl, fun hdelete => by rw [hkept] at hdelete; cases hdelete⟩

/-- The parts of an object after a merge are those of the patch merged into those before. -/
theorem partsMerged_mergeObject (hstep : step.IsPlain) {child existing ms : Members}
    (hchild : (Json.obj child).isCanonical = true)
    (hexisting : (Json.obj existing).isCanonical = true)
    (h : mergeObject keys path child existing = .ok ms) :
    PartsMerged keys path step (.obj child) (parts (fun _ => true) keys path step (.obj existing))
      (parts (fun _ => true) keys path step (.obj ms)) := by
  rcases mergeObject_ok h with ⟨-, rfl⟩ | ⟨-, merged, hmerged, hkept⟩
  · rw [← strip]
    exact partsMerged_strip hkeys hstep hchild _
  · cases step with
    | member name =>
        have hinc := Json.increasing_of_isCanonical hexisting
        have hmember := mergesAll_member hstep hchild hexisting hmerged
        rcases get?_retainKeys (increasing_mergeMembers hinc hmerged) hkept name with
          hsame | ⟨-, hnone⟩
        · rw [← hsame] at hmember
          exact .merged hmember
        · have hnil : parts (fun _ => true) keys path (.member name) (.obj ms) = [] := by
            rw [parts, hnone]
            rfl
          rw [hnil]
          exact .none
    | item | place => exact .none

/-- The items of a key after a merge are those of the patch merged into those before. -/
theorem partsMerged_mergeList {key : String}
    (hkey : keys.keyFor? (".".intercalate path) = some key) {items existing merged : List Json}
    (hitems : (Json.arr items).isCanonical = true)
    (hexisting : (Json.arr existing).isCanonical = true)
    (h : mergeList keys path key items existing = .ok merged) :
    PartsMerged keys path step (.arr items) (parts (fun _ => true) keys path step (.arr existing))
      (parts (fun _ => true) keys path step (.arr merged)) := by
  rw [Json.isCanonical_arr_iff] at hitems hexisting
  cases step with
  | member name => exact .none
  | place index =>
      rw [parts_place hkey, parts_place hkey]
      exact .none
  | item k =>
      rw [parts_item hkey, parts_item hkey]
      rw [mergeList] at h
      split at h
      · rename_i hreplace
        cases h
        refine .stored fun y hy => ?_
        obtain ⟨hmem, hyk⟩ := List.mem_filter.mp hy
        rw [replacedItems_eq] at hmem
        obtain ⟨c, hc, rfl⟩ := List.mem_map.mp hmem
        have hcmem := (List.mem_filter.mp hc).1
        rw [keyIs_iff, itemKey?_strip (hkeys _ _ hkey) (hitems c hcmem)] at hyk
        refine ⟨c, ?_, rfl, fun _ => ⟨⟨k, rfl⟩, hreplace⟩⟩
        rw [parts_item hkey]
        exact List.mem_filter.mpr ⟨hcmem, keyIs_iff.mpr hyk⟩
      · refine .merged ?_
        rw [parts_item hkey]
        exact mergesAll_withKey (hkeys _ _ hkey) hitems hexisting h k

omit hkeys in
/-- A list that only deletes leaves what is no list, or not merged by key, as it is. -/
theorem partsMerged_untouched {items : List Json} (hdeletes : isDeleteOnly (.arr items) = true)
    {x : Json} (hother : ∀ existing, x = .arr existing →
      keys.keyFor? (".".intercalate path) = none) :
    PartsMerged keys path step (.arr items) (parts (fun _ => true) keys path step x)
      (parts (fun _ => true) keys path step x) := by
  cases hkey : keys.keyFor? (".".intercalate path) with
  | none =>
      -- the patch's list has no parts, so the parts that are there stay
      have hnil : parts isStoredItem keys path step (.arr items) = [] := by
        cases step with
        | member name => rfl
        | item k => exact parts_item_unkeyed hkey k items
        | place index =>
            rw [parts_place_unkeyed hkey, filter_isStoredItem_of_deleteOnly hdeletes]
            rfl
      exact .merged (hnil ▸ .nil)
  | some key =>
      cases x with
      | arr existing =>
          rw [hother existing rfl] at hkey
          cases hkey
      | obj ms =>
          cases step with
          | member name => exact .merged .nil
          | item | place => exact .none
      | _ => cases step <;> exact .none

/-- The parts of a value after a merge are those of the patch merged into those before. -/
theorem partsMerged_mergeValue (hstep : step.IsPlain) {v : Json} (hv : v.isCanonical = true)
    {found : Option Json} (hfound : ∀ w ∈ found, w.isCanonical = true) {x : Json}
    (h : mergeValue keys path v found = .ok (some x)) :
    PartsMerged keys path step v (found.toList.flatMap (parts (fun _ => true) keys path step))
      (parts (fun _ => true) keys path step x) := by
  cases mergeValue_ok h with
  | merged hkeep hms =>
      rw [Option.toList_some, List.flatMap_singleton]
      exact partsMerged_mergeObject hkeys hstep hv (hfound _ rfl) hms
  | keyed hkey hmerged =>
      rw [Option.toList_some, List.flatMap_singleton]
      exact partsMerged_mergeList hkeys hkey hv (hfound _ rfl) hmerged
  | untouched hdeletes hother =>
      rw [Option.toList_some, List.flatMap_singleton]
      exact partsMerged_untouched hdeletes fun existing heq => hother existing (congrArg some heq)
  | stored hnull hadds => exact partsMerged_strip hkeys hstep hv _

/-- **One step further.**  A merge leaves the values behind the first one alone.  The first one
    is taken out, or its parts are merged or stored. -/
theorem mergesFirst_parts (hstep : step.IsPlain) {v : Json} (hv : v.isCanonical = true)
    {found next : List Json} (hfound : ∀ w ∈ found, w.isCanonical = true)
    (h : MergesFirst keys path v found next) :
    next = found.tail ∨ ∃ x, next = x :: found.tail ∧
      PartsMerged keys path step v (headParts keys path step found)
        (parts (fun _ => true) keys path step x) := by
  cases h with
  | lost => exact Or.inl rfl
  | @merged r hvalue =>
      cases r with
      | none => exact Or.inl rfl
      | some x => exact Or.inr ⟨x, rfl, partsMerged_mergeValue hkeys hstep hv
          (fun w hw => hfound w (List.mem_of_head? hw)) hvalue⟩

end

end Patch

end ModelOperator
