import Mathlib
import ModelOperator.Proofs.Patch.MergePlace

/-!
# Deletions in a strategic merge

    What a patch only deletes should not be there afterwards, at whatever depth it stands and
    whether the patch meets anything there or not.

    Deletions are followed to their place.  What the patch leaves there is kept within a bound
    by everything that it does (`held_kept`), an item that is deleted is taken out when its
    first deletion reaches it (`held_cleared`), and where the patch only merges on the way, a
    list of deletions that finds nothing leaves nothing (`held_calm`).  Together they are
    `applyStrategic_deletion`.

    Its conditions cannot be dropped (`deletion_creates`): a list that replaces another one
    keeps the items that it marks for deletion, a list of nothing but deletions that is stored
    becomes an empty one, and of several items with one key only the first one is taken out. -/

namespace ModelOperator

namespace Patch

variable {keys : MergeKeys} {path : List String}

/-! ## What a deletion leaves -/

/-- A value of a patch leaves no more than a bound allows, where there was no more. -/
structure Leaves (keys : MergeKeys) (bound : Json → Prop) (u : Json) : Prop where
  stored : isDeleteItem u = false → bound (strip u)
  merged : ∀ {path found r}, (∀ y ∈ found, bound y) → mergeValue keys path u found = .ok r →
    ∀ y ∈ r, bound y

theorem leaves_deleted {u : Json} (hu : isDeleteItem u = true) : Leaves keys (fun _ => False) u where
  stored := fun h => by rw [hu] at h; cases h
  merged := by
    intro path found r _ h
    rw [mergeValue_deleteItem hu] at h
    cases h
    intro y hy
    cases hy

/-- A delete item is no replace item, for both are told by the same member. -/
theorem not_replace_of_delete {v : Json} (h : isDeleteItem v = true) : isReplaceItem v = false := by
  cases v with
  | obj ms =>
      rw [isReplaceItem, beq_iff_eq.mp (show (directive? ms == some "delete") = true from h)]
      rfl
  | _ => rfl

/-- Items that are to be deleted make nothing of nothing. -/
theorem mergeItems_deletes {key : String} {items merged : List Json}
    (hdeletes : ∀ item ∈ items, isDeleteItem item = true)
    (h : mergeItems keys path key items [] = .ok merged) : merged = [] := by
  induction items with
  | nil =>
      rw [mergeItems] at h
      cases h
      rfl
  | cons item rest ih =>
      obtain ⟨hitem, hrest⟩ := List.forall_mem_cons.mp hdeletes
      obtain ⟨next, hstep, hmore⟩ := mergeItems_cons h
      generalize hbase : ([] : List Json) = base at hstep
      cases hstep with
      | ignored =>
          subst hbase
          exact ih hrest hmore
      | added hkeep =>
          rw [hitem] at hkeep
          cases hkeep
      | removed => exact absurd hbase.symm (List.append_ne_nil_of_right_ne_nil _ (List.cons_ne_nil _ _))
      | changed => exact absurd hbase.symm (List.append_ne_nil_of_right_ne_nil _ (List.cons_ne_nil _ _))

/-- What only deletes leaves an empty list at most. -/
theorem leaves_deleteOnly {u : Json} (hu : isDeleteOnly u = true) :
    Leaves keys (· = .arr []) u where
  stored := by
    intro hkeep
    cases u with
    | obj ms =>
        rw [show isDeleteItem (.obj ms) = isDeleteOnly (.obj ms) from rfl, hu] at hkeep
        cases hkeep
    | arr items =>
        rw [strip, stripItems_eq, filter_isStoredItem_of_deleteOnly hu]
        rfl
    | _ => cases hu
  merged := by
    intro path found r hfound h
    cases mergeValue_ok h with
    | removed =>
        intro y hy
        cases hy
    | merged hkeep =>
        rw [isDeleteOnly, hkeep] at hu
        cases hu
    | @keyed key items existing merged hkey hmerged =>
        have hall := List.all_eq_true.mp (Bool.and_eq_true_iff.mp hu).2
        have hreplace : items.any isReplaceItem = false := List.any_eq_false.mpr
          fun item hitem => by rw [not_replace_of_delete (hall item hitem)]; exact Bool.false_ne_true
        obtain rfl : existing = [] := Json.arr.inj (hfound _ rfl)
        rw [mergeList, hreplace, if_neg Bool.false_ne_true] at hmerged
        rintro _ ⟨⟩
        rw [mergeItems_deletes hall hmerged]
    | untouched => exact hfound
    | stored hnull hadds =>
        rw [hu] at hadds
        cases hadds

/-! ## What is kept within a bound -/

/-- The lists of a patch that lead to items at a place do not replace what they meet. -/
def ReplacesNone (keys : MergeKeys) (path : List String) (place : List MergeStep)
    (vs : List Json) : Prop :=
  ∀ around k, place = around ++ [.item k] → ∀ v ∈ given keys path around vs, replaces v = false

/-- What replaces nothing on the way to a place replaces nothing behind the first step. -/
theorem ReplacesNone.behind {step : MergeStep} {place : List MergeStep} {vs : List Json}
    (h : ReplacesNone keys path (step :: place) vs) {v : Json} (hv : v ∈ vs) :
    ReplacesNone keys (step.behind path) place (parts isStoredItem keys path step v) := by
  rintro around k rfl w hw
  exact h (step :: around) k rfl w (valuesAt_parts_subset hv hw)

/-- It is enough that no value one step above the place replaces anything. -/
theorem ReplacesNone.of_dropLast {place : List MergeStep} {vs : List Json}
    (h : ∀ v ∈ given keys path place.dropLast vs, replaces v = false) :
    ReplacesNone keys path place vs := by
  rintro around k rfl v hv
  rw [List.dropLast_concat] at h
  exact h v hv

/-- Fewer values replace no more. -/
theorem ReplacesNone.subset {place : List MergeStep} {vs ws : List Json}
    (h : ReplacesNone keys path place vs) (hsub : ws ⊆ vs) : ReplacesNone keys path place ws :=
  fun around k heq v hv => h around k heq v (valuesAt_subset hsub hv)

variable (hkeys : Regular keys) {place : List MergeStep}

include hkeys

/-- Where lists do not replace others, what is stored was not marked for deletion. -/
theorem held_stored_kept {step : MergeStep} {vs : List Json}
    (hplace : ∀ other ∈ place, other.IsPlain)
    (hreplace : ReplacesNone keys path (step :: place) vs) {v : Json} (hv : v ∈ vs)
    (hcanonical : v.isCanonical = true) {ys : List Json}
    (hstored : ∀ y ∈ ys, ∃ c ∈ parts isStoredItem keys path step v, y = strip c ∧
      (isDeleteItem c = true → (∃ k, step = .item k) ∧ replaces v = true))
    {y : Json} (hy : y ∈ held keys (step.behind path) place ys) :
    ∃ u ∈ given keys path (step :: place) vs, y = strip u ∧ isDeleteItem u = false := by
  obtain ⟨u, hu, rfl, hallowed⟩ := held_stored hkeys hplace (parts_canonical hcanonical) hstored hy
  refine ⟨u, valuesAt_parts_subset hv hu, rfl, Bool.eq_false_iff.mpr fun hdelete => ?_⟩
  obtain ⟨⟨⟨k, rfl⟩, hreplaces⟩, rfl⟩ := hallowed hdelete
  rw [hreplace [] k rfl v hv] at hreplaces
  cases hreplaces

/-- **Bounds are kept.**  What the patch's values at a place leave there is all that comes there. -/
theorem held_kept {bound : Json → Prop} {vs found merged : List Json}
    (hplace : ∀ step ∈ place, step.IsPlain) (hvs : ∀ v ∈ vs, v.isCanonical = true)
    (hfound : ∀ v ∈ found, v.isCanonical = true)
    (hgiven : ∀ u ∈ given keys path place vs, Leaves keys bound u)
    (hreplace : ReplacesNone keys path place vs) (h : MergesAll keys path vs found merged)
    (hheld : ∀ y ∈ held keys path place found, bound y) :
    ∀ y ∈ held keys path place merged, bound y := by
  induction place generalizing path vs found merged with
  | nil =>
      refine h.keeps (fun l => ∀ y ∈ l, bound y) ?_ hheld
      intro v hv found next hstep hbound
      have htail : ∀ y ∈ found.tail, bound y := fun y hy => hbound y (List.mem_of_mem_tail hy)
      cases hstep with
      | lost => exact htail
      | merged hvalue =>
          refine List.forall_mem_append.mpr ⟨fun y hy => ?_, htail⟩
          exact (hgiven v hv).merged (fun y hy => hbound y (List.mem_of_head? hy)) hvalue y
            (Option.mem_toList.mp hy)
  | cons step place ih =>
      obtain ⟨hstepPlain, hrest⟩ := List.forall_mem_cons.mp hplace
      refine (h.keeps (fun l => (∀ w ∈ l, w.isCanonical = true) ∧
        ∀ y ∈ held keys path (step :: place) l, bound y) ?_ ⟨hfound, hheld⟩).2
      intro v hv found next hstep hinv
      obtain ⟨hcanonical, hbound⟩ := hinv
      refine ⟨isCanonical_mergesFirst (hvs v hv) hcanonical hstep, ?_⟩
      have htail : ∀ y ∈ held keys path (step :: place) found.tail, bound y :=
        fun y hy => hbound y (valuesAt_subset (List.tail_sublist _).subset hy)
      rcases mergesFirst_parts hkeys hstepPlain (hvs v hv) hcanonical hstep with
        rfl | ⟨x, rfl, hpart⟩
      · exact htail
      · intro y hy
        rw [held_cons, List.mem_append] at hy
        rcases hy with hy | hy
        · generalize parts (fun _ => true) keys path step x = next at hy hpart
          cases hpart with
          | merged hall =>
              exact ih hrest (parts_canonical (hvs v hv)) (headParts_canonical hcanonical)
                (fun u hu => hgiven u (valuesAt_parts_subset hv hu)) (hreplace.behind hv) hall
                (fun w hw => hbound w (held_headParts_subset _ hw)) y hy
          | stored hstored =>
              obtain ⟨u, hu, rfl, hkept⟩ :=
                held_stored_kept hkeys hrest hreplace hv (hvs v hv) hstored hy
              exact (hgiven u hu).stored hkept
        · exact htail y hy

/-! ## What is taken out -/

omit hkeys in
/-- All that stands at a place is reached through the first value at each step. -/
def Sole (keys : MergeKeys) : List String → List MergeStep → List Json → Prop
  | _, [], found => found.tail = []
  | path, step :: place, found =>
    held keys path (step :: place) found.tail = [] ∧
      Sole keys (step.behind path) place (headParts keys path step found)

omit hkeys in

/-- A place that holds nothing is reached through first values alone. -/
theorem sole_of_nil {found : List Json} (h : held keys path place found = []) :
    Sole keys path place found := by
  induction place generalizing path found with
  | nil =>
      rw [show found = [] from h]
      rfl
  | cons step place ih =>
      exact ⟨valuesAt_eq_nil_of_subset (List.tail_sublist found).subset h,
        ih (List.subset_nil.mp (h ▸ held_headParts_subset found))⟩

omit hkeys in
/-- One value at each place on the way is the first one there. -/
theorem sole_of_single {found : List Json}
    (h : ∀ around, around <+: place → (held keys path around found).length ≤ 1) :
    Sole keys path place found := by
  have hsingle : ∀ l : List Json, l.length ≤ 1 → l.head?.toList = l ∧ l.tail = [] := by
    intro l hl
    match l, hl with
    | [], _ => exact ⟨rfl, rfl⟩
    | [v], _ => exact ⟨rfl, rfl⟩
  induction place generalizing path found with
  | nil => exact (hsingle found (h [] List.nil_prefix)).2
  | cons step place ih =>
      obtain ⟨hhead, htail⟩ := hsingle found (h [] List.nil_prefix)
      refine ⟨by rw [htail]; exact valuesAt_nil _, ih ?_⟩
      intro around haround
      rw [headParts, hhead]
      exact h (step :: around) (List.cons_prefix_cons.mpr ⟨rfl, haround⟩)

/-- One value of a patch does at a place what its parts do behind the first step. -/
theorem cleared_mergesFirst {step : MergeStep} {vs : List Json} (hstep : step.IsPlain)
    (hplace : ∀ other ∈ place, other.IsPlain)
    (hgiven : ∀ u ∈ given keys path (step :: place) vs, isDeleteItem u = true)
    (hreplace : ReplacesNone keys path (step :: place) vs) {v : Json} (hv : v ∈ vs)
    (hcanonical : v.isCanonical = true) {found next : List Json}
    (hfound : ∀ w ∈ found, w.isCanonical = true)
    (hbehind : ∀ {merged}, MergesAll keys (step.behind path) (parts isStoredItem keys path step v)
      (headParts keys path step found) merged → Sole keys (step.behind path) place merged ∧
        (given keys (step.behind path) place (parts isStoredItem keys path step v) ≠ [] →
          held keys (step.behind path) place merged = []))
    (htail : held keys path (step :: place) found.tail = [])
    (h : MergesFirst keys path v found next) :
    Sole keys path (step :: place) next ∧
      (given keys path (step :: place) [v] ≠ [] → held keys path (step :: place) next = []) := by
  rcases mergesFirst_parts hkeys hstep hcanonical hfound h with rfl | ⟨x, rfl, hpart⟩
  · exact ⟨sole_of_nil htail, fun _ => htail⟩
  · have hx : Sole keys (step.behind path) place (parts (fun _ => true) keys path step x) ∧
        (given keys (step.behind path) place (parts isStoredItem keys path step v) ≠ [] →
          held keys (step.behind path) place (parts (fun _ => true) keys path step x) = []) := by
      generalize parts (fun _ => true) keys path step x = next at hpart
      cases hpart with
      | merged hall => exact hbehind hall
      | stored hstored =>
          have hnil : held keys (step.behind path) place next = [] := by
            refine List.eq_nil_iff_forall_not_mem.mpr fun y hy => ?_
            obtain ⟨u, hu, -, hkept⟩ :=
              held_stored_kept hkeys hplace hreplace hv hcanonical hstored hy
            rw [hgiven u hu] at hkept
            cases hkept
          exact ⟨sole_of_nil hnil, fun _ => hnil⟩
    have hone : given keys path (step :: place) [v] =
        given keys (step.behind path) place (parts isStoredItem keys path step v) := by
      rw [given, valuesAt_cons, valuesAt_nil, List.append_nil]
    refine ⟨⟨htail, (headParts_cons x found.tail).symm ▸ hx.1⟩, fun hacts => ?_⟩
    rw [held_cons, htail, List.append_nil]
    exact hx.2 (hone ▸ hacts)

/-- Values of a patch do together what each of them does. -/
theorem cleared_mergesAll {vs found merged : List Json}
    (hplace : ∀ step ∈ place, step.IsPlain) (hvs : ∀ v ∈ vs, v.isCanonical = true)
    (hgiven : ∀ u ∈ given keys path place vs, isDeleteItem u = true)
    (hreplace : ReplacesNone keys path place vs)
    (hfirst : ∀ v ∈ vs, ∀ {found next}, MergesFirst keys path v found next →
      (∀ w ∈ found, w.isCanonical = true) → Sole keys path place found →
        Sole keys path place next ∧
          (given keys path place [v] ≠ [] → held keys path place next = []))
    (h : MergesAll keys path vs found merged) (hfound : ∀ v ∈ found, v.isCanonical = true)
    (hsole : Sole keys path place found) :
    Sole keys path place merged ∧
      (given keys path place vs ≠ [] → held keys path place merged = []) := by
  have hstep : ∀ v ∈ vs, ∀ {found next : List Json}, MergesFirst keys path v found next →
      ((∀ w ∈ found, w.isCanonical = true) ∧ Sole keys path place found) →
      ((∀ w ∈ next, w.isCanonical = true) ∧ Sole keys path place next) ∧
        (given keys path place [v] ≠ [] →
          (∀ w ∈ next, w.isCanonical = true) ∧ held keys path place next = []) := by
    intro v hv found next hmerges hinv
    have hnext := isCanonical_mergesFirst (hvs v hv) hinv.1 hmerges
    obtain ⟨hsole, hcleared⟩ := hfirst v hv hmerges hinv.1 hinv.2
    exact ⟨⟨hnext, hsole⟩, fun hacts => ⟨hnext, hcleared hacts⟩⟩
  -- once nothing is there, deletions bring nothing back
  have hkept : ∀ v ∈ vs, ∀ {found next : List Json}, MergesFirst keys path v found next →
      ((∀ w ∈ found, w.isCanonical = true) ∧ held keys path place found = []) →
      (∀ w ∈ next, w.isCanonical = true) ∧ held keys path place next = [] := by
    intro v hv found next hmerges hinv
    obtain ⟨hcanonical, hnil⟩ := hinv
    have hsub : [v] ⊆ vs := List.cons_subset.mpr ⟨hv, List.nil_subset _⟩
    refine ⟨isCanonical_mergesFirst (hvs v hv) hcanonical hmerges, ?_⟩
    refine List.eq_nil_iff_forall_not_mem.mpr ?_
    exact held_kept hkeys hplace (fun w hw => hvs w (hsub hw)) hcanonical
      (fun u hu => leaves_deleted (hgiven u (valuesAt_subset hsub hu)))
      (hreplace.subset hsub) (.cons hmerges .nil) fun w hw => by rw [hnil] at hw; cases hw
  obtain ⟨hmerged, hreached⟩ := h.reaches hstep hkept ⟨hfound, hsole⟩
  refine ⟨hmerged.2, fun hne => (hreached ?_).2⟩
  obtain ⟨u, hu⟩ := List.exists_mem_of_ne_nil _ hne
  obtain ⟨v, hv, hu⟩ := mem_valuesAt.mp hu
  exact ⟨v, hv, List.ne_nil_of_mem hu⟩

/-- **Deletions take out.**  An item that a patch only deletes is not there afterwards, if it
    was reached through first values. -/
theorem held_cleared {vs found merged : List Json}
    (hplace : ∀ step ∈ place, step.IsPlain) (hvs : ∀ v ∈ vs, v.isCanonical = true)
    (hfound : ∀ v ∈ found, v.isCanonical = true)
    (hgiven : ∀ u ∈ given keys path place vs, isDeleteItem u = true)
    (hreplace : ReplacesNone keys path place vs) (h : MergesAll keys path vs found merged)
    (hsole : Sole keys path place found) :
    Sole keys path place merged ∧
      (given keys path place vs ≠ [] → held keys path place merged = []) := by
  induction place generalizing path vs found merged with
  | nil =>
      refine cleared_mergesAll hkeys hplace hvs hgiven hreplace ?_ h hfound hsole
      intro v hv found next hmerges _ htail
      have hnil : next = [] := by
        cases hmerges with
        | lost => exact htail
        | merged hvalue =>
            rw [mergeValue_deleteItem (hgiven v hv)] at hvalue
            cases hvalue
            exact htail
      exact ⟨sole_of_nil hnil, fun _ => hnil⟩
  | cons step place ih =>
      obtain ⟨hstep, hrest⟩ := List.forall_mem_cons.mp hplace
      refine cleared_mergesAll hkeys hplace hvs hgiven hreplace ?_ h hfound hsole
      intro v hv found next hmerges hcanonical hsole
      refine cleared_mergesFirst hkeys hstep hrest hgiven hreplace hv (hvs v hv) hcanonical ?_
        hsole.1 hmerges
      intro merged hall
      exact ih hrest (parts_canonical (hvs v hv)) (headParts_canonical hcanonical)
        (fun u hu => hgiven u (valuesAt_parts_subset hv hu)) (hreplace.behind hv) hall hsole.2

/-! ## What is merged all the way -/

omit hkeys in
/-- Whether a step leads into a value that is merged. -/
def Opens (keys : MergeKeys) (path : List String) : MergeStep → Json → Prop
  | .member _, .obj _ => True
  | .item _, .arr _ => (keys.keyFor? (".".intercalate path)).isSome = true
  | _, _ => False

omit hkeys in
/-- A value of a patch that is merged as a whole. -/
def OnlyMerges : Json → Prop
  | .obj ms => (directive? ms = none ∨ directive? ms = some "merge") ∧ retains ms = false
  | .arr items => items.any isReplaceItem = false
  | _ => True

omit hkeys in
/-- A value of a patch that only merges on the way to a place. -/
def Calm (keys : MergeKeys) : List String → List MergeStep → Json → Prop
  | _, [], _ => True
  | path, step :: place, v => Opens keys path step v ∧ OnlyMerges v ∧
    ∀ c ∈ parts isStoredItem keys path step v, Calm keys (step.behind path) place c

omit hkeys in
/-- Values that lead on all the way to a place, whether or not anything stands there. -/
def Leads (keys : MergeKeys) : List String → List MergeStep → List Json → Prop
  | _, [], _ => True
  | path, step :: place, found => (∃ d, found.head? = some d ∧ Opens keys path step d) ∧
    Leads keys (step.behind path) place (headParts keys path step found)

/-- What only merges into a value that leads on is merged into its parts. -/
theorem mergesAll_of_opens {step : MergeStep} (hstep : step.IsPlain) {v d : Json}
    (hv : v.isCanonical = true) (hd : d.isCanonical = true) (hopens : Opens keys path step v)
    (hmerges : OnlyMerges v) (hleads : Opens keys path step d) {r : Option Json}
    (h : mergeValue keys path v (some d) = .ok r) :
    ∃ x, r = some x ∧ Opens keys path step x ∧
      MergesAll keys (step.behind path) (parts isStoredItem keys path step v)
        (parts (fun _ => true) keys path step d) (parts (fun _ => true) keys path step x) := by
  cases step with
  | member name =>
      cases v with
      | obj child =>
          cases d with
          | obj existing =>
              obtain ⟨hdirective, hretains⟩ := hmerges
              have hkeep : isDelete child = false := by
                rw [isDelete]
                rcases hdirective with heq | heq <;> rw [heq] <;> rfl
              rw [mergeValue_object hkeep] at h
              obtain ⟨ms, hms, rfl⟩ := map_ok h
              rcases mergeObject_ok hms with ⟨hreplace, -⟩ | ⟨-, merged, hmerged, hkept⟩
              · exact absurd hreplace (by rcases hdirective with heq | heq <;> rw [heq] <;> decide)
              · refine ⟨_, rfl, trivial, ?_⟩
                have hinc := increasing_mergeMembers (Json.increasing_of_isCanonical hd) hmerged
                rcases get?_retainKeys hinc hkept name with hsame | ⟨hlost, -⟩
                · have hmember := mergesAll_member hstep hv hd hmerged
                  rw [← hsame] at hmember
                  exact hmember
                · rw [hretains] at hlost
                  cases hlost
          | _ => cases hleads
      | _ => cases hopens
  | item k =>
      cases v with
      | arr items =>
          cases d with
          | arr existing =>
              obtain ⟨key, hkey⟩ := Option.isSome_iff_exists.mp hopens
              rw [mergeValue_keyed hkey, mergeList,
                show items.any isReplaceItem = false from hmerges, if_neg Bool.false_ne_true] at h
              obtain ⟨merged, hmerged, rfl⟩ := map_ok h
              refine ⟨_, rfl, hopens, ?_⟩
              rw [parts_item hkey, parts_item hkey, parts_item hkey]
              exact mergesAll_withKey (hkeys _ _ hkey) ((Json.isCanonical_arr_iff items).mp hv)
                ((Json.isCanonical_arr_iff existing).mp hd) hmerged k
          | _ => cases hleads
      | _ => cases hopens
  | place index => cases v <;> cases hopens

omit hkeys in
/-- What only deletes makes nothing of nothing. -/
theorem mergeValue_deleteOnly {u : Json} (hu : isDeleteOnly u = true) {r : Option Json}
    (h : mergeValue keys path u none = .ok r) : r = none := by
  cases mergeValue_ok h with
  | removed => rfl
  | untouched => rfl
  | stored hnull hadds =>
      rw [hu] at hadds
      cases hadds

/-- **A calm patch.**  Where a patch only merges on the way to a place, and the document leads
    there but has nothing there, deletions leave nothing there. -/
theorem held_calm {vs found merged : List Json}
    (hplace : ∀ step ∈ place, step.IsPlain) (hvs : ∀ v ∈ vs, v.isCanonical = true)
    (hfound : ∀ v ∈ found, v.isCanonical = true)
    (hgiven : ∀ u ∈ given keys path place vs, isDeleteOnly u = true)
    (hcalm : ∀ v ∈ vs, Calm keys path place v) (h : MergesAll keys path vs found merged)
    (hnil : held keys path place found = []) (hleads : Leads keys path place found) :
    held keys path place merged = [] ∧ Leads keys path place merged := by
  induction place generalizing path vs found merged with
  | nil =>
      refine ⟨h.keeps (fun l => l = []) ?_ hnil, trivial⟩
      intro v hv found next hmerges hnil
      cases hmerges with
      | lost => rw [hnil, List.tail_nil]
      | merged hvalue =>
          rw [hnil] at hvalue ⊢
          rw [mergeValue_deleteOnly (hgiven v hv) hvalue]
          rfl
  | cons step place ih =>
      obtain ⟨hstep, hrest⟩ := List.forall_mem_cons.mp hplace
      refine (h.keeps (fun l => (∀ w ∈ l, w.isCanonical = true) ∧
        held keys path (step :: place) l = [] ∧ Leads keys path (step :: place) l) ?_
          ⟨hfound, hnil, hleads⟩).2
      intro v hv found next hmerges hinv
      obtain ⟨hcanonical, hnil, ⟨d, hhead, hd⟩, hleads⟩ := hinv
      obtain ⟨hopens, honly, hparts⟩ := hcalm v hv
      refine ⟨isCanonical_mergesFirst (hvs v hv) hcanonical hmerges, ?_⟩
      have htail : held keys path (step :: place) found.tail = [] :=
        valuesAt_eq_nil_of_subset (List.tail_sublist found).subset hnil
      have hheads : headParts keys path step found = parts (fun _ => true) keys path step d := by
        rw [headParts, hhead, Option.toList_some, List.flatMap_singleton]
      cases hmerges with
      | @lost fields hfields hretains =>
          subst hfields
          rw [honly.2] at hretains
          cases hretains
      | @merged r hvalue =>
          rw [hhead] at hvalue
          obtain ⟨x, rfl, hx, hall⟩ := mergesAll_of_opens hkeys hstep (hvs v hv)
            (hcanonical d (List.mem_of_head? hhead)) hopens honly hd hvalue
          rw [← hheads] at hall
          obtain ⟨hxnil, hxleads⟩ := ih hrest (parts_canonical (hvs v hv))
            (headParts_canonical hcanonical) (fun u hu => hgiven u (valuesAt_parts_subset hv hu))
            hparts hall (List.subset_nil.mp (hnil ▸ held_headParts_subset found)) hleads
          rw [Option.toList_some, List.singleton_append]
          refine ⟨?_, ⟨x, rfl, hx⟩, ?_⟩
          · rw [held_cons, hxnil, htail, List.append_nil]
          · rw [headParts_cons]
            exact hxleads

/-! ## A whole patch -/

omit hkeys in

/-- The merge keys of every known kind are regular. -/
theorem regular_of_forTag? {tag : TypeTag} (h : MergeKeys.forTag? tag = some keys) :
    Regular keys := by
  intro path key hkey
  obtain ⟨_, _, htables, -⟩ := List.lookup_eq_some_iff.mp h
  obtain ⟨_, _, htable, -⟩ := List.lookup_eq_some_iff.mp hkey
  have hall : ∀ entry ∈ MergeKeys.builtin, ∀ k ∈ entry.2, isDirectiveName k.2 = false := by
    decide +kernel
  refine hall (tag, keys) ?_ (path, key) ?_
  · rw [htables]
    exact List.mem_append_right _ List.mem_cons_self
  · rw [htable]
    exact List.mem_append_right _ List.mem_cons_self

omit hkeys in
/-- A patch that is applied is merged into the document. -/
theorem mergeValue_of_applyStrategic {t : Target} (hkeys : t.tag?.bind MergeKeys.forTag? = some keys)
    {body doc out : Json} (h : applyStrategic t body doc = .ok out) :
    mergeValue keys [] body (some doc) = .ok (some out) := by
  rw [applyStrategic, hkeys] at h
  cases body with
  | obj patch =>
      cases doc with
      | obj base =>
          obtain ⟨ms, hms, rfl⟩ := map_ok h
          have hkeep : isDelete patch = false := by
            rw [isDelete]
            rcases mergeObject_ok hms with ⟨heq, -⟩ | ⟨heq | heq, -⟩ <;> rw [heq] <;> rfl
          rw [mergeValue_object hkeep, hms]
          rfl
      | _ => cases h
  | _ => cases h

omit hkeys in

/-- The same with the body and the document as lists of one value. -/
theorem mergesAll_of_applyStrategic {t : Target} (hkeys : t.tag?.bind MergeKeys.forTag? = some keys)
    {body doc out : Json} (h : applyStrategic t body doc = .ok out) :
    MergesAll keys [] [body] [doc] [out] :=
  .cons (.merged (mergeValue_of_applyStrategic hkeys h)) .nil

omit hkeys in
/-- **What a patch deletes is not there.**  Let the patch address a place with deletions only,
    and let it replace no list that leads to an item there.

    * What it marks for deletion there is not there afterwards, if the document has one value at
      most at each place on the way.
    * Where the document has nothing, an empty list may stand afterwards, and nothing else.
    * Not even that stands there if the patch gives no list there, or if it only merges on the
      way and the document leads on all the way. -/
theorem applyStrategic_deletion {t : Target}
    (hkeys : t.tag?.bind MergeKeys.forTag? = some keys) {body doc out : Json}
    (hbody : body.isCanonical = true) (hdoc : doc.isCanonical = true)
    (h : applyStrategic t body doc = .ok out) (hplace : ∀ step ∈ place, step.IsPlain)
    (hdeletes : ∀ u ∈ given keys [] place [body], isDeleteOnly u = true)
    (hreplace : ReplacesNone keys [] place [body]) :
    (given keys [] place [body] ≠ [] →
      (∀ u ∈ given keys [] place [body], isDeleteItem u = true) →
      (∀ around, around <+: place → (held keys [] around [doc]).length ≤ 1) →
        held keys [] place [out] = []) ∧
    (held keys [] place [doc] = [] → ∀ y ∈ held keys [] place [out], y = .arr []) ∧
    (held keys [] place [doc] = [] →
      (∀ u ∈ given keys [] place [body], isDeleteItem u = true) ∨
        Calm keys [] place body ∧ Leads keys [] place [doc] → held keys [] place [out] = []) := by
  obtain ⟨tag, -, htag⟩ := Option.bind_eq_some_iff.mp hkeys
  have hregular := regular_of_forTag? htag
  have hall := mergesAll_of_applyStrategic hkeys h
  have hvs : ∀ v ∈ [body], v.isCanonical = true := List.forall_mem_singleton.mpr hbody
  have hfound : ∀ v ∈ [doc], v.isCanonical = true := List.forall_mem_singleton.mpr hdoc
  refine ⟨fun hne hitems hsingle => ?_, fun hnil => ?_, fun hnil => ?_⟩
  · exact (held_cleared hregular hplace hvs hfound hitems hreplace hall
      (sole_of_single hsingle)).2 hne
  · exact held_kept hregular hplace hvs hfound (fun u hu => leaves_deleteOnly (hdeletes u hu))
      hreplace hall fun y hy => by rw [hnil] at hy; cases hy
  · rintro (hitems | ⟨hcalm, hleads⟩)
    · refine List.eq_nil_iff_forall_not_mem.mpr ?_
      exact held_kept hregular hplace hvs hfound (fun u hu => leaves_deleted (hitems u hu))
        hreplace hall fun y hy => by rw [hnil] at hy; cases hy
    · exact (held_calm hregular hplace hvs hfound hdeletes
        (List.forall_mem_singleton.mpr hcalm) hall hnil hleads).1

/-! ## Patches of a pod -/

omit hkeys

/-- The merge keys of a pod. -/
def podKeys : MergeKeys := MergeKeys.metadata ++ MergeKeys.podSpec "spec"

theorem forTag?_pod : Target.pod.tag?.bind MergeKeys.forTag? = some podKeys := by decide +kernel

theorem keyFor?_containers : podKeys.keyFor? "spec.containers" = some "name" := by decide +kernel

/-- A pod with the given containers. -/
def podOf (containers : List Json) : Json :=
  .obj [("apiVersion", .str "v1"), ("kind", .str "Pod"),
    ("metadata", .obj [("name", .str "gemma")]), ("spec", .obj [("containers", .arr containers)])]

/-- A pod whose container has a variable. -/
def runningPod : Json :=
  podOf [.obj [("env", .arr [.obj [("name", .str "A"), ("value", .str "1")]]),
    ("image", .str "app:1"), ("name", .str "app")]]

/-- The item that deletes a named one. -/
def deletionOf (name : String) : Json := .obj [("$patch", .str "delete"), ("name", .str name)]

/-- A patch that deletes the variable, and an init container that is not there. -/
def deletingPatch : Json :=
  .obj [("spec", .obj [
    ("containers", .arr [.obj [("env", .arr [deletionOf "A"]), ("name", .str "app")]]),
    ("initContainers", .arr [deletionOf "setup"])])]

theorem applyStrategic_deletingPatch : applyStrategic .pod deletingPatch runningPod =
    .ok (podOf [.obj [("env", .arr []), ("image", .str "app:1"), ("name", .str "app")]]) := by
  cbv

/-- The variable of the container. -/
def variablePlace : List MergeStep :=
  [.member "spec", .member "containers", .item (.text "app"), .member "env", .item (.text "A")]

/-- The init containers. -/
def initPlace : List MergeStep := [.member "spec", .member "initContainers"]

/-- The variable is not there afterwards, nor is a list of init containers. -/
theorem applyStrategic_deletion_pod :
    ∃ out, applyStrategic .pod deletingPatch runningPod = .ok out ∧
      held podKeys [] variablePlace [runningPod] ≠ [] ∧
      held podKeys [] variablePlace [out] = [] ∧ held podKeys [] initPlace [out] = [] := by
  have hbody : deletingPatch.isCanonical = true := by decide +kernel
  have hdoc : runningPod.isCanonical = true := by decide +kernel
  have hvariable := applyStrategic_deletion forTag?_pod hbody hdoc applyStrategic_deletingPatch
    (show ∀ step ∈ variablePlace, step.IsPlain by decide +kernel) (by decide +kernel)
    (.of_dropLast (by decide +kernel))
  have hinit := applyStrategic_deletion forTag?_pod hbody hdoc applyStrategic_deletingPatch
    (show ∀ step ∈ initPlace, step.IsPlain by decide +kernel) (by decide +kernel)
    (.of_dropLast (by decide +kernel))
  have hsingle : ∀ around ∈ variablePlace.inits,
      (held podKeys [] around [runningPod]).length ≤ 1 := by decide +kernel
  have hcalm : Calm podKeys [] initPlace deletingPatch := by
    refine ⟨trivial, ⟨Or.inl rfl, rfl⟩, List.forall_mem_singleton.mpr ?_⟩
    exact ⟨trivial, ⟨Or.inl rfl, rfl⟩, fun _ _ => trivial⟩
  have hleads : Leads podKeys [] initPlace [runningPod] :=
    ⟨⟨_, rfl, trivial⟩, ⟨_, rfl, trivial⟩, trivial⟩
  refine ⟨_, applyStrategic_deletingPatch, by decide +kernel, ?_, ?_⟩
  · exact hvariable.1 (by decide +kernel) (by decide +kernel)
      fun around h => hsingle around ((List.mem_inits _ _).mpr h)
  · exact hinit.2.2 (by decide +kernel) (Or.inr ⟨hcalm, hleads⟩)

/-- A patch whose containers replace others, and delete one in passing. -/
def replacingPatch : Json :=
  .obj [("spec", .obj [("containers", .arr [.obj [("$patch", .str "replace")], deletionOf "old",
    .obj [("image", .str "app:2"), ("name", .str "new")]])])]

theorem applyStrategic_replacingPatch : applyStrategic .pod replacingPatch runningPod =
    .ok (podOf [.obj [("name", .str "old")], .obj [("image", .str "app:2"), ("name", .str "new")]]) := by
  simp [applyStrategic, forTag?_pod, replacingPatch, runningPod, podOf, deletionOf, mergeObject,
    directed, directive?, mergeMembers, isDirectiveName, String.startsWith_string_iff,
    Members.get?, isDelete, keyFor?_containers, Json.asText?, isReplaceItem, replacedItems,
    isDirectiveOnly, strip, stripMembers, isStripped, Json.isNull,
    isDeleteItem]
  rfl

/-- A patch that adds a container and deletes a variable that it does not have. -/
def addingPatch : Json :=
  .obj [("spec", .obj [("containers", .arr [
    .obj [("env", .arr [deletionOf "A"]), ("name", .str "new")]])])]

theorem applyStrategic_addingPatch : applyStrategic .pod addingPatch (podOf []) =
    .ok (podOf [.obj [("env", .arr []), ("name", .str "new")]]) := by
  simp [applyStrategic, forTag?_pod, addingPatch, podOf, deletionOf, mergeObject,
    directed, directive?, mergeMembers, isDirectiveName, String.startsWith_string_iff,
    Members.get?, isDelete, keyFor?_containers, Json.asText?, isReplaceItem, mergeItems, place?,
    isDirectiveOnly, strip, stripMembers, stripItems, isStripped,
    Json.isNull, isDeleteItem]
  rfl

/-! ## Patches of a service -/

/-- The merge keys of a service. -/
def serviceKeys : MergeKeys := MergeKeys.metadata ++ [("spec.ports", "port")]

/-- A port of a service. -/
def portOf (protocol : String) : Json :=
  .obj [("name", .str protocol), ("port", .int 53), ("protocol", .str protocol)]

/-- A service with the given ports. -/
def serviceOf (ports : List Json) : Json :=
  .obj [("apiVersion", .str "v1"), ("kind", .str "Service"),
    ("metadata", .obj [("name", .str "dns")]), ("spec", .obj [("ports", .arr ports)])]

/-- A patch that deletes a port. -/
def closingPatch : Json :=
  .obj [("spec", .obj [("ports", .arr [.obj [("$patch", .str "delete"), ("port", .int 53)]])])]

theorem applyStrategic_closingPatch :
    applyStrategic .service closingPatch (serviceOf [portOf "UDP", portOf "TCP"]) =
      .ok (serviceOf [portOf "TCP"]) := by
  cbv

/-- **Deletions that create, or do not delete.**  A list that replaces another one keeps what it
    deletes, a list of deletions in an item that is added becomes an empty one, and of two
    items with one key the second one stays. -/
theorem deletion_creates :
    (∃ out, applyStrategic .pod replacingPatch runningPod = .ok out ∧
      let place := [.member "spec", .member "containers", .item (.text "old")]
      given podKeys [] place [replacingPatch] ≠ [] ∧
        (∀ u ∈ given podKeys [] place [replacingPatch], isDeleteItem u = true) ∧
        held podKeys [] place [runningPod] = [] ∧ held podKeys [] place [out] ≠ []) ∧
    (∃ out, applyStrategic .pod addingPatch (podOf []) = .ok out ∧
      let place := [.member "spec", .member "containers", .item (.text "new"), .member "env"]
      given podKeys [] place [addingPatch] ≠ [] ∧
        (∀ u ∈ given podKeys [] place [addingPatch], isDeleteOnly u = true) ∧
        held podKeys [] place [podOf []] = [] ∧ held podKeys [] place [out] ≠ []) ∧
    ∃ out, applyStrategic .service closingPatch (serviceOf [portOf "UDP", portOf "TCP"]) = .ok out ∧
      let place := [.member "spec", .member "ports", .item (.whole 53)]
      given serviceKeys [] place [closingPatch] ≠ [] ∧
        (∀ u ∈ given serviceKeys [] place [closingPatch], isDeleteItem u = true) ∧
        held serviceKeys [] place [out] ≠ [] := by
  refine ⟨⟨_, applyStrategic_replacingPatch, ?_⟩, ⟨_, applyStrategic_addingPatch, ?_⟩,
    ⟨_, applyStrategic_closingPatch, ?_⟩⟩
  · refine ⟨?_, ?_, ?_, ?_⟩
    all_goals decide +kernel
  · refine ⟨?_, ?_, ?_, ?_⟩
    all_goals decide +kernel
  · refine ⟨?_, ?_, ?_⟩
    all_goals decide +kernel

end Patch

end ModelOperator
